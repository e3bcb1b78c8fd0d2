/-!
# Inherited functions

Every value inherits functions from the kind that it is of, and records inherit the ones that all
objects have. No function is a value here, but paths in payload text may pass through one, to its name
or to the number of its parameters.

Names and numbers of parameters are those of `Object.prototype`, `Array.prototype` and the like.
-/

namespace FailureWire

/-- A function that values inherit. -/
structure Method where
  name : String
  parameters : Nat
deriving DecidableEq, Repr

namespace Method

def named (parameters : Nat) (names : List String) : List Method := names.map fun n => ⟨n, parameters⟩

/-- The functions that all objects inherit. -/
def ofObjects : List Method :=
  named 0 ["toString", "toLocaleString", "valueOf"] ++
    named 1 ["hasOwnProperty", "isPrototypeOf", "propertyIsEnumerable", "__lookupGetter__",
      "__lookupSetter__"] ++
    named 2 ["__defineGetter__", "__defineSetter__"]

def ofFunctions : List Method := [⟨"apply", 2⟩, ⟨"bind", 1⟩, ⟨"call", 1⟩]

def ofNumbers : List Method :=
  ⟨"toString", 1⟩ :: named 1 ["toExponential", "toFixed", "toPrecision"]

/-- The functions that lists and numeric arrays share. -/
def ofSequences : List Method :=
  named 0 ["entries", "keys", "values", "reverse", "toReversed"] ++
    named 1 ["at", "every", "fill", "filter", "find", "findIndex", "findLast", "findLastIndex",
      "forEach", "includes", "indexOf", "join", "lastIndexOf", "map", "reduce", "reduceRight", "some",
      "sort", "toSorted"] ++
    named 2 ["copyWithin", "slice", "with"]

def ofLists : List Method :=
  ofSequences ++ named 0 ["flat", "pop", "shift"] ++ named 1 ["concat", "flatMap", "push", "unshift"] ++
    named 2 ["splice", "toSpliced"]

def ofNumericArrays : List Method := ofSequences ++ [⟨"set", 1⟩, ⟨"subarray", 2⟩]

def ofTexts : List Method :=
  named 0 ["big", "blink", "bold", "fixed", "italics", "small", "strike", "sub", "sup", "normalize",
      "isWellFormed", "toWellFormed", "trim", "trimStart", "trimEnd", "toLowerCase", "toUpperCase",
      "toLocaleLowerCase", "toLocaleUpperCase"] ++
    named 1 ["anchor", "at", "charAt", "charCodeAt", "codePointAt", "concat", "endsWith", "fontcolor",
      "fontsize", "includes", "indexOf", "lastIndexOf", "link", "localeCompare", "match", "matchAll",
      "repeat", "search", "startsWith"] ++
    named 2 ["padEnd", "padStart", "replace", "replaceAll", "slice", "split", "substr", "substring"]

def ofDates : List Method :=
  named 0 ["toDateString", "toTimeString", "toISOString", "toUTCString", "toLocaleDateString",
      "toLocaleTimeString", "getTime", "getTimezoneOffset", "getYear", "getDate", "getDay",
      "getFullYear", "getHours", "getMilliseconds", "getMinutes", "getMonth", "getSeconds",
      "getUTCDate", "getUTCDay", "getUTCFullYear", "getUTCHours", "getUTCMilliseconds",
      "getUTCMinutes", "getUTCMonth", "getUTCSeconds"] ++
    named 1 ["toJSON", "setTime", "setYear", "setDate", "setMilliseconds", "setUTCDate",
      "setUTCMilliseconds"] ++
    named 2 ["setMonth", "setSeconds", "setUTCMonth", "setUTCSeconds"] ++
    named 3 ["setFullYear", "setMinutes", "setUTCFullYear", "setUTCMinutes"] ++
    named 4 ["setHours", "setUTCHours"]

def ofPatterns : List Method := [⟨"exec", 1⟩, ⟨"test", 1⟩, ⟨"compile", 2⟩]

def ofAddresses : List Method := [⟨"toJSON", 0⟩]

/-- The functions of the search parameters of addresses. -/
def ofSearches : List Method :=
  named 0 ["entries", "keys", "sort", "values"] ++
    named 1 ["delete", "forEach", "get", "getAll", "has"] ++ named 2 ["append", "set"]

/-- The name of the function that goes by this name, too. -/
def mainName (name : String) : String :=
  match name with
  | "trimLeft" => "trimStart"
  | "trimRight" => "trimEnd"
  | "toGMTString" => "toUTCString"
  | name => name

/-- The function that goes by this name among these, or among those that all objects inherit. -/
def find? (methods : List Method) (name : String) : Option Method :=
  (methods ++ ofObjects).find? fun m => m.name = mainName name

end Method

/-- Whether every object has a property of this name without listing it. -/
def isInherited (name : String) : Bool :=
  name = "constructor" || name = "__proto__" || (Method.find? [] name).isSome

end FailureWire
