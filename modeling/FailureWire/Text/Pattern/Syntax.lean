import FailureWire.Number.Decimal
import FailureWire.Text.Identifier
import FailureWire.Text.Pattern.Property

/-!
# Syntax of patterns

Which sources are patterns, for each of three sets of rules. By the `plain` rules almost every escape
stands for its character, bare brackets and braces stand for themselves, and a source is read by units
of 16 bits. By the `unicode` rules it is read by characters, and every escape must be one that is
defined. By the `sets` rules classes may, besides, be nested, united, subtracted and intersected.

Readers take the rest of a source and give what they read together with the rest behind it, or nothing
if the source is no pattern. `scan` runs through a source once; it keeps the groups that are open, the
names of groups, and the names that are referred to.

The rules are those of `new RegExp` without flags, with `u` and with `v`.
-/

namespace FailureWire.Pattern

/-- A sign of a source: a character, or one half of a character beyond 16 bits. -/
inductive Sign where
  | char (c : Char)
  | half (unit : Nat)
deriving DecidableEq, Repr

/-- Which rules a source is read by. -/
inductive Mode where
  | plain | unicode | sets
deriving DecidableEq, Repr

/-- What a source is read by: its rules, and whether any of its groups has a name. -/
structure Rules where
  mode : Mode
  named : Bool

namespace Sign

def code : Sign → Nat
  | .char c => c.toNat
  | .half unit => unit

def ofChar (mode : Mode) (c : Char) : List Sign :=
  if mode = .plain ∧ 0x10000 ≤ c.toNat then
    let n := c.toNat - 0x10000
    [.half (0xD800 + n / 0x400), .half (0xDC00 + n % 0x400)]
  else [.char c]

def isOneOf (chars : String) : Sign → Bool
  | .char c => chars.toList.contains c
  | .half _ => false

def digit? : Sign → Option Nat
  | .char c => Number.digitValue? c
  | .half _ => none

def isDigit : Sign → Bool
  | .char c => c.isDigit
  | .half _ => false

end Sign

/-- Whether every escape must be one that is defined. -/
def Mode.isStrict (mode : Mode) : Bool := mode ≠ .plain

def signs (mode : Mode) (source : List Char) : List Sign := source.flatMap (Sign.ofChar mode)

/-! ## Numbers -/

/-- A number of exactly `width` digits of base 16. -/
def hexDigits? : Nat → List Sign → Option (Nat × List Sign)
  | 0, s => some (0, s)
  | width + 1, c :: s => do
    let d ← c.digit?
    if 16 ≤ d then none
    let (n, rest) ← hexDigits? width s
    return (d * Nat.pow 16 width + n, rest)
  | _ + 1, [] => none

/-- The code that digits of base 16 in braces spell, behind the opening brace. -/
def bracedCode? (read : Option Nat) : List Sign → Option (Nat × List Sign)
  | [] => none
  | .char '}' :: rest => read.map fun n => (n, rest)
  | c :: rest => do
    let d ← c.digit?
    let n := 16 * read.getD 0 + d
    if 16 ≤ d ∨ 0x10FFFF < n then none
    bracedCode? (some n) rest

/-- Whether a code is a first half of a character beyond 16 bits. -/
def isHighHalf (code : Nat) : Bool := 0xD800 ≤ code && code < 0xDC00

/-- Whether a code is a second half of a character beyond 16 bits. -/
def isLowHalf (code : Nat) : Bool := 0xDC00 ≤ code && code < 0xE000

/-- The character of two halves. -/
def joinHalves (high low : Nat) : Nat := 0x10000 + (high - 0xD800) * 0x400 + (low - 0xDC00)

/-- A code behind the escape `u`. In strict rules it may stand in braces, and two escaped halves make
one character. -/
def unicodeEscape? (strict : Bool) (s : List Sign) : Option (Nat × List Sign) :=
  match strict, s with
  | true, .char '{' :: rest => bracedCode? none rest
  | strict, s => do
    let (high, rest) ← hexDigits? 4 s
    match rest with
    | .char '\\' :: .char 'u' :: more =>
      match hexDigits? 4 more with
      | some (low, behind) =>
        if strict ∧ isHighHalf high ∧ isLowHalf low then return (joinHalves high low, behind)
        else return (high, rest)
      | none => return (high, rest)
    | rest => return (high, rest)

/-- A code of up to three digits of base 8, below 256. -/
def octalCode (first : Nat) (s : List Sign) : Nat × List Sign :=
  let digit? (c : Sign) : Option Nat := c.digit?.filter (· < 8)
  match s with
  | [] => (first, [])
  | c :: rest =>
    match digit? c with
    | none => (first, s)
    | some second =>
      let n := 8 * first + second
      match rest with
      | [] => (n, [])
      | c :: more =>
        match digit? c with
        | some third => if n < 32 then (8 * n + third, more) else (n, rest)
        | none => (n, rest)

/-! ## Escapes -/

/-- The signs that have a meaning of their own outside of classes. -/
def syntaxSigns : String := "^$\\.*+?()[]\x7b\x7d|/"

/-- The signs that may be escaped in a class of the `sets` rules, apart from those above. -/
def classPunctuation : String := "&-!#%,:;<=>@`~"

def mayStandForItself (rules : Rules) (inClass : Bool) (c : Sign) : Bool :=
  if rules.mode.isStrict then
    c.isOneOf syntaxSigns || (inClass && c.isOneOf "-") ||
      (rules.mode = .sets && inClass && c.isOneOf classPunctuation)
  else !(rules.named && c.isOneOf "k")

/-- The letters whose escapes stand for control characters, with their codes. -/
def controlEscape? (c : Sign) : Option Nat :=
  match c with
  | .char 'f' => some 12
  | .char 'n' => some 10
  | .char 'r' => some 13
  | .char 't' => some 9
  | .char 'v' => some 11
  | _ => none

/-- The code of a control character behind the escape `c`. In plain rules an escape without a letter
is a backslash, and the sign `c` follows. -/
def controlLetter? (rules : Rules) (inClass : Bool) (s : List Sign) : Option (Nat × List Sign) :=
  let otherwise : Option (Nat × List Sign) :=
    if rules.mode.isStrict then none else some ('\\'.toNat, .char 'c' :: s)
  match s with
  | [] => otherwise
  | c :: rest =>
    if Identifier.isAsciiLetter c.code then some (c.code % 32, rest)
    else if !rules.mode.isStrict && inClass && (c.isDigit || c.isOneOf "_") then
      some (c.code % 32, rest)
    else otherwise

/-- A character behind a backslash. -/
def characterEscape? (rules : Rules) (inClass : Bool) : List Sign → Option (Nat × List Sign)
  | [] => none
  | c :: rest =>
    let strict := rules.mode.isStrict
    let itself : Option (Nat × List Sign) := if strict then none else some (c.code, rest)
    match controlEscape? c with
    | some code => some (code, rest)
    | none =>
      match c with
      | .char 'c' => controlLetter? rules inClass rest
      | .char 'x' => hexDigits? 2 rest <|> itself
      | .char 'u' => unicodeEscape? strict rest <|> itself
      | c =>
        match c.digit?.filter (· < 8) with
        | some d =>
          if !strict then some (octalCode d rest)
          else if d = 0 && !(rest.head?.any Sign.isDigit) then some (0, rest)
          else none
        | none => if mayStandForItself rules inClass c then some (c.code, rest) else none

/-- The name of a property up to a mark, and the rest from that mark on. -/
def propertyName? (marks : String) : List Sign → Option (String × List Sign)
  | [] => none
  | c :: rest =>
    if c.isOneOf marks then some ("", c :: rest)
    else match c with
      | .char letter =>
        if letter.isAlphanum || letter = '_' then do
          let (name, rest) ← propertyName? marks rest
          return (String.ofList (letter :: name.toList), rest)
        else none
      | .half _ => none

/-- A property in braces, behind the escape `p`, or `P` if it is `negated`; and what it holds of. -/
def property? (rules : Rules) (negated : Bool) : List Sign → Option (PropertyKind × List Sign)
  | .char '{' :: s => do
    let (name, s) ← propertyName? "=\x7d" s
    match s with
    | .char '=' :: s => do
      let (value, s) ← propertyName? "\x7d" s
      if isPropertyValue name value then return (.characters, s.drop 1) else none
    | s =>
      match ← propertyKind? name with
      | .characters => return (.characters, s.drop 1)
      | .strings => if rules.mode = .sets ∧ !negated then return (.strings, s.drop 1) else none
  | _ => none

/-- A class of characters behind a backslash. The outer `none` means that there is no such class, the
inner one that it is not well formed. -/
def classEscape? (rules : Rules) : List Sign → Option (Option (PropertyKind × List Sign))
  | [] => none
  | c :: rest =>
    if c.isOneOf "dDsSwW" then some (some (.characters, rest))
    else if rules.mode.isStrict && c.isOneOf "pP" then some (property? rules (c.isOneOf "P") rest)
    else none

/-! ## Classes -/

/-- A member of a class: one character, or several. -/
inductive Member where
  | one (code : Nat)
  | many (kind : PropertyKind)
deriving DecidableEq, Repr

/-- A member behind a backslash. -/
def memberEscape? (rules : Rules) (s : List Sign) : Option (Member × List Sign) :=
  match s with
  | .char 'b' :: rest => some (.one 8, rest)
  | s =>
    match classEscape? rules s with
    | some found => found.map fun (kind, rest) => (.many kind, rest)
    | none => (characterEscape? rules true s).map fun (code, rest) => (.one code, rest)

def member? (rules : Rules) : List Sign → Option (Member × List Sign)
  | [] => none
  | .char '\\' :: rest => memberEscape? rules rest
  | c :: rest => some (.one c.code, rest)

/-- Whether a range may have these ends. By the plain rules a dash beside a class is no range. -/
def isRange (rules : Rules) (low high : Member) : Bool :=
  match low, high with
  | .one a, .one b => a ≤ b
  | _, _ => !rules.mode.isStrict

/-- What is behind a class whose bracket was opened; `fuel` bounds its members. -/
def classEnd? (rules : Rules) : Nat → List Sign → Option (List Sign)
  | 0, _ => none
  | fuel + 1, s =>
    match s with
    | .char ']' :: rest => some rest
    | s => do
      let (low, s) ← member? rules s
      match s with
      | .char '-' :: .char ']' :: rest => some rest
      | .char '-' :: s => do
        let (high, s) ← member? rules s
        if isRange rules low high then classEnd? rules fuel s else none
      | s => classEnd? rules fuel s

/-! ## Classes of the `sets` rules -/

/-- A part of a class: a character, or a set that may hold strings. -/
inductive Operand where
  | character (code : Nat)
  | set (strings : Bool)
deriving DecidableEq, Repr

/-- Whether a part of a class may hold strings. -/
def Operand.hasStrings : Operand → Bool
  | .character _ => false
  | .set strings => strings

def classSyntaxSigns : String := "()[]\x7b\x7d/-\\|"

/-- The signs of which two in a row are kept for operations. -/
def doubledSigns : String := "&!#$%*+,.:;<=>?@^`~"

def setCharacter? (rules : Rules) : List Sign → Option (Nat × List Sign)
  | [] => none
  | .char '\\' :: .char 'b' :: rest => some (8, rest)
  | .char '\\' :: rest => characterEscape? rules true rest
  | c :: rest =>
    if c.isOneOf classSyntaxSigns then none
    else if c.isOneOf doubledSigns && rest.head? = some c then none
    else some (c.code, rest)

/-- Strings between bars up to a closing brace, behind the opening one; and whether one of them is
anything but a single character. `length` counts the characters of the current string. -/
def alternatives? (rules : Rules) : Nat → Nat → List Sign → Option (Bool × List Sign)
  | 0, _, _ => none
  | fuel + 1, length, s =>
    match s with
    | .char '}' :: rest => some (length ≠ 1, rest)
    | .char '|' :: rest => do
      let (strings, rest) ← alternatives? rules fuel 0 rest
      return (length ≠ 1 || strings, rest)
    | s => do
      let (_, rest) ← setCharacter? rules s
      alternatives? rules fuel (length + 1) rest

/-- Which operation joins the parts of a class. -/
inductive SetOperation where
  | union | subtraction | intersection
deriving DecidableEq, Repr

/-- The operation that the signs behind the first part of a class announce. -/
def operationOf : List Sign → SetOperation
  | .char '-' :: .char '-' :: _ => .subtraction
  | .char '&' :: .char '&' :: _ => .intersection
  | _ => .union

/-- Whether an operation may give strings, given whether its parts may. -/
def SetOperation.hasStrings : SetOperation → Bool → Bool → Bool
  | .union, a, b => a || b
  | .subtraction, a, _ => a
  | .intersection, a, b => a && b

mutual
/-- A part of a class. -/
def operand? (rules : Rules) : Nat → List Sign → Option (Operand × List Sign)
  | 0, _ => none
  | fuel + 1, s =>
    match s with
    | .char '[' :: rest => do
      let (strings, rest) ← setClass? rules fuel rest
      return (.set strings, rest)
    | .char '\\' :: .char 'q' :: .char '{' :: rest => do
      let (strings, rest) ← alternatives? rules fuel 0 rest
      return (.set strings, rest)
    | .char '\\' :: .char 'q' :: _ => none
    | .char '\\' :: rest => do
      match ← memberEscape? rules rest with
      | (.one code, rest) => return (.character code, rest)
      | (.many kind, rest) => return (.set (kind = .strings), rest)
    | s => do
      let (code, rest) ← setCharacter? rules s
      return (.character code, rest)

/-- The parts of a union behind its last part, up to the closing bracket; and whether they may hold
strings. -/
def unionEnd? (rules : Rules) (last : Operand) : Nat → List Sign → Option (Bool × List Sign)
  | 0, _ => none
  | fuel + 1, s =>
    match s with
    | .char ']' :: rest => some (last.hasStrings, rest)
    | .char '-' :: rest => do
      match last with
      | .set _ => none
      | .character low => do
        let (high, rest) ← setCharacter? rules rest
        if high < low then none
        unionEnd? rules (.set false) fuel rest
    | s => do
      let (next, rest) ← operand? rules fuel s
      let (strings, rest) ← unionEnd? rules next fuel rest
      return (last.hasStrings || strings, rest)

/-- The parts of a difference or an intersection, up to the closing bracket; and whether the whole may
hold strings, if what comes before may as `strings` says. -/
def operationEnd? (rules : Rules) (operation : SetOperation) (strings : Bool) :
    Nat → List Sign → Option (Bool × List Sign)
  | 0, _ => none
  | fuel + 1, s =>
    match s with
    | .char ']' :: rest => some (strings, rest)
    | s =>
      let behind := s.drop 2
      if operation = .union ∨ operationOf s ≠ operation then none
      else if operation = .intersection ∧ behind.head? = some (.char '&') then none
      else do
        let (next, rest) ← operand? rules fuel behind
        operationEnd? rules operation (operation.hasStrings strings next.hasStrings) fuel rest

/-- What is behind a class whose bracket was opened, and whether the class may hold strings. A class
that is negated must not. -/
def setClass? (rules : Rules) : Nat → List Sign → Option (Bool × List Sign)
  | 0, _ => none
  | fuel + 1, s => do
    let (negated, s) := match s with
      | .char '^' :: rest => (true, rest)
      | s => (false, s)
    match s with
    | .char ']' :: rest => some (false, rest)
    | s => do
      let (first, s) ← operand? rules fuel s
      let (strings, rest) ← match operationOf s with
        | .union => unionEnd? rules first fuel s
        | operation => operationEnd? rules operation first.hasStrings fuel s
      if negated ∧ strings then none
      return (strings && !negated, rest)
end

def behindClass? (rules : Rules) (s : List Sign) : Option (List Sign) :=
  let fuel := 2 * s.length + 2
  if rules.mode = .sets then (setClass? rules fuel s).map (·.2)
  else match s with
    | .char '^' :: rest => classEnd? rules fuel rest
    | s => classEnd? rules fuel s

/-! ## Groups -/

/-- How many groups a source still opens, and whether one of them has a name. -/
def countGroups (inClass : Bool) : List Sign → Nat × Bool
  | [] => (0, false)
  | .char '\\' :: _ :: rest => countGroups inClass rest
  | .char ']' :: rest => countGroups false rest
  | .char '[' :: rest => countGroups true rest
  | .char '(' :: rest =>
    let (n, named) := countGroups inClass rest
    if inClass then (n, named)
    else match rest with
      | .char '?' :: .char '<' :: .char '=' :: _ | .char '?' :: .char '<' :: .char '!' :: _ =>
        (n, named)
      | .char '?' :: .char '<' :: _ => (n + 1, true)
      | .char '?' :: _ => (n, named)
      | _ => (n + 1, named)
  | _ :: rest => countGroups inClass rest

/-- The codes of a name behind its opening mark, up to the closing one; `fuel` bounds their number. A
name is read by characters whatever the rules are. -/
def groupName? : Nat → Bool → List Sign → Option (List Nat × List Sign)
  | 0, _, _ => none
  | fuel + 1, first, s => do
    let (code, rest) ← match s with
      | [] => none
      | .char '\\' :: .char 'u' :: rest => unicodeEscape? true rest
      | .char '\\' :: _ => none
      | .half high :: .half low :: rest => some (joinHalves high low, rest)
      | c :: rest => some (c.code, rest)
    if first then
      if Identifier.isStart code then do
        let (name, rest) ← groupName? fuel false rest
        return (code :: name, rest)
      else none
    else if code = '>'.toNat then return ([], rest)
    else if Identifier.isPart code then do
      let (name, rest) ← groupName? fuel false rest
      return (code :: name, rest)
    else none

/-- A name in angle brackets, behind the opening one. -/
def nameBehind? (s : List Sign) : Option (List Nat × List Sign) := groupName? (s.length + 1) true s

/-! ## Quantifiers -/

/-- The largest count that a quantifier tells from unlimited repetition. -/
def countLimit : Nat := 2147483647

/-- Decimal digits at the head of a text, and the rest. -/
def spanDigits (s : List Sign) : List Sign × List Sign :=
  (s.takeWhile Sign.isDigit, s.dropWhile Sign.isDigit)

def countOf (digits : List Sign) : Nat :=
  min countLimit (digits.foldl (fun n d => 10 * n + d.digit?.getD 0) 0)

/-- The bounds of a quantifier in braces, behind the opening brace, and the rest. -/
def bounds? (s : List Sign) : Option (Nat × Nat × List Sign) :=
  match spanDigits s with
  | ([], _) => none
  | (low, .char '}' :: rest) => some (countOf low, countOf low, rest)
  | (low, .char ',' :: rest) =>
    match spanDigits rest with
    | ([], .char '}' :: rest) => some (countOf low, countLimit, rest)
    | (high, .char '}' :: rest) => some (countOf low, countOf high, rest)
    | _ => none
  | _ => none

def dropLazy : List Sign → List Sign
  | .char '?' :: rest => rest
  | rest => rest

/-! ## Patterns -/

/-- The number that the digits at the head of a text spell, below a limit, and the rest. -/
def groupNumber? (s : List Sign) : Option (Nat × List Sign) :=
  let (digits, rest) := spanDigits s
  let n := digits.foldl (fun n d => 10 * n + d.digit?.getD 0) 0
  if digits.isEmpty ∨ 65535 < n then none else some (n, rest)

/-- What is behind an escape outside of classes, behind its backslash, and the name that it refers to,
if it refers to one. `opened` is the number of groups opened before it. -/
def atomEscape? (rules : Rules) (opened : Nat) (s : List Sign) :
    Option (Option (List Nat) × List Sign) :=
  let strict := rules.mode.isStrict
  let character : Option (Option (List Nat) × List Sign) :=
    (characterEscape? rules false s).map fun (_, rest) => (none, rest)
  match s with
  | .char 'k' :: rest =>
    if strict || rules.named then
      match rest with
      | .char '<' :: rest => (nameBehind? rest).map fun (name, rest) => (some name, rest)
      | _ => none
    else character
  | c :: rest =>
    match classEscape? rules s with
    | some found => found.map fun (_, rest) => (none, rest)
    | none =>
      if c.isDigit && !c.isOneOf "0" then
        match groupNumber? s with
        | some (n, behind) =>
          if n ≤ opened + (countGroups false behind).1 then some (none, behind)
          else if strict then none
          else if c.isOneOf "89" then some (none, rest)
          else character
        | none => if strict then none else if c.isOneOf "89" then some (none, rest) else character
      else character
  | [] => none

/-- What the scan of a source knows: which open groups may be repeated, how many groups were opened,
their names, the names that are referred to, and whether a quantifier may follow. -/
structure Scan where
  open_ : List Bool := []
  opened : Nat := 0
  names : List (List Nat) := []
  references : List (List Nat) := []
  repeatable : Bool := false

/-- Whether every name that is referred to is that of a group. -/
def Scan.isClosed (st : Scan) : Bool :=
  st.open_.isEmpty && st.references.all st.names.contains

/-- Checks the rest of a source; `fuel` bounds its length. -/
def scan (rules : Rules) : Nat → Scan → List Sign → Bool
  | 0, _, _ => false
  | fuel + 1, st, s =>
    let strict := rules.mode.isStrict
    let atom (rest : List Sign) := scan rules fuel { st with repeatable := true } rest
    let mark (rest : List Sign) := scan rules fuel { st with repeatable := false } rest
    let enter (repeatable : Bool) (rest : List Sign) :=
      scan rules fuel { st with open_ := repeatable :: st.open_, repeatable := false } rest
    match s with
    | [] => st.isClosed
    | .char '\\' :: .char 'b' :: rest | .char '\\' :: .char 'B' :: rest => mark rest
    | .char '\\' :: rest =>
      match atomEscape? rules st.opened rest with
      | some (name?, rest) =>
        scan rules fuel
          { st with references := name?.toList ++ st.references, repeatable := true } rest
      | none => false
    | .char '(' :: .char '?' :: .char ':' :: rest => enter true rest
    | .char '(' :: .char '?' :: .char '=' :: rest | .char '(' :: .char '?' :: .char '!' :: rest =>
      enter (!strict) rest
    | .char '(' :: .char '?' :: .char '<' :: .char '=' :: rest
    | .char '(' :: .char '?' :: .char '<' :: .char '!' :: rest => enter false rest
    | .char '(' :: .char '?' :: .char '<' :: rest =>
      match nameBehind? rest with
      | some (name, rest) =>
        !st.names.contains name &&
          scan rules fuel
            { st with
              open_ := true :: st.open_
              opened := st.opened + 1
              names := name :: st.names
              repeatable := false }
            rest
      | none => false
    | .char '(' :: .char '?' :: _ => false
    | .char '(' :: rest =>
      scan rules fuel
        { st with open_ := true :: st.open_, opened := st.opened + 1, repeatable := false } rest
    | .char ')' :: rest =>
      match st.open_ with
      | [] => false
      | r :: more => scan rules fuel { st with open_ := more, repeatable := r } rest
    | .char '[' :: rest =>
      match behindClass? rules rest with
      | some rest => atom rest
      | none => false
    | .char '|' :: rest | .char '^' :: rest | .char '$' :: rest => mark rest
    | .char '*' :: rest | .char '+' :: rest | .char '?' :: rest =>
      st.repeatable && mark (dropLazy rest)
    | .char '{' :: rest =>
      match bounds? rest with
      | some (low, high, rest) => st.repeatable && low ≤ high && mark (dropLazy rest)
      | none => !strict && atom rest
    | .char ']' :: rest | .char '}' :: rest => !strict && atom rest
    | _ :: rest => atom rest

def isPattern (mode : Mode) (source : List Char) : Bool :=
  let s := signs mode source
  scan ⟨mode, (countGroups false s).2⟩ (s.length + 1) {} s

end FailureWire.Pattern
