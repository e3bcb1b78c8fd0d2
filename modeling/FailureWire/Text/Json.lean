import FailureWire.Number.Decimal
import FailureWire.Value.Fields

/-!
# JSON text

`Json.chars` writes a value without any blanks; in strings it escapes quotes, backslashes and control
characters only. `Json.parse?` reads strict JSON: blanks between tokens are allowed, the last of
several fields of one name wins, numbers are rounded once.

`Json.chars` is `JSON.stringify` and `Json.parse?` is `JSON.parse`.
-/

namespace FailureWire

/-- A JSON value. -/
inductive Json where
  | null
  | bool (b : Bool)
  | number (n : Number)
  | text (s : String)
  | list (items : List Json)
  | record (fields : List (String × Json))
deriving Repr, BEq, Inhabited

namespace Json

/-! ## Strings -/

def hexDigit (n : Nat) : Char := if n < 10 then .ofNat (0x30 + n) else .ofNat (0x61 + (n - 10))

/-- A character as it stands in a string. -/
def escapeChar (c : Char) : List Char :=
  if c = '"' then ['\\', '"']
  else if c = '\\' then ['\\', '\\']
  else if c = '\n' then ['\\', 'n']
  else if c = '\t' then ['\\', 't']
  else if c = '\r' then ['\\', 'r']
  else if c.toNat = 8 then ['\\', 'b']
  else if c.toNat = 12 then ['\\', 'f']
  else if c.toNat < 0x20 then ['\\', 'u', '0', '0', hexDigit (c.toNat / 16), hexDigit (c.toNat % 16)]
  else [c]

/-- A string between its quotes. -/
def quote (s : List Char) : List Char := '"' :: (s.flatMap escapeChar ++ ['"'])

/-- The character that a letter after a backslash stands for. -/
def unescape? (c : Char) : Option Char :=
  if c = '"' ∨ c = '\\' ∨ c = '/' then some c
  else if c = 'n' then some '\n'
  else if c = 't' then some '\t'
  else if c = 'r' then some '\r'
  else if c = 'b' then some '\x08'
  else if c = 'f' then some '\x0c'
  else none

/-- Four digits of base 16. -/
def hex4? (a b c d : Char) : Option Nat := Number.natOfDigits? 16 [a, b, c, d]

/-- Reads a string after its opening quote: its code points, where an escape may be half of a
surrogate pair, and the rest behind the closing quote. -/
def readString : List Char → Option (List Nat × List Char)
  | [] => none
  | '"' :: rest => some ([], rest)
  | '\\' :: 'u' :: a :: b :: c :: d :: rest => do
    let point ← hex4? a b c d
    let (points, rest) ← readString rest
    pure (point :: points, rest)
  | '\\' :: c :: rest => do
    let c ← unescape? c
    let (points, rest) ← readString rest
    pure (c.toNat :: points, rest)
  | c :: rest =>
    if c.toNat < 0x20 ∨ c = '\\' then none
    else do
      let (points, rest) ← readString rest
      pure (c.toNat :: points, rest)

/-- Joins the halves of surrogate pairs. A half alone, which no text here can hold, becomes a replacement
character: `halvesPaired` says whether a JSON text escapes any. -/
def joinSurrogates : List Nat → List Char
  | [] => []
  | [p] => if 0xD800 ≤ p ∧ p < 0xE000 then ['\ufffd'] else [.ofNat p]
  | p :: q :: rest =>
    if 0xD800 ≤ p ∧ p < 0xDC00 ∧ 0xDC00 ≤ q ∧ q < 0xE000 then
      .ofNat (0x10000 + (p - 0xD800) * 0x400 + (q - 0xDC00)) :: joinSurrogates rest
    else (if 0xD800 ≤ p ∧ p < 0xE000 then '\ufffd' else .ofNat p) :: joinSurrogates (q :: rest)

/-- Whether a unit is the first half of a surrogate pair. -/
def isFirstHalf (u : Nat) : Bool := 0xD800 ≤ u && u < 0xDC00

/-- Whether a unit is the second half of a surrogate pair. -/
def isSecondHalf (u : Nat) : Bool := 0xDC00 ≤ u && u < 0xE000

/-- Whether the halves of surrogate pairs that a JSON text escapes stand side by side; `first` if a first
half has just been read. -/
def halvesPaired (first : Bool) : List Char → Bool
  | '\\' :: 'u' :: a :: b :: c :: d :: rest =>
    match hex4? a b c d with
    | some u => first == isSecondHalf u && halvesPaired (isFirstHalf u) rest
    | none => !first && halvesPaired false rest
  | '\\' :: _ :: rest => !first && halvesPaired false rest
  | _ :: rest => !first && halvesPaired false rest
  | [] => !first

/-! ## Writing -/

/-- The text of a number; what is not finite has none and is written as `null`. -/
def numberChars (n : Number) : List Char := if n.isFinite then n.chars else "null".toList

mutual
/-- The text of a value. -/
def chars : Json → List Char
  | .null => "null".toList
  | .bool b => (if b then "true" else "false").toList
  | .number n => numberChars n
  | .text s => quote s.toList
  | .list items => '[' :: (itemChars items ++ [']'])
  | .record fields => '{' :: (fieldChars fields ++ ['}'])
termination_by structural j => j

/-- The texts of list items, with commas between them. -/
def itemChars : List Json → List Char
  | [] => []
  | j :: rest => chars j ++ moreItemChars rest
termination_by structural js => js

/-- The texts of further list items, each after a comma. -/
def moreItemChars : List Json → List Char
  | [] => []
  | j :: rest => ',' :: (chars j ++ moreItemChars rest)
termination_by structural js => js

/-- The texts of fields, with commas between them. -/
def fieldChars : List (String × Json) → List Char
  | [] => []
  | (k, j) :: rest => quote k.toList ++ ':' :: (chars j ++ moreFieldChars rest)
termination_by structural fs => fs

/-- The texts of further fields, each after a comma. -/
def moreFieldChars : List (String × Json) → List Char
  | [] => []
  | (k, j) :: rest => ',' :: (quote k.toList ++ ':' :: (chars j ++ moreFieldChars rest))
termination_by structural fs => fs
end

/-- The text of a value as a string. -/
def render (j : Json) : String := String.ofList j.chars

/-! ## Reading -/

def skipBlank (s : List Char) : List Char :=
  s.dropWhile fun c => c = ' ' || c = '\n' || c = '\r' || c = '\t'

def readNumber (s : List Char) : Option (Number × List Char) := do
  let (negative, s) := match s with
    | '-' :: r => (true, r)
    | r => (false, r)
  let (whole, s) := Number.spanDigits s
  if whole.isEmpty || (whole.head? = some '0' && 1 < whole.length) then none
  let (part, s) ← match s with
    | '.' :: r =>
      let (part, r) := Number.spanDigits r
      if part.isEmpty then none else some (part, r)
    | r => some ([], r)
  let (e, s) ← Number.spanExponent s
  pure (Number.ofDecimal negative (whole ++ part) (e - part.length), s)

def readWord (word : String) (j : Json) (s : List Char) : Option (Json × List Char) :=
  let w := word.toList
  if s.take w.length = w then some (j, s.drop w.length) else none

mutual
/-- Reads a value; `fuel` bounds the number of tokens. -/
def readValue : Nat → List Char → Option (Json × List Char)
  | 0, _ => none
  | fuel + 1, s =>
    match skipBlank s with
    | '{' :: r =>
      match skipBlank r with
      | '}' :: r => some (.record [], r)
      | r => (readFields fuel r).map fun (fields, r) => (.record (Fields.ofList fields), r)
    | '[' :: r =>
      match skipBlank r with
      | ']' :: r => some (.list [], r)
      | r => (readItems fuel r).map fun (items, r) => (.list items, r)
    | '"' :: r => (readString r).map fun (s, r) => (.text (String.ofList (joinSurrogates s)), r)
    | 't' :: r => readWord "true" (.bool true) ('t' :: r)
    | 'f' :: r => readWord "false" (.bool false) ('f' :: r)
    | 'n' :: r => readWord "null" .null ('n' :: r)
    | r => (readNumber r).map fun (n, r) => (.number n, r)
termination_by structural fuel => fuel

def readItems : Nat → List Char → Option (List Json × List Char)
  | 0, _ => none
  | fuel + 1, s => do
    let (j, s) ← readValue fuel s
    match skipBlank s with
    | ',' :: r =>
      let (items, r) ← readItems fuel r
      pure (j :: items, r)
    | ']' :: r => pure ([j], r)
    | _ => none
termination_by structural fuel => fuel

def readFields : Nat → List Char → Option (List (String × Json) × List Char)
  | 0, _ => none
  | fuel + 1, s =>
    match skipBlank s with
    | '"' :: r => do
      let (k, r) ← readString r
      let key := String.ofList (joinSurrogates k)
      match skipBlank r with
      | ':' :: r =>
        let (j, r) ← readValue fuel r
        match skipBlank r with
        | ',' :: r =>
          let (fields, r) ← readFields fuel r
          pure ((key, j) :: fields, r)
        | '}' :: r => pure ([(key, j)], r)
        | _ => none
      | _ => none
    | _ => none
termination_by structural fuel => fuel
end

/-- The value that a whole text spells, if it is JSON. -/
def parse? (s : List Char) : Option Json :=
  match readValue (s.length + 1) s with
  | some (j, r) => if (skipBlank r).isEmpty then some j else none
  | none => none

/-! ## Access -/

def get? : Json → String → Option Json
  | .record fields, name => Fields.get? fields name
  | _, _ => none

end Json
end FailureWire
