import FailureWire.Number.Decimal

/-!
# Tokens of date texts

A date written by hand is a sequence of numbers, words, signs and what stands between them. Only the
first three letters of a word count, in upper or lower case; a word that is longer counts only as the
name of a month.

A number is read up to nine significant digits, and its token keeps how many digits it has.

Words and signs are the ones that `Date.parse` knows beyond the ISO form.
-/

namespace FailureWire

/-- What a word in a date text stands for. -/
inductive DateWord where
  | month (n : Nat)
  /-- Before or after noon: the hours that it adds. -/
  | half (hours : Nat)
  /-- A time zone: its hours ahead of UTC. -/
  | zone (hours : Int)
  /-- The mark between a date and a time. -/
  | timeMark
  | unknown
deriving DecidableEq, Repr

/-- A token of a date text. -/
inductive DateToken where
  | number (n digits : Nat)
  | sign (c : Char)
  | word (w : DateWord) (letters : Nat)
  | blank
  | other
deriving DecidableEq, Repr

namespace DateWord

/-- The names of the months, as far as they count. -/
def months : List String :=
  ["jan", "feb", "mar", "apr", "may", "jun", "jul", "aug", "sep", "oct", "nov", "dec"]

/-- The time zones that have names, with their hours ahead of UTC. -/
def zones : List (String × Int) :=
  [("ut", 0), ("utc", 0), ("z", 0), ("gmt", 0), ("cdt", -5), ("cst", -6), ("edt", -4), ("est", -5),
    ("mdt", -6), ("mst", -7), ("pdt", -7), ("pst", -8)]

/-- A letter in lower case; of other characters one bit is set in the same way. -/
def lower (c : Char) : Char := .ofNat (c.toNat ||| 0x20)

def ofChars (letters : List Char) : DateWord :=
  let head := String.ofList ((letters.take 3).map lower)
  match months.idxOf? head with
  | some i => .month (i + 1)
  | none =>
    if 3 < letters.length then .unknown
    else match zones.find? fun z => z.1 = head with
      | some z => .zone z.2
      | none =>
        if head = "am" then .half 0
        else if head = "pm" then .half 12
        else if head = "t" then .timeMark
        else .unknown

end DateWord

namespace DateToken

/-- How many digits of a number count, not counting zeros in front. -/
def maxDigits : Nat := 9

def numberOf (digits : List Char) : Nat :=
  Nat.ofDigitChars 10 ((digits.dropWhile (· = '0')).take maxDigits) 0

/-- Whether a character is part of a word: letters, and all that is coded behind them. -/
def isLetter (c : Char) : Bool := 'A'.toNat ≤ c.toNat && !Text.isBlank c

/-- What follows a text in parentheses, which may stand inside each other; `depth` of them are open. -/
def afterParentheses (depth : Nat) : List Char → List Char
  | [] => []
  | c :: rest =>
    let depth := if c = '(' then depth + 1 else if c = ')' then depth - 1 else depth
    if depth = 0 then rest else afterParentheses depth rest

def signs : List Char := [':', '-', '+', '.', ')']

def next (c : Char) (rest : List Char) : DateToken × List Char :=
  if c.isDigit then
    let (digits, after) := Number.spanDigits (c :: rest)
    (.number (numberOf digits) digits.length, after)
  else if signs.contains c then (.sign c, rest)
  else if isLetter c then
    let letters := c :: rest.takeWhile isLetter
    (.word (.ofChars letters) letters.length, rest.dropWhile isLetter)
  else if Text.isBlank c then (.blank, rest)
  else if c = '(' then (.other, afterParentheses 0 (c :: rest))
  else (.other, rest)

/-- The tokens of a text, given a number that its length does not exceed. -/
def tokensWithin : Nat → List Char → List DateToken
  | 0, _ | _, [] => []
  | fuel + 1, c :: rest =>
    let (token, rest) := next c rest
    token :: tokensWithin fuel rest

/-- The tokens of a text. A character without a code ends it. -/
def ofText (s : List Char) : List DateToken :=
  let s := s.takeWhile fun c => c.toNat ≠ 0
  tokensWithin s.length s

end DateToken
end FailureWire
