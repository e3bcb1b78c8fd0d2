import FailureWire.Text.Pattern.Syntax

/-!
# Regular expressions as text

A regular expression is a source and flags. The flags say by which rules the source is a pattern
(`isValid`). `sourceText` is the text by which a source is known: never empty, and without a bare slash
or line end.

A pair that is valid is one that `new RegExp(source, flags)` takes; `sourceText` is its `source`.
-/

namespace FailureWire.Pattern

def flagOrder : List Char := "dgimsuvy".toList

/-- Whether a text is a set of flags; two of them exclude each other. -/
def flagsValid (flags : List Char) : Bool :=
  flags.all flagOrder.contains && flags.eraseDups.length = flags.length &&
    !(flags.contains 'u' && flags.contains 'v')

def sortFlags (flags : List Char) : List Char := flagOrder.filter flags.contains

/-- The rules that flags select. -/
def modeOf (flags : List Char) : Mode :=
  if flags.contains 'v' then .sets else if flags.contains 'u' then .unicode else .plain

def isValid (source flags : List Char) : Bool :=
  flagsValid flags && isPattern (modeOf flags) source

/-- How a line end is written behind a backslash. -/
def lineEnd? (c : Char) : Option (List Char) :=
  if c = '\n' then some ['n']
  else if c = '\r' then some ['r']
  else if c.toNat = 0x2028 then some "u2028".toList
  else if c.toNat = 0x2029 then some "u2029".toList
  else none

/-- A source with the slashes outside of classes and all line ends escaped; `escaped` behind a
backslash. -/
def escapeSource (inClass escaped : Bool) : List Char → List Char
  | [] => []
  | c :: rest =>
    match lineEnd? c with
    | some s => (if escaped then [] else ['\\']) ++ s ++ escapeSource inClass false rest
    | none =>
      if escaped then c :: escapeSource inClass false rest
      else if c = '\\' then c :: escapeSource inClass true rest
      else if c = '/' ∧ !inClass then '\\' :: '/' :: escapeSource inClass false rest
      else if c = '[' then c :: escapeSource true false rest
      else if c = ']' then c :: escapeSource false false rest
      else c :: escapeSource inClass false rest

def sourceText (source : List Char) : List Char :=
  if source.isEmpty then "(?:)".toList else escapeSource false false source

end FailureWire.Pattern
