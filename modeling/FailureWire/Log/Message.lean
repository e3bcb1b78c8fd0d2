import FailureWire.Log.Field

/-!
# Messages of log lines

A message may be any value. Where a text is given in the place of the fields of a line, that text is
the message, and what was to be the message is an argument: it is put into the text where the first
placeholder is. Every `%` counts as a placeholder, be it one that takes an argument or not, except for a
pair of them, which stands for one.

The placeholders are those of `quick-format-unescaped`, which pino puts messages together with.
-/

namespace FailureWire.Graph

/-- A value as JSON text; what has none is called by its name. -/
def jsonText (g : Graph) (v : Value) : List Char :=
  match g.render (.existing v) with
  | some j => j.chars
  | none => "undefined".toList

/-- What an argument is written as in a place of this letter; none if it does not fit there. -/
def argumentText (g : Graph) (argument : Value) (letter : Char) : Except Fault (Option (List Char)) :=
  if letter = 's' then some <$> g.toText argument
  else if letter = 'd' ∨ letter = 'f' ∨ letter = 'i' then
    if argument.isMissing then .ok none
    else do
      let n ← g.castNumber argument
      return some (if letter = 'i' then n.floor.chars else n.chars)
  else if letter = 'o' ∨ letter = 'O' ∨ letter = 'j' then
    match argument with
    | .undefined => .ok none
    | .text s => .ok (some ('\'' :: (s.toList ++ ['\''])))
    | v => .ok (some (g.jsonText v))
  else .ok none

/-- A text with an argument put into it, unless a place was `taken` before. -/
def fillIn (g : Graph) (argument : Value) (taken : Bool) : List Char → Except Fault (List Char)
  | [] => .ok []
  | '%' :: '%' :: rest => do return '%' :: (← g.fillIn argument taken rest)
  | '%' :: letter :: rest => do
    match ← if taken then pure none else g.argumentText argument letter with
    | some s => return s ++ (← g.fillIn argument true rest)
    | none => return '%' :: (← g.fillIn argument true (letter :: rest))
  | c :: rest => do return c :: (← g.fillIn argument taken rest)

/-- The message of a line for which `fields` and `message` were given: an error among the fields gives
its own message if there is no other. -/
def messageOf (g : Graph) (fields message : Value) : Except Fault Value :=
  match fields with
  | .text template => do return .text (String.ofList (← g.fillIn message false template.toList))
  | .bool _ | .number _ | .big _ => .ok fields
  | fields =>
    if message ≠ .undefined then .ok message
    else if (g.errorOf? fields).isSome then .ok (g.read fields "message")
    else .ok (g.read (g.read fields LogFields.errorKey) "message")

end FailureWire.Graph
