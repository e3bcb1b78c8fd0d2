import FailureWire.Value.Basic
import FailureWire.Value.Fields

/-!
# Sources of settings

A source has a name and gives values to keys. Sources are merged in order: the last one that gives a
key a defined value decides about it (`merge`, `get?_merge_append`), and each value is kept together
with the name of its source, so that an explanation can never disagree with a value.

A source is a `ConfigSource`, be it an `EnvSource` or an `ObjectSource`; merging is the loop of
`loadFailureConverterConfig`.
-/

namespace FailureWire

/-- A source of settings. -/
structure ConfigSource where
  name : String
  values : Fields Value

/-- A value of a setting, and the name of the source that it comes from. -/
structure Sourced where
  value : Value
  source : String
deriving DecidableEq, Repr

namespace ConfigSource

/-- What the names of environment variables for this library begin with. -/
def defaultPrefix : String := "WEFT_FAILURE_"

/-- The key by which an object takes over the properties of another one. -/
def heritageKey : String := "__proto__"

/-- The variables whose names begin with `start`, under what follows it. -/
def strip (start : String) (vars : Fields Value) : Fields Value :=
  let stripped := vars.filterMap fun (name, v) =>
    if start.toList.isPrefixOf name.toList then
      some (String.ofList (name.toList.drop start.length), v)
    else none
  .ofList (stripped.filter fun f => f.1 ≠ heritageKey)

/-- The environment variables whose names begin with `start`. -/
def environment (start : String) (vars : Fields Value) : ConfigSource :=
  ⟨"env:" ++ start, strip start vars⟩

/-- Settings given in code. -/
def overrides (values : Fields Value) : ConfigSource := ⟨"object:overrides", values⟩

/-- Lets a source give a key a value. A key by which objects inherit is none of theirs. -/
def offer (merged : Fields Sourced) (source key : String) (v : Value) : Fields Sourced :=
  if v = .undefined ∨ key = heritageKey then merged else Fields.set merged key ⟨v, source⟩

/-- Lets a source override what was merged so far. -/
def override (merged : Fields Sourced) (s : ConfigSource) : Fields Sourced :=
  s.values.foldl (fun merged f => offer merged s.name f.1 f.2) merged

/-- The values that sources give, where later sources override earlier ones. -/
def merge (sources : List ConfigSource) : Fields Sourced := sources.foldl override []

/-- The object whose properties stand in for values that no source gives, if there is one: the last
one that a source gives to the key for it. -/
def heritage (sources : List ConfigSource) : Value :=
  let given := (sources.flatMap (·.values)).filter fun f =>
    f.1 = heritageKey && (f.2.id?.isSome || f.2 = .null)
  .ofOption (given.getLast?.map (·.2))

/-! ## Facts -/

theorem get?_offer (merged : Fields Sourced) (source key : String) (v : Value) (other : String) :
    Fields.get? (offer merged source key v) other =
      if key = other ∧ v ≠ .undefined ∧ key ≠ heritageKey then some ⟨v, source⟩
      else Fields.get? merged other := by
  unfold offer
  split
  · rw [if_neg]
    rintro ⟨_, h1, h2⟩
    simp_all
  · rename_i h
    rw [Fields.get?_set]
    simp only [not_or] at h
    simp [h.1, h.2]

theorem merge_append (sources : List ConfigSource) (s : ConfigSource) :
    merge (sources ++ [s]) = override (merge sources) s := by
  simp [merge]

end ConfigSource
end FailureWire
