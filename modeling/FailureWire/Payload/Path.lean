import FailureWire.Fault

/-!
# Paths in payload text

A place inside a value is a list of keys. In payload text the keys of a path are joined by points; a
point or a backslash inside a key is escaped by a backslash. Older text escapes points only.

`parsePath_joinPath`: what is joined is parsed back, for any keys but the empty list.

These are `escapeKey`, `stringifyPath` and `parsePath` of superjson.
-/

namespace FailureWire.Payload

def escapeKey : List Char → List Char
  | [] => []
  | c :: rest => if c = '\\' ∨ c = '.' then '\\' :: c :: escapeKey rest else c :: escapeKey rest

/-- The keys of a path with points between them. -/
def joinPath : List (List Char) → List Char
  | [] => []
  | [key] => escapeKey key
  | key :: rest => escapeKey key ++ '.' :: joinPath rest

/-- Parses a path behind the part `key` of its current key; `escaped` after a backslash. In older
text a backslash that escapes no point stands for itself. -/
def parsePathFrom (legacy : Bool) (key : List Char) (escaped : Bool) :
    List Char → Except Fault (List (List Char))
  | [] =>
    if escaped then if legacy then .ok [key ++ ['\\']] else .error .badPath
    else .ok [key]
  | c :: rest =>
    if escaped then
      if c = '.' then parsePathFrom legacy (key ++ ['.']) false rest
      else if legacy then
        if c = '\\' then parsePathFrom legacy (key ++ ['\\']) true rest
        else parsePathFrom legacy (key ++ ['\\', c]) false rest
      else if c = '\\' then parsePathFrom legacy (key ++ ['\\']) false rest
      else .error .badPath
    else if c = '\\' then parsePathFrom legacy key true rest
    else if c = '.' then (parsePathFrom legacy [] false rest).map (key :: ·)
    else parsePathFrom legacy (key ++ [c]) false rest

/-- The keys that a path spells. -/
def parsePath (legacy : Bool) (path : List Char) : Except Fault (List (List Char)) :=
  parsePathFrom legacy [] false path

/-! ## Facts -/

theorem parsePathFrom_escapeKey (key s rest : List Char) :
    parsePathFrom false key false (escapeKey s ++ rest) =
      parsePathFrom false (key ++ s) false rest := by
  induction s generalizing key with
  | nil => simp [escapeKey]
  | cons c s ih =>
    by_cases hb : c = '\\'
    · subst hb
      simp [escapeKey, parsePathFrom, ih]
    · by_cases hp : c = '.'
      · subst hp
        simp [escapeKey, parsePathFrom, ih]
      · simp [escapeKey, parsePathFrom, hb, hp, ih]

/-- What is joined is parsed back. -/
theorem parsePath_joinPath {keys : List (List Char)} (h : keys ≠ []) :
    parsePath false (joinPath keys) = .ok keys := by
  unfold parsePath
  induction keys with
  | nil => exact absurd rfl h
  | cons key rest ih =>
    cases rest with
    | nil =>
      have hk := parsePathFrom_escapeKey [] key []
      simp only [List.append_nil, List.nil_append] at hk
      simp [joinPath, hk, parsePathFrom]
    | cons next more =>
      simp only [joinPath]
      rw [parsePathFrom_escapeKey, List.nil_append]
      have hstep : ∀ s, parsePathFrom false key false ('.' :: s) =
          (parsePathFrom false [] false s).map (key :: ·) := fun s => by simp [parsePathFrom]
      rw [hstep, ih (by simp)]
      rfl

end FailureWire.Payload
