import FailureWire.Proofs.Text.Numeral

/-!
# JSON text is read back

A value without infinities, not-a-numbers and negative zeros, whose records are in the order of their fields, is the
value that its own text spells (`parse?_chars`). What a string escapes is unescaped (`readString_flatMap`), and no
character is half of a surrogate pair (`joinSurrogates_map`).
-/

namespace FailureWire

namespace Json

open Number

/-! ## Strings -/

theorem hex4?_hexDigit : ∀ n < 0x20, hex4? '0' '0' (hexDigit (n / 16)) (hexDigit (n % 16)) = some n := by
  decide

/-- A letter after a backslash is read as what it stands for. -/
theorem readString_unescape {c d : Char} (h : unescape? c = some d) (hc : c ≠ 'u') (rest : List Char) :
    readString ('\\' :: c :: rest) = (readString rest).map fun (points, rest) => (d.toNat :: points, rest) := by
  cases hrest : readString rest <;> simp [readString, hc, h, hrest]

theorem readString_escapeChar (c : Char) (rest : List Char) :
    readString (escapeChar c ++ rest) = (readString rest).map fun (points, rest) => (c.toNat :: points, rest) := by
  unfold escapeChar
  split_ifs with hquote hslash hline htab hreturn hback hfeed hcontrol
  · rw [hquote]
    exact readString_unescape rfl (by decide) rest
  · rw [hslash]
    exact readString_unescape rfl (by decide) rest
  · rw [hline]
    exact readString_unescape rfl (by decide) rest
  · rw [htab]
    exact readString_unescape rfl (by decide) rest
  · rw [hreturn]
    exact readString_unescape rfl (by decide) rest
  · rw [hback]
    exact readString_unescape (c := 'b') rfl (by decide) rest
  · rw [hfeed]
    exact readString_unescape (c := 'f') rfl (by decide) rest
  · simp only [List.cons_append, List.nil_append, readString, hex4?_hexDigit _ hcontrol, Option.bind_eq_bind,
      Option.bind_some, Option.pure_def]
    cases readString rest <;> rfl
  · cases hrest : readString rest <;> simp [readString, hslash, hcontrol, hrest]

theorem readString_flatMap (s rest : List Char) :
    readString (s.flatMap escapeChar ++ '"' :: rest) = some (s.map Char.toNat, rest) := by
  induction s with
  | nil => rfl
  | cons c s ih =>
    rw [List.flatMap_cons, List.append_assoc, readString_escapeChar, ih]
    rfl

theorem joinSurrogates_map (s : List Char) : joinSurrogates (s.map Char.toNat) = s := by
  have hvalid (c : Char) : ¬(0xD800 ≤ c.toNat ∧ c.toNat < 0xE000) := by
    have hvalid : c.toNat < 0xD800 ∨ 0xDFFF < c.toNat ∧ c.toNat < 0x110000 := c.valid
    omega
  induction s with
  | nil => rfl
  | cons c s ih =>
    have hc := hvalid c
    cases s with
    | nil => simp only [List.map_cons, List.map_nil, joinSurrogates, if_neg hc, Char.ofNat_toNat]
    | cons d more =>
      have hpair : ¬(0xD800 ≤ c.toNat ∧ c.toNat < 0xDC00 ∧ 0xDC00 ≤ d.toNat ∧ d.toNat < 0xE000) := by omega
      rw [List.map_cons, List.map_cons, joinSurrogates, if_neg hpair, if_neg hc, Char.ofNat_toNat, ← List.map_cons, ih]

/-! ## Values -/

mutual
/-- A value that its text spells in full. -/
def Readable : Json → Prop
  | .null | .bool _ | .text _ => True
  | .number n => n.isFinite = true ∧ n ≠ negativeZero
  | .list items => ReadableItems items
  | .record fields => Fields.ofList fields = fields ∧ ReadableFields fields
termination_by structural j => j

def ReadableItems : List Json → Prop
  | [] => True
  | j :: rest => Readable j ∧ ReadableItems rest
termination_by structural js => js

def ReadableFields : List (String × Json) → Prop
  | [] => True
  | (_, j) :: rest => Readable j ∧ ReadableFields rest
termination_by structural fs => fs
end

/-- A blank between tokens. -/
def isGap (c : Char) : Bool := c = ' ' || c = '\n' || c = '\r' || c = '\t'

theorem skipBlank_cons {c : Char} (h : isGap c = false) (rest : List Char) : skipBlank (c :: rest) = c :: rest := by
  rw [skipBlank, List.dropWhile_cons_of_neg]
  exact Bool.eq_false_iff.1 h

theorem isGap_of_sign_or_digit {c : Char} (h : c = '-' ∨ c.isDigit = true) : isGap c = false := by
  rcases h with rfl | h
  · rfl
  · simp only [isGap, Bool.or_eq_false_iff, decide_eq_false_iff_not]
    exact ⟨⟨⟨ne_of_isDigit h rfl, ne_of_isDigit h rfl⟩, ne_of_isDigit h rfl⟩, ne_of_isDigit h rfl⟩

theorem exists_head_of_readNumber {s : List Char} {r : Number × List Char} (h : readNumber s = some r) :
    ∃ c rest, s = c :: rest ∧ (c = '-' ∨ c.isDigit = true) := by
  cases s with
  | nil => cases h
  | cons c rest =>
    refine ⟨c, rest, rfl, ?_⟩
    by_contra hc
    obtain ⟨hminus, hdigit⟩ := not_or.1 hc
    have hspan : spanDigits (c :: rest) = ([], c :: rest) := by simp [spanDigits, hdigit]
    simp [readNumber, hminus, hspan] at h

theorem exists_head_of_number {n : Number} (hn : n.isFinite = true) (hzero : n ≠ negativeZero) (rest : List Char) :
    ∃ c more, n.chars ++ rest = c :: more ∧ (c = '-' ∨ c.isDigit = true) := by
  have hread : readNumber (n.chars ++ []) = some (n, []) := readNumber_chars hn hzero (by simp [Stops])
  rw [List.append_nil] at hread
  obtain ⟨c, more, heq, hc⟩ := exists_head_of_readNumber hread
  exact ⟨c, more ++ rest, by rw [heq, List.cons_append], hc⟩

/-- The text of a value starts with no blank and no bracket that closes. -/
theorem exists_head_of_readable {j : Json} (h : Readable j) (rest : List Char) :
    ∃ c more, chars j ++ rest = c :: more ∧ isGap c = false ∧ c ≠ ']' := by
  cases j with
  | null => exact ⟨_, _, rfl, rfl, by decide⟩
  | bool b => cases b <;> exact ⟨_, _, rfl, rfl, by decide⟩
  | text s => exact ⟨_, _, rfl, rfl, by decide⟩
  | list items => exact ⟨_, _, rfl, rfl, by decide⟩
  | record fields => exact ⟨_, _, rfl, rfl, by decide⟩
  | number n =>
    obtain ⟨c, more, heq, hc⟩ := exists_head_of_number h.1 h.2 rest
    rw [chars, numberChars, if_pos h.1]
    exact ⟨c, more, heq, isGap_of_sign_or_digit hc, fun hclose => absurd (hclose ▸ hc) (by decide)⟩

theorem stops_cons {c : Char} (h : c = ',' ∨ c = ']' ∨ c = '}') (rest : List Char) : Stops (c :: rest) := by
  intro d hd
  cases hd
  rcases h with rfl | rfl | rfl <;> decide

mutual
/-- **A value is read back from its text.** -/
theorem readValue_chars {rest : List Char} (hrest : Stops rest) : ∀ {j : Json} (fuel : Nat), Readable j →
    (chars j).length ≤ fuel → readValue fuel (chars j ++ rest) = some (j, rest)
  | j, 0, h, hfuel => by
    obtain ⟨c, more, heq, -⟩ := exists_head_of_readable h []
    rw [List.append_nil] at heq
    rw [heq] at hfuel
    cases hfuel
  | .null, fuel + 1, _, _ => rfl
  | .bool true, fuel + 1, _, _ => rfl
  | .bool false, fuel + 1, _, _ => rfl
  | .text s, fuel + 1, _, _ => by
    simp only [chars, quote, List.cons_append, List.append_assoc, List.nil_append, readValue,
      skipBlank_cons (c := '"') rfl, readString_flatMap, Option.map_some, joinSurrogates_map, String.ofList_toList]
  | .number n, fuel + 1, h, _ => by
    obtain ⟨c, more, heq, hc⟩ := exists_head_of_number h.1 h.2 rest
    have hread := readNumber_chars h.1 h.2 hrest
    rw [chars, numberChars, if_pos h.1]
    rw [heq] at hread ⊢
    have hword : ∀ d ∈ ['{', '[', '"', 't', 'f', 'n'], c ≠ d := by
      rintro d hd rfl
      rcases hc with rfl | hdigit
      · simp at hd
      · simp only [List.mem_cons, List.not_mem_nil, or_false] at hd
        rcases hd with rfl | rfl | rfl | rfl | rfl | rfl <;> cases hdigit
    simp only [List.forall_mem_cons] at hword
    obtain ⟨hbrace, hbracket, hquote, htrue, hfalse, hnull, -⟩ := hword
    simp [readValue, skipBlank_cons (isGap_of_sign_or_digit hc), hbrace, hbracket, hquote, htrue, hfalse, hnull, hread]
  | .list [], fuel + 1, _, _ => rfl
  | .list (j :: items), fuel + 1, h, hfuel => by
    obtain ⟨c, more, heq, hgap, hc⟩ := exists_head_of_readable h.1 (moreItemChars items ++ ']' :: rest)
    have hread := readItems_chars rest fuel h (by simp [chars] at hfuel; omega)
    simp only [chars, itemChars, List.cons_append, List.append_assoc, List.nil_append, readValue,
      skipBlank_cons (c := '[') rfl] at hread ⊢
    rw [heq] at hread ⊢
    simp [skipBlank_cons hgap, hc, hread]
  | .record [], fuel + 1, _, _ => rfl
  | .record ((k, j) :: fields), fuel + 1, h, hfuel => by
    have hread := readFields_chars rest fuel h.2 (by simp [chars] at hfuel; omega)
    simp only [chars, fieldChars, quote, List.cons_append, List.append_assoc, List.nil_append, readValue,
      skipBlank_cons (c := '{') rfl, skipBlank_cons (c := '"') rfl] at hread ⊢
    simp [hread, h.1]

theorem readItems_chars (rest : List Char) : ∀ {j : Json} {items : List Json} (fuel : Nat),
    ReadableItems (j :: items) → (itemChars (j :: items)).length < fuel →
      readItems fuel (itemChars (j :: items) ++ ']' :: rest) = some (j :: items, rest)
  | j, items, fuel + 1, h, hfuel => by
    have hstops : Stops (moreItemChars items ++ ']' :: rest) := by
      cases items <;> exact stops_cons (by decide) _
    have hread := readValue_chars hstops fuel h.1 (by simp [itemChars] at hfuel; omega)
    rw [readItems, itemChars, List.append_assoc, hread]
    cases items with
    | nil => rfl
    | cons k more =>
      have hmore := readItems_chars rest fuel h.2 (by
        simp [itemChars, moreItemChars] at hfuel ⊢
        omega)
      simp only [itemChars, List.append_assoc] at hmore
      simp only [moreItemChars, List.cons_append, List.append_assoc, skipBlank_cons (c := ',') rfl, hmore,
        Option.bind_eq_bind, Option.bind_some, Option.pure_def]

theorem readFields_chars (rest : List Char) : ∀ {k : String} {j : Json} {fields : List (String × Json)} (fuel : Nat),
    ReadableFields ((k, j) :: fields) → (fieldChars ((k, j) :: fields)).length < fuel →
      readFields fuel (fieldChars ((k, j) :: fields) ++ '}' :: rest) = some ((k, j) :: fields, rest)
  | k, j, fields, fuel + 1, h, hfuel => by
    have hstops : Stops (moreFieldChars fields ++ '}' :: rest) := by
      cases fields <;> exact stops_cons (by decide) _
    have hread := readValue_chars hstops fuel h.1 (by simp [fieldChars] at hfuel; omega)
    simp only [fieldChars, quote, List.cons_append, List.append_assoc, List.nil_append, readFields,
      skipBlank_cons (c := '"') rfl, readString_flatMap, skipBlank_cons (c := ':') rfl, joinSurrogates_map,
      String.ofList_toList, hread, Option.bind_eq_bind, Option.bind_some]
    cases fields with
    | nil => rfl
    | cons f more =>
      obtain ⟨l, i⟩ := f
      have hmore := readFields_chars rest fuel h.2 (by
        simp [fieldChars, moreFieldChars, quote] at hfuel ⊢
        omega)
      simp only [fieldChars, quote, List.cons_append, List.append_assoc, List.nil_append] at hmore
      simp only [moreFieldChars, quote, List.cons_append, List.append_assoc, List.nil_append,
        skipBlank_cons (c := ',') rfl, hmore, Option.bind_some, Option.pure_def]
end

/-- **A value is the one that its text spells.** -/
theorem parse?_chars {j : Json} (h : Readable j) : parse? (chars j) = some j := by
  have hread : readValue ((chars j).length + 1) (chars j ++ []) = some (j, []) :=
    readValue_chars (by simp [Stops]) _ h (Nat.le_succ _)
  rw [List.append_nil] at hread
  rw [parse?, hread]
  rfl

theorem readValue_record {fields : List (String × Json)} (fuel : Nat) (h : ReadableFields fields)
    (hfuel : (chars (.record fields)).length ≤ fuel) (rest : List Char) :
    readValue (fuel + 1) (chars (.record fields) ++ rest) = some (.record (Fields.ofList fields), rest) := by
  cases fields with
  | nil => rfl
  | cons f more =>
    obtain ⟨k, j⟩ := f
    have hread := readFields_chars rest fuel h (by simp [chars] at hfuel; omega)
    simp only [chars, fieldChars, quote, List.cons_append, List.append_assoc, List.nil_append, readValue,
      skipBlank_cons (c := '{') rfl, skipBlank_cons (c := '"') rfl] at hread ⊢
    simp [hread]

/-- **The text of a record spells it**, with the last one of its fields of each name. -/
theorem parse?_record {fields : List (String × Json)} (h : ReadableFields fields) :
    parse? (chars (.record fields)) = some (.record (Fields.ofList fields)) := by
  have hread := readValue_record _ h (Nat.le_refl _) []
  rw [List.append_nil] at hread
  rw [parse?, hread]
  rfl

end Json

end FailureWire
