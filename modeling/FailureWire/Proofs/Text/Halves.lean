import FailureWire.Proofs.Text.Json
import FailureWire.Text.Units

/-!
# Halves of surrogate pairs in JSON text

`JSON.parse` keeps half of a surrogate pair that a text escapes alone (`\ud800`), and no text here can hold one. A
text that escapes its halves in pairs is read without loss: what is read has the units of the code points in it
(`units_of_readString`). The text of a value escapes no half at all (`halvesPaired_chars`).
-/

namespace FailureWire

namespace Json

open Number

/-! ## Reading -/

/-- Whether the halves of surrogate pairs among code points stand side by side; `first` behind a first half. -/
def paired (first : Bool) : List Nat → Bool
  | [] => !first
  | p :: rest => first == isSecondHalf p && paired (isFirstHalf p) rest

theorem paired_cons {first : Bool} {p : Nat} {rest : List Nat} :
    paired first (p :: rest) = true ↔ first = isSecondHalf p ∧ paired (isFirstHalf p) rest = true := by
  rw [paired, Bool.and_eq_true, beq_iff_eq]

theorem isFirstHalf_eq_false {u : Nat} : isFirstHalf u = false ↔ ¬(0xD800 ≤ u ∧ u < 0xDC00) := by
  simp [isFirstHalf]

theorem isSecondHalf_eq_false {u : Nat} : isSecondHalf u = false ↔ ¬(0xDC00 ≤ u ∧ u < 0xE000) := by
  simp [isSecondHalf]

theorem isSecondHalf_char (c : Char) : isSecondHalf c.toNat = false := by
  have hvalid : c.toNat < 0xD800 ∨ 0xDFFF < c.toNat ∧ c.toNat < 0x110000 := c.valid
  exact isSecondHalf_eq_false.2 (by omega)

theorem isFirstHalf_char (c : Char) : isFirstHalf c.toNat = false := by
  have hvalid : c.toNat < 0xD800 ∨ 0xDFFF < c.toNat ∧ c.toNat < 0x110000 := c.valid
  exact isFirstHalf_eq_false.2 (by omega)

/-- A character stands behind no first half, and is none. -/
theorem paired_char (first : Bool) (c : Char) (points : List Nat) :
    paired first (c.toNat :: points) = (!first && paired false points) := by
  rw [paired, isSecondHalf_char, isFirstHalf_char]
  cases first <;> rfl

theorem hex4?_lt {a b c d : Char} {u : Nat} (h : hex4? a b c d = some u) : u < 0x10000 := by
  have hfold : ∀ (s : List Char) (n : Nat), (s.foldlM (fun n c =>
      (Number.digitValue? c).bind fun d => if d < 16 then some (16 * n + d) else none) n) = some u →
        u + 1 ≤ 16 ^ s.length * (n + 1) := by
    intro s
    induction s with
    | nil => simp
    | cons c rest ih =>
      intro n hread
      rw [List.foldlM_cons, Option.bind_eq_bind, Option.bind_eq_some_iff] at hread
      obtain ⟨m, hm, hread⟩ := hread
      obtain ⟨digit, -, hm⟩ := Option.bind_eq_some_iff.1 hm
      split at hm
      · next hdigit =>
        cases hm
        calc u + 1 ≤ 16 ^ rest.length * (16 * n + digit + 1) := ih _ hread
          _ ≤ 16 ^ rest.length * (16 * (n + 1)) := Nat.mul_le_mul_left _ (by omega)
          _ = 16 ^ (c :: rest).length * (n + 1) := by rw [List.length_cons, Nat.pow_succ, Nat.mul_assoc]
      · cases hm
  rw [hex4?, Number.natOfDigits?, if_neg (by simp)] at h
  have hle := hfold _ _ h
  simp only [List.length_cons, List.length_nil] at hle
  omega

theorem halvesPaired_cons {first : Bool} {c : Char} {rest : List Char} (hc : c ≠ '\\') :
    halvesPaired first (c :: rest) = (!first && halvesPaired false rest) := by
  rw [halvesPaired]
  · simp [hc]
  · simp [hc]

/-- If the halves that a JSON text escapes stand side by side, so they do among the code points of its first string. -/
theorem paired_of_readString (s : List Char) : ∀ {first : Bool} {points : List Nat} {rest : List Char},
    readString s = some (points, rest) → halvesPaired first s = true →
      paired first points = true ∧ ∀ p ∈ points, p < 0x110000 := by
  have hchar (c : Char) : c.toNat < 0x110000 := by
    have hvalid : c.toNat < 0xD800 ∨ 0xDFFF < c.toNat ∧ c.toNat < 0x110000 := c.valid
    omega
  fun_induction readString s with
  | case1 => nofun
  | case2 rest =>
    rintro first _ _ ⟨⟩ h
    rw [halvesPaired_cons (by decide), Bool.and_eq_true] at h
    exact ⟨h.1, List.forall_mem_nil _⟩
  | case3 a b c d rest ih =>
    intro first points _ hread h
    obtain ⟨u, hu, hread⟩ := Option.bind_eq_some_iff.1 hread
    obtain ⟨⟨more, _⟩, hmore, hread⟩ := Option.bind_eq_some_iff.1 hread
    cases hread
    simp only [halvesPaired, hu, Bool.and_eq_true] at h
    obtain ⟨hpaired, hlt⟩ := ih hmore h.2
    have hsmall := hex4?_lt hu
    exact ⟨by rw [paired, h.1, hpaired, Bool.and_self], List.forall_mem_cons.2 ⟨by omega, hlt⟩⟩
  | case4 c rest hc ih =>
    intro first points _ hread h
    obtain ⟨e, -, hread⟩ := Option.bind_eq_some_iff.1 hread
    obtain ⟨⟨more, _⟩, hmore, hread⟩ := Option.bind_eq_some_iff.1 hread
    cases hread
    rw [halvesPaired, Bool.and_eq_true] at h
    · obtain ⟨hpaired, hlt⟩ := ih hmore h.2
      exact ⟨by rw [paired_char, h.1, hpaired, Bool.and_self], List.forall_mem_cons.2 ⟨hchar e, hlt⟩⟩
    · exact hc
  | case5 => nofun
  | case6 c rest _ _ _ hplain ih =>
    intro first points _ hread h
    obtain ⟨⟨more, _⟩, hmore, hread⟩ := Option.bind_eq_some_iff.1 hread
    cases hread
    rw [halvesPaired_cons fun hslash => hplain (.inr hslash), Bool.and_eq_true] at h
    obtain ⟨hpaired, hlt⟩ := ih hmore h.2
    exact ⟨by rw [paired_char, h.1, hpaired, Bool.and_self], List.forall_mem_cons.2 ⟨hchar c, hlt⟩⟩

theorem unitsOfPoint_pair {p q n : Nat} (h : 0xD800 ≤ p ∧ p < 0xDC00 ∧ 0xDC00 ≤ q ∧ q < 0xE000)
    (hn : 0x10000 + (p - 0xD800) * 0x400 + (q - 0xDC00) = n) :
    Text.unitsOfPoint n = Text.unitsOfPoint p ++ Text.unitsOfPoint q := by
  have hhigh : 0xD800 + (n - 0x10000) / 0x400 = p := by omega
  have hlow : 0xDC00 + (n - 0x10000) % 0x400 = q := by omega
  rw [Text.unitsOfPoint, if_neg (by omega), Text.unitsOfPoint, if_pos (by omega), Text.unitsOfPoint,
    if_pos (by omega), hhigh, hlow, List.singleton_append]

/-- Pairs of halves are joined to the characters that have these units. -/
theorem units_joinSurrogates (points : List Nat) : paired false points = true → (∀ p ∈ points, p < 0x110000) →
    Text.units (joinSurrogates points) = points.flatMap Text.unitsOfPoint := by
  have hself {p : Nat} (hlt : p < 0x110000) (hp : ¬(0xD800 ≤ p ∧ p < 0xE000)) : (Char.ofNat p).toNat = p := by
    have hvalid : p.isValidChar := by
      simp only [Nat.isValidChar]
      omega
    rw [Char.ofNat, dif_pos hvalid]
    rfl
  fun_induction joinSurrogates points with
  | case1 => exact fun _ _ => rfl
  | case2 p hhalf =>
    intro h _
    obtain ⟨hsecond, hfirst⟩ := paired_cons.1 h
    have hfirst : isFirstHalf p = false := by simpa [paired] using hfirst
    have hfirst := isFirstHalf_eq_false.1 hfirst
    have hsecond := isSecondHalf_eq_false.1 hsecond.symm
    omega
  | case3 p hp =>
    intro _ hlt
    rw [Text.units, List.flatMap_singleton, List.flatMap_singleton, hself (hlt p (List.mem_singleton_self p)) hp]
  | case4 p q rest hpair ih =>
    intro h hlt
    have hq : isFirstHalf q = false := isFirstHalf_eq_false.2 (by omega)
    have hrest : paired false rest = true := hq ▸ (paired_cons.1 (paired_cons.1 h).2).2
    have hlater := ih hrest fun p hp => hlt p (List.mem_cons_of_mem _ (List.mem_cons_of_mem _ hp))
    generalize hn : 0x10000 + (p - 0xD800) * 0x400 + (q - 0xDC00) = n
    have hunits : Text.unitsOfPoint n = Text.unitsOfPoint p ++ Text.unitsOfPoint q := unitsOfPoint_pair hpair hn
    rw [Text.units, List.flatMap_cons, hself (by omega) (by omega), hunits, ← Text.units, hlater, List.flatMap_cons,
      List.flatMap_cons, List.append_assoc]
  | case5 p q rest hpair ih =>
    intro h hlt
    obtain ⟨hp, hlater⟩ := List.forall_mem_cons.1 hlt
    obtain ⟨hsecond, hnext⟩ := paired_cons.1 h
    have hsecond := isSecondHalf_eq_false.1 hsecond.symm
    -- behind a first half there would be a second one
    have hfirst : isFirstHalf p = false := by
      cases hp : isFirstHalf p with
      | false => rfl
      | true =>
        rw [hp] at hnext
        have hq : isSecondHalf q = true := (paired_cons.1 hnext).1.symm
        simp only [isFirstHalf, isSecondHalf, Bool.and_eq_true, decide_eq_true_eq] at hp hq
        omega
    rw [hfirst] at hnext
    have hfirst := isFirstHalf_eq_false.1 hfirst
    have hwhole : ¬(0xD800 ≤ p ∧ p < 0xE000) := by omega
    rw [if_neg hwhole, Text.units, List.flatMap_cons, hself hp hwhole, ← Text.units, ih hnext hlater,
      ← List.flatMap_cons]

/-- **A string whose escaped halves are paired is read without loss**: its units are those of its code points. -/
theorem units_of_readString {s rest : List Char} {points : List Nat} (h : readString s = some (points, rest))
    (hs : halvesPaired false s = true) : Text.units (joinSurrogates points) = points.flatMap Text.unitsOfPoint := by
  obtain ⟨hpaired, hlt⟩ := paired_of_readString s h hs
  exact units_joinSurrogates points hpaired hlt

/-! ## Writing -/

/-- A text behind which the halves are paired if they are in what follows. -/
def Unescaped (s : List Char) : Prop := ∀ rest, halvesPaired false (s ++ rest) = halvesPaired false rest

theorem unescaped_nil : Unescaped [] := fun _ => rfl

theorem Unescaped.append {s t : List Char} (hs : Unescaped s) (ht : Unescaped t) : Unescaped (s ++ t) := by
  intro rest
  rw [List.append_assoc, hs, ht]

theorem unescaped_singleton {c : Char} (hc : c ≠ '\\') : Unescaped [c] := by
  intro rest
  rw [List.singleton_append, halvesPaired_cons hc]
  rfl

theorem Unescaped.cons {c : Char} {s : List Char} (hs : Unescaped s) (hc : c ≠ '\\') : Unescaped (c :: s) :=
  (unescaped_singleton hc).append hs

/-- What has no backslash escapes nothing. -/
theorem unescaped_of_not_mem {s : List Char} (h : '\\' ∉ s) : Unescaped s := by
  induction s with
  | nil => exact unescaped_nil
  | cons c rest ih =>
    obtain ⟨hc, hrest⟩ := not_or.1 (mt List.mem_cons.2 h)
    exact (ih hrest).cons (Ne.symm hc)

theorem Unescaped.flatMap {α : Type} {f : α → List Char} (h : ∀ a, Unescaped (f a)) (as : List α) :
    Unescaped (as.flatMap f) := by
  induction as with
  | nil => exact unescaped_nil
  | cons a rest ih => exact (h a).append ih

/-- A letter behind a backslash stands for no half. -/
theorem unescaped_pair {c : Char} (hc : c ≠ 'u') : Unescaped ['\\', c] := by
  intro rest
  simp only [List.cons_append, List.nil_append]
  rw [halvesPaired]
  · rfl
  · exact fun _ _ _ _ _ h => absurd h hc

theorem unescaped_escapeChar (c : Char) : Unescaped (escapeChar c) := by
  unfold escapeChar
  split_ifs with hquote hslash hline htab hreturn hback hfeed hcontrol
  · exact unescaped_pair (by decide)
  · exact unescaped_pair (by decide)
  · exact unescaped_pair (by decide)
  · exact unescaped_pair (by decide)
  · exact unescaped_pair (by decide)
  · exact unescaped_pair (by decide)
  · exact unescaped_pair (by decide)
  · intro rest
    have hfirst : isFirstHalf c.toNat = false := isFirstHalf_char c
    simp only [List.cons_append, List.nil_append, halvesPaired, hex4?_hexDigit _ hcontrol, isSecondHalf_char, hfirst,
      beq_self_eq_true, Bool.true_and]
  · exact unescaped_singleton hslash

theorem unescaped_quote (s : List Char) : Unescaped (quote s) :=
  ((Unescaped.flatMap unescaped_escapeChar s).append (unescaped_singleton (by decide))).cons (by decide)

theorem unescaped_of_areDigits {ds : List Char} (h : AreDigits ds) : Unescaped ds :=
  unescaped_of_not_mem fun hmem => absurd (h _ hmem) (by decide)

theorem unescaped_toDigits (n : Nat) : Unescaped (Nat.toDigits 10 n) := unescaped_of_areDigits (areDigits_toDigits n)

theorem unescaped_placePoint {ds : List Char} (h : AreDigits ds) (n : Int) : Unescaped (placePoint ds n) := by
  have htake (k : Nat) : Unescaped (ds.take k) := unescaped_of_areDigits fun c hc => h c (List.mem_of_mem_take hc)
  have hdrop (k : Nat) : Unescaped (ds.drop k) := unescaped_of_areDigits fun c hc => h c (List.mem_of_mem_drop hc)
  have hzeros (k : Nat) : Unescaped (List.replicate k '0') := unescaped_of_areDigits (areDigits_replicate k)
  have hpart : Unescaped (if ds.length = 1 then [] else '.' :: ds.drop 1) := by
    split
    · exact unescaped_nil
    · exact (hdrop 1).cons (by decide)
  simp only [placePoint]
  split
  · exact (unescaped_of_areDigits h).append (hzeros _)
  split
  · exact (htake _).append ((hdrop _).cons (by decide))
  split
  · exact (((hzeros _).append (unescaped_of_areDigits h)).cons (by decide)).cons (by decide)
  · refine ((htake 1).append hpart).append (((unescaped_toDigits _).cons ?_).cons (by decide))
    split <;> decide

theorem unescaped_numberChars (n : Number) : Unescaped (numberChars n) := by
  have hmagnitude (o : Nat) : Unescaped (magnitudeChars o) := by
    refine unescaped_placePoint (fun c hc => ?_) _
    exact areDigits_toDigits _ c (List.mem_reverse.1 ((List.dropWhile_sublist _).subset (List.mem_reverse.1 hc)))
  unfold numberChars
  split
  · unfold Number.chars intChars
    split
    · exact unescaped_of_not_mem (by decide)
    · exact unescaped_of_not_mem (by split <;> decide)
    · split <;> split
      · exact (unescaped_toDigits _).cons (by decide)
      · exact unescaped_toDigits _
      · exact (hmagnitude _).cons (by decide)
      · exact hmagnitude _
  · exact unescaped_of_not_mem (by decide)

mutual
theorem unescaped_chars : ∀ j : Json, Unescaped (chars j)
  | .null => unescaped_of_not_mem (by decide)
  | .bool b => unescaped_of_not_mem (by cases b <;> decide)
  | .number n => unescaped_numberChars n
  | .text s => unescaped_quote s.toList
  | .list items => ((unescaped_itemChars items).append (unescaped_singleton (by decide))).cons (by decide)
  | .record fields => ((unescaped_fieldChars fields).append (unescaped_singleton (by decide))).cons (by decide)

theorem unescaped_itemChars : ∀ js : List Json, Unescaped (itemChars js)
  | [] => unescaped_nil
  | j :: rest => (unescaped_chars j).append (unescaped_moreItemChars rest)

theorem unescaped_moreItemChars : ∀ js : List Json, Unescaped (moreItemChars js)
  | [] => unescaped_nil
  | j :: rest => ((unescaped_chars j).append (unescaped_moreItemChars rest)).cons (by decide)

theorem unescaped_fieldChars : ∀ fs : List (String × Json), Unescaped (fieldChars fs)
  | [] => unescaped_nil
  | (k, j) :: rest =>
    (unescaped_quote k.toList).append (((unescaped_chars j).append (unescaped_moreFieldChars rest)).cons (by decide))

theorem unescaped_moreFieldChars : ∀ fs : List (String × Json), Unescaped (moreFieldChars fs)
  | [] => unescaped_nil
  | (k, j) :: rest =>
    ((unescaped_quote k.toList).append
      (((unescaped_chars j).append (unescaped_moreFieldChars rest)).cons (by decide))).cons (by decide)
end

/-- **No half of a surrogate pair is escaped in the text of a value.** -/
theorem halvesPaired_chars (j : Json) : halvesPaired false (chars j) = true := by
  have h := unescaped_chars j []
  rwa [List.append_nil] at h

end Json
end FailureWire
