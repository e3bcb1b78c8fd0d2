import FailureWire.Number.Decimal
import FailureWire.Proofs.Number.Integer
import FailureWire.Value.Fields

/-!
# Decimal digits

The digits of a natural number are a text of digits without a leading zero, and every reader takes them for that
number again: as an integer of any size (`wholeOfText?_intChars`), as a number (`ofText_toDigits`), as the name of a
position (`positionOf?_positionName`).
-/

namespace FailureWire

namespace Number

/-! ## Texts of digits -/

/-- All characters of a text are digits. -/
def AreDigits (ds : List Char) : Prop := ∀ c ∈ ds, c.isDigit = true

theorem areDigits_toDigits (n : Nat) : AreDigits (Nat.toDigits 10 n) := fun _ hc =>
  Nat.isDigit_of_mem_toDigits (by decide) (by decide) hc

/-- A positive number is written without a leading zero. -/
theorem head?_toDigits_ne_zero {n : Nat} (hn : 0 < n) : (Nat.toDigits 10 n).head? ≠ some '0' := by
  induction n using Nat.strongRecOn with
  | ind n ih =>
    by_cases hsmall : n < 10
    · rw [Nat.toDigits_of_lt_base hsmall]
      simpa using hn.ne'
    · rw [Nat.toDigits_of_base_le (by decide) (Nat.le_of_not_lt hsmall),
        List.head?_append_of_ne_nil _ Nat.toDigits_ne_nil]
      exact ih (n / 10) (Nat.div_lt_self hn (by decide)) (Nat.div_pos (Nat.le_of_not_lt hsmall) (by decide))

/-- Digits are read up to where they end. -/
theorem spanDigits_append_of_areDigits {ds rest : List Char} (hds : AreDigits ds)
    (hrest : ∀ c ∈ rest.head?, c.isDigit = false) : spanDigits (ds ++ rest) = (ds, rest) := by
  have htake : rest.takeWhile Char.isDigit = [] ∧ rest.dropWhile Char.isDigit = rest := by
    cases rest with
    | nil => exact ⟨rfl, rfl⟩
    | cons c more =>
      have hc := hrest c rfl
      simp [hc]
  rw [spanDigits, List.takeWhile_append_of_pos hds, List.dropWhile_append_of_pos hds, htake.1, htake.2,
    List.append_nil]

theorem spanDigits_of_areDigits {ds : List Char} (hds : AreDigits ds) : spanDigits ds = (ds, []) := by
  have hspan : spanDigits (ds ++ []) = (ds, []) := spanDigits_append_of_areDigits hds (by simp)
  rwa [List.append_nil] at hspan

theorem toNat_of_isDigit {c : Char} (h : c.isDigit = true) : 48 ≤ c.toNat ∧ c.toNat ≤ 57 := by
  simpa [Char.isDigit, UInt32.le_iff_toNat_le] using h

theorem isBlank_of_isDigit {c : Char} (h : c.isDigit = true) : Text.isBlank c = false := by
  have hrange := toNat_of_isDigit h
  simp only [Text.isBlank, Bool.or_eq_false_iff, Bool.and_eq_false_iff, decide_eq_false_iff_not]
  omega

theorem trim_eq_self {s : List Char} (h : ∀ c ∈ s, Text.isBlank c = false) : Text.trim s = s := by
  have hdrop : ∀ {t : List Char}, (∀ c ∈ t, Text.isBlank c = false) → t.dropWhile Text.isBlank = t := by
    intro t ht
    cases t with
    | nil => rfl
    | cons c rest => simp [ht c (List.mem_cons_self ..)]
  rw [Text.trim, hdrop h, hdrop (by simpa using h), List.reverse_reverse]

/-- Digits are no letters, signs or points. -/
theorem ne_of_isDigit {c d : Char} (hc : c.isDigit = true) (hd : d.isDigit = false) : c ≠ d := by
  rintro rfl
  rw [hc] at hd
  cases hd

theorem digitValue?_of_isDigit {c : Char} (h : c.isDigit = true) :
    digitValue? c = some (c.toNat - '0'.toNat) ∧ c.toNat - '0'.toNat < 10 := by
  have hrange := toNat_of_isDigit h
  refine ⟨by rw [digitValue?, if_pos h], ?_⟩
  show c.toNat - 48 < 10
  omega

/-! ## Integers of any size -/

theorem natOfDigits?_of_areDigits {ds : List Char} (hds : AreDigits ds) (hne : ds ≠ []) :
    natOfDigits? 10 ds = some (Nat.ofDigitChars 10 ds 0) := by
  have hfold : ∀ {ds : List Char}, AreDigits ds → ∀ n : Nat,
      ds.foldlM (fun n c => (digitValue? c).bind fun d => if d < 10 then some (10 * n + d) else none) n =
        some (Nat.ofDigitChars 10 ds n) := by
    intro ds
    induction ds with
    | nil => exact fun _ n => rfl
    | cons c rest ih =>
      intro hds n
      obtain ⟨hvalue, hlt⟩ := digitValue?_of_isDigit (hds c (List.mem_cons_self ..))
      rw [List.foldlM_cons, hvalue, Nat.ofDigitChars_cons]
      simp only [Option.bind_some, if_pos hlt, Option.bind_eq_bind]
      exact ih (fun d hd => hds d (List.mem_cons_of_mem c hd)) _
  rw [natOfDigits?, if_neg (by simpa using hne), hfold hds]

/-- No base is read off digits without a leading zero. -/
theorem prefixed?_toDigits (n : Nat) : prefixed? (Nat.toDigits 10 n) = none := by
  have hdigits := areDigits_toDigits n
  have hhead := head?_toDigits_ne_zero (n := n)
  rcases Nat.eq_zero_or_pos n with rfl | hn
  · rfl
  · have hhead := head?_toDigits_ne_zero hn
    generalize Nat.toDigits 10 n = ds at hdigits hhead
    unfold prefixed?
    split
    · exact absurd rfl hhead
    · rfl

/-- An integer of any size is read back from its text. -/
theorem wholeOfText?_intChars (n : Int) : wholeOfText? (intChars n) = some n := by
  have hdigits := areDigits_toDigits n.natAbs
  have hread := natOfDigits?_of_areDigits hdigits Nat.toDigits_ne_nil
  rw [ofDigitChars_toDigits_ten] at hread
  have hblank : ∀ c ∈ Nat.toDigits 10 n.natAbs, Text.isBlank c = false := fun c hc =>
    isBlank_of_isDigit (hdigits c hc)
  by_cases hn : n < 0
  · have htrim := trim_eq_self (s := '-' :: Nat.toDigits 10 n.natAbs) <|
      List.forall_mem_cons.2 ⟨by decide, hblank⟩
    have habs : -(n.natAbs : Int) = n := by omega
    rw [wholeOfText?, intChars, if_pos hn, htrim]
    simp only [List.isEmpty_cons, Bool.false_eq_true, if_false, prefixed?, hread]
    exact congrArg some habs
  · have habs : (n.natAbs : Int) = n := by omega
    have hprefix := prefixed?_toDigits n.natAbs
    rw [wholeOfText?, intChars, if_neg hn, trim_eq_self hblank]
    simp only [List.isEmpty_iff, Nat.toDigits_ne_nil, if_false, hprefix]
    generalize Nat.toDigits 10 n.natAbs = ds at hdigits hread
    split
    · exact absurd rfl (ne_of_isDigit (hdigits _ (List.mem_cons_self ..)) (d := '-') (by decide))
    · exact absurd rfl (ne_of_isDigit (hdigits _ (List.mem_cons_self ..)) (d := '+') (by decide))
    · rw [hread]
      exact congrArg some habs

/-! ## Numbers -/

theorem length_toDigits_lt {n : Nat} (hn : n ≤ 9007199254740992) : (Nat.toDigits 10 n).length ≤ 16 :=
  (Nat.length_toDigits_le_iff (by decide) (by decide)).2 (by omega)

/-- The digits of an integer spell its number. -/
theorem ofDecimal_toDigits {n : Nat} (hn : n ≤ 9007199254740992) (hpos : 0 < n) (negative : Bool) :
    ofDecimal negative (Nat.toDigits 10 n) 0 = ofInt (if negative then -n else n) := by
  have hlength := length_toDigits_lt hn
  simp only [ofDecimal, ofDigitChars_toDigits_ten]
  rw [if_neg (by omega), if_neg (by omega)]
  have hvalue : mkRat (n * Nat.pow 10 (0 : Int).toNat : Nat) (Nat.pow 10 (-0 : Int).toNat) = (n : Rat) := by
    rw [Rat.mkRat_eq_div]
    simp
  rw [hvalue]
  cases negative with
  | false => exact round_intCast (a := n) (fun _ => rfl)
  | true =>
    have hcast : -(n : Rat) = ((-n : Int) : Rat) := by simp
    simp only [if_true, hcast]
    exact round_intCast fun hzero => by omega

theorem ofUnsignedText?_of_areDigits {ds : List Char} (hds : AreDigits ds) (hne : ds ≠ []) (negative : Bool) :
    ofUnsignedText? negative ds = some (ofDecimal negative ds 0) := by
  have hword : ds ≠ "Infinity".toList := by
    rintro rfl
    exact absurd (hds 'I' (by decide)) (by decide)
  have hsome : ds.isEmpty = false := by simpa using hne
  rw [ofUnsignedText?, if_neg hword, spanDigits_of_areDigits hds]
  simp only [hsome, Bool.false_and, Bool.false_eq_true, if_false, spanExponent, List.append_nil, List.length_nil]
  rfl

/-- A number is read back from the digits of an integer. -/
theorem ofText_toDigits {n : Nat} (hn : n ≤ 9007199254740992) : ofText (Nat.toDigits 10 n) = ofInt n := by
  have hdigits := areDigits_toDigits n
  have hprefix := prefixed?_toDigits n
  have hne : Nat.toDigits 10 n ≠ [] := Nat.toDigits_ne_nil
  have hvalue : ofDecimal false (Nat.toDigits 10 n) 0 = ofInt n := by
    rcases Nat.eq_zero_or_pos n with rfl | hpos
    · rfl
    · exact ofDecimal_toDigits hn hpos false
  rw [ofText, trim_eq_self fun c hc => isBlank_of_isDigit (hdigits c hc)]
  simp only [List.isEmpty_iff, hne, if_false, hprefix]
  generalize Nat.toDigits 10 n = ds at *
  split
  · exact absurd rfl (ne_of_isDigit (hdigits _ (List.mem_cons_self ..)) (d := '-') (by decide))
  · exact absurd rfl (ne_of_isDigit (hdigits _ (List.mem_cons_self ..)) (d := '+') (by decide))
  · rw [ofUnsignedText?_of_areDigits hdigits hne, Option.getD_some, hvalue]

/-- The text of a safe integer is that of the integer. -/
theorem chars_ofInt {a : Int} (ha : a.natAbs ≤ 9007199254740991) : (ofInt a).chars = intChars a := by
  obtain ⟨o, ho, hvalue⟩ := ofInt_of_fits (fits_of_natAbs_le (a := a) (by omega))
  have hsafe : (ofInt a).toSafeInt? = some a := by
    rw [toSafeInt?, toInt?_ofInt (fits_of_natAbs_le (by omega)), Option.filter_some, if_pos]
    have hrange : -maxSafe ≤ a ∧ a ≤ maxSafe := by
      unfold maxSafe
      omega
    exact decide_eq_true hrange
  rw [ho] at hsafe ⊢
  simp only [chars, hsafe]

end Number

/-! ## Positions -/

open Number in
theorem positionOf?_positionName {i : Nat} (hi : i < 4294967295) : positionOf? (positionName i) = some i := by
  have hdigits := areDigits_toDigits i
  have hread := ofDigitChars_toDigits_ten i
  have hne : Nat.toDigits 10 i ≠ [] := Nat.toDigits_ne_nil
  rw [positionOf?, positionName, String.toList_ofList]
  have hlead : ∀ c more, Nat.toDigits 10 i ≠ '0' :: c :: more := by
    intro c more heq
    rcases Nat.eq_zero_or_pos i with rfl | hpos
    · cases heq
    · exact head?_toDigits_ne_zero hpos (by rw [heq]; rfl)
  generalize Nat.toDigits 10 i = ds at *
  split
  · exact absurd rfl hne
  · exact absurd rfl (hlead _ _)
  · have hall : ds.all Char.isDigit = true := List.all_eq_true.2 hdigits
    simp only [hall, if_true, hread]
    rw [if_pos (by simpa using hi)]

theorem positionName_injective : Function.Injective positionName := by
  intro i j h
  have hchars := congrArg String.toList h
  rw [positionName, positionName, String.toList_ofList, String.toList_ofList] at hchars
  rw [← Number.ofDigitChars_toDigits_ten i, hchars, Number.ofDigitChars_toDigits_ten]

end FailureWire
