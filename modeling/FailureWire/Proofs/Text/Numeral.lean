import Mathlib.Data.List.TakeWhile
import FailureWire.Proofs.Number.Digits
import FailureWire.Proofs.Number.Shortest
import FailureWire.Text.Json

/-!
# Numbers are read back from JSON text

However a number is written, as an integer, with a point or with an exponent, reading finds the same digits and the
same exponent (`readNumber_of_parts`). Digits and an exponent that stand for a quotient near a magnitude are read as
that magnitude (`ofDecimal_of_nearest`), and those that are written do. So every finite number is read back from its
text (`readNumber_chars`), but for the sign of a zero, which is not written.
-/

namespace FailureWire

namespace Number

/-! ## Digits and exponents -/

section
variable {o n d : Nat}

/-- What is near to a magnitude is not too small. -/
theorem Nearest.le_mul_pow (h : Nearest o n d) (ho : 0 < mantissa o) : d ≤ n * 2 ^ 1075 := by
  have hlow := (Nat.mul_le_mul_right _ (show 2 ≤ lowQuarters o by have := le_lowQuarters o; omega)).trans h.low
  have hunit := Nat.le_mul_of_pos_right d (Nat.two_pow_pos (scale o))
  have htwo : n * 2 ^ 1075 = 2 * (n * perOne) := by
    rw [perOne_eq, two_pow_of_eq_succ (show 1075 = 1074 + 1 from rfl), Nat.mul_left_comm]
  omega

theorem Nearest.mul_le_pow (h : Nearest o n d) (hlt : o < magnitudes) : n ≤ d * 2 ^ 1024 := by
  have hm := mantissa_lt o
  have hscale := Nat.pow_le_pow_right Nat.two_pos (scale_le hlt)
  rw [fractions_eq] at hm
  refine Nat.le_of_mul_le_mul_right (c := 4 * perOne) ?_ (Nat.mul_pos (by decide) perOne_pos)
  have hpow : 2 ^ 55 * 2 ^ 2045 = 2 ^ 1024 * (4 * 2 ^ 1074) := by
    rw [show 4 = 2 ^ 2 from rfl, ← Nat.pow_add, ← Nat.pow_add, ← Nat.pow_add]
  calc n * (4 * perOne) = 4 * (n * perOne) := Nat.mul_left_comm ..
    _ ≤ highQuarters o * (d * 2 ^ scale o) := h.high
    _ ≤ 2 ^ 55 * (d * 2 ^ 2045) :=
        Nat.mul_le_mul (by unfold highQuarters; omega) (Nat.mul_le_mul_left _ hscale)
    _ = d * (2 ^ 55 * 2 ^ 2045) := Nat.mul_left_comm ..
    _ = d * 2 ^ 1024 * (4 * perOne) := by rw [hpow, perOne_eq, ← Nat.mul_assoc]

/-- Digits and an exponent near to a magnitude are within the range of decimals that are rounded. -/
theorem Nearest.range {m : Nat} {e : Int} (h : Nearest o (m * 10 ^ e.toNat) (10 ^ (-e).toNat)) (hlt : o < magnitudes)
    (ho : 0 < mantissa o) (hm : 0 < m) :
    -400 ≤ (Nat.toDigits 10 m).length + e ∧ (Nat.toDigits 10 m).length + e ≤ 400 := by
  have hsmall := h.le_mul_pow ho
  have hlarge := h.mul_le_pow hlt
  have hlength : 0 < (Nat.toDigits 10 m).length := Nat.length_toDigits_pos
  have hbelow : m < 10 ^ (Nat.toDigits 10 m).length :=
    (Nat.length_toDigits_le_iff (by decide) hlength).1 (Nat.le_refl _)
  have habove : 10 ^ ((Nat.toDigits 10 m).length - 1) ≤ m := by
    rcases Nat.eq_or_lt_of_le hlength with hone | hmore
    · rw [← hone]
      exact hm
    · by_contra hless
      have := (Nat.length_toDigits_le_iff (b := 10) (by decide) (Nat.sub_pos_of_lt hmore)).2 (Nat.lt_of_not_le hless)
      omega
  generalize (Nat.toDigits 10 m).length = len at *
  constructor
  · by_contra hless
    rw [show e.toNat = 0 by omega, Nat.pow_zero, Nat.mul_one] at hsmall
    have hpow : 10 ^ (-e).toNat < 10 ^ (len + 401) :=
      calc 10 ^ (-e).toNat ≤ m * 2 ^ 1075 := hsmall
        _ < 10 ^ len * 2 ^ 1075 := Nat.mul_lt_mul_of_pos_right hbelow (Nat.two_pow_pos _)
        _ ≤ 10 ^ len * 10 ^ 401 := Nat.mul_le_mul_left _ (two_pow_le_ten_pow (by decide))
        _ = 10 ^ (len + 401) := (Nat.pow_add ..).symm
    have := (Nat.pow_lt_pow_iff_right (show 1 < 10 by decide)).1 hpow
    omega
  · have hpow : 10 ^ (len - 1 + e.toNat) ≤ 10 ^ ((-e).toNat + 399) :=
      calc 10 ^ (len - 1 + e.toNat) = 10 ^ (len - 1) * 10 ^ e.toNat := Nat.pow_add ..
        _ ≤ m * 10 ^ e.toNat := Nat.mul_le_mul_right _ habove
        _ ≤ 10 ^ (-e).toNat * 2 ^ 1024 := hlarge
        _ ≤ 10 ^ (-e).toNat * 10 ^ 399 := Nat.mul_le_mul_left _ (two_pow_le_ten_pow (by decide))
        _ = 10 ^ ((-e).toNat + 399) := (Nat.pow_add ..).symm
    have := (Nat.pow_le_pow_iff_right (show 1 < 10 by decide)).1 hpow
    omega

theorem ofDecimal_of_nearest {digits : List Char} {e : Int} (hlt : o < magnitudes) (ho : 0 < mantissa o)
    (hpos : 0 < Nat.ofDigitChars 10 digits 0)
    (h : Nearest o (Nat.ofDigitChars 10 digits 0 * 10 ^ e.toNat) (10 ^ (-e).toNat)) (negative : Bool) :
    ofDecimal negative digits e = .finite negative ⟨o, hlt⟩ := by
  obtain ⟨hlow, hhigh⟩ := h.range hlt ho hpos
  simp only [ofDecimal, Nat.pow_eq]
  generalize Nat.ofDigitChars 10 digits 0 = m at *
  rw [if_neg (by omega), if_neg (by omega), Rat.mkRat_eq_div, Int.cast_natCast]
  have hn : 0 < m * 10 ^ e.toNat := Nat.mul_pos hpos (Nat.pow_pos (by decide))
  have hd : 0 < 10 ^ (-e).toNat := Nat.pow_pos (by decide)
  have hquot : (0 : Rat) < ((m * 10 ^ e.toNat : Nat) : Rat) / ((10 ^ (-e).toNat : Nat) : Rat) :=
    div_pos (Nat.cast_pos.2 hn) (Nat.cast_pos.2 hd)
  cases negative with
  | false =>
    rw [if_neg Bool.false_ne_true, round_of_nearest hlt hn hd (abs_of_pos hquot) h]
    simp only [not_lt.2 hquot.le, decide_false]
  | true =>
    rw [if_pos rfl, round_of_nearest hlt hn hd ((abs_neg _).trans (abs_of_pos hquot)) h]
    simp only [neg_lt_zero.2 hquot, decide_true]

theorem areDigits_replicate (k : Nat) : AreDigits (List.replicate k '0') := fun _ hc =>
  List.eq_of_mem_replicate hc ▸ rfl

theorem AreDigits.append {ds es : List Char} (hds : AreDigits ds) (hes : AreDigits es) : AreDigits (ds ++ es) :=
  fun c hc => (List.mem_append.1 hc).elim (hds c) (hes c)

/-- Trailing zeros of the digits may move into the exponent, and back. -/
theorem Nearest.shift {c a : Nat} {w : Int} (h : Nearest o (c * 10 ^ a * 10 ^ (w - a).toNat) (10 ^ (-(w - a)).toNat))
    (b : Nat) : Nearest o (c * 10 ^ b * 10 ^ (w - b).toNat) (10 ^ (-(w - b)).toNat) := by
  refine h.of_eq (Nat.pow_pos (by decide)) (Nat.pow_pos (by decide)) ?_
  simp only [Nat.mul_assoc, ← Nat.pow_add]
  rw [show a + (w - a).toNat + (-(w - b)).toNat = b + (w - b).toNat + (-(w - a)).toNat by omega]

end

/-! ## Significant digits -/

/-- Digits without the zeros at their end. -/
theorem exists_significant {s : Nat} (hs : 0 < s) :
    ∃ ds z, ((Nat.toDigits 10 s).reverse.dropWhile (· = '0')).reverse = ds ∧
      Nat.toDigits 10 s = ds ++ List.replicate z '0' ∧ ds ≠ [] ∧ ds.head? ≠ some '0' ∧ AreDigits ds ∧
      s = Nat.ofDigitChars 10 ds 0 * 10 ^ z := by
  obtain ⟨z, hz⟩ : ∃ z, Nat.toDigits 10 s =
      ((Nat.toDigits 10 s).reverse.dropWhile (· = '0')).reverse ++ List.replicate z '0' := by
    refine ⟨((Nat.toDigits 10 s).reverse.takeWhile (· = '0')).length, ?_⟩
    have hzeros : (Nat.toDigits 10 s).reverse.takeWhile (· = '0') =
        List.replicate ((Nat.toDigits 10 s).reverse.takeWhile (· = '0')).length '0' :=
      List.eq_replicate_iff.2 ⟨rfl, fun c hc => by simpa using List.mem_takeWhile_imp hc⟩
    have hsplit := congrArg List.reverse (List.takeWhile_append_dropWhile (p := (· = '0'))
      (l := (Nat.toDigits 10 s).reverse))
    rw [List.reverse_append, List.reverse_reverse, hzeros, List.reverse_replicate] at hsplit
    exact hsplit.symm
  generalize ((Nat.toDigits 10 s).reverse.dropWhile (· = '0')).reverse = ds at hz
  have hhead := head?_toDigits_ne_zero hs
  have hvalue : s = Nat.ofDigitChars 10 ds 0 * 10 ^ z := by
    conv_lhs => rw [← ofDigitChars_toDigits_ten s, hz, Nat.ofDigitChars_append, Nat.ofDigitChars_replicate_zero]
    exact Nat.mul_comm ..
  have hne : ds ≠ [] := by
    rintro rfl
    rw [Nat.ofDigitChars_nil, Nat.zero_mul] at hvalue
    omega
  have hdigits := areDigits_toDigits s
  rw [hz] at hhead hdigits
  refine ⟨ds, z, rfl, hz, hne, ?_, fun c hc => hdigits c (List.mem_append_left _ hc), hvalue⟩
  rwa [List.head?_append_of_ne_nil _ hne] at hhead

end Number

/-! ## Numerals in JSON text -/

namespace Json

open Number

/-- What may follow a number: nothing that could belong to it. -/
def Stops (rest : List Char) : Prop := ∀ c ∈ rest.head?, c.isDigit = false ∧ c ≠ '.' ∧ c ≠ 'e' ∧ c ≠ 'E'

/-- A sign in front of a number. -/
def signChars (negative : Bool) : List Char := if negative then ['-'] else []

/-- The part of a numeral behind its point, with the point. -/
def fractionChars (part : List Char) : List Char := if part.isEmpty then [] else '.' :: part

/-- **A numeral is read as its digits and its exponent.** -/
theorem readNumber_of_parts {whole part tail rest : List Char} {e : Int} (hwhole : AreDigits whole)
    (hne : whole ≠ []) (hlead : whole.head? ≠ some '0' ∨ whole.length = 1) (hpart : AreDigits part)
    (htail : ∀ c ∈ tail.head?, c.isDigit = false ∧ c ≠ '.') (hexp : spanExponent tail = some (e, rest))
    (negative : Bool) :
    readNumber (signChars negative ++ (whole ++ (fractionChars part ++ tail))) =
      some (ofDecimal negative (whole ++ part) (e - part.length), rest) := by
  have hlead : (whole.isEmpty || (whole.head? = some '0' && 1 < whole.length : Bool)) = false := by
    simp only [Bool.or_eq_false_iff, List.isEmpty_eq_false_iff, Bool.and_eq_false_iff, decide_eq_false_iff_not]
    exact ⟨hne, hlead.imp_right fun hone => by omega⟩
  have hpoint : ∀ c ∈ (fractionChars part ++ tail).head?, c.isDigit = false := by
    intro c hc
    cases part with
    | nil => exact (htail c hc).1
    | cons d ds =>
      cases hc
      rfl
  have hspan := spanDigits_append_of_areDigits hwhole hpoint
  have hminus : ∀ r, whole ++ (fractionChars part ++ tail) ≠ '-' :: r := by
    rintro r heq
    obtain ⟨c, cs, rfl⟩ := List.exists_cons_of_ne_nil hne
    cases heq
    exact ne_of_isDigit (hwhole _ (List.mem_cons_self ..)) (d := '-') (by decide) rfl
  cases part with
  | nil =>
    have hnone : ∀ r, tail ≠ '.' :: r := by
      rintro r rfl
      exact (htail '.' rfl).2 rfl
    simp only [fractionChars, List.isEmpty_nil, if_true, List.nil_append] at hspan hminus ⊢
    cases negative <;>
      simp [readNumber, signChars, hspan, hlead, hexp]
  | cons d ds =>
    have hspan' := spanDigits_append_of_areDigits hpart fun c hc => (htail c hc).1
    simp only [fractionChars, List.isEmpty_cons, Bool.false_eq_true, if_false,
      List.cons_append] at hspan hspan' hminus ⊢
    cases negative <;>
      simp [readNumber, signChars, hspan, hspan', hlead, hexp]

theorem spanExponent_of_stops {rest : List Char} (h : Stops rest) : spanExponent rest = some (0, rest) := by
  cases rest with
  | nil => rfl
  | cons c more =>
    obtain ⟨-, -, hlower, hupper⟩ := h c rfl
    simp only [spanExponent, hlower, hupper, or_self, if_false]

/-- An exponent that is written with its sign is read. -/
theorem spanExponent_exponent {rest : List Char} (h : ∀ c ∈ rest.head?, c.isDigit = false) (e : Int) :
    spanExponent ('e' :: (if e < 0 then '-' else '+') :: (Nat.toDigits 10 e.natAbs ++ rest)) = some (e, rest) := by
  have hspan := spanDigits_append_of_areDigits (areDigits_toDigits e.natAbs) h
  have hread := ofDigitChars_toDigits_ten e.natAbs
  have hne : Nat.toDigits 10 e.natAbs ≠ [] := Nat.toDigits_ne_nil
  generalize Nat.toDigits 10 e.natAbs = ds at *
  split <;> simp only [spanExponent, true_or, if_true, Bool.false_eq_true, if_false, hspan, hread]
  · exact congrArg (fun n => some (n, rest)) (by omega)
  · exact congrArg (fun n => some (n, rest)) (by omega)

section
variable {o : Nat} {ds rest : List Char} {n : Int}

/-- A numeral whose digits stand for a quotient near to a magnitude is read as the magnitude. -/
theorem readNumber_of_nearest (whole part : List Char) {tail : List Char} {e w : Int} {c b : Nat} (hlt : o < magnitudes)
    (ho : 0 < mantissa o) (hc : 0 < c) (h : Nearest o (c * 10 ^ b * 10 ^ (w - b).toNat) (10 ^ (-(w - b)).toNat))
    (hwhole : AreDigits whole) (hne : whole ≠ []) (hlead : whole.head? ≠ some '0' ∨ whole.length = 1)
    (hpart : AreDigits part) (htail : ∀ c ∈ tail.head?, c.isDigit = false ∧ c ≠ '.')
    (hexp : spanExponent tail = some (e, rest)) (hvalue : Nat.ofDigitChars 10 (whole ++ part) 0 = c * 10 ^ b)
    (hplace : e - part.length = w - b) (negative : Bool) :
    readNumber (signChars negative ++ (whole ++ (fractionChars part ++ tail))) =
      some (.finite negative ⟨o, hlt⟩, rest) := by
  rw [readNumber_of_parts hwhole hne hlead hpart htail hexp, hplace]
  rw [← hvalue] at h
  rw [ofDecimal_of_nearest hlt ho (hvalue ▸ Nat.mul_pos hc (Nat.pow_pos (by decide))) h]

/-- **Digits are read back wherever their point is placed.** -/
theorem readNumber_placePoint (hlt : o < magnitudes) (ho : 0 < mantissa o) (hds : AreDigits ds) (hne : ds ≠ [])
    (hlead : ds.head? ≠ some '0') (hpos : 0 < Nat.ofDigitChars 10 ds 0) (hrest : Stops rest)
    (h : ∀ b : Nat, Nearest o (Nat.ofDigitChars 10 ds 0 * 10 ^ b * 10 ^ (n - ds.length - b).toNat)
      (10 ^ (-(n - ds.length - b)).toNat)) (negative : Bool) :
    readNumber (signChars negative ++ (placePoint ds n ++ rest)) = some (.finite negative ⟨o, hlt⟩, rest) := by
  have hstop : ∀ c ∈ rest.head?, c.isDigit = false ∧ c ≠ '.' := fun c hc => ⟨(hrest c hc).1, (hrest c hc).2.1⟩
  have hexp := spanExponent_of_stops hrest
  have hlength : 0 < ds.length := List.length_pos_of_ne_nil hne
  by_cases hafter : ds.length ≤ n ∧ n ≤ 21
  · -- zeros are added up to the point
    have hread := readNumber_of_nearest (ds ++ List.replicate (n.toNat - ds.length) '0') [] hlt ho hpos
      (h (n.toNat - ds.length)) (hds.append (areDigits_replicate _)) (by simp [hne])
      (.inl (by rwa [List.head?_append_of_ne_nil _ hne])) (by simp [AreDigits]) hstop hexp
      (by rw [List.append_nil, Nat.ofDigitChars_append, Nat.ofDigitChars_replicate_zero, Nat.mul_comm])
      (by simp only [List.length_nil]; omega) negative
    simpa only [placePoint, if_pos hafter, fractionChars, List.isEmpty_nil, if_true, List.nil_append] using hread
  by_cases hwithin : 0 < n ∧ n ≤ 21
  · -- the point stands between the digits
    have hread := readNumber_of_nearest (ds.take n.toNat) (ds.drop n.toNat) hlt ho hpos (h 0)
      (fun c hc => hds c (List.mem_of_mem_take hc)) (by simp [hne]; omega)
      (.inl (by rwa [List.head?_take, if_neg (by omega)])) (fun c hc => hds c (List.mem_of_mem_drop hc)) hstop hexp
      (by rw [List.take_append_drop, Nat.pow_zero, Nat.mul_one]) (by rw [List.length_drop]; omega) negative
    have hpart : (ds.drop n.toNat).isEmpty = false := by simp; omega
    simp only [placePoint, if_neg hafter, if_pos hwithin]
    simpa [fractionChars, hpart] using hread
  by_cases hbefore : -6 < n ∧ n ≤ 0
  · -- zeros stand behind the point
    have hread := readNumber_of_nearest ['0'] (List.replicate (-n).toNat '0' ++ ds) hlt ho hpos
      (h 0) (areDigits_replicate 1) (by simp) (.inr rfl) ((areDigits_replicate _).append hds) hstop hexp
      (by rw [List.singleton_append, ← List.cons_append, ← List.replicate_succ, Nat.ofDigitChars_append,
        Nat.ofDigitChars_replicate_zero, Nat.mul_zero, Nat.pow_zero, Nat.mul_one])
      (by rw [List.length_append, List.length_replicate]; omega) negative
    simp only [placePoint, if_neg hafter, if_neg hwithin, if_pos hbefore]
    simpa [fractionChars, hne] using hread
  · -- one digit stands before the point, and an exponent behind the others
    obtain ⟨d, more, rfl⟩ := List.exists_cons_of_ne_nil hne
    have hread := readNumber_of_nearest [d] more hlt ho hpos (h 0)
      (fun c hc => hds c (List.mem_cons.2 (.inl (List.mem_singleton.1 hc)))) (by simp) (.inl hlead)
      (fun c hc => hds c (List.mem_cons_of_mem d hc)) (fun c hc => by cases hc; decide)
      (spanExponent_exponent (fun c hc => (hrest c hc).1) (n - 1))
      (by rw [List.singleton_append, Nat.pow_zero, Nat.mul_one]) (by rw [List.length_cons]; omega) negative
    have hpart : fractionChars more = if more.length + 1 = 1 then [] else '.' :: more := by
      cases more <;> rfl
    rw [hpart] at hread
    simp only [placePoint, if_neg hafter, if_neg hwithin, if_neg hbefore]
    simpa using hread

end

/-- The shortest digits of a magnitude are read back as the magnitude. -/
theorem readNumber_magnitudeChars {o : Nat} {rest : List Char} (ho : 0 < o) (hlt : o < magnitudes)
    (hrest : Stops rest) (negative : Bool) :
    readNumber (signChars negative ++ (magnitudeChars o ++ rest)) = some (.finite negative ⟨o, hlt⟩, rest) := by
  have hnear := nearest_shortestDigits ho hlt
  have hpos := shortestDigits_pos ho hlt
  simp only [magnitudeChars]
  generalize (shortestDigits o).1 = s at *
  generalize (shortestDigits o).2 = g at *
  obtain ⟨ds, z, hsig, hall, hne, hlead, hds, hs⟩ := exists_significant hpos
  have hplace : g + (Nat.toDigits 10 s).length - ds.length - z = g := by
    rw [hall, List.length_append, List.length_replicate]
    omega
  rw [hsig]
  rw [hs, ← hplace] at hnear
  exact readNumber_placePoint hlt (mantissa_pos ho) hds hne hlead
    (Nat.pos_of_mul_pos_right (hs ▸ hpos)) hrest hnear.shift negative

/-- A safe integer is read back from its digits. -/
theorem readNumber_intChars {a : Int} {rest : List Char} (ha : a.natAbs ≤ 9007199254740991) (hrest : Stops rest) :
    readNumber (intChars a ++ rest) = some (ofInt a, rest) := by
  have htext : intChars a ++ rest = signChars (a < 0) ++ (Nat.toDigits 10 a.natAbs ++ (fractionChars [] ++ rest)) := by
    by_cases hneg : a < 0 <;> simp [intChars, signChars, fractionChars, hneg]
  have hlead : (Nat.toDigits 10 a.natAbs).head? ≠ some '0' ∨ (Nat.toDigits 10 a.natAbs).length = 1 := by
    rcases Nat.eq_zero_or_pos a.natAbs with hzero | hpos
    · exact .inr (by rw [hzero]; rfl)
    · exact .inl (head?_toDigits_ne_zero hpos)
  rw [htext, readNumber_of_parts (areDigits_toDigits _) Nat.toDigits_ne_nil hlead (by simp [AreDigits])
    (fun c hc => ⟨(hrest c hc).1, (hrest c hc).2.1⟩) (spanExponent_of_stops hrest), List.append_nil,
    List.length_nil]
  rcases Nat.eq_zero_or_pos a.natAbs with hzero | hpos
  · rw [Int.natAbs_eq_zero.1 hzero]
    rfl
  · have hvalue : (if decide (a < 0) = true then -(a.natAbs : Int) else a.natAbs) = a := by
      split
      · next hneg =>
        have := of_decide_eq_true hneg
        omega
      · next hneg =>
        have := not_lt.1 (fun h => hneg (decide_eq_true h))
        omega
    rw [show (0 : Int) - (0 : Nat) = 0 from rfl, ofDecimal_toDigits (by omega) hpos, hvalue]

/-- **Every finite number is read back from its text**, up to the sign of a zero. -/
theorem readNumber_chars {x : Number} {rest : List Char} (hx : x.isFinite = true) (hzero : x ≠ negativeZero)
    (hrest : Stops rest) : readNumber (x.chars ++ rest) = some (x, rest) := by
  cases x with
  | nan => cases hx
  | infinite b => cases hx
  | finite b o =>
    simp only [Number.chars]
    split
    · next a ha =>
      obtain ⟨hint, hsafe⟩ := Option.filter_eq_some_iff.1 ha
      have hsafe : -maxSafe ≤ a ∧ a ≤ maxSafe := of_decide_eq_true hsafe
      have habs : a.natAbs ≤ 9007199254740991 := by
        unfold maxSafe at hsafe
        omega
      rw [readNumber_intChars habs hrest,
        (eq_ofInt_of_toInt? (fits_of_natAbs_le (by omega)) hint).resolve_right fun h => hzero h.2]
    · next hnone =>
      have ho : 0 < o.val := by
        rcases Nat.eq_zero_or_pos o.val with hnull | hpos
        · have hsigned : finite b o = signedZero b := congrArg (finite b) (Fin.ext hnull)
          rw [hsigned] at hnone
          cases b <;> exact absurd hnone (by decide +kernel)
        · exact hpos
      have hread := readNumber_magnitudeChars ho o.isLt hrest b
      cases b <;> exact hread

end Json

end FailureWire
