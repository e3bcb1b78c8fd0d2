import FailureWire.Proofs.Number.Rounding

/-!
# Integers among the numbers

An integer with at most 53 significant binary digits is a number (`ofInt_of_fits`). The operations on such
numbers are the integer ones, rounded once (`mul_ofInt`, `add_ofInt`, `sub_ofInt`, `div_ofInt`).
-/

namespace FailureWire.Number

/-- An integer with at most 53 significant binary digits. -/
def Fits (a : Int) : Prop := ∃ m k, m ≤ 2 * fractions ∧ k ≤ 900 ∧ a.natAbs = m * 2 ^ k

theorem fits_of_natAbs_le {a : Int} (h : a.natAbs ≤ 9007199254740992) : Fits a :=
  ⟨a.natAbs, 0, h, Nat.zero_le _, (Nat.mul_one _).symm⟩

/-- A short mantissa is lengthened at the cost of the scale. -/
theorem exists_units_eq : ∀ {k m : Nat}, m ≤ 2 * fractions → k ≤ 2000 →
    ∃ o < magnitudes, units o = m * 2 ^ k
  | 0, m, hm, _ => ⟨m, by rw [fractions_eq] at hm; rw [magnitudes, fractions_eq]; omega,
      by simpa using units_eq (s := 0) hm (.inl rfl)⟩
  | k + 1, m, hm, hk => by
    rcases Nat.lt_or_ge m fractions with hlt | hge
    · obtain ⟨o, ho, hunits⟩ := exists_units_eq (k := k) (m := 2 * m) (by omega) (by omega)
      refine ⟨o, ho, ?_⟩
      rw [hunits, Nat.pow_succ]
      ring
    · refine ⟨(k + 1) * fractions + m, ?_, units_eq hm (.inr hge)⟩
      have := Nat.mul_le_mul_right fractions hk
      rw [fractions_eq] at *
      rw [magnitudes, fractions_eq]
      omega

variable {a c : Int} {b : Bool}

theorem Fits.exists_ordinal (h : Fits a) : ∃ o < magnitudes, magnitude o = |(a : Rat)| := by
  obtain ⟨m, k, hm, hk, ha⟩ := h
  obtain ⟨o, ho, hunits⟩ := exists_units_eq (k := k + 1074) hm (by omega)
  refine ⟨o, ho, ?_⟩
  have hp : (perOne : Rat) ≠ 0 := Nat.cast_ne_zero.2 perOne_pos.ne'
  rw [magnitude_eq, hunits, Nat.pow_add, ← perOne_eq, ← Nat.mul_assoc, ← ha, Nat.cast_mul,
    mul_div_cancel_right₀ _ hp, Nat.cast_natAbs, Int.cast_abs]

/-- Rounding an integer gives its number, whatever sign a zero is to have. -/
theorem round_intCast (h : a = 0 → b = false) : round (a : Rat) b = ofInt a := by
  by_cases ha : a = 0
  · rw [h ha]
    rfl
  · have hne : (a : Rat) ≠ 0 := Int.cast_ne_zero.2 ha
    rw [ofInt, round_of_ne_zero hne, round_of_ne_zero hne]

theorem ofInt_of_fits (h : Fits a) :
    ∃ o, ofInt a = .finite (a < 0) o ∧ (finite (a < 0) o).value = a := by
  obtain ⟨o, ho, hmag⟩ := h.exists_ordinal
  by_cases ha : a = 0
  · subst ha
    refine ⟨⟨0, by decide⟩, rfl, ?_⟩
    rw [Int.cast_zero, ← abs_eq_zero, abs_value, magnitude_zero]
  · have hne : (a : Rat) ≠ 0 := Int.cast_ne_zero.2 ha
    refine ⟨⟨o, ho⟩, ?_, ?_⟩
    · rw [ofInt, round_of_magnitude ho hne hmag.symm]
      simp only [Int.cast_lt_zero]
    · by_cases hneg : a < 0
      · have := abs_of_neg (Int.cast_lt_zero.2 hneg : (a : Rat) < 0)
        simp [value, hneg, hmag, this]
      · have := abs_of_nonneg (Int.cast_nonneg (not_lt.1 hneg) : (0 : Rat) ≤ a)
        simp [value, hneg, hmag, this]

theorem isFinite_ofInt (h : Fits a) : (ofInt a).isFinite = true := by
  obtain ⟨o, ho, -⟩ := ofInt_of_fits h
  rw [ho]
  rfl

theorem ofInt_ne_negativeZero (h : Fits a) : ofInt a ≠ negativeZero := by
  obtain ⟨o, ho, hvalue⟩ := ofInt_of_fits h
  intro hzero
  rw [ho] at hzero
  obtain ⟨hnegative, rfl⟩ := Number.finite.inj hzero
  have hneg : a < 0 := of_decide_eq_true hnegative
  have habs : (|(a : Rat)|) = 0 := by rw [← hvalue, abs_value, magnitude_zero]
  exact hneg.ne (Int.cast_eq_zero.1 (abs_eq_zero.1 habs))

/-! ### Operations -/

theorem mul_ofInt (ha : Fits a) (hc : Fits c) (hpos : 0 < c) : ofInt a * ofInt c = ofInt (a * c) := by
  obtain ⟨o, ho, hvo⟩ := ofInt_of_fits ha
  obtain ⟨p, hp, hvp⟩ := ofInt_of_fits hc
  rw [ho, hp]
  show round ((finite (a < 0) o).value * (finite (c < 0) p).value) _ = _
  rw [hvo, hvp, ← Int.cast_mul, round_intCast fun hzero => ?_]
  rcases Int.mul_eq_zero.1 hzero with rfl | rfl
  · simp [not_lt.2 hpos.le]
  · omega

theorem add_ofInt (ha : Fits a) (hc : Fits c) : ofInt a + ofInt c = ofInt (a + c) := by
  obtain ⟨o, ho, hvo⟩ := ofInt_of_fits ha
  obtain ⟨p, hp, hvp⟩ := ofInt_of_fits hc
  rw [ho, hp]
  show round ((finite (a < 0) o).value + (finite (c < 0) p).value) _ = _
  rw [hvo, hvp, ← Int.cast_add, round_intCast fun hzero => ?_]
  simp only [Bool.and_eq_false_iff, decide_eq_false_iff_not]
  omega

theorem negativeZero_add_ofInt (ha : Fits a) : negativeZero + ofInt a = ofInt a := by
  obtain ⟨o, ho, hvo⟩ := ofInt_of_fits ha
  have hzero : negativeZero.value = 0 := by decide +kernel
  rw [ho]
  show round (negativeZero.value + (finite (a < 0) o).value) _ = _
  rw [hzero, hvo, zero_add, round_intCast fun hzero => ?_, ho]
  simp [hzero]

/-- Nor does it behind one. -/
theorem ofInt_add_negativeZero (ha : Fits a) : ofInt a + negativeZero = ofInt a := by
  obtain ⟨o, ho, hvo⟩ := ofInt_of_fits ha
  have hzero : negativeZero.value = 0 := by decide +kernel
  rw [ho]
  show round ((finite (a < 0) o).value + negativeZero.value) _ = _
  rw [hzero, hvo, add_zero, round_intCast fun hzero => ?_, ho]
  simp [hzero]

theorem sub_ofInt (ha : Fits a) (hc : Fits c) : ofInt a - ofInt c = ofInt (a - c) := by
  obtain ⟨o, ho, hvo⟩ := ofInt_of_fits ha
  obtain ⟨p, hp, hvp⟩ := ofInt_of_fits hc
  have hneg : (finite (!decide (c < 0)) p).value = -c := by
    rw [← hvp]
    cases decide (c < 0) <;> simp [value]
  rw [ho, hp]
  show round ((finite (a < 0) o).value + (finite (!decide (c < 0)) p).value) _ = _
  rw [hvo, hneg, ← sub_eq_add_neg, ← Int.cast_sub, round_intCast fun hzero => ?_]
  simp only [Bool.and_eq_false_iff, Bool.not_eq_false', decide_eq_true_eq, decide_eq_false_iff_not]
  omega

theorem div_ofInt (ha : Fits a) (hc : Fits c) (hpos : 0 < c) :
    ofInt a / ofInt c = round (a / c) false := by
  obtain ⟨o, ho, hvo⟩ := ofInt_of_fits ha
  obtain ⟨p, hp, hvp⟩ := ofInt_of_fits hc
  have hcne : (c : Rat) ≠ 0 := Int.cast_ne_zero.2 hpos.ne'
  rw [ho, hp]
  show (if (finite (c < 0) p).isZero = true then _ else
    round ((finite (a < 0) o).value / (finite (c < 0) p).value) _) = _
  rw [isZero_of_value_ne_zero (hvp ▸ hcne), hvo, hvp]
  by_cases hzero : a = 0
  · subst hzero
    simp [not_lt.2 hpos.le]
  · have hne : (a / c : Rat) ≠ 0 := div_ne_zero (Int.cast_ne_zero.2 hzero) hcne
    simp only [Bool.false_eq_true, if_false, round_of_ne_zero hne]

/-- A division that leaves nothing is the integer one. -/
theorem div_ofInt_of_dvd (ha : Fits (a * c)) (hc : Fits c) (hpos : 0 < c) :
    ofInt (a * c) / ofInt c = ofInt a := by
  rw [div_ofInt ha hc hpos, Int.cast_mul, mul_div_cancel_right₀ _ (Int.cast_ne_zero.2 hpos.ne')]
  exact round_intCast fun _ => rfl

theorem roundHalfUp_ofInt (ha : Fits a) : (ofInt a).roundHalfUp = ofInt a := by
  obtain ⟨o, ho, hvo⟩ := ofInt_of_fits ha
  have hfloor : ((a : Rat) + 1 / 2).floor = a := by
    show ⌊(a : Rat) + 1 / 2⌋ = a
    rw [Int.floor_eq_iff]
    constructor <;> linarith
  rw [ho]
  show round ((finite (a < 0) o).value + 1 / 2).floor (a < 0) = _
  rw [hvo, hfloor, round_intCast fun hzero => ?_, ho]
  simp [hzero]

theorem floor_ofInt (ha : Fits a) : (ofInt a).floor = ofInt a := by
  obtain ⟨o, ho, hvo⟩ := ofInt_of_fits ha
  rw [ho]
  show round (finite (a < 0) o).value.floor (a < 0) = _
  rw [hvo, Rat.floor_intCast, round_intCast fun hzero => ?_, ho]
  simp [hzero]

/-- A quotient of integers that are not too large is rounded to less than a divisor's part beside it. -/
theorem round_div_near (hne : a ≠ 0) (ha : a.natAbs ≤ 2 ^ 52) (hpos : 0 < c) (hc : c ≤ 2 ^ 52) :
    ∃ o, round (a / c) b = .finite (a < 0) o ∧ |(finite (a < 0) o).value * c - a| < 1 := by
  have hcpos : (0 : Rat) < c := Int.cast_pos.2 hpos
  have habs : |(a : Rat)| ≤ 2 ^ 52 := by
    rw [← Int.cast_abs, ← Nat.cast_natAbs]
    exact_mod_cast ha
  have hquot : |(a / c : Rat)| * c = |(a : Rat)| := by
    rw [abs_div, abs_of_pos hcpos, div_mul_cancel₀ _ hcpos.ne']
  have hone : (1 : Rat) ≤ c := by exact_mod_cast hpos
  have hle : |(a / c : Rat)| ≤ 2 ^ 900 := by
    calc |(a / c : Rat)| ≤ |(a / c : Rat)| * c := le_mul_of_one_le_right (abs_nonneg _) hone
      _ = |(a : Rat)| := hquot
      _ ≤ 2 ^ 52 := habs
      _ ≤ 2 ^ 900 := pow_le_pow_right₀ one_le_two (by omega)
  have hsign : (a / c : Rat) < 0 ↔ a < 0 := by
    rw [div_lt_iff₀ hcpos, zero_mul, Int.cast_lt_zero]
  obtain ⟨o, ho, hnear⟩ := round_near (b := b) (div_ne_zero (Int.cast_ne_zero.2 hne) hcpos.ne') hle
  simp only [hsign] at ho hnear
  refine ⟨o, ho, ?_⟩
  have hunit : 1 / (2 * (perOne : Rat)) * c < 1 / 2 := by
    have hlt : (c : Rat) < perOne := by
      have : (2 ^ 52 : Nat) < perOne := by
        rw [perOne_eq]
        exact Nat.pow_lt_pow_right (by omega) (by omega)
      have : c < (perOne : Int) := by omega
      exact_mod_cast this
    have hp : (0 : Rat) < perOne := hcpos.trans hlt
    rw [one_div_mul_eq_div, div_lt_div_iff₀ (mul_pos two_pos hp) two_pos]
    linarith
  have hfrac : |(a / c : Rat)| / 2 ^ 53 * c ≤ 1 / 2 := by
    rw [div_mul_eq_mul_div, hquot, div_le_div_iff₀ (by positivity) two_pos]
    linarith
  calc |(finite (a < 0) o).value * c - a|
      = |(finite (a < 0) o).value - a / c| * c := by
        rw [← abs_of_pos hcpos, ← abs_mul, abs_of_pos hcpos, sub_mul, div_mul_cancel₀ _ hcpos.ne']
    _ ≤ (|(a / c : Rat)| / 2 ^ 53 + 1 / (2 * perOne)) * c :=
        mul_le_mul_of_nonneg_right hnear hcpos.le
    _ < 1 := by
        rw [add_mul]
        linarith

/-- The largest integer not above a rounded quotient is the one not above the quotient: rounding does not
reach the next integer. -/
theorem floor_round_div (ha : a.natAbs ≤ 2 ^ 52) (hpos : 0 < c) (hc : c ≤ 2 ^ 52) :
    (round (a / c) false).floor = ofInt (a / c) := by
  have hdiv := Int.mul_ediv_add_emod a c
  have hmod := Int.emod_nonneg a hpos.ne'
  have hlt := Int.emod_lt_of_pos a hpos
  by_cases hwhole : a % c = 0
  · -- without a remainder the quotient is an integer
    have hfits : Fits (a / c) := fits_of_natAbs_le <| by
      have := Int.natAbs_ediv_le_natAbs a c
      omega
    have hcast : (a / c : Rat) = ((a / c : Int) : Rat) := by
      rw [Int.cast_div (Int.dvd_of_emod_eq_zero hwhole) (Int.cast_ne_zero.2 hpos.ne')]
    rw [hcast, round_intCast fun _ => rfl, floor_ofInt hfits]
  · have hne : a ≠ 0 := fun hzero => hwhole (by rw [hzero, Int.zero_emod])
    obtain ⟨o, ho, hnear⟩ := round_div_near (b := false) hne ha hpos hc
    have hfloor : (finite (a < 0) o).value.floor = a / c := by
      show ⌊(finite (a < 0) o).value⌋ = a / c
      have hcpos : (0 : Rat) < c := Int.cast_pos.2 hpos
      have hlow : ((a / c : Int) : Rat) * c + 1 ≤ a := by
        have : a / c * c + 1 ≤ a := by
          rw [Int.mul_comm]
          omega
        exact_mod_cast this
      have hhigh : (a : Rat) + 1 ≤ (((a / c : Int) : Rat) + 1) * c := by
        have : a + 1 ≤ (a / c + 1) * c := by
          rw [Int.add_mul, Int.mul_comm]
          omega
        exact_mod_cast this
      obtain ⟨hbelow, habove⟩ := abs_lt.1 hnear
      rw [Int.floor_eq_iff]
      constructor
      · refine le_of_mul_le_mul_right ?_ hcpos
        linarith
      · refine lt_of_mul_lt_mul_right ?_ hcpos.le
        linarith
    rw [ho]
    show round (finite (a < 0) o).value.floor (a < 0) = _
    rw [hfloor, round_intCast fun hzero => ?_]
    rw [hzero] at hdiv
    simp
    omega

theorem toInt?_ofInt (ha : Fits a) : (ofInt a).toInt? = some a := by
  obtain ⟨o, ho, hvo⟩ := ofInt_of_fits ha
  simp only [ho, toInt?, hvo, Rat.den_intCast, Rat.num_intCast, ↓reduceIte]

theorem value_of_toInt? {x : Number} (h : x.toInt? = some a) : x.isFinite = true ∧ x.value = a := by
  cases x with
  | nan => simp [toInt?] at h
  | infinite b => simp [toInt?] at h
  | finite b o =>
    refine ⟨rfl, ?_⟩
    simp only [toInt?] at h
    split at h
    · next hden => rw [← Option.some.inj h, Rat.coe_int_num_of_den_eq_one hden]
    · exact absurd h (by simp)

/-- The number of an integer is the only one that has it as its value, up to the sign of zero. -/
theorem eq_ofInt_of_toInt? {x : Number} (ha : Fits a) (h : x.toInt? = some a) :
    x = ofInt a ∨ (a = 0 ∧ x = negativeZero) := by
  obtain ⟨hfinite, hvalue⟩ := value_of_toInt? h
  cases x with
  | nan => simp [isFinite] at hfinite
  | infinite b => simp [isFinite] at hfinite
  | finite b o =>
    by_cases hzero : a = 0
    · have hmag : magnitude o = magnitude 0 := by
        rw [magnitude_zero, ← abs_value b, hvalue, hzero, Int.cast_zero, abs_zero]
      have hord : o = ⟨0, by decide⟩ := Fin.ext (magnitude_injective hmag)
      subst hord hzero
      cases b
      · exact .inl rfl
      · exact .inr ⟨rfl, rfl⟩
    · obtain ⟨p, hp, hvp⟩ := ofInt_of_fits ha
      refine .inl ?_
      rw [hp]
      exact eq_of_value_eq (hvalue.trans hvp.symm) (hvp ▸ Int.cast_ne_zero.2 hzero)

theorem less_of_toInt? {x y : Number} (hx : x.toInt? = some a) (hy : y.toInt? = some c) :
    x.less y = decide (a < c) := by
  obtain ⟨hxfinite, hxvalue⟩ := value_of_toInt? hx
  obtain ⟨hyfinite, hyvalue⟩ := value_of_toInt? hy
  cases x <;> cases y <;> simp_all [isFinite, less]

theorem sameValue_self {x : Number} (h : x.isNaN = false) : x.sameValue x = true := by
  cases x <;> simp [sameValue, isNaN] at h ⊢

/-- Numbers that are the same integer are equal, whatever the signs of their zeros. -/
theorem sameValue_of_toInt? {x y : Number} (ha : Fits a) (hx : x.toInt? = some a)
    (hy : y.toInt? = some a) : x.sameValue y = true := by
  rcases eq_ofInt_of_toInt? ha hx with rfl | ⟨rfl, rfl⟩ <;>
    rcases eq_ofInt_of_toInt? ha hy with rfl | ⟨hzero, rfl⟩
  · obtain ⟨o, ho, -⟩ := ofInt_of_fits ha
    rw [ho]
    exact sameValue_self rfl
  · subst hzero
    decide +kernel
  · decide +kernel
  · decide +kernel

end FailureWire.Number
