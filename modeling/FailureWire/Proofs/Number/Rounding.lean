import FailureWire.Number.Basic
import Mathlib.Algebra.Order.Field.Basic
import Mathlib.Algebra.Order.Ring.Abs
import Mathlib.Algebra.Order.Ring.Rat
import Mathlib.Data.Rat.Floor
import Mathlib.Tactic.FieldSimp
import Mathlib.Tactic.Linarith
import Mathlib.Tactic.NormNum
import Mathlib.Tactic.Positivity
import Mathlib.Tactic.Ring

/-!
# Rounding

The magnitude at an ordinal is a whole number of units of `2 ^ (-1074)` (`units`), and the ordinals count
those numbers in increasing order. An ordinal is `s * fractions + q` for a scale `s` and a number `q` of
units of that scale, and rounding a quotient finds the two (`ordinalOfRatio_eq`): `q` is within half a unit
of the quotient.

From this come the two facts that arithmetic needs: what a number has as its value is rounded to that
number again (`round_of_magnitude`), and any other rational is missed by a fraction of itself
(`round_near`).
-/

namespace FailureWire.Number

/-! ### Units -/

/-- How often the smallest positive magnitude goes into one. -/
def perOne : Nat := Nat.pow 2 1074

/-- The magnitude at an ordinal, in multiples of the smallest positive one. -/
def units (o : Nat) : Nat := mantissa o * 2 ^ scale o

theorem perOne_eq : perOne = 2 ^ 1074 := by rw [perOne, Nat.pow_eq]

theorem perOne_pos : 0 < perOne := by
  rw [perOne_eq]
  exact Nat.pow_pos Nat.two_pos

theorem magnitude_eq (o : Nat) : magnitude o = (units o : Rat) / perOne := Rat.mkRat_eq_div _ _

theorem fractions_eq : fractions = 4503599627370496 := rfl

theorem fractions_pos : 0 < fractions := by decide

theorem mantissa_lt (o : Nat) : mantissa o < 2 * fractions := by
  have hm := Nat.mod_lt o fractions_pos
  unfold mantissa
  split <;> omega

/-- Beyond the first scale a mantissa is never short. -/
theorem le_mantissa (o : Nat) : scale o = 0 ∨ fractions ≤ mantissa o := by
  unfold mantissa scale
  by_cases ho : o < fractions
  · rw [Nat.div_eq_of_lt ho]
    exact .inl rfl
  · rw [if_neg ho]
    exact .inr (Nat.le_add_right ..)

theorem ordinal_eq (o : Nat) : o = scale o * fractions + mantissa o := by
  have hdiv := Nat.div_add_mod o fractions
  unfold mantissa scale
  by_cases ho : o < fractions
  · rw [Nat.div_eq_of_lt ho, if_pos ho]
    simp
  · have hpos : 1 ≤ o / fractions := Nat.div_pos (by omega) fractions_pos
    obtain ⟨k, hk⟩ := Nat.exists_eq_add_of_le hpos
    rw [hk, Nat.mul_add, Nat.mul_one] at hdiv
    rw [if_neg ho, hk, Nat.add_sub_cancel_left, Nat.mul_comm]
    omega

/-- A scale and a number of its units, also when the last one makes the number one of the next scale. -/
theorem units_eq {s q : Nat} (hq : q ≤ 2 * fractions) (hs : s = 0 ∨ fractions ≤ q) :
    units (s * fractions + q) = q * 2 ^ s := by
  have hpos := fractions_pos
  rcases Nat.lt_or_ge q fractions with hlt | hge
  · obtain rfl : s = 0 := by omega
    simp [units, mantissa, scale, hlt, Nat.div_eq_of_lt hlt]
  · obtain ⟨r, rfl⟩ := Nat.exists_eq_add_of_le hge
    have hsum : s * fractions + (fractions + r) = r + (s + 1) * fractions := by
      rw [Nat.succ_mul]
      omega
    have hbig : ¬ r + (s + 1) * fractions < fractions := by
      rw [Nat.succ_mul]
      omega
    rw [hsum, units, mantissa, scale, if_neg hbig, Nat.add_mul_div_right _ _ hpos,
      Nat.add_mul_mod_self_right]
    rcases Nat.lt_or_ge r fractions with hr | hr
    · simp [Nat.div_eq_of_lt hr, Nat.mod_eq_of_lt hr]
    · obtain rfl : r = fractions := by omega
      rw [Nat.mod_self, Nat.div_self hpos, show 1 + (s + 1) - 1 = s + 1 by omega, Nat.pow_succ]
      ring

theorem units_strictMono : StrictMono units := by
  refine strictMono_nat_of_lt_succ fun o => ?_
  have hm := mantissa_lt o
  have hs := le_mantissa o
  have hnext : units (o + 1) = (mantissa o + 1) * 2 ^ scale o := by
    conv_lhs => rw [ordinal_eq o, Nat.add_assoc]
    exact units_eq (by omega) (by omega)
  rw [hnext, units]
  exact Nat.mul_lt_mul_of_pos_right (Nat.lt_succ_self _) (Nat.two_pow_pos _)

theorem magnitude_injective {o p : Nat} (h : magnitude o = magnitude p) : o = p := by
  have hpos : (perOne : Rat) ≠ 0 := Nat.cast_ne_zero.2 perOne_pos.ne'
  rw [magnitude_eq, magnitude_eq, div_left_inj' hpos, Nat.cast_inj] at h
  exact units_strictMono.injective h

theorem magnitude_zero : magnitude 0 = 0 := by
  have hunits : units 0 = 0 := rfl
  rw [magnitude_eq, hunits, Nat.cast_zero, zero_div]

/-! ### Rounding to an ordinal -/

variable {n d : Nat}

/-- The position of the leading binary digit of a quotient, counted from the `k`-th one after the
point. -/
theorem log2_bounds (hn : 0 < n) (hd : 0 < d) (k : Nat) :
    n * 2 ^ k < d * 2 ^ (n.log2 + k - d.log2 + 1) ∧
      (n.log2 + k - d.log2 ≤ 1 ∨ d * 2 ^ (n.log2 + k - d.log2 - 1) ≤ n * 2 ^ k) := by
  have hnlow : 2 ^ n.log2 ≤ n := Nat.log2_self_le hn.ne'
  have hnhigh : n < 2 ^ (n.log2 + 1) := Nat.lt_log2_self
  have hdlow : 2 ^ d.log2 ≤ d := Nat.log2_self_le hd.ne'
  have hdhigh : d < 2 ^ (d.log2 + 1) := Nat.lt_log2_self
  constructor
  · calc n * 2 ^ k < 2 ^ (n.log2 + 1) * 2 ^ k :=
          Nat.mul_lt_mul_of_pos_right hnhigh (Nat.two_pow_pos _)
      _ = 2 ^ (n.log2 + 1 + k) := (Nat.pow_add ..).symm
      _ ≤ 2 ^ (d.log2 + (n.log2 + k - d.log2 + 1)) :=
          Nat.pow_le_pow_right Nat.two_pos (by omega)
      _ = 2 ^ d.log2 * 2 ^ (n.log2 + k - d.log2 + 1) := Nat.pow_add ..
      _ ≤ d * 2 ^ (n.log2 + k - d.log2 + 1) := Nat.mul_le_mul_right _ hdlow
  · by_cases hlow : n.log2 + k - d.log2 ≤ 1
    · exact .inl hlow
    · refine .inr ?_
      calc d * 2 ^ (n.log2 + k - d.log2 - 1)
          ≤ 2 ^ (d.log2 + 1) * 2 ^ (n.log2 + k - d.log2 - 1) := Nat.mul_le_mul_right _ hdhigh.le
        _ = 2 ^ (d.log2 + 1 + (n.log2 + k - d.log2 - 1)) := (Nat.pow_add ..).symm
        _ ≤ 2 ^ (n.log2 + k) := Nat.pow_le_pow_right Nat.two_pos (by omega)
        _ = 2 ^ n.log2 * 2 ^ k := Nat.pow_add ..
        _ ≤ n * 2 ^ k := Nat.mul_le_mul_right _ hnlow

theorem two_pow_of_eq_succ {i j : Nat} (h : i = j + 1) : 2 ^ i = 2 * 2 ^ j := by
  rw [h, Nat.pow_succ']

/-- Powers on both sides cancel as far as they go. -/
theorem mul_pow_sub_le_iff (a b i j : Nat) :
    a * 2 ^ (i - j) ≤ b * 2 ^ (j - i) ↔ a * 2 ^ i ≤ b * 2 ^ j := by
  rcases Nat.le_total i j with h | h
  · obtain ⟨k, rfl⟩ := Nat.exists_eq_add_of_le h
    rw [Nat.sub_eq_zero_of_le h, Nat.add_sub_cancel_left, Nat.pow_zero, Nat.mul_one, Nat.pow_add,
      Nat.mul_left_comm, Nat.mul_comm a, Nat.mul_le_mul_left_iff (Nat.two_pow_pos i)]
  · obtain ⟨k, rfl⟩ := Nat.exists_eq_add_of_le h
    rw [Nat.sub_eq_zero_of_le h, Nat.add_sub_cancel_left, Nat.pow_zero, Nat.mul_one, Nat.pow_add,
      Nat.mul_left_comm, Nat.mul_comm b, Nat.mul_le_mul_left_iff (Nat.two_pow_pos j)]

/-- The scale of a quotient is the largest one at which its mantissa is not short. -/
theorem scaleOfRatio_bounds (hn : 0 < n) (hd : 0 < d) :
    n * perOne < d * 2 ^ (scaleOfRatio n d + 53) ∧
      (scaleOfRatio n d = 0 ∨ d * 2 ^ (scaleOfRatio n d + 52) ≤ n * perOne) := by
  -- the second guess at the leading digit is right
  obtain ⟨top, hscale, hhigh, hlow⟩ : ∃ top, scaleOfRatio n d = top - 53 ∧
      n * 2 ^ 1075 < d * 2 ^ (top + 1) ∧ (top = 0 ∨ d * 2 ^ top ≤ n * 2 ^ 1075) := by
    have htop := log2_bounds hn hd 1075
    refine ⟨_, rfl, ?_⟩
    simp only [Nat.pow_eq, mul_pow_sub_le_iff]
    split
    · next hle => exact ⟨htop.1, .inr hle⟩
    · next hlt =>
      rcases Nat.eq_zero_or_pos (n.log2 + 1075 - d.log2) with hzero | hpos
      · rw [hzero] at htop ⊢
        exact ⟨htop.1, .inl rfl⟩
      · rw [Nat.sub_add_cancel hpos]
        exact ⟨Nat.lt_of_not_le hlt, htop.2.imp (by omega) id⟩
  rw [two_pow_of_eq_succ (show 1075 = 1074 + 1 from rfl), ← perOne_eq, Nat.mul_left_comm] at hhigh hlow
  rw [hscale]
  constructor
  · have hle : d * 2 ^ (top + 1) ≤ d * 2 ^ (top - 53 + 53 + 1) :=
      Nat.mul_le_mul_left _ (Nat.pow_le_pow_right Nat.two_pos (by omega))
    rw [Nat.pow_succ 2 (top - 53 + 53), ← Nat.mul_assoc] at hle
    omega
  · rcases Nat.le_total top 53 with hsmall | hbig
    · exact .inl (Nat.sub_eq_zero_of_le hsmall)
    · have hle := hlow.resolve_left (by omega)
      rw [show top = top - 53 + 52 + 1 by omega, Nat.pow_succ, ← Nat.mul_assoc] at hle
      exact .inr (by omega)

/-- A quotient that is missed by half a unit is rounded to an even number. -/
theorem nearestEven_even (hd : 0 < d) (h : 2 * (nearestEven n d * d) = 2 * n + d ∨
    2 * n = 2 * (nearestEven n d * d) + d) : nearestEven n d % 2 = 0 := by
  refine nearestEven_tie ?_
  have hdiv := Nat.div_add_mod n d
  have hmod := Nat.mod_lt n hd
  have hcomm : d * (n / d) = n / d * d := Nat.mul_comm _ _
  have hnext : (n / d + 1) * d = n / d * d + d := by rw [Nat.add_mul, Nat.one_mul]
  simp only [nearestEven] at h
  split at h
  · omega
  · split at h
    · omega
    · omega

/-- Rounding a quotient finds its scale, and the nearest number of units of that scale, the even one in a
tie. -/
theorem ordinalOfRatio_eq (hn : 0 < n) (hd : 0 < d) :
    ∃ q, ordinalOfRatio n d = scaleOfRatio n d * fractions + q ∧
      q ≤ 2 * fractions ∧ (scaleOfRatio n d = 0 ∨ fractions ≤ q) ∧
      2 * (q * (d * 2 ^ scaleOfRatio n d)) ≤ 2 * (n * perOne) + d * 2 ^ scaleOfRatio n d ∧
      2 * (n * perOne) ≤ 2 * (q * (d * 2 ^ scaleOfRatio n d)) + d * 2 ^ scaleOfRatio n d ∧
      (2 * (q * (d * 2 ^ scaleOfRatio n d)) = 2 * (n * perOne) + d * 2 ^ scaleOfRatio n d ∨
        2 * (n * perOne) = 2 * (q * (d * 2 ^ scaleOfRatio n d)) + d * 2 ^ scaleOfRatio n d → q % 2 = 0) := by
  obtain ⟨hhigh, hlow⟩ := scaleOfRatio_bounds hn hd
  refine ⟨_, rfl, ?_⟩
  simp only [Nat.pow_eq]
  generalize hs : scaleOfRatio n d = s at hhigh hlow ⊢
  generalize hq : nearestEven (n * 2 ^ (1074 - s)) (d * 2 ^ (s - 1074)) = q
  -- both sides of the division have been divided by the same power
  have hnum : n * 2 ^ (1074 - s) * 2 ^ min s 1074 = n * perOne := by
    rw [Nat.mul_assoc, ← Nat.pow_add, show 1074 - s + min s 1074 = 1074 by omega, perOne_eq]
  have hden : d * 2 ^ (s - 1074) * 2 ^ min s 1074 = d * 2 ^ s := by
    rw [Nat.mul_assoc, ← Nat.pow_add, show s - 1074 + min s 1074 = s by omega]
  have hunit : 0 < d * 2 ^ s := Nat.mul_pos hd (Nat.two_pow_pos _)
  have hstep : 0 < d * 2 ^ (s - 1074) := Nat.mul_pos hd (Nat.two_pow_pos _)
  have hnear := nearestEven_near (n := n * 2 ^ (1074 - s)) hstep
  have heven := nearestEven_even (n := n * 2 ^ (1074 - s)) hstep
  rw [hq] at hnear heven
  have hbelow := Nat.mul_le_mul_right (2 ^ min s 1074) hnear.1
  have habove := Nat.mul_le_mul_right (2 ^ min s 1074) hnear.2
  have htie : (2 * (q * (d * 2 ^ s)) = 2 * (n * perOne) + d * 2 ^ s ∨
      2 * (n * perOne) = 2 * (q * (d * 2 ^ s)) + d * 2 ^ s) → q % 2 = 0 := by
    intro htie
    refine heven (htie.imp (fun h => ?_) fun h => ?_)
    all_goals
      apply Nat.eq_of_mul_eq_mul_right (Nat.two_pow_pos (min s 1074))
      simp only [Nat.add_mul, Nat.mul_assoc 2, hnum, Nat.mul_assoc q, hden, h]
  simp only [Nat.add_mul, Nat.mul_assoc 2, hnum, Nat.mul_assoc q, hden] at hbelow habove
  rw [Nat.pow_add, ← Nat.mul_assoc] at hhigh hlow
  generalize d * 2 ^ s = unit at *
  refine ⟨?_, hlow.imp id fun hle => ?_, hbelow, habove, htie⟩
  · by_contra hbig
    have := Nat.mul_le_mul_right unit (show 9007199254740993 ≤ q by omega)
    omega
  · by_contra hsmall
    have := Nat.mul_le_mul_right unit (show q + 1 ≤ 4503599627370496 by omega)
    rw [Nat.add_mul, Nat.one_mul] at this
    omega

/-- A quotient that is a whole number of units, as many as an ordinal has, goes to that ordinal. -/
theorem ordinalOfRatio_of_units {o : Nat} (hn : 0 < n) (hd : 0 < d)
    (h : n * perOne = d * units o) : ordinalOfRatio n d = o := by
  obtain ⟨q, hord, hq, hs, hbelow, habove, -⟩ := ordinalOfRatio_eq hn hd
  have hlow := (scaleOfRatio_bounds hn hd).2
  generalize scaleOfRatio n d = s at *
  have hm := mantissa_lt o
  have hle : s ≤ scale o := by
    by_contra hlt
    have hpow : 2 ^ (s + 52) ≤ units o := by
      have := hlow.resolve_left (by omega)
      rw [h] at this
      exact Nat.le_of_mul_le_mul_left this hd
    have hsmall : units o < 2 ^ (s + 52) := by
      calc units o < 2 * fractions * 2 ^ scale o :=
            Nat.mul_lt_mul_of_pos_right hm (Nat.two_pow_pos _)
        _ = 2 ^ (53 + scale o) := (Nat.pow_add 2 53 _).symm
        _ ≤ 2 ^ (s + 52) := Nat.pow_le_pow_right Nat.two_pos (by omega)
    omega
  obtain ⟨k, hk⟩ := Nat.exists_eq_add_of_le hle
  have hunits : units o = mantissa o * 2 ^ k * 2 ^ s := by
    rw [units, hk, Nat.pow_add]
    ring
  have hwhole : q = mantissa o * 2 ^ k := by
    have hpos : 0 < d * 2 ^ s := Nat.mul_pos hd (Nat.two_pow_pos _)
    rw [h, hunits, Nat.mul_left_comm d] at hbelow habove
    generalize mantissa o * 2 ^ k = x at *
    generalize d * 2 ^ s = unit at *
    rcases Nat.lt_trichotomy q x with hlt | heq | hgt
    · have := Nat.mul_le_mul_right unit hlt
      rw [Nat.succ_mul] at this
      omega
    · exact heq
    · have := Nat.mul_le_mul_right unit hgt
      rw [Nat.succ_mul] at this
      omega
  apply units_strictMono.injective
  rw [hord, units_eq hq hs, hunits, hwhole]

/-- Half a unit on either side, as a distance of quotients. -/
theorem abs_sub_le_half {q n d p u : Rat} (hd : 0 < d) (hp : 0 < p)
    (hbelow : 2 * (q * (d * u)) ≤ 2 * (n * p) + d * u)
    (habove : 2 * (n * p) ≤ 2 * (q * (d * u)) + d * u) :
    |q * u / p - n / d| ≤ u / (2 * p) := by
  have hq : q * u / p = q * (d * u) / (p * d) := by field_simp
  have hn : n / d = n * p / (p * d) := by field_simp
  have hu : u / (2 * p) = d * u / 2 / (p * d) := by field_simp
  rw [hq, hn, hu, ← sub_div, abs_div, abs_of_pos (mul_pos hp hd),
    div_le_div_iff_of_pos_right (mul_pos hp hd), abs_le]
  constructor <;> linarith

/-- Half a unit of a scale is small beside a quotient of that scale. -/
theorem half_le {n d p u : Rat} (hd : 0 < d) (hp : 0 < p) (hlow : d * (u * 2 ^ 52) ≤ n * p) :
    u / (2 * p) ≤ n / d / 2 ^ 53 := by
  rw [div_div, div_le_div_iff₀ (by positivity) (by positivity)]
  linarith

/-- Rounding a quotient that is not too large misses it by a fraction of itself, or of a unit. -/
theorem ordinalOfRatio_near (hn : 0 < n) (hd : 0 < d) (hle : n ≤ d * 2 ^ 900) :
    ordinalOfRatio n d < magnitudes ∧
      |magnitude (ordinalOfRatio n d) - n / d| ≤ n / d / 2 ^ 53 + 1 / (2 * perOne) := by
  obtain ⟨q, hord, hq, hs, hbelow, habove, -⟩ := ordinalOfRatio_eq hn hd
  have hlow := (scaleOfRatio_bounds hn hd).2
  have hscale : scaleOfRatio n d ≤ 1922 := by
    by_contra hbig
    have hsmall := calc
      d * 2 ^ (scaleOfRatio n d + 52) ≤ n * perOne := hlow.resolve_left (by omega)
      _ ≤ d * 2 ^ 900 * perOne := Nat.mul_le_mul_right _ hle
      _ = d * 2 ^ (900 + 1074) := by rw [perOne_eq, Nat.pow_add, Nat.mul_assoc]
    have := (Nat.pow_le_pow_iff_right (show 1 < 2 by omega)).1 (Nat.le_of_mul_le_mul_left hsmall hd)
    omega
  constructor
  · rw [hord, magnitudes]
    have := Nat.mul_le_mul_right fractions hscale
    have := fractions_pos
    omega
  · rw [magnitude_eq, hord, units_eq hq hs]
    generalize scaleOfRatio n d = s at *
    have hd' : (0 : Rat) < d := Nat.cast_pos.2 hd
    have hp' : (0 : Rat) < perOne := Nat.cast_pos.2 perOne_pos
    have hbelow' : 2 * (q * (d * 2 ^ s)) ≤ 2 * (n * perOne) + (d * 2 ^ s : Rat) := by
      exact_mod_cast hbelow
    have habove' : 2 * (n * perOne) ≤ 2 * (q * (d * 2 ^ s)) + (d * 2 ^ s : Rat) := by
      exact_mod_cast habove
    have hmiss := abs_sub_le_half hd' hp' hbelow' habove'
    rw [Nat.cast_mul, Nat.cast_pow, Nat.cast_two]
    refine hmiss.trans ?_
    rcases hlow with rfl | hlow
    · rw [pow_zero]
      have hquot : (0 : Rat) ≤ n / d / 2 ^ 53 :=
        div_nonneg (div_nonneg (Nat.cast_nonneg n) hd'.le) (by positivity)
      linarith
    · have hlow' : (d * (2 ^ s * 2 ^ 52) : Rat) ≤ n * perOne := by
        rw [← pow_add]
        exact_mod_cast hlow
      have hunit : 0 ≤ 1 / (2 * (perOne : Rat)) := div_nonneg zero_le_one (mul_pos two_pos hp').le
      exact (half_le hd' hp' hlow').trans (le_add_of_nonneg_right hunit)

/-! ### Rounding to a number -/

variable {r : Rat} {b : Bool}

theorem abs_eq_natAbs_div (r : Rat) : |r| = (r.num.natAbs : Rat) / r.den := by
  rw [Rat.abs_def, Rat.divInt_eq_div, Int.cast_natCast, Int.cast_natCast]

theorem round_of_ne_zero (hr : r ≠ 0) (b : Bool) :
    round r b = ofOrdinal (r < 0) (ordinalOfRatio r.num.natAbs r.den) := by
  rw [round, if_neg (Rat.num_ne_zero.2 hr)]
  simp only [Rat.num_neg]

theorem abs_value (b : Bool) (o : Fin magnitudes) : |(finite b o).value| = magnitude o := by
  have hpos : 0 ≤ magnitude o := by
    rw [magnitude_eq]
    exact div_nonneg (Nat.cast_nonneg _) (Nat.cast_nonneg _)
  cases b
  · exact abs_of_nonneg hpos
  · exact (abs_neg _).trans (abs_of_nonneg hpos)

/-- What is a magnitude, up to its sign, is rounded to a number that has it as its value. -/
theorem round_of_magnitude {o : Nat} (ho : o < magnitudes) (hr : r ≠ 0) (h : |r| = magnitude o) :
    round r b = .finite (r < 0) ⟨o, ho⟩ := by
  have hn : 0 < r.num.natAbs := Int.natAbs_pos.2 (Rat.num_ne_zero.2 hr)
  have hunits : r.num.natAbs * perOne = r.den * units o := by
    rw [abs_eq_natAbs_div, magnitude_eq, div_eq_div_iff (Nat.cast_ne_zero.2 r.den_ne_zero)
      (Nat.cast_ne_zero.2 perOne_pos.ne'), mul_comm (units o : Rat)] at h
    exact_mod_cast h
  rw [round_of_ne_zero hr, ordinalOfRatio_of_units hn r.den_pos hunits, ofOrdinal_of_lt ho]

/-- A rational that is not too large is rounded to a number of its sign that misses it by a fraction of
it. -/
theorem round_near (hr : r ≠ 0) (hle : |r| ≤ 2 ^ 900) :
    ∃ o, round r b = .finite (r < 0) o ∧
      |(finite (r < 0) o).value - r| ≤ |r| / 2 ^ 53 + 1 / (2 * perOne) := by
  have hn : 0 < r.num.natAbs := Int.natAbs_pos.2 (Rat.num_ne_zero.2 hr)
  have hbound : r.num.natAbs ≤ r.den * 2 ^ 900 := by
    rw [abs_eq_natAbs_div, div_le_iff₀ (Nat.cast_pos.2 r.den_pos), mul_comm] at hle
    exact_mod_cast hle
  obtain ⟨hord, hnear⟩ := ordinalOfRatio_near hn r.den_pos hbound
  refine ⟨⟨_, hord⟩, ?_, ?_⟩
  · rw [round_of_ne_zero hr, ofOrdinal_of_lt hord]
  · rw [← abs_eq_natAbs_div] at hnear
    by_cases hneg : r < 0
    · rw [abs_of_neg hneg] at hnear ⊢
      simp only [hneg, decide_true, value]
      rwa [← abs_neg, neg_sub, sub_neg_eq_add, add_comm, ← sub_neg_eq_add]
    · rw [abs_of_nonneg (not_lt.1 hneg)] at hnear ⊢
      simpa only [hneg, decide_false, value] using hnear

theorem isZero_of_value_ne_zero {o : Fin magnitudes} (h : (finite b o).value ≠ 0) :
    (finite b o).isZero = false := by
  refine decide_eq_false fun hzero => h ?_
  rw [← abs_eq_zero, abs_value, hzero, magnitude_zero]

/-- A number is determined by its value, zero up to its sign. -/
theorem eq_of_value_eq {s t : Bool} {o p : Fin magnitudes}
    (h : (finite s o).value = (finite t p).value) (hne : (finite t p).value ≠ 0) :
    finite s o = finite t p := by
  have hmag : magnitude o = magnitude p := by rw [← abs_value s, ← abs_value t, h]
  obtain rfl : o = p := Fin.ext (magnitude_injective hmag)
  cases s <;> cases t
  · rfl
  · exact absurd (self_eq_neg.1 h) (fun hzero => hne (h ▸ hzero))
  · exact absurd (neg_eq_self.1 h) hne
  · rfl

end FailureWire.Number
