import FailureWire.Proofs.Number.Integer

/-!
# What is rounded to a number

The quotients that are rounded to one magnitude are those of an interval around it: half-way to its neighbours
on both sides, which below a power of two is a quarter of a unit only. The ends of the interval count if the
mantissa is even (`Nearest`). Rounding takes all of the interval to the ordinal of the magnitude
(`ordinalOfRatio_of_nearest`).
-/

namespace FailureWire.Number

/-- The lower end of the interval around a magnitude, in quarters of its unit. -/
def lowQuarters (o : Nat) : Nat :=
  if mantissa o = fractions ∧ 0 < scale o then 4 * mantissa o - 1 else 4 * mantissa o - 2

/-- The upper end of the interval around a magnitude, in quarters of its unit. -/
def highQuarters (o : Nat) : Nat := 4 * mantissa o + 2

/-- A quotient lies in the interval around the magnitude at an ordinal. -/
structure Nearest (o n d : Nat) : Prop where
  low : lowQuarters o * (d * 2 ^ scale o) ≤ 4 * (n * perOne)
  high : 4 * (n * perOne) ≤ highQuarters o * (d * 2 ^ scale o)
  closed : lowQuarters o * (d * 2 ^ scale o) = 4 * (n * perOne) ∨
    4 * (n * perOne) = highQuarters o * (d * 2 ^ scale o) → mantissa o % 2 = 0

theorem le_lowQuarters (o : Nat) : 4 * mantissa o - 2 ≤ lowQuarters o := by
  unfold lowQuarters
  split <;> omega

section
variable {o n d : Nat}

/-- Being in the interval is a matter of the quotient, not of its terms. -/
theorem Nearest.of_eq {n' d' : Nat} (h : Nearest o n d) (hd : 0 < d) (hd' : 0 < d')
    (heq : n * d' = n' * d) : Nearest o n' d' := by
  have hcross : 4 * (n * perOne) * d' = 4 * (n' * perOne) * d := by
    rw [Nat.mul_assoc, Nat.mul_right_comm n, heq, Nat.mul_right_comm n', ← Nat.mul_assoc]
  have hside (q : Nat) : q * (d * 2 ^ scale o) * d' = q * (d' * 2 ^ scale o) * d := by ring
  refine ⟨?_, ?_, fun hend => h.closed ?_⟩
  · refine Nat.le_of_mul_le_mul_right ?_ hd
    rw [← hside, ← hcross]
    exact Nat.mul_le_mul_right _ h.low
  · refine Nat.le_of_mul_le_mul_right ?_ hd
    rw [← hside, ← hcross]
    exact Nat.mul_le_mul_right _ h.high
  · refine hend.imp (fun hend => ?_) fun hend => ?_
    · exact Nat.eq_of_mul_eq_mul_right hd' (by rw [hside, hcross, hend])
    · exact Nat.eq_of_mul_eq_mul_right hd' (by rw [hside, hcross, hend])

/-- A quotient in the interval is rounded to its ordinal, if the scale is found. -/
theorem eq_mantissa_of_nearest {q unit X : Nat} (hunit : 0 < unit)
    (hlow : (4 * mantissa o - 2) * unit ≤ 4 * X) (hhigh : 4 * X ≤ (4 * mantissa o + 2) * unit)
    (hclosed : (4 * mantissa o - 2) * unit = 4 * X ∨ 4 * X = (4 * mantissa o + 2) * unit → mantissa o % 2 = 0)
    (hbelow : 2 * (q * unit) ≤ 2 * X + unit) (habove : 2 * X ≤ 2 * (q * unit) + unit)
    (htie : 2 * (q * unit) = 2 * X + unit ∨ 2 * X = 2 * (q * unit) + unit → q % 2 = 0) : q = mantissa o := by
  generalize mantissa o = m at *
  rw [Nat.add_mul] at hhigh hclosed
  rw [Nat.sub_mul] at hlow hclosed
  rw [Nat.mul_assoc 4] at hlow hhigh hclosed
  rcases Nat.lt_trichotomy q m with hlt | heq | hgt
  · have hnext := Nat.mul_le_mul_right unit (show q + 1 ≤ m from hlt)
    rw [Nat.add_mul, Nat.one_mul] at hnext
    have hm : m = q + 1 := by
      by_contra hne
      have hfar := Nat.mul_le_mul_right unit (show q + 2 ≤ m by omega)
      rw [Nat.add_mul] at hfar
      omega
    have := htie (by omega)
    have := hclosed (by omega)
    omega
  · exact heq
  · have hnext := Nat.mul_le_mul_right unit (show m + 1 ≤ q from hgt)
    rw [Nat.add_mul, Nat.one_mul] at hnext
    have hq : q = m + 1 := by
      by_contra hne
      have hfar := Nat.mul_le_mul_right unit (show m + 2 ≤ q by omega)
      rw [Nat.add_mul] at hfar
      omega
    have := htie (by omega)
    have := hclosed (by omega)
    omega

/-- **What lies in the interval around a magnitude is rounded to it.** -/
theorem ordinalOfRatio_of_nearest (hn : 0 < n) (hd : 0 < d) (h : Nearest o n d) : ordinalOfRatio n d = o := by
  obtain ⟨q, hord, hq, hs, hbelow, habove, htie⟩ := ordinalOfRatio_eq hn hd
  obtain ⟨htop, hbottom⟩ := scaleOfRatio_bounds hn hd
  obtain ⟨hlow, hhigh, hclosed⟩ := h
  rw [highQuarters] at hhigh hclosed
  have hm := mantissa_lt o
  have hlowm := Nat.mul_le_mul_right (d * 2 ^ scale o) (le_lowQuarters o)
  have ho := ordinal_eq o
  obtain ⟨X, hX⟩ : ∃ X, n * perOne = X := ⟨_, rfl⟩
  rw [hX] at hbelow habove htie htop hbottom hlow hhigh hclosed
  rw [Nat.pow_add, ← Nat.mul_assoc] at htop hbottom
  generalize scaleOfRatio n d = s at *
  rw [fractions_eq] at hm hq hs hord ho
  rcases Nat.lt_trichotomy s (scale o) with hlt | heq | hgt
  · -- below a power of two the quotient may be of the scale before
    have hlong := (le_mantissa o).resolve_left (by omega)
    rw [fractions_eq] at hlong
    obtain ⟨k, hk⟩ := Nat.exists_eq_add_of_lt hlt
    have hpow : d * 2 ^ scale o = 2 ^ k * (2 * (d * 2 ^ s)) := by
      rw [hk, Nat.pow_succ, Nat.pow_add]
      ring
    have hone := Nat.le_mul_of_pos_left (2 * (d * 2 ^ s)) (Nat.two_pow_pos k)
    have hunit : 0 < d * 2 ^ s := Nat.mul_pos hd (Nat.two_pow_pos _)
    have hleast := Nat.mul_le_mul_right (d * 2 ^ scale o) (show 18014398509481982 ≤ 4 * mantissa o - 2 by omega)
    have hnext : k = 0 := by
      by_contra hne
      have htwo := Nat.mul_le_mul_right (2 * (d * 2 ^ s)) (Nat.pow_le_pow_right Nat.two_pos (Nat.pos_of_ne_zero hne))
      omega
    subst hnext
    rw [Nat.pow_zero, Nat.one_mul] at hpow
    have hshort : mantissa o = 4503599627370496 := by
      by_contra hne
      have hmore := Nat.mul_le_mul_right (d * 2 ^ scale o) (show 18014398509481986 ≤ 4 * mantissa o - 2 by omega)
      omega
    have hquarters : lowQuarters o = 18014398509481983 := by
      rw [lowQuarters, if_pos ⟨hshort.trans fractions_eq.symm, by omega⟩, hshort]
    rw [hquarters, hpow] at hlow
    have hq' : q = 9007199254740992 := by
      by_contra hne
      have hless := Nat.mul_le_mul_right (d * 2 ^ s) (show q ≤ 9007199254740991 by omega)
      have heven := htie (by omega)
      have hmuch := Nat.mul_le_mul_right (d * 2 ^ s) (show q ≤ 9007199254740990 by omega)
      omega
    omega
  · rw [heq] at hbelow habove htie hord
    have hmantissa : q = mantissa o := by
      refine eq_mantissa_of_nearest (Nat.mul_pos hd (Nat.two_pow_pos _)) (hlowm.trans hlow) hhigh ?_ hbelow habove htie
      rintro (hend | hend)
      · exact hclosed (.inl (Nat.le_antisymm hlow (hend ▸ hlowm)))
      · exact hclosed (.inr hend)
    rw [hord, hmantissa, ← ho]
  · have hbig := hbottom.resolve_left (by omega)
    obtain ⟨k, rfl⟩ := Nat.exists_eq_add_of_lt hgt
    have hpow : d * 2 ^ (scale o + k + 1) = 2 ^ k * (2 * (d * 2 ^ scale o)) := by
      rw [Nat.pow_succ, Nat.pow_add]
      ring
    have hone := Nat.le_mul_of_pos_left (2 * (d * 2 ^ scale o)) (Nat.two_pow_pos k)
    have hmax := Nat.mul_le_mul_right (d * 2 ^ scale o) (show 4 * mantissa o + 2 ≤ 36028797018963966 by omega)
    have hunit : 0 < d * 2 ^ scale o := Nat.mul_pos hd (Nat.two_pow_pos _)
    rw [← hpow] at hone
    omega

/-- A rational in the interval around a magnitude is rounded to it, with the sign of the rational. -/
theorem round_of_nearest {r : Rat} {b : Bool} (ho : o < magnitudes) (hn : 0 < n) (hd : 0 < d)
    (hr : |r| = (n : Rat) / d) (h : Nearest o n d) : round r b = .finite (r < 0) ⟨o, ho⟩ := by
  have hdpos : (0 : Rat) < d := Nat.cast_pos.2 hd
  have hne : r ≠ 0 := by
    rw [← abs_pos, hr]
    exact div_pos (Nat.cast_pos.2 hn) hdpos
  have hnum : 0 < r.num.natAbs := Int.natAbs_pos.2 (Rat.num_ne_zero.2 hne)
  have hcross : n * r.den = r.num.natAbs * d := by
    rw [abs_eq_natAbs_div, div_eq_div_iff (Nat.cast_ne_zero.2 r.den_ne_zero) hdpos.ne'] at hr
    exact_mod_cast hr.symm
  rw [round_of_ne_zero hne, ordinalOfRatio_of_nearest hnum r.den_pos (h.of_eq hd r.den_pos hcross),
    ofOrdinal_of_lt ho]

end

end FailureWire.Number
