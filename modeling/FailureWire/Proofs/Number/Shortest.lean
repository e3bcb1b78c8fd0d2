import FailureWire.Number.Decimal
import FailureWire.Proofs.Number.Nearest

/-!
# The fewest digits of a magnitude

`shortestDigits` looks for a multiple of a power of ten in the interval around a magnitude, with at most 17 digits.
It finds one: the first guess at the decimal exponent is never too large (`reaches_decimalExponent`), and a grid
whose steps are shorter than the interval has a point in it (`exists_gridPoint`). So the digits stand for a quotient
that is rounded to the magnitude (`nearest_shortestDigits`).
-/

namespace FailureWire.Number

/-! ## Powers of ten -/

/-- A quotient is at least a power of ten. -/
def Reaches (v d : Nat) (e : Int) : Prop := d * 10 ^ e.toNat ≤ v * 10 ^ (-e).toNat

section
variable {v d : Nat} {e : Int}

/-- Ten binary digits are a little more than three decimal ones. -/
theorem ten_pow_mul_two_le {j l : Nat} (h : 10 * j + 3 ≤ 3 * l) : 10 ^ j * 2 ≤ 2 ^ l := by
  refine (Nat.pow_le_pow_iff_left (show 3 ≠ 0 by decide)).1 ?_
  calc (10 ^ j * 2) ^ 3 = (10 ^ 3) ^ j * 2 ^ 3 := by rw [Nat.mul_pow, Nat.pow_right_comm]
    _ ≤ (2 ^ 10) ^ j * 2 ^ 3 := Nat.mul_le_mul_right _ (Nat.pow_le_pow_left (by decide) j)
    _ = 2 ^ (10 * j + 3) := by rw [← Nat.pow_mul, ← Nat.pow_add]
    _ ≤ 2 ^ (l * 3) := Nat.pow_le_pow_right Nat.two_pos (by omega)
    _ = (2 ^ l) ^ 3 := Nat.pow_mul ..

/-- Twenty-eight decimal digits are a little more than ninety-three binary ones. -/
theorem two_pow_le_ten_pow {j l : Nat} (h : 28 * l ≤ 93 * j) : 2 ^ l ≤ 10 ^ j := by
  refine (Nat.pow_le_pow_iff_left (show 28 ≠ 0 by decide)).1 ?_
  calc (2 ^ l) ^ 28 = 2 ^ (l * 28) := (Nat.pow_mul ..).symm
    _ ≤ 2 ^ (93 * j) := Nat.pow_le_pow_right Nat.two_pos (by omega)
    _ = (2 ^ 93) ^ j := Nat.pow_mul ..
    _ ≤ (10 ^ 28) ^ j := Nat.pow_le_pow_left (by decide) j
    _ = (10 ^ j) ^ 28 := Nat.pow_right_comm ..

/-- A quotient reaches what its binary digits promise. -/
theorem reaches_of_log2 (hv : 0 < v) (hsize : ((v.log2 : Int) - d.log2).natAbs ≤ 1200)
    (he : e ≤ ((v.log2 : Int) - d.log2) * 30103 / 100000 - 2) : Reaches v d e := by
  have hlow : 2 ^ v.log2 ≤ v := Nat.log2_self_le hv.ne'
  have hhigh : d ≤ 2 ^ (d.log2 + 1) := Nat.lt_log2_self.le
  generalize v.log2 = a at *
  generalize d.log2 = b at *
  unfold Reaches
  rcases Int.le_total 0 e with hpos | hneg
  · obtain ⟨j, rfl⟩ := Int.eq_ofNat_of_zero_le hpos
    obtain ⟨l, rfl⟩ := Nat.exists_eq_add_of_le (show b ≤ a by omega)
    have hbits : 10 ^ j * 2 ≤ 2 ^ l := ten_pow_mul_two_le (by omega)
    simp only [Int.toNat_natCast, show (-(j : Int)).toNat = 0 by omega, Nat.pow_zero, Nat.mul_one]
    calc d * 10 ^ j ≤ 2 ^ (b + 1) * 10 ^ j := Nat.mul_le_mul_right _ hhigh
      _ = 2 ^ b * (10 ^ j * 2) := by ring
      _ ≤ 2 ^ b * 2 ^ l := Nat.mul_le_mul_left _ hbits
      _ = 2 ^ (b + l) := (Nat.pow_add ..).symm
      _ ≤ v := hlow
  · obtain ⟨j, hj⟩ := Int.eq_ofNat_of_zero_le (Int.neg_nonneg_of_nonpos hneg)
    have hbits : 2 ^ (b + 1 - a) ≤ 10 ^ j := two_pow_le_ten_pow (by omega)
    rw [hj, show e.toNat = 0 by omega, Int.toNat_natCast, Nat.pow_zero, Nat.mul_one]
    calc d ≤ 2 ^ (b + 1) := hhigh
      _ ≤ 2 ^ (a + (b + 1 - a)) := Nat.pow_le_pow_right Nat.two_pos (by omega)
      _ = 2 ^ a * 2 ^ (b + 1 - a) := Nat.pow_add ..
      _ ≤ v * 10 ^ j := Nat.mul_le_mul hlow hbits

/-- The decimal exponent of a quotient is not too large. -/
theorem reaches_decimalExponent (hv : 0 < v) (hsize : ((v.log2 : Int) - d.log2).natAbs ≤ 1200) :
    Reaches v d (decimalExponent v d - 1) := by
  simp only [decimalExponent, Nat.pow_eq, decide_eq_true_eq]
  split_ifs with h₁ h₂ h₃
  · rw [show ∀ x : Int, x + 2 - 1 = x + 1 by omega]
    exact h₁
  · rw [show ∀ x : Int, x + 1 - 1 = x by omega]
    exact h₂
  · exact h₃
  · exact reaches_of_log2 hv hsize (by omega)

/-- A quotient that reaches a power of ten exceeds smaller ones by as much. -/
theorem Reaches.mul_le {g : Int} {k : Nat} (h : Reaches v d (g + k)) :
    d * 10 ^ g.toNat * 10 ^ k ≤ v * 10 ^ (-g).toNat := by
  unfold Reaches at h
  rcases Int.le_total 0 g with hpos | hneg
  · rw [show (g + k).toNat = g.toNat + k by omega, show (-(g + k)).toNat = 0 by omega, Nat.pow_add] at h
    rw [show (-g).toNat = 0 by omega]
    exact (Nat.mul_assoc ..).trans_le h
  · rw [show g.toNat = 0 by omega, Nat.pow_zero, Nat.mul_one]
    rcases Int.le_total 0 (g + k) with hup | hdown
    · rw [show (-(g + k)).toNat = 0 by omega, Nat.pow_zero, Nat.mul_one] at h
      calc d * 10 ^ k = d * 10 ^ (g + k).toNat * 10 ^ (-g).toNat := by
            rw [Nat.mul_assoc, ← Nat.pow_add, show (g + k).toNat + (-g).toNat = k by omega]
        _ ≤ v * 10 ^ (-g).toNat := Nat.mul_le_mul_right _ h
    · rw [show (g + k).toNat = 0 by omega, Nat.pow_zero, Nat.mul_one] at h
      calc d * 10 ^ k ≤ v * 10 ^ (-(g + k)).toNat * 10 ^ k := Nat.mul_le_mul_right _ h
        _ = v * 10 ^ (-g).toNat := by
            rw [Nat.mul_assoc, ← Nat.pow_add, show (-(g + k)).toNat + k = (-g).toNat by omega]

end

/-! ## Grids -/

section
variable {v low high d s : Nat} {closed : Bool} {g : Int}

/-- A point of a grid that is found lies between the ends, which count only where they may. -/
theorem of_gridPoint? (h : gridPoint? v low high d closed g = some s) :
    low * 10 ^ (-g).toNat ≤ s * (d * 10 ^ g.toNat) ∧ s * (d * 10 ^ g.toNat) ≤ high * 10 ^ (-g).toNat ∧
      (low * 10 ^ (-g).toNat = s * (d * 10 ^ g.toNat) ∨ s * (d * 10 ^ g.toNat) = high * 10 ^ (-g).toNat →
        closed = true) := by
  simp only [gridPoint?] at h
  simp only [← Nat.pow_eq]
  generalize d * Nat.pow 10 g.toNat = den at *
  generalize Nat.pow 10 (-g).toNat = up at *
  have hinside {t : Nat} (ht : (if closed = true then decide (low * up ≤ t * den) && decide (t * den ≤ high * up)
      else decide (low * up < t * den) && decide (t * den < high * up)) = true) :
      low * up ≤ t * den ∧ t * den ≤ high * up ∧ (low * up = t * den ∨ t * den = high * up → closed = true) := by
    split at ht
    · next hclosed =>
      simp only [Bool.and_eq_true, decide_eq_true_eq] at ht
      exact ⟨ht.1, ht.2, fun _ => hclosed⟩
    · simp only [Bool.and_eq_true, decide_eq_true_eq] at ht
      exact ⟨ht.1.le, ht.2.le, fun hend => by omega⟩
  split at h
  · next hs hs' =>
    cases h
    split
    · exact hinside hs
    · exact hinside hs'
  · next hs _ =>
    cases h
    exact hinside hs
  · next _ hs' =>
    cases h
    exact hinside hs'
  · cases h

/-- A grid whose steps are shorter than an interval has a point in it. -/
theorem exists_gridPoint (hd : 0 < d) (hlow : low < v) (hhigh : v < high)
    (hwide : d * 10 ^ g.toNat < (high - low) * 10 ^ (-g).toNat) :
    ∃ s, gridPoint? v low high d closed g = some s := by
  simp only [gridPoint?]
  have hden : 0 < d * Nat.pow 10 g.toNat := Nat.mul_pos hd (Nat.pow_pos (by decide))
  have hup : 0 < Nat.pow 10 (-g).toNat := Nat.pow_pos (by decide)
  rw [← Nat.pow_eq, ← Nat.pow_eq] at hwide
  generalize d * Nat.pow 10 g.toNat = den at *
  generalize Nat.pow 10 (-g).toNat = up at *
  have hbelow := Nat.div_mul_le_self (v * up) den
  have habove := Nat.lt_div_mul_add hden (a := v * up)
  have hlow' := Nat.mul_lt_mul_of_pos_right hlow hup
  have hhigh' := Nat.mul_lt_mul_of_pos_right hhigh hup
  rw [Nat.sub_mul] at hwide
  generalize v * up / den = s at *
  have hnext : (s + 1) * den = s * den + den := by rw [Nat.add_mul, Nat.one_mul]
  split
  · exact ⟨_, rfl⟩
  · exact ⟨_, rfl⟩
  · exact ⟨_, rfl⟩
  · next hs hs' =>
    exfalso
    cases closed <;> simp at hs hs' <;> omega

end

/-! ## Shortest digits -/

theorem mantissa_pos {o : Nat} (ho : 0 < o) : 0 < mantissa o := by
  have hpos := fractions_pos
  unfold mantissa
  split <;> omega

theorem scale_le {o : Nat} (ho : o < magnitudes) : scale o ≤ 2045 := by
  have hdiv : o / fractions < 2047 := Nat.div_lt_of_lt_mul (by rwa [Nat.mul_comm])
  unfold scale
  omega

/-- The digits that are found, with their exponent, stand for a quotient that is rounded to the magnitude. -/
theorem nearest_of_gridPoint? {o s : Nat} {g : Int}
    (h : gridPoint? (4 * mantissa o * 2 ^ scale o) (lowQuarters o * 2 ^ scale o) (highQuarters o * 2 ^ scale o)
      (4 * perOne) (mantissa o % 2 = 0) g = some s) : Nearest o (s * 10 ^ g.toNat) (10 ^ (-g).toNat) := by
  obtain ⟨hlow, hhigh, hend⟩ := of_gridPoint? h
  have hmid : 4 * (s * 10 ^ g.toNat * perOne) = s * (4 * perOne * 10 ^ g.toNat) := by ring
  have hside (q : Nat) : q * (10 ^ (-g).toNat * 2 ^ scale o) = q * 2 ^ scale o * 10 ^ (-g).toNat := by ring
  refine ⟨(hside _).trans_le (hlow.trans_eq hmid.symm), hmid.trans_le (hhigh.trans_eq (hside _).symm), fun hends => ?_⟩
  exact of_decide_eq_true <| hend <|
    hends.imp (fun h => (hside _).symm.trans (h.trans hmid)) fun h => hmid.symm.trans (h.trans (hside _))

/-- With seventeen digits a grid is fine enough. -/
theorem exists_gridPoint_seventeen {o : Nat} (ho : 0 < o) (hlt : o < magnitudes) :
    ∃ s, gridPoint? (4 * mantissa o * 2 ^ scale o) (lowQuarters o * 2 ^ scale o) (highQuarters o * 2 ^ scale o)
      (4 * perOne) (mantissa o % 2 = 0)
      (decimalExponent (4 * mantissa o * 2 ^ scale o) (4 * perOne) - 17) = some s := by
  have hm := mantissa_pos ho
  have hmlt := mantissa_lt o
  rw [fractions_eq] at hmlt
  have hscale := scale_le hlt
  have hunit : 0 < 2 ^ scale o := Nat.two_pow_pos _
  have hlow : lowQuarters o < 4 * mantissa o := by
    unfold lowQuarters
    split <;> omega
  have hpos : 0 < 4 * mantissa o * 2 ^ scale o := Nat.mul_pos (by omega) hunit
  have hsize : (((4 * mantissa o * 2 ^ scale o).log2 : Int) - (4 * perOne).log2).natAbs ≤ 1200 := by
    have hfour (k : Nat) : (4 * 2 ^ k).log2 = k + 2 := by
      rw [show 4 * 2 ^ k = 2 ^ (k + 2) by ring, Nat.log2_two_pow]
    have hone : (4 * perOne).log2 = 1076 := perOne_eq ▸ hfour 1074
    have htop : (4 * mantissa o * 2 ^ scale o).log2 < 2101 := by
      rw [Nat.log2_lt hpos.ne']
      calc 4 * mantissa o * 2 ^ scale o < 2 ^ 55 * 2 ^ scale o := Nat.mul_lt_mul_of_pos_right (by omega) hunit
        _ = 2 ^ (55 + scale o) := (Nat.pow_add ..).symm
        _ ≤ 2 ^ 2101 := Nat.pow_le_pow_right Nat.two_pos (by omega)
    omega
  have hreach := reaches_decimalExponent hpos hsize
  generalize decimalExponent (4 * mantissa o * 2 ^ scale o) (4 * perOne) = n at *
  rw [show n - 1 = n - 17 + (16 : Nat) by omega] at hreach
  have hfine := hreach.mul_le
  refine exists_gridPoint (Nat.mul_pos (by decide) perOne_pos) (Nat.mul_lt_mul_of_pos_right hlow hunit)
    (Nat.mul_lt_mul_of_pos_right (show 4 * mantissa o < highQuarters o by unfold highQuarters; omega) hunit) ?_
  generalize 4 * perOne * 10 ^ (n - 17).toNat = step at *
  rw [← Nat.sub_mul, Nat.mul_assoc]
  rw [Nat.mul_assoc] at hfine
  have hup : 0 < 2 ^ scale o * 10 ^ (-(n - 17)).toNat := Nat.mul_pos hunit (Nat.pow_pos (by decide))
  generalize 2 ^ scale o * 10 ^ (-(n - 17)).toNat = unit at *
  -- the interval has four quarters of a unit, or three below a power of two
  by_contra hcoarse
  unfold lowQuarters highQuarters at hcoarse
  split at hcoarse
  · next hpower =>
    rw [hpower.1, fractions_eq] at hfine hcoarse
    omega
  · have hwide : 4 * mantissa o + 2 - (4 * mantissa o - 2) = 4 := by omega
    rw [hwide] at hcoarse
    have hmost := Nat.mul_le_mul_right unit (show 4 * mantissa o ≤ 36028797018963968 by omega)
    omega

/-- **The fewest digits of a magnitude are rounded to it.** -/
theorem nearest_shortestDigits {o : Nat} (ho : 0 < o) (hlt : o < magnitudes) :
    Nearest o ((shortestDigits o).1 * 10 ^ (shortestDigits o).2.toNat) (10 ^ (-(shortestDigits o).2).toNat) := by
  have hlow : (if mantissa o = fractions && 0 < scale o then 4 * mantissa o - 1 else 4 * mantissa o - 2) =
      lowQuarters o := by
    simp only [lowQuarters, Bool.and_eq_true, decide_eq_true_eq]
  have hone : Nat.pow 2 1074 = perOne := by rw [perOne]
  have hunit : Nat.pow 2 (scale o) = 2 ^ scale o := rfl
  obtain ⟨s, hs⟩ := exists_gridPoint_seventeen ho hlt
  simp only [shortestDigits, hlow, hone, hunit]
  generalize hfind : List.findSome? _ (List.range 17) = found
  cases found with
  | none =>
    have hnone := List.findSome?_eq_none_iff.1 hfind 16 (by decide)
    rw [Option.map_eq_none_iff] at hnone
    cases hnone.symm.trans hs
  | some r =>
    obtain ⟨k, -, hk⟩ := List.exists_of_findSome?_eq_some hfind
    obtain ⟨t, ht, rfl⟩ := Option.map_eq_some_iff.1 hk
    exact nearest_of_gridPoint? ht

theorem shortestDigits_pos {o : Nat} (ho : 0 < o) (hlt : o < magnitudes) : 0 < (shortestDigits o).1 := by
  have hnear := nearest_shortestDigits ho hlt
  have hm := mantissa_pos ho
  have hlow := le_lowQuarters o
  by_contra hzero
  have hside := hnear.low
  rw [Nat.eq_zero_of_not_pos hzero, Nat.zero_mul, Nat.zero_mul, Nat.mul_zero] at hside
  have hpos : 0 < lowQuarters o * (10 ^ (-(shortestDigits o).2).toNat * 2 ^ scale o) :=
    Nat.mul_pos (by omega) (Nat.mul_pos (Nat.pow_pos (by decide)) (Nat.two_pow_pos _))
  omega

end FailureWire.Number
