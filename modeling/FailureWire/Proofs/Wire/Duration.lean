import FailureWire.Proofs.Number.Integer
import FailureWire.Wire.Duration

/-!
# Durations across the wire

A whole number of milliseconds becomes its seconds and the nanoseconds beyond them without loss
(`millisToWireDuration`, `WireDuration.ofMillis_ofInt`), as long as its nanoseconds are few enough to be a number; and
the way back adds them up again (`wireDurationToMillis`, `WireDuration.toMillis_ofInt`). So both directions are exact
on whole milliseconds, whatever the signs of the zeros (`WireDuration.whole_millis_exact`).
-/

namespace FailureWire

open Number

namespace WireDuration

variable {i s k : Int}

/-- The nanoseconds of whole seconds have their low digits clear. -/
theorem fits_seconds (h : i.natAbs ≤ 9007199254) : Fits (i / 1000 * 1000000000) := by
  refine ⟨(i / 1000).natAbs * 1953125, 9, ?_, by omega, ?_⟩
  · rw [fractions_eq]
    omega
  · rw [Int.natAbs_mul, Nat.mul_assoc]
    rfl

theorem nanosPerMilli_eq : nanosPerMilli = ofInt 1000000 := rfl

theorem nanosPerSecond_eq : nanosPerSecond = ofInt 1000000000 := rfl

theorem ofMillis_ofInt (h : i.natAbs ≤ 9007199254) :
    ofMillis (ofInt i) = ⟨ofInt (i / 1000), ofInt (i % 1000 * 1000000)⟩ := by
  have hmilli : Fits 1000000 := fits_of_natAbs_le (by omega)
  have hsecond : Fits 1000000000 := fits_of_natAbs_le (by omega)
  have htotal : Fits (i * 1000000) := fits_of_natAbs_le (by omega)
  have hnanos : (ofInt i * nanosPerMilli).roundHalfUp = ofInt (i * 1000000) := by
    rw [nanosPerMilli_eq, mul_ofInt (fits_of_natAbs_le (by omega)) hmilli (by decide),
      roundHalfUp_ofInt htotal]
  have hseconds : (ofInt (i * 1000000) / nanosPerSecond).floor = ofInt (i / 1000) := by
    have hquot : ((i * 1000000 : Int) / (1000000000 : Int) : Rat) = i / (1000 : Int) := by
      push_cast
      ring
    rw [nanosPerSecond_eq, div_ofInt htotal hsecond (by decide), hquot,
      floor_round_div (by omega) (by decide) (by decide)]
  have hrest : i * 1000000 - i / 1000 * 1000000000 = i % 1000 * 1000000 := by omega
  simp only [ofMillis, hnanos, hseconds]
  rw [nanosPerSecond_eq, mul_ofInt (fits_of_natAbs_le (by omega)) hsecond (by decide),
    sub_ofInt htotal (fits_seconds h), hrest]

theorem ofInt_mul_thousand (hs : s.natAbs ≤ 9007199254) : ofInt s * 1000 = ofInt (s * 1000) :=
  mul_ofInt (c := 1000) (fits_of_natAbs_le (by omega)) (fits_of_natAbs_le (by omega)) (by decide)

theorem ofInt_div_nanosPerMilli (hk : k.natAbs ≤ 1000) : ofInt (k * 1000000) / nanosPerMilli = ofInt k :=
  div_ofInt_of_dvd (fits_of_natAbs_le (by omega)) (fits_of_natAbs_le (by omega)) (by decide)

/-- The milliseconds of whole seconds and whole milliseconds beyond them. -/
theorem toMillis_ofInt (hs : s.natAbs ≤ 9007199254) (hk : k.natAbs ≤ 1000) :
    toMillis ⟨ofInt s, ofInt (k * 1000000)⟩ = ofInt (s * 1000 + k) := by
  rw [toMillis, ofInt_mul_thousand hs, ofInt_div_nanosPerMilli hk,
    add_ofInt (fits_of_natAbs_le (by omega)) (fits_of_natAbs_le (by omega))]

/-! ### Whatever the signs of the zeros

Zero seconds and zero nanoseconds may be negative zeros, on either side of a conversion. What a number is
as an integer (`toInt?`) does not tell them apart. -/

variable {x : Number} {d : WireDuration}

/-- Whether a duration is one of `s` seconds and `n` nanoseconds beyond them. -/
def Denotes (d : WireDuration) (s n : Int) : Prop := d.seconds.toInt? = some s ∧ d.nanos.toInt? = some n

/-- Whether two durations are equal. -/
def SameValue (d e : WireDuration) : Prop :=
  d.seconds.sameValue e.seconds = true ∧ d.nanos.sameValue e.nanos = true

theorem denotes_ofMillis (hx : x.toInt? = some i) (h : i.natAbs ≤ 9007199254) :
    (ofMillis x).Denotes (i / 1000) (i % 1000 * 1000000) := by
  rcases eq_ofInt_of_toInt? (fits_of_natAbs_le (by omega)) hx with rfl | ⟨rfl, rfl⟩
  · rw [ofMillis_ofInt h]
    exact ⟨toInt?_ofInt (fits_of_natAbs_le (by omega)), toInt?_ofInt (fits_of_natAbs_le (by omega))⟩
  · unfold Denotes
    decide +kernel

theorem toInt?_toMillis (hd : d.Denotes s (k * 1000000)) (hs : s.natAbs ≤ 9007199254)
    (hk : k.natAbs ≤ 1000) : d.toMillis.toInt? = some (s * 1000 + k) := by
  obtain ⟨seconds, nanos⟩ := d
  obtain ⟨hseconds, hnanos⟩ : seconds.toInt? = some s ∧ nanos.toInt? = some (k * 1000000) := hd
  rcases eq_ofInt_of_toInt? (fits_of_natAbs_le (by omega)) hseconds with rfl | ⟨rfl, rfl⟩ <;>
    rcases eq_ofInt_of_toInt? (fits_of_natAbs_le (by omega)) hnanos with rfl | ⟨hzero, rfl⟩
  · rw [toMillis_ofInt hs hk, toInt?_ofInt (fits_of_natAbs_le (by omega))]
  · -- no nanoseconds, with the other sign
    obtain rfl : k = 0 := by omega
    have hquot : negativeZero / nanosPerMilli = negativeZero := by decide +kernel
    rw [toMillis, ofInt_mul_thousand hs, hquot, ofInt_add_negativeZero (fits_of_natAbs_le (by omega)),
      toInt?_ofInt (fits_of_natAbs_le (by omega)), Int.add_zero]
  · -- no seconds, with the other sign
    have hmul : negativeZero * 1000 = negativeZero := by decide +kernel
    rw [toMillis, hmul, ofInt_div_nanosPerMilli hk, negativeZero_add_ofInt (fits_of_natAbs_le (by omega)),
      toInt?_ofInt (fits_of_natAbs_le (by omega)), Int.zero_mul, Int.zero_add]
  · obtain rfl : k = 0 := by omega
    decide +kernel

/-- A delay of whole milliseconds comes back as the same value. -/
theorem sameValue_toMillis_ofMillis (hx : x.toInt? = some i) (h : i.natAbs ≤ 9007199254) :
    (ofMillis x).toMillis.sameValue x = true := by
  have hback := toInt?_toMillis (denotes_ofMillis hx h) (by omega) (by omega)
  rw [show i / 1000 * 1000 + i % 1000 = i by omega] at hback
  exact sameValue_of_toInt? (fits_of_natAbs_le (by omega)) hback hx

/-- **Whole milliseconds are exact in both directions.** A delay, negative ones included, is split into the
seconds below it and the nanoseconds beyond these, of which there are always less than a second's, and
joins to the same delay. A duration of whole milliseconds is joined to a delay that splits into it. -/
theorem whole_millis_exact :
    (∀ (x : Number) (i : Int), x.toInt? = some i → i.natAbs ≤ 9007199254 →
      (ofMillis x).SameValue ⟨ofInt ⌊(i / 1000 : Rat)⌋, ofInt (i % 1000 * 1000000)⟩ ∧
      (ofMillis x).nanos.less 0 = false ∧ (ofMillis x).nanos.less 1000000000 = true ∧
      (ofMillis x).toMillis.sameValue x = true) ∧
    ∀ (d : WireDuration) (s n : Int), d.Denotes s n → s.natAbs ≤ 9007198 →
      0 ≤ n → n < 1000000000 → n % 1000000 = 0 → (ofMillis d.toMillis).SameValue d := by
  constructor
  · intro x i hx hi
    obtain ⟨hseconds, hnanos⟩ := denotes_ofMillis hx hi
    have hfloor : ⌊(i / 1000 : Rat)⌋ = i / 1000 := by
      exact_mod_cast Rat.floor_intCast_div_natCast i 1000
    have hsecondsFit : Fits (i / 1000) := fits_of_natAbs_le (by omega)
    have hnanosFit : Fits (i % 1000 * 1000000) := fits_of_natAbs_le (by omega)
    refine ⟨⟨?_, ?_⟩, ?_, ?_, sameValue_toMillis_ofMillis hx hi⟩
    · rw [hfloor]
      exact sameValue_of_toInt? hsecondsFit hseconds (toInt?_ofInt hsecondsFit)
    · exact sameValue_of_toInt? hnanosFit hnanos (toInt?_ofInt hnanosFit)
    · have hzero : Number.toInt? 0 = some 0 := by decide +kernel
      rw [less_of_toInt? hnanos hzero, decide_eq_false_iff_not]
      omega
    · have hsecond : Number.toInt? 1000000000 = some 1000000000 := by decide +kernel
      rw [less_of_toInt? hnanos hsecond, decide_eq_true_eq]
      omega
  · intro d s n hd hs hn hlt hwhole
    obtain ⟨k, rfl⟩ : ∃ k, n = k * 1000000 := ⟨n / 1000000, by omega⟩
    have hmillis := toInt?_toMillis hd (by omega) (by omega)
    obtain ⟨hseconds, hnanos⟩ := denotes_ofMillis hmillis (by omega)
    rw [show (s * 1000 + k) / 1000 = s by omega] at hseconds
    rw [show (s * 1000 + k) % 1000 = k by omega] at hnanos
    exact ⟨sameValue_of_toInt? (fits_of_natAbs_le (by omega)) hseconds hd.1,
      sameValue_of_toInt? (fits_of_natAbs_le (by omega)) hnanos hd.2⟩

/-- A millisecond before zero is one second back and 999 milliseconds forward; and three seconds back with
seven milliseconds forward is a delay that splits into just these. -/
theorem whole_millis_exact_below_zero :
    ((-1 : Number).toInt? = some (-1) ∧
      (ofMillis (-1)).SameValue ⟨ofInt ⌊((-1 : Int) / 1000 : Rat)⌋, ofInt (-1 % 1000 * 1000000)⟩ ∧
      (ofMillis (-1)).nanos.less 0 = false ∧ (ofMillis (-1)).nanos.less 1000000000 = true ∧
      (ofMillis (-1)).toMillis.sameValue (-1) = true) ∧
    (Denotes ⟨-3, 7000000⟩ (-3) 7000000 ∧
      (ofMillis (toMillis ⟨-3, 7000000⟩)).SameValue ⟨-3, 7000000⟩) := by
  have hmillis : (-1 : Number).toInt? = some (-1) := by decide +kernel
  have hduration : Denotes ⟨-3, 7000000⟩ (-3) 7000000 := by
    unfold Denotes
    decide +kernel
  exact ⟨⟨hmillis, whole_millis_exact.1 (-1) (-1) hmillis (by decide)⟩, hduration,
    whole_millis_exact.2 ⟨-3, 7000000⟩ (-3) 7000000 hduration (by decide) (by decide) (by decide) (by decide)⟩

end WireDuration
end FailureWire
