import FailureWire.Text.Utf8
import Mathlib.Tactic.Common

/-!
# Texts are read back from their bytes

The bytes of a character take a reader between characters to the same place, with that character read
(`decodeFrom_encodeChar`). So a text is read back from its bytes, but for a byte order mark at its start.
-/

namespace FailureWire.Utf8

/-- A byte that may follow, with a place in the bits of its character. -/
def tail (k : Nat) : UInt8 := .ofNat (0x80 + k % 0x40)

theorem toNat_byte {n : Nat} (h : n < 0x100) : (UInt8.ofNat n).toNat = n := UInt8.toNat_ofNat_of_lt h

theorem toNat_tail (k : Nat) : (tail k).toNat = 0x80 + k % 0x40 :=
  toNat_byte (by omega)

theorem toNat_char (c : Char) : c.toNat < 0xD800 ∨ 0xDFFF < c.toNat ∧ c.toNat < 0x110000 := c.valid

/-! ## Steps of the reader -/

/-- A first byte that announces more is read by itself. -/
theorem decodeFrom_lead {b : UInt8} {l : Lead} (hb : 0x80 ≤ b.toNat) (hl : lead? b = some l) (bs : Bytes) :
    decodeFrom .between (b :: bs) = decodeFrom (.inside l) bs := by
  have hstep : step .between b = ([], .inside l) := by
    simp only [step, if_neg (Nat.not_lt.2 hb), hl]
  simp only [decodeFrom, hstep, List.nil_append]

/-- A byte that follows, with more to come, adds its bits. -/
theorem decodeFrom_more {l : Lead} {k : Nat} (hlow : l.low ≤ 0x80 + k % 0x40) (hhigh : 0x80 + k % 0x40 ≤ l.high)
    (hmore : 1 < l.following) (bs : Bytes) :
    decodeFrom (.inside l) (tail k :: bs) =
      decodeFrom (.inside ⟨l.following - 1, 0x80, 0xBF, l.bits * 0x40 + k % 0x40⟩) bs := by
  simp only [decodeFrom, step, toNat_tail, if_pos (And.intro hlow hhigh), if_neg (Nat.not_le.2 hmore),
    List.nil_append, Nat.add_sub_cancel_left]

theorem decodeFrom_last {l : Lead} {k : Nat} (hlow : l.low ≤ 0x80 + k % 0x40) (hhigh : 0x80 + k % 0x40 ≤ l.high)
    (hlast : l.following = 1) (bs : Bytes) :
    decodeFrom (.inside l) (tail k :: bs) = Char.ofNat (l.bits * 0x40 + k % 0x40) :: decodeFrom .between bs := by
  simp only [decodeFrom, step, toNat_tail, if_pos (And.intro hlow hhigh), if_pos (Nat.le_of_eq hlast),
    List.singleton_append, Nat.add_sub_cancel_left]

/-! ## Characters -/

theorem decodeFrom_encodeChar (c : Char) (bs : Bytes) :
    decodeFrom .between (encodeChar c ++ bs) = c :: decodeFrom .between bs := by
  have hvalid := toNat_char c
  have hback : Char.ofNat c.toNat = c := Char.ofNat_toNat c
  generalize hn : c.toNat = n at hvalid hback
  simp only [encodeChar, hn]
  split_ifs with h₁ h₂ h₃
  · have hb : (UInt8.ofNat n).toNat = n := toNat_byte (by omega)
    simp only [List.singleton_append, decodeFrom, step, hb, if_pos h₁, hback]
  · have hb : (UInt8.ofNat (0xC0 + n / 0x40)).toNat = 0xC0 + n / 0x40 := toNat_byte (by omega)
    have hlead : lead? (.ofNat (0xC0 + n / 0x40)) = some ⟨1, 0x80, 0xBF, n / 0x40⟩ := by
      simp only [lead?, hb, if_neg (show ¬0xC0 + n / 0x40 < 0xC2 by omega),
        if_pos (show 0xC0 + n / 0x40 < 0xE0 by omega), Nat.add_sub_cancel_left]
    rw [List.cons_append, decodeFrom_lead (by omega) hlead, Nat.div_one]
    refine (decodeFrom_last (by simp) (by simp only; omega) rfl bs).trans ?_
    rw [show n / 0x40 * 0x40 + n % 0x40 = n by omega, hback]
  · have hb : (UInt8.ofNat (0xE0 + n / 0x1000)).toNat = 0xE0 + n / 0x1000 := toNat_byte (by omega)
    have hlead : lead? (.ofNat (0xE0 + n / 0x1000)) =
        some ⟨2, if 0xE0 + n / 0x1000 = 0xE0 then 0xA0 else 0x80, if 0xE0 + n / 0x1000 = 0xED then 0x9F else 0xBF,
          n / 0x1000⟩ := by
      simp only [lead?, hb, if_neg (show ¬0xE0 + n / 0x1000 < 0xC2 by omega),
        if_neg (show ¬0xE0 + n / 0x1000 < 0xE0 by omega), if_pos (show 0xE0 + n / 0x1000 < 0xF0 by omega),
        Nat.add_sub_cancel_left]
    rw [List.cons_append, decodeFrom_lead (by omega) hlead, Nat.div_one]
    refine (decodeFrom_more (by simp only; split <;> omega) (by simp only; split <;> omega) (by simp) _).trans ?_
    refine (decodeFrom_last (by simp) (by simp only; omega) rfl bs).trans ?_
    rw [show (n / 0x1000 * 0x40 + n / 0x40 % 0x40) * 0x40 + n % 0x40 = n by omega, hback]
  · have hb : (UInt8.ofNat (0xF0 + n / 0x40000)).toNat = 0xF0 + n / 0x40000 := toNat_byte (by omega)
    have hlead : lead? (.ofNat (0xF0 + n / 0x40000)) =
        some ⟨3, if 0xF0 + n / 0x40000 = 0xF0 then 0x90 else 0x80, if 0xF0 + n / 0x40000 = 0xF4 then 0x8F else 0xBF,
          n / 0x40000⟩ := by
      simp only [lead?, hb, if_neg (show ¬0xF0 + n / 0x40000 < 0xC2 by omega),
        if_neg (show ¬0xF0 + n / 0x40000 < 0xE0 by omega), if_neg (show ¬0xF0 + n / 0x40000 < 0xF0 by omega),
        if_pos (show 0xF0 + n / 0x40000 < 0xF5 by omega), Nat.add_sub_cancel_left]
    rw [List.cons_append, decodeFrom_lead (by omega) hlead, Nat.div_one]
    refine (decodeFrom_more (by simp only; split <;> omega) (by simp only; split <;> omega) (by simp) _).trans ?_
    refine (decodeFrom_more (by simp) (by simp only; omega) (by simp) _).trans ?_
    refine (decodeFrom_last (by simp) (by simp only; omega) rfl bs).trans ?_
    rw [show ((n / 0x40000 * 0x40 + n / 0x1000 % 0x40) * 0x40 + n / 0x40 % 0x40) * 0x40 + n % 0x40 = n by omega,
      hback]

/-! ## Texts -/

/-- The bytes of a text are read as that text. -/
theorem decodeFrom_encode (s : List Char) : decodeFrom .between (encode s) = s := by
  induction s with
  | nil => rfl
  | cons c s ih =>
    rw [encode, List.flatMap_cons, decodeFrom_encodeChar]
    exact congrArg (c :: ·) ih

/-- Bytes that a text was written as are no other text's. -/
theorem decode?_encode (s : List Char) : decode? (encode s) = some s := by
  simp only [decode?, decodeFrom_encode, ↓reduceIte]

/-- A text that does not start with a byte order mark is read back from its bytes. -/
theorem decode_encode {s : List Char} (h : s.head? ≠ some '\ufeff') : decode (encode s) = s := by
  rw [decode, decodeFrom_encode]
  split
  · simp at h
  · rfl

end FailureWire.Utf8
