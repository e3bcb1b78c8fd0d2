import FailureWire.Proofs.Conversion.Emission
import FailureWire.Proofs.Wire.View

/-!
# Wire failures that are alike

A wire failure that somebody else wrote is described as one that is to be written: `g.Describes d v` says
that `v` is such as the document `d`, whatever the order of the keys of its records. What describes a value
can be read of it (`reading_describes`).

`g.Mirrors S first d d'` says that a value that reads as `d` and a value that shows `d'` are deeply equal.
Every document of what wire failures are made of mirrors itself, and documents whose parts mirror each other
do. So two chains of wire failures are deeply equal if they have the same links up to payloads that are deeply
equal (`mirrors_emitted`).
-/

namespace FailureWire

/-! ## Parts of wire failures -/

mutual
/-- A document is made of what wire failures are made of: values of the graph, numbers, bytes, numeric arrays,
records, and lists with or without gaps. -/
def Document.IsWire : Document → Prop
  | .existing _ | .undefined | .number _ | .bytes _ | .numbers .. => True
  | .record fields | .sparse fields => AreWireFields fields
  | .list items => AreWireItems items
  | _ => False
termination_by structural d => d

def Document.AreWireFields : List (String × Document) → Prop
  | [] => True
  | (_, d) :: rest => d.IsWire ∧ AreWireFields rest
termination_by structural fs => fs

def Document.AreWireItems : List Document → Prop
  | [] => True
  | d :: rest => d.IsWire ∧ AreWireItems rest
termination_by structural ds => ds
end

/-- A payload is made of records and bytes. -/
theorem Payload.isWire_document (p : Payload) : p.document.IsWire := by
  obtain ⟨metadata, data⟩ := p
  refine ⟨?_, ?_, trivial⟩
  · induction metadata with
    | nil => trivial
    | cons entry rest ih => exact ⟨trivial, ih⟩
  · cases data <;> trivial

theorem Codec.isWire_of_encodeValue {c : Codec} {g : Graph} {v : Value} {p : Document}
    (h : c.encodeValue g v = .ok p) : p.IsWire := by
  obtain ⟨encoded, -, h⟩ := FailureWire.Except.bind_eq_ok.1 h
  cases encoded with
  | itself =>
    cases h
    trivial
  | payload p =>
    cases h
    exact p.isWire_document

namespace Graph

/-! ## Descriptions -/

mutual
/-- A value is such as a document of a wire failure describes, in whatever order its fields are. -/
def Describes (g : Graph) : Document → Value → Prop
  | .existing w, v => v = w
  | .number n, v => v = .number n
  | .bytes data, v => g.objectOf? v = some (.bytes data)
  | .record fields, v => ∃ values, g.IsRecord v values ∧ DescribesFields g fields values
  | .list items, v => ∃ values, g.objectOf? v = some (.list values) ∧ DescribesItems g items values
  | _, _ => False
termination_by structural d => d

def DescribesFields (g : Graph) : List (String × Document) → Fields Value → Prop
  | [], values => values = []
  | (name, d) :: rest, values =>
    ∃ v more, values = (name, v) :: more ∧ Describes g d v ∧ DescribesFields g rest more
termination_by structural fs => fs

def DescribesItems (g : Graph) : List Document → List Value → Prop
  | [], values => values = []
  | d :: rest, values => ∃ v more, values = v :: more ∧ Describes g d v ∧ DescribesItems g rest more
termination_by structural ds => ds
end

variable {g g' : Graph} {first : ObjectId}

theorem DescribesFields.match : ∀ {fields : Fields Document} {values : Fields Value},
    g.DescribesFields fields values → fields.Match g.Describes values
  | [], _, h => by
    cases h
    exact .nil
  | _ :: _, _, ⟨_, _, hv, hd, hrest⟩ => by
    subst hv
    exact .cons hd hrest.match

theorem DescribesItems.forall₂ : ∀ {items : List Document} {values : List Value},
    g.DescribesItems items values → List.Forall₂ g.Describes items values
  | [], _, h => by
    cases h
    exact .nil
  | _ :: _, _, ⟨_, _, hv, hd, hrest⟩ => by
    subst hv
    exact .cons hd hrest.forall₂

theorem reading_describes (g : Graph) : g.Reading g.Describes where
  existing h := h
  undefined h := h.elim
  number h := h
  bytes h := h
  numbers h := h.elim
  record := by
    rintro fields v ⟨values, hv, hs⟩
    exact ⟨values, hv, hs.match⟩
  items := by
    rintro ds v ⟨values, hv, hs⟩
    exact ⟨values, hv, hs.forall₂⟩
  sparse h := h.elim

mutual
theorem Describes.mono (h : g ≤ g') : ∀ {d : Document} {v : Value}, g.Describes d v → g'.Describes d v
  | .existing _, _, hv | .number _, _, hv => hv
  | .bytes _, _, hv => objectOf?_of_le h hv
  | .record _, _, ⟨values, hv, hs⟩ => ⟨values, hv.mono h, DescribesFields.mono h hs⟩
  | .list _, _, ⟨values, hv, hs⟩ => ⟨values, objectOf?_of_le h hv, DescribesItems.mono h hs⟩

theorem DescribesFields.mono (h : g ≤ g') : ∀ {fields : List (String × Document)} {values : Fields Value},
    g.DescribesFields fields values → g'.DescribesFields fields values
  | [], _, hv => hv
  | _ :: _, _, ⟨v, more, hv, hd, hs⟩ => ⟨v, more, hv, Describes.mono h hd, DescribesFields.mono h hs⟩

theorem DescribesItems.mono (h : g ≤ g') : ∀ {items : List Document} {values : List Value},
    g.DescribesItems items values → g'.DescribesItems items values
  | [], _, hv => hv
  | _ :: _, _, ⟨v, more, hv, hd, hs⟩ => ⟨v, more, hv, Describes.mono h hd, DescribesItems.mono h hs⟩
end

/-! ## Mirrors -/

/-- What is such as one document says and what shows another one are deeply equal. -/
def Mirrors (g : Graph) (S : Document → Value → Prop) (first : ObjectId) (d d' : Document) : Prop :=
  ∀ v w, S d v → g.Shows first d' w → g.Alike v w

section
variable {S : Document → Value → Prop}

theorem mirrors_existing (hS : g.Reading S) {v w : Value} (h : g.Alike v w) :
    g.Mirrors S first (.existing v) (.existing w) := by
  rintro a b ha rfl
  rw [hS.existing ha]
  exact h

theorem mirrors_record (hS : g.Reading S) {fields others : Fields Document}
    (h : fields.Match (g.Mirrors S first) others) : g.Mirrors S first (.record fields) (.record others) := by
  rintro v w hv ⟨values', hw, hothers⟩
  obtain ⟨values, hv, hfields⟩ := hS.record hv
  exact alike_of_isRecord hv ⟨values', hw, fun _ => rfl⟩
    (hfields.square (fun _ _ _ _ hd hm hs => hm _ _ hd hs) h hothers.match)

theorem mirrors_list (hS : g.Reading S) {ds others : List Document}
    (h : List.Forall₂ (g.Mirrors S first) ds others) : g.Mirrors S first (.list ds) (.list others) := by
  rintro v w hv ⟨values', hw, hothers⟩
  obtain ⟨values, hv, hitems⟩ := hS.items hv
  have hleft : List.Forall₂ (fun v d => S d v) values ds := hitems.flip
  have hright : List.Forall₂ (fun d w => ∀ v, S d v → g.Alike v w) ds values' :=
    forall₂_comp (fun _ _ _ hm hs v hd => hm v _ hd hs) h hothers.forall₂
  exact alike_of_list hv hw (forall₂_comp (fun v _ _ hd hs => hs v hd) hleft hright)

theorem mirrors_sparse (hS : g.Reading S) {fields others : Fields Document}
    (h : fields.Match (g.Mirrors S first) others) : g.Mirrors S first (.sparse fields) (.sparse others) := by
  rintro v w hv ⟨values', hw, hothers⟩
  obtain ⟨values, hv, hfields⟩ := hS.sparse hv
  exact .of_compare (.inr ⟨_, _, hv, hw,
    .sparse (hfields.square (fun _ _ _ _ hd hm hs => hm _ _ hd hs) h hothers.match)⟩)

mutual
/-- A document of the parts that wire failures are made of mirrors itself. -/
theorem mirrors_self (hS : g.Reading S) : ∀ {d : Document}, d.IsWire → g.Mirrors S first d d
  | .existing v, _ => mirrors_existing hS (.refl g v)
  | .undefined, _ => by
    rintro v w hv rfl
    rw [hS.undefined hv]
  | .number n, _ => by
    rintro v w hv rfl
    rw [hS.number hv]
  | .bytes _, _ => fun _ _ hv hw => alike_of_bytes (hS.bytes hv) hw
  | .numbers element items, _ => fun _ _ hv hw =>
    .of_compare (.inr ⟨_, _, hS.numbers hv, hw, .numbers element items⟩)
  | .record _, h => mirrors_record hS (match_mirrors hS h)
  | .sparse _, h => mirrors_sparse hS (match_mirrors hS h)
  | .list _, h => mirrors_list hS (forall₂_mirrors hS h)
  | .null, h | .bool _, h | .text _, h | .big _, h | .set _, h | .map _, h | .date _, h | .pattern .., h
  | .boxed _, h | .error .., h | .again _, h => h.elim

theorem match_mirrors (hS : g.Reading S) : ∀ {fields : List (String × Document)}, Document.AreWireFields fields →
    Fields.Match (g.Mirrors S first) fields fields
  | [], _ => .nil
  | (_, _) :: _, ⟨hd, hrest⟩ => .cons (mirrors_self hS hd) (match_mirrors hS hrest)

theorem forall₂_mirrors (hS : g.Reading S) : ∀ {items : List Document}, Document.AreWireItems items →
    List.Forall₂ (g.Mirrors S first) items items
  | [], _ => .nil
  | _ :: _, ⟨hd, hrest⟩ => .cons (mirrors_self hS hd) (forall₂_mirrors hS hrest)
end

end

/-! ## Links -/

theorem match_optionalField {R : Document → Document → Prop} {d d' : Option Document} (name : String)
    (h : Option.Rel R d d') :
    Fields.Match R (FailureInfo.optionalField name d) (FailureInfo.optionalField name d') := by
  cases h with
  | none => exact .nil
  | some hd => exact .cons hd .nil

section
variable {S : Document → Value → Prop}

theorem mirrors_payloadsField (hS : g.Reading S) {payloads others : List Document}
    (h : List.Forall₂ (g.Mirrors S first) payloads others) :
    Option.Rel (g.Mirrors S first) (payloadsField payloads) (payloadsField others) := by
  cases h with
  | nil => exact .none
  | cons hp hrest => exact .some (mirrors_record hS (.cons (mirrors_list hS (.cons hp hrest)) .nil))

theorem isWire_delayField (delay : Value) :
    Document.AreWireFields (FailureInfo.optionalField "nextRetryDelay" (delayField delay)) := by
  rw [delayField]
  cases delay.number? with
  | none => trivial
  | some n => exact ⟨⟨trivial, trivial, trivial⟩, trivial⟩

theorem mirrors_info (hS : g.Reading S) {payloads others : List Document} (k : FailureKind Document)
    (h : List.Forall₂ (g.Mirrors S first) payloads others) :
    g.Mirrors S first (k.info payloads).document (k.info others).document := by
  have hpayloads (name : String) := match_optionalField name (mirrors_payloadsField hS h)
  have hvalue {case : String} {fields fields' : Fields Document} (hf : fields.Match (g.Mirrors S first) fields') :
      g.Mirrors S first (.record [("case", .existing (.text case)), ("value", .record fields)])
        (.record [("case", .existing (.text case)), ("value", .record fields')]) :=
    mirrors_record hS (.cons (mirrors_self hS trivial) (.cons (mirrors_record hS hf) .nil))
  cases k with
  | application type _ nonRetryable nextRetryDelay =>
    have hhead : Document.AreWireFields
        [("type", .existing (type.orElse (.text ""))), ("nonRetryable", .existing nonRetryable)] :=
      ⟨trivial, trivial, trivial⟩
    exact hvalue (((match_mirrors hS hhead).append (hpayloads "details")).append
      (match_mirrors hS (isWire_delayField nextRetryDelay)))
  | timeout type _ => exact hvalue (.cons (mirrors_self hS trivial) (hpayloads "lastHeartbeatDetails"))
  | cancelled _ => exact hvalue (hpayloads "details")
  | terminated _ => exact hvalue (hpayloads "details")
  | generic | server | activity | childWorkflow | alreadyStarted =>
    exact mirrors_self hS (by
      simp [FailureKind.info, FailureInfo.document, FailureInfo.fields, Document.IsWire, Document.AreWireFields])

end

end Graph

/-- Two links are the same, with the same attributes, up to the payloads of their details, which are related. -/
structure WireLink.Matches (R : Document → Document → Prop) (link other : WireLink) : Prop where
  message : other.message = link.message
  source : other.source = link.source
  stackTrace : other.stackTrace = link.stackTrace
  attributes : other.encodedAttributes = link.encodedAttributes ∧ ∀ a, link.encodedAttributes = some a → a.IsWire
  info : ∃ (k : FailureKind Document) (payloads payloads' : List Document), link.info = k.info payloads ∧
    other.info = k.info payloads' ∧ (k.details? = none → payloads = []) ∧ List.Forall₂ R payloads payloads'

theorem WireLink.Matches.imp {R S : Document → Document → Prop} (h : ∀ p q, R p q → S p q)
    {link other : WireLink} (hm : link.Matches R other) : link.Matches S other := by
  obtain ⟨message, source, stackTrace, attributes, k, ps, qs, hinfo, hinfo', hnone, hpayloads⟩ := hm
  exact ⟨message, source, stackTrace, attributes, k, ps, qs, hinfo, hinfo', hnone, hpayloads.imp fun _ _ => h _ _⟩

namespace Graph

variable {g : Graph} {S : Document → Value → Prop} {first : ObjectId}

theorem mirrors_link (hS : g.Reading S) {link other : WireLink} {cause cause' : Option Document}
    (h : link.Matches (g.Mirrors S first) other) (hcause : Option.Rel (g.Mirrors S first) cause cause') :
    g.Mirrors S first (link.document cause) (other.document cause') := by
  obtain ⟨message, source, stackTrace, attributes, info⟩ := link
  obtain ⟨message', source', stackTrace', attributes', info'⟩ := other
  obtain ⟨⟨⟩, ⟨⟩, ⟨⟩, ⟨⟨⟩, hwire⟩, k, payloads, payloads', ⟨⟩, ⟨⟩, -, hpayloads⟩ := h
  have hhead : Document.AreWireFields
      [("message", .existing message), ("source", .existing source), ("stackTrace", .existing stackTrace)] :=
    ⟨trivial, trivial, trivial, trivial⟩
  refine mirrors_record hS ((((match_mirrors hS hhead).append ?_).append ?_).append ?_)
  · exact match_optionalField "cause" hcause
  · exact .cons (mirrors_info hS k hpayloads) .nil
  · cases attributes with
    | none => exact .nil
    | some a => exact .cons (mirrors_self hS (hwire a rfl)) .nil

/-- **Chains of links that are the same up to payloads mirror each other.** -/
theorem mirrors_emitted (hS : g.Reading S) {links others : List WireLink}
    (h : List.Forall₂ (WireLink.Matches (g.Mirrors S first)) links others) :
    g.Mirrors S first (Emitted.document ⟨links, none⟩) (Emitted.document ⟨others, none⟩) := by
  have hchain : Option.Rel (g.Mirrors S first) (chainDocument links none) (chainDocument others none) := by
    induction h with
    | nil => exact .none
    | cons hlink _ ih => exact .some (mirrors_link hS hlink ih)
  cases h with
  | nil => exact mirrors_self hS trivial
  | cons hlink hrest =>
    cases hchain with
    | some hd => exact hd

end Graph
end FailureWire
