import FailureWire.Proofs.Conversion.Emission
import FailureWire.Proofs.Wire.View
import FailureWire.Conversion.Receive

/-!
# Laws of codecs

A codec restores a value if decoding what it encodes gives the value back, up to deep equality. Between
the two other objects may come into the graph, so this is said of every larger graph that shows the
payload. Where a codec restores all details, whole lists of them come back (`decodeDetails_of_reading`).
-/

namespace FailureWire

/-- What is made of a document is like a value, whenever it is put into the graph. -/
def Graph.Recalls (g : Graph) (x : Value) (d : Document) : Prop :=
  ∀ g' v, g.Placed g' d v → g'.Alike x v

namespace Codec

/-- A payload of a value is decoded to a document that recalls the value. -/
def RestoredBy (c : Codec) (g : Graph) (x : Value) (payload : Document) : Prop :=
  ∀ g' first w, g ≤ g' → g'.Shows first payload w →
    ∃ d, c.decodeValue g' w = .ok d ∧ g'.Recalls x d

/-- **Decoding what is encoded gives the value back.** -/
def Restores (c : Codec) (g : Graph) (x : Value) : Prop :=
  ∃ payload, c.encodeValue g x = .ok payload ∧ c.RestoredBy g x payload

/-- A payload of a message and a stack trace is decoded to a record of these. -/
def AttributesRestoredBy (c : Codec) (g : Graph) (message stackTrace : String) (payload : Document) : Prop :=
  ∀ g' first w, g ≤ g' → g'.Shows first payload w →
    ∃ d, c.decodeValue g' w = .ok d ∧ d.get? "message" = some (.text message) ∧
      d.get? "stack_trace" = some (.text stackTrace)

/-- Decoding what a message and a stack trace are encoded to gives them back. -/
def RestoresAttributes (c : Codec) (g : Graph) (message stackTrace : String) : Prop :=
  ∃ payload, c.encodeAttributes g (.text message) (.text stackTrace) = .ok payload ∧
    c.AttributesRestoredBy g message stackTrace payload

end Codec

/-! ## Payloads in a graph -/

namespace Graph

variable {g : Graph} {first : ObjectId}

theorem Reading.payloadsOf {S : Document → Value → Prop} (hS : g.Reading S) {payloads : List Document}
    {v : Value} (h : S (payloadsDocument (.list payloads)) v) :
    ∃ values, g.payloadsOf v = .ok (values.map some) ∧ List.Forall₂ S payloads values := by
  obtain ⟨values, hvalues, hshow⟩ := hS.items (hS.read h "payloads" rfl)
  exact ⟨values, by rw [Graph.payloadsOf, hvalues], hshow⟩

theorem memoryOf?_of_bytes {v : Value} {data : Bytes} (h : g.objectOf? v = some (.bytes data)) :
    g.memoryOf? v = some data := by
  rw [memoryOf?, h]

theorem filterMap_of_showsFields : ∀ {entries : Fields Bytes} {values : Fields Value},
    g.ShowsFields first (entries.map fun (name, bytes) => (name, .bytes bytes)) values →
      (values.mapValues Document.existing).filterMap (fun (name, d) =>
        match d with
        | .existing w => (g.memoryOf? w).map fun bytes => (name, bytes)
        | _ => none) = entries
  | [], _, h => by
    cases h
    rfl
  | (name, bytes) :: rest, _, ⟨v, more, hv, hbytes, hrest⟩ => by
    subst hv
    have hmore := filterMap_of_showsFields hrest
    have hmemory := memoryOf?_of_bytes hbytes
    simp only [Fields.mapValues, List.map_cons, List.filterMap_cons, hmemory, Option.map_some] at hmore ⊢
    rw [hmore]

theorem encoding_of_showsFields {entries : Fields Bytes} {values : Fields Value} {name : String}
    (h : g.ShowsFields first (entries.map fun (name, bytes) => (name, .bytes bytes)) values) :
    ((Value.ofOption (values.get? name)).isTruthy && (g.memoryOf? (.ofOption (values.get? name))).isNone) =
      false := by
  induction entries generalizing values with
  | nil =>
    cases h
    rfl
  | cons entry rest ih =>
    obtain ⟨v, more, rfl, hbytes, hrest⟩ := h
    rw [Fields.get?_cons]
    split
    · simp [Value.ofOption, memoryOf?_of_bytes hbytes]
    · exact ih hrest

/-- **A payload is read as it was written**, and missing data as no bytes at all. -/
theorem payloadOf_eq_of_shows {p : Payload} {v : Value} (h : g.Shows first p.document v) :
    g.payloadOf v = .ok ⟨p.metadata, some (p.data.getD [])⟩ := by
  have hS := g.reading_shows first
  obtain ⟨metadata, data⟩ := p
  obtain ⟨values, hvalues, hentries⟩ := hS.read h "metadata" rfl
  have hall : g.metadataOf (g.read v "metadata") = metadata := by
    rw [metadataOf, listing, hvalues]
    exact filterMap_of_showsFields hentries
  have hmetadata : (g.read v "metadata").isMissing = false := isMissing_of_objectOf? hvalues
  have hencoding : ((g.read (g.read v "metadata") Payload.encodingKey).isTruthy &&
      (g.memoryOf? (g.read (g.read v "metadata") Payload.encodingKey)).isNone) = false := by
    rw [read, get?_of_record hvalues]
    exact encoding_of_showsFields hentries
  have hdata : (if g.read v "data" = .undefined then some [] else g.memoryOf? (g.read v "data")) =
      some (data.getD []) := by
    cases data with
    | none =>
      have hnone : g.read v "data" = .undefined := hS.read h "data" rfl
      rw [if_pos hnone]
      rfl
    | some bytes =>
      have hbytes : g.objectOf? (g.read v "data") = some (.bytes bytes) := hS.read h "data" rfl
      rw [if_neg (eq_undefined_of_objectOf? hbytes), memoryOf?_of_bytes hbytes]
      rfl
  rw [payloadOf, hS.readOf h "metadata", Except.ok_bind, Graph.readOf, hmetadata]
  simp only [Bool.false_eq_true, if_false, Except.ok_bind, hencoding, hall, hdata]
  rfl

/-- **A payload with bytes is read as it was written.** -/
theorem payloadOf_of_shows {p : Payload} {v : Value} (hdata : p.data.isSome) (h : g.Shows first p.document v) :
    g.payloadOf v = .ok p := by
  obtain ⟨metadata, data⟩ := p
  obtain ⟨bytes, rfl⟩ := Option.isSome_iff_exists.1 hdata
  exact payloadOf_eq_of_shows h

end Graph

/-! ## Details -/

namespace Codec

variable {c : Codec} {g g' : Graph} {first : ObjectId}

/-- A codec restores what it decodes from what it encodes. -/
theorem restores_of_decode {x : Value} {p : Payload} {d : Document} (hencode : c.encode g x = .ok (.payload p))
    (hdata : p.data.isSome) (hdecode : c.decode p = .ok (.value d))
    (hrecalls : ∀ g', g ≤ g' → g'.Recalls x d) : c.Restores g x := by
  refine ⟨p.document, by rw [encodeValue, hencode]; rfl, fun g' first w hle hw => ⟨d, ?_, hrecalls g' hle⟩⟩
  rw [decodeValue, Graph.payloadOf_of_shows hdata hw, Except.ok_bind, hdecode]
  rfl

def textIn? (c : Codec) (p : Payload) : Option String :=
  match c.decode p with
  | .ok (.value d) => d.text?
  | _ => none

theorem textIn?_eq_some {p : Payload} {s : String} : c.textIn? p = some s ↔ c.decode p = .ok (.value (.text s)) := by
  unfold textIn?
  split
  next d h => cases d <;> simp [h, Document.text?]
  next h =>
    constructor
    · intro hnone
      cases hnone
    · intro hdecode
      exact absurd hdecode (h _)

theorem restores_text {s : String} {p : Payload} (hencode : c.encode g (.text s) = .ok (.payload p))
    (hdata : p.data.isSome) (hdecode : c.textIn? p = some s) : c.Restores g (.text s) := by
  refine restores_of_decode hencode hdata (textIn?_eq_some.1 hdecode) ?_
  rintro g' - g'' v ⟨h, -, -, rfl⟩
  exact .refl g'' _

/-- The message and the stack trace in the record that a payload is decoded as, if it is one of texts. -/
def attributesIn? (c : Codec) (p : Payload) : Option (String × String) :=
  match c.decode p with
  | .ok (.value d) => do
    let message ← (d.get? "message").bind Document.text?
    let stackTrace ← (d.get? "stack_trace").bind Document.text?
    return (message, stackTrace)
  | _ => none

theorem exists_of_attributesIn? {p : Payload} {message stackTrace : String}
    (h : c.attributesIn? p = some (message, stackTrace)) :
    ∃ d, c.decode p = .ok (.value d) ∧ d.get? "message" = some (.text message) ∧
      d.get? "stack_trace" = some (.text stackTrace) := by
  have htext {d : Option Document} {s : String} (hd : d.bind Document.text? = some s) : d = some (.text s) := by
    obtain ⟨d, rfl, hd⟩ := Option.bind_eq_some_iff.1 hd
    cases d <;> cases hd
    rfl
  unfold attributesIn? at h
  split at h
  next d hd =>
    obtain ⟨m, hm, h⟩ := Option.bind_eq_some_iff.1 h
    obtain ⟨t, ht, h⟩ := Option.bind_eq_some_iff.1 h
    cases h
    exact ⟨d, hd, htext hm, htext ht⟩
  next => cases h

theorem restoresAttributes_of_decode {message stackTrace : String} {p : Payload}
    (hencode : c.encodeAttributes g (.text message) (.text stackTrace) = .ok p.document)
    (hdata : p.data.isSome) (hdecode : c.attributesIn? p = some (message, stackTrace)) :
    c.RestoresAttributes g message stackTrace := by
  obtain ⟨d, hd, hmessage, htrace⟩ := exists_of_attributesIn? hdecode
  refine ⟨p.document, hencode, fun g' first w _ hw => ⟨d, ?_, hmessage, htrace⟩⟩
  rw [decodeValue, Graph.payloadOf_of_shows hdata hw, Except.ok_bind, hd]
  rfl

theorem exists_of_restores {xs : List Value} (h : ∀ x ∈ xs, c.Restores g x) :
    ∃ payloads, List.Forall₂ (fun x p => c.encodeValue g x = .ok p) xs payloads ∧
      List.Forall₂ (c.RestoredBy g) xs payloads := by
  obtain ⟨payloads, hp⟩ := exists_forall₂ h
  exact ⟨payloads, hp.imp fun _ _ h => h.1, hp.imp fun _ _ h => h.2⟩

/-- **Details are read payload by payload.** -/
theorem decodeDetails_of_reading {α : Type} {S : Document → Value → Prop} (hS : g.Reading S) {xs : List α}
    {payloads : List Document} {R : α → Document → Prop} {details : Option Value}
    (hp : List.Forall₂ (fun x p => ∀ w, S p w → ∃ d, c.decodeValue g w = .ok d ∧ R x d) xs payloads)
    (h : Option.Rel S (payloadsField payloads) details) :
    ∃ ds, c.decodeDetails g details = .ok (Document.alignFrom 1 ds) ∧ List.Forall₂ R xs ds := by
  cases hp with
  | nil =>
    cases h
    exact ⟨[], rfl, .nil⟩
  | @cons x p xs payloads hx hrest =>
    cases h with
    | @some _ w hw =>
      obtain ⟨values, hvalues, hshown⟩ := hS.payloadsOf hw
      have hslots : List.Forall₂ (fun y x => ∃ d, c.decodeSlot g y = .ok d ∧ R x d)
          (values.map some) (x :: xs) :=
        List.forall₂_map_left_iff.2 <| List.Forall₂.flip <|
          forall₂_comp (fun _ _ y hp hy => hp y hy) (.cons hx hrest) hshown
      obtain ⟨ds, hds, hrecalls⟩ := exists_common hslots
      refine ⟨ds, ?_, hrecalls⟩
      have hall := FailureWire.Except.mapM_eq_ok.2 hds
      rw [decodeDetails, hvalues]
      show (do return Document.alignFrom 1 (← (values.map some).mapM (c.decodeSlot g))) = _
      rw [hall]
      rfl

end Codec
end FailureWire
