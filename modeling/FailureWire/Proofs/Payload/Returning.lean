import FailureWire.Proofs.Payload.Copy
import FailureWire.Proofs.Payload.Laws
import FailureWire.Proofs.Wire.Likeness

/-!
# Payloads that return

A payload is decoded, and what it is decoded to is encoded again. `c.ReturnsAs g T x` says that whatever
comes out for the payload `x` is related to it by `T`.

The standard codec keeps a payload in a foreign encoding as it is, in both directions: it is decoded to
itself, and, being a payload still in whatever graph it gets into (`isPayload_of_le`), it is encoded as
itself (`returnsAs_of_isForeign`). Payload text that says what it says as the codec would say it comes out
deeply equal (`returnsAs_of_reproduces`).
-/

namespace FailureWire

/-! ## Payloads that return -/

/-- A payload stands for another one: what shows it is related to that one. -/
def Graph.StandsFor (g : Graph) (T : Graph → Value → Value → Prop) (x : Value) (payload : Document) : Prop :=
  ∀ g' first y, g ≤ g' → g'.Shows first payload y → T g' x y

namespace Codec

/-- A decoded value is encoded as a payload that stands for another one, wherever the value is put. -/
def Reencodes (c : Codec) (g : Graph) (T : Graph → Value → Value → Prop) (x : Value) (d : Document) :
    Prop :=
  ∀ g₁ v, g.Placed g₁ d v → ∃ payload, c.encodeValue g₁ v = .ok payload ∧ g₁.StandsFor T x payload

/-- What a payload is decoded to is encoded as a payload that stands for it. -/
def ReturnsAs (c : Codec) (g : Graph) (T : Graph → Value → Value → Prop) (x : Value) : Prop :=
  ∃ d, c.decodeValue g x = .ok d ∧ c.Reencodes g T x d

theorem ReturnsAs.imp {c : Codec} {g : Graph} {T U : Graph → Value → Value → Prop} {x : Value}
    (h : ∀ g' y, T g' x y → U g' x y) (hx : c.ReturnsAs g T x) : c.ReturnsAs g U x := by
  obtain ⟨d, hd, hagain⟩ := hx
  refine ⟨d, hd, fun g₁ v hv => ?_⟩
  obtain ⟨payload, hp, hstand⟩ := hagain g₁ v hv
  exact ⟨payload, hp, fun g' first y hle hy => h g' y (hstand g' first y hle hy)⟩

end Codec

/-! ## Foreign encodings -/

namespace Graph

variable {g g' : Graph} {v : Value}

/-- A value is a payload in another encoding than that of payload text, or in none. -/
def IsForeign (g : Graph) (v : Value) : Prop :=
  g.isPayload v = true ∧ ∃ p, g.payloadOf v = .ok p ∧ p.isIn Payload.textEncoding = false

theorem bytesOf?_of_le (h : g ≤ g') {data : Bytes} (hv : g.bytesOf? v = some data) :
    g'.bytesOf? v = some data :=
  bytesOf?_eq_some.2 (objectOf?_of_le h (bytesOf?_eq_some.1 hv))

theorem isBytes_of_le (h : g ≤ g') {d : Document} (hd : g.isBytes d = true) : g'.isBytes d = true := by
  cases d with
  | existing v =>
    obtain ⟨data, hdata⟩ := Option.isSome_iff_exists.1 hd
    exact Option.isSome_iff_exists.2 ⟨data, bytesOf?_of_le h hdata⟩
  | _ => cases hd

/-- A value with a property is an object. -/
theorem holds_of_read {name : String} (h : g.read v name ≠ .undefined) : g.Holds v := by
  rintro id rfl
  by_contra hlarge
  have hnone : g.objectOf? (.object id) = none := List.getElem?_eq_none (Nat.le_of_not_lt hlarge)
  rw [read, get?, hnone] at h
  exact h rfl

theorem holds_of_isPayload (hv : g.isPayload v = true) : g.Holds v := by
  simp only [isPayload, Bool.and_eq_true] at hv
  obtain ⟨n, hn⟩ := Option.isSome_iff_exists.1 hv.1.2
  exact holds_of_read (eq_undefined_of_objectOf? hn)

theorem listing_eq_of_le (h : g ≤ g') {n : Node} (hn : g.objectOf? v = some n) : g'.listing v = g.listing v := by
  rw [listing, listing, hn, objectOf?_of_le h hn]

/-- **A payload is a payload in every larger graph.** -/
theorem isPayload_of_le (h : g ≤ g') (hv : g.isPayload v = true) : g'.isPayload v = true := by
  have hholds := holds_of_isPayload hv
  simp only [isPayload, Bool.and_eq_true, List.all_eq_true] at hv ⊢
  obtain ⟨⟨hdata, hmetadata⟩, hentries⟩ := hv
  obtain ⟨data, hbytes⟩ := Option.isSome_iff_exists.1 hdata
  obtain ⟨n, hn⟩ := Option.isSome_iff_exists.1 hmetadata
  rw [read_eq_of_le h hholds, read_eq_of_le h hholds, bytesOf?_of_le h hbytes, objectOf?_of_le h hn,
    listing_eq_of_le h hn]
  exact ⟨⟨rfl, rfl⟩, fun entry hentry => isBytes_of_le h (hentries entry hentry)⟩

end Graph

/-- **A payload in a foreign encoding returns as the very same payload.** -/
theorem Codec.returnsAs_of_isForeign {format : TextFormat} {g : Graph} {x : Value} (h : g.IsForeign x) :
    (ofFormat format).ReturnsAs g (fun _ x y => y = x) x := by
  obtain ⟨hpayload, p, hp, hforeign⟩ := h
  refine ⟨.existing x, ?_, ?_⟩
  · rw [decodeValue, hp]
    simp only [ofFormat, Except.ok_bind, hforeign]
    rfl
  · intro g₁ v hplaced
    have hthere := Graph.isPayload_of_le hplaced.le hpayload
    obtain ⟨between, -, -, hv⟩ := hplaced
    rw [Graph.add_existing] at hv
    rw [hv]
    refine ⟨.existing x, ?_, fun g' first y _ hy => hy⟩
    simp only [encodeValue, ofFormat, hthere]
    rfl

/-! ## Payload text -/

/-- Encoding what a payload is decoded to gives the payload. -/
def Codec.Reproduces (c : Codec) (p : Payload) : Prop :=
  ∃ d, c.decode p = .ok (.value d) ∧ c.encode (Graph.empty.add d).1 (Graph.empty.add d).2 = .ok (.payload p)

namespace Graph

variable {g : Graph} {v : Value}

theorem get?_metadataOf {own : Fields Value} {name : String} {w : Value} {data : Bytes}
    (hv : g.objectOf? v = some (.record own)) (hname : own.get? name = some w)
    (hw : g.memoryOf? w = some data) : Fields.get? (g.metadataOf v) name = some data := by
  rw [metadataOf, listing, hv]
  clear hv
  induction own with
  | nil => cases hname
  | cons f rest ih =>
    obtain ⟨n, u⟩ := f
    rw [Fields.get?_cons] at hname
    simp only [Fields.mapValues, List.map_cons, List.filterMap_cons] at ih ⊢
    split at hname
    next hn =>
      cases hname
      simp [hw, Fields.get?_cons, hn]
    next hn =>
      cases hu : g.memoryOf? u with
      | none => simpa using ih hname
      | some other => simpa [Fields.get?_cons, hn] using ih hname

/-- **A payload of an encoding is read with its data and in its encoding.** -/
theorem payloadOf_of_describes {encoding : String} {data : Bytes}
    (h : g.Describes (Payload.inEncoding encoding data).document v) :
    ∃ p, g.payloadOf v = .ok p ∧ p.data = some data ∧
      Fields.get? p.metadata Payload.encodingKey = some (Utf8.encode encoding.toList) := by
  have hS := g.reading_describes
  have hdata : g.objectOf? (g.read v "data") = some (.bytes data) := hS.read h "data" rfl
  have hmetadata := hS.read h "metadata" rfl
  obtain ⟨values, ⟨own, hown, hsame⟩, -⟩ := hS.record hmetadata
  have hname : g.objectOf? (g.read (g.read v "metadata") Payload.encodingKey) =
      some (.bytes (Utf8.encode encoding.toList)) := hS.read hmetadata Payload.encodingKey rfl
  have hmemory := memoryOf?_of_bytes hname
  have hentry : own.get? Payload.encodingKey = some (g.read (g.read v "metadata") Payload.encodingKey) := by
    rw [read, get?_of_record hown]
    cases hget : own.get? Payload.encodingKey with
    | none =>
      rw [read, get?_of_record hown, hget] at hname
      cases hname
    | some w => rfl
  refine ⟨⟨g.metadataOf (g.read v "metadata"), some data⟩, ?_, rfl, get?_metadataOf hown hentry hmemory⟩
  have hencoding : ((g.read (g.read v "metadata") Payload.encodingKey).isTruthy &&
      (g.memoryOf? (g.read (g.read v "metadata") Payload.encodingKey)).isNone) = false := by
    rw [hmemory]
    exact Bool.and_false _
  rw [payloadOf, hS.readOf h "metadata", Except.ok_bind, hS.readOf hmetadata, Except.ok_bind, hencoding]
  simp only [Bool.false_eq_true, if_false, if_neg (eq_undefined_of_objectOf? hdata), memoryOf?_of_bytes hdata]
  rfl

end Graph

/-- **Payload text that the codec reproduces returns**, up to deep equality. -/
theorem Codec.returnsAs_of_reproduces {format : TextFormat} (hformat : format.ReadsAnew) {g : Graph} {x : Value}
    {p : Payload} (hx : g.Describes p.document x) (hp : (ofFormat format).Reproduces p) :
    (ofFormat format).ReturnsAs g Graph.Alike x := by
  obtain ⟨d, hdecode, hencode⟩ := hp
  obtain ⟨data, rfl⟩ : ∃ data, p = .inEncoding Payload.textEncoding data := by
    simp only [ofFormat] at hencode
    split at hencode
    · cases hencode
    · obtain ⟨text, -, h⟩ := FailureWire.Except.bind_eq_ok.1 hencode
      cases h
      exact ⟨_, rfl⟩
  obtain ⟨p', hread, hdata, hname⟩ := Graph.payloadOf_of_describes hx
  have hsame : (ofFormat format).decode p' = (ofFormat format).decode (.inEncoding Payload.textEncoding data) := by
    have hisIn : p'.isIn Payload.textEncoding = (Payload.inEncoding Payload.textEncoding data).isIn
        Payload.textEncoding := by
      simp [Payload.isIn, hname, Payload.inEncoding, Fields.get?]
    simp only [ofFormat, hisIn, hdata]
    rfl
  refine ⟨d, ?_, ?_⟩
  · rw [decodeValue, hread, Except.ok_bind, hsame, hdecode]
    rfl
  · intro g₁ v hv
    refine ⟨_, by rw [encodeValue, encode_of_placed hformat hdecode hv, hencode]; rfl, ?_⟩
    intro g' first y hle hy
    exact Graph.mirrors_self g'.reading_describes (Payload.isWire_document _) x y (hx.mono (hv.le.trans hle)) hy

end FailureWire
