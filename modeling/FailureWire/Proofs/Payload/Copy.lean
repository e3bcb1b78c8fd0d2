import FailureWire.Payload.Codec
import FailureWire.Proofs.Graph.Agree
import FailureWire.Proofs.Log.Outcome

/-!
# Encoding values that are carried over

What the standard codec makes of a value does not depend on where its objects stand, nor on what is added behind
them: values that are carried over are payloads both or neither (`isPayload_eq_of_carries`), and have the same
text. A codec of which this is true is `Steady`, as are the codecs of the library, and so `Uniform`: it encodes
values alike that cannot be told apart. What they decode speaks of nothing outside itself, so that it is encoded
the same way wherever it is put (`encode_of_placed`).
-/

namespace FailureWire

/-! ## Related fields -/

theorem Fields.forall₂_ofItems {α : Type} {R : α → α → Prop} {S : String × α → String × α → Prop}
    (h : ∀ name a b, R a b → S (name, a) (name, b)) {items others : List α} (hi : List.Forall₂ R items others) :
    List.Forall₂ S (Fields.ofItems items) (Fields.ofItems others) := by
  rw [List.forall₂_iff_get] at hi ⊢
  obtain ⟨hlength, hget⟩ := hi
  refine ⟨by simpa [Fields.ofItems] using hlength, fun i hl hr => ?_⟩
  simp only [Fields.ofItems, List.length_mapIdx] at hl hr
  simpa [Fields.ofItems] using h _ _ _ (hget i hl hr)

theorem all_eq_of_forall₂ {α β : Type} {p : α → Bool} {q : β → Bool} {xs : List α} {ys : List β}
    (h : List.Forall₂ (fun x y => p x = q y) xs ys) : xs.all p = ys.all q := by
  induction h with
  | nil => rfl
  | cons hx _ ih => rw [List.all_cons, List.all_cons, hx, ih]

namespace Graph

section
variable {g g' : Graph} {R : Value → Value → Prop} {v v' : Value}

/-! ## Properties -/

theorem get?_of_carries (hR : g.CarriesOver g' R) (hv : R v v') (name : String) :
    Option.Rel R (g.get? v name) (g'.get? v' name) := by
  have hobject := hR.objectOf? hv
  unfold get?
  generalize g.objectOf? v = node at hobject
  generalize g'.objectOf? v' = node' at hobject
  cases hobject with
  | none => exact .none
  | some hnn =>
    cases hnn with
    | error he => exact he.properties.get? name
    | kept hheld =>
      exact Option.rel_self fun w hw =>
        hheld w (ThrownError.mem_values_of_mem_properties (Fields.mem_values_of_get? hw))
    | moved hn =>
      cases hn with
      | record hf => exact hf.get? name
      | @error a a' b b' c c' cause cause' ha hb hcause hc =>
        have hall : Fields.Zip R
            ([("name", a), ("message", b), ("stack", c)] ++ (cause.map fun d => ("cause", d)).toList)
            ([("name", a'), ("message", b'), ("stack", c')] ++ (cause'.map fun d => ("cause", d)).toList) :=
          .cons ⟨rfl, ha⟩ (.cons ⟨rfl, hb⟩ (.cons ⟨rfl, hc⟩ (Fields.zip_optional "cause" hcause)))
        simpa [ThrownError.properties, ThrownError.classProperties, ErrorBody.properties, ErrorBody.code?,
          ErrorBody.failure?] using hall.get? name
      | _ => exact .none

theorem read_of_carries (hR : g.CarriesOver g' R) (hv : R v v') (name : String) :
    R (g.read v name) (g'.read v' name) := by
  have hproperty := get?_of_carries hR hv name
  unfold read
  generalize g.get? v name = found at hproperty
  generalize g'.get? v' name = found' at hproperty
  cases hproperty with
  | none => exact hR.plain rfl
  | some hw => exact hw

theorem bytesOf?_eq_of_carries (hR : g.CarriesOver g' R) (hv : R v v') : g.bytesOf? v = g'.bytesOf? v' := by
  have hobject := hR.objectOf? hv
  unfold bytesOf?
  generalize g.objectOf? v = node at hobject
  generalize g'.objectOf? v' = node' at hobject
  cases hobject with
  | none => rfl
  | some hnn =>
    cases hnn with
    | error | kept => rfl
    | moved hn => cases hn <;> rfl

/-! ## Payloads -/

theorem isBytes_mapValues (hR : g.CarriesOver g' R) {fields others : Fields Value} (hf : fields.Zip R others) :
    List.Forall₂ (fun e o => g.isBytes e.2 = g'.isBytes o.2) (fields.mapValues Document.existing)
      (others.mapValues Document.existing) := by
  refine List.forall₂_map_left_iff.2 (List.forall₂_map_right_iff.2 (List.Forall₂.imp (fun f o hfo => ?_) hf))
  exact congrArg Option.isSome (bytesOf?_eq_of_carries hR hfo.2)

theorem isBytes_listing_of_error (hR : g.CarriesOver g' R) {e e' : ThrownError Value} (he : e.Resembles R e') :
    List.Forall₂ (fun e o => g.isBytes e.2 = g'.isBytes o.2) e.listing e'.listing := by
  have hname : List.Forall₂ (fun e o => g.isBytes e.2 = g'.isBytes o.2) e.listedName e'.listedName := by
    have hzip : Fields.Zip R [("name", e.name)] [("name", e'.name)] := .cons ⟨rfl, he.name⟩ .nil
    have hone := isBytes_mapValues hR hzip
    have hbody := he.body
    unfold ThrownError.listedName
    generalize e.body = b at hbody
    generalize e'.body = b' at hbody
    cases hbody with
    | host named =>
      cases named with
      | true => exact hone
      | false => exact .nil
    | library => exact hone
    | failure => exact hone
  have hcontext : List.Forall₂ (fun e o => g.isBytes e.2 = g'.isBytes o.2) e.listedContext e'.listedContext := by
    have hone {d d' : Document} (hd : d.Resembles R d') :
        List.Forall₂ (fun e o => g.isBytes e.2 = g'.isBytes o.2) [("context", d)] [("context", d')] := by
      refine .cons ?_ .nil
      cases hd with
      | existing hr => exact congrArg Option.isSome (bytesOf?_eq_of_carries hR hr)
      | @within d n hd =>
        cases d with
        | existing => cases hd
        | _ => rfl
    have hbody := he.body
    unfold ThrownError.listedContext
    generalize e.body = b at hbody
    generalize e'.body = b' at hbody
    cases hbody with
    | host => exact .nil
    | library sort _ hd => exact hone hd
    | failure _ hd => exact hone hd
  have hcause : e.listedCause.Zip R e'.listedCause := by
    unfold ThrownError.listedCause
    rw [he.listsCause]
    split
    · exact Fields.zip_optional "cause" he.cause
    · exact .nil
  exact List.rel_append (List.rel_append hname hcontext)
    (isBytes_mapValues hR ((he.body.properties.append hcause).append he.extra))

/-- What is listed of an error that stands for itself is bytes on both sides or on neither. -/
theorem isBytes_listing_of_kept (hR : g.CarriesOver g' R) {e : ThrownError Value} (he : ∀ v ∈ e.values, R v v) :
    List.Forall₂ (fun e o => g.isBytes e.2 = g'.isBytes o.2) e.listing e.listing := by
  refine List.forall₂_same.2 fun entry hentry => ?_
  obtain ⟨name, d⟩ := entry
  cases d with
  | existing v =>
    have hv := he v (ThrownError.mem_values_of_mem_listing hentry)
    exact congrArg Option.isSome (bytesOf?_eq_of_carries hR hv)
  | _ => rfl

theorem isBytes_listing_of_carries (hR : g.CarriesOver g' R) (hv : R v v') :
    List.Forall₂ (fun e o => g.isBytes e.2 = g'.isBytes o.2) (g.listing v) (g'.listing v') := by
  have hobject := hR.objectOf? hv
  -- what is listed of a list are its items, under their positions
  have hitems {ds ds' : List Document} (h : List.Forall₂ (fun d d' => g.isBytes d = g'.isBytes d') ds ds') :
      List.Forall₂ (fun e o => g.isBytes e.2 = g'.isBytes o.2) (Fields.ofItems ds) (Fields.ofItems ds') :=
    Fields.forall₂_ofItems (fun _ _ _ h => h) h
  unfold listing
  generalize g.objectOf? v = node at hobject
  generalize g'.objectOf? v' = node' at hobject
  cases hobject with
  | none => exact .nil
  | some hnn =>
    cases hnn with
    | error he => exact isBytes_listing_of_error hR he
    | kept hheld => exact isBytes_listing_of_kept hR hheld
    | moved hn =>
      cases hn with
      | record hf | sparse hf => exact isBytes_mapValues hR hf
      | list hi =>
        refine hitems (List.forall₂_map_left_iff.2 (List.forall₂_map_right_iff.2 (hi.imp fun w w' hw => ?_)))
        exact congrArg Option.isSome (bytesOf?_eq_of_carries hR hw)
      | bytes | numbers =>
        refine hitems (List.forall₂_same.2 fun d hd => ?_)
        obtain ⟨b, -, rfl⟩ := List.mem_map.1 hd
        rfl
      | boxed content =>
        cases content with
        | text s =>
          refine hitems (List.forall₂_same.2 fun d hd => ?_)
          obtain ⟨b, -, rfl⟩ := List.mem_map.1 hd
          rfl
        | _ => exact .nil
      | @error name name' message message' stack stack' cause cause' hname =>
        have hzip : Fields.Zip R [("name", name)] [("name", name')] := .cons ⟨rfl, hname⟩ .nil
        exact isBytes_mapValues hR hzip
      | _ => exact .nil

theorem isPayload_of_data {v : Value} (h : g.read v "data" = .undefined) : g.isPayload v = false := by
  unfold isPayload
  rw [h]
  rfl

/-- **Values that are carried over are payloads both or neither.** -/
theorem isPayload_eq_of_carries (hR : g.CarriesOver g' R) (hv : R v v') : g.isPayload v = g'.isPayload v' := by
  have hmetadata := read_of_carries hR hv "metadata"
  have hdata := bytesOf?_eq_of_carries hR (read_of_carries hR hv "data")
  have hobject : (g.objectOf? (g.read v "metadata")).isSome = (g'.objectOf? (g'.read v' "metadata")).isSome := by
    have hnode := hR.objectOf? hmetadata
    generalize g.objectOf? (g.read v "metadata") = node at hnode
    generalize g'.objectOf? (g'.read v' "metadata") = node' at hnode
    cases hnode <;> rfl
  have hentries := all_eq_of_forall₂ (isBytes_listing_of_carries hR hmetadata)
  rw [isPayload, isPayload, hdata, hobject, hentries]

end
end Graph

/-! ## Values that are decoded -/

/-- What payload text says is read off a graph. -/
theorem Payload.exists_fullDocument {host : Host} {j : Json} {d : Document} (h : ofJson host j = .ok d) :
    ∃ g v, d = Graph.fullDocument g v := by
  unfold ofJson at h
  split at h
  · cases h
  · dsimp only at h
    split at h
    · obtain ⟨legacy, -, h⟩ := FailureWire.Except.bind_eq_ok.1 h
      obtain ⟨d', -, h⟩ := FailureWire.Except.bind_eq_ok.1 h
      split at h
      · obtain ⟨legacy', -, h⟩ := FailureWire.Except.bind_eq_ok.1 h
        obtain ⟨g, -, h⟩ := FailureWire.Except.bind_eq_ok.1 h
        exact ⟨g, _, (Except.ok.inj h).symm⟩
      · exact ⟨_, _, (Except.ok.inj h).symm⟩
    · obtain ⟨d', -, h⟩ := FailureWire.Except.bind_eq_ok.1 h
      split at h
      · obtain ⟨legacy, -, h⟩ := FailureWire.Except.bind_eq_ok.1 h
        obtain ⟨g, -, h⟩ := FailureWire.Except.bind_eq_ok.1 h
        exact ⟨g, _, (Except.ok.inj h).symm⟩
      · exact ⟨_, _, (Except.ok.inj h).symm⟩

/-- What is read from text speaks of its own objects only. -/
def TextFormat.ReadsAnew (format : TextFormat) : Prop :=
  ∀ {s : List Char} {d : Document}, format.read s = .ok d → d.Within d.objectCount

theorem TextFormat.readsAnew_annotated (host : Host) : (annotated host).ReadsAnew := by
  intro s d h
  simp only [annotated, Payload.decodeText] at h
  split at h
  · split at h
    · obtain ⟨g, v, rfl⟩ := Payload.exists_fullDocument h
      exact Graph.within_fullDocument g v
    · cases h
  · cases h

namespace Codec

variable {host : Host}

/-- Values that cannot be told apart are encoded alike. -/
def Uniform (c : Codec) : Prop :=
  ∀ {g g' : Graph} {v v' : Value}, g.Indistinct g' v v' → c.encode g v = c.encode g' v'

/-- Values that are carried over are encoded alike. -/
def Steady (c : Codec) : Prop :=
  ∀ {g g' : Graph} {R : Value → Value → Prop} {v v' : Value}, g.CarriesOver g' R → R v v' →
    c.encode g v = c.encode g' v'

/-- Nothing but payloads is left as it is, and what is decoded speaks of its own objects only. -/
structure Lawful (c : Codec) : Prop where
  itself : ∀ {g : Graph} {v : Value}, c.encode g v = .ok .itself → g.isPayload v = true
  within : ∀ {p : Payload} {d : Document}, c.decode p = .ok (.value d) → d.Within d.objectCount

/-- What cannot be told apart is carried over. -/
theorem Steady.uniform {c : Codec} (hc : c.Steady) : c.Uniform := by
  rintro g g' v v' ⟨R, hR, hv⟩
  exact hc hR.carriesOver hv

theorem steady_ofFormat {format : TextFormat} : (ofFormat format).Steady := by
  intro g g' R v v' hR hv
  simp only [ofFormat]
  rw [Graph.isPayload_eq_of_carries hR hv, Graph.document_eq_of_carries hR hv]

theorem uniform_standard : (standard host).Uniform := Steady.uniform steady_ofFormat

theorem within_of_decodeData {format : TextFormat} (hformat : format.ReadsAnew) {data : Option Bytes} {d : Document}
    (h : decodeData format data = .ok (.value d)) : d.Within d.objectCount := by
  unfold decodeData at h
  split at h
  · obtain ⟨d', hd, h⟩ := FailureWire.Except.bind_eq_ok.1 h
    cases h
    exact hformat hd
  · cases h

theorem lawful_ofFormat {format : TextFormat} (hformat : format.ReadsAnew) : (ofFormat format).Lawful where
  itself {g v} h := by
    simp only [ofFormat] at h
    split at h
    · assumption
    · obtain ⟨text, -, h⟩ := FailureWire.Except.bind_eq_ok.1 h
      cases h
  within {p d} h := by
    simp only [ofFormat] at h
    split at h
    · exact within_of_decodeData hformat h
    · cases h

theorem lawful_standard : (standard host).Lawful := lawful_ofFormat (TextFormat.readsAnew_annotated host)

/-- **A decoded value is encoded the same way wherever it is put.** -/
theorem encode_of_placed {format : TextFormat} (hformat : format.ReadsAnew) {g g' : Graph} {p : Payload} {d : Document}
    {v : Value} (hd : (ofFormat format).decode p = .ok (.value d)) (hv : g.Placed g' d v) :
    (ofFormat format).encode g' v = (ofFormat format).encode (Graph.empty.add d).1 (Graph.empty.add d).2 := by
  have hwithin := (lawful_ofFormat hformat).within hd
  exact steady_ofFormat.uniform (Graph.indistinct_of_placed hwithin hv (Graph.empty.placed_add d))

end Codec
end FailureWire
