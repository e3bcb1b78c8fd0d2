import FailureWire.Proofs.Payload.Copy
import FailureWire.Proofs.Payload.Returning
import FailureWire.Proofs.Wire.Twins
import FailureWire.Proofs.Wire.Typed

/-!
# Details that are decoded twice

Details are encoded, and two graphs that have grown from theirs show the payloads. Then both read the same payloads
(`payloadOf_eq_of_encodeValue`), and what these are decoded to are counterparts, item by item
(`exists_counterparts`): one value that was encoded, or a payload that is kept as it is, which each graph has in
its own place. Counterparts become values that are the same, or one object that was there before
(`listsFrom_of_placed`).
-/

namespace FailureWire

/-! ## Counterparts -/

/-- Values of two graphs that have grown from one are an object of that one, or they are the same. -/
def Graph.SameFrom (g G G' : Graph) (v w : Value) : Prop := (v = w ∧ g.Holds v) ∨ G.Same G' v w

/-- Values of two graphs that have grown from one are lists whose items are objects of that one, or the same. -/
def Graph.ListsFrom (g G G' : Graph) (v w : Value) : Prop :=
  ∃ items others, G.objectOf? v = some (.list items) ∧ G'.objectOf? w = some (.list others) ∧
    List.Forall₂ (g.SameFrom G G') items others

/-- Documents that are decoded in two graphs are one document that speaks of its own objects only, or values of
these graphs. -/
inductive Document.Counterpart (g G G' : Graph) : Document → Document → Prop
  | within {d : Document} : d.Within d.objectCount → Counterpart g G G' d d
  | existing {v w : Value} : g.SameFrom G G' v w → Counterpart g G G' (.existing v) (.existing w)

/-! ## Payloads in larger graphs -/

theorem ThrownError.get?_encodingKey (e : ThrownError Value) :
    Fields.get? e.properties Payload.encodingKey = Fields.get? e.extra Payload.encodingKey := by
  have hoptional (name : String) (hname : name ≠ Payload.encodingKey) (a : Option Value) :
      Fields.get? (a.map fun a => (name, a)).toList Payload.encodingKey = none := by
    cases a <;> simp [Fields.get?, hname]
  have hbody (b : ErrorBody Value) : Fields.get? b.properties Payload.encodingKey = none := by
    cases b with
    | host named => rfl
    | library sort code context => rfl
    | failure code context f =>
      obtain ⟨display, stored, trace, kind⟩ := f
      cases kind <;> rfl
  rw [properties, classProperties, Fields.get?_append, Fields.get?_append, Fields.get?_append, Fields.get?_append,
    hoptional "stack" (by decide), hoptional "cause" (by decide), hbody]
  rfl

namespace Graph

variable {g g' : Graph} {v w : Value}

theorem memoryOf?_eq_of_le (h : g ≤ g') (hv : g.Holds v) : g'.memoryOf? v = g.memoryOf? v := by
  rw [memoryOf?, memoryOf?, objectOf?_eq_of_le h hv]

theorem mem_listing_of_encoding (hw : g.get? v Payload.encodingKey = some w) :
    (Payload.encodingKey, .existing w) ∈ g.listing v := by
  unfold get? at hw
  unfold listing
  split at hw
  next fields hn =>
    rw [hn]
    exact List.mem_map.2 ⟨_, Fields.mem_of_get? hw, rfl⟩
  next e hn =>
    rw [hn]
    rw [ThrownError.get?_encodingKey] at hw
    refine List.mem_append_right _ (List.mem_map.2 ⟨(Payload.encodingKey, w), ?_, rfl⟩)
    exact List.mem_append_right _ (Fields.mem_of_get? hw)
  next => cases hw

/-- **What is a payload is read as the same payload in every larger graph.** -/
theorem payloadOf_eq_of_le (h : g ≤ g') (hv : g.isPayload v = true) : g'.payloadOf v = g.payloadOf v := by
  have hholds := holds_of_isPayload hv
  simp only [isPayload, Bool.and_eq_true, List.all_eq_true] at hv
  obtain ⟨⟨hdata, hmetadata⟩, hentries⟩ := hv
  obtain ⟨n, hn⟩ := Option.isSome_iff_exists.1 hmetadata
  have hbytes {d : Document} (hd : g.isBytes d = true) : ∀ x, d = .existing x → g'.memoryOf? x = g.memoryOf? x := by
    rintro x rfl
    obtain ⟨data, hdata⟩ := Option.isSome_iff_exists.1 hd
    exact memoryOf?_eq_of_le h (holds_of_objectOf? (bytesOf?_eq_some.1 hdata))
  have hall : g'.metadataOf (g.read v "metadata") = g.metadataOf (g.read v "metadata") := by
    rw [metadataOf, metadataOf, listing_eq_of_le h hn]
    refine List.filterMap_congr fun entry hentry => ?_
    obtain ⟨name, d⟩ := entry
    cases d with
    | existing x =>
      dsimp only
      rw [hbytes (hentries _ hentry) x rfl]
    | _ => rfl
  have hencoding : g'.memoryOf? (g.read (g.read v "metadata") Payload.encodingKey) =
      g.memoryOf? (g.read (g.read v "metadata") Payload.encodingKey) := by
    cases hx : g.get? (g.read v "metadata") Payload.encodingKey with
    | none =>
      rw [read_eq_undefined hx]
      rfl
    | some x =>
      rw [read_eq_of_get? hx]
      exact hbytes (hentries _ (mem_listing_of_encoding hx)) x rfl
  have hmemory : g'.memoryOf? (g.read v "data") = g.memoryOf? (g.read v "data") :=
    hbytes (d := .existing (g.read v "data")) hdata _ rfl
  rw [payloadOf, payloadOf, readOf, readOf, read_eq_of_le h hholds, read_eq_of_le h hholds]
  split
  · rfl
  · rw [Except.ok_bind, Except.ok_bind, readOf, readOf, read_eq_of_le h (holds_of_objectOf? hn),
      isMissing_of_objectOf? hn]
    simp only [Bool.false_eq_true, if_false, Except.ok_bind, hencoding, hall, hmemory]

end Graph

/-! ## Payloads of details -/

namespace Codec

/-- What the payloads of details are written as: each of them is that of a value. Numeric arrays have no place for
payloads. -/
inductive Payloads (c : Codec) (g : Graph) : Document → Prop
  | list {ps : List Document} : (∀ p ∈ ps, ∃ x, c.encodeValue g x = .ok p) → Payloads c g (.list ps)
  | sparse {ps : Fields Document} : (∀ p ∈ ps, ∃ x, c.encodeValue g x = .ok p.2) → Payloads c g (.sparse ps)
  | bytes (b : UInt8) (data : Bytes) : Payloads c g (.bytes (b :: data))
  | numbers (element : ElementType) (n : Number) (items : List Number) : Payloads c g (.numbers element (n :: items))

variable {c : Codec} {g : Graph}

/-- **Details that are encoded are encoded as payloads**, if they are encoded at all. -/
theorem payloads_of_encodeDetails {v : Value} {d : Document} (h : c.encodeDetails g (.existing v) = .ok (some d)) :
    ∃ ps, d = payloadsDocument ps ∧ c.Payloads g ps := by
  by_cases hsequence : (g.objectOf? v).all (!·.isSequence) = true
  · cases encodeDetails_of_not_sequence hsequence h
  rw [encodeDetails, Graph.add_existing] at h
  cases hn : g.objectOf? v with
  | none => simp [hn] at hsequence
  | some n =>
    rw [hn] at hsequence
    simp only [hn] at h
    cases n with
    | list items =>
      cases items with
      | nil => cases h
      | cons x rest =>
        obtain ⟨ps, hps, h⟩ := Except.bind_eq_ok.1 h
        cases h
        refine ⟨_, rfl, .list fun p hp => ?_⟩
        obtain ⟨y, -, hy⟩ := exists_of_forall₂ (Except.mapM_eq_ok.1 hps) hp
        exact ⟨y, hy⟩
    | sparse fields =>
      dsimp only at h
      split at h
      · cases h
      · obtain ⟨ps, hps, h⟩ := Except.bind_eq_ok.1 h
        cases h
        refine ⟨_, rfl, .sparse fun p hp => ?_⟩
        obtain ⟨f, -, hf⟩ := exists_of_forall₂ (Except.mapM_eq_ok.1 hps) hp
        obtain ⟨d, hd, hf⟩ := Except.bind_eq_ok.1 hf
        cases hf
        exact ⟨f.2, hd⟩
    | bytes data =>
      cases data with
      | nil => cases h
      | cons b rest =>
        obtain ⟨_, -, h⟩ := Except.bind_eq_ok.1 h
        cases h
        exact ⟨_, rfl, .bytes ..⟩
    | numbers element items =>
      cases items with
      | nil => cases h
      | cons n rest =>
        obtain ⟨_, -, h⟩ := Except.bind_eq_ok.1 h
        cases h
        exact ⟨_, rfl, .numbers ..⟩
    | _ => exact absurd rfl hsequence

/-- Payloads can be decoded wherever they are shown. -/
def DecodesDetails (c : Codec) (g : Graph) (d : Document) : Prop :=
  ∀ g' first w, g ≤ g' → g'.Shows first d w → ∃ items, c.decodeDetails g' (some w) = .ok items

/-- What details are written as, if that can be decoded again. -/
def Conveyed (c : Codec) (g : Graph) (d : Document) : Prop :=
  (∃ v, c.encodeDetails g (.existing v) = .ok (some d)) ∧ c.DecodesDetails g d

/-- **Details can be encoded and decoded.** -/
def Conveys (c : Codec) (g : Graph) (details : Value) : Prop :=
  ∃ r, c.encodeDetails g (.existing details) = .ok r ∧ ∀ d, r = some d → c.DecodesDetails g d

end Codec

/-! ## Payloads in two graphs -/

theorem Fields.Zip.forall₂_slotsFrom {α : Type} {R : α → α → Prop} {gap gap' : α} (hgap : R gap gap') :
    ∀ {fields others : Fields α} {i : Nat}, fields.Zip R others →
      List.Forall₂ R (fields.slotsFrom gap i) (others.slotsFrom gap' i)
  | [], _, _, h => by
    cases h
    exact .nil
  | (name, a) :: rest, _, i, h => by
    obtain ⟨⟨name', b⟩, others, ⟨rfl, hab⟩, hrest, rfl⟩ := List.forall₂_cons_left_iff.1 h
    simp only [slotsFrom]
    split
    next p hp =>
      refine List.rel_append ?_ (.cons hab (forall₂_slotsFrom hgap hrest))
      rw [List.forall₂_iff_get]
      simpa using fun _ _ => hgap
    next => exact forall₂_slotsFrom hgap hrest

namespace Codec

/-- Two graphs show the payload of one value. -/
def ShownBy (c : Codec) (g G G' : Graph) (first first' : ObjectId) (y z : Value) : Prop :=
  ∃ x p, c.encodeValue g x = .ok p ∧ G.Shows first p y ∧ G'.Shows first' p z

section
variable {c : Codec} {g G G' : Graph} {first first' : ObjectId}

/-- A payload is read as the same one in both graphs, and is the same in both. -/
theorem payloadOf_eq_of_encodeValue (hl : c.Lawful) (hle : g ≤ G) (hle' : g ≤ G') {y z : Value}
    (h : c.ShownBy g G G' first first' y z) : G.payloadOf y = G'.payloadOf z ∧ g.SameFrom G G' y z := by
  obtain ⟨x, p, hp, hy, hz⟩ := h
  obtain ⟨encoded, hencoded, hp⟩ := Except.bind_eq_ok.1 hp
  cases encoded with
  | itself =>
    cases hp
    cases hy
    cases hz
    have hpayload := hl.itself hencoded
    rw [Graph.payloadOf_eq_of_le hle hpayload, Graph.payloadOf_eq_of_le hle' hpayload]
    exact ⟨rfl, .inl ⟨rfl, Graph.holds_of_isPayload hpayload⟩⟩
  | payload p =>
    cases hp
    rw [Graph.payloadOf_eq_of_shows hy, Graph.payloadOf_eq_of_shows hz]
    exact ⟨rfl, .inr (Graph.twins_payload p y z hy hz)⟩

/-- **A payload is decoded to counterparts.** -/
theorem counterpart_of_decodeValue (hl : c.Lawful) (hle : g ≤ G) (hle' : g ≤ G') {y z : Value} {d d' : Document}
    (h : c.ShownBy g G G' first first' y z) (hd : c.decodeValue G y = .ok d) (hd' : c.decodeValue G' z = .ok d') :
    d.Counterpart g G G' d' := by
  obtain ⟨hread, hsame⟩ := payloadOf_eq_of_encodeValue hl hle hle' h
  rw [decodeValue, hread] at hd
  obtain ⟨p, hp, hd⟩ := Except.bind_eq_ok.1 hd
  obtain ⟨p', hp', hd'⟩ := Except.bind_eq_ok.1 hd'
  obtain rfl : p = p' := Except.ok.inj (hp.symm.trans hp')
  obtain ⟨decoded, hdecoded, hd⟩ := Except.bind_eq_ok.1 hd
  obtain ⟨decoded', hdecoded', hd'⟩ := Except.bind_eq_ok.1 hd'
  obtain rfl : decoded = decoded' := Except.ok.inj (hdecoded.symm.trans hdecoded')
  cases decoded with
  | itself =>
    cases hd
    cases hd'
    exact .existing hsame
  | value d =>
    cases hd
    cases hd'
    exact .within (hl.within hdecoded)

theorem forall₂_payloadsOf {v w w' : Value} {d : Document} {slots slots' : List (Option Value)}
    (h : c.encodeDetails g (.existing v) = .ok (some d)) (hw : G.Shows first d w) (hw' : G'.Shows first' d w')
    (hslots : G.payloadsOf w = .ok slots) (hslots' : G'.payloadsOf w' = .ok slots') :
    List.Forall₂ (Option.Rel (c.ShownBy g G G' first first')) slots slots' := by
  obtain ⟨ps, rfl, hps⟩ := payloads_of_encodeDetails h
  have hshown : G.Shows first ps (G.read w "payloads") := (G.reading_shows first).read hw "payloads" rfl
  have hshown' : G'.Shows first' ps (G'.read w' "payloads") := (G'.reading_shows first').read hw' "payloads" rfl
  rw [Graph.payloadsOf] at hslots hslots'
  cases hps with
  | @list ps hps =>
    obtain ⟨values, hvalues, hitems⟩ := hshown
    obtain ⟨values', hvalues', hitems'⟩ := hshown'
    rw [hvalues] at hslots
    rw [hvalues'] at hslots'
    cases hslots
    cases hslots'
    rw [List.forall₂_map_left_iff, List.forall₂_map_right_iff]
    have hself : List.Forall₂ (fun p q => p = q ∧ ∃ x, c.encodeValue g x = .ok p) ps ps :=
      List.forall₂_same.2 fun p hp => ⟨rfl, hps p hp⟩
    refine forall₂_square (fun p q y z hpq hy hz => ?_) hself hitems.forall₂ hitems'.forall₂
    obtain ⟨rfl, x, hx⟩ := hpq
    exact .some ⟨x, p, hx, hy, hz⟩
  | @sparse ps hps =>
    obtain ⟨values, hvalues, hfields⟩ := hshown
    obtain ⟨values', hvalues', hfields'⟩ := hshown'
    rw [hvalues] at hslots
    rw [hvalues'] at hslots'
    cases hslots
    cases hslots'
    refine Fields.Zip.forall₂_slotsFrom .none (List.forall₂_map_left_iff.2 (List.forall₂_map_right_iff.2 ?_))
    have hself : List.Forall₂ (fun p q => p = q ∧ ∃ x, c.encodeValue g x = .ok p.2) ps ps :=
      List.forall₂_same.2 fun p hp => ⟨rfl, hps p hp⟩
    refine forall₂_square (fun p q y z hpq hy hz => ?_) hself hfields.zip hfields'.zip
    obtain ⟨rfl, x, hx⟩ := hpq
    exact ⟨hy.1.symm.trans hz.1, .some ⟨x, p.2, hx, hy.2, hz.2⟩⟩
  | bytes b data =>
    have hvalues : G.objectOf? (G.read w "payloads") = some (.bytes (b :: data)) := hshown
    rw [hvalues] at hslots
    cases hslots
  | numbers element n items =>
    have hvalues : G.objectOf? (G.read w "payloads") = some (.numbers element (n :: items)) := hshown
    rw [hvalues] at hslots
    cases hslots

/-- **Details that are conveyed are decoded to counterparts**, item by item. -/
theorem exists_counterparts (hl : c.Lawful) (hle : g ≤ G) (hle' : g ≤ G') {details : Option Document}
    {w w' : Option Value} (hd : ∀ d, details = some d → c.Conveyed g d) (hw : Option.Rel (G.Shows first) details w)
    (hw' : Option.Rel (G'.Shows first') details w') :
    ∃ ds ds', c.decodeDetails G w = .ok (Document.alignFrom 1 ds) ∧
      c.decodeDetails G' w' = .ok (Document.alignFrom 1 ds') ∧
        List.Forall₂ (Document.Counterpart g G G') ds ds' := by
  cases hw with
  | none =>
    cases hw'
    exact ⟨[], [], rfl, rfl, .nil⟩
  | @some d w hw =>
    cases hw' with
    | some hw' =>
      obtain ⟨⟨v, hv⟩, hdecodes⟩ := hd d rfl
      obtain ⟨items, hitems⟩ := hdecodes G first w hle hw
      obtain ⟨items', hitems'⟩ := hdecodes G' first' _ hle' hw'
      obtain ⟨slots, hslots, hitems⟩ := Except.bind_eq_ok.1 hitems
      obtain ⟨slots', hslots', hitems'⟩ := Except.bind_eq_ok.1 hitems'
      obtain ⟨ds, hds, hitems⟩ := Except.bind_eq_ok.1 hitems
      obtain ⟨ds', hds', hitems'⟩ := Except.bind_eq_ok.1 hitems'
      refine ⟨ds, ds', ?_, ?_, ?_⟩
      · exact Except.bind_eq_ok.2 ⟨slots, hslots, Except.bind_eq_ok.2 ⟨ds, hds, rfl⟩⟩
      · exact Except.bind_eq_ok.2 ⟨slots', hslots', Except.bind_eq_ok.2 ⟨ds', hds', rfl⟩⟩
      refine forall₂_square (fun y z d d' hyz hy hz => ?_) (forall₂_payloadsOf hv hw hw' hslots hslots')
        (Except.mapM_eq_ok.1 hds) (Except.mapM_eq_ok.1 hds')
      cases hyz with
      | none =>
        cases hy
        cases hz
        exact .within trivial
      | some hyz => exact counterpart_of_decodeValue hl hle hle' hyz hy hz

end
end Codec

/-! ## Counterparts in two graphs -/

namespace Graph

variable {g G G' H H' : Graph} {v w : Value}

theorem SameFrom.mono (hle : G ≤ H) (hle' : G' ≤ H') (h : g.SameFrom G G' v w) : g.SameFrom H H' v w := by
  rcases h with hsame | hsame
  · exact .inl hsame
  · exact .inr (hsame.mono hle hle')

/-- Counterparts become values that are the same, or one object. -/
theorem sameFrom_of_placed {d d' : Document} (h : d.Counterpart g G G' d') (hv : G.Placed H d v)
    (hw : G'.Placed H' d' w) : g.SameFrom H H' v w := by
  cases h with
  | within hd => exact .inr (indistinct_of_placed hd hv hw).same
  | existing hsame =>
    have hle := hv.le
    have hle' := hw.le
    obtain ⟨between, -, -, rfl⟩ := hv
    obtain ⟨between', -, -, rfl⟩ := hw
    exact hsame.mono hle hle'

/-- **Lists of counterparts become lists whose items are the same.** -/
theorem listsFrom_of_placed {ds ds' : List Document} (h : List.Forall₂ (Document.Counterpart g G G') ds ds')
    (hv : G.Placed H (.list (Document.alignFrom 1 ds)) v) (hw : G'.Placed H' (.list (Document.alignFrom 1 ds')) w) :
    g.ListsFrom H H' v w := by
  obtain ⟨values, hvalues, hplaced⟩ := hv.items
  obtain ⟨values', hvalues', hplaced'⟩ := hw.items
  refine ⟨values, values', hvalues, hvalues', forall₂_square (fun d d' x y hd hx hy => ?_) h hplaced hplaced'⟩
  exact sameFrom_of_placed hd hx hy

end Graph
end FailureWire
