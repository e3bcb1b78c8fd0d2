import FailureWire.Proofs.Conversion.Agreement
import FailureWire.Proofs.Conversion.Decoding
import FailureWire.Proofs.Payload.Counterparts
import FailureWire.Proofs.Wire.Kept

/-!
# Failures that are parsed first

Nothing that parsing leaves out of a wire failure is read when the failure is received. So it makes no difference to
the errors whether a failure was parsed before: both chains have the same length, and their errors differ in the wire
failures that they keep and in nothing else. Information of a case that the format does not know, whatever it holds,
is received as if it were not set.

There is one thing to look out for. A payload in a foreign encoding is kept as it is, and a payload is decoded by its
metadata; so payloads must be such that parsing leaves nothing of them out (`g.IsPurePayload p`). Then what is kept of
one is decoded like it (`decodeValue_of_kept`), or is deeply equal to it.
-/

namespace FailureWire

/-! ## Payloads -/

/-- A payload has no properties but metadata and data, and no entry of the metadata is called `__proto__`. -/
structure Graph.IsPurePayload (g : Graph) (p : Value) : Prop where
  only : ∀ name, name ∉ ["metadata", "data"] → g.get? p name = none
  entries : g.get? (g.read p "metadata") "__proto__" = none

/-- Documents that are decoded in two graphs are one document that speaks of its own objects only, or values that are
deeply equal. -/
inductive Document.Alike (g g' : Graph) : Document → Document → Prop
  | within {d : Document} : d.Within d.objectCount → Alike g g' d d
  | existing {p q : Value} : g.Holds p → g'.Alike p q → Alike g g' (.existing p) (.existing q)

/-- Details are lists of documents that are alike. -/
inductive Document.AlikeLists (g g' : Graph) : Document → Document → Prop
  | list {ds ds' : List Document} : List.Forall₂ (Document.Alike g g') ds ds' →
    AlikeLists g g' (.list (alignFrom 1 ds)) (.list (alignFrom 1 ds'))

/-- What a codec decodes speaks of its own objects only. -/
def Codec.DecodesAnew (c : Codec) : Prop := ∀ p d, c.decode p = .ok (.value d) → d.Within d.objectCount

theorem Codec.Lawful.decodesAnew {c : Codec} (hl : c.Lawful) : c.DecodesAnew := fun _ _ => hl.within

namespace Graph

variable {g g' : Graph} {first : ObjectId} {p q : Value}

theorem isRecord_or_isError {v w : Value} {name : String} (h : g.get? v name = some w) :
    (∃ own, g.objectOf? v = some (.record own)) ∨ ∃ e, g.errorOf? v = some e := by
  unfold Graph.get? at h
  split at h
  next own hown => exact .inl ⟨own, hown⟩
  next e he => exact .inr ⟨e, errorOf?_eq_some.2 he⟩
  next => cases h

/-- **A pure payload is one that parsing leaves nothing out of.** -/
theorem IsPurePayload.exact (hpure : g.IsPurePayload p) (h : g.IsWirePayload p) : g.Exact Schema.payload p := by
  obtain ⟨-, ⟨fields, hfields, hbytes⟩, hdata⟩ := h
  have hrecord := recordOf?_eq_some.1 hfields
  obtain ⟨w, hw⟩ : ∃ w, g.get? p "metadata" = some w := Option.ne_none_iff_exists'.1 fun hnone => by
    rw [read_eq_undefined hnone] at hrecord
    cases hrecord
  have hother := hpure.only
  obtain ⟨own, hown⟩ : ∃ own, g.objectOf? p = some (.record own) := by
    refine (isRecord_or_isError hw).resolve_right ?_
    rintro ⟨e, he⟩
    have hname := hother "name" (by decide)
    rw [get?_of_error he] at hname
    cases hname
  refine ⟨⟨own, hown, fun name hname => ?_⟩, ⟨fields, hrecord, fun f hf => ?_⟩, hdata, trivial⟩
  · rw [← get?_of_record hown]
    exact hother name hname
  · have hproto : f.1 ≠ "__proto__" := by
      have hentries := hpure.entries
      rw [get?_of_record hrecord, Fields.get?_eq_none_iff] at hentries
      exact fun heq => hentries (heq ▸ List.mem_map_of_mem hf)
    exact ⟨hproto, hbytes f hf hproto⟩

/-- A payload with nothing else in it is typed. -/
theorem ofShape_of_exact (h : g.Exact Schema.payload p) : g.OfShape Schema.payload p := by
  obtain ⟨honly, ⟨fields, hfields, hbytes⟩, hdata, -⟩ := h
  refine ⟨honly.isKeyed, ⟨fields, recordOf?_eq_some.2 hfields, fun f hf => ?_⟩, ?_, trivial⟩
  · exact Option.isSome_iff_exists.1 (hbytes f hf).2
  · exact Option.isSome_iff_exists.1 hdata

theorem payloadOf_congr {fields : Fields Value} (hp : g.isKeyed p = true) (hq : g.isKeyed q = true)
    (hmetadata : g.objectOf? (g.read p "metadata") = some (.record fields))
    (hmetadata' : g.objectOf? (g.read q "metadata") = some (.record fields))
    (hdata : g.read q "data" = g.read p "data") : g.payloadOf q = g.payloadOf p := by
  have hread {m : Value} (hm : g.objectOf? m = some (.record fields)) (name : String) :
      g.readOf m name = .ok (.ofOption (fields.get? name)) := by
    rw [readOf, isMissing_of_objectOf? hm, read, get?_of_record hm]
    rfl
  have hentries : g.metadataOf (g.read q "metadata") = g.metadataOf (g.read p "metadata") := by
    rw [metadataOf, metadataOf, listing, listing, hmetadata, hmetadata']
  rw [payloadOf, payloadOf, readOf_of_isKeyed hp, readOf_of_isKeyed hq, Except.ok_bind, Except.ok_bind,
    hread hmetadata, hread hmetadata', hentries, hdata]

/-- **What is kept of a payload is read as the same payload.** -/
theorem Kept.payloadOf_eq (hle : g ≤ g') (h : g.Kept g' first Schema.payload p q) (hexact : g.Exact Schema.payload p) :
    g'.payloadOf q = g.payloadOf p := by
  obtain ⟨hkeyed, hkeyed', hmetadata, hdata, -⟩ := h.fields (by decide)
  have hshape := ofShape_of_exact hexact
  obtain ⟨⟨own, hown, -⟩, ⟨fields, hfields, hbytes⟩, -, -⟩ := hexact
  have hfiltered : fields.filter (fun f => f.1 ≠ "__proto__") = fields :=
    List.filter_eq_self.2 fun f hf => decide_eq_true (hbytes f hf).1
  have hcopied : g'.objectOf? (g'.read q "metadata") = some (.record fields) := by
    obtain ⟨copies, hcopies, hshown⟩ : g'.Shows first
        (g.trim (.table .bytes) (g.read p "metadata")) (g'.read q "metadata") := hmetadata.2
    simp only [recordOf?_eq_some.2 hfields, Option.getD_some, hfiltered] at hshown
    have hsame : List.Forall₂ (fun f c => f = c) fields copies := by
      refine (List.forall₂_map_left_iff.1 hshown.zip).imp fun f c ⟨hname, hvalue⟩ => ?_
      exact Prod.ext hname (Eq.symm hvalue)
    rw [List.forall₂_eq_eq_eq] at hsame
    rwa [hsame]
  have hholds := holds_of_objectOf? hown
  rw [← payloadOf_eq_of_le hle (isPayload_of_ofShape hshape)]
  have hstands : g'.objectOf? (g'.read p "metadata") = some (.record fields) := by
    rw [read_eq_of_le hle hholds]
    exact objectOf?_of_le hle hfields
  refine payloadOf_congr ?_ hkeyed' hstands hcopied ?_
  · rw [isKeyed, objectOf?_of_le hle hown]
  · rw [read_eq_of_le hle hholds]
    exact hdata.2

theorem Kept.read_message (h : g.Kept g' first Schema.payload p q) : g'.read q "message" = .undefined := by
  have hmessage := (g'.reading_shows first).get? h.2 "message"
  rw [get?_trimFields_of_not_mem (by decide)] at hmessage
  generalize hfound : g'.get? q "message" = found at hmessage
  cases hmessage
  exact read_eq_undefined hfound

end Graph

/-! ## Decoding -/

namespace Codec

variable {c : Codec} {g g' : Graph} {first : ObjectId} {p q : Value}

/-- **What is kept of a payload is decoded like the payload**: both to one document, or each to itself. -/
theorem decodeValue_of_kept (hle : g ≤ g') (h : g.Kept g' first Schema.payload p q) (hpure : g.IsPurePayload p)
    (hdecodes : c.Decodes g p) :
    ∃ d d', c.decodeValue g p = .ok d ∧ c.decodeValue g' q = .ok d' ∧
      ((d = .existing p ∧ d' = .existing q) ∨ (d = d' ∧ ∃ payload, c.decode payload = .ok (.value d))) := by
  have hexact := hpure.exact (Graph.conforms_payload.1 h.1)
  obtain ⟨metadata, data, hread⟩ := Graph.payloadOf_of_ofShape (Graph.ofShape_of_exact hexact)
  obtain ⟨decoded, hdecoded⟩ := hdecodes _ hread
  have hread' := (h.payloadOf_eq hle hexact).trans hread
  rw [decodeValue, decodeValue, hread, hread', Except.ok_bind, Except.ok_bind, hdecoded]
  cases decoded with
  | itself => exact ⟨_, _, rfl, rfl, .inl ⟨rfl, rfl⟩⟩
  | value d => exact ⟨d, d, rfl, rfl, .inr ⟨rfl, _, hdecoded⟩⟩

theorem alike_of_decodeSlot (hc : c.DecodesAnew) (hle : g ≤ g') (h : g.Kept g' first Schema.payload p q)
    (hpure : g.IsPurePayload p) (hdecodes : c.Decodes g p) :
    ∃ d d', c.decodeSlot g (some p) = .ok d ∧ c.decodeSlot g' (some q) = .ok d' ∧ d.Alike g g' d' := by
  obtain ⟨d, d', hd, hd', hcases⟩ := decodeValue_of_kept hle h hpure hdecodes
  refine ⟨d, d', hd, hd', ?_⟩
  rcases hcases with ⟨rfl, rfl⟩ | ⟨rfl, payload, hvalue⟩
  · have hexact := hpure.exact (Graph.conforms_payload.1 h.1)
    obtain ⟨⟨own, hown, -⟩, -⟩ := id hexact
    exact .existing (Graph.holds_of_objectOf? hown) (Graph.renders_trim hle (by decide) hexact q h.2)
  · exact .within (hc _ _ hvalue)

/-- **Details and what is kept of them are decoded alike**, item by item. -/
theorem decodeDetails_of_kept (hc : c.DecodesAnew) (hle : g ≤ g') {details details' : Option Value}
    (h : Option.Rel (g.Kept g' first Schema.payloads) details details')
    (hp : ∀ p ∈ (details.bind fun d => g.listOf? (g.read d "payloads")).getD [], g.IsPurePayload p ∧ c.Decodes g p) :
    ∃ ds ds', c.decodeDetails g details = .ok (Document.alignFrom 1 ds) ∧
      c.decodeDetails g' details' = .ok (Document.alignFrom 1 ds') ∧ List.Forall₂ (Document.Alike g g') ds ds' := by
  cases h with
  | none => exact ⟨[], [], rfl, rfl, .nil⟩
  | @some d d' hd =>
    obtain ⟨hkeyed, -, hpayloads, -⟩ := hd.fields (by decide)
    obtain ⟨items, items', hitems, hitems', hkept⟩ := hpayloads.items
    rw [Option.bind_some, hitems, Option.getD_some] at hp
    have htyped : g.OfShape Schema.payloads d := by
      refine ⟨hkeyed, ⟨items, hitems, fun p hmem => ?_⟩, trivial⟩
      obtain ⟨q, -, hpq⟩ := exists_of_forall₂ hkept.flip hmem
      exact Graph.ofShape_of_exact ((hp p hmem).1.exact (Graph.conforms_payload.1 hpq.1))
    obtain ⟨_, hlisted, hread, -⟩ := Graph.payloadsOf_of_ofShape htyped
    obtain rfl := Option.some.inj (hitems.symm.trans hlisted)
    have hread' : g'.payloadsOf d' = .ok (items'.map some) := by
      rw [Graph.payloadsOf, hitems']
    have hdecoded : List.Forall₂ (fun p q => ∃ d d', c.decodeSlot g (some p) = .ok d ∧
        c.decodeSlot g' (some q) = .ok d' ∧ d.Alike g g' d') items items' :=
      ((List.forall₂_and_left _ _).2 ⟨hp, hkept⟩).imp fun p q hpq =>
        alike_of_decodeSlot hc hle hpq.2 hpq.1.1 hpq.1.2
    obtain ⟨ds, ds', hds, hds', halike⟩ := exists_forall₂_square hdecoded
    refine ⟨ds, ds', ?_, ?_, halike⟩
    · rw [decodeDetails, hread, Except.ok_bind, Except.mapM_eq_ok.2 (List.forall₂_map_left_iff.2 hds)]
      rfl
    · rw [decodeDetails, hread', Except.ok_bind, Except.mapM_eq_ok.2 (List.forall₂_map_left_iff.2 hds')]
      rfl

end Codec

/-! ## Kinds -/

namespace FailureInfo

variable {c : Codec} {g g' : Graph} {first : ObjectId} {info info' : FailureInfo Value}

theorem delayOf_of_kept {delay delay' : Option Value} (h : Option.Rel (g.Kept g' first Schema.duration) delay delay') :
    ∃ ms, g.delayOf delay = .ok ms ∧ g'.delayOf delay' = .ok ms := by
  cases h with
  | none => exact ⟨_, rfl, rfl⟩
  | some hd =>
    obtain ⟨hkeyed, hkeyed', hseconds, hnanos, -⟩ := hd.fields (by decide)
    obtain ⟨⟨seconds, hs, -⟩, hs'⟩ := hseconds
    obtain ⟨⟨nanos, _, hn, -⟩, hn'⟩ := hnanos
    have hs' := Eq.trans hs' hs
    have hn' := Eq.trans hn' hn
    have hnumber (g : Graph) (n : Number) : g.toNumber (.number n) = .ok n := rfl
    simp only [Graph.delayOf, Graph.durationOf, Graph.readOf_of_isKeyed hkeyed, Graph.readOf_of_isKeyed hkeyed', hs,
      hn, hs', hn', Except.ok_bind, hnumber]
    exact ⟨_, rfl, rfl⟩

/-- **Details that are kept are decoded alike**, and delays are the same. -/
theorem decodesBoth_of_kept (hc : c.DecodesAnew) (hle : g ≤ g')
    (hp : ∀ p ∈ (info.details?.bind fun d => g.listOf? (g.read d "payloads")).getD [],
      g.IsPurePayload p ∧ c.Decodes g p) :
    c.DecodesBoth g g' (Document.AlikeLists g g') info info' (g.Kept g' first Schema.payloads)
      (g.Kept g' first Schema.duration) where
  nothing := .list .nil
  details h := by
    obtain ⟨ds, ds', hds, hds', halike⟩ := Codec.decodeDetails_of_kept hc hle h hp
    exact ⟨_, _, hds, hds', .list halike⟩
  delay := delayOf_of_kept

end FailureInfo

/-! ## Links -/

/-- What documents that speak of their own objects only hold of a message and a stack trace is the same in every
graph. -/
theorem CommonAttributes.ofDocument?_of_within (g g' : Graph) {d : Document} {n : Nat} (h : d.Within n) :
    ofDocument? g d = ofDocument? g' d := by
  unfold ofDocument?
  cases d with
  | existing v => exact h.elim
  | error name message cause stack => cases message <;> rfl
  | _ => rfl

namespace ConverterOptions

open Logged

variable {r : ConverterOptions} {g g' : Graph} {first : ObjectId} {x w : Value}

/-- **The message and the stack trace of a link that is kept are those of the link.** -/
theorem attributes_of_keptLink (hc : r.codec.DecodesAnew) (hle : g ≤ g') (h : g.KeptLink g' first x w)
    (hp : ∀ p, g.truthyAt x "encodedAttributes" = some p → g.IsPurePayload p ∧ r.codec.Decodes g p) :
    (r.attributesOf g x).Gives (r.attributesAt g x) ∧ (r.attributesOf g' w).Gives (r.attributesAt g x) ∧
      (r.attributesAt g x).message.IsText := by
  obtain ⟨hmessage, -, htrace, hattributes, -⟩ := h.leading
  have hmissing {v : Value} (hv : v.id?.isSome) : v.isMissing = false := by
    cases v with
    | object id => rfl
    | _ => cases hv
  have hplain : CommonAttributes.plain g' w = .plain g x := by
    have hm : g'.read w "message" = g.read x "message" := hmessage.2
    rw [CommonAttributes.plain, CommonAttributes.plain, hm, htrace.optionalText]
  have hkept := hattributes.truthyAt (by decide)
  have hboth : (∀ p, g.truthyAt x "encodedAttributes" = some p → ∃ d, r.codec.decodeValue g p = .ok d) ∧
      (∀ q, g'.truthyAt w "encodedAttributes" = some q → ∃ d, r.codec.decodeValue g' q = .ok d) ∧
        r.attributesAt g' w = r.attributesAt g x := by
    unfold attributesAt decodedAttributes?
    rw [hplain]
    generalize g.truthyAt x "encodedAttributes" = payload at hp hkept ⊢
    generalize g'.truthyAt w "encodedAttributes" = payload' at hkept ⊢
    cases hkept with
    | none => refine ⟨?_, ?_, rfl⟩ <;> rintro _ ⟨⟩
    | @some p q hpq =>
      obtain ⟨hpure, hdecodes⟩ := hp p rfl
      obtain ⟨d, d', hd, hd', hcases⟩ := Codec.decodeValue_of_kept hle hpq hpure hdecodes
      refine ⟨by rintro _ ⟨⟩; exact ⟨d, hd⟩, by rintro _ ⟨⟩; exact ⟨d', hd'⟩, ?_⟩
      simp only [Option.bind_some, hd, hd']
      rcases hcases with ⟨rfl, rfl⟩ | ⟨rfl, payload, hvalue⟩
      · -- a payload holds no message
        have hnone : g.read p "message" = .undefined := Graph.read_eq_undefined (hpure.only "message" (by decide))
        simp only [CommonAttributes.ofDocument?, hnone, hpq.read_message]
        rfl
      · rw [CommonAttributes.ofDocument?_of_within g' g (hc _ _ hvalue)]
  obtain ⟨hx, hw, hsame⟩ := hboth
  refine ⟨fun before => ⟨_, ends_attributesOf (hmissing h.isObject) hx⟩, fun before => ?_,
    isText_attributesAt hmessage.1⟩
  rw [← hsame]
  exact ⟨_, ends_attributesOf (hmissing h.isObject') hw⟩

/-- **The errors of a link and of what is kept of it agree.** -/
theorem exists_errors_of_keptLink (hc : r.codec.DecodesAnew) (hle : g ≤ g') (h : g.KeptLink g' first x w)
    (hp : ∀ p ∈ g.readPayloads x, g.IsPurePayload p ∧ r.codec.Decodes g p) :
    ∃ a a', (r.errorOf g x).Gives a ∧ (r.errorOf g' w).Gives a' ∧
      a.1.Agrees (Document.AlikeLists g g') a'.1 ∧ a.2 = a'.2 := by
  obtain ⟨info, info', hinfo, hinfo', hkept⟩ := Graph.exists_infoAt_of_keptLink h
  obtain ⟨ha, ha', hmessage⟩ := attributes_of_keptLink hc hle h fun p hfound =>
    hp p (List.mem_append_left _ (by rw [hfound]; exact List.mem_singleton_self p))
  refine exists_errors_of_match hinfo hinfo' hkept (FailureInfo.decodesBoth_of_kept hc hle fun p hmem => ?_) ha ha'
    hmessage
  exact hp p (List.mem_append_right _ (by rwa [FailureInfo.payloadsAt_eq hinfo]))

end ConverterOptions

/-! ## Errors that differ in what they keep -/

namespace Graph

variable {g g' H H' : Graph} {v w : Value}

/-- Values of two graphs that have grown from one are deeply equal: an object of that one and a copy of it, or values
that were added to both. -/
def AlikeFrom (g H H' : Graph) (v w : Value) : Prop := (g.Holds v ∧ H'.Alike v w) ∨ H.Same H' v w

/-- Values of two graphs that have grown from one are lists whose items are deeply equal. -/
def ListsAlike (g H H' : Graph) (v w : Value) : Prop :=
  ∃ items others, H.objectOf? v = some (.list items) ∧ H'.objectOf? w = some (.list others) ∧
    List.Forall₂ (g.AlikeFrom H H') items others

/-- Values of two graphs that have grown from one are failures that differ in nothing but the wire failures that they
keep and their causes. The items of their details are deeply equal. -/
def AlikeButStored (g H H' : Graph) (v w : Value) : Prop :=
  ∃ e f e' f', H.errorOf? v = some e ∧ e.failure? = some f ∧ H'.errorOf? w = some e' ∧ e'.failure? = some f' ∧
    e.SameButStored (g.ListsAlike H H') e' f f'

/-- Documents that are alike become values that are deeply equal. -/
theorem alikeFrom_of_placed {d d' : Document} (h : d.Alike g g' d') (hv : g.Placed H d v) (hw : g'.Placed H' d' w) :
    g.AlikeFrom H H' v w := by
  cases h with
  | within hd => exact .inr (indistinct_of_placed hd hv hw).same
  | existing hholds halike =>
    have hle' := hw.le
    obtain ⟨between, -, -, rfl⟩ := hv
    obtain ⟨between', -, -, rfl⟩ := hw
    exact .inl ⟨hholds, halike.mono hle'⟩

/-- **Lists of documents that are alike become lists whose items are deeply equal.** -/
theorem listsAlike_of_placed {d d' : Document} (h : d.AlikeLists g g' d') (hv : g.Placed H d v)
    (hw : g'.Placed H' d' w) : g.ListsAlike H H' v w := by
  obtain ⟨halike⟩ := h
  obtain ⟨values, hvalues, hplaced⟩ := hv.items
  obtain ⟨values', hvalues', hplaced'⟩ := hw.items
  refine ⟨values, values', hvalues, hvalues', forall₂_square (fun d d' x y hd hx hy => ?_) halike hplaced hplaced'⟩
  exact alikeFrom_of_placed hd hx hy

end Graph

/-- **Parsing a failure first makes no difference to the errors.** Let a value without cycles be parsed, and let the
payloads of all links that the walk along its causes meets be pure ones, which the codec decodes. Then the value is
received as well as what it is parsed to. The two chains of errors have the same length, and link by link the errors
differ in nothing but the wire failures that they keep. -/
theorem parsed_failures_received_alike {r : ConverterOptions} {g : Graph} {v : Value} {d : Document}
    (hc : r.codec.DecodesAnew) (hunwound : g.Unwound v) (hparsed : WireFormat.parseFailure g v = .ok d)
    (hp : ∀ x ∈ ConverterOptions.linksOrSelf (g.walk r.maxCauseDepth v) v, ∀ p ∈ g.readPayloads x,
      g.IsPurePayload p ∧ r.codec.Decodes g p) :
    ∃ H e H' e' es es', (r.failureToError g v).outcome.1 = .ok (H, e) ∧
      (r.failureToError (g.add d).1 (g.add d).2).outcome.1 = .ok (H', e') ∧
      H.CauseChain e es ∧ H'.CauseChain e' es' ∧ es ≠ [] ∧ List.Forall₂ (g.AlikeButStored H H') es es' := by
  obtain ⟨hfailure, htrimmed⟩ := Graph.trimmed_of_parseFailure hunwound hparsed
  obtain ⟨vs, ws, hvs, hws, hne, hlinks⟩ := htrimmed.exists_links hfailure (g.shows_add d)
  rw [ConverterOptions.linksOrSelf_walk hvs hne] at hp
  have htaken := Graph.related_take_linksIn hlinks hvs hws rfl rfl r.maxCauseDepth
  have herrors := ((List.forall₂_and_left _ _).2 ⟨hp, htaken⟩).imp fun x w hx =>
    ConverterOptions.exists_errors_of_keptLink hc (g.le_add d) hx.2 hx.1
  have hobjects : ∀ x ∈ vs, x.id?.isSome := by
    intro x hx
    obtain ⟨w, -, hlink⟩ := exists_of_forall₂ hlinks.flip hx
    exact hlink.isObject
  have hobjects' : ∀ w ∈ ws, w.id?.isSome := by
    intro w hw
    obtain ⟨x, -, hlink⟩ := exists_of_forall₂ hlinks hw
    exact hlink.isObject'
  obtain ⟨H, e, H', e', es, es', hreceived, hreceived', hes, hes', hsome, halike⟩ :=
    ConverterOptions.exists_received_of_agrees (L := fun H H' => g.ListsAlike H H')
      (fun _ _ _ _ _ _ => Graph.listsAlike_of_placed) hvs hws hne (ne_nil_of_forall₂ hlinks hne) hobjects hobjects'
      herrors
  exact ⟨H, e, H', e', es, es', hreceived, hreceived', hes, hes', hsome, halike⟩

/-- A failure, object 14, with a detail that is payload text, one in a foreign encoding and properties that the format
does not name. It is caused by one whose information is of a case that the format does not know, and holds a list. -/
def staleLease : Graph :=
  ⟨[.bytes (Utf8.encode Payload.textEncoding.toList),
    .record [(Payload.encodingKey, .object 0)],
    .bytes (Utf8.encode "\x7b\"json\":\"o-7\"\x7d".toList),
    .record [("data", .object 2), ("metadata", .object 1)],
    .bytes (Utf8.encode "binary/plain".toList),
    .record [(Payload.encodingKey, .object 4)],
    .record [("data", .object 2), ("metadata", .object 5)],
    .list [.object 3, .object 6],
    .record [("payloads", .object 7), ("size", .number 2)],
    .record [("type", .text "Expired"), ("nonRetryable", .bool true), ("details", .object 8), ("shard", .number 5)],
    .record [("case", .text "applicationFailureInfo"), ("value", .object 9), ("version", .number 2)],
    .list [.text "holder", .number 4],
    .record [("case", .text "leaseLostFailureInfo"), ("value", .object 11)],
    .record [("message", .text "lease lost"), ("failureInfo", .object 12), ("encodedAttributes", .object 6)],
    .record [("cause", .object 13), ("message", .text "stale"), ("failureInfo", .object 10), ("retries", .number 3)]]⟩

/-- The stale lease is received alike at both levels. -/
theorem parsed_failures_received_alike_staleLease :
    ∃ d H e H' e' es es', WireFormat.parseFailure staleLease (.object 14) = .ok d ∧
      (({} : ConverterOptions).failureToError staleLease (.object 14)).outcome.1 = .ok (H, e) ∧
      (({} : ConverterOptions).failureToError (staleLease.add d).1 (staleLease.add d).2).outcome.1 = .ok (H', e') ∧
      H.CauseChain e es ∧ H'.CauseChain e' es' ∧ es ≠ [] ∧ List.Forall₂ (staleLease.AlikeButStored H H') es es' := by
  have hunwound : staleLease.Unwound (.object 14) :=
    Graph.unwound_of_forall fun w hw => by
      cases hw
      exact Graph.unwound_of_forall nofun
  obtain ⟨d, hparsed⟩ : ∃ d, WireFormat.parseFailure staleLease (.object 14) = .ok d := ⟨_, rfl⟩
  have hread : ∀ x ∈ ConverterOptions.linksOrSelf
      (staleLease.walk ({} : ConverterOptions).maxCauseDepth (.object 14)) (.object 14),
      ∀ p ∈ staleLease.readPayloads x, p = .object 3 ∨ p = .object 6 := by decide +kernel
  refine ⟨d, ?_⟩
  obtain ⟨H, e, H', e', es, es', hall⟩ := parsed_failures_received_alike (r := {}) (g := staleLease)
    Codec.lawful_standard.decodesAnew hunwound hparsed fun x hx p hmem => by
      rcases hread x hx p hmem with rfl | rfl
      · refine ⟨⟨fun name hname => ?_, rfl⟩, ?_⟩
        · exact Fields.get?_eq_none_iff.2 fun hmem => hname (by simpa [Fields.names, or_comm] using hmem)
        · rintro q ⟨⟩
          exact ⟨.value (.text "o-7"), Codec.textIn?_eq_some.1 (by decide +kernel)⟩
      · refine ⟨⟨fun name hname => ?_, rfl⟩, ?_⟩
        · exact Fields.get?_eq_none_iff.2 fun hmem => hname (by simpa [Fields.names, or_comm] using hmem)
        · rintro q ⟨⟩
          exact ⟨.itself, rfl⟩
  exact ⟨H, e, H', e', es, es', hparsed, hall⟩

end FailureWire
