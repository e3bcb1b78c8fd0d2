import FailureWire.Proofs.Conversion.Decoding
import FailureWire.Proofs.Conversion.Encoding
import FailureWire.Proofs.Conversion.Written

/-!
# When conversions fail

There is one thing for each direction that can go wrong between typed values. With a codec of payload text, in
whatever format, a wire failure becomes an error by `failureToError` unless a payload that the conversion decodes
claims to be payload text and holds none (`typed_failures_received_iff`). With the standard codec, a thrown value
becomes a wire failure by `errorToFailure` unless something in the details of a failure that becomes a link has an
unsafe key (`typed_errors_written_iff`); shared and cyclic details do no harm. What lies behind a stored failure that
is reused is not encoded, but what lies behind a link without a class is decoded.
-/

namespace FailureWire

open Logged

/-! ## Wire failures -/

/-- A payload can be read: it is in a foreign encoding, or its bytes are text of the format. -/
def Payload.Readable (format : TextFormat) (q : Payload) : Prop :=
  q.isIn textEncoding = true → ∀ data, q.data = some data → ∃ d, format.read (Utf8.decode data) = .ok d

/-- A value is a payload that can be read. -/
def Graph.Readable (format : TextFormat) (g : Graph) (p : Value) : Prop :=
  ∀ q, g.payloadOf p = .ok q → q.Readable format

/-- A codec of payload text decodes a typed payload exactly if it can be read. -/
theorem Codec.decodes_ofFormat_iff {format : TextFormat} {g : Graph} {p : Value} (h : g.OfShape Schema.payload p) :
    (ofFormat format).Decodes g p ↔ g.Readable format p := by
  obtain ⟨metadata, data, hp⟩ := Graph.payloadOf_of_ofShape h
  unfold Decodes Graph.Readable Payload.Readable
  rw [hp]
  constructor
  · rintro hdecodes q ⟨⟩ htext data ⟨⟩
    obtain ⟨decoded, hd⟩ := hdecodes _ rfl
    have hdata : (ofFormat format).decode ⟨metadata, some data⟩ = decodeData format (some data) := if_pos htext
    rw [hdata] at hd
    obtain ⟨d, hd, -⟩ := Except.bind_eq_ok.1 hd
    exact ⟨d, hd⟩
  · rintro hread q ⟨⟩
    by_cases htext : Payload.isIn ⟨metadata, some data⟩ Payload.textEncoding = true
    · obtain ⟨d, hd⟩ := hread _ rfl htext data rfl
      have hdata : (ofFormat format).decode ⟨metadata, some data⟩ = decodeData format (some data) := if_pos htext
      exact ⟨.value d, hdata.trans (Except.bind_eq_ok.2 ⟨d, hd, rfl⟩)⟩
    · exact ⟨.itself, if_neg htext⟩

namespace ConverterOptions

variable {o : ConverterOptions} {g g' : Graph} {f v : Value}

/-- A wire failure becomes an error exactly if the payloads of all links that the walk meets are decoded. -/
theorem exists_failureToError_iff (h : g.TypedWire f) :
    (∃ g' v, (o.failureToError g f).outcome.1 = .ok (g', v)) ↔
      ∀ x ∈ linksOrSelf (g.walk o.maxCauseDepth f) f, ∀ p ∈ g.readPayloads x, o.codec.Decodes g p := by
  constructor
  · rintro ⟨g', v, hok⟩
    obtain ⟨_, hends⟩ := outcome_fst_eq_iff.1 hok
    obtain ⟨errors, _, hreceive, -⟩ := ends_bind.1 hends
    obtain ⟨chain, hchain, herrors⟩ := ends_receive.1 hreceive
    cases (h.wireWalk_eq_walk o.maxCauseDepth).symm.trans hchain
    exact decodes_of_ends_errorsOf (h.typedLink_of_mem o.maxCauseDepth) herrors
  · intro hdecode
    obtain ⟨arrivals, -, hreceive⟩ := exists_ends_receive h hdecode
    exact ⟨_, _, outcome_fst_eq_iff.2 ⟨_, ends_bind.2 ⟨_, _, hreceive [], ends_pure.2 ⟨rfl, rfl⟩⟩⟩⟩

theorem isFailure_of_failureToError (h : (o.failureToError g f).outcome.1 = .ok (g', v)) :
    g'.isFailure v = true := by
  obtain ⟨-, vs, kept, hchain, hne, -, hkeeps⟩ := keeps_of_failureToError h
  obtain ⟨w, rest, rfl⟩ := List.exists_cons_of_ne_nil hne
  obtain rfl := hchain.head
  obtain ⟨_, _, ⟨-, e, f, he, hf, -⟩, -, -⟩ := List.forall₂_cons_left_iff.1 hkeeps
  simp [Graph.isFailure, he, hf]

end ConverterOptions

/-- **When a typed wire failure becomes an error.** With a codec of payload text, in whatever format, it does exactly
if every payload that the conversion decodes is in a foreign encoding or holds text of the format; and what it becomes
is a failure. -/
theorem typed_failures_received_iff {format : TextFormat} {o : ConverterOptions} {g : Graph} {f : Value}
    (hcodec : o.codec = .ofFormat format) (h : g.TypedWire f) :
    ((∃ g' v, (o.failureToError g f).outcome.1 = .ok (g', v)) ↔
      ∀ x ∈ ConverterOptions.linksOrSelf (g.walk o.maxCauseDepth f) f, ∀ p ∈ g.readPayloads x,
        g.Readable format p) ∧
    ∀ g' v, (o.failureToError g f).outcome.1 = .ok (g', v) → g'.isFailure v = true := by
  refine ⟨?_, fun g' v hok => ConverterOptions.isFailure_of_failureToError hok⟩
  rw [ConverterOptions.exists_failureToError_iff h, hcodec]
  have hshape (x : Value) (hx : x ∈ ConverterOptions.linksOrSelf (g.walk o.maxCauseDepth f) f) (p : Value)
      (hp : p ∈ g.readPayloads x) : g.OfShape Schema.payload p :=
    (h.typedLink_of_mem o.maxCauseDepth x hx).ofShape_readPayloads p hp
  constructor
  · intro hdecode x hx p hp
    exact (Codec.decodes_ofFormat_iff (hshape x hx p hp)).1 (hdecode x hx p hp)
  · intro hread x hx p hp
    exact (Codec.decodes_ofFormat_iff (hshape x hx p hp)).2 (hread x hx p hp)

/-- The circular failure becomes a failure. -/
theorem typed_failures_received_iff_circularFailure :
    ∃ g' v, (({} : ConverterOptions).failureToError circularFailure (.object 9)).outcome.1 = .ok (g', v) ∧
      g'.isFailure v = true := by
  have htyped := typedWire_circularFailure
  have hlinks := htyped.typedLink_of_mem ({} : ConverterOptions).maxCauseDepth
  obtain ⟨hiff, hfailure⟩ := typed_failures_received_iff (o := {}) rfl htyped
  rw [walk_circularFailure] at hiff hlinks
  obtain ⟨g', v, hok⟩ := hiff.2 fun x hx p hp =>
    (Codec.decodes_ofFormat_iff ((hlinks x hx).ofShape_readPayloads p hp)).1 (decodes_circularFailure x hx p hp)
  exact ⟨g', v, hok, hfailure g' v hok⟩

/-- A cancellation, object 7, whose detail claims to be payload text and breaks off. -/
def garbledFailure : Graph :=
  ⟨[.bytes (Utf8.encode Payload.textEncoding.toList),
    .record [(Payload.encodingKey, .object 0)],
    .bytes (Utf8.encode "\x7b".toList),
    .record [("metadata", .object 1), ("data", .object 2)],
    .list [.object 3],
    .record [("payloads", .object 4)],
    .record [("details", .object 5)],
    .record [("message", .text "stopped"), ("failureInfo", .object 8)],
    .record [("case", .text "canceledFailureInfo"), ("value", .object 6)]]⟩

theorem typedWire_garbledFailure : garbledFailure.TypedWire (.object 7) := by
  have hpayload : garbledFailure.OfShape Schema.payload (.object 3) := by
    refine ⟨rfl, ⟨_, rfl, ?_⟩, ⟨_, rfl⟩, trivial⟩
    intro entry hentry
    rw [List.mem_singleton.1 hentry]
    exact ⟨_, rfl⟩
  have hpayloads : garbledFailure.OfShape Schema.payloads (.object 5) := by
    refine ⟨rfl, ⟨_, rfl, ?_⟩, trivial⟩
    intro p hp
    rwa [List.mem_singleton.1 hp]
  have hinfo : garbledFailure.TypedInfo (.object 8) := by
    refine .inr ⟨rfl, ?_⟩
    rintro s ⟨⟩
    exact ⟨rfl, .inr hpayloads, trivial⟩
  refine Graph.typedWire_of_closed [.object 7] ?_ ?_ _ (List.mem_cons_self ..)
  · intro x hx
    rw [List.mem_singleton.1 hx]
    exact ⟨rfl, ⟨⟨_, rfl⟩, .inl rfl, .inl rfl, .inl rfl, trivial⟩, hinfo⟩
  · intro x hx
    rw [List.mem_singleton.1 hx]
    exact .inl rfl

/-- **Not every typed wire failure becomes an error**: a garbled detail is not kept as it is. -/
theorem garbled_details_not_received :
    garbledFailure.TypedWire (.object 7) ∧
      (({} : ConverterOptions).failureToError garbledFailure (.object 7)).outcome.1 = .error .badText :=
  ⟨typedWire_garbledFailure, rfl⟩

/-! ## Thrown values -/

/-- The properties of an error are of the types that its options have: the details of a failure are a list,
with gaps or without, and what a failure keeps is an object. -/
structure ThrownError.WellTyped (g : Graph) (e : ThrownError Value) : Prop where
  name : e.name.IsText
  worded : e.Worded
  stored : ∀ w, e.stored? = some w → ∃ id, w = .object id
  details : ∀ f ds, e.failure? = some f → f.kind.details? = some ds → (g.listOf? ds).isSome
  delay : ∀ f ms, e.failure? = some f → f.kind.nextRetryDelay? = some ms → ms.IsOptionalNumber

theorem ThrownError.wellTyped_build {g : Graph} {kind : FailureKind Value} {message display : Value}
    {options : FailureOptions} (hmessage : message.IsText) (htrace : options.stackTrace.IsOptionalText)
    (hstored : options.stored = .undefined ∨ ∃ id, options.stored = .object id)
    (hdetails : ∀ ds, kind.details? = some ds → (g.listOf? ds).isSome)
    (hdelay : ∀ ms, kind.nextRetryDelay? = some ms → ms.IsOptionalNumber) :
    (build kind message display options).WellTyped g where
  name := ⟨_, rfl⟩
  worded := worded_build hmessage htrace
  stored w hw := by
    have hkept : options.stored.defined? = some w := hw
    rcases hstored with hnone | ⟨id, hid⟩
    · rw [hnone] at hkept
      cases hkept
    · rw [hid] at hkept
      exact ⟨id, (Option.some.inj hkept).symm⟩
  details f ds hf hds := by
    cases hf
    exact hdetails ds hds
  delay f ms hf hms := by
    cases hf
    exact hdelay ms hms

namespace Graph

/-- A value can be thrown in typed code: errors have properties of their types, and anything else can be
thrown as it is. -/
def TypedThrown (g : Graph) (x : Value) : Prop := ∀ e, g.errorOf? x = some e → e.WellTyped g

/-- The wire failure that a value was decoded from, if it is a failure that was. -/
def storedAt? (g : Graph) (x : Value) : Option Value := (g.failureAt? x).bind (·.stored.defined?)

/-- The items of the details that a value has as a failure. -/
def detailItems (g : Graph) (x : Value) : List Value :=
  ((g.failureAt? x).bind fun f => f.kind.details?.bind g.listOf?).getD []

variable {frames : Frames} {g : Graph} {x : Value} {e : ThrownError Document} {f : FailureFields Document}

theorem failureAt?_eq {e : ThrownError Value} (he : g.errorOf? x = some e) : g.failureAt? x = e.failure? := by
  rw [failureAt?, he]
  rfl

/-- A failure is what is made of a typed thrown value, and carries what the value does. -/
def MadeFor (g : Graph) (frames : Frames) (x : Value) (e : ThrownError Document) : Prop :=
  g.TypedThrown x ∧ g.toFailure frames x = .ok e ∧ ∃ f, e.failure? = some f ∧ g.Carries x f

theorem TypedThrown.exists_madeFor (frames : Frames) (hx : g.TypedThrown x) : ∃ e, g.MadeFor frames x e := by
  obtain ⟨e, f, hmade, hf, hcarries⟩ := exists_toFailure frames (g := g) (x := x) fun e he _ =>
    ⟨(hx e he).name.optional.hasText, (hx e he).worded.message.optional.hasText⟩
  exact ⟨e, hx, hmade, f, hf, hcarries⟩

theorem TypedThrown.isTruthy_storedAt? (hx : g.TypedThrown x) {w : Value} (hw : g.storedAt? x = some w) :
    w.isTruthy = true := by
  obtain ⟨f, hf, hstored⟩ := Option.bind_eq_some_iff.1 hw
  obtain ⟨e, he, hfailure⟩ := Option.bind_eq_some_iff.1 hf
  obtain ⟨id, rfl⟩ := (hx e he).stored w (by rw [ThrownError.stored?, hfailure]; exact hstored)
  rfl

theorem Carries.stored_eq (h : g.Carries x f) : f.stored.defined? = g.storedAt? x := by
  cases h with
  | failure he hf => rw [storedAt?, failureAt?_eq he, hf]; rfl
  | other hnone hstored => rw [storedAt?, hnone, hstored]; rfl

theorem MadeFor.stored?_eq (h : g.MadeFor frames x e) : e.stored? = g.storedAt? x := by
  obtain ⟨-, -, f, hf, hcarries⟩ := h
  rw [ThrownError.stored?, hf]
  exact hcarries.stored_eq

/-- The details of a failure that stands for a thrown value are encoded exactly if each of their items can be. -/
theorem Carries.exists_encodeDetails_iff (host : Host) (h : g.Carries x f) (hx : g.TypedThrown x) :
    (∀ ds, f.kind.details? = some ds → ∃ d, (Codec.standard host).encodeDetails g ds = .ok d) ↔
      ∀ y ∈ g.detailItems x, g.Encodable y := by
  unfold detailItems
  cases h with
  | @failure e f he hf =>
    rw [failureAt?_eq he, hf, Option.bind_some]
    simp only [FailureKind.details?_map]
    cases hds : f.kind.details? with
    | none => simp
    | some ds =>
      obtain ⟨items, hitems⟩ := Option.isSome_iff_exists.1 ((hx e he).details f ds hf hds)
      rw [Option.bind_some, hitems, Option.getD_some, ← Codec.exists_encodeDetails_iff host hitems]
      simp
  | other hnone _ hdetails =>
    rw [hnone]
    constructor
    · intro _ y hy
      cases hy
    · intro _ ds hds
      rw [hdetails ds hds]
      exact ⟨_, Codec.encodeDetails_of_listed .empty .nil⟩

theorem Carries.exists_wireDelay (h : g.Carries x f) (hx : g.TypedThrown x) :
    ∀ ms, f.kind.nextRetryDelay? = some ms → ∃ d, g.wireDelay ms = .ok d := by
  intro ms hms
  cases h with
  | @failure e f he hf =>
    rw [FailureKind.nextRetryDelay?_map] at hms
    exact ⟨_, wireDelay_of_optionalNumber ((hx e he).delay f ms hf hms)⟩
  | other _ _ _ hdelay =>
    rw [hdelay ms hms]
    exact ⟨none, rfl⟩

/-- A failure that stands for a typed thrown value consists of texts. -/
theorem worded_of_toFailure (hx : g.TypedThrown x) (h : g.toFailure frames x = .ok e) : e.Worded := by
  cases he : g.errorOf? x with
  | none =>
    rw [toFailure, he] at h
    cases h
    exact ThrownError.worded_build ⟨_, rfl⟩ (.inl rfl)
  | some e' =>
    have htyped := hx e' he
    cases hf : e'.failure? with
    | none =>
      obtain ⟨display, hmade⟩ := exists_failureOfError frames (g := g) htyped.name.optional.hasText
        htyped.worded.message.optional.hasText
      rw [toFailure_of_host he hf, hmade] at h
      cases h
      refine ThrownError.worded_build ?_ (stackOf_isOptionalText htyped.worded.stack)
      unfold ThrownError.failureMessage
      split
      · split
        · exact htyped.worded.message
        · exact ⟨_, rfl⟩
      · exact htyped.worded.message
    | some f =>
      rw [toFailure_of_failure he (by rw [hf]; rfl)] at h
      cases h
      exact htyped.worded.map _

end Graph

namespace ConverterOptions

variable {o : ConverterOptions} {g : Graph} {v : Value}

/-- The values whose failures become links: those before the first one that keeps a wire failure, if such
failures are reused, else all of them. -/
def derivedLinks (o : ConverterOptions) (g : Graph) (links : List Value) : List Value :=
  if o.reuseStoredFailure then links.takeWhile fun x => (g.storedAt? x).isNone else links

theorem forall₂_derivedLinks {R : Value → ThrownError Document → Prop} {links : List Value}
    {errors : List (ThrownError Document)} (h : List.Forall₂ R links errors)
    (hstored : ∀ x e, R x e → e.stored? = g.storedAt? x) :
    List.Forall₂ R (o.derivedLinks g links) (errors.take (o.derivedCount errors)) := by
  unfold derivedLinks derivedCount
  by_cases hreuse : o.reuseStoredFailure = true
  · rw [if_pos hreuse, if_pos hreuse]
    induction h with
    | nil => exact .nil
    | @cons x e links errors hx _ ih =>
      rw [List.takeWhile_cons, List.findIdx_cons, hstored x e hx]
      cases g.storedAt? x with
      | none => exact .cons hx ih
      | some w => exact .nil
  · rw [if_neg hreuse, if_neg hreuse, List.take_length]
    exact h

/-- **There is a link for a typed thrown value exactly if the items of its details can be encoded.** -/
theorem exists_linkOf_iff {host : Host} {x : Value} {e : ThrownError Document} (hcodec : o.codec = .standard host)
    (h : g.MadeFor o.frames x e) : (∃ link, o.linkOf g e = .ok link) ↔ ∀ y ∈ g.detailItems x, g.Encodable y := by
  obtain ⟨hx, hmade, f, hf, hcarries⟩ := h
  rw [← hcarries.exists_encodeDetails_iff host hx, ← hcodec]
  constructor
  · rintro ⟨link, hlink⟩
    obtain ⟨info, hinfo, -⟩ := linkOf_eq_ok.1 hlink
    rw [infoOf, hf] at hinfo
    exact FailureKind.exists_encodeDetails_of_toInfo hinfo
  · intro hdetails
    have hworded := Graph.worded_of_toFailure hx hmade
    have hattributes := Codec.exists_encodeAttributes host g hworded.message
      (stackTraceOf_isText (o := o) (g := g) hworded)
    exact exists_linkOf_of_kind hf hdetails (hcarries.exists_wireDelay hx) fun _ => by rwa [hcodec]

end ConverterOptions

/-- **When a typed thrown value becomes a wire failure.** With the standard codec it does exactly if the items
in the details of each failure that becomes a link can be encoded; and what it becomes is the chain of links for
these failures. -/
theorem typed_errors_written_iff {host : Host} {o : ConverterOptions} {g : Graph} {v : Value}
    (hcodec : o.codec = .standard host)
    (h : ∀ x ∈ ConverterOptions.linksOrSelf (g.walk o.maxCauseDepth v) v, g.TypedThrown x) :
    ((∃ g' w, (o.errorToFailure g v).outcome.1 = .ok (g', w)) ↔
      ∀ x ∈ o.derivedLinks g (ConverterOptions.linksOrSelf (g.walk o.maxCauseDepth v) v),
        ∀ y ∈ g.detailItems x, g.Encodable y) ∧
    ∀ g' w, (o.errorToFailure g v).outcome.1 = .ok (g', w) → ∃ errors,
      List.Forall₂ (fun x e => g.toFailure o.frames x = .ok e)
        (ConverterOptions.linksOrSelf (g.walk o.maxCauseDepth v) v) errors ∧
      g ≤ g' ∧ o.IsChainOf g g' (errors.take (o.derivedCount errors))
        ((errors[o.derivedCount errors]?).bind ThrownError.stored?) w := by
  obtain ⟨errors, hmadeFor⟩ := exists_forall₂ fun x hx => (h x hx).exists_madeFor o.frames
  have hne := ne_nil_of_forall₂ hmadeFor (ConverterOptions.linksOrSelf_ne_nil _ v)
  have hmade := hmadeFor.imp fun _ _ hx => hx.2.1
  have hstored : ∀ e ∈ errors, ∀ w, e.stored? = some w → w.isTruthy = true := by
    intro e he w hw
    obtain ⟨x, -, hx⟩ := exists_of_forall₂ hmadeFor he
    exact hx.1.isTruthy_storedAt? (hx.stored?_eq.symm.trans hw)
  have hderived := ConverterOptions.forall₂_derivedLinks (o := o) hmadeFor fun x e hx => hx.stored?_eq
  have hlinks := forall_mem_iff_of_forall₂ hderived fun x e hx =>
    (ConverterOptions.exists_linkOf_iff hcodec hx).symm
  have hemitted (hall : ∀ e ∈ errors.take (o.derivedCount errors), ∃ link, o.linkOf g e = .ok link) :=
    ConverterOptions.exists_emitted (v := v) hne hstored fun e he => by
      obtain ⟨x, -, -, -, f, hf, -⟩ := exists_of_forall₂ hderived he
      exact ⟨⟨f, hf⟩, hall e he⟩
  have hiff : (∃ g' w, (o.errorToFailure g v).outcome.1 = .ok (g', w)) ↔
      ∀ e ∈ errors.take (o.derivedCount errors), ∃ link, o.linkOf g e = .ok link := by
    constructor
    · rintro ⟨g', w, hok⟩
      obtain ⟨_, hends⟩ := outcome_fst_eq_iff.1 hok
      obtain ⟨emitted, _, hemit, -⟩ := ends_bind.1 hends
      obtain ⟨⟨errors', hmade', hemit⟩, -⟩ := ConverterOptions.ends_emit.1 hemit
      cases (Except.mapM_eq_ok.2 hmade).symm.trans hmade'
      rw [ConverterOptions.emitErrors_eq hne hstored] at hemit
      obtain ⟨links, hlinksOf, -⟩ := Except.bind_eq_ok.1 hemit
      intro e he
      obtain ⟨link, -, hlink⟩ := exists_of_forall₂ (ConverterOptions.linksOf_eq_ok.1 hlinksOf).flip he
      exact ⟨link, hlink⟩
    · intro hall
      obtain ⟨emitted, hemit, -⟩ := hemitted hall
      exact ⟨_, _, ConverterOptions.errorToFailure_of_emitErrors (Except.mapM_eq_ok.2 hmade) hemit⟩
  refine ⟨hiff.trans hlinks.symm, fun g' w hok => ?_⟩
  obtain ⟨emitted, hemit, hchain⟩ := hemitted (hiff.1 ⟨g', w, hok⟩)
  rw [ConverterOptions.errorToFailure_of_emitErrors (Except.mapM_eq_ok.2 hmade) hemit] at hok
  cases hok
  exact ⟨errors, hmade, g.le_add _, hchain⟩

/-- A record that contains itself, object 0, with a set and a date; an application failure, object 8, whose
details hold the record twice; and its cause, which was decoded from the wire failure 6 and has a detail with a
key that must not be written. -/
def sharedOrder : Graph :=
  ⟨[.record [("order", .object 0), ("tags", .object 1)],
    .set [.big 7, .object 2],
    .date (.ofInt 0),
    .list [.object 0, .object 1, .object 0],
    .record [("constructor", .number (.ofInt 1))],
    .list [.object 4],
    .record [("message", .text "late")],
    .error <| .build (.cancelled (.object 5)) (.text "late") (.text "late") { stored := .object 6 },
    .error <| .build (.application (.text "Shipping") (.object 3) (.bool true) .undefined) (.text "not shipped")
      (.text "Shipping: not shipped") { cause := .object 7 }]⟩

/-- The failure and its wire failure are written: the key stands behind what is written anew. -/
theorem typed_errors_written_iff_sharedOrder :
    ∃ g' w, (({} : ConverterOptions).errorToFailure sharedOrder (.object 8)).outcome.1 = .ok (g', w) := by
  have hwalk : sharedOrder.walk ({} : ConverterOptions).maxCauseDepth (.object 8) =
      ⟨[.object 8, .object 7], false⟩ := by decide +kernel
  have hderived : ({} : ConverterOptions).derivedLinks sharedOrder
      (ConverterOptions.linksOrSelf ⟨[.object 8, .object 7], false⟩ (.object 8)) = [.object 8] := by decide +kernel
  have hitems : sharedOrder.detailItems (.object 8) = [.object 0, .object 1, .object 0] := by decide +kernel
  have hencodable : ∀ y ∈ [Value.object 0, .object 1, .object 0], sharedOrder.Encodable y := by
    intro y hy
    refine Graph.encodable_of_closed [0, 1, 2] ?_ (by decide +kernel) (by decide +kernel)
    rintro id rfl
    simp only [List.mem_cons, Value.object.injEq, List.not_mem_nil, or_false] at hy
    rcases hy with rfl | rfl | rfl <;> decide
  refine (typed_errors_written_iff (o := {}) (g := sharedOrder) (v := .object 8) rfl ?_).1.2 ?_
  · rw [hwalk]
    intro x hx e he
    simp only [ConverterOptions.linksOrSelf, List.isEmpty_cons, Bool.false_eq_true, if_false, List.mem_cons,
      List.not_mem_nil, or_false] at hx
    rcases hx with rfl | rfl
    · cases he
      refine ThrownError.wellTyped_build ⟨_, rfl⟩ (.inl rfl) (.inl rfl) ?_ ?_
      · rintro ds ⟨⟩
        rfl
      · rintro ms ⟨⟩
        exact .inl rfl
    · cases he
      refine ThrownError.wellTyped_build ⟨_, rfl⟩ (.inl rfl) (.inr ⟨_, rfl⟩) ?_ ?_
      · rintro ds ⟨⟩
        rfl
      · rintro ms ⟨⟩
  · rw [hwalk, hderived]
    intro x hx
    rw [List.mem_singleton.1 hx, hitems]
    exact hencodable

/-- An application failure, object 2, with a detail that has a field of the name of a constructor. -/
def pollutedOrder : Graph :=
  ⟨[.record [("constructor", .number (.ofInt 1))],
    .list [.object 0],
    .error <| .build (.application .undefined (.object 1) .undefined .undefined) (.text "bad details")
      (.text "bad details") {}]⟩

/-- **Not every typed error becomes a wire failure**: the key of a detail may stand against it. -/
theorem polluted_details_not_written :
    (∀ x ∈ ConverterOptions.linksOrSelf (pollutedOrder.walk ({} : ConverterOptions).maxCauseDepth (.object 2))
      (.object 2), pollutedOrder.TypedThrown x) ∧
    (({} : ConverterOptions).errorToFailure pollutedOrder (.object 2)).outcome.1 =
      .error (.unsafeKey "constructor") := by
  have hwalk : pollutedOrder.walk ({} : ConverterOptions).maxCauseDepth (.object 2) = ⟨[.object 2], false⟩ := by
    decide +kernel
  refine ⟨?_, rfl⟩
  rw [hwalk]
  intro x hx e he
  rw [List.mem_singleton.1 hx] at he
  cases he
  refine ThrownError.wellTyped_build ⟨_, rfl⟩ (.inl rfl) (.inl rfl) ?_ ?_
  · rintro ds ⟨⟩
    rfl
  · rintro ms ⟨⟩
    exact .inl rfl

end FailureWire
