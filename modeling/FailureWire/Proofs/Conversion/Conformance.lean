import FailureWire.Proofs.Conversion.Encoding
import FailureWire.Proofs.Conversion.RoundTrip
import FailureWire.Proofs.Payload.Copy
import FailureWire.Proofs.Wire.Exact

/-!
# What is sent is parsed unchanged

Writing a wire failure and parsing it are two descriptions of one format. They agree: a chain of failures with fields
that fit their kinds, sent by whatever options, is accepted by `parseFailure`, and the copy that is returned is deeply
equal to what was sent (`sent_failures_parsed`). Each link has nothing in it but what the format names
(`isExactInfo_of_shows`, `isExactFailure_of_shows`), whether its details are left out for want of items or its message
and its stack trace are encoded.

This asks of the codec that a payload is bytes with metadata and nothing else, as the standard codec makes of whatever
is no payload already. It is not enough that the metadata are bytes: an entry under the name `__proto__` is left out
by the parser (`entry_left_out`).
-/

namespace FailureWire

/-! ## Payloads with nothing else in them -/

/-- What a value is encoded as is a payload with nothing else in it: one that is written anew, or one of the graph. -/
inductive Document.IsExactPayload (g : Graph) : Document → Prop
  | written {metadata : Fields Bytes} {data : Bytes} : (∀ f ∈ metadata, f.1 ≠ "__proto__") →
    IsExactPayload g (Payload.document ⟨metadata, some data⟩)
  | existing {v : Value} : g.Exact Schema.payload v → IsExactPayload g (.existing v)

section
variable {g g' : Graph} {first : ObjectId} {v w : Value}

namespace Graph

theorem hasOnly_of_shows {fields : Fields Document} {names : List String} (h : g.Shows first (.record fields) v)
    (hnames : ∀ name, (∀ n ∈ names, n ≠ name) → fields.get? name = none) : g.HasOnly names v := by
  obtain ⟨values, hv, hmatch⟩ := (g.reading_shows first).record h
  refine hv.hasOnly fun name hname => ?_
  have hrel := hmatch name
  rw [hnames name fun n hn heq => hname (heq ▸ hn)] at hrel
  generalize values.get? name = found at hrel
  cases hrel
  rfl

/-- An optional property has nothing else in it if what is described has not. -/
theorem exact_optional_of_rel {s : Schema} {name : String} {d : Option Document}
    (h : Option.Rel (g.Shows first) d (g.get? v name)) (hd : ∀ x w, d = some x → g.Shows first x w → g.Exact s w) :
    g.Exact (.optional s) (g.read v name) := by
  generalize hfound : g.get? v name = found at h
  cases h with
  | none => exact .inl (read_eq_undefined hfound)
  | some hw =>
    rw [read_eq_of_get? hfound]
    exact .inr (hd _ _ rfl hw)

end Graph

/-- **What shows such a payload is one.** -/
theorem Document.IsExactPayload.exact_of_shows {d : Document} (h : d.IsExactPayload g) (hle : g ≤ g')
    (hw : g'.Shows first d w) : g'.Exact Schema.payload w := by
  cases h with
  | existing hv =>
    obtain rfl : w = _ := hw
    exact hv.mono hle
  | @written metadata data hnames =>
    have hread := g'.reading_shows first
    have hmetadata := hread.read hw "metadata" rfl
    have hdata : g'.objectOf? (g'.read w "data") = some (.bytes data) := hread.bytes (hread.read hw "data" rfl)
    refine ⟨Graph.hasOnly_of_shows hw ?_, ?_, ?_, trivial⟩
    · simp +contextual [Fields.get?_cons]
    · obtain ⟨values, hvalues, hshown⟩ := hmetadata
      refine ⟨values, hvalues, fun f hf => ?_⟩
      obtain ⟨entry, hentry, hname, hbytes⟩ := exists_of_forall₂ (List.forall₂_map_left_iff.1 hshown.zip) hf
      refine ⟨hname ▸ hnames entry hentry, ?_⟩
      exact Option.isSome_iff_exists.2 ⟨_, Graph.bytesOf?_eq_some.2 hbytes⟩
    · exact Option.isSome_iff_exists.2 ⟨_, Graph.bytesOf?_eq_some.2 hdata⟩

end

/-! ## Kinds that fit -/

/-- What a failure carries is what the wire has room for. -/
inductive FailureKind.Fits (g : Graph) : FailureKind Document → Prop
  | generic : Fits g .generic
  | application {type nonRetryable nextRetryDelay : Value} {details : Document} : type.IsOptionalText →
    g.Listed details → nonRetryable.IsBool → nextRetryDelay.IsDelay →
      Fits g (.application type details nonRetryable nextRetryDelay)
  | cancelled {details : Document} : g.Listed details → Fits g (.cancelled details)
  | terminated {details : Document} : g.Listed details → Fits g (.terminated details)
  | timeout {type : Value} {lastHeartbeatDetails : Document} : type.IsCodeOf TimeoutType.code →
    g.Listed lastHeartbeatDetails → Fits g (.timeout type lastHeartbeatDetails)
  | server {nonRetryable : Value} : nonRetryable.IsBool → Fits g (.server nonRetryable)
  | activity {scheduledEventId startedEventId identity activityType activityId retryState : Value} :
    scheduledEventId.IsSafeInteger → startedEventId.IsSafeInteger → identity.IsText → activityType.IsText →
      activityId.IsText → retryState.IsCodeOf RetryState.code →
        Fits g (.activity scheduledEventId startedEventId identity activityType activityId retryState)
  | childWorkflow {namespaceName workflowId runId workflowType initiatedEventId startedEventId retryState : Value} :
    namespaceName.IsText → workflowId.IsText → runId.IsText → workflowType.IsText → initiatedEventId.IsSafeInteger →
      startedEventId.IsSafeInteger → retryState.IsCodeOf RetryState.code →
        Fits g (.childWorkflow namespaceName workflowId runId workflowType initiatedEventId startedEventId retryState)
  | alreadyStarted (workflowId workflowType runId : Value) : Fits g (.alreadyStarted workflowId workflowType runId)

theorem Value.IsDelay.isOptionalNumber {v : Value} (h : v.IsDelay) : v.IsOptionalNumber := by
  rcases h with rfl | ⟨n, -, rfl, -⟩
  · exact .inl rfl
  · exact .inr ⟨n, rfl⟩

theorem FailureKind.Fits.typed {g : Graph} {k : FailureKind Document} (h : k.Fits g) : k.Typed g := by
  cases h with
  | generic => exact .generic
  | application htype hdetails _ hdelay => exact .application htype hdetails hdelay.isOptionalNumber
  | cancelled hdetails => exact .cancelled hdetails
  | terminated hdetails => exact .terminated hdetails
  | timeout _ hdetails => exact .timeout hdetails
  | server => exact .server _
  | activity => exact .activity ..
  | childWorkflow => exact .childWorkflow ..
  | alreadyStarted => exact .alreadyStarted ..

theorem ThrownError.fits_hostKind {δ : Type} {g : Graph} {e : ThrownError δ} (hname : e.name.IsText) :
    e.hostKind.Fits g := by
  unfold hostKind
  split
  · exact .cancelled .empty
  · exact .application hname.optional .empty ⟨_, rfl⟩ (.inl rfl)

/-! ## Information with nothing else in it -/

theorem isSafeInteger_codeToWire {α : Type} {code : α → Number} {v : Value} (h : v.IsCodeOf code)
    (hcode : ∀ a, ∃ i, (code a).toSafeInt? = some i) : (codeToWire v).IsSafeInteger := by
  rcases h with rfl | ⟨a, rfl⟩
  · exact ⟨_, 0, rfl, by decide +kernel⟩
  · obtain ⟨i, hi⟩ := hcode a
    exact ⟨_, i, rfl, hi⟩

theorem TimeoutType.exists_toSafeInt? (t : TimeoutType) : ∃ i, t.code.toSafeInt? = some i := by
  cases t
  · exact ⟨1, by decide +kernel⟩
  · exact ⟨2, by decide +kernel⟩
  · exact ⟨3, by decide +kernel⟩
  · exact ⟨4, by decide +kernel⟩

theorem RetryState.exists_toSafeInt? (r : RetryState) : ∃ i, r.code.toSafeInt? = some i := by
  cases r
  · exact ⟨1, by decide +kernel⟩
  · exact ⟨2, by decide +kernel⟩
  · exact ⟨3, by decide +kernel⟩
  · exact ⟨4, by decide +kernel⟩
  · exact ⟨5, by decide +kernel⟩
  · exact ⟨6, by decide +kernel⟩
  · exact ⟨7, by decide +kernel⟩

theorem WireDuration.exists_ofMillis {n : Number} {i : Int} (hn : n.toInt? = some i) (hi : i.natAbs ≤ 9007199254) :
    (ofMillis n).seconds.isFinite = true ∧ ∃ k, (ofMillis n).nanos.toSafeInt? = some k := by
  rcases Number.eq_ofInt_of_toInt? (Number.fits_of_natAbs_le (by omega)) hn with rfl | ⟨rfl, rfl⟩
  · rw [ofMillis_ofInt hi]
    have hnanos := Number.toInt?_ofInt (Number.fits_of_natAbs_le (a := i % 1000 * 1000000) (by omega))
    refine ⟨Number.isFinite_ofInt (Number.fits_of_natAbs_le (by omega)), i % 1000 * 1000000, ?_⟩
    have hsafe : -Number.maxSafe ≤ i % 1000 * 1000000 ∧ i % 1000 * 1000000 ≤ Number.maxSafe := by
      unfold Number.maxSafe
      omega
    exact Option.filter_eq_some_iff.2 ⟨hnanos, decide_eq_true hsafe⟩
  · exact ⟨by decide +kernel, 0, by decide +kernel⟩

namespace Graph

variable {g g' : Graph} {first : ObjectId} {v w : Value}

/-- The record of payloads with nothing else in them has nothing else in it. -/
theorem exact_of_shows_payloadsField {payloads : List Document} (hp : ∀ p ∈ payloads, p.IsExactPayload g)
    (hle : g ≤ g') : ∀ d w, payloadsField payloads = some d → g'.Shows first d w → g'.Exact Schema.payloads w := by
  intro d w hd hw
  unfold payloadsField at hd
  split at hd
  next => cases hd
  next =>
    cases hd
    obtain ⟨values, hvalues, hshown⟩ := (g'.reading_shows first).read hw "payloads" rfl
    refine ⟨hasOnly_of_shows hw ?_, ⟨values, hvalues, fun x hx => ?_⟩, trivial⟩
    · simp +contextual [Fields.get?_cons]
    · obtain ⟨p, hmem, hx⟩ := exists_of_forall₂ hshown.forall₂ hx
      exact (hp p hmem).exact_of_shows hle hx

theorem exact_of_shows_delayField {delay : Value} (h : delay.IsDelay) :
    ∀ d w, delayField delay = some d → g.Shows first d w → g.Exact Schema.duration w := by
  rintro d w hd hw
  rcases h with rfl | ⟨n, i, rfl, hn, hi⟩
  · cases hd
  · cases hd
    obtain ⟨hseconds, k, hk⟩ := WireDuration.exists_ofMillis hn hi
    have hread := g.reading_shows first
    refine ⟨hasOnly_of_shows hw ?_, ⟨_, hread.number (hread.read hw "seconds" rfl), hseconds⟩,
      ⟨_, k, hread.number (hread.read hw "nanos" rfl), hk⟩, trivial⟩
    simp +contextual [Fields.get?_cons]

theorem exact_of_shows_named {name : Value} (h : g.Shows first (.record [("name", .existing name)]) v)
    (hname : name.IsText) : g.Exact Schema.named v := by
  refine ⟨hasOnly_of_shows h ?_, ?_, trivial⟩
  · simp +contextual [Fields.get?_cons]
  · rwa [(g.reading_shows first).read_existing h "name" rfl]

theorem isExactInfo_of_case {name : String} {s : Schema} {fields : Fields Document}
    (h : g.Shows first (.record [("case", .existing (.text name)), ("value", .record fields)]) v)
    (hs : Fields.get? Schema.infoCases name = some s)
    (hvalue : ∀ x, g.Shows first (.record fields) x → g.Exact s x) : g.IsExactInfo v := by
  obtain ⟨_, hv, _, _, rfl, rfl, value, _, rfl, hshown, rfl⟩ := h
  exact .known name s value hs ⟨_, hv, fun _ => rfl⟩ (hvalue value hshown)

/-- **Information about a kind that fits has nothing else in it.** -/
theorem isExactInfo_of_shows {k : FailureKind Document} {payloads : List Document} (hk : k.Fits g)
    (hp : ∀ p ∈ payloads, p.IsExactPayload g) (hle : g ≤ g')
    (h : g'.Shows first (k.info payloads).document v) : g'.IsExactInfo v := by
  have hread := g'.reading_shows first
  have hdetails {name : String} {x : Value}
      (hx : Option.Rel (g'.Shows first) (payloadsField payloads) (g'.get? x name)) :
      g'.Exact (.optional Schema.payloads) (g'.read x name) :=
    exact_optional_of_rel hx (exact_of_shows_payloadsField hp hle)
  cases hk with
  | generic | alreadyStarted =>
    obtain ⟨_, hv, _, _, rfl, rfl, rfl⟩ := h
    exact .unset ⟨_, hv, fun _ => rfl⟩
  | @application type nonRetryable delay _ htype _ hretry hdelay =>
    refine isExactInfo_of_case h rfl fun x hx => ⟨hasOnly_of_shows hx ?_, ?_, ?_, ?_, ?_, trivial⟩
    · simp +contextual [FailureKind.info, FailureInfo.fields, Fields.get?_cons]
    · rw [hread.read_existing hx "type" rfl]
      exact Value.isText_orElse htype ⟨_, rfl⟩
    · rw [hread.read_existing hx "nonRetryable" rfl]
      exact hretry
    · exact hdetails (by simpa [FailureKind.info, FailureInfo.fields, Fields.get?_cons] using hread.get? hx "details")
    · have hduration : Option.Rel (g'.Shows first) (delayField delay) (g'.get? x "nextRetryDelay") := by
        simpa [FailureKind.info, FailureInfo.fields, Fields.get?_cons] using hread.get? hx "nextRetryDelay"
      exact exact_optional_of_rel hduration (exact_of_shows_delayField hdelay)
  | timeout htype =>
    refine isExactInfo_of_case h rfl fun x hx => ⟨hasOnly_of_shows hx ?_, ?_, ?_, trivial⟩
    · simp +contextual [FailureKind.info, FailureInfo.fields, Fields.get?_cons]
    · rw [hread.read_existing hx "timeoutType" rfl]
      exact isSafeInteger_codeToWire htype TimeoutType.exists_toSafeInt?
    · have hlast := hread.get? hx "lastHeartbeatDetails"
      exact hdetails (by simpa [FailureKind.info, FailureInfo.fields, Fields.get?_cons] using hlast)
  | cancelled | terminated =>
    refine isExactInfo_of_case h rfl fun x hx => ⟨hasOnly_of_shows hx ?_, ?_, trivial⟩
    · simp +contextual [FailureKind.info, FailureInfo.fields]
    · exact hdetails (by simpa [FailureKind.info, FailureInfo.fields, Fields.get?_cons] using hread.get? hx "details")
  | server hretry =>
    refine isExactInfo_of_case h rfl fun x hx => ⟨hasOnly_of_shows hx ?_, ?_, trivial⟩
    · simp +contextual [FailureKind.info, FailureInfo.fields, Fields.get?_cons]
    · rw [hread.read_existing hx "nonRetryable" rfl]
      exact hretry
  | activity hscheduled hstarted hidentity htype hid hretry =>
    refine isExactInfo_of_case h rfl fun x hx => ⟨hasOnly_of_shows hx ?_, ?_, ?_, ?_, ?_, ?_, ?_, trivial⟩
    · simp +contextual [FailureKind.info, FailureInfo.fields, Fields.get?_cons]
    · rwa [hread.read_existing hx "scheduledEventId" rfl]
    · rwa [hread.read_existing hx "startedEventId" rfl]
    · rwa [hread.read_existing hx "identity" rfl]
    · exact exact_of_shows_named (hread.read hx "activityType" rfl) htype
    · rwa [hread.read_existing hx "activityId" rfl]
    · rw [hread.read_existing hx "retryState" rfl]
      exact isSafeInteger_codeToWire hretry RetryState.exists_toSafeInt?
  | childWorkflow hnamespace hworkflow hrun htype hinitiated hstarted hretry =>
    refine isExactInfo_of_case h rfl fun x hx => ⟨hasOnly_of_shows hx ?_, ?_, ?_, ?_, ?_, ?_, ?_, trivial⟩
    · simp +contextual [FailureKind.info, FailureInfo.fields, Fields.get?_cons]
    · rwa [hread.read_existing hx "namespace" rfl]
    · have hexecution := hread.read hx "workflowExecution" rfl
      refine ⟨hasOnly_of_shows hexecution ?_, ?_, ?_, trivial⟩
      · simp +contextual [Fields.get?_cons]
      · rwa [hread.read_existing hexecution "workflowId" rfl]
      · rwa [hread.read_existing hexecution "runId" rfl]
    · exact exact_of_shows_named (hread.read hx "workflowType" rfl) htype
    · rwa [hread.read_existing hx "initiatedEventId" rfl]
    · rwa [hread.read_existing hx "startedEventId" rfl]
    · rw [hread.read_existing hx "retryState" rfl]
      exact isSafeInteger_codeToWire hretry RetryState.exists_toSafeInt?

end Graph

/-! ## Links with nothing else in them -/

/-- A link consists of texts, of a payload for them, if it has one, and of information about a kind that fits, and
there is nothing else in any of these. -/
structure WireLink.IsExact (g : Graph) (link : WireLink) : Prop where
  message : link.message.IsText
  source : link.source.IsText
  stackTrace : link.stackTrace.IsText
  attributes : ∀ a, link.encodedAttributes = some a → a.IsExactPayload g
  info : ∃ (k : FailureKind Document) (payloads : List Document), link.info = k.info payloads ∧ k.Fits g ∧
    ∀ p ∈ payloads, p.IsExactPayload g

/-- **A chain of such links is a wire failure with nothing else in it.** -/
theorem Graph.isExactFailure_of_shows {g g' : Graph} {first : ObjectId} (hle : g ≤ g') :
    ∀ {links : List WireLink} {d : Document} {w : Value}, (∀ link ∈ links, link.IsExact g) →
      chainDocument links none = some d → g'.Shows first d w → g'.IsExactFailure w
  | [], _, _, _, hd, _ => by cases hd
  | link :: rest, d, w, hlinks, hd, hw => by
    obtain ⟨hmessage, hsource, hstack, hattributes, k, payloads, hinfo, hfits, hpayloads⟩ :=
      hlinks link (List.mem_cons_self ..)
    cases hd
    have hlink : g'.ShowsLink first link (chainDocument rest none) w := (g'.reading_shows first).link hw
    refine .intro (hasOnly_of_shows hw ?_) ⟨?_, ?_, ?_, ?_, trivial⟩ (fun hdefined => ?_) (.inr ?_)
    · simp +contextual [WireFormat.leading, Fields.get?_cons]
    · rwa [hlink.message]
    · rw [hlink.source]
      exact .inr hsource
    · rw [hlink.stackTrace]
      exact .inr hstack
    · exact exact_optional_of_rel hlink.attributes fun a x ha hx => (hattributes a ha).exact_of_shows hle hx
    · have hcause := hlink.cause
      generalize hfound : g'.get? w "cause" = found at hcause
      cases hrest : chainDocument rest none with
      | none =>
        rw [hrest] at hcause
        cases hcause
        exact absurd (read_eq_undefined hfound) hdefined
      | some d =>
        rw [hrest] at hcause
        cases hcause with
        | some hx =>
          rw [read_eq_of_get? hfound]
          exact isExactFailure_of_shows hle (fun l hl => hlinks l (List.mem_cons_of_mem link hl)) hrest hx
    · have hshown := hlink.info
      rw [hinfo] at hshown
      exact isExactInfo_of_shows hfits hpayloads hle hshown

/-! ## Thrown values that fit -/

/-- A value is encoded as a payload with nothing else in it. -/
def Codec.EncodesExactly (c : Codec) (g : Graph) (x : Value) : Prop :=
  ∃ p, c.encodeValue g x = .ok p ∧ p.IsExactPayload g

namespace ConverterOptions

variable {o : ConverterOptions} {g : Graph} {v x : Value}

/-- A thrown value fits the wire. If it is an error, its name, its message and its stacks are texts; if it is a failure,
it keeps no wire failure that would be reused, what it carries fits, and the codec makes payloads with nothing else in
them of its details. If messages and stack traces are encoded, the codec makes such a payload of those, too. -/
structure FitsWire (o : ConverterOptions) (g : Graph) (x : Value) : Prop where
  worded : ∀ e, g.errorOf? x = some e → e.name.IsText ∧ e.Worded
  unstored : ∀ e, g.errorOf? x = some e → o.storedOf e = none
  kind : ∀ e f, g.errorOf? x = some e → e.failure? = some f → (f.kind.map .existing).Fits g
  details : ∀ e f, g.errorOf? x = some e → e.failure? = some f → ∀ y ∈ (f.kind.map .existing).items g,
    o.codec.EncodesExactly g y
  attributes : o.encodeCommonAttributes = true → ∀ e, g.toFailure o.frames x = .ok e →
    ∃ a, o.codec.encodeAttributes g e.message (o.stackTraceOf g e) = .ok a ∧ a.IsExactPayload g

/-- **What fits the wire stands for a failure that does.** -/
theorem FitsWire.exists_failure (h : o.FitsWire g x) :
    ∃ e f, g.toFailure o.frames x = .ok e ∧ e.Typed g ∧ e.failure? = some f ∧ o.storedOf e = none ∧ f.kind.Fits g ∧
      ∀ y ∈ f.kind.items g, o.codec.EncodesExactly g y := by
  cases he : g.errorOf? x with
  | none =>
    have hfits : (FailureKind.ofApplication (.text nonErrorType) [] .undefined .undefined).Fits g :=
      .application (.inr ⟨_, rfl⟩) .empty ⟨_, rfl⟩ (.inl rfl)
    exact ⟨Graph.failureOfOther o.frames x, _, by rw [Graph.toFailure, he],
      ThrownError.typed_build hfits.typed ⟨_, rfl⟩ (.inl rfl), rfl, storedOf_of_undefined rfl rfl, hfits, nofun⟩
  | some e =>
    obtain ⟨hname, hworded⟩ := h.worded e he
    have htyped : (e.map Document.existing).Typed g :=
      { name := hname
        message := hworded.message
        stack := hworded.stack
        stackTrace := (hworded.map _).stackTrace
        kind := fun f hf => by
          rw [ThrownError.failure?_map] at hf
          obtain ⟨f', hf', rfl⟩ := Option.map_eq_some_iff.1 hf
          exact (h.kind e f' he hf').typed }
    obtain ⟨e', hmade, htyped', f, hf, hstored, hkind⟩ := Graph.toFailure_of_typed he htyped
    refine ⟨e', f, hmade, htyped', hf, ?_⟩
    rw [hkind]
    cases hfailure : e.failure? with
    | none =>
      rw [hfailure] at hstored
      refine ⟨storedOf_of_undefined hf hstored, ThrownError.fits_hostKind hname, fun y hy => ?_⟩
      rw [Option.map_none, Option.getD_none, ThrownError.items_hostKind] at hy
      cases hy
    | some f' =>
      have hunstored := h.unstored e he
      rw [hfailure] at hstored
      rw [storedOf, hfailure] at hunstored
      rw [storedOf, hf]
      simp only [Option.map_some, Value.ofOption, Option.bind_some] at hstored hunstored ⊢
      rw [hstored]
      exact ⟨hunstored, h.kind e f' he hfailure, h.details e f' he hfailure⟩

/-- **The link for what fits the wire has nothing else in it.** -/
theorem FitsWire.exists_link (h : o.FitsWire g x) (hsource : o.source.IsText) :
    ∃ e link, g.toFailure o.frames x = .ok e ∧ o.storedOf e = none ∧ o.linkOf g e = .ok link ∧ link.IsExact g := by
  obtain ⟨e, f, hmade, htyped, hf, hunstored, hfits, hdetails⟩ := h.exists_failure
  obtain ⟨payloads, hpayloads⟩ := exists_forall₂ hdetails
  have hexact : ∀ p ∈ payloads, p.IsExactPayload g := fun p hp => by
    obtain ⟨y, -, -, hp⟩ := exists_of_forall₂ hpayloads hp
    exact hp
  have hinfo : o.infoOf g e = .ok (f.kind.info payloads) := by
    rw [infoOf, hf]
    exact FailureKind.toInfo_of_typed hfits.typed (hpayloads.imp fun _ _ hy => hy.1)
  have htrace := stackTraceOf_isText (o := o) (g := g) htyped.worded
  by_cases hencode : o.encodeCommonAttributes = true
  · obtain ⟨a, ha, haexact⟩ := h.attributes hencode e hmade
    refine ⟨e, ⟨.text encodedMessage, o.source, .text "", some a, f.kind.info payloads⟩, hmade, hunstored,
      linkOf_eq_ok.2 ⟨_, hinfo, ?_⟩, ⟨_, rfl⟩, hsource, ⟨_, rfl⟩, ?_, _, _, rfl, hfits, hexact⟩
    · rw [if_pos hencode]
      exact ⟨a, ha, rfl⟩
    · rintro _ ⟨⟩
      exact haexact
  · refine ⟨e, ⟨e.message, o.source, o.stackTraceOf g e, none, f.kind.info payloads⟩, hmade, hunstored,
      linkOf_eq_ok.2 ⟨_, hinfo, ?_⟩, htyped.message, hsource, htrace, ?_, _, _, rfl, hfits, hexact⟩
    · rw [if_neg hencode]
    · rintro _ ⟨⟩

end ConverterOptions

/-- **The standard codec makes a payload with nothing else in it of whatever is no payload already.** -/
theorem Codec.isExactPayload_of_encodeValue {host : Host} {g : Graph} {x : Value} {p : Document}
    (hx : g.isPayload x = false) (h : (standard host).encodeValue g x = .ok p) (g' : Graph) : p.IsExactPayload g' := by
  obtain ⟨encoded, hencoded, h⟩ := FailureWire.Except.bind_eq_ok.1 h
  simp only [standard, ofFormat, hx, Bool.false_eq_true, if_false] at hencoded
  obtain ⟨text, -, hencoded⟩ := FailureWire.Except.bind_eq_ok.1 hencoded
  cases hencoded
  cases h
  refine .written fun f hf => ?_
  rw [List.mem_singleton.1 hf]
  decide

theorem Codec.exists_exactAttributes {host : Host} {g : Graph} {message stackTrace : Value}
    (hmessage : message.IsText) (htrace : stackTrace.IsText) :
    ∃ a, (standard host).encodeAttributes g message stackTrace = .ok a ∧ a.IsExactPayload g := by
  obtain ⟨a, ha⟩ := exists_encodeAttributes host g hmessage htrace
  refine ⟨a, ha, isExactPayload_of_encodeValue (Graph.isPayload_of_data ?_) ha g⟩
  exact Graph.IsRecord.read ⟨_, g.node?_push_self (.record [("message", message), ("stack_trace", stackTrace)]),
    fun _ => rfl⟩ "data"

/-- **What is sent is parsed unchanged.** Let a thrown value and everything met along its causes fit the wire, with a
codec that makes payloads with nothing else in them of the details and of the attributes that it has to encode. Then
the value becomes a wire failure, which is accepted by the parser, and the copy that is returned is deeply equal to it.
The standard codec makes such payloads of whatever it encodes, unless that is a payload already. -/
theorem sent_failures_parsed {o : ConverterOptions} {g : Graph} {v : Value} (hsource : o.source.IsText)
    (h : ∀ x ∈ ConverterOptions.linksOrSelf (g.walk o.maxCauseDepth v) v, o.FitsWire g x) :
    (∃ g' w d, (o.errorToFailure g v).outcome.1 = .ok (g', w) ∧ WireFormat.parseFailure g' w = .ok d ∧
      (g'.add d).1.Alike w (g'.add d).2) ∧
    ∀ (host : Host) x p, g.isPayload x = false →
      (Codec.standard host).encodeValue g x = .ok p → p.IsExactPayload g := by
  refine ⟨?_, fun host x p hx hp => Codec.isExactPayload_of_encodeValue hx hp g⟩
  obtain ⟨errors, hlinked⟩ : ∃ errors, List.Forall₂ (fun x e => g.toFailure o.frames x = .ok e ∧ o.storedOf e = none ∧
      ∃ link, o.linkOf g e = .ok link ∧ link.IsExact g)
      (ConverterOptions.linksOrSelf (g.walk o.maxCauseDepth v) v) errors :=
    exists_forall₂ fun x hx => by
      obtain ⟨e, link, hmade, hunstored, hlink, hexact⟩ := (h x hx).exists_link hsource
      exact ⟨e, hmade, hunstored, link, hlink, hexact⟩
  have hne := ne_nil_of_forall₂ hlinked (ConverterOptions.linksOrSelf_ne_nil _ v)
  have hmade := FailureWire.Except.mapM_eq_ok.2 (hlinked.imp fun _ _ hx => hx.1)
  have herrors : ∀ e ∈ errors, o.storedOf e = none ∧ ∃ link, o.linkOf g e = .ok link ∧ link.IsExact g := by
    intro e he
    obtain ⟨x, -, -, hx⟩ := exists_of_forall₂ hlinked he
    exact hx
  obtain ⟨links, hlinks⟩ := exists_forall₂ fun e he => (herrors e he).2
  obtain ⟨g', w, -, hsent, hle, -, hshown, -⟩ := ConverterOptions.errorToFailure_of_links hmade hne
    (fun e he => (herrors e he).1) (hlinks.imp fun _ _ hl => hl.1)
  have hexact : ∀ link ∈ links, link.IsExact g := by
    intro link hl
    obtain ⟨e, -, -, hexact⟩ := exists_of_forall₂ hlinks hl
    exact hexact
  obtain ⟨link, rest, rfl⟩ := List.exists_cons_of_ne_nil (ne_nil_of_forall₂ hlinks hne)
  obtain ⟨d, hd, halike⟩ := Graph.exists_parsed_of_isExactFailure (Graph.isExactFailure_of_shows hle hexact rfl hshown)
  exact ⟨g', w, d, hsent, hd, halike⟩

/-- The failure of an activity and the declined payment behind it are parsed as they are sent, with their messages and
their stack traces encoded. -/
theorem sent_failures_parsed_declinedPayment :
    ∃ g' w d,
      (({ encodeCommonAttributes := true } : ConverterOptions).errorToFailure declinedPayment (.object 2)).outcome.1 =
        .ok (g', w) ∧ WireFormat.parseFailure g' w = .ok d ∧ (g'.add d).1.Alike w (g'.add d).2 := by
  let o : ConverterOptions := { encodeCommonAttributes := true }
  have hchain : declinedPayment.CauseChain (.object 2) [.object 2, .object 1] := .link rfl (.link rfl (.done rfl))
  have hlinks := ConverterOptions.linksOrSelf_walk_of_admits (d := o.maxCauseDepth) hchain (List.cons_ne_nil _ _)
    (show 2 ≤ 50 by decide)
  have hworded {e : ThrownError Value} {name : String} {f : FailureFields Value}
      (hname : e.name = .text name) (hmessage : ∃ s, e.message = .text s) (hstack : e.stack = none)
      (hf : e.failure? = some f) (htrace : f.stackTrace = .undefined) : e.name.IsText ∧ e.Worded := by
    refine ⟨⟨_, hname⟩, hmessage, ?_, ?_⟩
    · rintro s hs
      rw [hstack] at hs
      cases hs
    · rintro f' hf'
      rw [hf] at hf'
      cases hf'
      exact .inl htrace
  have hpayment : o.FitsWire declinedPayment (.object 1) := by
    refine ⟨?_, ?_, ?_, ?_, ?_⟩
    · rintro e ⟨⟩
      exact hworded rfl ⟨_, rfl⟩ rfl rfl rfl
    · rintro e ⟨⟩
      rfl
    · rintro e f ⟨⟩ ⟨⟩
      exact .application (.inr ⟨_, rfl⟩) (.existing rfl) ⟨_, rfl⟩ (.inr ⟨_, 1500, rfl, by decide +kernel, by decide⟩)
    · rintro e f ⟨⟩ ⟨⟩ y hy
      obtain rfl : y = .text "o-1" := List.mem_singleton.1 hy
      obtain ⟨p, hp⟩ := (Codec.exists_encodeValue_iff .plain).2
        (declinedPayment.encodable_of_primitive (v := .text "o-1") rfl)
      exact ⟨p, hp, Codec.isExactPayload_of_encodeValue rfl hp _⟩
    · rintro - e ⟨⟩
      exact Codec.exists_exactAttributes ⟨_, rfl⟩ ⟨_, rfl⟩
  have hactivity : o.FitsWire declinedPayment (.object 2) := by
    refine ⟨?_, ?_, ?_, ?_, ?_⟩
    · rintro e ⟨⟩
      exact hworded rfl ⟨_, rfl⟩ rfl rfl rfl
    · rintro e ⟨⟩
      rfl
    · rintro e f ⟨⟩ ⟨⟩
      exact .activity ⟨_, 5, rfl, by decide +kernel⟩ ⟨_, 6, rfl, by decide +kernel⟩ ⟨_, rfl⟩ ⟨_, rfl⟩ ⟨_, rfl⟩
        (.inr ⟨.timeout, rfl⟩)
    · rintro e f ⟨⟩ ⟨⟩ y hy
      cases hy
    · rintro - e ⟨⟩
      exact Codec.exists_exactAttributes ⟨_, rfl⟩ ⟨_, rfl⟩
  refine (sent_failures_parsed (o := o) ⟨_, rfl⟩ ?_).1
  rw [hlinks]
  simpa using ⟨hactivity, hpayment⟩

/-- An application failure, object 6, with a detail that is a payload, whose metadata have an entry under the name
`__proto__`. -/
def oddPayload : Graph :=
  ⟨[.bytes [120],
    .bytes (Utf8.encode "json/plain".toList),
    .record [("__proto__", .object 0), (Payload.encodingKey, .object 1)],
    .bytes (Utf8.encode "1".toList),
    .record [("metadata", .object 2), ("data", .object 3)],
    .list [.object 4],
    .error <| .build (.application .undefined (.object 5) (.bool false) .undefined) (.text "m") (.text "m") {}]⟩

/-- **Not every payload is parsed unchanged.** A detail that is bytes with metadata of bytes and nothing else is sent as
it is, and the parser leaves out what its metadata have under the name `__proto__`. -/
theorem entry_left_out :
    ConverterOptions.linksOrSelf (oddPayload.walk ({} : ConverterOptions).maxCauseDepth (.object 6)) (.object 6) =
        [.object 6] ∧
    (∃ e f, oddPayload.errorOf? (.object 6) = some e ∧ e.failure? = some f ∧ e.name.IsText ∧ e.Worded ∧
      f.stored = .undefined ∧ (f.kind.map .existing).Fits oddPayload ∧
      (f.kind.map .existing).items oddPayload = [.object 4]) ∧
    Codec.standard.encodeValue oddPayload (.object 4) = .ok (.existing (.object 4)) ∧
    oddPayload.HasOnly ["metadata", "data"] (.object 4) ∧
    (∃ fields, oddPayload.recordOf? (oddPayload.read (.object 4) "metadata") = some fields ∧
      ∀ f ∈ fields, (oddPayload.bytesOf? f.2).isSome = true) ∧
    (oddPayload.bytesOf? (oddPayload.read (.object 4) "data")).isSome = true ∧
    ∃ g' w d, (({} : ConverterOptions).errorToFailure oddPayload (.object 6)).outcome.1 = .ok (g', w) ∧
      WireFormat.parseFailure g' w = .ok d ∧ ¬ (g'.add d).1.Alike w (g'.add d).2 := by
  refine ⟨by decide +kernel, ⟨_, _, rfl, rfl, ⟨_, rfl⟩, ThrownError.worded_build ⟨_, rfl⟩ (.inl rfl), rfl,
    .application (.inl rfl) (.existing rfl) ⟨_, rfl⟩ (.inl rfl), rfl⟩, rfl, ⟨_, rfl, ?_⟩, ⟨_, rfl, ?_⟩, rfl, _, _, _,
    rfl, rfl, fun h => ?_⟩
  · simp +contextual [Fields.get?_cons, eq_comm]
  · simpa using ⟨rfl, rfl⟩
  · have hinfo := h.field rfl rfl "failureInfo" rfl rfl
    have hvalue := hinfo.field rfl rfl "value" rfl rfl
    have hdetails := hvalue.field rfl rfl "details" rfl rfl
    have hpayloads := hdetails.field rfl rfl "payloads" rfl rfl
    obtain ⟨hpayload, -⟩ := List.forall₂_cons.1 (hpayloads.items rfl rfl)
    have hmetadata := hpayload.field rfl rfl "metadata" rfl rfl
    have hproto : Option.Rel _ (some (Value.object 0)) none := hmetadata.fields rfl rfl "__proto__"
    cases hproto

end FailureWire
