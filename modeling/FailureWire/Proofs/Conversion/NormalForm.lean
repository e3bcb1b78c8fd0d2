import FailureWire.Proofs.Conversion.Decoding
import FailureWire.Proofs.Conversion.Rederivation
import FailureWire.Proofs.Conversion.RoundTrip
import FailureWire.Proofs.Payload.Counterparts
import FailureWire.Proofs.Text.Utf8

/-!
# One derivation reaches a normal form

A typed wire failure, whatever it is, is decoded and derived again. Much may get lost on the way: what lies
behind a link without a class, a cycle or the limit, unknown codes, details that are out of place. What comes
out has nothing left to lose: if it is decoded and derived again, the outcome is deeply equal to it
(`rederivation_settles`).

This depends on a codec that never fails, and for which what it decodes and encodes is settled after one round
(`Codec.Settles`), and on delays that are whole numbers of milliseconds (`WireDuration.IsWhole`).
-/

namespace FailureWire

/-! ## Codecs -/

namespace Codec

/-- A payload is decoded, and what it says is put into a larger graph and encoded there. -/
def Recodes (c : Codec) (g : Graph) (x : Value) (g₁ : Graph) (payload : Document) : Prop :=
  ∃ d v, c.decodeValue g x = .ok d ∧ g.Placed g₁ d v ∧ c.encodeValue g₁ v = .ok payload

/-- A codec never fails, encodes a message and a stack trace as a payload of which both are read again, and
gives a payload back, up to deep equality, that comes of decoding one and encoding what it says. -/
structure Settles (c : Codec) : Prop where
  encodes : ∀ g v, ∃ e, c.encode g v = .ok e
  decodes : ∀ p, ∃ d, c.decode p = .ok d
  attributes : ∀ message stackTrace, ∃ payload, ∀ g,
    c.encodeAttributes g (.text message) (.text stackTrace) = .ok payload ∧
      c.AttributesRestoredBy g message stackTrace payload
  recoded : ∀ {g g₁ g₂ : Graph} {x y : Value} {payload : Document} {first : ObjectId},
    g.OfShape Schema.payload x → c.Recodes g x g₁ payload → g₁ ≤ g₂ → g₂.Shows first payload y →
      c.ReturnsAs g₂ Graph.Alike y

variable {c : Codec} {g : Graph}

theorem Settles.exists_encodeValue (hc : c.Settles) (g : Graph) (v : Value) : ∃ p, c.encodeValue g v = .ok p := by
  obtain ⟨e, he⟩ := hc.encodes g v
  rw [encodeValue, he]
  cases e with
  | itself => exact ⟨_, rfl⟩
  | payload p => exact ⟨_, rfl⟩

theorem Settles.decodesAll (hc : c.Settles) (p : Value) : c.Decodes g p := fun q _ => hc.decodes q

theorem exists_of_decodeDetails {details : Option Value} {docs : List Document}
    (h : ∀ d, details = some d → g.OfShape Schema.payloads d) (hdocs : c.decodeDetails g details = .ok docs) :
    ∃ xs ds, docs = Document.alignFrom 1 ds ∧ (∀ x ∈ xs, g.OfShape Schema.payload x) ∧
      List.Forall₂ (fun x d => c.decodeValue g x = .ok d) xs ds := by
  cases details with
  | none =>
    cases hdocs
    exact ⟨[], [], rfl, nofun, .nil⟩
  | some d =>
    obtain ⟨items, -, hpayloads, htyped⟩ := Graph.payloadsOf_of_ofShape (h d rfl)
    rw [decodeDetails, hpayloads, Except.ok_bind] at hdocs
    obtain ⟨ds, hds, hall⟩ := Except.bind_eq_ok.1 hdocs
    cases hall
    exact ⟨items, ds, rfl, htyped, List.forall₂_map_left_iff.1 (Except.mapM_eq_ok.1 hds)⟩

end Codec

/-! ## Codes and delays -/

theorem TimeoutType.code_of_ofCode? {n : Number} {t : TimeoutType} (h : ofCode? n = some t) : t.code = n := by
  unfold ofCode? at h
  simpa using List.find?_some h

theorem RetryState.code_of_ofCode? {n : Number} {t : RetryState} (h : ofCode? n = some t) : t.code = n := by
  unfold ofCode? at h
  simpa using List.find?_some h

namespace Value

/-- A code is read as itself if the table has it, else as none. -/
theorem codeFromWire_cases (has : Number → Bool) (v : Value) :
    codeFromWire has v = .undefined ∨ ∃ n, has n = true ∧ codeFromWire has v = .number n := by
  cases v with
  | number n =>
    by_cases hn : has n = true
    · exact .inr ⟨n, hn, if_pos hn⟩
    · exact .inl (if_neg hn)
  | _ => exact .inl rfl

theorem isCodeOf_timeoutTypeFromWire (v : Value) : (timeoutTypeFromWire v).IsCodeOf TimeoutType.code := by
  rcases codeFromWire_cases (fun n => (TimeoutType.ofCode? n).isSome) v with hnone | ⟨n, hn, hcode⟩
  · exact .inl hnone
  · obtain ⟨t, ht⟩ := Option.isSome_iff_exists.1 hn
    exact .inr ⟨t, hcode.trans (by rw [TimeoutType.code_of_ofCode? ht])⟩

theorem isCodeOf_retryStateFromWire (v : Value) : (retryStateFromWire v).IsCodeOf RetryState.code := by
  rcases codeFromWire_cases (fun n => (RetryState.ofCode? n).isSome) v with hnone | ⟨n, hn, hcode⟩
  · exact .inl hnone
  · obtain ⟨t, ht⟩ := Option.isSome_iff_exists.1 hn
    exact .inr ⟨t, hcode.trans (by rw [RetryState.code_of_ofCode? ht])⟩

theorem orFalse_orFalse (v : Value) : orFalse (orFalse v) = orFalse v := by
  cases v <;> rfl

end Value

namespace WireDuration

/-- A duration of whole seconds and whole milliseconds beyond them. -/
def IsWhole (d : WireDuration) : Prop :=
  ∃ seconds millis : Int, d.seconds.toInt? = some seconds ∧ seconds.natAbs ≤ 9007198 ∧ 0 ≤ millis ∧
    millis < 1000 ∧ d.nanos = .ofInt (millis * 1000000)

theorem IsWhole.exists_toMillis {d : WireDuration} (h : d.IsWhole) :
    ∃ ms : Int, d.toMillis = .ofInt ms ∧ ms.natAbs ≤ 9007199254 := by
  obtain ⟨seconds, nanos⟩ := d
  obtain ⟨s, ms, hs, hsize, hlow, hhigh, rfl⟩ := h
  rcases Number.eq_ofInt_of_toInt? (Number.fits_of_natAbs_le (by omega)) hs with rfl | ⟨rfl, rfl⟩
  · exact ⟨_, toMillis_ofInt (by omega) (by omega), by omega⟩
  · -- a negative zero does not show beside the milliseconds
    have hnanos : Number.ofInt (ms * 1000000) / nanosPerMilli = .ofInt ms :=
      Number.div_ofInt_of_dvd (Number.fits_of_natAbs_le (by omega)) (Number.fits_of_natAbs_le (by omega))
        (by decide)
    have hseconds : Number.negativeZero * 1000 = Number.negativeZero := by decide +kernel
    refine ⟨ms, ?_, by omega⟩
    rw [toMillis, hnanos, hseconds, Number.negativeZero_add_ofInt (Number.fits_of_natAbs_le (by omega))]

/-- A whole number of milliseconds is read as it was sent. -/
theorem conveyed_ofInt {ms : Int} (h : ms.natAbs ≤ 9007199254) :
    (Value.number (.ofInt ms)).conveyed = .number (.ofInt ms) := by
  rw [Value.conveyed, ofMillis_ofInt h, toMillis_ofInt (by omega) (by omega),
    show ms / 1000 * 1000 + ms % 1000 = ms by omega]

end WireDuration

/-- The duration after which a link says that there is to be another try. -/
def Graph.retryDelayAt? (g : Graph) (x : Value) : Option WireDuration :=
  match g.infoAt x with
  | .ok (.application _ _ _ (some d)) => (g.durationOf d).toOption
  | _ => none

/-! ## Kinds that are decoded -/

namespace FailureKind

theorem info_map (k : FailureKind Document) (f : Document → Document) (payloads : List Document) :
    (k.map f).info payloads = k.info payloads := by
  cases k <;> rfl

theorem isMapped_info (k : FailureKind Document) (payloads others : List Document) :
    (k.info payloads).isMapped = (k.info others).isMapped := by
  cases k <;> rfl

theorem Typed.withDetails {g g' : Graph} {k : FailureKind Document} {d : Document} (hk : k.Typed g)
    (hd : k.details? ≠ none → g'.Listed d) : (k.map fun _ => d).Typed g' := by
  cases hk with
  | application htype _ hdelay => exact .application htype (hd nofun) hdelay
  | cancelled _ => exact .cancelled (hd nofun)
  | terminated _ => exact .terminated (hd nofun)
  | timeout _ => exact .timeout (hd nofun)
  | generic => exact .generic
  | server => exact .server _
  | activity => exact .activity ..
  | childWorkflow => exact .childWorkflow ..
  | alreadyStarted => exact .alreadyStarted ..

theorem Typed.isOptionalText_type {g : Graph} {k : FailureKind Document} (hk : k.Typed g) {f : Document → Document}
    {type b d : Value} {details : Document} (h : k.map f = .application type details b d) : type.IsOptionalText := by
  cases hk with
  | application htype =>
    cases h
    exact htype
  | _ => cases h

/-- A kind is decoded with details from payloads: it is stable, but for its details. -/
structure DecodedWith (c : Codec) (g : Graph) (k : FailureKind Document) (xs : List Value) (ds : List Document) :
    Prop where
  stable : k.Stable xs.length
  payloads : ∀ x ∈ xs, g.OfShape Schema.payload x
  details : List.Forall₂ (fun x d => c.decodeValue g x = .ok d) xs ds

end FailureKind

/-- **What typed information is decoded to is stable**, if the delay is whole. -/
theorem FailureInfo.Typed.exists_decodedWith {c : Codec} {g : Graph} {info : FailureInfo Value}
    {kind? : Option (FailureKind Document)} (h : info.Typed g)
    (hdelay : ∀ type b details d t, info = .application type b details (some d) → g.durationOf d = .ok t →
      t.IsWhole) (hkind : info.toKind c g = .ok kind?) :
    ∃ (k : FailureKind Document) (xs : List Value) (ds : List Document), k.DecodedWith c g xs ds ∧
      kind?.getD .generic = k.map (fun _ => .list (Document.alignFrom 1 ds)) ∧
      kind?.isSome = (k.info []).isMapped := by
  cases h with
  | unmapped case =>
    cases hkind
    exact ⟨.generic, [], [], ⟨FailureKind.stable_generic, nofun, .nil⟩, rfl, rfl⟩
  | @application type b details delay htype hdetails hduration =>
    obtain ⟨docs, hdocs, hkind⟩ := Except.bind_eq_ok.1 hkind
    obtain ⟨ms, hms, hkind⟩ := Except.bind_eq_ok.1 hkind
    cases hkind
    obtain ⟨xs, ds, rfl, hxs, hds⟩ := Codec.exists_of_decodeDetails hdetails hdocs
    have htype' : (if type.isTruthy then type else .undefined).IsOptionalText := by
      split
      · exact htype.optional
      · exact .inl rfl
    obtain ⟨hnumber, hsame⟩ : ms.IsOptionalNumber ∧ ms.conveyed = ms := by
      cases delay with
      | none =>
        cases hms
        exact ⟨.inl rfl, rfl⟩
      | some d =>
        obtain ⟨t, ht, hms⟩ := Except.bind_eq_ok.1 hms
        cases hms
        obtain ⟨i, hi, hsize⟩ := (hdelay _ _ _ d t rfl ht).exists_toMillis
        rw [hi]
        exact ⟨.inr ⟨_, rfl⟩, WireDuration.conveyed_ofInt hsize⟩
    exact ⟨_, xs, ds, ⟨FailureKind.stable_application _ htype' (Value.orFalse_orFalse b) hnumber hsame, hxs, hds⟩,
      rfl, rfl⟩
  | @timeout type details hdetails =>
    obtain ⟨docs, hdocs, hkind⟩ := Except.bind_eq_ok.1 hkind
    cases hkind
    obtain ⟨xs, ds, rfl, hxs, hds⟩ := Codec.exists_of_decodeDetails hdetails hdocs
    have hcode := Value.timeoutTypeFromWire_codeToWire (Value.isCodeOf_timeoutTypeFromWire type)
    have hkept := congrArg codeToWire hcode
    by_cases hheartbeat : timeoutTypeFromWire type = .number TimeoutType.heartbeat.code
    · refine ⟨.timeout (timeoutTypeFromWire type) (.list []), xs, ds,
        ⟨FailureKind.stable_timeout hkept fun _ => hcode.trans hheartbeat, hxs, hds⟩, ?_, rfl⟩
      simp only [Option.getD_some, FailureKind.ofTimeout, if_pos hheartbeat, FailureKind.map]
    · refine ⟨.timeout (timeoutTypeFromWire type) (.list []), [], [],
        ⟨FailureKind.stable_timeout hkept fun hcount => absurd rfl hcount, nofun, .nil⟩, ?_, rfl⟩
      simp only [Option.getD_some, FailureKind.ofTimeout, if_neg hheartbeat, FailureKind.map, Document.alignFrom]
  | @canceled details hdetails =>
    obtain ⟨docs, hdocs, hkind⟩ := Except.bind_eq_ok.1 hkind
    cases hkind
    obtain ⟨xs, ds, rfl, hxs, hds⟩ := Codec.exists_of_decodeDetails hdetails hdocs
    exact ⟨_, xs, ds, ⟨FailureKind.stable_cancelled _, hxs, hds⟩, rfl, rfl⟩
  | @terminated details hdetails =>
    obtain ⟨docs, hdocs, hkind⟩ := Except.bind_eq_ok.1 hkind
    cases hkind
    obtain ⟨xs, ds, rfl, hxs, hds⟩ := Codec.exists_of_decodeDetails hdetails hdocs
    exact ⟨_, xs, ds, ⟨FailureKind.stable_terminated _, hxs, hds⟩, rfl, rfl⟩
  | server nonRetryable =>
    cases hkind
    exact ⟨_, [], [], ⟨FailureKind.stable_server (Value.orFalse_orFalse nonRetryable), nofun, .nil⟩, rfl, rfl⟩
  | activity scheduledEventId startedEventId identity activityType activityId retryState =>
    cases hkind
    have hkept := congrArg codeToWire
      (Value.retryStateFromWire_codeToWire (Value.isCodeOf_retryStateFromWire retryState))
    exact ⟨_, [], [], ⟨FailureKind.stable_activity _ _ _ _ _ hkept, nofun, .nil⟩, rfl, rfl⟩
  | childWorkflow namespaceName workflowId runId workflowType initiatedEventId startedEventId retryState =>
    cases hkind
    have hkept := congrArg codeToWire
      (Value.retryStateFromWire_codeToWire (Value.isCodeOf_retryStateFromWire retryState))
    exact ⟨_, [], [], ⟨FailureKind.stable_childWorkflow _ _ _ _ _ _ hkept, nofun, .nil⟩, rfl, rfl⟩

namespace ConverterOptions

variable {o : ConverterOptions} {g g₁ g₂ : Graph} {x v w : Value}

/-! ## Errors that come of typed links -/

/-- An error comes of a typed link: a failure of a stable kind with details that were decoded, whose message and
stack trace are texts. Whether it has a class of its own goes with it. -/
def Comes (o : ConverterOptions) (g : Graph) (arrival : ThrownError Document × Bool) : Prop :=
  ∃ (k : FailureKind Document) (xs : List Value) (ds : List Document) (display stored : Value)
    (message stackTrace frames : String), k.DecodedWith o.codec g xs ds ∧
    arrival = (.build (k.map fun _ => .list (Document.alignFrom 1 ds)) (.text message) display
      { stored, stackTrace := .text stackTrace, frames }, (k.info []).isMapped)

theorem isText_stackTrace_attributesAt (hx : g.TypedLink x) : (o.attributesAt g x).stackTrace.IsText := by
  have hplain : (CommonAttributes.plain g x).stackTrace.IsText :=
    Value.isText_orElse (hx.leading.read (s := .optional .text) (by simp [WireFormat.leading])) ⟨_, rfl⟩
  unfold attributesAt
  cases hdecoded : o.decodedAttributes? g x with
  | none => exact hplain
  | some a =>
    obtain ⟨p, -, hp⟩ := Option.bind_eq_some_iff.1 hdecoded
    split at hp
    · exact (areTexts_of_ofDocument? hp).2
    · cases hp

/-- **Of a typed link an error comes.** -/
theorem exists_errorOf_of_typed (hc : o.codec.Settles) (hx : g.TypedLink x)
    (hdelay : ∀ t, g.retryDelayAt? x = some t → t.IsWhole) :
    ∃ arrival, (o.errorOf g x).Gives arrival ∧ o.Comes g arrival := by
  obtain ⟨info, hinfo, htyped, -⟩ := Graph.exists_infoAt_of_typed hx.info
  obtain ⟨kind?, hkind⟩ := (htyped.exists_toKind_iff (c := o.codec) hinfo).2 fun p _ => hc.decodesAll p
  obtain ⟨k, xs, ds, hdecoded, hmade, hmapped⟩ := htyped.exists_decodedWith
    (fun type b details d t hd ht => hdelay t (by rw [Graph.retryDelayAt?, hinfo, hd]; dsimp only; rw [ht]; rfl))
    hkind
  have hattributes : (o.attributesOf g x).Gives (o.attributesAt g x) := fun before =>
    ⟨_, ends_attributesOf hx.isMissing fun p hp => (Codec.decodes_iff (hx.encodedAttributes p hp)).1 (hc.decodesAll p)⟩
  obtain ⟨message, hmessage⟩ := isText_attributesAt (o := o) hx.message
  obtain ⟨stackTrace, htrace⟩ := isText_stackTrace_attributesAt (o := o) hx
  have hsplit : o.attributesAt g x = ⟨.text message, .text stackTrace⟩ := by rw [← hmessage, ← htrace]
  rw [hsplit] at hattributes
  obtain ⟨display, hdisplay⟩ := toError_of_typed g o.frames (kind?.getD .generic) (.text stackTrace) x ⟨message, rfl⟩
    fun type details b d h => (hdecoded.stable.typed g).isOptionalText_type (hmade.symm.trans h)
  refine ⟨_, errorOf_of_parts hattributes hinfo hkind hdisplay, k, xs, ds, display, x, message, stackTrace,
    o.frames (.received (kind?.getD .generic).errorClass), hdecoded, ?_⟩
  rw [FailureOptions.received, hmade, hmapped]


/-! ## Links in normal form -/

/-- There is a link that says a message and as much of a stack trace as is sent. -/
theorem exists_says (hc : o.codec.Settles) (message stackTrace : String) (info : FailureInfo Document) :
    ∃ link : WireLink, link.source = o.source ∧ link.info = info ∧
      o.Says link message (if o.includeStackTrace then stackTrace else "") := by
  have huntraced : o.includeStackTrace = false → (if o.includeStackTrace then stackTrace else "") = "" := by
    intro ho
    rw [ho]
    rfl
  by_cases ho : o.encodeCommonAttributes = true
  · obtain ⟨a, ha⟩ := hc.attributes message (if o.includeStackTrace then stackTrace else "")
    refine ⟨⟨.text encodedMessage, o.source, .text "", some a, info⟩, rfl, rfl, huntraced, ?_,
      fun _ => ⟨rfl, rfl, a, rfl, fun g => (ha g).1⟩⟩
    intro hplain
    rw [ho] at hplain
    cases hplain
  · exact ⟨⟨.text message, o.source, .text (if o.includeStackTrace then stackTrace else ""), none, info⟩, rfl, rfl,
      huntraced, fun _ => ⟨rfl, rfl, rfl⟩, fun hencode => absurd hencode ho⟩

/-- A link is in normal form: it has the converter's own source, it says a message and a stack trace, and it
informs about a stable kind with payloads that come of decoding others. -/
structure Normal (o : ConverterOptions) (g g₁ : Graph) (link : WireLink) : Prop where
  source : link.source = o.source
  said : ∃ message stackTrace, o.Says link message stackTrace
  info : ∃ (k : FailureKind Document) (payloads : List Document), k.Stable payloads.length ∧
    link.info = k.info payloads ∧ ∀ p ∈ payloads, ∃ x, g.OfShape Schema.payload x ∧ o.codec.Recodes g x g₁ p

/-- **The link for an error that came of a typed link is in normal form.** -/
theorem exists_normal_of_comes (hc : o.codec.Settles) {a : ThrownError Document × Bool} (ha : o.Comes g a)
    (hv : g.Raised g₁ a.1 v) :
    ∃ e link, g₁.toFailure o.frames v = .ok e ∧ o.linkOf g₁ e = .ok link ∧ o.Normal g g₁ link ∧
      link.info.isMapped = a.2 := by
  obtain ⟨k, xs, ds, display, stored, message, stackTrace, frames, ⟨hstable, hxs, hds⟩, rfl⟩ := ha
  obtain ⟨cause, details, he, hplaced⟩ := hv
  have hcount : k.details? = none → xs = [] := fun hnone =>
    List.length_eq_zero_iff.1 (hstable.count_eq_zero hnone)
  have hkept := FailureKind.details?_map (fun _ => Document.list (Document.alignFrom 1 ds)) k
  obtain ⟨hlisted, hitems⟩ := exists_details hcount hkept hds hplaced
  -- the details that were put into the graph are encoded one by one
  obtain ⟨payloads, hrecodes, hencode⟩ := exists_common (hitems.imp fun x v ⟨d, hd, hv⟩ => by
    obtain ⟨p, hp⟩ := hc.exists_encodeValue g₁ v
    exact (⟨p, ⟨d, v, hd, hv, hp⟩, hp⟩ : ∃ p, o.codec.Recodes g x g₁ p ∧ o.codec.encodeValue g₁ v = .ok p))
  have hkind : ((k.map fun _ => Document.list (Document.alignFrom 1 ds)).map fun _ => details).map .existing =
      k.map fun _ => Document.existing details := by cases k <;> rfl
  have htyped : (k.map fun _ => Document.existing details).Typed g₁ := (hstable.typed g).withDetails hlisted
  rw [hkind] at hencode
  have hinfo := FailureKind.toInfo_of_typed htyped hencode
  rw [FailureKind.info_map] at hinfo
  obtain ⟨link, hsource, hlinkInfo, hspoken⟩ := exists_says hc message stackTrace (k.info payloads)
  have hfailure := ThrownError.failure?_map Document.existing
    (((ThrownError.build (k.map fun _ => Document.list (Document.alignFrom 1 ds)) (.text message) display
      { stored, stackTrace := .text stackTrace, frames }).withCause cause).map fun _ => details)
  have hlinkOf := linkOf_of_says (g := g₁) hspoken rfl (stackTraceOf_of_text hfailure rfl) hfailure
    (hkind.symm ▸ hinfo)
  refine ⟨_, link, Graph.toFailure_of_failure he rfl, ?_, ⟨hsource, ⟨_, _, hspoken⟩, k, payloads, ?_, hlinkInfo, ?_⟩,
    ?_⟩
  · rw [hlinkOf, ← hlinkInfo, ← hsource]
  · rw [← hrecodes.length_eq]
    exact hstable
  · intro p hp
    obtain ⟨x, hx, hrecoded⟩ := exists_of_forall₂ hrecodes hp
    exact ⟨x, hxs x hx, hrecoded⟩
  · rw [hlinkInfo]
    exact FailureKind.isMapped_info k payloads []

/-- What is known of a payload of a link in normal form, where it is read. -/
def Settled (o : ConverterOptions) (g : Graph) (first : ObjectId) (p : Document) (x : Value) : Prop :=
  p.IsWire ∧ g.Shows first p x ∧ o.codec.ReturnsAs g Graph.Alike x

/-- **A link in normal form can be derived again** where it is shown. -/
theorem Normal.renewable (hc : o.codec.Settles) {link : WireLink} {first : ObjectId} (h : o.Normal g g₁ link)
    (hle : g₁ ≤ g₂) : o.Renewable g₂ (g₂.Shows first) (o.Settled g₂ first) link := by
  obtain ⟨hsource, ⟨message, stackTrace, hspoken⟩, k, payloads, hstable, hinfo, hpayloads⟩ := h
  refine ⟨hsource, ⟨message, stackTrace, hspoken, fun cause w hw => ?_⟩, k, payloads, hstable, hinfo,
    fun p hp x hx => ?_⟩
  · by_cases ho : o.encodeCommonAttributes = true
    · obtain ⟨-, -, a, ha, hencode⟩ := hspoken.encoded ho
      obtain ⟨a', hrestored⟩ := hc.attributes message stackTrace
      exact attributesOf_of_restored (le_refl g₂) hw ha (hencode g₂) ⟨a', hrestored g₂⟩
    · obtain ⟨hmessage, htrace, hnone⟩ := hspoken.plain (Bool.eq_false_iff.2 ho)
      have hgives := attributesOf_of_readsLink (r := o) hw hnone
      rwa [hmessage, htrace] at hgives
  · obtain ⟨y, hy, hrecoded⟩ := hpayloads p hp
    have hsettled := hc.recoded hy hrecoded hle hx
    obtain ⟨d, v, -, -, hencode⟩ := hrecoded
    exact ⟨Codec.isWire_of_encodeValue hencode, hx, hsettled⟩

/-! ## Derivations -/

/-- A wire failure is decoded, and the error that comes of it is encoded. -/
def rederive (o : ConverterOptions) (g : Graph) (w : Value) : Except Fault (Graph × Value) := do
  let (g, v) ← (o.failureToError g w).outcome.1
  (o.errorToFailure g v).outcome.1

theorem rederive_eq_ok {r : Graph × Value} (hreceived : (o.failureToError g w).outcome.1 = .ok (g₁, v))
    (hsent : (o.errorToFailure g₁ v).outcome.1 = .ok r) : o.rederive g w = .ok r := by
  rw [rederive, hreceived]
  exact hsent

theorem length_kept_le (arrivals : List (ThrownError Document × Bool)) :
    (kept arrivals).length ≤ arrivals.length := by
  induction arrivals with
  | nil => exact Nat.le_refl 0
  | cons a rest ih =>
    unfold kept
    split
    · exact Nat.succ_le_succ ih
    · exact Nat.succ_le_succ (Nat.zero_le _)

/-- Every error that is kept in front of others has a class of its own. -/
theorem exists_arrivals_of_kept {P : ThrownError Document × Bool → Prop}
    {arrivals : List (ThrownError Document × Bool)} (h : ∀ a ∈ arrivals, P a) :
    ∃ front : List (ThrownError Document × Bool), kept arrivals = front.map (·.1) ∧ (∀ a ∈ front, P a) ∧
      ∀ a ∈ front.dropLast, a.2 = true := by
  induction arrivals with
  | nil => exact ⟨[], rfl, by simp, by simp⟩
  | cons first rest ih =>
    obtain ⟨e, mapped⟩ := first
    obtain ⟨hfirst, hrest⟩ := List.forall_mem_cons.1 h
    obtain ⟨front, hfront, hP, hmapped⟩ := ih hrest
    cases mapped with
    | false => exact ⟨[(e, false)], rfl, List.forall_mem_singleton.2 hfirst, by simp⟩
    | true =>
      refine ⟨(e, true) :: front, congrArg (e :: ·) hfront, List.forall_mem_cons.2 ⟨hfirst, hP⟩, ?_⟩
      intro a ha
      cases front with
      | nil => cases ha
      | cons next more =>
        rw [List.dropLast_cons_cons] at ha
        rcases List.mem_cons.1 ha with rfl | ha
        · rfl
        · exact hmapped a ha

/-- **A typed wire failure is derived as a chain of links in normal form.** -/
theorem exists_normal_of_typed (hc : o.codec.Settles) (hreuse : o.reuseStoredFailure = false) (h : g.TypedWire w)
    (hdelay : ∀ x ∈ linksOrSelf (g.walk o.maxCauseDepth w) w, ∀ t, g.retryDelayAt? x = some t → t.IsWhole) :
    ∃ g₁ g₂ w' links, o.rederive g w = .ok (g₂, w') ∧ g ≤ g₁ ∧ g₁ ≤ g₂ ∧ links ≠ [] ∧
      links.length ≤ max 1 (o.maxCauseDepth.linksIn g) ∧ (∀ link ∈ links, o.Normal g g₁ link) ∧
      (∀ link ∈ links.dropLast, link.info.isMapped = true) ∧
      g₂.Shows g₁.size (Emitted.document ⟨links, none⟩) w' := by
  obtain ⟨arrivals, harrivals⟩ := exists_forall₂ fun x hx =>
    exists_errorOf_of_typed hc (h.typedLink_of_mem o.maxCauseDepth x hx) (hdelay x hx)
  have hreceived := failureToError_of_wireWalk (h.wireWalk_eq_walk o.maxCauseDepth) (harrivals.imp fun _ _ ha => ha.1)
  have hlength := length_linksOrSelf_le g o.maxCauseDepth w
  have hkept := length_kept_le arrivals
  rw [harrivals.length_eq] at hlength
  have hne := kept_ne_nil (ne_nil_of_forall₂ harrivals (linksOrSelf_ne_nil _ w))
  obtain ⟨front, hfront, hcomes, hmapped⟩ := exists_arrivals_of_kept (P := o.Comes g) fun a ha => by
    obtain ⟨x, -, -, hx⟩ := exists_of_forall₂ harrivals ha
    exact hx
  rw [hfront] at hreceived hkept hne
  have hplain : ∀ e ∈ front.map (·.1), e.cause = none ∧ e.extra = [] := by
    intro e he
    obtain ⟨a, ha, rfl⟩ := List.mem_map.1 he
    obtain ⟨k, xs, ds, display, stored, message, stackTrace, frames, -, rfl⟩ := hcomes a ha
    exact ⟨rfl, rfl⟩
  obtain ⟨vs, hchain, hraised⟩ := g.raised_addErrors hplain
  have hle := g.le_addErrors (front.map (·.1))
  generalize g.addErrors (front.map (·.1)) = added at hreceived hchain hraised hle
  obtain ⟨g₁, v⟩ := added
  rw [List.forall₂_map_left_iff] at hraised
  have hboth : List.Forall₂ (fun a x => o.Comes g a ∧ g.Raised g₁ a.1 x) front vs := by
    refine forall₂_comp ?_ (List.forall₂_same.2 fun a ha => ⟨rfl, hcomes a ha⟩ :
      List.Forall₂ (fun a b => a = b ∧ o.Comes g a) front front) hraised
    rintro a _ x ⟨rfl, ha⟩ hx
    exact ⟨ha, hx⟩
  -- each of the errors is encoded as a link in normal form
  obtain ⟨links, hnormal, hlinked⟩ := exists_common (hboth.imp fun a x ⟨ha, hx⟩ => by
    obtain ⟨e, link, hmade, hlinkOf, hnormal, hsame⟩ := exists_normal_of_comes hc ha hx
    exact (⟨link, ⟨hnormal, hsame⟩, e, hmade, hlinkOf⟩ :
      ∃ link, (o.Normal g g₁ link ∧ link.info.isMapped = a.2) ∧
        ∃ e, g₁.toFailure o.frames x = .ok e ∧ o.linkOf g₁ e = .ok link))
  have hmany : vs.length ≤ max 1 (o.maxCauseDepth.linksIn g) := by
    rw [List.length_map, hboth.length_eq] at hkept
    omega
  have hsome : vs ≠ [] := ne_nil_of_forall₂ hboth (by simpa using hne)
  have hgrown := Graph.linksIn_mono hle o.maxCauseDepth
  obtain ⟨g₂, w', ws', hsent, hle', -, hshown, -⟩ :=
    errorToFailure_of_linked hreuse hchain hsome (by omega) hlinked
  refine ⟨g₁, g₂, w', links, rederive_eq_ok hreceived hsent, hle, hle', ne_nil_of_forall₂ hlinked hsome,
    hlinked.length_eq ▸ hmany, ?_, ?_, hshown⟩
  · intro link hlink
    obtain ⟨a, -, ha, -⟩ := exists_of_forall₂ hnormal hlink
    exact ha
  · intro link hlink
    have hfront' := List.forall₂_take (front.length - 1) hnormal
    rw [← List.dropLast_eq_take, hnormal.length_eq, ← List.dropLast_eq_take] at hfront'
    obtain ⟨a, ha, -, hsame⟩ := exists_of_forall₂ hfront' hlink
    rw [hsame]
    exact hmapped a ha

/-- What was derived of a typed wire failure is derived again, deeply equal. -/
theorem alike_of_normal (hc : o.codec.Settles) (hreuse : o.reuseStoredFailure = false) (hle : g₁ ≤ g₂)
    {links : List WireLink} {first : ObjectId} (hne : links ≠ [])
    (hdepth : links.length ≤ max 1 (o.maxCauseDepth.linksIn g₂)) (hlinks : ∀ link ∈ links, o.Normal g g₁ link)
    (hmapped : ∀ link ∈ links.dropLast, link.info.isMapped = true)
    (hw : g₂.Shows first (Emitted.document ⟨links, none⟩) w) :
    ∃ g₃ w', o.rederive g₂ w = .ok (g₃, w') ∧ g₂ ≤ g₃ ∧ g₃.Alike w w' := by
  obtain ⟨g', v, g₃, w', ws', links', hreceived, hsent, hle', hle'', -, hshown, -, hsame⟩ :=
    renewed (T := Graph.Alike) (W := o.Settled g₂ first) (g₂.reading_shows first) hreuse (fun p x hx => hx.2.2)
      hne hdepth (fun link hlink => (hlinks link hlink).renewable hc hle) hmapped hw
  refine ⟨g₃, w', rederive_eq_ok hreceived hsent, hle'.trans hle'', ?_⟩
  have hS := g₃.reading_shows first
  refine Graph.mirrors_emitted hS (hsame.imp fun _ _ h => h.imp ?_) w w' (hw.mono (hle'.trans hle'')) hshown
  rintro p q ⟨x, ⟨hwire, hx, -⟩, hstands⟩ y z hy hz
  -- two values that show one payload are deeply equal
  have hyx := Graph.mirrors_self hS hwire y x hy (hx.mono (hle'.trans hle''))
  exact hyx.trans (hstands g₃ g'.size z hle'' hz)

end ConverterOptions

/-- **One derivation reaches a normal form.** Let the codec settle what it decodes and encodes, and let no stored
failures be reused. A typed wire failure, cyclic or too long or with information of no known class, is decoded and
derived again without a failure, and what comes out, derived once more, is deeply equal to itself. -/
theorem rederivation_settles {o : ConverterOptions} {g : Graph} {w : Value} (hcodec : o.codec.Settles)
    (hreuse : o.reuseStoredFailure = false) (h : g.TypedWire w)
    (hdelay : ∀ x ∈ ConverterOptions.linksOrSelf (g.walk o.maxCauseDepth w) w, ∀ t,
      g.retryDelayAt? x = some t → t.IsWhole) :
    ∃ g₁ w₁ g₂ w₂, o.rederive g w = .ok (g₁, w₁) ∧ o.rederive g₁ w₁ = .ok (g₂, w₂) ∧ g ≤ g₁ ∧ g₁ ≤ g₂ ∧
      g₂.Alike w₁ w₂ := by
  obtain ⟨g', g₁, w₁, links, hderived, hle, hle₁, hne, hmany, hnormal, hmapped, hshown⟩ :=
    ConverterOptions.exists_normal_of_typed hcodec hreuse h hdelay
  have hgrown := Graph.linksIn_mono (hle.trans hle₁) o.maxCauseDepth
  obtain ⟨g₂, w₂, hagain, hle₂, halike⟩ := ConverterOptions.alike_of_normal hcodec hreuse hle₁ hne (by omega)
    hnormal hmapped hshown
  exact ⟨g₁, w₁, g₂, w₂, hderived, hagain, hle.trans hle₁, hle₂, halike⟩

/-- The text of an entry of metadata, if its bytes are those of a text. -/
def Payload.label? (p : Payload) (name : String) : Option String :=
  (Fields.get? p.metadata name).bind fun bytes => (Utf8.decode? bytes).map String.ofList

/-- A message and a stack trace as metadata, without any data. -/
def Payload.labels (message stackTrace : String) : Payload :=
  ⟨[("message", Utf8.encode message.toList), ("stack_trace", Utf8.encode stackTrace.toList)], some []⟩

/-- Writes a message and a stack trace as metadata, and whatever else a value has not at all. -/
def Codec.labelled : Codec where
  encode g v :=
    .ok <| if g.isPayload v then .itself
      else .payload (.labels ((g.read v "message").text?.getD "") ((g.read v "stack_trace").text?.getD ""))
  decode p :=
    .ok <| match p.label? "message", p.label? "stack_trace" with
      | some message, some stackTrace =>
        .value (.record [("message", .text message), ("stack_trace", .text stackTrace)])
      | _, _ => .itself

namespace Codec

theorem encodeValue_labelled {g g₁ : Graph} {message stackTrace : String} {v : Value}
    (hv : g.Placed g₁ (.record [("message", .text message), ("stack_trace", .text stackTrace)]) v) :
    labelled.encodeValue g₁ v = .ok (Payload.labels message stackTrace).document := by
  obtain ⟨between, -, hle, rfl⟩ := hv
  have hadded : (between.add (.record [("message", .text message), ("stack_trace", .text stackTrace)])).1.IsRecord
      (between.add (.record [("message", .text message), ("stack_trace", .text stackTrace)])).2
      [("message", .text message), ("stack_trace", .text stackTrace)] :=
    ⟨_, between.node?_push_self (.record [("message", .text message), ("stack_trace", .text stackTrace)]),
      fun _ => rfl⟩
  have hrecord := hadded.mono hle
  have hpayload := Graph.isPayload_of_data (hrecord.read "data")
  simp only [encodeValue, labelled, hpayload]
  rw [hrecord.read "message", hrecord.read "stack_trace"]
  rfl

theorem decode_labels (message stackTrace : String) : labelled.decode (.labels message stackTrace) =
    .ok (.value (.record [("message", .text message), ("stack_trace", .text stackTrace)])) := by
  simp [labelled, Payload.label?, Payload.labels, Fields.get?, Utf8.decode?_encode]

theorem decodeValue_labels {g : Graph} {first : ObjectId} {message stackTrace : String} {w : Value}
    (hw : g.Shows first (Payload.labels message stackTrace).document w) : labelled.decodeValue g w =
      .ok (.record [("message", .text message), ("stack_trace", .text stackTrace)]) := by
  rw [decodeValue, Graph.payloadOf_of_shows rfl hw, Except.ok_bind, decode_labels]
  rfl

theorem decode_labelled_cases (p : Payload) : labelled.decode p = .ok .itself ∨
    ∃ message stackTrace, labelled.decode p =
      .ok (.value (.record [("message", .text message), ("stack_trace", .text stackTrace)])) := by
  simp only [labelled]
  split
  · exact .inr ⟨_, _, rfl⟩
  · exact .inl rfl

theorem settles_labelled : labelled.Settles where
  encodes _ _ := ⟨_, rfl⟩
  decodes _ := ⟨_, rfl⟩
  attributes message stackTrace :=
    ⟨(Payload.labels message stackTrace).document, fun g =>
      ⟨encodeValue_labelled (g.placed_add _), fun _ _ _ _ hw => ⟨_, decodeValue_labels hw, rfl, rfl⟩⟩⟩
  recoded := by
    intro g g₁ g₂ x y payload first hx hrecodes hle hy
    obtain ⟨d, v, hd, hv, hencode⟩ := hrecodes
    obtain ⟨metadata, data, hread⟩ := Graph.payloadOf_of_ofShape hx
    rw [decodeValue, hread, Except.ok_bind] at hd
    rcases decode_labelled_cases ⟨metadata, some data⟩ with hkept | ⟨message, stackTrace, hlabels⟩
    · -- a payload that is kept is encoded as itself, and decoded as itself in the larger graph as well
      have hpayload := Graph.isPayload_of_ofShape hx
      rw [hkept] at hd
      cases hd
      have hsame {h h' : Graph} {w : Value} (hle : g ≤ h) (hw : h.Placed h' (.existing x) w) :
          labelled.encodeValue h' w = .ok (.existing x) := by
        have hthere := Graph.isPayload_of_le (hle.trans hw.le) hpayload
        obtain ⟨between, -, -, rfl⟩ := hw
        simp only [encodeValue, labelled, hthere]
        rfl
      cases (hsame (le_refl g) hv).symm.trans hencode
      cases hy
      have hle₂ := hv.le.trans hle
      refine ⟨.existing x, ?_, fun g₃ w hw => ⟨.existing x, hsame hle₂ hw, ?_⟩⟩
      · rw [decodeValue, Graph.payloadOf_eq_of_le hle₂ hpayload, hread, Except.ok_bind, hkept]
        rfl
      · rintro g₄ first' z - rfl
        exact .refl g₄ _
    · rw [hlabels] at hd
      cases hd
      cases (encodeValue_labelled hv).symm.trans hencode
      refine ⟨_, decodeValue_labels hy, fun g₃ w hw => ⟨_, encodeValue_labelled hw, fun g₄ first' z hle' hz => ?_⟩⟩
      exact Graph.mirrors_self (g₄.reading_shows first) (Payload.isWire_document _) y z
        (hy.mono (hw.le.trans hle')) hz

end Codec

/-- A wire failure, object 9, that is caused by itself. It is to be retried after a second and a half, and has a
foreign payload, object 3, for its detail and for its attributes. -/
def busyFailure : Graph :=
  ⟨[.bytes (Utf8.encode "binary/plain".toList),
    .record [(Payload.encodingKey, .object 0)],
    .bytes [1, 2],
    .record [("metadata", .object 1), ("data", .object 2)],
    .list [.object 3],
    .record [("payloads", .object 4)],
    .record [("seconds", .number (.ofInt 1)), ("nanos", .number (.ofInt (500 * 1000000)))],
    .record [("type", .text "Busy"), ("nonRetryable", .bool false), ("details", .object 5),
      ("nextRetryDelay", .object 6)],
    .record [("case", .text "applicationFailureInfo"), ("value", .object 7)],
    .record [("message", .text "busy"), ("encodedAttributes", .object 3), ("failureInfo", .object 8),
      ("cause", .object 9)]]⟩

theorem typedWire_busyFailure : busyFailure.TypedWire (.object 9) := by
  have hpayload : busyFailure.OfShape Schema.payload (.object 3) := by
    refine ⟨rfl, ⟨_, rfl, ?_⟩, ⟨_, rfl⟩, trivial⟩
    intro entry hentry
    rw [List.mem_singleton.1 hentry]
    exact ⟨_, rfl⟩
  have hpayloads : busyFailure.OfShape Schema.payloads (.object 5) := by
    refine ⟨rfl, ⟨_, rfl, ?_⟩, trivial⟩
    intro p hp
    rwa [List.mem_singleton.1 hp]
  have hinfo : busyFailure.TypedInfo (.object 8) := by
    refine .inr ⟨rfl, ?_⟩
    rintro s ⟨⟩
    exact ⟨rfl, ⟨_, rfl⟩, ⟨_, rfl⟩, .inr hpayloads, .inr ⟨rfl, ⟨_, rfl⟩, ⟨_, rfl⟩, trivial⟩, trivial⟩
  refine Graph.typedWire_of_closed [.object 9] ?_ ?_ _ (List.mem_cons_self ..)
  · intro x hx
    rw [List.mem_singleton.1 hx]
    exact ⟨rfl, ⟨⟨_, rfl⟩, .inl rfl, .inl rfl, .inr hpayload, trivial⟩, hinfo⟩
  · intro x hx
    rw [List.mem_singleton.1 hx]
    exact .inr (by decide)

/-- What the busy failure is derived as is derived again as it is. -/
theorem rederivation_settles_busyFailure :
    let o : ConverterOptions := { codec := .labelled, reuseStoredFailure := false }
    ∃ g₁ w₁ g₂ w₂, o.rederive busyFailure (.object 9) = .ok (g₁, w₁) ∧ o.rederive g₁ w₁ = .ok (g₂, w₂) ∧
      busyFailure ≤ g₁ ∧ g₁ ≤ g₂ ∧ g₂.Alike w₁ w₂ := by
  intro o
  refine rederivation_settles (o := o) Codec.settles_labelled rfl typedWire_busyFailure ?_
  have hlinks : ConverterOptions.linksOrSelf (busyFailure.walk o.maxCauseDepth (.object 9)) (.object 9) =
      [.object 9] := by decide +kernel
  intro x hx t ht
  rw [hlinks, List.mem_singleton] at hx
  subst hx
  obtain rfl : WireDuration.mk (.ofInt 1) (.ofInt (500 * 1000000)) = t := Option.some.inj ht
  dsimp only [WireDuration.IsWhole]
  exact ⟨1, 500, Number.toInt?_ofInt (Number.fits_of_natAbs_le (by decide)), by decide, by decide, by decide, rfl⟩

end FailureWire
