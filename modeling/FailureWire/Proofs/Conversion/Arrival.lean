import FailureWire.Proofs.Conversion.Reception
import FailureWire.Proofs.Payload.Laws

/-!
# What arrives

The other side reads what was sent. `k.arrived details` is the kind of failure that it reads where `k` was
sent, given the details that it decodes: the same kind, except that an empty type is none, that codes must
be those of their tables, and that a delay was rounded on its way. `toKind_of_readAs` says so of the
information about a kind, `errorOf_of_showsLink` of whole links.
-/

namespace FailureWire

/-- The delay that is read where a delay was sent. -/
def Value.conveyed (delay : Value) : Value :=
  match delay with
  | .number n => .number (WireDuration.ofMillis n).toMillis
  | _ => .undefined

/-- The type that is read where a type was sent: none for an empty one. -/
def Value.conveyedType (type : Value) : Value := if type.isTruthy then type else .undefined

theorem Value.conveyedType_of_ne_empty {v : Value} (h : v = .undefined ∨ ∃ s, s ≠ "" ∧ v = .text s) :
    v.conveyedType = v := by
  rcases h with rfl | ⟨s, hs, rfl⟩
  · rfl
  · simp [conveyedType, isTruthy, hs]

/-- The kind that is read where a kind was sent; none for the kinds that are sent without information. -/
def FailureKind.arrived (details : List Document) : FailureKind Document → Option (FailureKind Document)
  | .application type _ nonRetryable nextRetryDelay =>
    some (.ofApplication type.conveyedType details nonRetryable nextRetryDelay.conveyed)
  | .timeout type _ => some (.ofTimeout (timeoutTypeFromWire (codeToWire type)) details)
  | .cancelled _ => some (.cancelled (.list details))
  | .terminated _ => some (.terminated (.list details))
  | .server nonRetryable => some (.ofServer nonRetryable)
  | .activity scheduledEventId startedEventId identity activityType activityId retryState =>
    some (.activity scheduledEventId startedEventId identity activityType activityId
      (retryStateFromWire (codeToWire retryState)))
  | .childWorkflow namespaceName workflowId runId workflowType initiatedEventId startedEventId retryState =>
    some (.childWorkflow namespaceName workflowId runId workflowType initiatedEventId startedEventId
      (retryStateFromWire (codeToWire retryState)))
  | .generic | .alreadyStarted .. => none

/-! ## Information -/

/-- Information of a graph reads as information that was written: records are related. -/
inductive FailureInfo.ReadAs (S : Document → Value → Prop) : FailureInfo Document → FailureInfo Value → Prop
  | unmapped : ReadAs S (.unmapped .undefined) (.unmapped .undefined)
  | application (type nonRetryable : Value) {details nextRetryDelay : Option Document}
    {details' nextRetryDelay' : Option Value} :
    Option.Rel S details details' → Option.Rel S nextRetryDelay nextRetryDelay' →
      ReadAs S (.application type nonRetryable details nextRetryDelay)
        (.application type nonRetryable details' nextRetryDelay')
  | timeout (type : Value) {details : Option Document} {details' : Option Value} :
    Option.Rel S details details' → ReadAs S (.timeout type details) (.timeout type details')
  | canceled {details : Option Document} {details' : Option Value} :
    Option.Rel S details details' → ReadAs S (.canceled details) (.canceled details')
  | terminated {details : Option Document} {details' : Option Value} :
    Option.Rel S details details' → ReadAs S (.terminated details) (.terminated details')
  | server (nonRetryable : Value) : ReadAs S (.server nonRetryable) (.server nonRetryable)
  | activity (scheduledEventId startedEventId identity activityType activityId retryState : Value) :
    ReadAs S (.activity scheduledEventId startedEventId identity activityType activityId retryState)
      (.activity scheduledEventId startedEventId identity activityType activityId retryState)
  | childWorkflow (namespaceName workflowId runId workflowType initiatedEventId startedEventId
      retryState : Value) :
    ReadAs S
      (.childWorkflow namespaceName workflowId runId workflowType initiatedEventId startedEventId retryState)
      (.childWorkflow namespaceName workflowId runId workflowType initiatedEventId startedEventId retryState)

/-- Information is such as it is made of kinds: there may be details `d` of which `P d` is true, and a duration for a
delay. -/
inductive FailureInfo.Made (P : Document → Prop) : FailureInfo Document → Prop
  | unmapped : Made P (.unmapped .undefined)
  | application (type nonRetryable : Value) {details : Option Document} (delay : Option WireDuration) :
    (∀ d, details = some d → P d) →
      Made P (.application type nonRetryable details (delay.map WireDuration.document))
  | timeout (type : Value) {details : Option Document} : (∀ d, details = some d → P d) →
    Made P (.timeout type details)
  | canceled {details : Option Document} : (∀ d, details = some d → P d) → Made P (.canceled details)
  | terminated {details : Option Document} : (∀ d, details = some d → P d) → Made P (.terminated details)
  | server (nonRetryable : Value) : Made P (.server nonRetryable)
  | activity (scheduledEventId startedEventId identity activityType activityId retryState : Value) :
    Made P (.activity scheduledEventId startedEventId identity activityType activityId retryState)
  | childWorkflow (namespaceName workflowId runId workflowType initiatedEventId startedEventId
      retryState : Value) :
    Made P (.childWorkflow namespaceName workflowId runId workflowType initiatedEventId startedEventId retryState)

theorem FailureInfo.made_info (k : FailureKind Document) (payloads : List Document) :
    (k.info payloads).Made fun d => d = payloadsDocument (.list payloads) := by
  have hdetails : ∀ d, payloadsField payloads = some d → d = payloadsDocument (.list payloads) := by
    intro d hd
    unfold payloadsField at hd
    split at hd <;> cases hd
    rfl
  cases k with
  | application type _ nonRetryable nextRetryDelay =>
    have hdelay : delayField nextRetryDelay =
        (nextRetryDelay.number?.map WireDuration.ofMillis).map WireDuration.document := by
      rw [delayField, Option.map_map]
      rfl
    rw [FailureKind.info, hdelay]
    exact .application _ _ _ hdetails
  | timeout => exact .timeout _ hdetails
  | cancelled => exact .canceled hdetails
  | terminated => exact .terminated hdetails
  | server => exact .server _
  | activity => exact .activity ..
  | childWorkflow => exact .childWorkflow ..
  | generic | alreadyStarted => exact .unmapped

namespace Graph

variable {g : Graph} {S : Document → Value → Prop}

theorem Reading.recordAt (hS : g.Reading S) {fields : Fields Document} {d : Option Document} {v : Value}
    {name : String} (hv : S (.record fields) v) (hfield : Fields.get? fields name = d)
    (hd : ∀ x, d = some x → ∃ fields, x = .record fields) : Option.Rel S d (g.truthyAt v name) := by
  have h := hS.get? hv name
  rw [hfield] at h
  have htruthy : g.truthyAt v name = g.get? v name := by
    cases d with
    | none => exact hS.truthyAt none h
    | some x =>
      obtain ⟨fields, rfl⟩ := hd x rfl
      exact hS.truthyAt (some fields) h
  rwa [htruthy]

theorem Reading.delayOf_of_duration (hS : g.Reading S) {d : Option WireDuration} {duration : Option Value}
    (h : Option.Rel S (d.map WireDuration.document) duration) :
    g.delayOf duration = .ok (.ofNumber? (d.map WireDuration.toMillis)) := by
  cases d with
  | none =>
    cases h
    rfl
  | some t =>
    cases h with
    | @some _ w hw =>
      have hseconds : g.read w "seconds" = .number t.seconds := hS.number (hS.read hw "seconds" rfl)
      have hnanos : g.read w "nanos" = .number t.nanos := hS.number (hS.read hw "nanos" rfl)
      simp only [Graph.delayOf, durationOf, hS.readOf hw, hseconds, hnanos]
      rfl

theorem Reading.delayOf (hS : g.Reading S) {delay : Value} {duration : Option Value}
    (hdelay : delay.IsOptionalNumber) (h : Option.Rel S (delayField delay) duration) :
    g.delayOf duration = .ok delay.conveyed := by
  rcases hdelay with rfl | ⟨n, rfl⟩
  · exact hS.delayOf_of_duration (d := none) h
  · exact hS.delayOf_of_duration (d := some (.ofMillis n)) h

theorem Reading.infoAt (hS : g.Reading S) {case : String} {fields : Fields Document} {w : Value}
    (h : S (.record [("case", .existing (.text case)), ("value", .record fields)])
      (g.read w "failureInfo")) :
    ∃ value, S (.record fields) value ∧ g.infoAt w = g.infoOfCase (.text case) value := by
  refine ⟨_, hS.read h "value" rfl, ?_⟩
  obtain ⟨id, hid⟩ := hS.isObject h
  rw [Graph.infoAt, hS.read_existing h "case" rfl]
  simp [hid, Value.isMissing]

/-- **Information reads as it was written.** -/
theorem Reading.exists_infoAt_of_made (hS : g.Reading S) {P : Document → Prop} {info : FailureInfo Document}
    {w : Value} (hinfo : info.Made P) (hP : ∀ d, P d → ∃ fields, d = .record fields)
    (hw : S info.document (g.read w "failureInfo")) : ∃ info', g.infoAt w = .ok info' ∧ info.ReadAs S info' := by
  have hrecord {d : Option Document} (hd : ∀ x, d = some x → P x) (x : Document) (hx : d = some x) :
      ∃ fields, x = .record fields := hP x (hd x hx)
  cases hinfo with
  | @application type nonRetryable details delay hd =>
    obtain ⟨value, hvalue, hinfo⟩ := hS.infoAt hw
    have hduration : ∀ x, delay.map WireDuration.document = some x → ∃ fields, x = .record fields := by
      intro x hx
      obtain ⟨t, -, rfl⟩ := Option.map_eq_some_iff.1 hx
      exact ⟨_, rfl⟩
    have hdetails : Option.Rel S details (g.truthyAt value "details") :=
      hS.recordAt hvalue (by simp [FailureInfo.fields, Fields.get?]) (hrecord hd)
    have hdelay : Option.Rel S (delay.map WireDuration.document) (g.truthyAt value "nextRetryDelay") :=
      hS.recordAt hvalue (by simp [FailureInfo.fields, Fields.get?]) hduration
    refine ⟨.application type nonRetryable (g.truthyAt value "details") (g.truthyAt value "nextRetryDelay"),
      hinfo.trans ?_, .application _ _ hdetails hdelay⟩
    simp only [infoOfCase, hS.readOf_existing hvalue "type" rfl, hS.read_existing hvalue "nonRetryable" rfl]
    rfl
  | @timeout type details hd =>
    obtain ⟨value, hvalue, hinfo⟩ := hS.infoAt hw
    have hdetails : Option.Rel S details (g.truthyAt value "lastHeartbeatDetails") :=
      hS.recordAt hvalue (by simp [FailureInfo.fields, Fields.get?]) (hrecord hd)
    refine ⟨.timeout type (g.truthyAt value "lastHeartbeatDetails"), hinfo.trans ?_, .timeout _ hdetails⟩
    simp only [infoOfCase, hS.readOf_existing hvalue "timeoutType" rfl]
    rfl
  | @canceled details hd =>
    obtain ⟨value, hvalue, hinfo⟩ := hS.infoAt hw
    have hdetails : Option.Rel S details (g.truthyAt value "details") :=
      hS.recordAt hvalue (by simp [FailureInfo.fields]) (hrecord hd)
    refine ⟨.canceled (g.truthyAt value "details"), hinfo.trans ?_, .canceled hdetails⟩
    simp only [infoOfCase, hS.readOf hvalue "details"]
    rfl
  | @terminated details hd =>
    obtain ⟨value, hvalue, hinfo⟩ := hS.infoAt hw
    have hdetails : Option.Rel S details (g.truthyAt value "details") :=
      hS.recordAt hvalue (by simp [FailureInfo.fields]) (hrecord hd)
    refine ⟨.terminated (g.truthyAt value "details"), hinfo.trans ?_, .terminated hdetails⟩
    simp only [infoOfCase, hS.readOf hvalue "details"]
    rfl
  | server nonRetryable =>
    obtain ⟨value, hvalue, hinfo⟩ := hS.infoAt hw
    refine ⟨.server nonRetryable, hinfo.trans ?_, .server _⟩
    simp only [infoOfCase, hS.readOf_existing hvalue "nonRetryable" rfl]
    rfl
  | activity scheduledEventId startedEventId identity activityType activityId retryState =>
    obtain ⟨value, hvalue, hinfo⟩ := hS.infoAt hw
    have htype : S (.record [("name", .existing activityType)]) (g.read value "activityType") :=
      hS.read hvalue "activityType" rfl
    refine ⟨.activity scheduledEventId startedEventId identity activityType activityId retryState,
      hinfo.trans ?_, .activity ..⟩
    simp only [infoOfCase, hS.readOf hvalue "activityType", Except.ok_bind,
      hS.readOf_existing htype "name" rfl, hS.read_existing hvalue "scheduledEventId" rfl,
      hS.read_existing hvalue "startedEventId" rfl, hS.read_existing hvalue "identity" rfl,
      hS.read_existing hvalue "activityId" rfl, hS.read_existing hvalue "retryState" rfl]
    rfl
  | childWorkflow namespaceName workflowId runId workflowType initiatedEventId startedEventId retryState =>
    obtain ⟨value, hvalue, hinfo⟩ := hS.infoAt hw
    have hexecution : S (.record [("workflowId", .existing workflowId), ("runId", .existing runId)])
        (g.read value "workflowExecution") := hS.read hvalue "workflowExecution" rfl
    have htype : S (.record [("name", .existing workflowType)]) (g.read value "workflowType") :=
      hS.read hvalue "workflowType" rfl
    refine ⟨.childWorkflow namespaceName workflowId runId workflowType initiatedEventId startedEventId
      retryState, hinfo.trans ?_, .childWorkflow ..⟩
    simp only [infoOfCase, hS.readOf hvalue "workflowExecution", Except.ok_bind,
      hS.readOf_existing hexecution "workflowId" rfl, hS.read_existing hexecution "runId" rfl,
      hS.readOf hvalue "workflowType", hS.readOf_existing htype "name" rfl,
      hS.read_existing hvalue "namespace" rfl, hS.read_existing hvalue "initiatedEventId" rfl,
      hS.read_existing hvalue "startedEventId" rfl, hS.read_existing hvalue "retryState" rfl]
    rfl
  | unmapped =>
    have hcase : g.read (g.read w "failureInfo") "case" = .undefined := hS.read_existing hw "case" rfl
    obtain ⟨id, hid⟩ := hS.isObject hw
    refine ⟨.unmapped .undefined, ?_, .unmapped⟩
    rw [Graph.infoAt, hcase]
    simp [hid, Value.isMissing, infoOfCase]

/-- **Information about a kind reads as it was written.** -/
theorem Reading.exists_infoAt (hS : g.Reading S) {k : FailureKind Document} {payloads : List Document}
    {w : Value} (hw : S (k.info payloads).document (g.read w "failureInfo")) :
    ∃ info, g.infoAt w = .ok info ∧ (k.info payloads).ReadAs S info := by
  refine hS.exists_infoAt_of_made (FailureInfo.made_info k payloads) ?_ hw
  rintro d rfl
  exact ⟨_, rfl⟩

end Graph

/-! ## Kinds -/

namespace FailureKind

/-- **Information about a kind is read as the kind that arrives, with its details.** What is known of the
details, `Q`, is whatever is known of what their field is decoded to. -/
theorem toKind_of_readAs {c : Codec} {g g' : Graph} {S : Document → Value → Prop}
    {k : FailureKind Document} {payloads : List Document} {info : FailureInfo Value}
    {Q : List Document → Prop} (hS : g'.Reading S) (hk : k.Typed g)
    (hdecode : ∀ details, Option.Rel S (payloadsField payloads) details →
      ∃ ds, c.decodeDetails g' details = .ok (Document.alignFrom 1 ds) ∧ Q ds)
    (hnone : k.details? = none → Q []) (hread : (k.info payloads).ReadAs S info) :
    ∃ ds, info.toKind c g' = .ok (k.arrived (Document.alignFrom 1 ds)) ∧ Q ds := by
  cases hk with
  | @application type nonRetryable nextRetryDelay details htype hd hdelay =>
    cases hread with
    | application _ _ hdetails hduration =>
      obtain ⟨ds, hds, hq⟩ := hdecode _ hdetails
      have htype' : (type.orElse (.text "")).conveyedType = type.conveyedType := by
        rcases htype with rfl | ⟨s, rfl⟩
        · rfl
        · rfl
      refine ⟨ds, ?_, hq⟩
      simp only [FailureInfo.toKind, hds, hS.delayOf hdelay hduration]
      rw [arrived, ← htype']
      rfl
  | timeout hd =>
    cases hread with
    | timeout _ hdetails =>
      obtain ⟨ds, hds, hq⟩ := hdecode _ hdetails
      exact ⟨ds, by simp only [FailureInfo.toKind, hds]; rfl, hq⟩
  | cancelled hd =>
    cases hread with
    | canceled hdetails =>
      obtain ⟨ds, hds, hq⟩ := hdecode _ hdetails
      exact ⟨ds, by simp only [FailureInfo.toKind, hds]; rfl, hq⟩
  | terminated hd =>
    cases hread with
    | terminated hdetails =>
      obtain ⟨ds, hds, hq⟩ := hdecode _ hdetails
      exact ⟨ds, by simp only [FailureInfo.toKind, hds]; rfl, hq⟩
  | generic | server | activity | childWorkflow | alreadyStarted =>
    cases hread
    exact ⟨[], rfl, hnone rfl⟩

theorem type_of_arrived {g : Graph} {k : FailureKind Document} {details : List Document} (hk : k.Typed g)
    {type b d : Value} {ds : Document}
    (h : (k.arrived details).getD .generic = .application type ds b d) : type.IsOptionalText := by
  cases hk with
  | @application type' _ _ _ htype _ _ =>
    cases h
    unfold Value.conveyedType
    split
    · exact htype
    · exact .inl rfl
  | _ => cases h

end FailureKind

/-! ## Links -/

namespace ConverterOptions

open Logged

variable {o r : ConverterOptions} {g g' : Graph} {first : ObjectId}

theorem ofDocument?_of_get? {g : Graph} {d : Document} {message stackTrace : String}
    (hmessage : d.get? "message" = some (.text message))
    (htrace : d.get? "stack_trace" = some (.text stackTrace)) :
    CommonAttributes.ofDocument? g d = some ⟨.text message, .text stackTrace⟩ := by
  cases d with
  | record fields =>
    have hm : Fields.get? fields "message" = some (.text message) := hmessage
    have ht : Fields.get? fields "stack_trace" = some (.text stackTrace) := htrace
    simp [CommonAttributes.ofDocument?, hm, ht, Document.text?, CommonAttributes.ofTexts]
  | _ => cases hmessage

/-- A sender can send an error: it is typed, and the codec restores its details and, where they are
encoded, its message and its stack trace. -/
structure Sends (o : ConverterOptions) (g : Graph) (e : ThrownError Document) (f : FailureFields Document) :
    Prop where
  typed : e.Typed g
  failure : e.failure? = some f
  details : ∀ x ∈ f.kind.items g, o.codec.Restores g x
  attributes : o.encodeCommonAttributes = true → ∀ message stackTrace, e.message = .text message →
    o.stackTraceOf g e = .text stackTrace → o.codec.RestoresAttributes g message stackTrace

theorem Sends.exists_linkOf {e : ThrownError Document} {f : FailureFields Document} (h : o.Sends g e f) :
    ∃ link, o.linkOf g e = .ok link := by
  obtain ⟨payloads, hpayloads, -⟩ := Codec.exists_of_restores h.details
  refine ConverterOptions.exists_linkOf h.typed h.failure hpayloads fun ho => ?_
  obtain ⟨message, hmessage⟩ := h.typed.message
  obtain ⟨trace, htrace⟩ := stackTraceOf_isText (o := o) h.typed.worded
  obtain ⟨p, hp, -⟩ := h.attributes ho message trace hmessage htrace
  exact ⟨p, by rw [hmessage, htrace, hp]⟩

/-- A link without a payload for them has its message and its stack trace in their own places. -/
theorem attributesOf_of_readsLink {S : Document → Value → Prop} {link : WireLink} {cause : Option Document}
    {w : Value} (hw : g.ReadsLink S link cause w) (hplain : link.encodedAttributes = none) :
    (r.attributesOf g w).Gives ⟨link.message, link.stackTrace.orElse (.text "")⟩ := by
  have hattributes := hw.attributes
  rw [hplain] at hattributes
  have hnone : g.truthyAt w "encodedAttributes" = none := by
    generalize hfound : g.get? w "encodedAttributes" = found at hattributes
    cases hattributes
    rw [Graph.truthyAt, Graph.read_eq_undefined hfound]
    rfl
  unfold attributesOf
  simp only [hw.isMissing, hnone, CommonAttributes.plain, hw.message, hw.stackTrace]
  exact gives_pure _

theorem attributesOf_of_restored {link : WireLink} {cause : Option Document} {w : Value} {a : Document}
    {message trace : String} (hle : g ≤ g') (hw : g'.ShowsLink first link cause w)
    (ha : link.encodedAttributes = some a)
    (hencode : r.codec.encodeAttributes g (.text message) (.text trace) = .ok a)
    (h : r.codec.RestoresAttributes g message trace) :
    (r.attributesOf g' w).Gives ⟨.text message, .text trace⟩ := by
  have hattributes := hw.attributes
  rw [ha] at hattributes
  unfold attributesOf
  simp only [hw.isMissing]
  generalize hfound : g'.get? w "encodedAttributes" = found at hattributes
  cases hattributes with
  | @some _ payload hpayload =>
    have htruthy : g'.truthyAt w "encodedAttributes" = some payload := by
      rw [Graph.truthyAt, Graph.read_eq_of_get? hfound]
      simp [isTruthy_of_encodeAttributes hencode hpayload]
    obtain ⟨p, hp, hrestored⟩ := h
    cases hp.symm.trans hencode
    obtain ⟨d, hd, hdmessage, hdtrace⟩ := hrestored g' first payload hle hpayload
    rw [htruthy]
    refine Gives.bind (gives_ofExcept hd) ?_
    simp only [ofDocument?_of_get? hdmessage hdtrace]
    exact gives_pure _

/-- **The message and the stack trace of a link arrive** if they are texts and, where they are encoded, restored. -/
theorem attributesOf_of_linkOf {e : ThrownError Document} {link : WireLink} {cause : Option Document} {w : Value}
    {message trace : String} (hcodec : r.codec = o.codec) (hmessage : e.message = .text message)
    (htrace : o.stackTraceOf g e = .text trace)
    (h : o.encodeCommonAttributes = true → o.codec.RestoresAttributes g message trace)
    (hlink : o.linkOf g e = .ok link) (hle : g ≤ g') (hw : g'.ShowsLink first link cause w) :
    (r.attributesOf g' w).Gives ⟨.text message, .text trace⟩ := by
  obtain ⟨info, -, hform⟩ := linkOf_eq_ok.1 hlink
  rw [hmessage, htrace] at hform
  by_cases ho : o.encodeCommonAttributes = true
  · rw [if_pos ho] at hform
    obtain ⟨a, ha, rfl⟩ := hform
    rw [← hcodec] at ha
    exact attributesOf_of_restored hle hw rfl ha (hcodec ▸ h ho)
  · rw [if_neg ho] at hform
    subst hform
    exact attributesOf_of_readsLink hw rfl

/-- The error that arrives where an error was sent: a failure of the kind that arrives. -/
def Arrives (o : ConverterOptions) (g g' : Graph) (e : ThrownError Document) (w : Value)
    (arrival : ThrownError Document × Bool) : Prop :=
  ∃ f ds display frames, e.failure? = some f ∧ List.Forall₂ g'.Recalls (f.kind.items g) ds ∧
    arrival =
      (.build ((f.kind.arrived (Document.alignFrom 1 ds)).getD .generic) e.message display
          { stored := w, stackTrace := o.stackTraceOf g e, frames },
        (f.kind.arrived (Document.alignFrom 1 ds)).isSome)

theorem toError_of_plain (g : Graph) (frames : Frames) (kind : FailureKind Document) {message : Value}
    (stackTrace w : Value)
    (hmessage : message.IsText)
    (htype : ∀ type ds b d, kind = .application type ds b d → type.id? = none) :
    CommonAttributes.toError ⟨message, stackTrace⟩ g frames w kind =
      .ok (.build kind message (kind.display message) (.received frames kind w stackTrace)) := by
  have hmade := ThrownError.ofKind_of_plain (g := g) kind (.received frames kind w stackTrace) hmessage htype rfl
  obtain ⟨s, rfl⟩ := hmessage
  rw [← hmade]
  unfold CommonAttributes.toError
  split <;> rfl

theorem toError_of_typed (g : Graph) (frames : Frames) (kind : FailureKind Document) {message : Value}
    (stackTrace w : Value) (hmessage : message.IsText)
    (htype : ∀ type ds b d, kind = .application type ds b d → type.IsOptionalText) :
    ∃ display, CommonAttributes.toError ⟨message, stackTrace⟩ g frames w kind =
      .ok (.build kind message display (.received frames kind w stackTrace)) :=
  ⟨_, toError_of_plain g frames kind stackTrace w hmessage fun type ds b d hk => (htype type ds b d hk).id?_eq_none⟩

theorem errorOf_of_parts {a : CommonAttributes} {info : FailureInfo Value} {kind : Option (FailureKind Document)}
    {w : Value} {e : ThrownError Document} (hattributes : (r.attributesOf g w).Gives a)
    (hinfo : g.infoAt w = .ok info) (hkind : info.toKind r.codec g = .ok kind)
    (hmade : a.toError g r.frames w (kind.getD .generic) = .ok e) : (r.errorOf g w).Gives (e, kind.isSome) := by
  refine Gives.bind hattributes (Gives.bind (gives_ofExcept hinfo) (Gives.bind (gives_ofExcept hkind) ?_))
  cases kind with
  | some kind => exact Gives.bind (gives_ofExcept hmade) (gives_pure _)
  | none => exact Gives.bind (gives_report _ _ _) (Gives.bind (gives_ofExcept hmade) (gives_pure _))

/-- The error for a link of a kind that arrives. -/
theorem errorOf_of_arrived {k : FailureKind Document} {details : List Document} {message stackTrace w : Value}
    {info : FailureInfo Value} (hattributes : (r.attributesOf g' w).Gives ⟨message, stackTrace⟩)
    (hinfo : g'.infoAt w = .ok info) (hkind : info.toKind r.codec g' = .ok (k.arrived details))
    (hk : k.Typed g) (hmessage : message.IsText) :
    ∃ display, (r.errorOf g' w).Gives
      (.build ((k.arrived details).getD .generic) message display
          (.received r.frames ((k.arrived details).getD .generic) w stackTrace),
        (k.arrived details).isSome) := by
  obtain ⟨display, hmade⟩ := toError_of_typed g' r.frames ((k.arrived details).getD .generic) stackTrace w hmessage
    (fun _ _ _ _ => FailureKind.type_of_arrived hk)
  exact ⟨display, errorOf_of_parts hattributes hinfo hkind hmade⟩

/-- **Of each link an error arrives.** -/
theorem errorOf_of_showsLink {e : ThrownError Document} {f : FailureFields Document} {link : WireLink}
    {cause : Option Document} {w : Value} (hcodec : r.codec = o.codec) (h : o.Sends g e f)
    (hlink : o.linkOf g e = .ok link) (hle : g ≤ g') (hw : g'.ShowsLink first link cause w) :
    ∃ arrival, (r.errorOf g' w).Gives arrival ∧ o.Arrives g g' e w arrival := by
  have hattributes : (r.attributesOf g' w).Gives ⟨e.message, o.stackTraceOf g e⟩ := by
    obtain ⟨message, hmessage⟩ := h.typed.message
    obtain ⟨trace, htrace⟩ := stackTraceOf_isText (o := o) h.typed.worded
    rw [hmessage, htrace]
    exact attributesOf_of_linkOf hcodec hmessage htrace
      (fun ho => h.attributes ho message trace hmessage htrace) hlink hle hw
  obtain ⟨payloads, hpayloads, hrestored⟩ := Codec.exists_of_restores h.details
  have hkind := h.typed.kind f h.failure
  have hinfo : link.info = f.kind.info payloads :=
    Except.ok.inj ((toInfo_of_linkOf h.failure hlink).symm.trans (FailureKind.toInfo_of_typed hkind hpayloads))
  have hshown := hw.info
  rw [hinfo] at hshown
  obtain ⟨info, hinfoAt, hread⟩ := (g'.reading_shows first).exists_infoAt hshown
  obtain ⟨ds, htoKind, hrecalls⟩ := FailureKind.toKind_of_readAs (g'.reading_shows first) hkind
    (fun _ => Codec.decodeDetails_of_reading (g'.reading_shows first)
      (hrestored.imp fun _ _ hp w hw => hp g' first w hle hw))
    (fun hnone => by rw [FailureKind.items, hnone]; exact .nil) hread
  obtain ⟨display, hgives⟩ := errorOf_of_arrived hattributes hinfoAt (hcodec ▸ htoKind) hkind h.typed.message
  exact ⟨_, hgives, f, ds, display, _, h.failure, hrecalls, rfl⟩

/-! ## Chains -/

/-- The errors that are made of links: those up to the first one without a class of its own. -/
def kept : List (ThrownError Document × Bool) → List (ThrownError Document)
  | [] => []
  | (e, mapped) :: rest => if mapped then e :: kept rest else [e]

theorem exists_of_mem_kept {e : ThrownError Document} : ∀ {arrivals : List (ThrownError Document × Bool)},
    e ∈ kept arrivals → ∃ arrival ∈ arrivals, arrival.1 = e
  | [], h => by cases h
  | (first, mapped) :: rest, h => by
    unfold kept at h
    split at h
    · rcases List.mem_cons.1 h with rfl | h
      · exact ⟨_, List.mem_cons_self .., rfl⟩
      · obtain ⟨arrival, harrival, heq⟩ := exists_of_mem_kept h
        exact ⟨arrival, List.mem_cons_of_mem _ harrival, heq⟩
    · exact ⟨_, List.mem_cons_self .., (List.mem_singleton.1 h).symm⟩

theorem plain_of_kept {α : Type} {R : α → ThrownError Document × Bool → Prop}
    (hR : ∀ x a, R x a → a.1.cause = none ∧ a.1.extra = []) {xs : List α}
    {arrivals : List (ThrownError Document × Bool)} (h : List.Forall₂ R xs arrivals) :
    ∀ e ∈ kept arrivals, e.cause = none ∧ e.extra = [] := by
  intro e he
  obtain ⟨arrival, harrival, rfl⟩ := exists_of_mem_kept he
  obtain ⟨x, -, hx⟩ := exists_of_forall₂ h harrival
  exact hR x arrival hx

theorem kept_ne_nil {arrivals : List (ThrownError Document × Bool)} (h : arrivals ≠ []) : kept arrivals ≠ [] := by
  obtain ⟨⟨e, mapped⟩, rest, rfl⟩ := List.exists_cons_of_ne_nil h
  unfold kept
  split
  · exact List.cons_ne_nil _ _
  · exact List.cons_ne_nil _ _

theorem kept_of_related {R : ThrownError Document → ThrownError Document → Prop}
    {arrivals others : List (ThrownError Document × Bool)}
    (h : List.Forall₂ (fun a b => R a.1 b.1 ∧ a.2 = b.2) arrivals others) :
    List.Forall₂ R (kept arrivals) (kept others) := by
  induction h with
  | nil => exact .nil
  | @cons a b _ _ hab _ ih =>
    obtain ⟨e, mapped⟩ := a
    obtain ⟨e', mapped'⟩ := b
    obtain ⟨hr, rfl⟩ := hab
    cases mapped with
    | true => exact .cons hr ih
    | false => exact .cons hr .nil

/-- Where every error but the last one has a class of its own, all of them are made. -/
theorem kept_of_mapped : ∀ {arrivals : List (ThrownError Document × Bool)},
    (∀ a ∈ arrivals.dropLast, a.2 = true) → kept arrivals = arrivals.map (·.1)
  | [], _ => rfl
  | [(e, mapped)], _ => by cases mapped <;> rfl
  | (e, mapped) :: next :: rest, h => by
    have hmapped : mapped = true := h _ (List.mem_cons_self ..)
    rw [kept, if_pos hmapped, kept_of_mapped fun a ha => h a (List.mem_cons_of_mem _ ha)]
    rfl

theorem errorsOf_of_arrivals {links : List Value} {arrivals : List (ThrownError Document × Bool)}
    (h : List.Forall₂ (fun w arrival => (r.errorOf g w).Gives arrival) links arrivals) :
    (r.errorsOf g links).Gives (kept arrivals) := by
  induction h with
  | nil => exact gives_pure []
  | @cons w arrival links arrivals hw _ ih =>
    obtain ⟨e, mapped⟩ := arrival
    refine Gives.bind ih (Gives.bind hw ?_)
    cases mapped with
    | true => exact gives_pure _
    | false => exact gives_pure _

/-- **A wire failure becomes the errors that the links of its chain become.** -/
theorem failureToError_of_wireWalk {w : Value} {c : Chain} {arrivals : List (ThrownError Document × Bool)}
    (hwalk : g.wireWalk r.maxCauseDepth w = .ok c)
    (h : List.Forall₂ (fun w arrival => (r.errorOf g w).Gives arrival) (linksOrSelf c w) arrivals) :
    (r.failureToError g w).outcome.1 = .ok (g.addErrors (kept arrivals)) := by
  have hreceive : (r.receive g w).Gives (kept arrivals) := by
    refine Gives.bind (gives_ofExcept hwalk) ?_
    dsimp only
    split
    · exact Gives.bind (gives_report _ _ _) (errorsOf_of_arrivals h)
    · exact errorsOf_of_arrivals h
  exact (Gives.bind hreceive (gives_pure (g.addErrors (kept arrivals)))).outcome

/-- **A finite chain of wire failures becomes the errors that its links become**, as many as the depth
allows for. -/
theorem failureToError_of_arrivals {w : Value} {ws : List Value}
    {arrivals : List (ThrownError Document × Bool)} (hchain : g.CauseChain w ws) (hne : ws ≠ [])
    (hobjects : ∀ x ∈ ws, x.id?.isSome)
    (h : List.Forall₂ (fun w arrival => (r.errorOf g w).Gives arrival)
      (ws.take (max 1 (r.maxCauseDepth.linksIn g))) arrivals) :
    (r.failureToError g w).outcome.1 = .ok (g.addErrors (kept arrivals)) := by
  refine failureToError_of_wireWalk (Graph.wireWalk_of_causeChain hchain hobjects r.maxCauseDepth) ?_
  rwa [← Graph.walk_of_causeChain hchain, linksOrSelf_walk hchain hne]

end ConverterOptions
end FailureWire
