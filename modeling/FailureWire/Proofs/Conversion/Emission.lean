import FailureWire.Conversion.Emit
import FailureWire.Proofs.Error.Typed

/-!
# What is sent for errors

The information that is sent about a typed failure is a function of its kind and of the payloads of its
details (`toInfo_of_typed`), and the link for it is a function of that information. A chain of links ends
at the first error with a stored failure, if there is one (`splitAtStored_append`). With these,
`errorToFailure_of_emitErrors` says what a conversion gives.
-/

namespace FailureWire

theorem Graph.add_existing (g : Graph) (v : Value) : g.add (.existing v) = (g, v) := by
  simp [add, layOut]

/-! ## Details -/

/-- The field for the payloads of details: none for details without items. -/
def payloadsField (payloads : List Document) : Option Document :=
  if payloads.isEmpty then none else some (payloadsDocument (.list payloads))

theorem Codec.encodeDetails_of_listed {c : Codec} {g : Graph} {details : Document} {payloads : List Document}
    (hd : g.Listed details)
    (hp : List.Forall₂ (fun x p => c.encodeValue g x = .ok p) (g.itemsOf details) payloads) :
    c.encodeDetails g details = .ok (payloadsField payloads) := by
  cases hd with
  | empty =>
    cases hp
    rw [encodeDetails, Graph.add, Graph.layOut]
    simp [Graph.objectOf?, Graph.layOutItems, Value.id?, Graph.node?, Graph.size, payloadsField]
    rfl
  | @existing v items hv =>
    have hitems : g.itemsOf (.existing v) = items := by simp [Graph.itemsOf, Graph.listOf?, hv, Node.items?]
    rw [hitems] at hp
    rw [encodeDetails, Graph.add_existing]
    cases hp with
    | nil =>
      simp only [hv]
      rfl
    | @cons x p items payloads hx hrest =>
      have hall : (x :: items).mapM (c.encodeValue g) = .ok (p :: payloads) :=
        FailureWire.Except.mapM_eq_ok.2 (.cons hx hrest)
      simp only [hv, hall]
      rfl

/-- Whether an object has items that can be encoded one by one. -/
def Node.isSequence : Node → Bool
  | .list _ | .sparse _ | .bytes _ | .numbers .. => true
  | _ => false

/-- Details without items have no payloads. -/
theorem Codec.encodeDetails_of_not_sequence {c : Codec} {g : Graph} {v : Value} {r : Option Document}
    (hv : (g.objectOf? v).all (!·.isSequence) = true) (h : c.encodeDetails g (.existing v) = .ok r) : r = none := by
  rw [encodeDetails, Graph.add_existing] at h
  cases hn : g.objectOf? v with
  | none =>
    simp only [hn] at h
    split at h
    · cases h
      rfl
    · split at h <;> cases h
      rfl
    · cases h
  | some n =>
    rw [hn] at hv
    cases n with
    | list | sparse | bytes | numbers => cases hv
    | _ =>
      simp only [hn] at h
      split at h
      · cases h
        rfl
      · split at h <;> cases h
        rfl
      · cases h

def delayField (delay : Value) : Option Document :=
  delay.number?.map fun n => (WireDuration.ofMillis n).document

theorem Graph.wireDelay_of_optionalNumber {g : Graph} {delay : Value} (h : delay.IsOptionalNumber) :
    g.wireDelay delay = .ok (delayField delay) := by
  rcases h with rfl | ⟨n, rfl⟩
  · rfl
  · rfl

/-! ## Information -/

/-- The information about a kind whose details have these payloads. -/
def FailureKind.info (payloads : List Document) : FailureKind Document → FailureInfo Document
  | .application type _ nonRetryable nextRetryDelay =>
    .application (type.orElse (.text "")) nonRetryable (payloadsField payloads) (delayField nextRetryDelay)
  | .timeout type _ => .timeout (codeToWire type) (payloadsField payloads)
  | .cancelled _ => .canceled (payloadsField payloads)
  | .terminated _ => .terminated (payloadsField payloads)
  | .server nonRetryable => .server nonRetryable
  | .activity scheduledEventId startedEventId identity activityType activityId retryState =>
    .activity scheduledEventId startedEventId identity activityType activityId (codeToWire retryState)
  | .childWorkflow namespaceName workflowId runId workflowType initiatedEventId startedEventId retryState =>
    .childWorkflow namespaceName workflowId runId workflowType initiatedEventId startedEventId
      (codeToWire retryState)
  | .generic | .alreadyStarted .. => .unmapped .undefined

/-- **The information about a typed kind is made of the payloads of its details.** -/
theorem FailureKind.toInfo_of_typed {c : Codec} {g : Graph} {k : FailureKind Document}
    {payloads : List Document} (hk : k.Typed g)
    (hp : List.Forall₂ (fun x p => c.encodeValue g x = .ok p) (k.items g) payloads) :
    k.toInfo c g = .ok (k.info payloads) := by
  cases hk with
  | application htype hd hdelay =>
    simp only [toInfo, c.encodeDetails_of_listed hd hp, Graph.wireDelay_of_optionalNumber hdelay]
    rfl
  | cancelled hd | terminated hd | timeout hd =>
    simp only [toInfo, c.encodeDetails_of_listed hd hp]
    rfl
  | generic | server | activity | childWorkflow | alreadyStarted => rfl

/-! ## Links -/

/-- What is reported of a chain: that it was cut, after so many links, if it was. -/
def Chain.warnings (c : Chain) (direction : Direction) : List LogEntry :=
  if c.truncated then
    [⟨.warn, "Failure cause chain truncated",
      some (.record [("direction", .text direction.name), ("depth", .number (.ofInt c.links.length))])⟩]
  else []

namespace ConverterOptions

variable {o : ConverterOptions} {g : Graph}

theorem stackTraceOf_isText {e : ThrownError Document} (he : e.Worded) : (o.stackTraceOf g e).IsText := by
  have hstack : ((g.stackOf e).orElse (.text "")).IsText :=
    Value.isText_orElse (Graph.stackOf_isOptionalText he.stack) ⟨_, rfl⟩
  unfold stackTraceOf
  split
  · cases hf : e.failure? with
    | none => exact hstack
    | some f =>
      rcases he.stackTrace f hf with ht | ⟨s, ht⟩
      · simp only [Option.map_some, ht]
        exact hstack
      · simpa [ht, Value.isMissing] using ⟨s, rfl⟩
  · exact ⟨_, rfl⟩

/-- The link for an error: its message and its stack trace stay where they are or move into a payload. -/
theorem linkOf_eq_ok {e : ThrownError Document} {link : WireLink} :
    o.linkOf g e = .ok link ↔ ∃ info, o.infoOf g e = .ok info ∧
      if o.encodeCommonAttributes then
        ∃ a, o.codec.encodeAttributes g e.message (o.stackTraceOf g e) = .ok a ∧
          link = ⟨.text encodedMessage, o.source, .text "", some a, info⟩
      else link = ⟨e.message, o.source, o.stackTraceOf g e, none, info⟩ := by
  unfold linkOf
  rw [FailureWire.Except.bind_eq_ok]
  refine exists_congr fun info => and_congr_right fun _ => ?_
  split
  · rw [FailureWire.Except.bind_eq_ok]
    exact exists_congr fun a => and_congr_right fun _ =>
      ⟨fun h => (Except.ok.inj h).symm, fun h => congrArg Except.ok h.symm⟩
  · exact ⟨fun h => (Except.ok.inj h).symm, fun h => congrArg Except.ok h.symm⟩

theorem toInfo_of_linkOf {e : ThrownError Document} {f : FailureFields Document} {link : WireLink}
    (hf : e.failure? = some f) (h : o.linkOf g e = .ok link) : f.kind.toInfo o.codec g = .ok link.info := by
  obtain ⟨info, hinfo, hform⟩ := linkOf_eq_ok.1 h
  rw [infoOf, hf] at hinfo
  split at hform
  · obtain ⟨a, -, rfl⟩ := hform
    exact hinfo
  · subst hform
    exact hinfo

/-- There is a link for an error that there is information about, if its attributes can be encoded. -/
theorem exists_linkOf_of_infoOf {e : ThrownError Document} {info : FailureInfo Document}
    (hinfo : o.infoOf g e = .ok info)
    (hattributes : o.encodeCommonAttributes = true →
      ∃ a, o.codec.encodeAttributes g e.message (o.stackTraceOf g e) = .ok a) :
    ∃ link, o.linkOf g e = .ok link := by
  by_cases ho : o.encodeCommonAttributes = true
  · obtain ⟨a, ha⟩ := hattributes ho
    exact ⟨_, linkOf_eq_ok.2 ⟨_, hinfo, by rw [if_pos ho]; exact ⟨a, ha, rfl⟩⟩⟩
  · exact ⟨_, linkOf_eq_ok.2 ⟨_, hinfo, by rw [if_neg ho]⟩⟩

/-- **There is a link for a typed failure whose details and attributes can be encoded.** -/
theorem exists_linkOf {e : ThrownError Document} {f : FailureFields Document} {payloads : List Document}
    (he : e.Typed g) (hf : e.failure? = some f)
    (hp : List.Forall₂ (fun x p => o.codec.encodeValue g x = .ok p) (f.kind.items g) payloads)
    (hattributes : o.encodeCommonAttributes = true →
      ∃ a, o.codec.encodeAttributes g e.message (o.stackTraceOf g e) = .ok a) :
    ∃ link, o.linkOf g e = .ok link := by
  have hinfo : o.infoOf g e = .ok (f.kind.info payloads) := by
    rw [infoOf, hf]
    exact FailureKind.toInfo_of_typed (he.kind f hf) hp
  exact exists_linkOf_of_infoOf hinfo hattributes

theorem linksOf_eq_ok {errors : List (ThrownError Document)} {links : List WireLink} :
    o.linksOf g errors = .ok links ↔ List.Forall₂ (fun e link => o.linkOf g e = .ok link) errors links := by
  induction errors generalizing links with
  | nil =>
    rw [linksOf, List.forall₂_nil_left_iff]
    exact ⟨fun h => (Except.ok.inj h).symm, fun h => congrArg Except.ok h.symm⟩
  | cons e rest ih =>
    rw [linksOf, FailureWire.Except.bind_eq_ok, List.forall₂_cons_left_iff]
    constructor
    · rintro ⟨more, hmore, h⟩
      obtain ⟨link, hlink, h⟩ := FailureWire.Except.bind_eq_ok.1 h
      cases h
      exact ⟨link, more, hlink, ih.1 hmore, rfl⟩
    · rintro ⟨link, more, hlink, hmore, rfl⟩
      exact ⟨more, ih.2 hmore, FailureWire.Except.bind_eq_ok.2 ⟨link, hlink, rfl⟩⟩

/-! ## Stored failures -/

section
variable {δ : Type} {errors rest : List (ThrownError δ)} {e : ThrownError δ}

/-- A failure that keeps no wire failure has none that would be reused. -/
theorem storedOf_of_undefined {f : FailureFields δ} (hf : e.failure? = some f) (hstored : f.stored = .undefined) :
    o.storedOf e = none := by
  simp [storedOf, hf, hstored, Value.defined?]

theorem storedOf_map {ε : Type} (f : δ → ε) (e : ThrownError δ) : o.storedOf (e.map f) = o.storedOf e := by
  rw [storedOf, storedOf, ThrownError.failure?_map]
  cases e.failure? <;> rfl

theorem splitAtStored_of_unstored (h : ∀ e ∈ errors, o.storedOf e = none) :
    o.splitAtStored errors = (errors, none) := by
  induction errors with
  | nil => rfl
  | cons e rest ih =>
    rw [splitAtStored, h e (List.mem_cons_self ..), ih fun x hx => h x (List.mem_cons_of_mem e hx)]

theorem splitAtStored_append (h : ∀ e ∈ errors, o.storedOf e = none) {v : Value}
    (he : o.storedOf e = some v) : o.splitAtStored (errors ++ e :: rest) = (errors, some v) := by
  induction errors with
  | nil => rw [List.nil_append, splitAtStored, he]
  | cons e' errors ih =>
    rw [List.cons_append, splitAtStored, h e' (List.mem_cons_self ..),
      ih fun x hx => h x (List.mem_cons_of_mem e' hx)]

end

/-! ## Conversions -/

section
variable {v : Value} {errors : List (ThrownError Document)} {links : List WireLink}

theorem emitErrors_of_unstored (hne : errors ≠ []) (h : ∀ e ∈ errors, o.storedOf e = none)
    (hlinks : o.linksOf g errors = .ok links) : o.emitErrors g v errors = .ok ⟨links, none⟩ := by
  have hempty : errors.isEmpty = false := by simpa using hne
  rw [emitErrors, splitAtStored_of_unstored h]
  simp only [hempty, hlinks]
  rfl

/-- Errors up to one with a stored failure become links, and the failure ends them. -/
theorem emitErrors_append {e : ThrownError Document} {rest : List (ThrownError Document)}
    (h : ∀ e ∈ errors, o.storedOf e = none) {w : Value} (he : o.storedOf e = some w)
    (hw : w.isMissing = false) (hlinks : o.linksOf g errors = .ok links) :
    o.emitErrors g v (errors ++ e :: rest) = .ok ⟨links, some w⟩ := by
  rw [emitErrors, splitAtStored_append h he]
  simp only [Option.all_some, hw, Bool.and_false, hlinks]
  rfl

/-- At least one value is converted. -/
theorem linksOrSelf_ne_nil (c : Chain) (v : Value) : linksOrSelf c v ≠ [] := by
  unfold linksOrSelf
  split
  · exact List.cons_ne_nil _ _
  next hlinks => simpa using hlinks

/-- No more links are converted than the depth allows for, but one in any case. -/
theorem length_linksOrSelf_le (g : Graph) (d : Depth) (v : Value) :
    (linksOrSelf (g.walk d v) v).length ≤ max 1 (d.linksIn g) := by
  unfold linksOrSelf
  split
  · exact Nat.le_max_left ..
  · exact Nat.le_trans (Graph.length_walkFrom_le g _ _ _) (Nat.le_max_right ..)

/-- The values that are converted are met along causes, if those of the chain are. -/
theorem causePath_linksOrSelf {c : Chain} (h : g.CausePath v c.links) : g.CausePath v (linksOrSelf c v) := by
  unfold linksOrSelf
  split
  · exact .cons (.nil _)
  · exact h

theorem linksOrSelf_walk {vs : List Value} (h : g.CauseChain v vs) (hne : vs ≠ []) (d : Depth) :
    linksOrSelf (g.walk d v) v = vs.take (max 1 (d.linksIn g)) := by
  rw [Graph.walk_of_causeChain h, linksOrSelf]
  obtain ⟨x, rest, rfl⟩ := List.exists_cons_of_ne_nil hne
  obtain rfl := h.head
  cases d.linksIn g with
  | zero => rfl
  | succ n =>
    rw [Nat.max_eq_right (Nat.le_add_left 1 n)]
    rfl

theorem linksOrSelf_walk_of_admits {vs : List Value} (h : g.CauseChain v vs) (hne : vs ≠ []) {d : Depth}
    (hd : d.Admits vs.length) : linksOrSelf (g.walk d v) v = vs := by
  have hdepth := h.le_linksIn hd (Nat.le_refl _)
  rw [linksOrSelf_walk h hne, List.take_of_length_le (by omega)]

/-- **What is emitted is what the errors of the chain are emitted as**, after the report that the chain was
cut, if it was. -/
theorem ends_emit {before after : List LogEntry} {emitted : Emitted} :
    (o.emit g v).Ends before emitted after ↔
      (∃ errors, (linksOrSelf (g.walk o.maxCauseDepth v) v).mapM (g.toFailure o.frames) = .ok errors ∧
        o.emitErrors g v errors = .ok emitted) ∧
      after = before ++ (g.walk o.maxCauseDepth v).warnings .serialize := by
  unfold emit Chain.warnings
  dsimp only
  by_cases hcut : (g.walk o.maxCauseDepth v).truncated = true
  · simp only [hcut, if_true]
    rw [reportTruncated, Logged.ends_bind]
    constructor
    · rintro ⟨_, _, hreport, hrest⟩
      obtain rfl := Logged.ends_report.1 hreport
      obtain ⟨hok, rfl⟩ := Logged.ends_ofExcept.1 hrest
      exact ⟨FailureWire.Except.bind_eq_ok.1 hok, rfl⟩
    · rintro ⟨hok, rfl⟩
      exact ⟨(), _, Logged.ends_report.2 rfl,
        Logged.ends_ofExcept.2 ⟨FailureWire.Except.bind_eq_ok.2 hok, rfl⟩⟩
  · rw [if_neg hcut, if_neg hcut, Logged.ends_ofExcept, FailureWire.Except.bind_eq_ok, List.append_nil]

/-- **A conversion adds what is emitted**, and reports a chain that was cut. -/
theorem outcome_errorToFailure {emitted : Emitted}
    (herrors : (linksOrSelf (g.walk o.maxCauseDepth v) v).mapM (g.toFailure o.frames) = .ok errors)
    (hemit : o.emitErrors g v errors = .ok emitted) :
    (o.errorToFailure g v).outcome =
      (.ok (g.add emitted.document), (g.walk o.maxCauseDepth v).warnings .serialize) := by
  rw [Logged.outcome_eq_iff, errorToFailure, Logged.ends_bind]
  exact ⟨emitted, _, ends_emit.2 ⟨⟨errors, herrors, hemit⟩, rfl⟩, Logged.ends_pure.2 ⟨rfl, rfl⟩⟩

theorem errorToFailure_of_emitErrors {emitted : Emitted}
    (herrors : (linksOrSelf (g.walk o.maxCauseDepth v) v).mapM (g.toFailure o.frames) = .ok errors)
    (hemit : o.emitErrors g v errors = .ok emitted) :
    (o.errorToFailure g v).outcome.1 = .ok (g.add emitted.document) := by
  rw [outcome_errorToFailure herrors hemit]

end

end ConverterOptions
end FailureWire
