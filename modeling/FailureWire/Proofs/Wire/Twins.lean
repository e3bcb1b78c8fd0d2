import FailureWire.Proofs.Graph.Same
import FailureWire.Proofs.Wire.View

/-!
# Wire failures of two conversions

Two conversions write documents into graphs of their own. `g.Twins g' first first' d d'` says that what shows the
one document in the one graph is the same as what shows the other one in the other graph. Documents are twins if
their parts are, so that links are if they have the same message, source and stack trace, twins for information
and twins for attributes (`twins_emitted`).

Where attributes may differ, so may what is emitted, but nowhere else: link by link, all the other fields are the
same (`sameBut_emitted`).
-/

namespace FailureWire

namespace Graph

/-! ## Documents that describe the same -/

/-- What shows one document in one graph is the same as what shows another one in another graph. -/
def Twins (g g' : Graph) (first first' : ObjectId) (d d' : Document) : Prop :=
  ∀ v w, g.Shows first d v → g'.Shows first' d' w → g.Same g' v w

section
variable {g g' : Graph} {first first' : ObjectId}

theorem forall₂_shown {P : String → Document → Document → Prop} {Q : String → Value → Value → Prop}
    (hPQ : ∀ name d d' v w, P name d d' → g.Shows first d v → g'.Shows first' d' w → Q name v w)
    {fields others : Fields Document} (h : List.Forall₂ (fun f o => f.1 = o.1 ∧ P f.1 f.2 o.2) fields others)
    {values values' : Fields Value} (hv : g.ShowsFields first fields values)
    (hw : g'.ShowsFields first' others values') :
    List.Forall₂ (fun v w => v.1 = w.1 ∧ Q v.1 v.2 w.2) values values' := by
  induction h generalizing values values' with
  | nil =>
    cases hv
    cases hw
    exact .nil
  | @cons f o _ _ hfo _ ih =>
    obtain ⟨n, d⟩ := f
    obtain ⟨n', d'⟩ := o
    obtain ⟨rfl, hd⟩ := hfo
    obtain ⟨v, more, rfl, hshown, hrest⟩ := hv
    obtain ⟨w, more', rfl, hshown', hrest'⟩ := hw
    exact .cons ⟨rfl, hPQ _ _ _ _ _ hd hshown hshown'⟩ (ih hrest hrest')

theorem zip_of_twins {fields others : Fields Document} (h : fields.Zip (g.Twins g' first first') others)
    {values values' : Fields Value} (hv : g.ShowsFields first fields values)
    (hw : g'.ShowsFields first' others values') : Fields.Zip (g.Same g') values values' :=
  forall₂_shown (P := fun _ => g.Twins g' first first') (Q := fun _ => g.Same g')
    (fun _ _ _ v w hd => hd v w) h hv hw

theorem twins_existing {v w : Value} (h : g.Same g' v w) :
    g.Twins g' first first' (.existing v) (.existing w) := by
  rintro _ _ rfl rfl
  exact h

theorem twins_record {fields others : Fields Document} (h : fields.Zip (g.Twins g' first first') others) :
    g.Twins g' first first' (.record fields) (.record others) := by
  rintro v w ⟨values, hv, hfields⟩ ⟨values', hw, hothers⟩
  exact .of_compares (.inr ⟨_, _, hv, hw, .moved (.record (zip_of_twins h hfields hothers))⟩)

theorem twins_sparse {fields others : Fields Document} (h : fields.Zip (g.Twins g' first first') others) :
    g.Twins g' first first' (.sparse fields) (.sparse others) := by
  rintro v w ⟨values, hv, hfields⟩ ⟨values', hw, hothers⟩
  exact .of_compares (.inr ⟨_, _, hv, hw, .moved (.sparse (zip_of_twins h hfields hothers))⟩)

theorem forall₂_of_twins {items others : List Document} (h : List.Forall₂ (g.Twins g' first first') items others)
    {values values' : List Value} (hv : g.ShowsItems first items values)
    (hw : g'.ShowsItems first' others values') : List.Forall₂ (g.Same g') values values' := by
  induction h generalizing values values' with
  | nil =>
    cases hv
    cases hw
    exact .nil
  | cons hd _ ih =>
    obtain ⟨v, more, rfl, hshown, hrest⟩ := hv
    obtain ⟨w, more', rfl, hshown', hrest'⟩ := hw
    exact .cons (hd v w hshown hshown') (ih hrest hrest')

theorem twins_list {items others : List Document} (h : List.Forall₂ (g.Twins g' first first') items others) :
    g.Twins g' first first' (.list items) (.list others) := by
  rintro v w ⟨values, hv, hitems⟩ ⟨values', hw, hothers⟩
  exact .of_compares (.inr ⟨_, _, hv, hw, .moved (.list (forall₂_of_twins h hitems hothers))⟩)

theorem twins_undefined : g.Twins g' first first' .undefined .undefined := by
  rintro v w rfl rfl
  exact same_of_plain rfl

theorem twins_number (n : Number) : g.Twins g' first first' (.number n) (.number n) := by
  rintro v w rfl rfl
  exact same_of_plain rfl

theorem twins_bytes (data : Bytes) : g.Twins g' first first' (.bytes data) (.bytes data) := by
  intro v w hv hw
  exact .of_compares (.inr ⟨_, _, hv, hw, .moved (.bytes data)⟩)

theorem twins_numbers (element : ElementType) (items : List Number) :
    g.Twins g' first first' (.numbers element items) (.numbers element items) := by
  intro v w hv hw
  exact .of_compares (.inr ⟨_, _, hv, hw, .moved (.numbers element items)⟩)

/-- What a payload is written as is the same everywhere. -/
theorem twins_payload (p : Payload) : g.Twins g' first first' p.document p.document := by
  have hmetadata : Fields.Zip (g.Twins g' first first')
      (p.metadata.map fun entry => (entry.1, Document.bytes entry.2))
      (p.metadata.map fun entry => (entry.1, Document.bytes entry.2)) := by
    refine List.forall₂_map_left_iff.2 (List.forall₂_map_right_iff.2 (List.forall₂_same.2 ?_))
    intro entry _
    exact ⟨rfl, twins_bytes entry.2⟩
  have hdata : g.Twins g' first first' (.ofOption (p.data.map .bytes)) (.ofOption (p.data.map .bytes)) := by
    cases p.data with
    | none => exact twins_undefined
    | some data => exact twins_bytes data
  exact twins_record (.cons ⟨rfl, twins_record hmetadata⟩ (.cons ⟨rfl, hdata⟩ .nil))

theorem twins_duration (d : WireDuration) : g.Twins g' first first' d.document d.document :=
  twins_record (.cons ⟨rfl, twins_number _⟩ (.cons ⟨rfl, twins_number _⟩ .nil))

end

end Graph

/-! ## Information -/

/-- Kinds of one class, with related values, delays and details. -/
inductive FailureKind.Agrees {δ ε : Type} (R M : Value → Value → Prop) (D : δ → ε → Prop) :
    FailureKind δ → FailureKind ε → Prop
  | generic : Agrees R M D .generic .generic
  | application {type type' nonRetryable nonRetryable' delay delay' : Value} {details : δ} {details' : ε} :
    R type type' → D details details' → R nonRetryable nonRetryable' → M delay delay' →
      Agrees R M D (.application type details nonRetryable delay) (.application type' details' nonRetryable' delay')
  | cancelled {details : δ} {details' : ε} : D details details' →
    Agrees R M D (.cancelled details) (.cancelled details')
  | terminated {details : δ} {details' : ε} : D details details' →
    Agrees R M D (.terminated details) (.terminated details')
  | timeout {type type' : Value} {details : δ} {details' : ε} : R type type' → D details details' →
    Agrees R M D (.timeout type details) (.timeout type' details')
  | server {nonRetryable nonRetryable' : Value} : R nonRetryable nonRetryable' →
    Agrees R M D (.server nonRetryable) (.server nonRetryable')
  | activity {a a' b b' c c' d d' e e' s s' : Value} : R a a' → R b b' → R c c' → R d d' → R e e' → R s s' →
    Agrees R M D (.activity a b c d e s) (.activity a' b' c' d' e' s')
  | childWorkflow {a a' b b' c c' d d' e e' f f' s s' : Value} :
    R a a' → R b b' → R c c' → R d d' → R e e' → R f f' → R s s' →
      Agrees R M D (.childWorkflow a b c d e f s) (.childWorkflow a' b' c' d' e' f' s')
  | alreadyStarted {a a' b b' c c' : Value} : R a a' → R b b' → R c c' →
    Agrees R M D (.alreadyStarted a b c) (.alreadyStarted a' b' c')

theorem FailureKind.Agrees.map {δ ε δ' ε' : Type} {R R' M M' : Value → Value → Prop} {D : δ → ε → Prop}
    {D' : δ' → ε' → Prop} {f : δ → δ'} {f' : ε → ε'} {k : FailureKind δ} {k' : FailureKind ε}
    (hR : ∀ v w, R v w → R' v w) (hM : ∀ v w, M v w → M' v w)
    (hD : ∀ d e, k.details? = some d → k'.details? = some e → D d e → D' (f d) (f' e)) (h : k.Agrees R M D k') :
    (k.map f).Agrees R' M' D' (k'.map f') := by
  cases h with
  | generic => exact .generic
  | application htype hdetails hretry hdelay =>
    exact .application (hR _ _ htype) (hD _ _ rfl rfl hdetails) (hR _ _ hretry) (hM _ _ hdelay)
  | cancelled hdetails => exact .cancelled (hD _ _ rfl rfl hdetails)
  | terminated hdetails => exact .terminated (hD _ _ rfl rfl hdetails)
  | timeout htype hdetails => exact .timeout (hR _ _ htype) (hD _ _ rfl rfl hdetails)
  | server hretry => exact .server (hR _ _ hretry)
  | activity ha hb hc hd he hs =>
    exact .activity (hR _ _ ha) (hR _ _ hb) (hR _ _ hc) (hR _ _ hd) (hR _ _ he) (hR _ _ hs)
  | childWorkflow ha hb hc hd he hf hs =>
    exact .childWorkflow (hR _ _ ha) (hR _ _ hb) (hR _ _ hc) (hR _ _ hd) (hR _ _ he) (hR _ _ hf) (hR _ _ hs)
  | alreadyStarted ha hb hc => exact .alreadyStarted (hR _ _ ha) (hR _ _ hb) (hR _ _ hc)

/-- Information is of one kind: payloads and durations are related, and everything else is the same. A type is no
object, and cases without a class of errors may be different ones. -/
inductive FailureInfo.Match (P D : Value → Value → Prop) : FailureInfo Value → FailureInfo Value → Prop
  | unmapped (case case' : Value) : Match P D (.unmapped case) (.unmapped case')
  | application {type : Value} (nonRetryable : Value) {details details' delay delay' : Option Value} : type.id? = none →
    Option.Rel P details details' → Option.Rel D delay delay' →
      Match P D (.application type nonRetryable details delay) (.application type nonRetryable details' delay')
  | timeout (type : Value) {details details' : Option Value} : Option.Rel P details details' →
    Match P D (.timeout type details) (.timeout type details')
  | canceled {details details' : Option Value} : Option.Rel P details details' →
    Match P D (.canceled details) (.canceled details')
  | terminated {details details' : Option Value} : Option.Rel P details details' →
    Match P D (.terminated details) (.terminated details')
  | server (nonRetryable : Value) : Match P D (.server nonRetryable) (.server nonRetryable)
  | activity (scheduledEventId startedEventId identity activityType activityId retryState : Value) :
    Match P D (.activity scheduledEventId startedEventId identity activityType activityId retryState)
      (.activity scheduledEventId startedEventId identity activityType activityId retryState)
  | childWorkflow (namespaceName workflowId runId workflowType initiatedEventId startedEventId retryState : Value) :
    Match P D
      (.childWorkflow namespaceName workflowId runId workflowType initiatedEventId startedEventId retryState)
      (.childWorkflow namespaceName workflowId runId workflowType initiatedEventId startedEventId retryState)

namespace Graph

variable {g g' G G' : Graph} {first first' : ObjectId} {c : Codec}

theorem Same.orElse {v w d : Value} (h : g.Same g' v w) (hd : d.id? = none) :
    g.Same g' (v.orElse d) (w.orElse d) := by
  rcases h.compares with ⟨hplain, rfl⟩ | ⟨n, m, hn, hm, -⟩
  · unfold Value.orElse
    split
    · exact same_of_plain hd
    · exact h
  · obtain ⟨id, rfl, -⟩ := objectOf?_eq_some.1 hn
    obtain ⟨id', rfl, -⟩ := objectOf?_eq_some.1 hm
    exact h

theorem zip_optionalField {R : Document → Document → Prop} {d d' : Option Document} (name : String)
    (h : Option.Rel R d d') :
    Fields.Zip R (FailureInfo.optionalField name d) (FailureInfo.optionalField name d') := by
  cases h with
  | none => exact .nil
  | some hd => exact .cons ⟨rfl, hd⟩ .nil

theorem exists_duration_of_wireDelay {ms : Value} {r : Option Document} (h : g.wireDelay ms = .ok r) :
    ∃ d : Option WireDuration, r = d.map WireDuration.document := by
  unfold wireDelay at h
  split at h
  · cases h
    exact ⟨none, rfl⟩
  · obtain ⟨n, -, h⟩ := Except.bind_eq_ok.1 h
    cases h
    exact ⟨some (.ofMillis n), rfl⟩

/-- Details are encoded to the same payloads, if they are encoded. -/
def EncodedAlike (c : Codec) (g g' : Graph) (T : Document → Document → Prop) (d d' : Document) : Prop :=
  ∀ r r', c.encodeDetails g d = .ok r → c.encodeDetails g' d' = .ok r' → Option.Rel T r r'

/-- **Information about kinds that agree is the same.** -/
theorem twins_toInfo {k k' : FailureKind Document}
    (hk : k.Agrees (G.Same G') (fun v w => g.wireDelay v = g'.wireDelay w)
      (EncodedAlike c g g' (G.Twins G' first first')) k')
    {info info' : FailureInfo Document} (h : k.toInfo c g = .ok info) (h' : k'.toInfo c g' = .ok info') :
    G.Twins G' first first' info.document info'.document := by
  have hcase (s : Value) (hs : s.id? = none) : G.Twins G' first first' (.existing s) (.existing s) :=
    twins_existing (same_of_plain hs)
  have hvalue {case : String} {fields fields' : Fields Document}
      (hf : fields.Zip (G.Twins G' first first') fields') :
      G.Twins G' first first' (.record [("case", .existing (.text case)), ("value", .record fields)])
        (.record [("case", .existing (.text case)), ("value", .record fields')]) :=
    twins_record (.cons ⟨rfl, hcase _ rfl⟩ (.cons ⟨rfl, twins_record hf⟩ .nil))
  have hcode {v w : Value} (hs : G.Same G' v w) :
      G.Twins G' first first' (.existing (codeToWire v)) (.existing (codeToWire w)) :=
    twins_existing (hs.orElse rfl)
  cases hk with
  | generic =>
    cases h
    cases h'
    exact twins_record (.cons ⟨rfl, hcase _ rfl⟩ .nil)
  | alreadyStarted =>
    cases h
    cases h'
    exact twins_record (.cons ⟨rfl, hcase _ rfl⟩ .nil)
  | application htype hdetails hretry hdelay =>
    obtain ⟨r, hr, h⟩ := Except.bind_eq_ok.1 h
    obtain ⟨r', hr', h'⟩ := Except.bind_eq_ok.1 h'
    obtain ⟨m, hm, h⟩ := Except.bind_eq_ok.1 h
    obtain ⟨m', hm', h'⟩ := Except.bind_eq_ok.1 h'
    cases h
    cases h'
    obtain rfl : m = m' := Except.ok.inj (hm.symm.trans (hdelay.trans hm'))
    have hduration : Option.Rel (G.Twins G' first first') m m := by
      obtain ⟨d, rfl⟩ := exists_duration_of_wireDelay hm
      cases d with
      | none => exact .none
      | some d => exact .some (twins_duration d)
    exact hvalue (((Fields.zip_cons "type" (twins_existing (htype.orElse rfl))
      (Fields.zip_cons "nonRetryable" (twins_existing hretry) .nil)).append
        (zip_optionalField "details" (hdetails r r' hr hr'))).append (zip_optionalField "nextRetryDelay" hduration))
  | cancelled hdetails =>
    obtain ⟨r, hr, h⟩ := Except.bind_eq_ok.1 h
    obtain ⟨r', hr', h'⟩ := Except.bind_eq_ok.1 h'
    cases h
    cases h'
    exact hvalue (zip_optionalField "details" (hdetails r r' hr hr'))
  | terminated hdetails =>
    obtain ⟨r, hr, h⟩ := Except.bind_eq_ok.1 h
    obtain ⟨r', hr', h'⟩ := Except.bind_eq_ok.1 h'
    cases h
    cases h'
    exact hvalue (zip_optionalField "details" (hdetails r r' hr hr'))
  | timeout htype hdetails =>
    obtain ⟨r, hr, h⟩ := Except.bind_eq_ok.1 h
    obtain ⟨r', hr', h'⟩ := Except.bind_eq_ok.1 h'
    cases h
    cases h'
    exact hvalue (Fields.zip_cons "timeoutType" (hcode htype)
      (zip_optionalField "lastHeartbeatDetails" (hdetails r r' hr hr')))
  | server hretry =>
    cases h
    cases h'
    exact hvalue (Fields.zip_cons "nonRetryable" (twins_existing hretry) .nil)
  | activity ha hb hc hd he hs =>
    cases h
    cases h'
    have htype : G.Twins G' first first' (.record [("name", .existing _)]) (.record [("name", .existing _)]) :=
      twins_record (Fields.zip_cons "name" (twins_existing hd) .nil)
    exact hvalue (Fields.zip_cons "scheduledEventId" (twins_existing ha) (Fields.zip_cons "startedEventId"
      (twins_existing hb) (Fields.zip_cons "identity" (twins_existing hc) (Fields.zip_cons "activityType" htype
        (Fields.zip_cons "activityId" (twins_existing he) (Fields.zip_cons "retryState" (hcode hs) .nil))))))
  | childWorkflow ha hb hc hd he hf hs =>
    cases h
    cases h'
    have hexecution : G.Twins G' first first' (.record [("workflowId", .existing _), ("runId", .existing _)])
        (.record [("workflowId", .existing _), ("runId", .existing _)]) :=
      twins_record (Fields.zip_cons "workflowId" (twins_existing hb) (Fields.zip_cons "runId" (twins_existing hc) .nil))
    have htype : G.Twins G' first first' (.record [("name", .existing _)]) (.record [("name", .existing _)]) :=
      twins_record (Fields.zip_cons "name" (twins_existing hd) .nil)
    exact hvalue (Fields.zip_cons "namespace" (twins_existing ha) (Fields.zip_cons "workflowExecution" hexecution
      (Fields.zip_cons "workflowType" htype (Fields.zip_cons "initiatedEventId" (twins_existing he)
        (Fields.zip_cons "startedEventId" (twins_existing hf) (Fields.zip_cons "retryState" (hcode hs) .nil))))))

end Graph

/-! ## Links -/

/-- Two links are the same, with related attributes. -/
structure WireLink.Twins (g g' : Graph) (first first' : ObjectId) (A : Document → Document → Prop)
    (link other : WireLink) : Prop where
  message : g.Same g' link.message other.message
  source : g.Same g' link.source other.source
  stackTrace : g.Same g' link.stackTrace other.stackTrace
  info : g.Twins g' first first' link.info.document other.info.document
  attributes : Option.Rel A link.encodedAttributes other.encodedAttributes

namespace Graph

variable {g g' : Graph} {first first' : ObjectId}

/-- Two values are records with the same fields in the same order, whose values are the same but for the fields of
certain names. -/
def SameBut (g g' : Graph) (names : List String) (v w : Value) : Prop :=
  ∃ fields others, g.objectOf? v = some (.record fields) ∧ g'.objectOf? w = some (.record others) ∧
    List.Forall₂ (fun f o => f.1 = o.1 ∧ (f.1 ∈ names ∨ g.Same g' f.2 o.2)) fields others

/-- A part of two links: it is the same, or else their causes or their attributes, which are related. -/
def LinkPart (g g' : Graph) (first first' : ObjectId) (A C : Document → Document → Prop) (name : String)
    (d d' : Document) : Prop :=
  g.Twins g' first first' d d' ∨ (name = "cause" ∧ C d d') ∨ (name = "encodedAttributes" ∧ A d d')

theorem exists_linkParts {A C : Document → Document → Prop} {link other : WireLink} {cause cause' : Option Document}
    (h : link.Twins g g' first first' A other) (hcause : Option.Rel C cause cause') :
    ∃ fields others, link.document cause = .record fields ∧ other.document cause' = .record others ∧
      List.Forall₂ (fun f o => f.1 = o.1 ∧ g.LinkPart g' first first' A C f.1 f.2 o.2) fields others := by
  obtain ⟨message, source, stackTrace, attributes, info⟩ := link
  obtain ⟨message', source', stackTrace', attributes', info'⟩ := other
  obtain ⟨hmessage, hsource, hstack, hinfo, hattributes⟩ := h
  refine ⟨_, _, rfl, rfl, List.rel_append (List.rel_append (List.rel_append ?_ ?_) ?_) ?_⟩
  · exact .cons ⟨rfl, .inl (twins_existing hmessage)⟩ (.cons ⟨rfl, .inl (twins_existing hsource)⟩
      (.cons ⟨rfl, .inl (twins_existing hstack)⟩ .nil))
  · cases hcause with
    | none => exact .nil
    | some hc => exact .cons ⟨rfl, .inr (.inl ⟨rfl, hc⟩)⟩ .nil
  · exact .cons ⟨rfl, .inl hinfo⟩ .nil
  · cases hattributes with
    | none => exact .nil
    | some ha => exact .cons ⟨rfl, .inr (.inr ⟨rfl, ha⟩)⟩ .nil

theorem twins_link {link other : WireLink} {cause cause' : Option Document}
    (h : link.Twins g g' first first' (g.Twins g' first first') other)
    (hcause : Option.Rel (g.Twins g' first first') cause cause') :
    g.Twins g' first first' (link.document cause) (other.document cause') := by
  obtain ⟨fields, others, hd, hd', hparts⟩ := exists_linkParts h hcause
  rw [hd, hd']
  refine twins_record (hparts.imp fun f o hfo => ⟨hfo.1, ?_⟩)
  rcases hfo.2 with hpart | ⟨-, hpart⟩ | ⟨-, hpart⟩ <;> exact hpart

/-- **Chains of links that are the same, attributes included, are the same.** -/
theorem twins_emitted {links others : List WireLink}
    (h : List.Forall₂ (WireLink.Twins g g' first first' (g.Twins g' first first')) links others) :
    g.Twins g' first first' (Emitted.document ⟨links, none⟩) (Emitted.document ⟨others, none⟩) := by
  have hchain : Option.Rel (g.Twins g' first first') (chainDocument links none) (chainDocument others none) := by
    induction h with
    | nil => exact .none
    | cons hlink _ ih => exact .some (twins_link hlink ih)
  cases h with
  | nil => exact twins_existing (same_of_plain rfl)
  | cons hlink hrest =>
    cases hchain with
    | some hd => exact hd

/-- What shows two links with related attributes is the same but for the causes and the attributes. -/
theorem sameBut_of_shows {A : Document → Document → Prop} {link other : WireLink} {cause cause' : Option Document}
    (h : link.Twins g g' first first' A other) (hcause : Option.Rel (fun _ _ => True) cause cause') {v w : Value}
    (hv : g.Shows first (link.document cause) v) (hw : g'.Shows first' (other.document cause') w) :
    g.SameBut g' ["cause", "encodedAttributes"] v w := by
  obtain ⟨fields, others, hd, hd', hparts⟩ := exists_linkParts h hcause
  rw [hd] at hv
  rw [hd'] at hw
  obtain ⟨values, hobject, hfields⟩ := hv
  obtain ⟨values', hobject', hothers⟩ := hw
  refine ⟨values, values', hobject, hobject', forall₂_shown (P := g.LinkPart g' first first' A fun _ _ => True)
    (Q := fun name x y => name ∈ ["cause", "encodedAttributes"] ∨ g.Same g' x y) ?_ hparts hfields hothers⟩
  rintro name d d' x y (htwins | ⟨rfl, -⟩ | ⟨rfl, -⟩) hx hy
  · exact .inr (htwins x y hx hy)
  · exact .inl (by simp)
  · exact .inl (by simp)

theorem rel_chainDocument {A : Document → Document → Prop} {links others : List WireLink}
    (h : List.Forall₂ (WireLink.Twins g g' first first' A) links others) :
    Option.Rel (fun _ _ => True) (chainDocument links none) (chainDocument others none) := by
  cases h with
  | nil => exact .none
  | cons => exact .some trivial

theorem sameBut_chain {A : Document → Document → Prop} {links others : List WireLink}
    (h : List.Forall₂ (WireLink.Twins g g' first first' A) links others) : ∀ {d d' : Document} {v w : Value},
      chainDocument links none = some d → chainDocument others none = some d' → g.Shows first d v →
        g'.Shows first' d' w → ∃ vs ws, g.CauseChain v vs ∧ g'.CauseChain w ws ∧
          List.Forall₂ (g.SameBut g' ["cause", "encodedAttributes"]) vs ws := by
  induction h with
  | nil => rintro _ _ _ _ ⟨⟩
  | @cons link other links others hlink hrest ih =>
    rintro _ _ v w ⟨⟩ ⟨⟩ hv hw
    have hsame := sameBut_of_shows hlink (rel_chainDocument hrest) hv hw
    have hread := (g.reading_shows first).link hv
    have hread' := (g'.reading_shows first').link hw
    cases hrest with
    | nil =>
      refine ⟨[v], [w], .link hread.isMissing (.done ?_), .link hread'.isMissing (.done ?_), .cons hsame .nil⟩
      · rw [hread.causeOf_eq_undefined]
        rfl
      · rw [hread'.causeOf_eq_undefined]
        rfl
    | cons =>
      obtain ⟨vs, ws, hvs, hws, hall⟩ := ih rfl rfl hread.shows_cause hread'.shows_cause
      exact ⟨v :: vs, w :: ws, .link hread.isMissing hvs, .link hread'.isMissing hws, .cons hsame hall⟩

/-- **Chains of links that are the same up to their attributes are told apart by nothing else.** -/
theorem sameBut_emitted {A : Document → Document → Prop} {links others : List WireLink} (hne : links ≠ [])
    (h : List.Forall₂ (WireLink.Twins g g' first first' A) links others) {v w : Value}
    (hv : g.Shows first (Emitted.document ⟨links, none⟩) v)
    (hw : g'.Shows first' (Emitted.document ⟨others, none⟩) w) :
    ∃ vs ws, g.CauseChain v vs ∧ g'.CauseChain w ws ∧
      List.Forall₂ (g.SameBut g' ["cause", "encodedAttributes"]) vs ws := by
  cases h with
  | nil => exact absurd rfl hne
  | cons hlink hrest => exact sameBut_chain (.cons hlink hrest) rfl rfl hv hw

end Graph
end FailureWire
