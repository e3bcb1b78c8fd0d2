import FailureWire.Proofs.Conversion.Arrival
import FailureWire.Proofs.Wire.Twins

/-!
# Receiving two failures

Two wire failures, each in a graph of its own, are received by one converter. If their information is of the same
kinds and their details are decoded to related documents (`exists_errors_of_match`), the errors of both agree link by
link. Then two chains of the same length come out, and their errors differ in the wire failures that they keep, and in
details that are related in turn (`exists_received_of_agrees`).
-/

namespace FailureWire

/-! ## Kinds that agree -/

theorem FailureKind.Agrees.display_eq {δ ε : Type} {M : Value → Value → Prop} {D : δ → ε → Prop} {k : FailureKind δ}
    {k' : FailureKind ε} (h : k.Agrees Eq M D k') (message : Value) : k.display message = k'.display message := by
  cases h with
  | application htype =>
    obtain rfl := htype
    rfl
  | _ => rfl

theorem FailureKind.Agrees.errorClass_eq {δ ε : Type} {R M : Value → Value → Prop} {D : δ → ε → Prop}
    {k : FailureKind δ} {k' : FailureKind ε} (h : k.Agrees R M D k') : k'.errorClass = k.errorClass := by
  cases h <;> rfl

theorem FailureKind.Agrees.code_eq {δ ε : Type} {R M : Value → Value → Prop} {D : δ → ε → Prop} {k : FailureKind δ}
    {k' : FailureKind ε} (h : k.Agrees R M D k') : k'.code = k.code := by
  cases h <;> rfl

/-- The type that information has is no object. -/
def FailureInfo.PlainType {π : Type} : FailureInfo π → Prop
  | .application type _ _ _ => type.id? = none
  | _ => True

theorem FailureInfo.Match.plainType {P T : Value → Value → Prop} {info info' : FailureInfo Value}
    (h : info.Match P T info') : info.PlainType ∧ info'.PlainType := by
  cases h with
  | application _ htype => exact ⟨htype, htype⟩
  | unmapped | timeout | canceled | terminated | server | activity | childWorkflow => exact ⟨trivial, trivial⟩

section
variable {c : Codec} {g g' : Graph} {read read' : FailureInfo Value}

theorem FailureInfo.PlainType.of_toKind (hplain : read.PlainType) {k : Option (FailureKind Document)}
    (hk : read.toKind c g = .ok k) :
    ∀ type ds b ms, k.getD .generic = .application type ds b ms → type.id? = none := by
  cases read with
  | application type nonRetryable =>
    obtain ⟨ds, -, hk⟩ := Except.bind_eq_ok.1 hk
    obtain ⟨ms, -, hk⟩ := Except.bind_eq_ok.1 hk
    cases hk
    rintro _ _ _ _ ⟨⟩
    split
    · exact hplain
    · rfl
  | timeout | canceled | terminated =>
    obtain ⟨ds, -, hk⟩ := Except.bind_eq_ok.1 hk
    cases hk
    rintro _ _ _ _ ⟨⟩
  | unmapped | server | activity | childWorkflow =>
    cases hk
    rintro _ _ _ _ ⟨⟩

/-- Two graphs have details that are decoded to related lists, and delays that are the same. -/
structure Codec.DecodesBoth (c : Codec) (g g' : Graph) (D : Document → Document → Prop)
    (info info' : FailureInfo Value) (P T : Value → Value → Prop) : Prop where
  nothing : D (.list []) (.list [])
  details : Option.Rel P info.details? info'.details? → ∃ ds ds', c.decodeDetails g info.details? = .ok ds ∧
    c.decodeDetails g' info'.details? = .ok ds' ∧ D (.list ds) (.list ds')
  delay : ∀ {t t'}, Option.Rel T t t' → ∃ ms, g.delayOf t = .ok ms ∧ g'.delayOf t' = .ok ms

/-- **Information of one kind stands for kinds that agree**, if its details are decoded to related ones. -/
theorem FailureInfo.Match.exists_toKind {P T : Value → Value → Prop} {D : Document → Document → Prop}
    (h : read.Match P T read') (hd : c.DecodesBoth g g' D read read' P T) :
    ∃ k k', read.toKind c g = .ok k ∧ read'.toKind c g' = .ok k' ∧ Option.Rel (FailureKind.Agrees Eq Eq D) k k' := by
  cases h with
  | unmapped => exact ⟨none, none, rfl, rfl, .none⟩
  | @application type nonRetryable details details' delay delay' _ hdetails hdelay =>
    obtain ⟨ds, ds', (hds : c.decodeDetails g details = .ok ds), (hds' : c.decodeDetails g' details' = .ok ds'),
      hrelated⟩ := hd.details hdetails
    obtain ⟨ms, hms, hms'⟩ := hd.delay hdelay
    refine ⟨_, _, by simp only [toKind, hds, hms]; rfl, by simp only [toKind, hds', hms']; rfl, ?_⟩
    exact .some (.application rfl hrelated rfl rfl)
  | @timeout type details details' hdetails =>
    obtain ⟨ds, ds', (hds : c.decodeDetails g details = .ok ds), (hds' : c.decodeDetails g' details' = .ok ds'),
      hrelated⟩ := hd.details hdetails
    refine ⟨_, _, by simp only [toKind, hds]; rfl, by simp only [toKind, hds']; rfl, .some (.timeout rfl ?_)⟩
    split
    · exact hrelated
    · exact hd.nothing
  | @canceled details details' hdetails =>
    obtain ⟨ds, ds', (hds : c.decodeDetails g details = .ok ds), (hds' : c.decodeDetails g' details' = .ok ds'),
      hrelated⟩ := hd.details hdetails
    exact ⟨_, _, by simp only [toKind, hds]; rfl, by simp only [toKind, hds']; rfl, .some (.cancelled hrelated)⟩
  | @terminated details details' hdetails =>
    obtain ⟨ds, ds', (hds : c.decodeDetails g details = .ok ds), (hds' : c.decodeDetails g' details' = .ok ds'),
      hrelated⟩ := hd.details hdetails
    exact ⟨_, _, by simp only [toKind, hds]; rfl, by simp only [toKind, hds']; rfl, .some (.terminated hrelated)⟩
  | server => exact ⟨_, _, rfl, rfl, .some (.server rfl)⟩
  | activity => exact ⟨_, _, rfl, rfl, .some (.activity rfl rfl rfl rfl rfl rfl)⟩
  | childWorkflow => exact ⟨_, _, rfl, rfl, .some (.childWorkflow rfl rfl rfl rfl rfl rfl rfl)⟩

end

/-! ## Errors that agree -/

/-- Two errors that were received differ in the wire failures that they keep, and in details that are related. -/
def ThrownError.Agrees (D : Document → Document → Prop) (e e' : ThrownError Document) : Prop :=
  ∃ kind kind' message display stackTrace frames stored stored', kind.Agrees Eq Eq D kind' ∧
    e = .build kind message display { stored, stackTrace, frames } ∧
    e' = .build kind' message display { stored := stored', stackTrace, frames }

/-- **The errors of two links with information of one kind agree**, if the links have the same attributes. -/
theorem ConverterOptions.exists_errors_of_match {r : ConverterOptions} {g g' : Graph} {P T : Value → Value → Prop}
    {D : Document → Document → Prop} {w w' message trace : Value} {read read' : FailureInfo Value}
    (hread : g.infoAt w = .ok read) (hread' : g'.infoAt w' = .ok read') (hmatch : read.Match P T read')
    (hd : r.codec.DecodesBoth g g' D read read' P T) (ha : (r.attributesOf g w).Gives ⟨message, trace⟩)
    (ha' : (r.attributesOf g' w').Gives ⟨message, trace⟩) (hmessage : message.IsText) :
    ∃ a a', (r.errorOf g w).Gives a ∧ (r.errorOf g' w').Gives a' ∧ a.1.Agrees D a'.1 ∧ a.2 = a'.2 := by
  obtain ⟨k, k', hk, hk', hagree⟩ := hmatch.exists_toKind hd
  have hkinds : (k.getD .generic).Agrees Eq Eq D (k'.getD .generic) ∧ k.isSome = k'.isSome := by
    cases hagree with
    | none => exact ⟨.generic, rfl⟩
    | some hkk => exact ⟨hkk, rfl⟩
  have herror := toError_of_plain g r.frames (k.getD .generic) trace w hmessage (hmatch.plainType.1.of_toKind hk)
  have herror' := toError_of_plain g' r.frames (k'.getD .generic) trace w' hmessage (hmatch.plainType.2.of_toKind hk')
  rw [← hkinds.1.display_eq message] at herror'
  have hframes : ThrownError.build (k'.getD .generic) message ((k.getD .generic).display message)
      (.received r.frames (k'.getD .generic) w' trace) = .build (k'.getD .generic) message
        ((k.getD .generic).display message)
        { stored := w', stackTrace := trace, frames := r.frames (.received (k.getD .generic).errorClass) } := by
    rw [FailureOptions.received, hkinds.1.errorClass_eq]
  exact ⟨_, _, errorOf_of_parts ha hread hk herror, errorOf_of_parts ha' hread' hk' herror',
    ⟨_, _, _, _, _, _, _, _, hkinds.1, rfl, hframes⟩, hkinds.2⟩

/-! ## Errors that differ in what they keep -/

/-- Two failures differ in nothing but the wire failures that they keep and their causes; their details are
related. -/
structure ThrownError.SameButStored (R : Value → Value → Prop) (e e' : ThrownError Value)
    (f f' : FailureFields Value) : Prop where
  errorClass : e'.errorClass = e.errorClass
  name : e'.name = e.name
  message : e'.message = e.message
  stack : e'.stack = e.stack
  frames : e'.frames = e.frames
  code : e'.body.code? = e.body.code?
  context : e'.body.context? = e.body.context?
  displayMessage : f'.displayMessage = f.displayMessage
  stackTrace : f'.stackTrace = f.stackTrace
  kind : f.kind.Agrees Eq Eq R f'.kind
  listsCause : e'.listsCause = e.listsCause
  extra : e'.extra = e.extra

namespace Graph

variable {G G' H H' : Graph}

/-- **Errors that agree become failures that differ in what they keep**, if related details become related values. -/
theorem exists_sameButStored_of_raised {D : Document → Document → Prop} {L : Value → Value → Prop}
    (hD : ∀ d d' x y, D d d' → G.Placed H d x → G'.Placed H' d' y → L x y) {e e' : ThrownError Document}
    {v w : Value} (h : e.Agrees D e') (hv : G.Raised H e v) (hw : G'.Raised H' e' w) :
    ∃ e f e' f', H.errorOf? v = some e ∧ e.failure? = some f ∧ H'.errorOf? w = some e' ∧ e'.failure? = some f' ∧
      e.SameButStored L e' f f' := by
  obtain ⟨kind, kind', message, display, trace, frames, stored, stored', hkind, rfl, rfl⟩ := h
  obtain ⟨cause, details, he, hplaced⟩ := hv
  obtain ⟨cause', details', he', hplaced'⟩ := hw
  have hdetails : ∀ d d', kind.details? = some d → kind'.details? = some d' → D d d' → L details details' := by
    intro d d' hd hd' hrelated
    have hlist : G.Placed H (kind.details?.getD .undefined) details := hplaced
    have hlist' : G'.Placed H' (kind'.details?.getD .undefined) details' := hplaced'
    rw [hd] at hlist
    rw [hd'] at hlist'
    exact hD d d' _ _ hrelated hlist hlist'
  refine ⟨_, ⟨display, stored, trace, kind.map fun _ => details⟩, _,
    ⟨display, stored', trace, kind'.map fun _ => details'⟩, he, rfl, he', rfl, ?_⟩
  exact
    { errorClass := by
        show (kind'.map fun _ => details').errorClass = (kind.map fun _ => details).errorClass
        rw [FailureKind.errorClass_map, FailureKind.errorClass_map, hkind.errorClass_eq]
      name := by
        show Value.text kind'.errorClass.name = .text kind.errorClass.name
        rw [hkind.errorClass_eq]
      message := rfl
      stack := rfl
      frames := rfl
      code := by
        show some (ThrownError.failureCode kind' .undefined) = some (ThrownError.failureCode kind .undefined)
        rw [ThrownError.failureCode_undefined, ThrownError.failureCode_undefined, hkind.code_eq]
      context := rfl
      displayMessage := rfl
      stackTrace := rfl
      kind := FailureKind.Agrees.map (fun _ _ => id) (fun _ _ => id) hdetails hkind
      listsCause := rfl
      extra := rfl }

/-- Two chains of one length are cut at the same place by one depth. -/
theorem related_take_linksIn {α β : Type} {R : α → β → Prop} {xs : List α} {ys : List β} {w w' : Value}
    {ws ws' : List Value} (h : List.Forall₂ R xs ys) (hw : G.CauseChain w ws) (hw' : G'.CauseChain w' ws')
    (hx : xs.length = ws.length) (hy : ys.length = ws'.length) (d : Depth) :
    List.Forall₂ R (xs.take (max 1 (d.linksIn G))) (ys.take (max 1 (d.linksIn G'))) := by
  cases d with
  | atMost limit => exact List.forall₂_take _ h
  | unlimited =>
    have hle := hw.length_le
    have hle' := hw'.length_le
    have hall : xs.length ≤ max 1 (G.size + 1) := by omega
    have hall' : ys.length ≤ max 1 (G'.size + 1) := by omega
    show List.Forall₂ R (xs.take (max 1 (G.size + 1))) (ys.take (max 1 (G'.size + 1)))
    rwa [List.take_of_length_le hall, List.take_of_length_le hall']

end Graph

/-- **Links whose errors agree are received as chains that differ in what they keep.** The links are those that the
depth admits of two finite chains. -/
theorem ConverterOptions.exists_received_of_agrees {r : ConverterOptions} {G G' : Graph} {w w' : Value}
    {ws ws' : List Value} {D : Document → Document → Prop} {L : Graph → Graph → Value → Value → Prop}
    (hD : ∀ H H' d d' x y, D d d' → G.Placed H d x → G'.Placed H' d' y → L H H' x y)
    (hw : G.CauseChain w ws) (hw' : G'.CauseChain w' ws') (hne : ws ≠ []) (hne' : ws' ≠ [])
    (hobjects : ∀ x ∈ ws, x.id?.isSome) (hobjects' : ∀ x ∈ ws', x.id?.isSome)
    (h : List.Forall₂ (fun x y => ∃ a a', (r.errorOf G x).Gives a ∧ (r.errorOf G' y).Gives a' ∧
      a.1.Agrees D a'.1 ∧ a.2 = a'.2) (ws.take (max 1 (r.maxCauseDepth.linksIn G)))
        (ws'.take (max 1 (r.maxCauseDepth.linksIn G')))) :
    ∃ H v H' v' vs vs', (r.failureToError G w).outcome.1 = .ok (H, v) ∧
      (r.failureToError G' w').outcome.1 = .ok (H', v') ∧ H.CauseChain v vs ∧ H'.CauseChain v' vs' ∧ vs ≠ [] ∧
        List.Forall₂ (fun v w => ∃ e f e' f', H.errorOf? v = some e ∧ e.failure? = some f ∧ H'.errorOf? w = some e' ∧
          e'.failure? = some f' ∧ e.SameButStored (L H H') e' f f') vs vs' := by
  obtain ⟨arrivals, arrivals', hgives, hgives', halike⟩ := exists_forall₂_square h
  have hreceived := failureToError_of_arrivals hw hne hobjects hgives
  have hreceived' := failureToError_of_arrivals hw' hne' hobjects' hgives'
  have hkept := kept_of_related halike
  have hplain : ∀ e ∈ kept arrivals, e.cause = none ∧ e.extra = [] := by
    intro e he
    obtain ⟨e', -, kind, kind', message, display, trace, frames, stored, stored', -, rfl, -⟩ :=
      exists_of_forall₂ hkept.flip he
    exact ⟨rfl, rfl⟩
  have hplain' : ∀ e ∈ kept arrivals', e.cause = none ∧ e.extra = [] := by
    intro e he
    obtain ⟨e', -, kind, kind', message, display, trace, frames, stored, stored', -, -, rfl⟩ :=
      exists_of_forall₂ hkept he
    exact ⟨rfl, rfl⟩
  obtain ⟨vs, hvs, hraised⟩ := G.raised_addErrors hplain
  obtain ⟨vs', hvs', hraised'⟩ := G'.raised_addErrors hplain'
  refine ⟨_, _, _, _, vs, vs', hreceived, hreceived', hvs, hvs', ne_nil_of_forall₂ hraised (kept_ne_nil ?_),
    forall₂_square (fun e e' x y he hx hy => ?_) hkept hraised hraised'⟩
  · -- at least one link is taken
    refine ne_nil_of_forall₂ hgives fun hnil => ?_
    rcases List.take_eq_nil_iff.1 hnil with hzero | hnone
    · omega
    · exact hne hnone
  · exact Graph.exists_sameButStored_of_raised (hD _ _) he hx hy

end FailureWire
