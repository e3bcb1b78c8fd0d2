import FailureWire.Proofs.Conversion.Encoding
import FailureWire.Proofs.Conversion.Passage
import FailureWire.Proofs.Conversion.Written
import FailureWire.Proofs.Payload.Copy
import FailureWire.Proofs.Wire.Twins

/-!
# What wire failures tell of words

Messages and stacks are words that a program may not want to show. Where they are encoded (`encodeCommonAttributes`),
they must not leave by another way: by the display message, the stack trace, the information about a kind, or by how a
thrown value is turned into a failure. That is a statement about two conversions. Their thrown values stand in graphs
of their own, and their links differ in words only (`g.DiffersInWords g'`). Then what is emitted for them differs in
nothing but the encoded attributes, and where stack traces are not sent and the messages are the same, in nothing at
all (`words_not_disclosed`).
-/

namespace FailureWire

namespace Fields

variable {α : Type} {R : α → α → Prop} {fields others : Fields α}

theorem Zip.filter (p : String → Bool) (h : fields.Zip R others) :
    Fields.Zip R (List.filter (fun f => p f.1) fields) (List.filter (fun f => p f.1) others) :=
  List.rel_filter (fun _ _ hf => Iff.of_eq (congrArg (p · = true) hf.1)) h

theorem Zip.extent_eq (h : fields.Zip R others) : fields.extent = others.extent :=
  List.rel_foldl (P := Eq) (fun _ _ hn _ _ hf => by rw [hn, hf.1]) rfl h

end Fields

/-! ## Details -/

namespace Graph

variable {g g' G G' : Graph} {first first' : ObjectId} {c : Codec} {R : Value → Value → Prop}

/-- What cannot be told apart is encoded alike. -/
theorem twins_encodeValue (hc : c.Uniform) (hle : g ≤ G) (hle' : g' ≤ G') {v w : Value} {p p' : Document}
    (hv : g.Indistinct g' v w) (h : c.encodeValue g v = .ok p) (h' : c.encodeValue g' w = .ok p') :
    G.Twins G' first first' p p' := by
  obtain ⟨encoded, he, h⟩ := Except.bind_eq_ok.1 h
  obtain ⟨encoded', he', h'⟩ := Except.bind_eq_ok.1 h'
  rw [hc hv] at he
  cases he.symm.trans he'
  cases encoded with
  | itself =>
    cases h
    cases h'
    exact twins_existing (hv.same.mono hle hle')
  | payload p =>
    cases h
    cases h'
    exact twins_payload p

/-- Items that cannot be told apart are encoded alike. -/
theorem twins_encodeValues (hc : c.Uniform) (hle : g ≤ G) (hle' : g' ≤ G') {items others : List Value}
    {ps ps' : List Document} (hi : List.Forall₂ (g.Indistinct g') items others)
    (h : items.mapM (c.encodeValue g) = .ok ps) (h' : others.mapM (c.encodeValue g') = .ok ps') :
    List.Forall₂ (G.Twins G' first first') ps ps' := by
  refine forall₂_square (fun x y p p' hv hp hp' => ?_) hi (Except.mapM_eq_ok.1 h) (Except.mapM_eq_ok.1 h')
  exact twins_encodeValue hc hle hle' hv hp hp'

/-- Fields that cannot be told apart are encoded alike. -/
theorem twins_encodeFields (hc : c.Uniform) (hle : g ≤ G) (hle' : g' ≤ G') {fields others : Fields Value}
    {ps ps' : Fields Document} (hf : fields.Zip (g.Indistinct g') others)
    (h : (fields.mapM fun (name, v) => do return (name, ← c.encodeValue g v)) = .ok ps)
    (h' : (others.mapM fun (name, v) => do return (name, ← c.encodeValue g' v)) = .ok ps') :
    ps.Zip (G.Twins G' first first') ps' := by
  have hfield {h : Graph} {f p : String × _} (hp : (do return (f.1, ← c.encodeValue h f.2) : Except Fault _) = .ok p) :
      f.1 = p.1 ∧ c.encodeValue h f.2 = .ok p.2 := by
    obtain ⟨d, hd, hp⟩ := Except.bind_eq_ok.1 hp
    cases hp
    exact ⟨rfl, hd⟩
  refine forall₂_square (fun f o p p' hfo hp hp' => ?_) hf (Except.mapM_eq_ok.1 h) (Except.mapM_eq_ok.1 h')
  obtain ⟨hname, hd⟩ := hfield hp
  obtain ⟨hname', hd'⟩ := hfield hp'
  exact ⟨hname.symm.trans (hfo.1.trans hname'), twins_encodeValue hc hle hle' hfo.2 hd hd'⟩

/-- **Details that cannot be told apart are encoded alike.** -/
theorem encodedAlike_existing (hc : c.Uniform) (hle : g ≤ G) (hle' : g' ≤ G') {v w : Value}
    (hv : g.Indistinct g' v w) :
    EncodedAlike c g g' (G.Twins G' first first') (.existing v) (.existing w) := by
  intro r r' h h'
  obtain ⟨R, hR, hvw⟩ := hv
  have hitem {x y : Value} (hxy : R x y) : g.Indistinct g' x y := ⟨R, hR, hxy⟩
  have hpayloads {d d' : Document} (hd : G.Twins G' first first' d d') :
      Option.Rel (G.Twins G' first first') (some (payloadsDocument d)) (some (payloadsDocument d')) :=
    .some (twins_record (Fields.zip_cons "payloads" hd .nil))
  have hobject := (hR.compares hvw).objectOf?
  generalize hn : g.objectOf? v = n at hobject
  generalize hm : g'.objectOf? w = m at hobject
  have hnothing (hn' : n.all (!·.isSequence) = true) (hm' : m.all (!·.isSequence) = true) :
      Option.Rel (G.Twins G' first first') r r' := by
    rw [Codec.encodeDetails_of_not_sequence (by rw [hn]; exact hn') h,
      Codec.encodeDetails_of_not_sequence (by rw [hm]; exact hm') h']
    exact .none
  cases hobject with
  | none => exact hnothing rfl rfl
  | some hnm =>
    cases hnm with
    | error => exact hnothing rfl rfl
    | moved hnm =>
      rw [Codec.encodeDetails, add_existing] at h h'
      simp only [hn, hm] at h h'
      cases hnm with
      | list hi =>
        cases hi with
        | nil =>
          cases h
          cases h'
          exact .none
        | cons hx hrest =>
          obtain ⟨ps, hps, h⟩ := Except.bind_eq_ok.1 h
          obtain ⟨ps', hps', h'⟩ := Except.bind_eq_ok.1 h'
          cases h
          cases h'
          refine hpayloads (twins_list (twins_encodeValues hc hle hle' ?_ hps hps'))
          exact .cons (hitem hx) (hrest.imp fun _ _ => hitem)
      | sparse hf =>
        dsimp only at h h'
        rw [← hf.extent_eq] at h'
        split at h
        next hextent =>
          rw [if_pos hextent] at h'
          cases h
          cases h'
          exact .none
        next hextent =>
          rw [if_neg hextent] at h'
          obtain ⟨ps, hps, h⟩ := Except.bind_eq_ok.1 h
          obtain ⟨ps', hps', h'⟩ := Except.bind_eq_ok.1 h'
          cases h
          cases h'
          refine hpayloads (twins_sparse (twins_encodeFields hc hle hle' ?_ hps hps'))
          exact (hf.filter fun name => (positionOf? name).isSome).imp fun _ _ => hitem
      | bytes data =>
        cases data with
        | nil =>
          cases h
          cases h'
          exact .none
        | cons b rest =>
          obtain ⟨_, -, h⟩ := Except.bind_eq_ok.1 h
          obtain ⟨_, -, h'⟩ := Except.bind_eq_ok.1 h'
          cases h
          cases h'
          exact hpayloads (twins_bytes _)
      | numbers element items =>
        cases items with
        | nil =>
          cases h
          cases h'
          exact .none
        | cons n rest =>
          obtain ⟨_, -, h⟩ := Except.bind_eq_ok.1 h
          obtain ⟨_, -, h'⟩ := Except.bind_eq_ok.1 h'
          cases h
          cases h'
          exact hpayloads (twins_numbers element _)
      | _ => exact hnothing rfl rfl

/-! ## Attributes -/

/-- A record of a message and a stack trace is encoded. -/
theorem encode_attributes_ne_itself (hc : c.Lawful) (message stackTrace : Value) :
    c.encode (g.push (.record [("message", message), ("stack_trace", stackTrace)])).1 (.object g.size) ≠
      .ok .itself := by
  intro h
  have hrecord : (g.push (.record [("message", message), ("stack_trace", stackTrace)])).1.IsRecord (.object g.size)
      [("message", message), ("stack_trace", stackTrace)] :=
    ⟨_, g.node?_push_self (.record [("message", message), ("stack_trace", stackTrace)]), fun _ => rfl⟩
  have hpayload := hc.itself h
  rw [Graph.isPayload_of_data (hrecord.read "data")] at hpayload
  cases hpayload

/-- **The attributes of the same texts are encoded alike.** -/
theorem twins_encodeAttributes (hc : c.Uniform) (hl : c.Lawful) {message stackTrace : Value} {a a' : Document}
    (hm : message.IsText) (ht : stackTrace.IsText) (h : c.encodeAttributes g message stackTrace = .ok a)
    (h' : c.encodeAttributes g' message stackTrace = .ok a') : G.Twins G' first first' a a' := by
  obtain ⟨m, rfl⟩ := hm
  obtain ⟨t, rfl⟩ := ht
  let d : Document := .record [("message", .text m), ("stack_trace", .text t)]
  have hsame : c.encode (g.add d).1 (g.add d).2 = c.encode (g'.add d).1 (g'.add d).2 :=
    hc (indistinct_of_placed (d := d) ⟨trivial, trivial, trivial⟩ (g.placed_add d) (g'.placed_add d))
  obtain ⟨encoded, he, h⟩ := Except.bind_eq_ok.1 (show c.encodeValue (g.add d).1 (g.add d).2 = .ok a from h)
  obtain ⟨encoded', he', h'⟩ := Except.bind_eq_ok.1 (show c.encodeValue (g'.add d).1 (g'.add d).2 = .ok a' from h')
  cases he.symm.trans (hsame.trans he')
  cases encoded with
  | itself => exact absurd he (encode_attributes_ne_itself hl (.text m) (.text t))
  | payload p =>
    cases h
    cases h'
    exact twins_payload p

/-! ## Words -/

/-- Two thrown values differ in words only: they are failures whose kinds agree, other errors of one name, or no
errors. Their messages, their display messages and their stacks may be any. -/
inductive DiffersInWords (g g' : Graph) (x y : Value) : Prop
  | failure {e e' : ThrownError Value} {f f' : FailureFields Value} : g.errorOf? x = some e →
    g'.errorOf? y = some e' → e.failure? = some f → e'.failure? = some f' →
      f.kind.Agrees (g.Indistinct g') (fun d d' => g.Indistinct g' d d' ∧ g.toNumber d = g'.toNumber d')
        (g.Indistinct g') f'.kind → DiffersInWords g g' x y
  | host {e e' : ThrownError Value} : g.errorOf? x = some e → g'.errorOf? y = some e' → e.failure? = none →
    e'.failure? = none → g.Indistinct g' e.name e'.name → DiffersInWords g g' x y
  | other : g.errorOf? x = none → g'.errorOf? y = none → DiffersInWords g g' x y

/-- Two thrown values have the same message: errors have the same text as their message, and values that are
texts are the same. -/
structure SaysSame (g g' : Graph) (x y : Value) : Prop where
  message : ∀ e e', g.errorOf? x = some e → g'.errorOf? y = some e' → e.message.IsText ∧ e'.message = e.message
  text : x.text? = y.text?

end Graph

namespace ConverterOptions

/-- A thrown value can be made a link: an error has texts for what is shown of it, and what there is to encode
can be encoded. -/
structure CanLink (o : ConverterOptions) (g : Graph) (x : Value) : Prop where
  shown : ∀ e, g.errorOf? x = some e → e.failure? = none → g.HasText e.name ∧ g.HasText e.message
  details : ∀ e f ds, g.errorOf? x = some e → e.failure? = some f → f.kind.details? = some ds →
    ∃ d, o.codec.encodeDetails g (.existing ds) = .ok d
  delay : ∀ e f ms, g.errorOf? x = some e → e.failure? = some f → f.kind.nextRetryDelay? = some ms →
    ∃ d, g.wireDelay ms = .ok d
  attributes : o.encodeCommonAttributes = true → ∀ e, g.toFailure o.frames x = .ok e →
    ∃ a, o.codec.encodeAttributes g e.message (o.stackTraceOf g e) = .ok a

variable {o : ConverterOptions} {g g' G G' : Graph} {x y v : Value} {e e' : ThrownError Document}

/-- A link is made of a thrown value. -/
def LinkFor (o : ConverterOptions) (g : Graph) (x : Value) (link : WireLink) : Prop :=
  ∃ e, g.toFailure o.frames x = .ok e ∧ o.linkOf g e = .ok link

theorem CanLink.exists_link (h : o.CanLink g x) : ∃ link, o.LinkFor g x link := by
  obtain ⟨e, f, hmade, hf, hcarried⟩ := Graph.exists_toFailure o.frames h.shown
  obtain ⟨link, hlink⟩ :=
    exists_linkOf_of_carries hf hcarried h.details h.delay fun ho => h.attributes ho e hmade
  exact ⟨link, e, hmade, hlink⟩

theorem exists_sent_of_linkFor {links : List WireLink} (hreuse : o.reuseStoredFailure = false)
    (h : List.Forall₂ (o.LinkFor g) (linksOrSelf (g.walk o.maxCauseDepth v) v) links) :
    ∃ G w, (o.errorToFailure g v).outcome.1 = .ok (G, w) ∧ g ≤ G ∧
      G.Shows g.size (Emitted.document ⟨links, none⟩) w := by
  obtain ⟨errors, hmade, hlinks⟩ := exists_common h
  have hne := ne_nil_of_forall₂ hmade (linksOrSelf_ne_nil _ v)
  have hstored : ∀ e ∈ errors, o.storedOf e = none := by
    intro e _
    simp [storedOf, hreuse]
  obtain ⟨G, w, _, hsent, hle, -, hshown, -⟩ :=
    errorToFailure_of_links (FailureWire.Except.mapM_eq_ok.2 hmade) hne hstored hlinks.flip
  exact ⟨G, w, hsent, hle, hshown⟩

/-- **Failures that stand for thrown values which differ in words only are of kinds that agree**, and have the same
message if the values have. -/
theorem agrees_of_differsInWords (hc : o.codec.Uniform) (hle : g ≤ G) (hle' : g' ≤ G')
    (h : g.DiffersInWords g' x y) (hx : o.CanLink g x) (hy : o.CanLink g' y) (he : g.toFailure o.frames x = .ok e)
    (he' : g'.toFailure o.frames y = .ok e') :
    ∃ f f', e.failure? = some f ∧ e'.failure? = some f' ∧
      f.kind.Agrees (G.Same G') (fun v w => g.wireDelay v = g'.wireDelay w)
        (Graph.EncodedAlike o.codec g g' (G.Twins G' g.size g'.size)) f'.kind ∧
      (g.SaysSame g' x y → e.message.IsText ∧ e'.message = e.message) := by
  have hempty : Graph.EncodedAlike o.codec g g' (G.Twins G' g.size g'.size) (.list []) (.list []) := by
    intro r r' hr hr'
    cases hr.symm.trans (Codec.encodeDetails_of_listed .empty .nil)
    cases hr'.symm.trans (Codec.encodeDetails_of_listed .empty .nil)
    exact .none
  cases h with
  | @failure e₀ e₀' f f' hx₀ hy₀ hf hf' hkind =>
    cases he.symm.trans (Graph.toFailure_of_failure hx₀ (by rw [hf]; rfl))
    cases he'.symm.trans (Graph.toFailure_of_failure hy₀ (by rw [hf']; rfl))
    refine ⟨_, _, by rw [ThrownError.failure?_map, hf]; rfl, by rw [ThrownError.failure?_map, hf']; rfl, ?_,
      fun hsaid => hsaid.message e₀ e₀' hx₀ hy₀⟩
    refine FailureKind.Agrees.map (fun v w hvw => hvw.same.mono hle hle') ?_
      (fun v w _ _ hvw => Graph.encodedAlike_existing hc hle hle' hvw) hkind
    rintro v w ⟨hvw, hnumber⟩
    have hnone := hvw.same.eq_iff_of_plain (p := .undefined) rfl
    simp only [Graph.wireDelay, hnone, hnumber]
  | @host e₀ e₀' hx₀ hy₀ hf hf' hname =>
    obtain ⟨display, hmade⟩ := Graph.exists_failureOfError o.frames (hx.shown e₀ hx₀ hf).1 (hx.shown e₀ hx₀ hf).2
    obtain ⟨display', hmade'⟩ := Graph.exists_failureOfError o.frames (hy.shown e₀' hy₀ hf').1 (hy.shown e₀' hy₀ hf').2
    cases he.symm.trans ((Graph.toFailure_of_host hx₀ hf).trans hmade)
    cases he'.symm.trans ((Graph.toFailure_of_host hy₀ hf').trans hmade')
    have habort : e₀'.isAbort = e₀.isAbort := by
      have hsignal := hname.same.eq_iff_of_plain (p := .text "AbortError") rfl
      simp only [ThrownError.isAbort, hsignal]
    refine ⟨_, _, ThrownError.failure?_build .., ThrownError.failure?_build .., ?_, fun hsaid => ?_⟩
    · dsimp only
      unfold ThrownError.hostKind
      rw [habort]
      split
      · exact .cancelled hempty
      · exact .application (hname.same.mono hle hle') hempty (Graph.same_of_plain rfl) rfl
    · obtain ⟨⟨m, hm⟩, hmessage⟩ := hsaid.message e₀ e₀' hx₀ hy₀
      rw [ThrownError.message_build, ThrownError.message_build, ThrownError.failureMessage,
        ThrownError.failureMessage, habort, hmessage, hm]
      refine ⟨?_, rfl⟩
      split
      · split <;> exact ⟨_, rfl⟩
      · exact ⟨_, rfl⟩
  | other hx₀ hy₀ =>
    rw [Graph.toFailure, hx₀] at he
    rw [Graph.toFailure, hy₀] at he'
    cases he
    cases he'
    refine ⟨_, _, rfl, rfl, .application (Graph.same_of_plain rfl) hempty (Graph.same_of_plain rfl) rfl, ?_⟩
    intro hsaid
    refine ⟨⟨_, rfl⟩, ?_⟩
    unfold Graph.failureOfOther
    rw [hsaid.text]

section
variable {f f' : FailureFields Document} {link link' : WireLink} (hf : e.failure? = some f)
  (hf' : e'.failure? = some f')
  (hkind : f.kind.Agrees (G.Same G') (fun v w => g.wireDelay v = g'.wireDelay w)
    (Graph.EncodedAlike o.codec g g' (G.Twins G' g.size g'.size)) f'.kind)
  (h : o.linkOf g e = .ok link) (h' : o.linkOf g' e' = .ok link') (hsource : o.source.id? = none)
include hf hf' hkind h h'

/-- The information about failures whose kinds agree is the same. -/
theorem twins_info_of_linkOf : G.Twins G' g.size g'.size link.info.document link'.info.document :=
  Graph.twins_toInfo hkind (toInfo_of_linkOf hf h) (toInfo_of_linkOf hf' h')

include hsource

/-- **Where attributes are encoded, the links for failures whose kinds agree are the same but for these.** -/
theorem twins_of_encodeCommonAttributes (hencode : o.encodeCommonAttributes = true) :
    link.Twins G G' g.size g'.size (fun _ _ => True) link' := by
  have hinfo := twins_info_of_linkOf hf hf' hkind h h'
  obtain ⟨info, -, hform⟩ := linkOf_eq_ok.1 h
  obtain ⟨info', -, hform'⟩ := linkOf_eq_ok.1 h'
  rw [if_pos hencode] at hform hform'
  obtain ⟨a, -, rfl⟩ := hform
  obtain ⟨a', -, rfl⟩ := hform'
  exact ⟨Graph.same_of_plain rfl, Graph.same_of_plain hsource, Graph.same_of_plain rfl, hinfo, .some trivial⟩

/-- **Where no stack trace is sent, the links for failures whose kinds agree and that have the same message are the
same.** -/
theorem twins_of_includeStackTrace (hc : o.codec.Uniform) (hl : o.codec.Lawful)
    (hplain : o.includeStackTrace = false) (htext : e.message.IsText) (hmessage : e'.message = e.message) :
    link.Twins G G' g.size g'.size (G.Twins G' g.size g'.size) link' := by
  have hinfo := twins_info_of_linkOf hf hf' hkind h h'
  have hstack {h : Graph} {e : ThrownError Document} : o.stackTraceOf h e = .text "" := by
    simp [stackTraceOf, hplain]
  obtain ⟨info, -, hform⟩ := linkOf_eq_ok.1 h
  obtain ⟨info', -, hform'⟩ := linkOf_eq_ok.1 h'
  rw [hstack] at hform hform'
  rw [hmessage] at hform'
  by_cases hencode : o.encodeCommonAttributes = true
  · rw [if_pos hencode] at hform hform'
    obtain ⟨a, ha, rfl⟩ := hform
    obtain ⟨a', ha', rfl⟩ := hform'
    exact ⟨Graph.same_of_plain rfl, Graph.same_of_plain hsource, Graph.same_of_plain rfl, hinfo,
      .some (Graph.twins_encodeAttributes hc hl htext ⟨_, rfl⟩ ha ha')⟩
  · rw [if_neg hencode] at hform hform'
    subst hform hform'
    obtain ⟨m, hm⟩ := htext
    exact ⟨Graph.same_of_plain (by rw [hm]; rfl), Graph.same_of_plain hsource, Graph.same_of_plain rfl, hinfo, .none⟩

end

end ConverterOptions

/-- **Words are not disclosed.** Two values are thrown whose links differ in words only: in messages, display
messages and stacks. No wire failure is reused, and all there is to encode can be encoded. Then both are sent.
Where messages and stack traces are encoded, the chains that are sent have the same fields link by link, with the
same values but for the encoded attributes. Where stack traces are not sent and the messages are the same, what is
sent is the same altogether. -/
theorem words_not_disclosed {o : ConverterOptions} {g g' : Graph} {v v' : Value}
    (hreuse : o.reuseStoredFailure = false) (hc : o.codec.Uniform) (hl : o.codec.Lawful)
    (hsource : o.source.id? = none)
    (h : ∀ x ∈ ConverterOptions.linksOrSelf (g.walk o.maxCauseDepth v) v, o.CanLink g x)
    (h' : ∀ x ∈ ConverterOptions.linksOrSelf (g'.walk o.maxCauseDepth v') v', o.CanLink g' x)
    (hdiffer : List.Forall₂ (g.DiffersInWords g') (ConverterOptions.linksOrSelf (g.walk o.maxCauseDepth v) v)
      (ConverterOptions.linksOrSelf (g'.walk o.maxCauseDepth v') v')) :
    ∃ G w G' w', (o.errorToFailure g v).outcome.1 = .ok (G, w) ∧ (o.errorToFailure g' v').outcome.1 = .ok (G', w') ∧
      (o.encodeCommonAttributes = true → ∃ ws ws', G.CauseChain w ws ∧ G'.CauseChain w' ws' ∧
        List.Forall₂ (G.SameBut G' ["cause", "encodedAttributes"]) ws ws') ∧
      (o.includeStackTrace = false →
        List.Forall₂ (g.SaysSame g') (ConverterOptions.linksOrSelf (g.walk o.maxCauseDepth v) v)
          (ConverterOptions.linksOrSelf (g'.walk o.maxCauseDepth v') v') → G.Same G' w w') := by
  obtain ⟨links, hlinks⟩ := exists_forall₂ fun x hx => (h x hx).exists_link
  obtain ⟨links', hlinks'⟩ := exists_forall₂ fun x hx => (h' x hx).exists_link
  have hne : links ≠ [] := ne_nil_of_forall₂ hlinks (ConverterOptions.linksOrSelf_ne_nil _ v)
  -- links are paired as the values are that they are made of
  have hpairs {S : Value → Value → Prop} {T : WireLink → WireLink → Prop}
      (hT : ∀ x y link link', o.CanLink g x → o.CanLink g' y → o.LinkFor g x link → o.LinkFor g' y link' →
        S x y → T link link')
      (hS : List.Forall₂ S (ConverterOptions.linksOrSelf (g.walk o.maxCauseDepth v) v)
        (ConverterOptions.linksOrSelf (g'.walk o.maxCauseDepth v') v')) : List.Forall₂ T links links' := by
    have hleft := (List.forall₂_and_left _ _).2 ⟨h, hlinks⟩
    have hright := (List.forall₂_and_left _ _).2 ⟨h', hlinks'⟩
    exact forall₂_square (fun x y _ _ hxy hx hy => hT x y _ _ hx.1 hy.1 hx.2 hy.2 hxy) hS hleft hright
  obtain ⟨G, w, hsent, hle, hshown⟩ := ConverterOptions.exists_sent_of_linkFor hreuse hlinks
  obtain ⟨G', w', hsent', hle', hshown'⟩ := ConverterOptions.exists_sent_of_linkFor hreuse hlinks'
  refine ⟨G, w, G', w', hsent, hsent', fun hencode => ?_, fun hplain hsaid => ?_⟩
  · refine Graph.sameBut_emitted (A := fun _ _ => True) hne (hpairs ?_ hdiffer) hshown hshown'
    rintro x y link link' hx hy ⟨e, he, hlink⟩ ⟨e', he', hlink'⟩ hxy
    obtain ⟨f, f', hf, hf', hkind, -⟩ :=
      ConverterOptions.agrees_of_differsInWords hc hle hle' hxy hx hy he he'
    exact ConverterOptions.twins_of_encodeCommonAttributes hf hf' hkind hlink hlink' hsource hencode
  · refine Graph.twins_emitted (hpairs ?_ (hdiffer.mp (fun _ _ => And.intro) hsaid)) w w' hshown hshown'
    rintro x y link link' hx hy ⟨e, he, hlink⟩ ⟨e', he', hlink'⟩ ⟨hxy, hsame⟩
    obtain ⟨f, f', hf, hf', hkind, hmessage⟩ :=
      ConverterOptions.agrees_of_differsInWords hc hle hle' hxy hx hy he he'
    exact ConverterOptions.twins_of_includeStackTrace hf hf' hkind hlink hlink' hsource hc hl hplain
      (hmessage hsame).1 (hmessage hsame).2

/-! ## A refused payment -/

/-- A failed payment with details, as object 1, and an error of the host around it, as object 2. Both say why, and
both say where. -/
def refusedPayment (reason trace : String) : Graph :=
  let payment : ThrownError Value :=
    .build (.application (.text "Payment") (.object 0) (.bool true) (.number (.ofInt 250))) (.text reason)
      (.text ("Payment: " ++ reason)) {}
  let order : ThrownError Value := .raise [] (.host false) (.text reason) (some (.object 1))
  ⟨[.list [.text "o-7"], .error { payment with stack := some (.text trace) },
    .error { order with stack := some (.text trace) }]⟩

/-- Options of a converter that encodes messages, sends no stack traces and reuses nothing. -/
def discreet : ConverterOptions :=
  { reuseStoredFailure := false, encodeCommonAttributes := true, includeStackTrace := false }

section
variable (reason trace reason' trace' : String)

theorem linksOrSelf_refusedPayment :
    ConverterOptions.linksOrSelf ((refusedPayment reason trace).walk discreet.maxCauseDepth (.object 2)) (.object 2) =
      [.object 2, .object 1] := by
  have hchain : (refusedPayment reason trace).CauseChain (.object 2) [.object 2, .object 1] :=
    .link rfl (.link rfl (.done rfl))
  exact ConverterOptions.linksOrSelf_walk_of_admits hchain (List.cons_ne_nil _ _) (show 2 ≤ 50 by decide)

theorem canLink_refusedPayment :
    ∀ x ∈ ConverterOptions.linksOrSelf ((refusedPayment reason trace).walk discreet.maxCauseDepth (.object 2))
      (.object 2), discreet.CanLink (refusedPayment reason trace) x := by
  rw [linksOrSelf_refusedPayment]
  have horder : discreet.CanLink (refusedPayment reason trace) (.object 2) := by
    refine ⟨?_, ?_, ?_, ?_⟩
    · rintro e ⟨⟩ -
      exact ⟨⟨_, rfl⟩, ⟨_, rfl⟩⟩
    · rintro e f ds ⟨⟩ ⟨⟩
    · rintro e f ms ⟨⟩ ⟨⟩
    · rintro - e ⟨⟩
      exact Codec.exists_encodeAttributes .plain _ ⟨_, rfl⟩ ⟨_, rfl⟩
  have hpayment : discreet.CanLink (refusedPayment reason trace) (.object 1) := by
    refine ⟨?_, ?_, ?_, ?_⟩
    · rintro e ⟨⟩ ⟨⟩
    · rintro e f ds ⟨⟩ ⟨⟩ ⟨⟩
      exact ⟨_, rfl⟩
    · rintro e f ms ⟨⟩ ⟨⟩ ⟨⟩
      exact ⟨_, rfl⟩
    · rintro - e ⟨⟩
      exact Codec.exists_encodeAttributes .plain _ ⟨_, rfl⟩ ⟨_, rfl⟩
  simpa using ⟨horder, hpayment⟩

theorem differsInWords_refusedPayment :
    List.Forall₂ ((refusedPayment reason trace).DiffersInWords (refusedPayment reason' trace'))
      [.object 2, .object 1] [.object 2, .object 1] := by
  have hdetails : (refusedPayment reason trace).Indistinct (refusedPayment reason' trace') (.object 0) (.object 0) :=
    Graph.indistinct_of_placed (d := .list [.text "o-7"]) ⟨trivial, trivial⟩ ⟨.empty, le_refl _, ⟨_, rfl⟩, rfl⟩
      ⟨.empty, le_refl _, ⟨_, rfl⟩, rfl⟩
  have hplain {v : Value} (hv : v.id? = none) :
      (refusedPayment reason trace).Indistinct (refusedPayment reason' trace') v v := Graph.indistinct_of_plain hv
  refine .cons (.host rfl rfl rfl rfl (hplain rfl)) (.cons (.failure rfl rfl rfl rfl ?_) .nil)
  exact .application (hplain rfl) hdetails (hplain rfl) ⟨hplain rfl, rfl⟩

end

/-- What is sent for two payments that were refused for different reasons differs in the encoded attributes only;
what is sent for two that were refused for one reason at different places is the same. -/
theorem words_not_disclosed_refusedPayment :
    (∃ G w G' w' ws ws',
      (discreet.errorToFailure (refusedPayment "card 4711 expired" "at charge") (.object 2)).outcome.1 = .ok (G, w) ∧
      (discreet.errorToFailure (refusedPayment "no funds" "at reserve") (.object 2)).outcome.1 = .ok (G', w') ∧
      G.CauseChain w ws ∧ G'.CauseChain w' ws' ∧
      List.Forall₂ (G.SameBut G' ["cause", "encodedAttributes"]) ws ws') ∧
    ∃ G w G' w',
      (discreet.errorToFailure (refusedPayment "no funds" "at charge") (.object 2)).outcome.1 = .ok (G, w) ∧
      (discreet.errorToFailure (refusedPayment "no funds" "at reserve") (.object 2)).outcome.1 = .ok (G', w') ∧
      G.Same G' w w' := by
  have hpair (reason reason' : String) := words_not_disclosed (o := discreet) (v := .object 2) rfl
    Codec.uniform_standard Codec.lawful_standard rfl (canLink_refusedPayment reason "at charge")
    (canLink_refusedPayment reason' "at reserve") (by
      rw [linksOrSelf_refusedPayment, linksOrSelf_refusedPayment]
      exact differsInWords_refusedPayment reason "at charge" reason' "at reserve")
  constructor
  · obtain ⟨G, w, G', w', hsent, hsent', hencoded, -⟩ := hpair "card 4711 expired" "no funds"
    obtain ⟨ws, ws', hws, hws', hall⟩ := hencoded rfl
    exact ⟨G, w, G', w', ws, ws', hsent, hsent', hws, hws', hall⟩
  · obtain ⟨G, w, G', w', hsent, hsent', -, hsame⟩ := hpair "no funds" "no funds"
    refine ⟨G, w, G', w', hsent, hsent', hsame rfl ?_⟩
    rw [linksOrSelf_refusedPayment, linksOrSelf_refusedPayment]
    refine .cons ⟨?_, rfl⟩ (.cons ⟨?_, rfl⟩ .nil)
    · rintro e e' ⟨⟩ ⟨⟩
      exact ⟨⟨_, rfl⟩, rfl⟩
    · rintro e e' ⟨⟩ ⟨⟩
      exact ⟨⟨_, rfl⟩, rfl⟩

end FailureWire
