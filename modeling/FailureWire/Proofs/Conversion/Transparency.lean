import FailureWire.Proofs.Conversion.Agreement
import FailureWire.Proofs.Conversion.Passage
import FailureWire.Proofs.Conversion.Written
import FailureWire.Proofs.Payload.Counterparts

/-!
# Attributes that arrive either way

Whether messages and stack traces are encoded is nothing that the other side can see in the errors that it makes.
One value is sent twice, once with its attributes in their own places and once with encoded ones, and a converter
with the same codec receives both. Then two chains of the same length come out, and their errors differ in the wire
failures that they keep and in nothing else (`encoded_attributes_invisible`).

Both links for a failure have the same information, which is shown in both graphs (`match_of_readAs`), and its message
and its stack trace arrive by either way. So the errors of both links arrive alike (`exists_arrivals_alike`), and both
chains are cut at the same place.
-/

namespace FailureWire

/-! ## Kinds that agree -/

/-- Details are lists of counterparts. -/
inductive Document.Counterparts (g G G' : Graph) : Document → Document → Prop
  | list {ds ds' : List Document} : List.Forall₂ (Counterpart g G G') ds ds' →
    Counterparts g G G' (.list (alignFrom 1 ds)) (.list (alignFrom 1 ds'))

/-- Two kinds that were received agree: they are the same but for details, which are counterparts. -/
abbrev FailureKind.ArrivesAs (g G G' : Graph) : FailureKind Document → FailureKind Document → Prop :=
  Agrees Eq Eq (Document.Counterparts g G G')

/-- Two graphs show the same document, one of which `P` is true. -/
def Document.ShownBoth (P : Document → Prop) (S S' : Document → Value → Prop) (w w' : Value) : Prop :=
  ∃ d, P d ∧ S d w ∧ S' d w'

theorem Document.rel_shownBoth {P : Document → Prop} {S S' : Document → Value → Prop} {d : Option Document}
    {w w' : Option Value} (hd : ∀ x, d = some x → P x) (h : Option.Rel S d w) (h' : Option.Rel S' d w') :
    Option.Rel (ShownBoth P S S') w w' := by
  cases h with
  | none =>
    cases h'
    exact .none
  | some hw =>
    cases h' with
    | some hw' => exact .some ⟨_, hd _ rfl, hw, hw'⟩

/-- **Information that is shown in two graphs is of one kind.** -/
theorem match_of_readAs {P : Document → Prop} {S S' : Document → Value → Prop} {info : FailureInfo Document}
    {read read' : FailureInfo Value} (hmade : info.Made P) (hplain : info.PlainType) (h : info.ReadAs S read)
    (h' : info.ReadAs S' read') :
    read.Match (Document.ShownBoth P S S')
      (Document.ShownBoth (fun d => ∃ t : WireDuration, d = t.document) S S') read' := by
  cases hmade with
  | application type nonRetryable delay hd =>
    have hdelay : ∀ x, delay.map WireDuration.document = some x → ∃ t : WireDuration, x = t.document := by
      intro x hx
      obtain ⟨t, -, rfl⟩ := Option.map_eq_some_iff.1 hx
      exact ⟨t, rfl⟩
    cases h with
    | application _ _ hdetails hduration =>
      cases h' with
      | application _ _ hdetails' hduration' =>
        exact .application _ hplain (Document.rel_shownBoth hd hdetails hdetails')
          (Document.rel_shownBoth hdelay hduration hduration')
  | timeout _ hd =>
    cases h with
    | timeout _ hdetails =>
      cases h' with
      | timeout _ hdetails' => exact .timeout _ (Document.rel_shownBoth hd hdetails hdetails')
  | canceled hd =>
    cases h with
    | canceled hdetails =>
      cases h' with
      | canceled hdetails' => exact .canceled (Document.rel_shownBoth hd hdetails hdetails')
  | terminated hd =>
    cases h with
    | terminated hdetails =>
      cases h' with
      | terminated hdetails' => exact .terminated (Document.rel_shownBoth hd hdetails hdetails')
  | unmapped | server | activity | childWorkflow =>
    cases h
    cases h'
    constructor

/-- Details that are conveyed are decoded to counterparts, and delays are the same. -/
theorem Codec.Lawful.decodesBoth {c : Codec} {g G G' : Graph} {first first' : ObjectId}
    {read read' : FailureInfo Value} (hl : c.Lawful) (hle : g ≤ G) (hle' : g ≤ G') :
    c.DecodesBoth G G' (Document.Counterparts g G G') read read'
      (Document.ShownBoth (c.Conveyed g) (G.Shows first) (G'.Shows first'))
      (Document.ShownBoth (fun d => ∃ t : WireDuration, d = t.document) (G.Shows first) (G'.Shows first')) where
  nothing := .list .nil
  details h := by
    generalize read.details? = w at h ⊢
    generalize read'.details? = w' at h ⊢
    cases h with
    | none => exact ⟨[], [], rfl, rfl, .list .nil⟩
    | some h =>
      obtain ⟨d, hd, hw, hw'⟩ := h
      obtain ⟨ds, ds', hds, hds', hcounterparts⟩ := exists_counterparts hl hle hle'
        (by rintro _ ⟨⟩; exact hd) (.some hw) (.some hw')
      exact ⟨_, _, hds, hds', .list hcounterparts⟩
  delay h := by
    cases h with
    | none => exact ⟨_, rfl, rfl⟩
    | some h =>
      obtain ⟨_, ⟨t, rfl⟩, hw, hw'⟩ := h
      exact ⟨_, (G.reading_shows first).delayOf_of_duration (d := some t) (.some hw),
        (G'.reading_shows first').delayOf_of_duration (d := some t) (.some hw')⟩

/-! ## Links -/

/-- Two errors that were received differ in the wire failures that they keep, and in details that are counterparts. -/
def ThrownError.ArrivesAs (g G G' : Graph) (e e' : ThrownError Document) : Prop :=
  ∃ kind kind' message display stackTrace frames stored stored', kind.ArrivesAs g G G' kind' ∧
    e = .build kind message display { stored, stackTrace, frames } ∧
    e' = .build kind' message display { stored := stored', stackTrace, frames }

namespace ConverterOptions

variable {o r : ConverterOptions} {g G G' : Graph} {first first' : ObjectId} {v x : Value}

/-- **The errors of two links with the same information arrive alike**, if their attributes do. -/
theorem exists_arrivals_alike (hl : r.codec.Lawful) (hle : g ≤ G) (hle' : g ≤ G') {info : FailureInfo Document}
    (hmade : info.Made (r.codec.Conveyed g)) (hplain : info.PlainType) {w w' message trace : Value}
    (hw : G.Shows first info.document (G.read w "failureInfo"))
    (hw' : G'.Shows first' info.document (G'.read w' "failureInfo"))
    (ha : (r.attributesOf G w).Gives ⟨message, trace⟩) (ha' : (r.attributesOf G' w').Gives ⟨message, trace⟩)
    (hmessage : message.IsText) :
    ∃ a a', (r.errorOf G w).Gives a ∧ (r.errorOf G' w').Gives a' ∧ a.1.ArrivesAs g G G' a'.1 ∧ a.2 = a'.2 := by
  have hrecord : ∀ d, r.codec.Conveyed g d → ∃ fields, d = .record fields := by
    rintro d ⟨⟨v, hv⟩, -⟩
    obtain ⟨ps, rfl, -⟩ := Codec.payloads_of_encodeDetails hv
    exact ⟨_, rfl⟩
  obtain ⟨read, hread, hreadAs⟩ := (G.reading_shows first).exists_infoAt_of_made hmade hrecord hw
  obtain ⟨read', hread', hreadAs'⟩ := (G'.reading_shows first').exists_infoAt_of_made hmade hrecord hw'
  exact exists_errors_of_match hread hread' (match_of_readAs hmade hplain hreadAs hreadAs') (hl.decodesBoth hle hle')
    ha ha' hmessage

end ConverterOptions

/-! ## Failures that can be conveyed -/

theorem Codec.conveys_of_restores {c : Codec} {g : Graph} {details : Value} (hdetails : g.Listed (.existing details))
    (h : ∀ x ∈ g.itemsOf (.existing details), c.Restores g x) : c.Conveys g details := by
  obtain ⟨payloads, hpayloads, hrestored⟩ := exists_of_restores h
  refine ⟨_, encodeDetails_of_listed hdetails hpayloads, fun d hd g' first w hle hw => ?_⟩
  have hshown : Option.Rel (g'.Shows first) (payloadsField payloads) (some w) := hd ▸ .some hw
  obtain ⟨ds, hds, -⟩ := decodeDetails_of_reading (g'.reading_shows first)
    (hrestored.imp fun _ _ hp w hw => hp g' first w hle hw) hshown
  exact ⟨_, hds⟩

/-- A kind can be sent and read again: its type is no object, its details can be encoded and decoded, and its delay
stands for a number. -/
structure FailureKind.Conveys (c : Codec) (g : Graph) (k : FailureKind Document) : Prop where
  type : ∀ type ds b ms, k = .application type ds b ms → type.id? = none
  details : ∀ ds, k.details? = some ds → ds = .list [] ∨ ∃ v, ds = .existing v ∧ c.Conveys g v
  delay : ∀ ms, k.nextRetryDelay? = some ms → ∃ d, g.wireDelay ms = .ok d

/-- **There is information about a kind that can be conveyed**, whose details can be decoded. -/
theorem FailureKind.Conveys.exists_info {c : Codec} {g : Graph} {k : FailureKind Document} (h : k.Conveys c g) :
    ∃ info, k.toInfo c g = .ok info ∧ info.Made (c.Conveyed g) ∧ info.PlainType := by
  have hdetails : ∀ ds, k.details? = some ds →
      ∃ r, c.encodeDetails g ds = .ok r ∧ ∀ d, r = some d → c.Conveyed g d := by
    intro ds hds
    rcases h.details ds hds with rfl | ⟨v, rfl, r, hr, hdecodes⟩
    · refine ⟨_, Codec.encodeDetails_of_listed .empty .nil, ?_⟩
      rintro d ⟨⟩
    · refine ⟨r, hr, ?_⟩
      rintro d rfl
      exact ⟨⟨v, hr⟩, hdecodes d rfl⟩
  cases k with
  | application type ds b ms =>
    obtain ⟨r, hr, hd⟩ := hdetails ds rfl
    obtain ⟨delay, hdelay⟩ := h.delay ms rfl
    obtain ⟨t, rfl⟩ := Graph.exists_duration_of_wireDelay hdelay
    refine ⟨_, Except.bind_eq_ok.2 ⟨r, hr, Except.bind_eq_ok.2 ⟨_, hdelay, rfl⟩⟩, .application _ _ t hd, ?_⟩
    show (type.orElse (.text "")).id? = none
    unfold Value.orElse
    split
    · rfl
    · exact h.type _ _ _ _ rfl
  | cancelled ds =>
    obtain ⟨r, hr, hd⟩ := hdetails ds rfl
    exact ⟨_, Except.bind_eq_ok.2 ⟨r, hr, rfl⟩, .canceled hd, trivial⟩
  | terminated ds =>
    obtain ⟨r, hr, hd⟩ := hdetails ds rfl
    exact ⟨_, Except.bind_eq_ok.2 ⟨r, hr, rfl⟩, .terminated hd, trivial⟩
  | timeout type ds =>
    obtain ⟨r, hr, hd⟩ := hdetails ds rfl
    exact ⟨_, Except.bind_eq_ok.2 ⟨r, hr, rfl⟩, .timeout _ hd, trivial⟩
  | server => exact ⟨_, rfl, .server _, trivial⟩
  | activity => exact ⟨_, rfl, .activity .., trivial⟩
  | childWorkflow => exact ⟨_, rfl, .childWorkflow .., trivial⟩
  | generic | alreadyStarted => exact ⟨_, rfl, .unmapped, trivial⟩

/-- An application failure without details and without a delay can be conveyed, if its type is no object. -/
theorem FailureKind.conveys_application {c : Codec} {g : Graph} {type nonRetryable : Value} (htype : type.id? = none) :
    (application type (.list []) nonRetryable .undefined).Conveys c g := by
  refine ⟨?_, ?_, ?_⟩
  · rintro _ _ _ _ ⟨⟩
    exact htype
  · rintro ds ⟨⟩
    exact .inl rfl
  · rintro ms ⟨⟩
    exact ⟨none, rfl⟩

theorem FailureKind.conveys_existing {c : Codec} {g : Graph} {k : FailureKind Value}
    (htype : ∀ type ds b ms, k = .application type ds b ms → type.id? = none)
    (hdetails : ∀ ds, k.details? = some ds → c.Conveys g ds)
    (hdelay : ∀ ms, k.nextRetryDelay? = some ms → ∃ d, g.wireDelay ms = .ok d) :
    (k.map Document.existing).Conveys c g := by
  refine ⟨?_, ?_, ?_⟩
  · intro type ds b ms hk
    cases k <;> cases hk
    exact htype _ _ _ _ rfl
  · intro ds hds
    rw [details?_map] at hds
    obtain ⟨v, hv, rfl⟩ := Option.map_eq_some_iff.1 hds
    exact .inr ⟨v, rfl, hdetails v hv⟩
  · intro ms hms
    rw [nextRetryDelay?_map] at hms
    exact hdelay ms hms

/-- An error that is none of the taxonomy stands for a kind that can be conveyed. -/
theorem ThrownError.conveys_hostKind {c : Codec} {g : Graph} {e : ThrownError Value} (hname : e.name.IsText) :
    e.hostKind.Conveys c g := by
  unfold hostKind
  split
  · refine ⟨?_, ?_, ?_⟩
    · rintro _ _ _ _ ⟨⟩
    · rintro ds ⟨⟩
      exact .inl rfl
    · rintro ms ⟨⟩
  · exact FailureKind.conveys_application hname.optional.id?_eq_none

namespace ConverterOptions

variable {o r : ConverterOptions} {g G G' : Graph} {v x : Value} {e : ThrownError Document}

/-- A failure can be sent and received: it keeps no wire failure that would be reused, there is information about it
whose details can be decoded, and the codec restores its message and its stack trace. -/
structure Conveys (o : ConverterOptions) (g : Graph) (e : ThrownError Document) : Prop where
  unstored : o.storedOf e = none
  info : ∃ f info, e.failure? = some f ∧ f.kind.toInfo o.codec g = .ok info ∧ info.Made (o.codec.Conveyed g) ∧
    info.PlainType
  words : ∃ message trace, e.message = .text message ∧ o.stackTraceOf g e = .text trace ∧
    o.codec.RestoresAttributes g message trace

/-- A thrown value can be sent and received. If it is an error, its name, its message and its stacks are texts, and
if it is a failure, it keeps no wire failure that would be reused, a type that it has is no object, and its details
can be encoded and decoded. Whatever it is, the codec decodes the message and the stack trace that are sent for it
from what it encodes them to. -/
structure CanConvey (o : ConverterOptions) (g : Graph) (x : Value) : Prop where
  worded : ∀ e, g.errorOf? x = some e → e.name.IsText ∧ e.Worded
  unstored : ∀ e, g.errorOf? x = some e → o.storedOf e = none
  type : ∀ e f type ds b ms, g.errorOf? x = some e → e.failure? = some f → f.kind = .application type ds b ms →
    type.id? = none
  details : ∀ e f ds, g.errorOf? x = some e → e.failure? = some f → f.kind.details? = some ds →
    o.codec.Conveys g ds
  delay : ∀ e f ms, g.errorOf? x = some e → e.failure? = some f → f.kind.nextRetryDelay? = some ms →
    ∃ d, g.wireDelay ms = .ok d
  attributes : ∀ e message stackTrace, g.toFailure o.frames x = .ok e → e.message = .text message →
    o.stackTraceOf g e = .text stackTrace → o.codec.RestoresAttributes g message stackTrace

theorem CanConvey.conveys {f : FailureFields Document} (h : o.CanConvey g x) (hmade : g.toFailure o.frames x = .ok e)
    (hf : e.failure? = some f) (hstored : o.storedOf e = none) (hkind : f.kind.Conveys o.codec g)
    (hworded : e.Worded) : o.Conveys g e := by
  obtain ⟨info, hinfo, hdecodes, hplain⟩ := hkind.exists_info
  obtain ⟨message, hmessage⟩ := hworded.message
  obtain ⟨trace, htrace⟩ := stackTraceOf_isText (o := o) hworded
  exact ⟨hstored, ⟨f, info, hf, hinfo, hdecodes, hplain⟩, message, trace, hmessage, htrace,
    h.attributes e message trace hmade hmessage htrace⟩

/-- **What can be conveyed stands for a failure that can be.** -/
theorem CanConvey.exists_conveyed (h : o.CanConvey g x) : ∃ e, g.toFailure o.frames x = .ok e ∧ o.Conveys g e := by
  cases he : g.errorOf? x with
  | none =>
    have hmade : g.toFailure o.frames x = .ok (Graph.failureOfOther o.frames x) := by rw [Graph.toFailure, he]
    exact ⟨_, hmade, h.conveys hmade rfl (storedOf_of_undefined rfl rfl) (FailureKind.conveys_application rfl)
      (ThrownError.worded_build ⟨_, rfl⟩ (.inl rfl))⟩
  | some e =>
    obtain ⟨hname, hworded⟩ := h.worded e he
    cases hf : e.failure? with
    | none =>
      have hnone : ∀ f, (e.map Document.existing).failure? ≠ some f := by
        intro f hf'
        rw [ThrownError.failure?_map, hf] at hf'
        cases hf'
      have htyped : (e.map Document.existing).Typed g :=
        ⟨hname, hworded.message, hworded.stack, fun f hf' => absurd hf' (hnone f), fun f hf' => absurd hf' (hnone f)⟩
      obtain ⟨e', hmade, htyped', f, hf', hstored, hkind⟩ := Graph.failureOfError_of_typed htyped
      have hmade := (Graph.toFailure_of_host he hf).trans hmade
      exact ⟨e', hmade, h.conveys hmade hf' (storedOf_of_undefined hf' hstored)
        (hkind ▸ ThrownError.conveys_hostKind hname) htyped'.worded⟩
    | some f =>
      have hmade : g.toFailure o.frames x = .ok (e.map .existing) := Graph.toFailure_of_failure he (by rw [hf]; rfl)
      have hf' : (e.map Document.existing).failure? =
          some ⟨f.displayMessage, f.stored, f.stackTrace, f.kind.map .existing⟩ := by
        rw [ThrownError.failure?_map, hf]
        rfl
      have hstored : o.storedOf (e.map Document.existing) = none := (storedOf_map _ e).trans (h.unstored e he)
      refine ⟨_, hmade, h.conveys hmade hf' hstored ?_ (hworded.map _)⟩
      exact FailureKind.conveys_existing (fun _ _ _ _ hk => h.type e f _ _ _ _ he hf hk)
        (fun ds hds => h.details e f ds he hf hds) (fun ms hms => h.delay e f ms he hf hms)

/-! ## Chains -/

abbrev encoding (o : ConverterOptions) (b : Bool) : ConverterOptions := { o with encodeCommonAttributes := b }

def ShowsLinkFor (o : ConverterOptions) (g G : Graph) (e : ThrownError Document) (x : Value) : Prop :=
  ∃ link cause, o.linkOf g e = .ok link ∧ G.ShowsLink g.size link cause x

/-- **Failures that can be conveyed are sent**, with their attributes encoded or not. -/
theorem exists_sent_of_conveys (b : Bool) {errors : List (ThrownError Document)}
    (hmade : (linksOrSelf (g.walk o.maxCauseDepth v) v).mapM (g.toFailure o.frames) = .ok errors) (hne : errors ≠ [])
    (h : ∀ e ∈ errors, o.Conveys g e) :
    ∃ G w ws, ((o.encoding b).errorToFailure g v).outcome.1 = .ok (G, w) ∧ g ≤ G ∧ G.CauseChain w ws ∧
      List.Forall₂ ((o.encoding b).ShowsLinkFor g G) errors ws := by
  obtain ⟨links, hlinks⟩ : ∃ links, List.Forall₂ (fun e link => (o.encoding b).linkOf g e = .ok link) errors links :=
    exists_forall₂ fun e he => by
      obtain ⟨-, ⟨f, info, hf, hinfo, -⟩, message, trace, hmessage, htrace, a, ha, -⟩ := h e he
      have hknown : (o.encoding b).infoOf g e = .ok info := by
        rw [infoOf, hf]
        exact hinfo
      refine exists_linkOf_of_infoOf hknown fun _ => ⟨a, ?_⟩
      rw [hmessage, show (o.encoding b).stackTraceOf g e = .text trace from htrace]
      exact ha
  obtain ⟨G, w, ws, hsent, hle, hchain, -, hshown⟩ := errorToFailure_of_links (o := o.encoding b) hmade hne
    (fun e he => (h e he).unstored) hlinks
  refine ⟨G, w, ws, hsent, hle, hchain, forall₂_comp ?_ hlinks hshown⟩
  rintro e link x hlink ⟨cause, hx⟩
  exact ⟨link, cause, hlink, hx⟩

/-- **The error of both links for a failure arrives alike.** -/
theorem exists_arrivals_of_showsLinkFor {b b' : Bool} {w w' : Value} (hcodec : r.codec = o.codec)
    (hl : o.codec.Lawful) (hle : g ≤ G) (hle' : g ≤ G') (he : o.Conveys g e)
    (hw : (o.encoding b).ShowsLinkFor g G e w) (hw' : (o.encoding b').ShowsLinkFor g G' e w') :
    ∃ a a', (r.errorOf G w).Gives a ∧ (r.errorOf G' w').Gives a' ∧ a.1.ArrivesAs g G G' a'.1 ∧ a.2 = a'.2 := by
  obtain ⟨link, cause, hlink, hw⟩ := hw
  obtain ⟨link', cause', hlink', hw'⟩ := hw'
  obtain ⟨-, ⟨f, info, hf, hinfo, hmade, hplain⟩, message, trace, hmessage, htrace, hrestores⟩ := he
  have hshown := hw.info
  have hshown' := hw'.info
  rw [Except.ok.inj ((toInfo_of_linkOf hf hlink).symm.trans hinfo)] at hshown
  rw [Except.ok.inj ((toInfo_of_linkOf hf hlink').symm.trans hinfo)] at hshown'
  have ha := attributesOf_of_linkOf (r := r) (o := o.encoding b) hcodec hmessage htrace
    (fun _ => hrestores) hlink hle hw
  have ha' := attributesOf_of_linkOf (r := r) (o := o.encoding b') hcodec hmessage htrace (fun _ => hrestores) hlink'
    hle' hw'
  rw [← hcodec] at hl hmade
  exact exists_arrivals_alike hl hle hle' hmade hplain hshown hshown' ha ha' ⟨message, rfl⟩

end ConverterOptions

/-! ## Errors that differ in what they keep -/

namespace Graph

variable {g G G' H H' : Graph}

/-- Values of two graphs that have grown from one are failures that differ in nothing but the wire failures that they
keep and their causes. The items of their details are objects of that graph, or the same. -/
def SameButStored (g H H' : Graph) (v w : Value) : Prop :=
  ∃ e f e' f', H.errorOf? v = some e ∧ e.failure? = some f ∧ H'.errorOf? w = some e' ∧ e'.failure? = some f' ∧
    e.SameButStored (g.ListsFrom H H') e' f f'

theorem listsFrom_of_counterparts {d d' : Document} {x y : Value} (h : Document.Counterparts g G G' d d')
    (hx : G.Placed H d x) (hy : G'.Placed H' d' y) : g.ListsFrom H H' x y := by
  obtain ⟨hcounterparts⟩ := h
  exact listsFrom_of_placed hcounterparts hx hy

end Graph

namespace ConverterOptions

/-- **What arrives alike is received as chains that differ in what they keep.** -/
theorem exists_received_of_arrivals {r : ConverterOptions} {g G G' : Graph} {w w' : Value} {ws ws' : List Value}
    (hw : G.CauseChain w ws) (hw' : G'.CauseChain w' ws') (hne : ws ≠ []) (hobjects : ∀ x ∈ ws, x.id?.isSome)
    (hobjects' : ∀ x ∈ ws', x.id?.isSome)
    (h : List.Forall₂ (fun x y => ∃ a a', (r.errorOf G x).Gives a ∧ (r.errorOf G' y).Gives a' ∧
      a.1.ArrivesAs g G G' a'.1 ∧ a.2 = a'.2) ws ws') :
    ∃ H v H' v' vs vs', (r.failureToError G w).outcome.1 = .ok (H, v) ∧
      (r.failureToError G' w').outcome.1 = .ok (H', v') ∧ H.CauseChain v vs ∧ H'.CauseChain v' vs' ∧ vs ≠ [] ∧
        List.Forall₂ (g.SameButStored H H') vs vs' :=
  exists_received_of_agrees (L := fun H H' => g.ListsFrom H H')
    (fun _ _ _ _ _ _ => Graph.listsFrom_of_counterparts) hw hw' hne (ne_nil_of_forall₂ h hne) hobjects hobjects'
    (Graph.related_take_linksIn h hw hw' rfl rfl r.maxCauseDepth)

end ConverterOptions

/-- **Encoded attributes are invisible to the receiver.** Let a thrown value and everything met along its causes be
such as can be sent and received. Then it is sent with its attributes encoded as well as without, and a converter
with the same codec receives both. The two chains of errors have the same length, and link by link the errors differ
in nothing but the wire failures that they keep. -/
theorem encoded_attributes_invisible {o r : ConverterOptions} {g : Graph} {v : Value} (hcodec : r.codec = o.codec)
    (hl : o.codec.Lawful)
    (h : ∀ x ∈ ConverterOptions.linksOrSelf (g.walk o.maxCauseDepth v) v, o.CanConvey g x) :
    ∃ G w G' w' H e H' e' es es',
      ((o.encoding false).errorToFailure g v).outcome.1 = .ok (G, w) ∧
      ((o.encoding true).errorToFailure g v).outcome.1 = .ok (G', w') ∧
      (r.failureToError G w).outcome.1 = .ok (H, e) ∧ (r.failureToError G' w').outcome.1 = .ok (H', e') ∧
      H.CauseChain e es ∧ H'.CauseChain e' es' ∧ es ≠ [] ∧ List.Forall₂ (g.SameButStored H H') es es' := by
  obtain ⟨errors, hmade⟩ := exists_forall₂ fun x hx => (h x hx).exists_conveyed
  have hne := ne_nil_of_forall₂ hmade (ConverterOptions.linksOrSelf_ne_nil _ v)
  have hfailures := FailureWire.Except.mapM_eq_ok.2 (hmade.imp fun _ _ hx => hx.1)
  have hconveys : ∀ e ∈ errors, o.Conveys g e := by
    intro e he
    obtain ⟨x, -, -, hx⟩ := exists_of_forall₂ hmade he
    exact hx
  obtain ⟨G, w, ws, hsent, hle, hw, hshown⟩ := ConverterOptions.exists_sent_of_conveys false hfailures hne hconveys
  obtain ⟨G', w', ws', hsent', hle', hw', hshown'⟩ :=
    ConverterOptions.exists_sent_of_conveys true hfailures hne hconveys
  have hobjects {b : Bool} {G : Graph} {ws : List Value}
      (hshown : List.Forall₂ ((o.encoding b).ShowsLinkFor g G) errors ws) : ∀ x ∈ ws, x.id?.isSome := by
    intro x hx
    obtain ⟨e, -, link, cause, -, hx⟩ := exists_of_forall₂ hshown hx
    obtain ⟨id, rfl⟩ := hx.isObject
    rfl
  have halike : List.Forall₂ (fun x y => ∃ a a', (r.errorOf G x).Gives a ∧ (r.errorOf G' y).Gives a' ∧
      a.1.ArrivesAs g G G' a'.1 ∧ a.2 = a'.2) ws ws' := by
    refine forall₂_comp (fun x e y hx hy => ?_) ((List.forall₂_and_left _ _).2 ⟨hconveys, hshown⟩).flip hshown'
    exact ConverterOptions.exists_arrivals_of_showsLinkFor hcodec hl hle hle' hx.1 hx.2 hy
  obtain ⟨H, e, H', e', es, es', hreceived, hreceived', hes, hes', hsome, hsame⟩ :=
    ConverterOptions.exists_received_of_arrivals hw hw' (ne_nil_of_forall₂ hshown hne) (hobjects hshown)
      (hobjects hshown') halike
  exact ⟨G, w, G', w', H, e, H', e', es, es', hsent, hsent', hreceived, hreceived', hes, hes', hsome, hsame⟩

/-- An application failure with details, as object 1, whose message is the one that stands in the place of an encoded
message, and an error of the host around it, as object 2, that has neither a message nor a stack. -/
def mutedDelivery : Graph :=
  let delivery : ThrownError Value :=
    .build (.application (.text "Address") (.object 0) (.bool false) (.number (.ofInt 250))) (.text encodedMessage)
      (.text ("Address: " ++ encodedMessage)) { stackTrace := .text "at deliver" }
  let order : ThrownError Value := .raise [] (.host false) (.text "") (some (.object 1))
  ⟨[.list [.text "o-9"], .error delivery, .error { order with stack := some (.text "") }]⟩

/-- Messages and stacks that are empty, and messages that look as if they were encoded, arrive either way. -/
theorem encoded_attributes_invisible_mutedDelivery :
    ∃ G w G' w' H e H' e' es es',
      (({} : ConverterOptions).errorToFailure mutedDelivery (.object 2)).outcome.1 = .ok (G, w) ∧
      (({ encodeCommonAttributes := true } : ConverterOptions).errorToFailure mutedDelivery (.object 2)).outcome.1 =
        .ok (G', w') ∧
      (({} : ConverterOptions).failureToError G w).outcome.1 = .ok (H, e) ∧
      (({} : ConverterOptions).failureToError G' w').outcome.1 = .ok (H', e') ∧
      H.CauseChain e es ∧ H'.CauseChain e' es' ∧ es ≠ [] ∧
        List.Forall₂ (mutedDelivery.SameButStored H H') es es' := by
  have hchain : mutedDelivery.CauseChain (.object 2) [.object 2, .object 1] := .link rfl (.link rfl (.done rfl))
  have hlinks := ConverterOptions.linksOrSelf_walk_of_admits (d := ({} : ConverterOptions).maxCauseDepth) hchain
    (List.cons_ne_nil _ _) (show 2 ≤ 50 by decide)
  have horder : ({} : ConverterOptions).CanConvey mutedDelivery (.object 2) := by
    refine ⟨?_, ?_, ?_, ?_, ?_, ?_⟩
    · rintro e ⟨⟩
      refine ⟨⟨_, rfl⟩, ⟨_, rfl⟩, ?_, ?_⟩
      · rintro s ⟨⟩
        exact .inr ⟨_, rfl⟩
      · rintro f ⟨⟩
    · rintro e ⟨⟩
      rfl
    · rintro e f type ds b ms ⟨⟩ ⟨⟩
    · rintro e f ds ⟨⟩ ⟨⟩
    · rintro e f ms ⟨⟩ ⟨⟩
    · rintro e message trace ⟨⟩ ⟨⟩ ⟨⟩
      exact Codec.restoresAttributes_of_decode rfl rfl (by decide +kernel)
  have hdelivery : ({} : ConverterOptions).CanConvey mutedDelivery (.object 1) := by
    refine ⟨?_, ?_, ?_, ?_, ?_, ?_⟩
    · rintro e ⟨⟩
      refine ⟨⟨_, rfl⟩, ⟨_, rfl⟩, ?_, ?_⟩
      · rintro s ⟨⟩
        exact .inr ⟨_, rfl⟩
      · rintro f ⟨⟩
        exact .inr ⟨_, rfl⟩
    · rintro e ⟨⟩
      rfl
    · rintro e f type ds b ms ⟨⟩ ⟨⟩ ⟨⟩
      rfl
    · rintro e f ds ⟨⟩ ⟨⟩ ⟨⟩
      refine Codec.conveys_of_restores (.existing rfl) fun x hx => ?_
      obtain rfl : x = .text "o-9" := List.mem_singleton.1 hx
      exact Codec.restores_text rfl rfl (by decide +kernel)
    · rintro e f ms ⟨⟩ ⟨⟩ ⟨⟩
      exact ⟨_, rfl⟩
    · rintro e message trace ⟨⟩ ⟨⟩ ⟨⟩
      exact Codec.restoresAttributes_of_decode rfl rfl (by decide +kernel)
  refine encoded_attributes_invisible (o := {}) (r := {}) rfl Codec.lawful_standard ?_
  rw [hlinks]
  simpa using ⟨horder, hdelivery⟩

end FailureWire
