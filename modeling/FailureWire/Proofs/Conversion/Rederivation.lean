import FailureWire.Proofs.Conversion.Passage
import FailureWire.Proofs.Conversion.Regular
import FailureWire.Proofs.Payload.Returning
import FailureWire.Proofs.Wire.Likeness

/-!
# Deriving wire failures again

A chain of regular wire failures is decoded (`failureToError`), and the errors that come of it are encoded
(`errorToFailure`) by the same converter, which does not reuse the failures that the errors keep. Every link comes out
as it went in, up to its payloads (`rederived`).
-/

namespace FailureWire

/-! ## Payloads of links -/

theorem FailureInfo.ReadAs.details {S : Document → Value → Prop} {info : FailureInfo Document}
    {read : FailureInfo Value} (h : info.ReadAs S read) : Option.Rel S info.details? read.details? := by
  cases h with
  | application _ _ hd _ | timeout _ hd | canceled hd | terminated hd => exact hd
  | unmapped | server | activity | childWorkflow => exact .none

theorem FailureKind.details_info {k : FailureKind Document} {payloads : List Document}
    (h : k.details? = none → payloads = []) : (k.info payloads).details? = payloadsField payloads := by
  cases k with
  | application | timeout | cancelled | terminated => rfl
  | generic | server | activity | childWorkflow | alreadyStarted =>
    rw [h rfl]
    rfl

/-- **The payloads of a link are those that it was written with.** -/
theorem Graph.Reading.payloads {g : Graph} {S : Document → Value → Prop} (hS : g.Reading S)
    {k : FailureKind Document} {payloads : List Document} {v : Value}
    (hnone : k.details? = none → payloads = [])
    (h : S (k.info payloads).document (g.read v "failureInfo")) :
    List.Forall₂ S payloads (g.payloadsAt v) := by
  obtain ⟨info, hinfo, hread⟩ := hS.exists_infoAt h
  have hdetails := hread.details
  rw [FailureKind.details_info hnone] at hdetails
  rw [Graph.payloadsAt, hinfo]
  dsimp only
  generalize info.details? = details at hdetails ⊢
  cases payloads with
  | nil =>
    cases hdetails
    exact .nil
  | cons p rest =>
    cases hdetails with
    | @some _ d hd =>
      obtain ⟨values, hvalues, hitems⟩ := hS.items (hS.read hd "payloads" rfl)
      simpa [Graph.listOf?, hvalues, Node.items?] using hitems

namespace ConverterOptions

variable {o : ConverterOptions} {g g₁ : Graph} {S : Document → Value → Prop} {T : Graph → Value → Value → Prop}
  {W : Document → Value → Prop} {link : WireLink} {cause : Option Document} {w v : Value}

/-! ## Links that can be derived again -/

/-- A link says a message and a stack trace: in their places or, where they are to be encoded, in the payload
that they are encoded as. Where no stack traces are sent it is empty. -/
structure Says (o : ConverterOptions) (link : WireLink) (message stackTrace : String) : Prop where
  untraced : o.includeStackTrace = false → stackTrace = ""
  plain : o.encodeCommonAttributes = false →
    link.message = .text message ∧ link.stackTrace = .text stackTrace ∧ link.encodedAttributes = none
  encoded : o.encodeCommonAttributes = true →
    link.message = .text encodedMessage ∧ link.stackTrace = .text "" ∧ ∃ a, link.encodedAttributes = some a ∧
      ∀ g, o.codec.encodeAttributes g (.text message) (.text stackTrace) = .ok a

theorem Says.sent {message stackTrace : String} (h : o.Says link message stackTrace) :
    (if o.includeStackTrace then stackTrace else "") = stackTrace := by
  by_cases ho : o.includeStackTrace = true
  · rw [if_pos ho]
  · rw [if_neg ho, h.untraced (Bool.eq_false_iff.2 ho)]

/-- What a link says in a payload is made of what wire failures are made of. -/
theorem Says.isWire {message stackTrace : String} (h : o.Says link message stackTrace) :
    ∀ a, link.encodedAttributes = some a → a.IsWire := by
  intro a ha
  by_cases ho : o.encodeCommonAttributes = true
  · obtain ⟨-, -, a', ha', hencode⟩ := h.encoded ho
    rw [ha'] at ha
    cases ha
    exact Codec.isWire_of_encodeValue (hencode .empty)
  · rw [(h.plain (Bool.eq_false_iff.2 ho)).2.2] at ha
    cases ha

theorem stackTraceOf_of_text {stackTrace : String} {e : ThrownError Document} {f : FailureFields Document}
    (hf : e.failure? = some f) (htrace : f.stackTrace = .text stackTrace) :
    o.stackTraceOf g e = .text (if o.includeStackTrace then stackTrace else "") := by
  by_cases ho : o.includeStackTrace = true
  · simp [stackTraceOf, ho, hf, htrace, Value.isMissing, Option.filter]
  · simp [stackTraceOf, ho]

/-- **The link for a failure that is sent with the message and the stack trace of a link** says the same in the
same way. -/
theorem linkOf_of_says {message stackTrace : String} {e : ThrownError Document} {f : FailureFields Document}
    {info : FailureInfo Document} (h : o.Says link message stackTrace) (hmessage : e.message = .text message)
    (hsent : o.stackTraceOf g e = .text stackTrace) (hf : e.failure? = some f)
    (hinfo : f.kind.toInfo o.codec g = .ok info) :
    o.linkOf g e = .ok ⟨link.message, o.source, link.stackTrace, link.encodedAttributes, info⟩ := by
  have hinfoOf : o.infoOf g e = .ok info := by
    rw [infoOf, hf]
    exact hinfo
  rw [linkOf_eq_ok, hmessage, hsent]
  refine ⟨info, hinfoOf, ?_⟩
  by_cases ho : o.encodeCommonAttributes = true
  · obtain ⟨hm, ht, a, ha, hencode⟩ := h.encoded ho
    rw [if_pos ho, hm, ht, ha]
    exact ⟨a, hencode g, rfl⟩
  · obtain ⟨hm, ht, ha⟩ := h.plain (Bool.eq_false_iff.2 ho)
    rw [if_neg ho, hm, ht, ha]

/-- A link that reads as `S` says can be derived again: it has the converter's own source, what it says is
read, and it informs about a stable kind. `W p x` is what is known of a payload `p` that is read as `x`. -/
structure Renewable (o : ConverterOptions) (g : Graph) (S W : Document → Value → Prop) (link : WireLink) :
    Prop where
  source : link.source = o.source
  said : ∃ message stackTrace, o.Says link message stackTrace ∧ ∀ cause w, g.ReadsLink S link cause w →
    (o.attributesOf g w).Gives ⟨.text message, .text stackTrace⟩
  info : ∃ (k : FailureKind Document) (payloads : List Document), k.Stable payloads.length ∧
    link.info = k.info payloads ∧ ∀ p ∈ payloads, ∀ x, S p x → W p x

/-- A regular link can be derived again where messages and stack traces stay in their places. -/
theorem renewable_of_regular {P : Value → Prop} (hplain : o.encodeCommonAttributes = false)
    (htrace : o.includeStackTrace = true) (h : link.Regular o P) :
    o.Renewable g g.Describes (fun p x => p = .existing x ∧ P x) link := by
  obtain ⟨message, hmessage⟩ := h.message
  obtain ⟨stackTrace, hstack⟩ := h.stackTrace
  obtain ⟨k, payloads, hstable, hinfo, hp⟩ := h.info.exists_kind
  refine ⟨h.source, ⟨message, stackTrace, ⟨?_, ?_, ?_⟩, ?_⟩, k, payloads.map .existing, by simpa using hstable,
    hinfo, ?_⟩
  · intro hnone
    rw [htrace] at hnone
    cases hnone
  · exact fun _ => ⟨hmessage, hstack, h.attributes⟩
  · intro hencode
    rw [hplain] at hencode
    cases hencode
  · intro cause w hw
    have hgives := attributesOf_of_readsLink (r := o) hw h.attributes
    rwa [hmessage, hstack] at hgives
  · intro p hpayload x hx
    obtain ⟨y, hy, rfl⟩ := List.mem_map.1 hpayload
    obtain rfl : x = y := hx
    exact ⟨rfl, hp x hy⟩

/-! ## Links that are decoded -/

/-- The error that comes of a link: a failure of the kind that arrives, with what the link says, and with
details that return. -/
def Yields (o : ConverterOptions) (g : Graph) (T : Graph → Value → Value → Prop) (W : Document → Value → Prop)
    (link : WireLink) (w : Value) (arrival : ThrownError Document × Bool) : Prop :=
  ∃ (k : FailureKind Document) (payloads ds : List Document) (display : Value) (message stackTrace : String),
    k.Stable payloads.length ∧ link.info = k.info payloads ∧
    List.Forall₂ (fun p d => ∃ x, W p x ∧ o.codec.Reencodes g T x d) payloads ds ∧
    o.Says link message stackTrace ∧
    arrival =
      (.build ((k.arrived (Document.alignFrom 1 ds)).getD .generic) (.text message) display
          (.received o.frames ((k.arrived (Document.alignFrom 1 ds)).getD .generic) w (.text stackTrace)),
        (k.arrived (Document.alignFrom 1 ds)).isSome)

/-- **A link that can be derived again is decoded.** -/
theorem errorOf_of_renewable (hS : g.Reading S) (hlink : o.Renewable g S W link)
    (hW : ∀ p x, W p x → o.codec.ReturnsAs g T x) (hw : g.ReadsLink S link cause w) :
    ∃ arrival, (o.errorOf g w).Gives arrival ∧ o.Yields g T W link w arrival := by
  obtain ⟨k, payloads, hstable, hinfo, hp⟩ := hlink.info
  obtain ⟨message, stackTrace, hspoken, hread⟩ := hlink.said
  have hreadInfo := hw.info
  rw [hinfo] at hreadInfo
  obtain ⟨info, hinfoAt, hreadAs⟩ := hS.exists_infoAt hreadInfo
  have hdecode : List.Forall₂ (fun p q => ∀ x, S q x → ∃ d, o.codec.decodeValue g x = .ok d ∧
      ∃ x, W p x ∧ o.codec.Reencodes g T x d) payloads payloads := by
    rw [List.forall₂_same]
    intro p hpayload x hx
    have hknown := hp p hpayload x hx
    obtain ⟨d, hd, hagain⟩ := hW p x hknown
    exact ⟨d, hd, x, hknown, hagain⟩
  obtain ⟨ds, htoKind, hds⟩ := FailureKind.toKind_of_readAs hS (hstable.typed g)
    (fun _ => Codec.decodeDetails_of_reading hS hdecode)
    (fun hnone => by
      rw [List.length_eq_zero_iff.1 (hstable.count_eq_zero hnone)]
      exact .nil) hreadAs
  obtain ⟨display, hgives⟩ := errorOf_of_arrived (hread cause w hw) hinfoAt htoKind (hstable.typed g) ⟨_, rfl⟩
  exact ⟨_, hgives, k, payloads, ds, display, message, stackTrace, hstable, hinfo, hds, hspoken, rfl⟩

/-! ## Links that are derived again -/

theorem exists_details {α : Type} {k k' : FailureKind Document} {xs : List α} {ds : List Document}
    {R : α → Document → Prop} {details : Value} (hcount : k.details? = none → xs = [])
    (hdetails : k'.details? = k.details?.map fun _ => .list (Document.alignFrom 1 ds))
    (hds : List.Forall₂ R xs ds) (hplaced : g.Placed g₁ (k'.details?.getD .undefined) details) :
    (k.details? ≠ none → g₁.Listed (.existing details)) ∧
      List.Forall₂ (fun x v => ∃ d, R x d ∧ g.Placed g₁ d v) xs
        (((k'.map fun _ => details).map .existing).items g₁) := by
  cases hnone : k.details? with
  | none =>
    have hnone' : ((k'.map fun _ => details).map Document.existing).details? = none := by
      rw [FailureKind.details?_map, FailureKind.details?_map, hdetails, hnone]
      rfl
    rw [hcount hnone, FailureKind.items, hnone']
    exact ⟨fun h => absurd rfl h, .nil⟩
  | some d =>
    rw [hnone] at hdetails
    rw [hdetails] at hplaced
    obtain ⟨values, hvalues, hitems⟩ := hplaced.items
    have hmapped : (k'.map fun _ => details).details? = some details := by
      rw [FailureKind.details?_map, hdetails]
      rfl
    rw [FailureKind.items_existing hmapped hvalues]
    exact ⟨fun _ => .existing hvalues, forall₂_comp (fun _ _ _ hr hd => ⟨_, hr, hd⟩) hds hitems⟩

/-- **The link for an error that came of a link is that link, up to its payloads.** -/
theorem linkOf_of_yields {a : ThrownError Document × Bool} (hsource : link.source = o.source)
    (ha : o.Yields g T W link w a) (hv : g.Raised g₁ a.1 v) :
    ∃ e link', g₁.toFailure o.frames v = .ok e ∧ o.linkOf g₁ e = .ok link' ∧
      link.Matches (fun p q => ∃ x, W p x ∧ g₁.StandsFor T x q) link' := by
  obtain ⟨k, payloads, ds, display, message, stackTrace, hstable, hinfo, hds, hspoken, rfl⟩ := ha
  obtain ⟨cause, details, he, hplaced⟩ := hv
  have hcount : k.details? = none → payloads = [] := fun hnone =>
    List.length_eq_zero_iff.1 (hstable.count_eq_zero hnone)
  obtain ⟨hlisted, hitems⟩ := exists_details hcount (hstable.details ds hds.length_eq.symm) hds hplaced
  have htyped := FailureKind.typed_arrived (Document.alignFrom 1 ds) (hstable.typed g) hlisted
  have hsame := hstable.info (Document.alignFrom 1 ds)
  generalize (k.arrived (Document.alignFrom 1 ds)).getD .generic = kind at he hitems htyped hsame
  obtain ⟨qs, hstand, hencode⟩ := exists_common (hitems.imp fun p v ⟨d, ⟨x, hx, hd⟩, hv⟩ => by
    obtain ⟨q, hq, hs⟩ := hd g₁ v hv
    exact (⟨q, ⟨x, hx, hs⟩, hq⟩ :
      ∃ q, (∃ x, W p x ∧ g₁.StandsFor T x q) ∧ o.codec.encodeValue g₁ v = .ok q))
  have hfailure := ThrownError.failure?_map Document.existing
    (((ThrownError.build kind (.text message) display
      (.received o.frames kind w (.text stackTrace))).withCause cause).map fun _ => details)
  have hsent := stackTraceOf_of_text (o := o) (g := g₁) hfailure rfl
  rw [hspoken.sent] at hsent
  refine ⟨_, _, Graph.toFailure_of_failure he rfl,
    linkOf_of_says hspoken rfl hsent hfailure (FailureKind.toInfo_of_typed htyped hencode), ?_⟩
  exact
    { message := rfl
      source := hsource.symm
      stackTrace := rfl
      attributes := ⟨rfl, hspoken.isWire⟩
      info := ⟨k, payloads, qs, hinfo, by rw [← hsame]; exact FailureKind.info_map_existing kind _ qs, hcount,
        hstand⟩ }

/-! ## Chains -/

/-- Of every link that can be derived again an error comes. -/
theorem exists_arrivals (hS : g.Reading S) {links : List WireLink} {ws : List Value}
    (hlinks : ∀ link ∈ links, o.Renewable g S W link) (hW : ∀ p x, W p x → o.codec.ReturnsAs g T x)
    (hread : List.Forall₂ (fun link x => ∃ cause, g.ReadsLink S link cause x) links ws) :
    ∃ arrivals, List.Forall₂ (fun w a => (o.errorOf g w).Gives a) ws arrivals ∧
      List.Forall₂ (fun link a => link.source = o.source ∧ ∃ w, o.Yields g T W link w a) links arrivals := by
  have hrenewable : List.Forall₂ (fun a b => a = b ∧ o.Renewable g S W a) links links :=
    List.forall₂_same.2 fun link hlink => ⟨rfl, hlinks link hlink⟩
  have hboth : List.Forall₂ (fun link x => ∃ a, (link.source = o.source ∧ ∃ w, o.Yields g T W link w a) ∧
      (o.errorOf g x).Gives a) links ws := by
    refine forall₂_comp ?_ hrenewable hread
    rintro link _ x ⟨rfl, hlink⟩ ⟨cause, hx⟩
    obtain ⟨a, hgives, hyields⟩ := errorOf_of_renewable hS hlink hW hx
    exact ⟨a, ⟨hlink.source, x, hyields⟩, hgives⟩
  obtain ⟨arrivals, hyields, hgives⟩ := exists_common hboth
  exact ⟨arrivals, hgives, hyields⟩

/-- Every error that comes of a link in front of others has a class of its own. -/
theorem mapped_of_yields {links : List WireLink} {arrivals : List (ThrownError Document × Bool)}
    (h : List.Forall₂ (fun link a => link.source = o.source ∧ ∃ w, o.Yields g T W link w a) links arrivals)
    (hmapped : ∀ link ∈ links.dropLast, link.info.isMapped = true) :
    ∀ a ∈ arrivals.dropLast, a.2 = true := by
  intro a ha
  have hfront := List.forall₂_take (links.length - 1) h
  rw [← List.dropLast_eq_take, h.length_eq, ← List.dropLast_eq_take] at hfront
  obtain ⟨link, hlink, -, w, k, payloads, ds, display, message, stackTrace, -, hinfo, -, -, rfl⟩ :=
    exists_of_forall₂ hfront ha
  rw [FailureKind.isSome_arrived k _ payloads, ← hinfo]
  exact hmapped link hlink

/-- **A chain of links that can be derived again is decoded to a chain of the errors that come of them.** -/
theorem failureToError_of_renewable (hS : g.Reading S) {links : List WireLink}
    (hW : ∀ p x, W p x → o.codec.ReturnsAs g T x) (hne : links ≠ [])
    (hdepth : links.length ≤ max 1 (o.maxCauseDepth.linksIn g))
    (hlinks : ∀ link ∈ links, o.Renewable g S W link)
    (hmapped : ∀ link ∈ links.dropLast, link.info.isMapped = true)
    (hw : S (Emitted.document ⟨links, none⟩) w) :
    ∃ g₁ v vs, (o.failureToError g w).outcome.1 = .ok (g₁, v) ∧ g ≤ g₁ ∧ g₁.CauseChain v vs ∧
      List.Forall₂ (fun link x => link.source = o.source ∧ ∃ w a, o.Yields g T W link w a ∧ g.Raised g₁ a.1 x)
        links vs := by
  obtain ⟨ws, hchain, hread⟩ := hS.emitted_chain hne hw
  have hlength : ws.length = links.length := hread.length_eq.symm
  have hws := ne_nil_of_forall₂ hread hne
  obtain ⟨arrivals, hgives, hyields⟩ := exists_arrivals hS hlinks hW hread
  have hobjects : ∀ x ∈ ws, x.id?.isSome := by
    intro x hx
    obtain ⟨link, -, cause, hlink⟩ := exists_of_forall₂ hread hx
    obtain ⟨id, rfl⟩ := hlink.isObject
    rfl
  have htaken : ws.take (max 1 (o.maxCauseDepth.linksIn g)) = ws := List.take_of_length_le (hlength ▸ hdepth)
  have hreceived := failureToError_of_arrivals hchain hws hobjects (htaken.symm ▸ hgives)
  rw [kept_of_mapped (mapped_of_yields hyields hmapped)] at hreceived
  have hnew : ∀ e ∈ arrivals.map (·.1), e.cause = none ∧ e.extra = [] := by
    intro e he
    obtain ⟨a, ha, rfl⟩ := List.mem_map.1 he
    obtain ⟨link, -, -, w, k, payloads, ds, display, message, stackTrace, -, -, -, -, rfl⟩ :=
      exists_of_forall₂ hyields ha
    exact ⟨rfl, rfl⟩
  obtain ⟨vs, hvs, hraised⟩ := g.raised_addErrors hnew
  rw [List.forall₂_map_left_iff] at hraised
  exact ⟨_, _, vs, hreceived, g.le_addErrors _, hvs,
    forall₂_comp (fun _ a _ ⟨hsource, w, ha⟩ hx => ⟨hsource, w, a, ha, hx⟩) hyields hraised⟩

/-- **The errors that come of links are encoded as links that are the same up to payloads.** -/
theorem errorToFailure_of_yields {links : List WireLink} {vs : List Value}
    (hreuse : o.reuseStoredFailure = false) (hne : links ≠ [])
    (hdepth : links.length ≤ max 1 (o.maxCauseDepth.linksIn g₁)) (hchain : g₁.CauseChain v vs)
    (hvs : List.Forall₂ (fun link x => link.source = o.source ∧ ∃ w a, o.Yields g T W link w a ∧
      g.Raised g₁ a.1 x) links vs) :
    ∃ g₂ w' ws' links', (o.errorToFailure g₁ v).outcome.1 = .ok (g₂, w') ∧ g₁ ≤ g₂ ∧
      g₂.CauseChain w' ws' ∧ g₂.Shows g₁.size (Emitted.document ⟨links', none⟩) w' ∧
      List.Forall₂ (fun link x => ∃ cause, g₂.ShowsLink g₁.size link cause x) links' ws' ∧
        List.Forall₂ (WireLink.Matches fun p q => ∃ x, W p x ∧ g₁.StandsFor T x q) links links' := by
  obtain ⟨links', hsame, hlinked⟩ := exists_common (hvs.imp fun link x ⟨hsource, w, a, ha, hx⟩ => by
    obtain ⟨e, link', hmade, hlinkOf, hsame⟩ := linkOf_of_yields hsource ha hx
    exact (⟨link', hsame, e, hmade, hlinkOf⟩ :
      ∃ link', link.Matches (fun p q => ∃ x, W p x ∧ g₁.StandsFor T x q) link' ∧
        ∃ e, g₁.toFailure o.frames x = .ok e ∧ o.linkOf g₁ e = .ok link'))
  obtain ⟨g₂, w', ws', hsent, hle, hchain', hshown, hread⟩ := errorToFailure_of_linked hreuse hchain
    (ne_nil_of_forall₂ hvs hne) (hvs.length_eq ▸ hdepth) hlinked
  exact ⟨g₂, w', ws', links', hsent, hle, hchain', hshown, hread, hsame⟩

/-- **A chain of links that can be derived again is derived again**, up to payloads. -/
theorem renewed (hS : g.Reading S) {links : List WireLink} (hreuse : o.reuseStoredFailure = false)
    (hW : ∀ p x, W p x → o.codec.ReturnsAs g T x) (hne : links ≠ [])
    (hdepth : links.length ≤ max 1 (o.maxCauseDepth.linksIn g))
    (hlinks : ∀ link ∈ links, o.Renewable g S W link)
    (hmapped : ∀ link ∈ links.dropLast, link.info.isMapped = true)
    (hw : S (Emitted.document ⟨links, none⟩) w) :
    ∃ g₁ v g₂ w' ws' links', (o.failureToError g w).outcome.1 = .ok (g₁, v) ∧
      (o.errorToFailure g₁ v).outcome.1 = .ok (g₂, w') ∧ g ≤ g₁ ∧ g₁ ≤ g₂ ∧ g₂.CauseChain w' ws' ∧
      g₂.Shows g₁.size (Emitted.document ⟨links', none⟩) w' ∧
      List.Forall₂ (fun link x => ∃ cause, g₂.ShowsLink g₁.size link cause x) links' ws' ∧
        List.Forall₂ (WireLink.Matches fun p q => ∃ x, W p x ∧ g₁.StandsFor T x q) links links' := by
  obtain ⟨g₁, v, vs, hreceived, hle, hchain, hvs⟩ :=
    failureToError_of_renewable hS hW hne hdepth hlinks hmapped hw
  have hgrown := Graph.linksIn_mono hle o.maxCauseDepth
  obtain ⟨g₂, w', ws', links', hsent, hle', hchain', hshown, hread, hsame⟩ :=
    errorToFailure_of_yields hreuse hne (by omega) hchain hvs
  exact ⟨g₁, v, g₂, w', ws', links', hreceived, hsent, hle, hle', hchain', hshown, hread, hsame⟩

theorem payloads_of_matches {g₂ : Graph} {first : ObjectId} {link' : WireLink} {cause' : Option Document}
    {P : Value → Prop} {x x' : Value} (hle : g₁ ≤ g₂) (hx : g₂.ReadsLink g₂.Describes link cause x)
    (hx' : g₂.ShowsLink first link' cause' x')
    (h : link.Matches (fun p q => ∃ x, (p = .existing x ∧ P x) ∧ g₁.StandsFor T x q) link') :
    List.Forall₂ (T g₂) (g₂.payloadsAt x) (g₂.payloadsAt x') := by
  obtain ⟨k, payloads, payloads', hinfo, hinfo', hnone, hstand⟩ := h.info
  have hnone' : k.details? = none → payloads' = [] := by
    intro hk
    have hlength := hstand.length_eq
    rw [hnone hk] at hlength
    exact List.length_eq_zero_iff.1 hlength.symm
  have hleft := hx.info
  have hright := hx'.info
  rw [hinfo] at hleft
  rw [hinfo'] at hright
  have hpayloads : List.Forall₂ (fun y p => g₂.Describes p y) (g₂.payloadsAt x) payloads :=
    (g₂.reading_describes.payloads hnone hleft).flip
  have hpayloads' := (g₂.reading_shows first).payloads hnone' hright
  have hall : List.Forall₂ (fun y q => g₁.StandsFor T y q) (g₂.payloadsAt x) payloads' := by
    refine forall₂_comp ?_ hpayloads hstand
    rintro y p q hy ⟨z, ⟨rfl, -⟩, hz⟩
    obtain rfl : y = z := hy
    exact hz
  exact forall₂_comp (fun _ _ y hz hy => hz g₂ first y hle hy) hall hpayloads'

/-- **What is derived of a chain of regular links is deeply equal to it.** -/
theorem rederived {links : List WireLink} {P : Value → Prop} (hreuse : o.reuseStoredFailure = false)
    (hplain : o.encodeCommonAttributes = false) (htrace : o.includeStackTrace = true)
    (hP : ∀ x, P x → o.codec.ReturnsAs g T x) (hT : ∀ g' x y, T g' x y → g'.Alike x y) (hne : links ≠ [])
    (hdepth : o.maxCauseDepth.Admits links.length) (hlinks : ∀ link ∈ links, link.Regular o P)
    (hmapped : ∀ link ∈ links.dropLast, link.info.isMapped = true)
    (hw : g.Describes (Emitted.document ⟨links, none⟩) w) :
    ∃ g₁ v g₂ w' ws ws', (o.failureToError g w).outcome.1 = .ok (g₁, v) ∧
      (o.errorToFailure g₁ v).outcome.1 = .ok (g₂, w') ∧ g ≤ g₂ ∧ g₂.Alike w w' ∧
      g₂.CauseChain w ws ∧ g₂.CauseChain w' ws' ∧
        List.Forall₂ (fun x x' => List.Forall₂ (T g₂) (g₂.payloadsAt x) (g₂.payloadsAt x')) ws ws' := by
  obtain ⟨ws₀, hchain₀, hread₀⟩ := g.reading_describes.emitted_chain hne hw
  have hlimit : links.length ≤ max 1 (o.maxCauseDepth.linksIn g) := by
    have hlinksIn := hchain₀.le_linksIn hdepth hread₀.length_eq.le
    omega
  obtain ⟨g₁, v, g₂, w', ws', links', hreceived, hsent, hle, hle', hchain', hshown, hread', hsame⟩ :=
    renewed (T := T) g.reading_describes hreuse (fun p x hx => hP x hx.2) hne hlimit
      (fun link hlink => renewable_of_regular hplain htrace (hlinks link hlink)) hmapped hw
  have hw₂ := hw.mono (hle.trans hle')
  obtain ⟨ws, hchain₂, hread⟩ := g₂.reading_describes.emitted_chain hne hw₂
  have hmirrors : g₂.Mirrors g₂.Describes g₁.size (Emitted.document ⟨links, none⟩)
      (Emitted.document ⟨links', none⟩) := by
    refine Graph.mirrors_emitted g₂.reading_describes (hsame.imp fun _ _ h => h.imp ?_)
    rintro p q ⟨x, ⟨rfl, -⟩, hx⟩ _ y rfl hy
    exact hT g₂ _ y (hx g₂ g₁.size y hle' hy)
  refine ⟨g₁, v, g₂, w', ws, ws', hreceived, hsent, hle.trans hle', hmirrors w w' hw₂ hshown, hchain₂,
    hchain', ?_⟩
  have hturned : List.Forall₂ (fun x link => ∃ cause, g₂.ReadsLink g₂.Describes link cause x) ws links :=
    hread.flip
  have hpairs : List.Forall₂ (fun x link' => ∃ link cause, g₂.ReadsLink g₂.Describes link cause x ∧
      link.Matches (fun p q => ∃ x, (p = .existing x ∧ P x) ∧ g₁.StandsFor T x q) link') ws links' :=
    forall₂_comp (fun _ link _ ⟨cause, hx⟩ hl => ⟨link, cause, hx, hl⟩) hturned hsame
  refine forall₂_comp ?_ hpairs hread'
  rintro x link' x' ⟨link, cause, hx, hl⟩ ⟨cause', hx'⟩
  exact payloads_of_matches hle' hx hx' hl

end ConverterOptions

/-- **Regular wire failures are derived again.** With a codec of payload text, in whatever format, the outcome is
deeply equal to the failure, and every payload in a foreign encoding is the very same. -/
theorem regular_failures_rederived {format : TextFormat} {o : ConverterOptions} {g : Graph} {w : Value}
    {links : List WireLink} (hcodec : o.codec = .ofFormat format) (hformat : format.ReadsAnew)
    (hreuse : o.reuseStoredFailure = false)
    (hplain : o.encodeCommonAttributes = false) (htrace : o.includeStackTrace = true)
    (hw : g.Describes (Emitted.document ⟨links, none⟩) w) (hne : links ≠ [])
    (hdepth : o.maxCauseDepth.Admits links.length)
    (hlinks : ∀ link ∈ links, link.Regular o fun x =>
      g.IsForeign x ∨ ∃ p : Payload, g.Describes p.document x ∧ o.codec.Reproduces p)
    (hmapped : ∀ link ∈ links.dropLast, link.info.isMapped = true) :
    ∃ g₁ v g₂ w' ws ws', (o.failureToError g w).outcome.1 = .ok (g₁, v) ∧
      (o.errorToFailure g₁ v).outcome.1 = .ok (g₂, w') ∧ g ≤ g₂ ∧ g₂.Alike w w' ∧
      g₂.CauseChain w ws ∧ g₂.CauseChain w' ws' ∧
        List.Forall₂ (fun x x' => List.Forall₂ (fun p p' => g.IsForeign p → p' = p)
          (g₂.payloadsAt x) (g₂.payloadsAt x')) ws ws' := by
  have hreturns : ∀ x, (g.IsForeign x ∨ ∃ p : Payload, g.Describes p.document x ∧ o.codec.Reproduces p) →
      o.codec.ReturnsAs g (fun g' x y => g'.Alike x y ∧ (g.IsForeign x → y = x)) x := by
    intro x hx
    rw [hcodec]
    by_cases hforeign : g.IsForeign x
    · refine (Codec.returnsAs_of_isForeign hforeign).imp ?_
      rintro g' y rfl
      exact ⟨.refl g' _, fun _ => rfl⟩
    · obtain ⟨p, hdescribed, hp⟩ := hx.resolve_left hforeign
      rw [hcodec] at hp
      exact (Codec.returnsAs_of_reproduces hformat hdescribed hp).imp fun g' y hy => ⟨hy, fun h => absurd h hforeign⟩
  obtain ⟨g₁, v, g₂, w', ws, ws', hreceived, hsent, hle, halike, hchain, hchain', hpayloads⟩ :=
    ConverterOptions.rederived hreuse hplain htrace hreturns (fun _ _ _ h => h.1) hne hdepth hlinks hmapped hw
  exact ⟨g₁, v, g₂, w', ws, ws', hreceived, hsent, hle, halike, hchain, hchain',
    hpayloads.imp fun _ _ h => h.imp fun _ _ hp => hp.2⟩

/-- A wire failure of an activity, object 17, and of the application failure that ended it, object 13, with a
payload of text, object 3, and one in a foreign encoding, object 7. -/
def chargedOrder : Graph :=
  ⟨[.bytes (Utf8.encode Payload.textEncoding.toList),
    .record [("encoding", .object 0)],
    .bytes (Utf8.encode "\x7b\"json\":\"o-1\"\x7d".toList),
    .record [("metadata", .object 1), ("data", .object 2)],
    .bytes (Utf8.encode "binary/plain".toList),
    .record [("encoding", .object 4)],
    .bytes [1, 2],
    .record [("metadata", .object 5), ("data", .object 6)],
    .list [.object 3, .object 7],
    .record [("payloads", .object 8)],
    .record [("seconds", .number (.ofInt 1)), ("nanos", .number (.ofInt 500000000))],
    .record [("type", .text ""), ("nonRetryable", .bool true), ("details", .object 9),
      ("nextRetryDelay", .object 10)],
    .record [("case", .text "applicationFailureInfo"), ("value", .object 11)],
    .record [("message", .text "card declined"), ("source", .text "TypeScriptSDK"), ("stackTrace", .text ""),
      ("failureInfo", .object 12)],
    .record [("name", .text "charge")],
    .record [("scheduledEventId", .number 5), ("startedEventId", .number 6), ("identity", .text "worker"),
      ("activityType", .object 14), ("activityId", .text "7"), ("retryState", .number (.ofInt 3))],
    .record [("case", .text "activityFailureInfo"), ("value", .object 15)],
    .record [("message", .text "failed"), ("source", .text "TypeScriptSDK"), ("stackTrace", .text "at charge"),
      ("cause", .object 13), ("failureInfo", .object 16)]]⟩

/-- The links of the failure. -/
def chargeLinks : List WireLink :=
  [⟨.text "failed", .text "TypeScriptSDK", .text "at charge", none,
      .activity (.number 5) (.number 6) (.text "worker") (.text "charge") (.text "7") (.number (.ofInt 3))⟩,
    ⟨.text "card declined", .text "TypeScriptSDK", .text "", none,
      .application (.text "") (.bool true) (payloadsField [.existing (.object 3), .existing (.object 7)])
        (some (WireDuration.document ⟨.ofInt 1, .ofInt 500000000⟩))⟩]

theorem describes_chargedOrder :
    chargedOrder.Describes (Emitted.document ⟨chargeLinks, none⟩) (.object 17) := by
  have hpayloads : chargedOrder.Describes
      (payloadsDocument (.list [.existing (.object 3), .existing (.object 7)])) (.object 9) :=
    ⟨_, ⟨_, rfl, fun _ => rfl⟩, _, _, rfl, ⟨_, rfl, _, _, rfl, rfl, _, _, rfl, rfl, rfl⟩, rfl⟩
  have hdelay : chargedOrder.Describes (WireDuration.document ⟨.ofInt 1, .ofInt 500000000⟩)
      (.object 10) := by
    -- With the projections left in place, the numbers would be computed.
    dsimp only [WireDuration.document]
    exact ⟨[("seconds", .number (.ofInt 1)), ("nanos", .number (.ofInt 500000000))],
      ⟨_, rfl, fun _ => rfl⟩, .number (.ofInt 1), _, rfl, rfl, .number (.ofInt 500000000), _, rfl, rfl, rfl⟩
  have happlication : chargedOrder.Describes (.record chargeLinks[1].info.fields) (.object 11) :=
    ⟨_, ⟨_, rfl, fun _ => rfl⟩, _, _, rfl, rfl, _, _, rfl, rfl, _, _, rfl, hpayloads, _, _, rfl, hdelay, rfl⟩
  have hinfo : chargedOrder.Describes chargeLinks[1].info.document (.object 12) :=
    ⟨_, ⟨_, rfl, fun _ => rfl⟩, _, _, rfl, rfl, _, _, rfl, happlication, rfl⟩
  have hcause : chargedOrder.Describes (chargeLinks[1].document none) (.object 13) :=
    ⟨_, ⟨_, rfl, fun _ => rfl⟩, _, _, rfl, rfl, _, _, rfl, rfl, _, _, rfl, rfl, _, _, rfl, hinfo, rfl⟩
  have hactivity : chargedOrder.Describes (.record chargeLinks[0].info.fields) (.object 15) :=
    ⟨_, ⟨_, rfl, fun _ => rfl⟩, _, _, rfl, rfl, _, _, rfl, rfl, _, _, rfl, rfl, _, _, rfl,
      ⟨_, ⟨_, rfl, fun _ => rfl⟩, _, _, rfl, rfl, rfl⟩, _, _, rfl, rfl, .number (.ofInt 3), _, rfl, rfl, rfl⟩
  have houter : chargedOrder.Describes chargeLinks[0].info.document (.object 16) :=
    ⟨_, ⟨_, rfl, fun _ => rfl⟩, _, _, rfl, rfl, _, _, rfl, hactivity, rfl⟩
  exact ⟨_, ⟨_, rfl, fun _ => rfl⟩, _, _, rfl, rfl, _, _, rfl, rfl, _, _, rfl, rfl, _, _, rfl, hcause,
    _, _, rfl, houter, rfl⟩

theorem isForeign_chargedOrder : chargedOrder.IsForeign (.object 7) :=
  ⟨rfl, _, rfl, by decide +kernel⟩

theorem reproduces_chargedOrder :
    ∃ p : Payload, chargedOrder.Describes p.document (.object 3) ∧ Codec.standard.Reproduces p :=
  ⟨.inEncoding Payload.textEncoding (Utf8.encode "\x7b\"json\":\"o-1\"\x7d".toList),
    ⟨_, ⟨_, rfl, fun _ => rfl⟩, _, _, rfl, ⟨_, ⟨_, rfl, fun _ => rfl⟩, _, _, rfl, rfl, rfl⟩,
      _, _, rfl, rfl, rfl⟩, .text "o-1", Codec.textIn?_eq_some.1 (by decide +kernel), rfl⟩

theorem regular_chargeLinks {o : ConverterOptions} {P : Value → Prop} (hsource : o.source = .text "TypeScriptSDK")
    (howned : P (.object 3)) (hforeign : P (.object 7)) : ∀ link ∈ chargeLinks, link.Regular o P := by
  have hpayloads : ∀ x ∈ [Value.object 3, .object 7], P x := by
    simpa using ⟨howned, hforeign⟩
  have hdelay : ∀ d ∈ some (WireDuration.mk (.ofInt 1) (.ofInt 500000000)), d.IsRegular := by
    intro d hd
    rw [← Option.mem_some_iff.1 hd]
    exact ⟨1, 500, by decide, by decide, by decide, by norm_num⟩
  intro link hlink
  simp only [chargeLinks, List.mem_cons, List.not_mem_nil, or_false] at hlink
  rcases hlink with rfl | rfl
  · exact ⟨⟨_, rfl⟩, hsource.symm, ⟨_, rfl⟩, rfl, .activity _ _ _ _ _ (by decide)⟩
  · exact ⟨⟨_, rfl⟩, hsource.symm, ⟨_, rfl⟩, rfl, .application "" true hpayloads hdelay⟩

theorem regular_failures_rederived_chargedOrder :
    let o : ConverterOptions := { reuseStoredFailure := false }
    ∃ g₁ v g₂ w' ws ws', (o.failureToError chargedOrder (.object 17)).outcome.1 = .ok (g₁, v) ∧
      (o.errorToFailure g₁ v).outcome.1 = .ok (g₂, w') ∧ chargedOrder ≤ g₂ ∧
      g₂.Alike (.object 17) w' ∧ g₂.CauseChain (.object 17) ws ∧ g₂.CauseChain w' ws' ∧
        List.Forall₂ (fun x x' => List.Forall₂ (fun p p' => chargedOrder.IsForeign p → p' = p)
          (g₂.payloadsAt x) (g₂.payloadsAt x')) ws ws' := by
  intro o
  refine regular_failures_rederived (o := o) rfl (TextFormat.readsAnew_annotated .plain) rfl rfl rfl
    describes_chargedOrder (List.cons_ne_nil _ _) (show 2 ≤ 50 by decide)
    (regular_chargeLinks rfl (.inr reproduces_chargedOrder) (.inl isForeign_chargedOrder)) ?_
  intro link hlink
  obtain rfl := List.mem_singleton.1 hlink
  rfl

end FailureWire
