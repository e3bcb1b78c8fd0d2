import FailureWire.Proofs.Conversion.Arrival
import FailureWire.Proofs.Wire.Typed

/-!
# What a typed wire failure becomes

A typed wire failure, of any length and be it cyclic, becomes a finite chain of errors by `failureToError` if the
codec decodes its payloads (`typed_failures_decoded`). The chain has one error for each link that the walk meets, up
to the first link whose information names no class; that link becomes a plain failure, and ends the chain.

The payloads that a conversion decodes are those of the attributes and of the details of a link
(`g.readPayloads`). They must be decoded for every link of the walk, also for those that are dropped
afterwards.
-/

namespace FailureWire

/-! ## Payloads that are decoded -/

/-- The payloads of a link that a conversion decodes. -/
def Graph.readPayloads (g : Graph) (x : Value) : List Value :=
  (g.truthyAt x "encodedAttributes").toList ++ g.payloadsAt x

namespace Codec

variable {c : Codec} {g : Graph} {p d : Value}

/-- A codec decodes the payload that a value is. -/
def Decodes (c : Codec) (g : Graph) (p : Value) : Prop :=
  ∀ q, g.payloadOf p = .ok q → ∃ decoded, c.decode q = .ok decoded

theorem decodes_iff (h : g.OfShape Schema.payload p) :
    c.Decodes g p ↔ ∃ d, c.decodeValue g p = .ok d := by
  obtain ⟨metadata, data, hp⟩ := Graph.payloadOf_of_ofShape h
  unfold Decodes decodeValue
  rw [hp]
  constructor
  · intro hdecodes
    obtain ⟨decoded, hd⟩ := hdecodes _ rfl
    rw [Except.ok_bind, hd]
    cases decoded with
    | itself => exact ⟨_, rfl⟩
    | value d => exact ⟨_, rfl⟩
  · rintro ⟨d, hd⟩ q hq
    cases hq
    rw [Except.ok_bind] at hd
    obtain ⟨decoded, hdecoded, -⟩ := Except.bind_eq_ok.1 hd
    exact ⟨decoded, hdecoded⟩

/-- **Details are decoded exactly if each payload is.** -/
theorem exists_decodeDetails_iff (h : g.OfShape Schema.payloads d) :
    (∃ ds, c.decodeDetails g (some d) = .ok ds) ↔
      ∀ p ∈ (g.listOf? (g.read d "payloads")).getD [], c.Decodes g p := by
  obtain ⟨items, hitems, hpayloads, htyped⟩ := Graph.payloadsOf_of_ofShape h
  rw [hitems, Option.getD_some, decodeDetails, hpayloads, Except.ok_bind]
  have hvalue (p : Value) (hp : p ∈ items) : c.Decodes g p ↔ ∃ d, c.decodeSlot g (some p) = .ok d :=
    decodes_iff (htyped p hp)
  rw [Except.exists_return_iff, Except.exists_mapM_iff, List.forall_mem_map]
  exact forall₂_congr fun p hp => (hvalue p hp).symm

end Codec

/-! ## Kinds -/

namespace FailureInfo

variable {c : Codec} {g : Graph} {info : FailureInfo Value}

theorem exists_delayOf {delay : Option Value} (h : ∀ d, delay = some d → g.OfShape Schema.duration d) :
    ∃ ms, g.delayOf delay = .ok ms := by
  cases delay with
  | none => exact ⟨_, rfl⟩
  | some d =>
    obtain ⟨hkeyed, ⟨seconds, hseconds⟩, ⟨nanos, hnanos⟩, -⟩ := h d rfl
    have hnumber (n : Number) : g.toNumber (.number n) = .ok n := rfl
    rw [Graph.delayOf, Graph.durationOf, Graph.readOf_of_isKeyed hkeyed, Graph.readOf_of_isKeyed hkeyed,
      hseconds, hnanos]
    simp only [Except.ok_bind, hnumber]
    exact ⟨_, rfl⟩

/-- **Typed information stands for a kind of its class** if its details are decoded. -/
theorem Typed.exists_toKind (h : info.Typed g)
    (hdetails : ∀ d, info.details? = some d → ∃ ds, c.decodeDetails g (some d) = .ok ds) :
    ∃ kind?, info.toKind c g = .ok kind? ∧ kind?.map (·.errorClass) = info.class? ∧
      ∀ type ds b ms, kind? = some (.application type ds b ms) → type.IsOptionalText := by
  have hdecoded (details : Option Value) (heq : info.details? = details) :
      ∃ ds, c.decodeDetails g details = .ok ds := by
    cases details with
    | none => exact ⟨_, rfl⟩
    | some d => exact hdetails d heq
  cases h with
  | unmapped case => exact ⟨none, rfl, rfl, by rintro _ _ _ _ ⟨⟩⟩
  | @application type b details delay htype _ hdelay =>
    obtain ⟨ds, hds⟩ := hdecoded details rfl
    obtain ⟨ms, hms⟩ := exists_delayOf hdelay
    refine ⟨some (.ofApplication (if type.isTruthy then type else .undefined) ds b ms), ?_, rfl, ?_⟩
    · rw [toKind, hds, Except.ok_bind, hms]
      rfl
    · rintro type' ds' b' ms' ⟨⟩
      split
      · exact htype.optional
      · exact .inl rfl
  | @timeout type details _ =>
    obtain ⟨ds, hds⟩ := hdecoded details rfl
    exact ⟨_, by rw [toKind, hds]; rfl, rfl, by rintro _ _ _ _ ⟨⟩⟩
  | @canceled details _ =>
    obtain ⟨ds, hds⟩ := hdecoded details rfl
    exact ⟨_, by rw [toKind, hds]; rfl, rfl, by rintro _ _ _ _ ⟨⟩⟩
  | @terminated details _ =>
    obtain ⟨ds, hds⟩ := hdecoded details rfl
    exact ⟨_, by rw [toKind, hds]; rfl, rfl, by rintro _ _ _ _ ⟨⟩⟩
  | server | activity | childWorkflow => exact ⟨some _, rfl, rfl, by rintro _ _ _ _ ⟨⟩⟩

theorem exists_decodeDetails_of_toKind {kind? : Option (FailureKind Document)}
    (h : info.toKind c g = .ok kind?) :
    ∀ d, info.details? = some d → ∃ ds, c.decodeDetails g (some d) = .ok ds := by
  intro d hd
  cases info with
  | application | timeout | canceled | terminated =>
    cases hd
    obtain ⟨ds, hds, -⟩ := Except.bind_eq_ok.1 h
    exact ⟨ds, hds⟩
  | unmapped | server | activity | childWorkflow => cases hd

theorem Typed.ofShape_details (h : info.Typed g) {d : Value} (hd : info.details? = some d) :
    g.OfShape Schema.payloads d := by
  cases h with
  | application _ _ hdetails _ | timeout _ hdetails | canceled hdetails | terminated hdetails =>
    exact hdetails d hd
  | unmapped | server | activity | childWorkflow => cases hd

theorem payloadsAt_eq {x : Value} (hinfo : g.infoAt x = .ok info) :
    g.payloadsAt x = (info.details?.bind fun d => g.listOf? (g.read d "payloads")).getD [] := by
  rw [Graph.payloadsAt, hinfo]

theorem Typed.ofShape_payloadsAt {x : Value} (h : info.Typed g) (hinfo : g.infoAt x = .ok info) :
    ∀ p ∈ g.payloadsAt x, g.OfShape Schema.payload p := by
  intro p hp
  rw [payloadsAt_eq hinfo] at hp
  cases hd : info.details? with
  | none =>
    rw [hd] at hp
    cases hp
  | some d =>
    obtain ⟨items, hitems, -, htyped⟩ := Graph.payloadsOf_of_ofShape (h.ofShape_details hd)
    rw [hd, Option.bind_some, hitems] at hp
    exact htyped p hp

/-- **Information stands for a kind or for none exactly if the payloads of its details are decoded.** -/
theorem Typed.exists_toKind_iff {x : Value} (h : info.Typed g) (hinfo : g.infoAt x = .ok info) :
    (∃ kind?, info.toKind c g = .ok kind?) ↔ ∀ p ∈ g.payloadsAt x, c.Decodes g p := by
  rw [payloadsAt_eq hinfo]
  constructor
  · rintro ⟨kind?, hkind⟩
    cases hd : info.details? with
    | none => simp
    | some d =>
      exact (Codec.exists_decodeDetails_iff (h.ofShape_details hd)).1
        (exists_decodeDetails_of_toKind hkind d hd)
  · intro hall
    obtain ⟨kind?, hkind, -⟩ := h.exists_toKind (c := c) fun d hd => by
      rw [hd] at hall
      exact (Codec.exists_decodeDetails_iff (h.ofShape_details hd)).2 hall
    exact ⟨kind?, hkind⟩

end FailureInfo

theorem Graph.TypedLink.ofShape_readPayloads {g : Graph} {x : Value} (hx : g.TypedLink x) :
    ∀ p ∈ g.readPayloads x, g.OfShape Schema.payload p := by
  intro p hp
  rcases List.mem_append.1 hp with hp | hp
  · exact hx.encodedAttributes p (Option.mem_toList.1 hp)
  · obtain ⟨info, hinfo, htyped, -⟩ := exists_infoAt_of_typed hx.info
    exact htyped.ofShape_payloadsAt hinfo p hp

/-! ## Links -/

namespace ConverterOptions

open Logged

variable {o : ConverterOptions} {g g' : Graph} {x v : Value} {before after : List LogEntry}

/-- The attributes that the payload of a link is decoded to, if there is one and it holds a message. -/
def decodedAttributes? (o : ConverterOptions) (g : Graph) (x : Value) : Option CommonAttributes :=
  (g.truthyAt x "encodedAttributes").bind fun p =>
    match o.codec.decodeValue g p with
    | .ok d => CommonAttributes.ofDocument? g d
    | .error _ => none

/-- The message and the stack trace of a link. -/
def attributesAt (o : ConverterOptions) (g : Graph) (x : Value) : CommonAttributes :=
  (o.decodedAttributes? g x).getD (.plain g x)

def attributeEntries (o : ConverterOptions) (g : Graph) (x : Value) : List LogEntry :=
  if (g.truthyAt x "encodedAttributes").isSome && (o.decodedAttributes? g x).isNone then
    [⟨.warn, "Ignoring undecodable encoded failure attributes", none⟩]
  else []

def infoEntries (g : Graph) (x : Value) : List LogEntry :=
  if (g.classAt? x).isNone then
    [⟨.debug, "Decoding failure without mapped failure info",
      some (.record [("failureInfoCase",
        .existing ((g.read (g.read x "failureInfo") "case").orElse (.text "none")))])⟩]
  else []

/-- What is reported of a link. -/
def entriesAt (o : ConverterOptions) (g : Graph) (x : Value) : List LogEntry :=
  o.attributeEntries g x ++ infoEntries g x

/-- The attributes of a link are read if their payload, should there be one, is decoded. -/
theorem ends_attributesOf (hx : x.isMissing = false)
    (hp : ∀ p, g.truthyAt x "encodedAttributes" = some p → ∃ d, o.codec.decodeValue g p = .ok d) :
    (o.attributesOf g x).Ends before (o.attributesAt g x) (before ++ o.attributeEntries g x) := by
  unfold attributesOf
  simp only [hx, Bool.false_eq_true, if_false]
  unfold attributesAt attributeEntries decodedAttributes?
  cases hfound : g.truthyAt x "encodedAttributes" with
  | none => exact ends_pure.2 ⟨rfl, List.append_nil before⟩
  | some p =>
    obtain ⟨d, hd⟩ := hp p hfound
    simp only [Option.bind_some, hd]
    refine ends_bind.2 ⟨d, before, ends_ofExcept.2 ⟨rfl, rfl⟩, ?_⟩
    cases hattributes : CommonAttributes.ofDocument? g d with
    | some a => exact ends_pure.2 ⟨rfl, by simp⟩
    | none => exact ends_bind.2 ⟨(), _, ends_report.2 rfl, ends_pure.2 ⟨rfl, by simp⟩⟩

theorem areTexts_of_ofDocument? {d : Document} {a : CommonAttributes}
    (h : CommonAttributes.ofDocument? g d = some a) : a.message.IsText ∧ a.stackTrace.IsText := by
  have htexts (message : String) (stackTrace : Option String) :
      (CommonAttributes.ofTexts message stackTrace).message.IsText ∧
        (CommonAttributes.ofTexts message stackTrace).stackTrace.IsText := ⟨⟨_, rfl⟩, ⟨_, rfl⟩⟩
  unfold CommonAttributes.ofDocument? at h
  split at h
  · split at h
    · cases h
      exact htexts _ _
    · cases h
  · cases h
    exact htexts _ _
  · obtain ⟨message, -, rfl⟩ := Option.map_eq_some_iff.1 h
    exact htexts _ _
  · cases h

theorem isText_attributesAt (hmessage : (g.read x "message").IsText) : (o.attributesAt g x).message.IsText := by
  unfold attributesAt
  cases hdecoded : o.decodedAttributes? g x with
  | none => exact hmessage
  | some a =>
    obtain ⟨p, -, hp⟩ := Option.bind_eq_some_iff.1 hdecoded
    split at hp
    · exact (areTexts_of_ofDocument? hp).1
    · cases hp

/-- The error that a link is decoded to: a failure of the class that the information names, or a plain one,
with the attributes of the link. Whether a class is named goes with it. -/
def IsDecoded (o : ConverterOptions) (g : Graph) (x : Value) (arrival : ThrownError Document × Bool) : Prop :=
  arrival.2 = (g.classAt? x).isSome ∧ ∃ kind display,
    kind.errorClass = (g.classAt? x).getD .failure ∧
      arrival.1 = .build kind (o.attributesAt g x).message display
        (.received o.frames kind x (o.attributesAt g x).stackTrace)

theorem ends_errorOf_of_kind {a : CommonAttributes} {info : FailureInfo Value} {kind : FailureKind Document}
    {e : ThrownError Document} (ha : (o.attributesOf g x).Ends before a after)
    (hinfo : g.infoAt x = .ok info) (hkind : info.toKind o.codec g = .ok (some kind))
    (hmade : a.toError g o.frames x kind = .ok e) : (o.errorOf g x).Ends before (e, true) after :=
  ends_bind.2 ⟨a, after, ha, ends_bind.2 ⟨info, after, ends_ofExcept.2 ⟨hinfo, rfl⟩,
    ends_bind.2 ⟨some kind, after, ends_ofExcept.2 ⟨hkind, rfl⟩,
      ends_bind.2 ⟨e, after, ends_ofExcept.2 ⟨hmade, rfl⟩, ends_pure.2 ⟨rfl, rfl⟩⟩⟩⟩⟩

theorem ends_errorOf_of_unmapped {a : CommonAttributes} {info : FailureInfo Value} {e : ThrownError Document}
    (ha : (o.attributesOf g x).Ends before a after) (hinfo : g.infoAt x = .ok info)
    (hkind : info.toKind o.codec g = .ok none) (hmade : a.toError g o.frames x .generic = .ok e) :
    (o.errorOf g x).Ends before (e, false) (after ++
      [⟨.debug, "Decoding failure without mapped failure info",
        some (.record [("failureInfoCase", .existing (info.case.orElse (.text "none")))])⟩]) :=
  ends_bind.2 ⟨a, after, ha, ends_bind.2 ⟨info, after, ends_ofExcept.2 ⟨hinfo, rfl⟩,
    ends_bind.2 ⟨none, after, ends_ofExcept.2 ⟨hkind, rfl⟩, ends_bind.2 ⟨(), _, ends_report.2 rfl,
      ends_bind.2 ⟨e, _, ends_ofExcept.2 ⟨hmade, rfl⟩, ends_pure.2 ⟨rfl, rfl⟩⟩⟩⟩⟩⟩

/-- **A typed link is decoded if its payloads are**, and what is reported is about the link alone. -/
theorem exists_ends_errorOf (hx : g.TypedLink x) (hp : ∀ p ∈ g.readPayloads x, o.codec.Decodes g p) :
    ∃ arrival, o.IsDecoded g x arrival ∧
      ∀ before, (o.errorOf g x).Ends before arrival (before ++ o.entriesAt g x) := by
  obtain ⟨info, hinfo, htyped, hcase, hclass⟩ := Graph.exists_infoAt_of_typed hx.info
  obtain ⟨_, hread⟩ := (htyped.exists_toKind_iff (c := o.codec) hinfo).2 fun p hmem =>
    hp p (List.mem_append_right _ hmem)
  obtain ⟨kind?, hkind, hkindClass, htype⟩ := htyped.exists_toKind (c := o.codec)
    (FailureInfo.exists_decodeDetails_of_toKind hread)
  have hclassAt : kind?.map (·.errorClass) = g.classAt? x := hkindClass.trans hclass
  have hattributes (before : List LogEntry) : (o.attributesOf g x).Ends before (o.attributesAt g x)
      (before ++ o.attributeEntries g x) :=
    ends_attributesOf hx.isMissing fun p hfound =>
      (Codec.decodes_iff (hx.encodedAttributes p hfound)).1
        (hp p (List.mem_append_left _ (by rw [hfound]; exact List.mem_singleton_self p)))
  have hmessage := isText_attributesAt (o := o) hx.message
  cases kind? with
  | some kind =>
    obtain ⟨display, hmade⟩ := toError_of_typed g o.frames kind (o.attributesAt g x).stackTrace x hmessage
      fun type ds b ms hk => htype type ds b ms (congrArg some hk)
    refine ⟨(_, true), ⟨by rw [← hclassAt]; rfl, kind, display, by rw [← hclassAt]; rfl, rfl⟩,
      fun before => ?_⟩
    have hentries : o.entriesAt g x = o.attributeEntries g x := by
      rw [entriesAt, infoEntries, ← hclassAt]
      exact List.append_nil _
    rw [hentries]
    exact ends_errorOf_of_kind (hattributes before) hinfo hkind hmade
  | none =>
    obtain ⟨display, hmade⟩ := toError_of_typed g o.frames .generic (o.attributesAt g x).stackTrace x hmessage
      (by rintro _ _ _ _ ⟨⟩)
    refine ⟨(_, false), ⟨by rw [← hclassAt]; rfl, .generic, display, by rw [← hclassAt]; rfl, rfl⟩,
      fun before => ?_⟩
    rw [entriesAt, infoEntries, ← hclassAt, ← hcase, ← List.append_assoc]
    exact ends_errorOf_of_unmapped (hattributes before) hinfo hkind hmade

theorem exists_decodeValue_of_attributesOf {a : CommonAttributes}
    (h : (o.attributesOf g x).Ends before a after) :
    ∀ p, g.truthyAt x "encodedAttributes" = some p → ∃ d, o.codec.decodeValue g p = .ok d := by
  intro p hp
  unfold attributesOf at h
  dsimp only at h
  split at h
  · obtain ⟨_, _, hthrow, -⟩ := ends_bind.1 h
    exact (not_ends_throw hthrow).elim
  · rw [hp] at h
    obtain ⟨d, _, hd, -⟩ := ends_bind.1 h
    exact ⟨d, (ends_ofExcept.1 hd).1⟩

/-- **A typed link is decoded only if its payloads are.** -/
theorem decodes_of_ends_errorOf {arrival : ThrownError Document × Bool} (hx : g.TypedLink x)
    (h : (o.errorOf g x).Ends before arrival after) : ∀ p ∈ g.readPayloads x, o.codec.Decodes g p := by
  obtain ⟨a, _, ha, h⟩ := ends_bind.1 h
  obtain ⟨info, _, hinfo, h⟩ := ends_bind.1 h
  obtain ⟨kind?, _, hkind, -⟩ := ends_bind.1 h
  obtain ⟨hinfo, -⟩ := ends_ofExcept.1 hinfo
  obtain ⟨hkind, -⟩ := ends_ofExcept.1 hkind
  obtain ⟨info', hinfo', htyped, -⟩ := Graph.exists_infoAt_of_typed hx.info
  cases hinfo.symm.trans hinfo'
  intro p hp
  rcases List.mem_append.1 hp with hp | hp
  · have hfound := Option.mem_toList.1 hp
    exact (Codec.decodes_iff (hx.encodedAttributes p hfound)).2 (exists_decodeValue_of_attributesOf ha p hfound)
  · exact (htyped.exists_toKind_iff hinfo).1 ⟨kind?, hkind⟩ p hp

/-! ## Chains -/

/-- What is reported of links is reported from the last one on. -/
theorem ends_errorsOf {links : List Value} {arrivals : List (ThrownError Document × Bool)}
    (h : List.Forall₂ (fun x arrival =>
      ∀ before, (o.errorOf g x).Ends before arrival (before ++ o.entriesAt g x)) links arrivals) :
    (o.errorsOf g links).Ends before (kept arrivals) (before ++ links.reverse.flatMap (o.entriesAt g)) := by
  induction h with
  | nil => exact ends_pure.2 ⟨rfl, List.append_nil before⟩
  | @cons x arrival links arrivals hx _ ih =>
    obtain ⟨e, mapped⟩ := arrival
    refine ends_bind.2 ⟨_, _, ih, ends_bind.2 ⟨_, _, hx _, ?_⟩⟩
    have hentries : before ++ (x :: links).reverse.flatMap (o.entriesAt g) =
        before ++ links.reverse.flatMap (o.entriesAt g) ++ o.entriesAt g x := by simp
    rw [hentries]
    cases mapped with
    | true => exact ends_pure.2 ⟨rfl, rfl⟩
    | false => exact ends_pure.2 ⟨rfl, rfl⟩

/-- **A typed wire failure is received if its payloads are decoded**: the reports about its links follow the one
that the chain was cut, if it was. -/
theorem exists_ends_receive {f : Value} (h : g.TypedWire f)
    (hdecode : ∀ x ∈ linksOrSelf (g.walk o.maxCauseDepth f) f, ∀ p ∈ g.readPayloads x, o.codec.Decodes g p) :
    ∃ arrivals, List.Forall₂ (o.IsDecoded g) (linksOrSelf (g.walk o.maxCauseDepth f) f) arrivals ∧
      ∀ before, (o.receive g f).Ends before (kept arrivals)
        (before ++ (g.walk o.maxCauseDepth f).warnings .deserialize ++
          (linksOrSelf (g.walk o.maxCauseDepth f) f).reverse.flatMap (o.entriesAt g)) := by
  obtain ⟨arrivals, harrivals⟩ := exists_forall₂ fun x hx =>
    exists_ends_errorOf (h.typedLink_of_mem o.maxCauseDepth x hx) (hdecode x hx)
  exact ⟨arrivals, harrivals.imp fun _ _ ha => ha.1, fun before =>
    ends_receive.2 ⟨_, h.wireWalk_eq_walk o.maxCauseDepth, ends_errorsOf (harrivals.imp fun _ _ ha => ha.2)⟩⟩

/-- All links of a chain are decoded, also those whose errors are dropped. -/
theorem decodes_of_ends_errorsOf : ∀ {links : List Value} {errors : List (ThrownError Document)}
    {before after : List LogEntry}, (∀ x ∈ links, g.TypedLink x) →
      (o.errorsOf g links).Ends before errors after →
        ∀ x ∈ links, ∀ p ∈ g.readPayloads x, o.codec.Decodes g p
  | [], _, _, _, _, _ => by simp
  | link :: rest, _, _, _, hlinks, h => by
    rw [errorsOf] at h
    obtain ⟨_, _, hrest, h⟩ := ends_bind.1 h
    obtain ⟨_, _, hlink, -⟩ := ends_bind.1 h
    intro x hx
    rcases List.mem_cons.1 hx with rfl | hx
    · exact decodes_of_ends_errorOf (hlinks _ (List.mem_cons_self ..)) hlink
    · exact decodes_of_ends_errorsOf (fun y hy => hlinks y (List.mem_cons_of_mem link hy)) hrest x hx

/-- The errors that are kept stand for the links up to the first one without a class. -/
theorem forall₂_kept {links : List Value} {arrivals : List (ThrownError Document × Bool)}
    (h : List.Forall₂ (o.IsDecoded g) links arrivals) :
    List.Forall₂ (fun x e => ∃ arrival, arrival.1 = e ∧ o.IsDecoded g x arrival)
      (links.take (links.findIdx (fun x => (g.classAt? x).isNone) + 1)) (kept arrivals) := by
  induction h with
  | nil => exact .nil
  | @cons x arrival links arrivals hx _ ih =>
    obtain ⟨e, mapped⟩ := arrival
    have hmapped : mapped = (g.classAt? x).isSome := hx.1
    rw [List.findIdx_cons, kept]
    cases hclass : g.classAt? x with
    | none =>
      rw [hclass] at hmapped
      subst hmapped
      exact .cons ⟨_, rfl, hx⟩ .nil
    | some c =>
      rw [hclass] at hmapped
      subst hmapped
      exact .cons ⟨_, rfl, hx⟩ ih

/-- What is reported of a link is not that the chain was cut. -/
theorem message_of_mem_entriesAt {entry : LogEntry} (h : entry ∈ o.entriesAt g x) :
    entry.message ≠ "Failure cause chain truncated" := by
  unfold entriesAt attributeEntries infoEntries at h
  rcases List.mem_append.1 h with h | h
  · split at h
    · rw [List.mem_singleton.1 h]
      decide
    · cases h
  · split at h
    · rw [List.mem_singleton.1 h]
      show "Decoding failure without mapped failure info" ≠ "Failure cause chain truncated"
      decide
    · cases h

/-- A value is the error that a link is decoded to: a failure of the class that the information of the link
names, or a plain one, which keeps the link and has its message and its stack trace. -/
def DecodedFrom (o : ConverterOptions) (g g' : Graph) (x v : Value) : Prop :=
  ∃ e f, g'.errorOf? v = some e ∧ e.failure? = some f ∧ e.errorClass = (g.classAt? x).getD .failure ∧
    f.stored = x ∧ e.message = (o.attributesAt g x).message ∧ f.stackTrace = (o.attributesAt g x).stackTrace

/-- An error that a link is decoded to is the error of the link wherever it is put. -/
theorem decodedFrom_of_raised {arrival : ThrownError Document × Bool} (h : o.IsDecoded g x arrival)
    (hv : g.Raised g' arrival.1 v) : o.DecodedFrom g g' x v := by
  obtain ⟨-, kind, display, hclass, harrival⟩ := h
  obtain ⟨cause, details, he, -⟩ := hv
  rw [harrival] at he
  refine ⟨_, _, he, rfl, ?_, rfl, rfl, rfl⟩
  rw [ThrownError.errorClass_map, ← hclass]
  rfl

end ConverterOptions

/-- **What a typed wire failure becomes.** Let the codec decode the payloads of all links that the walk along
causes meets. Then the failure becomes a finite chain of errors, one for each link up to the first one whose
information names no class. The walk is the one along causes of thrown values, and that it was cut is reported
once. -/
theorem typed_failures_decoded {o : ConverterOptions} {g : Graph} {f : Value} (h : g.TypedWire f)
    (hdecode : ∀ x ∈ ConverterOptions.linksOrSelf (g.walk o.maxCauseDepth f) f, ∀ p ∈ g.readPayloads x,
      o.codec.Decodes g p) :
    g.wireWalk o.maxCauseDepth f = .ok (g.walk o.maxCauseDepth f) ∧
    ∃ g' v vs reported,
      (o.failureToError g f).outcome =
        (.ok (g', v), (g.walk o.maxCauseDepth f).warnings .deserialize ++ reported) ∧
      (∀ entry ∈ reported, entry.message ≠ "Failure cause chain truncated") ∧
      g ≤ g' ∧ g'.CauseChain v vs ∧ g'.causeAt vs.length v = .undefined ∧
      List.Forall₂ (o.DecodedFrom g g')
        ((ConverterOptions.linksOrSelf (g.walk o.maxCauseDepth f) f).take
          ((ConverterOptions.linksOrSelf (g.walk o.maxCauseDepth f) f).findIdx
            (fun x => (g.classAt? x).isNone) + 1)) vs := by
  refine ⟨h.wireWalk_eq_walk o.maxCauseDepth, ?_⟩
  obtain ⟨arrivals, hdecoded, hreceive⟩ := ConverterOptions.exists_ends_receive h hdecode
  have hne := ConverterOptions.kept_ne_nil (ne_nil_of_forall₂ hdecoded (ConverterOptions.linksOrSelf_ne_nil _ f))
  have hplain := ConverterOptions.plain_of_kept
    (fun x a ⟨_, kind, display, _, ha⟩ => by rw [ha]; exact ⟨rfl, rfl⟩) hdecoded
  obtain ⟨vs, hchain, hraised⟩ := g.raised_addErrors hplain
  refine ⟨_, _, vs, _,
    Logged.outcome_eq_iff.2 (Logged.ends_bind.2 ⟨_, _, hreceive [], Logged.ends_pure.2 ⟨rfl, rfl⟩⟩),
    ?_, g.le_addErrors _, hchain, ?_, ?_⟩
  · intro entry hentry
    obtain ⟨x, -, hmem⟩ := List.mem_flatMap.1 hentry
    exact ConverterOptions.message_of_mem_entriesAt hmem
  · rw [← hraised.length_eq]
    exact g.causeAt_addErrors hne hplain
  · exact forall₂_comp (fun x e v ⟨arrival, he, hx⟩ hv => ConverterOptions.decodedFrom_of_raised hx (he ▸ hv))
      (ConverterOptions.forall₂_kept hdecoded) hraised

/-- Three wire failures, objects 9 to 11, of which the last one is caused by the first one again. The first and
the last one are cancellations with a detail, the second one has information of a case without a class. -/
def circularFailure : Graph :=
  ⟨[.bytes (Utf8.encode Payload.textEncoding.toList),
    .record [(Payload.encodingKey, .object 0)],
    .bytes (Utf8.encode "\x7b\"json\":\"o-7\"\x7d".toList),
    .record [("metadata", .object 1), ("data", .object 2)],
    .list [.object 3],
    .record [("payloads", .object 4)],
    .record [("details", .object 5)],
    .record [("case", .text "canceledFailureInfo"), ("value", .object 6)],
    .record [("case", .text "quotaFailureInfo")],
    .record [("message", .text "stopped"), ("failureInfo", .object 7), ("cause", .object 10)],
    .record [("message", .text "over quota"), ("failureInfo", .object 8), ("cause", .object 11)],
    .record [("message", .text "stopped before"), ("failureInfo", .object 7), ("cause", .object 9)]]⟩

theorem typedWire_circularFailure : circularFailure.TypedWire (.object 9) := by
  have hpayload : circularFailure.OfShape Schema.payload (.object 3) := by
    refine ⟨rfl, ⟨_, rfl, ?_⟩, ⟨_, rfl⟩, trivial⟩
    intro entry hentry
    rw [List.mem_singleton.1 hentry]
    exact ⟨_, rfl⟩
  have hpayloads : circularFailure.OfShape Schema.payloads (.object 5) := by
    refine ⟨rfl, ⟨_, rfl, ?_⟩, trivial⟩
    intro p hp
    rwa [List.mem_singleton.1 hp]
  have hcancelled : circularFailure.TypedInfo (.object 7) := by
    refine .inr ⟨rfl, ?_⟩
    rintro s ⟨⟩
    exact ⟨rfl, .inr hpayloads, trivial⟩
  have hlater : circularFailure.TypedInfo (.object 8) := by
    refine .inr ⟨rfl, ?_⟩
    rintro s ⟨⟩
  refine Graph.typedWire_of_closed [.object 9, .object 10, .object 11] ?_ ?_ _ (List.mem_cons_self ..)
  · intro x hx
    simp only [List.mem_cons, List.not_mem_nil, or_false] at hx
    rcases hx with rfl | rfl | rfl
    · exact ⟨rfl, ⟨⟨_, rfl⟩, .inl rfl, .inl rfl, .inl rfl, trivial⟩, hcancelled⟩
    · exact ⟨rfl, ⟨⟨_, rfl⟩, .inl rfl, .inl rfl, .inl rfl, trivial⟩, hlater⟩
    · exact ⟨rfl, ⟨⟨_, rfl⟩, .inl rfl, .inl rfl, .inl rfl, trivial⟩, hcancelled⟩
  · intro x hx
    simp only [List.mem_cons, List.not_mem_nil, or_false] at hx
    rcases hx with rfl | rfl | rfl <;> exact .inr (by decide)

theorem walk_circularFailure : circularFailure.walk ({} : ConverterOptions).maxCauseDepth (.object 9) =
    ⟨[.object 9, .object 10, .object 11], true⟩ := by decide +kernel

/-- The only payload that is decoded for the circular failure holds payload text. -/
theorem decodes_circularFailure :
    ∀ x ∈ ConverterOptions.linksOrSelf ⟨[.object 9, .object 10, .object 11], true⟩ (.object 9),
      ∀ p ∈ circularFailure.readPayloads x, Codec.standard.Decodes circularFailure p := by
  have hread : ∀ x ∈ ConverterOptions.linksOrSelf ⟨[.object 9, .object 10, .object 11], true⟩ (.object 9),
      ∀ p ∈ circularFailure.readPayloads x, p = .object 3 := by decide +kernel
  intro x hx p hp
  rw [hread x hx p hp]
  rintro q ⟨⟩
  exact ⟨.value (.text "o-7"), Codec.textIn?_eq_some.1 (by decide +kernel)⟩

/-- The circular failure becomes two errors: the link behind the second one is decoded, and dropped. -/
theorem typed_failures_decoded_circularFailure :
    ∃ g' v vs reported, (({} : ConverterOptions).failureToError circularFailure (.object 9)).outcome =
        (.ok (g', v), (⟨[.object 9, .object 10, .object 11], true⟩ : Chain).warnings .deserialize ++ reported) ∧
      circularFailure ≤ g' ∧ g'.CauseChain v vs ∧
        List.Forall₂ (({} : ConverterOptions).DecodedFrom circularFailure g') [.object 9, .object 10] vs := by
  have hwalk := walk_circularFailure
  obtain ⟨-, g', v, vs, reported, houtcome, -, hle, hchain, -, hdecoded⟩ :=
    typed_failures_decoded (o := {}) typedWire_circularFailure (by
      rw [hwalk]
      exact decodes_circularFailure)
  rw [hwalk] at houtcome hdecoded
  exact ⟨g', v, vs, reported, houtcome, hle, hchain, hdecoded⟩

end FailureWire
