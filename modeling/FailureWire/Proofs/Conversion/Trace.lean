import FailureWire.Proofs.Conversion.Decoding
import FailureWire.Proofs.Value.Order

/-!
# What is reported of decoding

What the logger is told by `failureToError`, in order: that the chain was cut, if it was; then, from the innermost
link outwards, that the attributes of a link could not be decoded, and that its information names no class. The trace
of a chain is written down here from the links alone (`ConverterOptions.trace`), and `decoding_reports_trace` says
that decoding reports exactly this. Links that are dropped from the result are reported all the same.
-/

namespace FailureWire

/-! ## Attributes that hold a message -/

/-- Whether a document is an object with a message that is a text. -/
def Graph.holdsMessage (g : Graph) (d : Document) : Bool :=
  match d with
  | .record fields => ((Fields.get? fields "message").bind Document.text?).isSome
  | .error _ message _ _ => message.text?.isSome
  | .existing v => (g.read v "message").text?.isSome
  | _ => false

theorem CommonAttributes.isSome_ofDocument? (g : Graph) (d : Document) :
    (ofDocument? g d).isSome = g.holdsMessage d := by
  cases d with
  | record fields =>
    simp only [ofDocument?, Graph.holdsMessage]
    cases Fields.get? fields "message" with
    | none => rfl
    | some d => cases d <;> rfl
  | error name message cause stack => cases message <;> rfl
  | existing v => exact Option.isSome_map
  | undefined | null | bool | number | text | big | list | sparse | set | map | date | pattern | bytes | numbers
  | boxed | again => rfl

/-! ## The trace of a chain -/

/-- The cases of failure information that name a class of errors. -/
def mappedCases : List String :=
  ["applicationFailureInfo", "timeoutFailureInfo", "canceledFailureInfo", "terminatedFailureInfo",
    "serverFailureInfo", "activityFailureInfo", "childWorkflowExecutionFailureInfo"]

namespace Graph

variable {g : Graph} {x : Value}

/-- The case of the information of a link. -/
def caseAt (g : Graph) (x : Value) : Value := g.read (g.read x "failureInfo") "case"

/-- Whether the information of a link is of a case that names a class of errors. -/
def isMapped (g : Graph) (x : Value) : Bool := mappedCases.any fun name => g.caseAt x = .text name

theorem isSome_classAt? (g : Graph) (x : Value) : (g.classAt? x).isSome = g.isMapped x := by
  unfold classAt? isMapped caseAt
  generalize g.read (g.read x "failureInfo") "case" = case
  cases case with
  | text s =>
    rw [Bool.eq_iff_iff, List.any_eq_true, classOfCase?, Value.text?, Option.bind_some,
      ← Option.ne_none_iff_isSome, Ne, Fields.get?_eq_none_iff, not_not, Fields.names]
    show s ∈ mappedCases ↔ _
    simp only [decide_eq_true_eq, Value.text.injEq, exists_eq_right']
  | undefined | null | bool | number | big | object => rfl

end Graph

namespace ConverterOptions

variable {o : ConverterOptions} {g : Graph} {x : Value}

/-- Whether a link has encoded attributes that do not decode to an object with a message. -/
def ignoresAttributes (o : ConverterOptions) (g : Graph) (x : Value) : Bool :=
  g.read x "encodedAttributes" ≠ .undefined &&
    match o.codec.decodeValue g (g.read x "encodedAttributes") with
    | .ok d => !g.holdsMessage d
    | .error _ => true

/-- The trace of a link: a warning that its encoded attributes are ignored, if they are, and then a note of the
case of its information, if that names no class. -/
def traceOf (o : ConverterOptions) (g : Graph) (x : Value) : List LogEntry :=
  (if o.ignoresAttributes g x then [⟨.warn, "Ignoring undecodable encoded failure attributes", none⟩] else []) ++
    if g.isMapped x then []
    else [⟨.debug, "Decoding failure without mapped failure info",
      some (.record [("failureInfoCase",
        .existing (if (g.caseAt x).isMissing then .text "none" else g.caseAt x))])⟩]

/-- The trace of a chain: a warning that it was cut, if it was, and then the traces of all links, from the innermost
one outwards. -/
def trace (o : ConverterOptions) (g : Graph) (cut : Bool) (walked : Nat) (links : List Value) : List LogEntry :=
  (if cut then [⟨.warn, "Failure cause chain truncated",
      some (.record [("direction", .text "deserialize"), ("depth", .number (.ofInt walked))])⟩]
    else []) ++ links.reverse.flatMap (o.traceOf g)

/-- **Encoded attributes that are there are ignored exactly if none are read from them.** -/
theorem ignoresAttributes_eq (hx : g.TypedLink x) : o.ignoresAttributes g x =
    ((g.truthyAt x "encodedAttributes").isSome && (o.decodedAttributes? g x).isNone) := by
  have hattributes : g.OfShape (.optional Schema.payload) (g.read x "encodedAttributes") :=
    hx.leading.read (by simp [WireFormat.leading])
  unfold ignoresAttributes decodedAttributes? Graph.truthyAt
  rcases hattributes with hnone | hpayload
  · rw [hnone]
    rfl
  · obtain ⟨hkeyed, -⟩ := hpayload
    obtain ⟨id, n, hid, -⟩ := Graph.objectOf?_of_isKeyed hkeyed
    rw [hid]
    simp only [Option.filter_some, Value.isTruthy, if_true, Option.isSome_some, Option.bind_some, Bool.true_and, ne_eq,
      reduceCtorEq, not_false_eq_true, decide_true]
    cases o.codec.decodeValue g (.object id) with
    | error => rfl
    | ok d =>
      dsimp only
      rw [← CommonAttributes.isSome_ofDocument?, Option.not_isSome]

theorem entriesAt_eq_traceOf (hx : g.TypedLink x) : o.entriesAt g x = o.traceOf g x := by
  unfold entriesAt attributeEntries infoEntries traceOf
  rw [ignoresAttributes_eq hx, ← Graph.isSome_classAt?]
  congr 1
  cases g.classAt? x <;> rfl

theorem warnings_append_entries {c : Chain} {links : List Value} (hlinks : ∀ x ∈ links, g.TypedLink x) :
    c.warnings .deserialize ++ links.reverse.flatMap (o.entriesAt g) =
      o.trace g c.truncated c.links.length links := by
  have hentries : links.reverse.flatMap (o.entriesAt g) = links.reverse.flatMap (o.traceOf g) :=
    List.flatMap_congr fun x hx => entriesAt_eq_traceOf (hlinks x (List.mem_reverse.1 hx))
  rw [hentries]
  rfl

end ConverterOptions

/-- **Decoding reports the trace of the chain.** Let the codec decode the payloads of the links that the walk along
the causes of a typed wire failure meets, or of the failure itself if the walk may take no link. Then decoding
reports the trace of these links and nothing else. Behind the first link whose information names no class nothing
is kept: the errors are those of the links up to that one. -/
theorem decoding_reports_trace {o : ConverterOptions} {g : Graph} {f : Value} (h : g.TypedWire f)
    (hdecode : ∀ x ∈ ConverterOptions.linksOrSelf (g.walk o.maxCauseDepth f) f, ∀ p ∈ g.readPayloads x,
      o.codec.Decodes g p) :
    ∃ chain links, g.wireWalk o.maxCauseDepth f = .ok chain ∧
      links = (if chain.links = [] then [f] else chain.links) ∧
      ∃ g' v vs, (o.failureToError g f).outcome =
          (.ok (g', v), o.trace g chain.truncated chain.links.length links) ∧
        g'.CauseChain v vs ∧ g'.causeAt vs.length v = .undefined ∧
        List.Forall₂ (o.DecodedFrom g g') (links.take (links.findIdx (fun x => !g.isMapped x) + 1)) vs := by
  obtain ⟨arrivals, hdecoded, hreceive⟩ := ConverterOptions.exists_ends_receive h hdecode
  have htyped := h.typedLink_of_mem o.maxCauseDepth
  have hlinks : ConverterOptions.linksOrSelf (g.walk o.maxCauseDepth f) f =
      if (g.walk o.maxCauseDepth f).links = [] then [f] else (g.walk o.maxCauseDepth f).links := by
    simp only [ConverterOptions.linksOrSelf, List.isEmpty_iff]
  rw [hlinks] at hdecoded hreceive htyped
  generalize hall : (if (g.walk o.maxCauseDepth f).links = [] then [f] else (g.walk o.maxCauseDepth f).links) = links
    at hdecoded hreceive htyped hlinks
  have hne := ConverterOptions.kept_ne_nil (ne_nil_of_forall₂ hdecoded (by
    rw [← hlinks]
    exact ConverterOptions.linksOrSelf_ne_nil _ f))
  have hplain : ∀ e ∈ ConverterOptions.kept arrivals, e.cause = none ∧ e.extra = [] := by
    refine ConverterOptions.plain_of_kept ?_ hdecoded
    rintro x a ⟨-, kind, display, -, ha⟩
    rw [ha]
    exact ⟨rfl, rfl⟩
  obtain ⟨vs, hchain, hraised⟩ := g.raised_addErrors hplain
  have hends := hreceive []
  rw [List.nil_append, ConverterOptions.warnings_append_entries htyped] at hends
  refine ⟨_, _, h.wireWalk_eq_walk o.maxCauseDepth, hall.symm, _, _, vs,
    Logged.outcome_eq_iff.2 (Logged.ends_bind.2 ⟨_, _, hends, Logged.ends_pure.2 ⟨rfl, rfl⟩⟩), hchain, ?_, ?_⟩
  · rw [← hraised.length_eq]
    exact g.causeAt_addErrors hne hplain
  · have hunmapped : (fun x => !g.isMapped x) = fun x => (g.classAt? x).isNone :=
      funext fun x => by rw [← Graph.isSome_classAt?, Option.not_isSome]
    rw [hunmapped]
    refine forall₂_comp ?_ (ConverterOptions.forall₂_kept hdecoded) hraised
    rintro x _ v ⟨arrival, rfl, hx⟩ hv
    exact ConverterOptions.decodedFrom_of_raised hx hv

/-- Three wire failures, objects 6 to 8, of which the last one is caused by the first one again. The outermost one
and the innermost one have attributes in a foreign encoding, and only the outermost one has information that names
a class. -/
def foreignAttributes : Graph :=
  ⟨[.bytes [120],
    .record [(Payload.encodingKey, .object 0)],
    .record [("metadata", .object 1), ("data", .object 0)],
    .record [("nonRetryable", .bool true)],
    .record [("case", .text "serverFailureInfo"), ("value", .object 3)],
    .record [("case", .text "quotaFailureInfo")],
    .record [("message", .text "request failed"), ("encodedAttributes", .object 2), ("failureInfo", .object 4),
      ("cause", .object 7)],
    .record [("message", .text "over quota"), ("failureInfo", .object 5), ("cause", .object 8)],
    .record [("message", .text "stopped"), ("encodedAttributes", .object 2), ("cause", .object 6)]]⟩

theorem typedWire_foreignAttributes : foreignAttributes.TypedWire (.object 6) := by
  have hpayload : foreignAttributes.OfShape Schema.payload (.object 2) := by
    refine ⟨rfl, ⟨_, rfl, ?_⟩, ⟨_, rfl⟩, trivial⟩
    intro entry hentry
    rw [List.mem_singleton.1 hentry]
    exact ⟨_, rfl⟩
  have hserver : foreignAttributes.TypedInfo (.object 4) := by
    refine .inr ⟨rfl, ?_⟩
    rintro s ⟨⟩
    exact ⟨rfl, ⟨_, rfl⟩, trivial⟩
  have hquota : foreignAttributes.TypedInfo (.object 5) := by
    refine .inr ⟨rfl, ?_⟩
    rintro s ⟨⟩
  refine Graph.typedWire_of_closed [.object 6, .object 7, .object 8] ?_ ?_ _ (List.mem_cons_self ..)
  · intro x hx
    simp only [List.mem_cons, List.not_mem_nil, or_false] at hx
    rcases hx with rfl | rfl | rfl
    · exact ⟨rfl, ⟨⟨_, rfl⟩, .inl rfl, .inl rfl, .inr hpayload, trivial⟩, hserver⟩
    · exact ⟨rfl, ⟨⟨_, rfl⟩, .inl rfl, .inl rfl, .inl rfl, trivial⟩, hquota⟩
    · exact ⟨rfl, ⟨⟨_, rfl⟩, .inl rfl, .inl rfl, .inr hpayload, trivial⟩, .inl rfl⟩
  · intro x hx
    simp only [List.mem_cons, List.not_mem_nil, or_false] at hx
    rcases hx with rfl | rfl | rfl <;> exact .inr (by decide)

theorem walk_foreignAttributes : foreignAttributes.walk ({} : ConverterOptions).maxCauseDepth (.object 6) =
    ⟨[.object 6, .object 7, .object 8], true⟩ := by decide +kernel

/-- Five entries about three links: the innermost link is dropped, and is reported first. -/
theorem decoding_reports_trace_foreignAttributes :
    ∃ g' v vs, (({} : ConverterOptions).failureToError foreignAttributes (.object 6)).outcome =
        (.ok (g', v),
          [⟨.warn, "Failure cause chain truncated",
              some (.record [("direction", .text "deserialize"), ("depth", .number (.ofInt 3))])⟩,
            ⟨.warn, "Ignoring undecodable encoded failure attributes", none⟩,
            ⟨.debug, "Decoding failure without mapped failure info",
              some (.record [("failureInfoCase", .existing (.text "none"))])⟩,
            ⟨.debug, "Decoding failure without mapped failure info",
              some (.record [("failureInfoCase", .existing (.text "quotaFailureInfo"))])⟩,
            ⟨.warn, "Ignoring undecodable encoded failure attributes", none⟩]) ∧
      g'.CauseChain v vs ∧ vs.length = 2 := by
  have hwalk := walk_foreignAttributes
  have hread : ∀ x ∈ ConverterOptions.linksOrSelf ⟨[.object 6, .object 7, .object 8], true⟩ (.object 6),
      ∀ p ∈ foreignAttributes.readPayloads x, p = .object 2 := by decide +kernel
  obtain ⟨chain, links, hchain, rfl, g', v, vs, houtcome, hcauses, -, hdecoded⟩ :=
    decoding_reports_trace (o := {}) typedWire_foreignAttributes (by
      rw [hwalk]
      intro x hx p hp
      rw [hread x hx p hp]
      rintro q ⟨⟩
      exact ⟨.itself, rfl⟩)
  rw [typedWire_foreignAttributes.wireWalk_eq_walk, hwalk] at hchain
  cases hchain
  exact ⟨g', v, vs, houtcome, hcauses, hdecoded.length_eq.symm⟩

end FailureWire
