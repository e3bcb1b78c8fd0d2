import FailureWire.Proofs.Conversion.Written

/-!
# What reuse lets through

An error that was decoded keeps its wire failure, and a converter with `reuseStoredFailure` ends the chain that it
emits in the first one that it meets, as it is. Two guarantees stop there. Where messages and stack traces are to be
encoded, no plain text leaves with the links in front of that failure, but the failure itself may have been written by
somebody who did not encode (`declinedCard_sent_plain`). And the links in front of it are no more than the depth
allows for, but the failure may be its own cause (`lateCycle_sent_as_cycle`).

Both theorems say what holds of every chain that is emitted: `derived_links_conceal` and
`derived_links_bounded`. Where nothing is reused, they are about the whole chain.
-/

namespace FailureWire

namespace Graph

/-- From a value, certain values are met first. Then comes the wire failure that is reused, and whatever it leads
to; without one there is nothing more. -/
def LeadsOn (g : Graph) (w : Value) (ws : List Value) : Option Value → Prop
  | none => g.CauseChain w ws
  | some f => g.CausePath w (ws ++ [f]) ∧ ∀ fs, g.CauseChain w (ws ++ fs) ↔ g.CauseChain f fs

theorem CausePath.leadsOn {g : Graph} {w : Value} {ws : List Value} {stored : Option Value}
    (h : g.CausePath w ws) (hws : ∀ x ∈ ws, x.isMissing = false)
    (hend : g.causeAt ws.length w = .ofOption stored) : g.LeadsOn w ws stored := by
  cases stored with
  | none =>
    have hchain : g.CauseChain w (ws ++ []) := (h.chain_append_iff hws).2 (.done (by rw [hend]; rfl))
    rwa [List.append_nil] at hchain
  | some f =>
    refine ⟨h.append (by rw [hend]; exact .cons (.nil _)), fun fs => ?_⟩
    rw [h.chain_append_iff hws, hend]
    rfl

/-- A value whose cause it is itself has no finite chain. -/
theorem not_causeChain_of_cycle {g : Graph} {v : Value} (hv : v.isMissing = false) (hcause : g.causeOf v = v)
    (vs : List Value) : ¬ g.CauseChain v vs := by
  intro h
  cases h with
  | done hmissing => simp [hv] at hmissing
  | @link _ rest _ hrest =>
    rw [hcause] at hrest
    have hlength := congrArg List.length ((CauseChain.link hv (by rwa [hcause])).unique hrest)
    simp at hlength

end Graph

namespace ConverterOptions

variable {o : ConverterOptions} {g g' : Graph} {v : Value}

/-- The wire failure that ends the chain for failures: what the first one that keeps a wire failure keeps, if
such failures are reused. -/
def reusedFailure {δ : Type} (o : ConverterOptions) (errors : List (ThrownError δ)) : Option Value :=
  if o.reuseStoredFailure then errors.findSome? ThrownError.stored? else none

theorem stored?_getElem?_derivedCount {δ : Type} (o : ConverterOptions) (errors : List (ThrownError δ)) :
    (errors[o.derivedCount errors]?).bind ThrownError.stored? = o.reusedFailure errors := by
  unfold derivedCount reusedFailure
  by_cases hreuse : o.reuseStoredFailure = true
  · rw [if_pos hreuse, if_pos hreuse]
    induction errors with
    | nil => rfl
    | cons e rest ih =>
      rw [List.findIdx_cons, List.findSome?_cons]
      cases hs : e.stored? with
      | none => simpa using ih
      | some w => simp [hs]
  · simp [hreuse]

theorem derivedCount_of_reusedFailure {δ : Type} {errors : List (ThrownError δ)}
    (h : o.reusedFailure errors = none) : o.derivedCount errors = errors.length := by
  unfold reusedFailure at h
  unfold derivedCount
  by_cases hreuse : o.reuseStoredFailure = true
  · rw [if_pos hreuse, List.findSome?_eq_none_iff] at h
    rw [if_pos hreuse, List.findIdx_eq_length]
    intro e he
    simp [h e he]
  · rw [if_neg hreuse]

/-- A failure whose wire failure is reused is one more than those that become links. -/
theorem derivedCount_lt {δ : Type} {errors : List (ThrownError δ)} {f : Value}
    (h : o.reusedFailure errors = some f) : o.derivedCount errors < errors.length := by
  rw [← stored?_getElem?_derivedCount] at h
  obtain ⟨e, he, -⟩ := Option.bind_eq_some_iff.1 h
  exact (List.getElem?_eq_some_iff.1 he).1

/-- A link is something, for it has information. -/
theorem IsLinkOf.isMissing {e : ThrownError Document} {x : Value} (h : o.IsLinkOf g g' e x) :
    x.isMissing = false := by
  obtain ⟨f, info, -, -, -, hshown⟩ := h.info
  have hobject : ∃ id, g'.read x "failureInfo" = .object id := by
    cases info <;> exact (g'.reading_shows g.size).isObject hshown
  obtain ⟨id, hid⟩ := hobject
  cases x <;> first | rfl | cases hid

/-- A chain for failures is met along causes. -/
theorem IsChainOf.leadsOn {errors : List (ThrownError Document)} {stored : Option Value} {w : Value}
    (h : o.IsChainOf g g' errors stored w) :
    ∃ ws, List.Forall₂ (o.IsLinkOf g g') errors ws ∧ g'.LeadsOn w ws stored := by
  have hway : ∃ ws, List.Forall₂ (o.IsLinkOf g g') errors ws ∧ g'.CausePath w ws ∧
      (∀ x ∈ ws, x.isMissing = false) ∧ g'.causeAt ws.length w = .ofOption stored := by
    induction h with
    | stored w => exact ⟨[], .nil, .nil _, by simp, rfl⟩
    | @last e x hx hcause =>
      refine ⟨[x], .cons hx .nil, .cons (.nil _), ?_, Graph.read_eq_undefined hcause⟩
      simpa using hx.isMissing
    | @link e rest stored x c hx hcause _ ih =>
      obtain ⟨ws, hlinks, hpath, hws, hend⟩ := ih
      obtain rfl : g'.causeOf x = c := Graph.read_eq_of_get? hcause
      exact ⟨x :: ws, .cons hx hlinks, .cons hpath, List.forall_mem_cons.2 ⟨hx.isMissing, hws⟩, hend⟩
  obtain ⟨ws, hlinks, hpath, hws, hend⟩ := hway
  exact ⟨ws, hlinks, hpath.leadsOn hws hend⟩

/-- **What can be written is emitted as links, which lead on to the wire failure that is reused.** -/
theorem exists_derived_links (h : ∀ x ∈ linksOrSelf (g.walk o.maxCauseDepth v) v, o.CanWrite g x) :
    ∃ errors g' w ws,
      List.Forall₂ (fun x e => g.toFailure o.frames x = .ok e) (linksOrSelf (g.walk o.maxCauseDepth v) v) errors ∧
      (o.errorToFailure g v).outcome.1 = .ok (g', w) ∧
      List.Forall₂ (o.IsLinkOf g g') (errors.take (o.derivedCount errors)) ws ∧
      g'.LeadsOn w ws (o.reusedFailure errors) := by
  obtain ⟨errors, emitted, hmade, hemit, hchain⟩ := exists_emitted_of_canWrite h
  rw [stored?_getElem?_derivedCount] at hchain
  obtain ⟨ws, hlinks, hlead⟩ := hchain.leadsOn
  exact ⟨errors, _, _, ws, hmade, errorToFailure_of_emitErrors (FailureWire.Except.mapM_eq_ok.2 hmade) hemit,
    hlinks, hlead⟩

/-- An error of the host with texts to show can be written if its attributes can be encoded. -/
theorem canWrite_of_host {x : Value} {e : ThrownError Value} (he : g.errorOf? x = some e)
    (hhost : e.failure? = none) (hname : g.HasText e.name) (hmessage : g.HasText e.message)
    (hattributes : o.encodeCommonAttributes = true → ∀ e, g.toFailure o.frames x = .ok e →
      ∃ a, o.codec.encodeAttributes g e.message (o.stackTraceOf g e) = .ok a) : o.CanWrite g x := by
  refine ⟨?_, ?_, ?_, ?_, hattributes⟩
  · intro e' he' _
    obtain rfl : e = e' := Option.some.inj (he.symm.trans he')
    exact ⟨hname, hmessage⟩
  · intro e' w he' hw
    obtain rfl : e = e' := Option.some.inj (he.symm.trans he')
    simp [ThrownError.stored?, hhost] at hw
  · intro e' f ds he' hf
    obtain rfl : e = e' := Option.some.inj (he.symm.trans he')
    simp [hhost] at hf
  · intro e' f ms he' hf
    obtain rfl : e = e' := Option.some.inj (he.symm.trans he')
    simp [hhost] at hf

/-- A failure of the server that was decoded can be written if its attributes can be encoded. -/
theorem canWrite_of_server {x nonRetryable : Value} {e : ThrownError Value} {f : FailureFields Value}
    (he : g.errorOf? x = some e) (hf : e.failure? = some f) (hkind : f.kind = .server nonRetryable)
    (hstored : f.stored.isTruthy = true)
    (hattributes : o.encodeCommonAttributes = true → ∀ e, g.toFailure o.frames x = .ok e →
      ∃ a, o.codec.encodeAttributes g e.message (o.stackTraceOf g e) = .ok a) : o.CanWrite g x := by
  refine ⟨?_, ?_, ?_, ?_, hattributes⟩
  · intro e' he' hhost
    obtain rfl : e = e' := Option.some.inj (he.symm.trans he')
    simp [hf] at hhost
  · intro e' w he' hw
    obtain rfl : e = e' := Option.some.inj (he.symm.trans he')
    rw [ThrownError.stored?, hf, Option.bind_some, Value.defined?] at hw
    split at hw <;> cases hw
    exact hstored
  · intro e' f' ds he' hf' hds
    obtain rfl : e = e' := Option.some.inj (he.symm.trans he')
    obtain rfl : f = f' := Option.some.inj (hf.symm.trans hf')
    simp [hkind, FailureKind.details?] at hds
  · intro e' f' ms he' hf' hms
    obtain rfl : e = e' := Option.some.inj (he.symm.trans he')
    obtain rfl : f = f' := Option.some.inj (hf.symm.trans hf')
    simp [hkind, FailureKind.nextRetryDelay?] at hms

/-! ## Texts that are encoded -/

/-- A link conceals the message and the stack trace of a failure: both are in a payload, and neither is in its
place. -/
structure Conceals (o : ConverterOptions) (g g' : Graph) (e : ThrownError Document) (x : Value) : Prop where
  message : g'.read x "message" = .text encodedMessage
  stackTrace : g'.read x "stackTrace" = .text ""
  present : (g'.read x "encodedAttributes").isTruthy = true
  attributes : ∃ a, o.codec.encodeAttributes g e.message (o.stackTraceOf g e) = .ok a ∧
    g'.Shows g.size a (g'.read x "encodedAttributes")

theorem IsLinkOf.conceals {e : ThrownError Document} {x : Value} (hencode : o.encodeCommonAttributes = true)
    (h : o.IsLinkOf g g' e x) : o.Conceals g g' e x := by
  obtain ⟨hmessage, hstack, a, ha, hshown⟩ := h.encoded hencode
  exact ⟨hmessage, hstack, isTruthy_of_encodeAttributes ha hshown, a, ha, hshown⟩

end ConverterOptions

/-- **The links that are derived conceal their texts.** Messages and stack traces are to be encoded, and what is
thrown can be written. Then every failure that becomes a link has its message and its stack trace in a payload of
the link only. The links are the whole chain unless a wire failure is reused, and else all that stands in front
of it. -/
theorem derived_links_conceal {o : ConverterOptions} {g : Graph} {v : Value}
    (hencode : o.encodeCommonAttributes = true)
    (h : ∀ x ∈ ConverterOptions.linksOrSelf (g.walk o.maxCauseDepth v) v, o.CanWrite g x) :
    ∃ errors g' w ws,
      List.Forall₂ (fun x e => g.toFailure o.frames x = .ok e)
        (ConverterOptions.linksOrSelf (g.walk o.maxCauseDepth v) v) errors ∧
      (o.errorToFailure g v).outcome.1 = .ok (g', w) ∧
      List.Forall₂ (o.Conceals g g') (errors.take (o.derivedCount errors)) ws ∧
      g'.LeadsOn w ws (o.reusedFailure errors) ∧
      (o.reusedFailure errors = none → errors.take (o.derivedCount errors) = errors) := by
  obtain ⟨errors, g', w, ws, hmade, hsent, hlinks, hlead⟩ := ConverterOptions.exists_derived_links h
  refine ⟨errors, g', w, ws, hmade, hsent, hlinks.imp fun _ _ hx => hx.conceals hencode, hlead, ?_⟩
  intro hnone
  rw [ConverterOptions.derivedCount_of_reusedFailure hnone, List.take_length]

/-- A wire failure without encoded attributes, as object 2, and the error that it was decoded to, as object 3. -/
def declinedCard : Graph :=
  ⟨[.record [("nonRetryable", .bool true)],
    .record [("case", .text "serverFailureInfo"), ("value", .object 0)],
    .record [("message", .text "card declined"), ("source", .text "TypeScriptSDK"), ("stackTrace", .text ""),
      ("failureInfo", .object 1)],
    .error <| .build (.server (.bool true)) (.text "card declined") (.text "card declined")
      { stored := .object 2, stackTrace := .text "" }]⟩

/-- An error of the host around it, as object 4. -/
def unpaidOrder : Graph :=
  ⟨declinedCard.nodes ++ [.error <| .raise [] (.host false) (.text "order failed") (some (.object 3))]⟩

/-- The link for the error of the host conceals its text, and the wire failure follows it. -/
theorem derived_links_conceal_unpaidOrder :
    ∃ e g w x,
      unpaidOrder.toFailure .none (.object 4) = .ok e ∧
      (({ encodeCommonAttributes := true } : ConverterOptions).errorToFailure unpaidOrder (.object 4)).outcome.1 =
        .ok (g, w) ∧
      ({ encodeCommonAttributes := true } : ConverterOptions).Conceals unpaidOrder g e x ∧
      g.LeadsOn w [x] (some (.object 2)) := by
  have hwalk : unpaidOrder.walk ({ encodeCommonAttributes := true } : ConverterOptions).maxCauseDepth (.object 4) =
      ⟨[.object 4, .object 3], false⟩ := by decide +kernel
  have hcard : ({ encodeCommonAttributes := true } : ConverterOptions).CanWrite unpaidOrder (.object 3) :=
    ConverterOptions.canWrite_of_server rfl rfl rfl rfl (by
      rintro - e ⟨⟩
      exact ⟨_, rfl⟩)
  have horder : ({ encodeCommonAttributes := true } : ConverterOptions).CanWrite unpaidOrder (.object 4) :=
    ConverterOptions.canWrite_of_host rfl rfl ⟨_, rfl⟩ ⟨_, rfl⟩ (by
      rintro - e ⟨⟩
      exact ⟨_, rfl⟩)
  obtain ⟨errors, g, w, ws, hmade, hsent, hlinks, hlead, -⟩ :=
    derived_links_conceal (o := { encodeCommonAttributes := true }) (g := unpaidOrder) (v := .object 4) rfl (by
      rw [hwalk]
      simpa [ConverterOptions.linksOrSelf] using ⟨horder, hcard⟩)
  rw [hwalk] at hmade
  rcases hmade with _ | ⟨h₁, _ | ⟨h₂, _ | _⟩⟩
  cases h₁
  cases h₂
  rcases hlinks with _ | ⟨hx, _ | _⟩
  exact ⟨_, g, w, _, rfl, hsent, hx, hlead⟩

/-- **A reused wire failure keeps its text.** The codec can encode all there is to encode for the decoded error,
and messages are to be encoded; still the chain that is emitted is the wire failure, with its plain message. -/
theorem declinedCard_sent_plain :
    (({} : ConverterOptions).failureToError ⟨declinedCard.nodes.take 3⟩ (.object 2)).outcome.1 =
      .ok (declinedCard, .object 3) ∧
    (∀ x ∈ ConverterOptions.linksOrSelf
      (declinedCard.walk ({ encodeCommonAttributes := true } : ConverterOptions).maxCauseDepth (.object 3))
      (.object 3), ({ encodeCommonAttributes := true } : ConverterOptions).CanWrite declinedCard x) ∧
    (({ encodeCommonAttributes := true } : ConverterOptions).errorToFailure declinedCard (.object 3)).outcome.1 =
      .ok (declinedCard, .object 2) ∧
    declinedCard.read (.object 2) "message" = .text "card declined" ∧
    declinedCard.get? (.object 2) "encodedAttributes" = none := by
  have hwalk : declinedCard.walk ({ encodeCommonAttributes := true } : ConverterOptions).maxCauseDepth (.object 3) =
      ⟨[.object 3], false⟩ := by decide +kernel
  refine ⟨rfl, ?_, rfl, rfl, rfl⟩
  rw [hwalk]
  intro x hx
  obtain rfl : x = .object 3 := List.mem_singleton.1 hx
  exact ConverterOptions.canWrite_of_server rfl rfl rfl rfl (by
    rintro - e ⟨⟩
    exact ⟨_, rfl⟩)

/-! ## Chains that are bounded -/

/-- **The links that are derived are bounded.** What is thrown can be written, be its causes a cycle. Then the
failures that become links are, together with the one whose wire failure is reused, no more than the depth allows
for, and at least one. Without a reused wire failure the links are the whole chain, which is finite; else the
chain goes on as that of the wire failure does. -/
theorem derived_links_bounded {o : ConverterOptions} {g : Graph} {v : Value}
    (h : ∀ x ∈ ConverterOptions.linksOrSelf (g.walk o.maxCauseDepth v) v, o.CanWrite g x) :
    ∃ errors g' w ws,
      List.Forall₂ (fun x e => g.toFailure o.frames x = .ok e)
        (ConverterOptions.linksOrSelf (g.walk o.maxCauseDepth v) v) errors ∧
      (o.errorToFailure g v).outcome.1 = .ok (g', w) ∧
      List.Forall₂ (o.IsLinkOf g g') (errors.take (o.derivedCount errors)) ws ∧
      g'.LeadsOn w ws (o.reusedFailure errors) ∧
      ∀ n, o.maxCauseDepth = .atMost n → (ws ++ (o.reusedFailure errors).toList).length ≤ max 1 n := by
  obtain ⟨errors, g', w, ws, hmade, hsent, hlinks, hlead⟩ := ConverterOptions.exists_derived_links h
  refine ⟨errors, g', w, ws, hmade, hsent, hlinks, hlead, ?_⟩
  intro n hdepth
  have hwalked := ConverterOptions.length_linksOrSelf_le g o.maxCauseDepth v
  have hlimit : o.maxCauseDepth.linksIn g = n := by rw [hdepth, Depth.linksIn]
  rw [hlimit] at hwalked
  have herrors := hmade.length_eq
  have hderived := hlinks.length_eq
  rw [List.length_take] at hderived
  rw [List.length_append]
  cases hreused : o.reusedFailure errors with
  | none =>
    rw [Option.toList_none, List.length_nil]
    omega
  | some f =>
    have hlt := ConverterOptions.derivedCount_lt hreused
    rw [Option.toList_some, List.length_singleton]
    omega

/-- Two errors of the host, each of which is the cause of the other. -/
def blamedErrors : Graph :=
  ⟨[.error <| .raise [] (.host false) (.text "giving up") (some (.object 1)),
    .error <| .raise [] (.host false) (.text "too late") (some (.object 0))]⟩

/-- At a depth of two links, the chain for the two errors has two links and an end. -/
theorem derived_links_bounded_blamedErrors :
    ∃ g w ws,
      (({ maxCauseDepth := .atMost 2 } : ConverterOptions).errorToFailure blamedErrors (.object 0)).outcome.1 =
        .ok (g, w) ∧
      g.CauseChain w ws ∧ ws.length = 2 := by
  have hwalk : blamedErrors.walk ({ maxCauseDepth := .atMost 2 } : ConverterOptions).maxCauseDepth (.object 0) =
      ⟨[.object 0, .object 1], true⟩ := by decide +kernel
  have hfirst : ({ maxCauseDepth := .atMost 2 } : ConverterOptions).CanWrite blamedErrors (.object 0) :=
    ConverterOptions.canWrite_of_host rfl rfl ⟨_, rfl⟩ ⟨_, rfl⟩ nofun
  have hsecond : ({ maxCauseDepth := .atMost 2 } : ConverterOptions).CanWrite blamedErrors (.object 1) :=
    ConverterOptions.canWrite_of_host rfl rfl ⟨_, rfl⟩ ⟨_, rfl⟩ nofun
  obtain ⟨errors, g, w, ws, hmade, hsent, hlinks, hlead, -⟩ :=
    derived_links_bounded (o := { maxCauseDepth := .atMost 2 }) (g := blamedErrors) (v := .object 0) (by
      rw [hwalk]
      simpa [ConverterOptions.linksOrSelf] using ⟨hfirst, hsecond⟩)
  rw [hwalk] at hmade
  rcases hmade with _ | ⟨h₁, _ | ⟨h₂, _ | _⟩⟩
  cases h₁
  cases h₂
  exact ⟨g, w, ws, hsent, hlead, hlinks.length_eq.symm⟩

/-- A wire failure that is its own cause, as object 2, and the error that it was decoded to, as object 3. -/
def lateCycle : Graph :=
  ⟨[.record [("nonRetryable", .bool false)],
    .record [("case", .text "serverFailureInfo"), ("value", .object 0)],
    .record [("message", .text "late"), ("source", .text "TypeScriptSDK"), ("stackTrace", .text ""),
      ("cause", .object 2), ("failureInfo", .object 1)],
    .error <| .build (.server (.bool false)) (.text "late") (.text "late")
      { stored := .object 2, stackTrace := .text "" }]⟩

/-- **A reused wire failure keeps its cycle.** The codec can encode all there is to encode for the decoded error,
and the decoder has cut the cycle; still the chain that is emitted is the wire failure, which has no end. -/
theorem lateCycle_sent_as_cycle :
    (({} : ConverterOptions).failureToError ⟨lateCycle.nodes.take 3⟩ (.object 2)).outcome.1 =
      .ok (lateCycle, .object 3) ∧
    (∀ x ∈ ConverterOptions.linksOrSelf
      (lateCycle.walk ({} : ConverterOptions).maxCauseDepth (.object 3)) (.object 3),
      ({} : ConverterOptions).CanWrite lateCycle x) ∧
    (({} : ConverterOptions).errorToFailure lateCycle (.object 3)).outcome.1 = .ok (lateCycle, .object 2) ∧
    ¬ ∃ ws, lateCycle.CauseChain (.object 2) ws := by
  have hwalk : lateCycle.walk ({} : ConverterOptions).maxCauseDepth (.object 3) = ⟨[.object 3], false⟩ := by
    decide +kernel
  refine ⟨rfl, ?_, rfl, ?_⟩
  · rw [hwalk]
    intro x hx
    obtain rfl : x = .object 3 := List.mem_singleton.1 hx
    exact ConverterOptions.canWrite_of_server rfl rfl rfl rfl nofun
  · rintro ⟨ws, hchain⟩
    exact Graph.not_causeChain_of_cycle rfl rfl ws hchain

end FailureWire
