import FailureWire.Proofs.Wire.Exact
import FailureWire.Proofs.Wire.Twins

/-!
# What parsing keeps of a failure

What parsing returns of a wire failure can be read like the failure itself. `g.Kept g' first s v r` says that `r` is
what a check returns of `v`, laid out in a larger graph: texts and numbers are the same (`Kept.eq`), lists have as
many items, and every property that the shape names is kept in turn (`Kept.fields`).

So the causes of the failure and of what is returned follow each other link by link (`Trimmed.exists_links`), and the
information of each link is read alike (`exists_infoAt_of_keptLink`), unless its case is one that the format does not
know: then there is no class of errors for it on either side.
-/

namespace FailureWire

namespace Graph

variable {g g' : Graph} {first : ObjectId} {v r x : Value}

/-! ## Values that are kept -/

/-- A value is of a shape, and another one, of a larger graph, is what a check returns of it. -/
def Kept (g g' : Graph) (first : ObjectId) (s : Schema) (v r : Value) : Prop :=
  g.Conforms s v ∧ g'.Shows first (g.trim s v) r

/-- Properties of these names are kept. -/
def FieldsKept (g g' : Graph) (first : ObjectId) : List (String × Schema) → Value → Value → Prop
  | [], _, _ => True
  | (name, s) :: rest, v, r =>
    g.Kept g' first s (g.read v name) (g'.read r name) ∧ FieldsKept g g' first rest v r

/-- Properties that are shown as a check returns them are kept. -/
theorem fieldsKept_of_showsTrimmed : ∀ {fields : List (String × Schema)}, g.FieldsConform fields v →
    ShowsTrimmed g g' first fields v r → g.FieldsKept g' first fields v r
  | [], _, _ => trivial
  | (name, s) :: rest, ⟨hhere, hrest⟩, hr => by
    refine ⟨⟨hhere, ?_⟩, fieldsKept_of_showsTrimmed hrest fun n s' hmem => hr n s' (List.mem_cons_of_mem _ hmem)⟩
    have hname := hr name s (List.mem_cons_self ..)
    generalize hfound : g'.get? r name = found at hname
    cases hv : g.get? v name with
    | none =>
      rw [hv] at hname
      cases hname
      rw [read_eq_undefined hv] at hhere ⊢
      rw [read_eq_undefined hfound, trim_undefined hhere]
      rfl
    | some w =>
      rw [hv] at hname
      cases hname with
      | some hshow => rwa [read_eq_of_get? hv, read_eq_of_get? hfound]

/-- **The properties of a record that is kept are kept.** -/
theorem Kept.fields {fields : List (String × Schema)} (h : g.Kept g' first (.record fields) v r)
    (hnodup : (fields.map (·.1)).Nodup) :
    g.isKeyed v = true ∧ g'.isKeyed r = true ∧ g.FieldsKept g' first fields v r := by
  obtain ⟨⟨hkeyed, hconform⟩, hr⟩ := h
  refine ⟨hkeyed, ?_, fieldsKept_of_showsTrimmed hconform fun name s hmem => ?_⟩
  · obtain ⟨copies, hcopies, -⟩ := hr
    rw [Graph.isKeyed, hcopies]
  · rw [← get?_trimFields hnodup hmem]
    exact (g'.reading_shows first).get? hr name

theorem Kept.items {s : Schema} (h : g.Kept g' first (.list s) v r) :
    ∃ vs rs, g.listOf? v = some vs ∧ g'.objectOf? r = some (.list rs) ∧ List.Forall₂ (g.Kept g' first s) vs rs := by
  obtain ⟨⟨vs, hvs, hall⟩, hr⟩ := h
  simp only [trim, hvs, Option.getD_some] at hr
  obtain ⟨rs, hrs, hshown⟩ := hr
  exact ⟨vs, rs, hvs, hrs, (List.forall₂_and_left _ _).2 ⟨hall, List.forall₂_map_left_iff.1 hshown.forall₂⟩⟩

/-- What may be missing is missing on both sides, or kept. -/
theorem Kept.optional {s : Schema} (h : g.Kept g' first (.optional s) v r) :
    (v = .undefined ∧ r = .undefined) ∨ g.Kept g' first s v r := by
  obtain ⟨hv, hr⟩ := h
  rw [trim] at hr
  split at hr
  next hundefined => exact .inl ⟨hundefined, hr⟩
  next hdefined => exact .inr ⟨hv.resolve_left hdefined, hr⟩

theorem Kept.optionalText (h : g.Kept g' first (.optional .text) v r) : r = v := by
  rcases h.optional with ⟨rfl, rfl⟩ | h
  · rfl
  · exact h.2

/-- A record that may be missing counts as true on both sides or on none. -/
theorem Kept.truthyAt {fields : List (String × Schema)} {name : String} (hnodup : (fields.map (·.1)).Nodup)
    (h : g.Kept g' first (.optional (.record fields)) (g.read v name) (g'.read r name)) :
    Option.Rel (g.Kept g' first (.record fields)) (g.truthyAt v name) (g'.truthyAt r name) := by
  unfold Graph.truthyAt
  rcases h.optional with ⟨hv, hr⟩ | h
  · rw [hv, hr]
    exact .none
  · obtain ⟨hkeyed, hkeyed', -⟩ := h.fields hnodup
    obtain ⟨-, n, -, hn⟩ := objectOf?_of_isKeyed hkeyed
    obtain ⟨-, n', -, hn'⟩ := objectOf?_of_isKeyed hkeyed'
    rw [Option.filter_some, Option.filter_some, isTruthy_of_objectOf? hn, isTruthy_of_objectOf? hn']
    exact .some h

/-! ## Links that are kept -/

/-- Information is kept: there is none on either side, or it is shown as it is returned. -/
def KeptInfo (g g' : Graph) (first : ObjectId) (v r : Value) : Prop :=
  (v = .undefined ∧ r = .undefined) ∨ (g.IsInfo v ∧ g'.Shows first (g.trimInfo v) r)

/-- A link of a wire failure is kept, but for its cause. -/
structure KeptLink (g g' : Graph) (first : ObjectId) (x r : Value) : Prop where
  isObject : x.id?.isSome
  isObject' : r.id?.isSome
  leading : g.FieldsKept g' first WireFormat.leading x r
  info : g.KeptInfo g' first (g.read x "failureInfo") (g'.read r "failureInfo")

/-- An optional property that is shown as it is returned is missing on both sides, or shown. -/
theorem shows_of_optional {name : String} {copy : Value → Document}
    (hr : Option.Rel (g'.Shows first) ((g.get? v name).map fun w => if w = .undefined then .undefined else copy w)
      (g'.get? r name)) :
    (g.read v name = .undefined ∧ g'.read r name = .undefined) ∨
      (g.read v name ≠ .undefined ∧ g'.Shows first (copy (g.read v name)) (g'.read r name)) := by
  generalize hfound : g'.get? r name = found at hr
  cases hv : g.get? v name with
  | none =>
    rw [hv] at hr
    cases hr
    exact .inl ⟨read_eq_undefined hv, read_eq_undefined hfound⟩
  | some w =>
    rw [hv] at hr
    cases hr with
    | some hshow =>
      rw [read_eq_of_get? hv, read_eq_of_get? hfound]
      dsimp only at hshow
      split at hshow
      next hundefined => exact .inl ⟨hundefined, hshow⟩
      next hdefined => exact .inr ⟨hdefined, hshow⟩

/-- **A wire failure and what is returned of it are chains of causes of one length, which is kept link by link.** -/
theorem Trimmed.exists_links {d : Document} (h : g.Trimmed v d) (hv : g.IsWireFailure v) (hr : g'.Shows first d r) :
    ∃ vs rs, g.CauseChain v vs ∧ g'.CauseChain r rs ∧ vs ≠ [] ∧ List.Forall₂ (g.KeptLink g' first) vs rs := by
  induction h generalizing r with
  | @intro v d _ ih =>
    obtain ⟨hkeyed, hmessage, hsource, hstack, hattributes, hcause, hinfo⟩ := hv
    obtain ⟨hleading, hcauseRead, hinfoRead⟩ := shows_trimmed hr
    obtain ⟨id, -, rfl, -⟩ := objectOf?_of_isKeyed hkeyed
    obtain ⟨id', rfl⟩ := (g'.reading_shows first).isObject hr
    have hlink : g.KeptLink g' first (.object id) (.object id') := by
      refine ⟨rfl, rfl, fieldsKept_of_showsTrimmed ?_ hleading, ?_⟩
      · exact fieldsConform_leading.2 ⟨hmessage, hsource, hstack, hattributes⟩
      · exact (shows_of_optional hinfoRead).imp_right fun ⟨hdefined, hshow⟩ => ⟨hinfo.resolve_left hdefined, hshow⟩
    rcases shows_of_optional hcauseRead with ⟨hnone, hnone'⟩ | ⟨hdefined, hshow⟩
    · refine ⟨[_], [_], .link rfl (.done ?_), .link rfl (.done ?_), List.cons_ne_nil _ _, .cons hlink .nil⟩
      · rw [causeOf, hnone]
        rfl
      · rw [causeOf, hnone']
        rfl
    · obtain ⟨vs, rs, hvs, hrs, -, hlinks⟩ := ih hdefined (hcause hdefined) hshow
      exact ⟨_, _, .link rfl hvs, .link rfl hrs, List.cons_ne_nil _ _, .cons hlink hlinks⟩

end Graph

/-! ## Information that is kept -/

namespace Graph

variable {g g' : Graph} {first : ObjectId} {v r x : Value}

/-- Information whose payloads and durations are kept. -/
abbrev InfoKept (g g' : Graph) (first : ObjectId) : FailureInfo Value → FailureInfo Value → Prop :=
  FailureInfo.Match (g.Kept g' first Schema.payloads) (g.Kept g' first Schema.duration)

theorem infoOfCase_of_unknown {case : Value} (value : Value)
    (h : ∀ name ∈ WireFormat.caseNames, case ≠ .text name) : g.infoOfCase case value = .ok (.unmapped case) := by
  have hknown {name : String} (hname : name ∈ WireFormat.caseNames) : case = .text name → False := h name hname
  unfold infoOfCase
  split
  · exact (hknown (by decide) rfl).elim
  · exact (hknown (by decide) rfl).elim
  · exact (hknown (by decide) rfl).elim
  · exact (hknown (by decide) rfl).elim
  · exact (hknown (by decide) rfl).elim
  · exact (hknown (by decide) rfl).elim
  · exact (hknown (by decide) rfl).elim
  · rfl

/-- **The value of a known case that is kept is read alike.** -/
theorem exists_infoOfCase_of_kept {name : String} {s : Schema} (hs : Fields.get? Schema.infoCases name = some s)
    (h : g.Kept g' first s v r) :
    ∃ info info', g.infoOfCase (.text name) v = .ok info ∧ g'.infoOfCase (.text name) r = .ok info' ∧
      g.InfoKept g' first info info' := by
  have hmem := Fields.mem_of_get? hs
  simp only [Schema.infoCases, List.mem_cons, Prod.mk.injEq, List.not_mem_nil, or_false] at hmem
  rcases hmem with ⟨rfl, rfl⟩ | ⟨rfl, rfl⟩ | ⟨rfl, rfl⟩ | ⟨rfl, rfl⟩ | ⟨rfl, rfl⟩ | ⟨rfl, rfl⟩ | ⟨rfl, rfl⟩ |
    ⟨rfl, rfl⟩ | ⟨rfl, rfl⟩ | ⟨rfl, rfl⟩
  · obtain ⟨hkeyed, hkeyed', htype, hretry, hdetails, hdelay, -⟩ := h.fields (by decide)
    have hretry : g'.read r "nonRetryable" = g.read v "nonRetryable" := hretry.2
    have htypes : g'.read r "type" = g.read v "type" := htype.2
    simp only [infoOfCase, readOf_of_isKeyed hkeyed, readOf_of_isKeyed hkeyed', hretry, htypes]
    exact ⟨_, _, rfl, rfl, .application _ htype.1.optional.id?_eq_none (hdetails.truthyAt (by decide))
      (hdelay.truthyAt (by decide))⟩
  · obtain ⟨hkeyed, hkeyed', htype, hdetails, -⟩ := h.fields (by decide)
    have htype : g'.read r "timeoutType" = g.read v "timeoutType" := htype.2
    simp only [infoOfCase, readOf_of_isKeyed hkeyed, readOf_of_isKeyed hkeyed', htype]
    exact ⟨_, _, rfl, rfl, .timeout _ (hdetails.truthyAt (by decide))⟩
  · obtain ⟨hkeyed, hkeyed', hdetails, -⟩ := h.fields (by decide)
    simp only [infoOfCase, readOf_of_isKeyed hkeyed, readOf_of_isKeyed hkeyed']
    exact ⟨_, _, rfl, rfl, .canceled (hdetails.truthyAt (by decide))⟩
  · obtain ⟨hkeyed, hkeyed', hdetails, -⟩ := h.fields (by decide)
    simp only [infoOfCase, readOf_of_isKeyed hkeyed, readOf_of_isKeyed hkeyed']
    exact ⟨_, _, rfl, rfl, .terminated (hdetails.truthyAt (by decide))⟩
  · obtain ⟨hkeyed, hkeyed', hretry, -⟩ := h.fields (by decide)
    have hretry : g'.read r "nonRetryable" = g.read v "nonRetryable" := hretry.2
    simp only [infoOfCase, readOf_of_isKeyed hkeyed, readOf_of_isKeyed hkeyed', hretry]
    exact ⟨_, _, rfl, rfl, .server _⟩
  · exact ⟨_, _, rfl, rfl, .unmapped ..⟩
  · obtain ⟨hkeyed, hkeyed', hscheduled, hstarted, hidentity, htype, hid, hstate, -⟩ := h.fields (by decide)
    obtain ⟨hnamed, hnamed', hname, -⟩ := htype.fields (by decide)
    have hscheduled : g'.read r "scheduledEventId" = g.read v "scheduledEventId" := hscheduled.2
    have hstarted : g'.read r "startedEventId" = g.read v "startedEventId" := hstarted.2
    have hidentity : g'.read r "identity" = g.read v "identity" := hidentity.2
    have hname : g'.read (g'.read r "activityType") "name" = g.read (g.read v "activityType") "name" := hname.2
    have hid : g'.read r "activityId" = g.read v "activityId" := hid.2
    have hstate : g'.read r "retryState" = g.read v "retryState" := hstate.2
    simp only [infoOfCase, readOf_of_isKeyed hkeyed, readOf_of_isKeyed hkeyed', Except.ok_bind,
      readOf_of_isKeyed hnamed, readOf_of_isKeyed hnamed', hscheduled, hstarted, hidentity, hname, hid, hstate]
    exact ⟨_, _, rfl, rfl, .activity ..⟩
  · obtain ⟨hkeyed, hkeyed', hnamespace, hexecution, htype, hinitiated, hstarted, hstate, -⟩ := h.fields (by decide)
    obtain ⟨hexecuted, hexecuted', hworkflow, hrun, -⟩ := hexecution.fields (by decide)
    obtain ⟨hnamed, hnamed', hname, -⟩ := htype.fields (by decide)
    have hnamespace : g'.read r "namespace" = g.read v "namespace" := hnamespace.2
    have hworkflow : g'.read (g'.read r "workflowExecution") "workflowId" =
        g.read (g.read v "workflowExecution") "workflowId" := hworkflow.2
    have hrun : g'.read (g'.read r "workflowExecution") "runId" = g.read (g.read v "workflowExecution") "runId" :=
      hrun.2
    have hname : g'.read (g'.read r "workflowType") "name" = g.read (g.read v "workflowType") "name" := hname.2
    have hinitiated : g'.read r "initiatedEventId" = g.read v "initiatedEventId" := hinitiated.2
    have hstarted : g'.read r "startedEventId" = g.read v "startedEventId" := hstarted.2
    have hstate : g'.read r "retryState" = g.read v "retryState" := hstate.2
    simp only [infoOfCase, readOf_of_isKeyed hkeyed, readOf_of_isKeyed hkeyed', Except.ok_bind,
      readOf_of_isKeyed hexecuted, readOf_of_isKeyed hexecuted', readOf_of_isKeyed hnamed, readOf_of_isKeyed hnamed',
      hnamespace, hworkflow, hrun, hname, hinitiated, hstarted, hstate]
    exact ⟨_, _, rfl, rfl, .childWorkflow ..⟩
  · exact ⟨_, _, rfl, rfl, .unmapped ..⟩
  · exact ⟨_, _, rfl, rfl, .unmapped ..⟩

/-- **The information of a link that is kept is read alike.** -/
theorem exists_infoAt_of_keptLink (h : g.KeptLink g' first x r) :
    ∃ info info', g.infoAt x = .ok info ∧ g'.infoAt r = .ok info' ∧ g.InfoKept g' first info info' := by
  unfold infoAt
  dsimp only
  rcases h.info with ⟨hnone, hnone'⟩ | ⟨hinfo, hshow⟩
  · rw [hnone, hnone']
    exact ⟨_, _, rfl, rfl, .unmapped ..⟩
  generalize g.read x "failureInfo" = v at hinfo hshow ⊢
  generalize g'.read r "failureInfo" = w at hshow ⊢
  have hread := g'.reading_shows first
  cases hinfo with
  | unknown hobject hcase =>
    obtain ⟨n, hn⟩ := Option.isSome_iff_exists.1 hobject
    simp only [trimInfo, ofCase?_eq_none.2 hcase] at hshow
    obtain ⟨id, rfl⟩ := hread.isObject hshow
    have hcase' : g'.read (.object id) "case" = .undefined := hread.read hshow "case" rfl
    rw [isMissing_of_objectOf? hn, show (Value.object id).isMissing = false from rfl]
    simp only [Bool.false_eq_true, if_false]
    rw [infoOfCase_of_unknown _ hcase, hcase']
    exact ⟨_, _, rfl, rfl, .unmapped ..⟩
  | known name hkeyed hcase hvalue hinfo =>
    obtain ⟨s, hs, hconforms⟩ := isInfoValue_iff.1 ⟨hvalue, hinfo⟩
    obtain ⟨-, n, -, hn⟩ := objectOf?_of_isKeyed hkeyed
    have hofCase : Schema.ofCase? (.text name) = some s := hs
    simp only [trimInfo, hcase, hofCase] at hshow
    obtain ⟨id, rfl⟩ := hread.isObject hshow
    have hcase' : g'.read (.object id) "case" = .text name := hread.read_existing hshow "case" rfl
    rw [isMissing_of_objectOf? hn, show (Value.object id).isMissing = false from rfl, hcase, hcase']
    simp only [Bool.false_eq_true, if_false]
    exact exists_infoOfCase_of_kept hs ⟨hconforms, hread.read hshow "value" rfl⟩

end Graph
end FailureWire
