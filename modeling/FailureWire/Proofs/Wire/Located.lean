import Mathlib.Logic.Function.Iterate
import FailureWire.Proofs.Wire.Parsed

/-!
# Where findings are

A fault of a wire failure is reported at its place as it is seen from the failure that is parsed. So what is
reported of a cause is reported of whatever has that cause, one step further in, as long as nothing else is wrong
there (`findings_of_cause`). Many causes deep, it is found behind as many steps (`parseFailure_of_encloses`).

As text a step to a cause is the name `cause`, and a point behind it if the path goes on (`underCause`). That
holds for every path of a finding: it is empty, or its first step is the name of a property, never a position
(`startsNamed_of_mem`).
-/

namespace FailureWire

/-! ## Paths as text -/

namespace WireFormat

variable {out : String} {path : List Segment}

/-- One more step of a path as text. -/
def appendSegment (out : String) : Segment → String
  | .position n => out ++ "[" ++ String.ofList n.chars ++ "]"
  | .name s => if out = "" then s else out ++ "." ++ s

theorem pathText_eq (path : List Segment) : pathText path = path.foldl appendSegment "" := rfl

/-- What has been written stays in front. -/
theorem appendSegment_append (before : String) (s : Segment) (h : out ≠ "") :
    appendSegment (before ++ out) s = before ++ appendSegment out s ∧ appendSegment out s ≠ "" := by
  have hboth : before ++ out ≠ "" := fun hempty => h (String.append_eq_empty_iff.1 hempty).2
  cases s with
  | position n => simp [appendSegment, String.append_assoc]
  | name s => simp [appendSegment, h, hboth, String.append_assoc]

theorem foldl_appendSegment (before : String) (path : List Segment) (h : out ≠ "") :
    path.foldl appendSegment (before ++ out) = before ++ path.foldl appendSegment out ∧
      path.foldl appendSegment out ≠ "" := by
  induction path generalizing out with
  | nil => exact ⟨rfl, h⟩
  | cons s rest ih =>
    obtain ⟨happend, hne⟩ := appendSegment_append before s h
    rw [List.foldl_cons, List.foldl_cons, happend]
    exact ih hne

/-- The path to something at a path of a cause. -/
def underCause (path : String) : String := if path = "" then "cause" else "cause." ++ path

/-- A path is empty, or starts with a name. -/
def StartsNamed (path : List Segment) : Prop := path = [] ∨ ∃ s rest, s ≠ "" ∧ path = .name s :: rest

/-- **One step to a cause is one word of the text.** -/
theorem pathText_cause (h : StartsNamed path) :
    pathText (.name "cause" :: path) = underCause (pathText path) := by
  rcases h with rfl | ⟨s, rest, hs, rfl⟩
  · rfl
  · obtain ⟨happend, hne⟩ := foldl_appendSegment "cause." rest hs
    have htail : pathText (.name s :: rest) = rest.foldl appendSegment s := rfl
    have hfirst : appendSegment "cause" (.name s) = "cause." ++ s := rfl
    rw [pathText_eq, List.foldl_cons, List.foldl_cons, show appendSegment "" (.name "cause") = "cause" from rfl,
      hfirst, happend, htail, underCause, if_neg hne]

end WireFormat

/-- A finding as seen from the failure that has it in its `k`-th cause. -/
def Finding.underCauses (k : Nat) (f : Finding) : Finding :=
  { f with path := List.replicate k (.name "cause") ++ f.path }

namespace WireFormat

variable {f : Finding}

theorem pathText_underCauses (k : Nat) (h : StartsNamed f.path) :
    pathText (f.underCauses k).path = underCause^[k] (pathText f.path) ∧
      StartsNamed (f.underCauses k).path := by
  induction k with
  | zero => exact ⟨rfl, h⟩
  | succ k ih =>
    obtain ⟨htext, hnamed⟩ := ih
    have hpath : (f.underCauses (k + 1)).path = .name "cause" :: (f.underCauses k).path := rfl
    rw [hpath, pathText_cause hnamed, htext, Function.iterate_succ_apply']
    exact ⟨rfl, .inr ⟨"cause", _, by decide, rfl⟩⟩

end WireFormat

namespace Graph

variable {g : Graph} {v w : Value} {name : String}

/-! ## Findings start with a name -/

theorem startsNamed_under (hname : name ≠ "") {c : Checked} {x : Finding}
    (hx : x ∈ (c.under (.name name)).findings) : WireFormat.StartsNamed x.path := by
  obtain ⟨y, -, rfl⟩ := List.mem_map.1 hx
  exact .inr ⟨name, y.path, hname, rfl⟩

theorem startsNamed_checkFields {fields : List (String × Schema)} (hnames : ∀ f ∈ fields, f.1 ≠ "") :
    ∀ f ∈ Schema.checkFields g fields v, ∀ x ∈ f.2.findings, WireFormat.StartsNamed x.path := by
  induction fields with
  | nil => exact nofun
  | cons field rest ih =>
    obtain ⟨name, s⟩ := field
    have hname : name ≠ "" := hnames (name, s) List.mem_cons_self
    intro f hf x hx
    rw [Schema.checkFields] at hf
    rcases List.mem_append.1 hf with hhere | hrest
    · split at hhere
      · obtain rfl := List.mem_singleton.1 hhere
        exact startsNamed_under hname hx
      · split at hhere
        · cases hhere
        · obtain rfl := List.mem_singleton.1 hhere
          exact startsNamed_under hname hx
    · exact ih (fun f hf => hnames f (List.mem_cons_of_mem _ hf)) f hrest x hx

theorem startsNamed_checkOptional (hname : name ≠ "") {check : Value → Checked} :
    ∀ f ∈ WireFormat.checkOptional g v name check, ∀ x ∈ f.2.findings, WireFormat.StartsNamed x.path := by
  intro f hf x hx
  unfold WireFormat.checkOptional at hf
  split at hf
  · cases hf
  · obtain rfl := List.mem_singleton.1 hf
    cases hx
  · obtain rfl := List.mem_singleton.1 hf
    exact startsNamed_under hname hx

/-- Whatever is found is found at the value itself, or at one of its properties. -/
theorem startsNamed_of_mem {fuel count : Nat} {outer : List (ObjectId × Nat)} {x : Finding}
    (hx : x ∈ (WireFormat.checkFailure g fuel outer count v).findings) : WireFormat.StartsNamed x.path := by
  cases fuel with
  | zero => cases hx
  | succ fuel =>
    rw [WireFormat.checkFailure] at hx
    split at hx
    · cases hx
    · split at hx
      · obtain ⟨f, hf, hx⟩ := List.mem_flatMap.1 hx
        rcases List.mem_append.1 hf with hf | hinfo
        · rcases List.mem_append.1 hf with hleading | hcause
          · exact startsNamed_checkFields (by decide) f hleading x hx
          · exact startsNamed_checkOptional (by decide) f hcause x hx
        · exact startsNamed_checkOptional (by decide) f hinfo x hx
      · obtain rfl := List.mem_singleton.1 hx
        exact .inl rfl

/-! ## Findings of a cause -/

theorem checkOptional_of_get? {check : Value → Checked} (h : g.get? v name = some w) (hw : w ≠ .undefined) :
    WireFormat.checkOptional g v name check = [(name, (check w).under (.name name))] := by
  unfold WireFormat.checkOptional
  rw [h]
  cases w with
  | undefined => exact absurd rfl hw
  | null | bool | number | text | big | object => rfl

theorem findings_checkOptional_congr (name : String) {check check' : Value → Checked}
    (h : ∀ w, g.get? v name = some w → (check w).findings = (check' w).findings) :
    (WireFormat.checkOptional g v name check).flatMap (fun f => f.2.findings) =
      (WireFormat.checkOptional g v name check').flatMap fun f => f.2.findings := by
  cases hv : g.get? v name with
  | none => simp only [WireFormat.checkOptional, hv]
  | some w =>
    by_cases hundefined : w = .undefined
    · subst hundefined
      simp only [WireFormat.checkOptional, hv]
    · rw [checkOptional_of_get? hv hundefined, checkOptional_of_get? hv hundefined]
      simp only [List.flatMap_singleton, Checked.under, h w hv]

/-- What is found of an object that is met for the first time. -/
theorem exists_findings_checkFailure {outer : List (ObjectId × Nat)} (fuel count : Nat)
    (hnew : (v.id?.bind fun id => outer.lookup id) = none) (hkeyed : g.isKeyed v = true) :
    ∃ inner, (WireFormat.checkFailure g (fuel + 1) outer count v).findings =
      (Schema.checkFields g WireFormat.leading v).flatMap (fun f => f.2.findings) ++
        (WireFormat.checkOptional g v "cause" (WireFormat.checkFailure g fuel
          ((v.id?.map fun id => (id, count)).toList ++ outer) inner)).flatMap (fun f => f.2.findings) ++
        (WireFormat.checkOptional g v "failureInfo" (WireFormat.checkInfo g)).flatMap fun f => f.2.findings := by
  simp only [WireFormat.checkFailure, hnew, hkeyed, if_true, Checked.recordOf, List.flatMap_append]
  exact ⟨_, rfl⟩

/-- **What is found of a value does not depend on how it was reached**, as long as nothing on the way is met
again. -/
theorem findings_checkFailure_congr {fuel fuel' count count' : Nat} {outer outer' : List (ObjectId × Nat)}
    (hunwound : g.Unwound v) (houter : g.Ancestors outer v) (hfuel : g.size < fuel + outer.length)
    (houter' : g.Ancestors outer' v) (hfuel' : g.size < fuel' + outer'.length) :
    (WireFormat.checkFailure g fuel outer count v).findings =
      (WireFormat.checkFailure g fuel' outer' count' v).findings := by
  induction fuel generalizing v fuel' count count' outer outer' with
  | zero =>
    have := houter.length_le
    omega
  | succ fuel ih =>
    obtain ⟨fuel', rfl⟩ : ∃ n, fuel' = n + 1 := ⟨fuel' - 1, by have := houter'.length_le; omega⟩
    have hnew := houter.lookup hunwound
    have hnew' := houter'.lookup hunwound
    by_cases hkeyed : g.isKeyed v = true
    · obtain ⟨inner, hfound⟩ := exists_findings_checkFailure fuel count hnew hkeyed
      obtain ⟨inner', hfound'⟩ := exists_findings_checkFailure fuel' count' hnew' hkeyed
      obtain ⟨id, -, rfl, -⟩ := objectOf?_of_isKeyed hkeyed
      rw [hfound, hfound', findings_checkOptional_congr "cause" fun w hw => ?_]
      refine ih (hunwound.cause hw) (houter.cause hunwound hw count) ?_
        (houter'.cause hunwound hw count') ?_
      · show g.size < fuel + (outer.length + 1)
        omega
      · show g.size < fuel' + (outer'.length + 1)
        omega
    · simp only [WireFormat.checkFailure, hnew, hnew', hkeyed]
      rfl

/-- An object with a message and whatever else it has well formed, whatever its cause is. -/
structure SoundButCause (g : Graph) (w : Value) : Prop where
  isKeyed : g.isKeyed w = true
  message : (g.read w "message").IsText
  source : (g.read w "source").Optionally Value.IsText
  stackTrace : (g.read w "stackTrace").Optionally Value.IsText
  encodedAttributes : (g.read w "encodedAttributes").Optionally g.IsWirePayload
  failureInfo : (g.read w "failureInfo").Optionally g.IsInfo

/-- A value that is parsed on its own is found to have this. -/
def wireFindings (g : Graph) (v : Value) : List Finding :=
  (WireFormat.checkFailure g (g.size + 2) [] 0 v).findings

theorem parseFailure_eq_error {findings : List Finding} :
    WireFormat.parseFailure g v = .error findings ↔ findings ≠ [] ∧ g.wireFindings v = findings := by
  unfold WireFormat.parseFailure wireFindings
  dsimp only
  split
  next hok =>
    have hnone := List.isEmpty_iff.1 hok
    simp only [reduceCtorEq, false_iff, not_and]
    rw [hnone]
    exact fun hne heq => hne heq.symm
  next hfound =>
    rw [Except.error.injEq]
    refine ⟨?_, And.right⟩
    rintro rfl
    exact ⟨fun hnone => hfound (List.isEmpty_iff.2 hnone), rfl⟩

/-- **What is found of a cause is found of what has that cause, one step further in**, and nothing else is. -/
theorem findings_of_cause (hv : v ≠ .undefined) (hunwound : g.Unwound v) (hw : g.SoundButCause w)
    (hcause : g.Blames w v) :
    g.Unwound w ∧ g.wireFindings w = (g.wireFindings v).map (Finding.under (.name "cause")) := by
  have hunwoundw : g.Unwound w := unwound_of_forall fun x hx => by
    cases hcause.symm.trans hx
    exact hunwound
  obtain ⟨hkeyed, hmessage, hsource, hstack, hattributes, hinfo⟩ := hw
  have hleading := fieldsConform_leading.2 ⟨hmessage, hsource, hstack, hattributes⟩
  have hnew := (ancestors_nil g w).lookup hunwoundw
  obtain ⟨inner, hfound⟩ := exists_findings_checkFailure (g.size + 1) 0 hnew hkeyed
  obtain ⟨id, -, rfl, -⟩ := objectOf?_of_isKeyed hkeyed
  have hbelow : (WireFormat.checkFailure g (g.size + 1) [(id, 0)] inner v).findings = g.wireFindings v := by
    refine findings_checkFailure_congr hunwound ((ancestors_nil g _).cause hunwoundw hcause 0) ?_
      (ancestors_nil g v) ?_
    · show g.size < g.size + 1 + 1
      omega
    · show g.size < g.size + 2 + 0
      omega
  refine ⟨hunwoundw, ?_⟩
  rw [wireFindings, hfound, checkFields_of_conform hleading, checkOptional_of_get? hcause hv,
    checkOptional_ok g.trimInfo fun hdefined => checkInfo_of_isInfo (hinfo.resolve_left hdefined)]
  have hnone (fields : Fields Document) :
      (fields.map fun f => (f.1, Checked.ok f.2)).flatMap (fun f => f.2.findings) = [] :=
    List.flatMap_eq_nil_iff.2 fun f hf => by
      obtain ⟨e, -, rfl⟩ := List.mem_map.1 hf
      rfl
  rw [hnone, hnone, List.nil_append, List.append_nil, List.flatMap_singleton, ← hbelow]
  rfl

/-- A value is the `k`-th cause of another one, and nothing but that is wrong on the way. -/
inductive Encloses (g : Graph) (v : Value) : Nat → Value → Prop
  | itself : Encloses g v 0 v
  | cause {k : Nat} {w x : Value} : g.SoundButCause w → g.Blames w x → Encloses g v k x → Encloses g v (k + 1) w

/-- What is found of the `k`-th cause is found `k` steps further in. -/
theorem findings_of_encloses {k : Nat} (hv : v ≠ .undefined) (hunwound : g.Unwound v) (h : g.Encloses v k w) :
    w ≠ .undefined ∧ g.Unwound w ∧ g.wireFindings w = (g.wireFindings v).map (Finding.underCauses k) := by
  induction h with
  | itself => exact ⟨hv, hunwound, (List.map_id' _).symm⟩
  | @cause k w x hw hcause _ ih =>
    obtain ⟨hx, hunwoundx, hfound⟩ := ih
    obtain ⟨hunwoundw, hstep⟩ := findings_of_cause hx hunwoundx hw hcause
    refine ⟨?_, hunwoundw, ?_⟩
    · rintro rfl
      cases hw.isKeyed
    · rw [hstep, hfound, List.map_map]
      rfl

end Graph

/-- An issue of a failure as one of the failure that has it in its `k`-th cause. -/
def Issue.underCauses (k : Nat) (i : Issue) : Issue := ⟨WireFormat.underCause^[k] i.path, i.message⟩

namespace WireFormat

theorem issueOf_underCauses {f : Finding} (k : Nat) (h : StartsNamed f.path) :
    issueOf (f.underCauses k) = (issueOf f).underCauses k := by
  obtain ⟨hpath, -⟩ := pathText_underCauses k h
  rw [issueOf, hpath]
  rfl

theorem underCause_ne_empty (path : String) : underCause path ≠ "" := by
  unfold underCause
  split
  · decide
  · exact fun hempty => absurd (String.append_eq_empty_iff.1 hempty).1 (by decide)

theorem messageOf_cons {first : Issue} (more : List Issue) (h : first.path ≠ "") :
    messageOf (first :: more) = "Invalid wire failure at " ++ first.path ++ ": " ++ first.message := by
  show "Invalid wire failure at " ++ (if first.path = "" then "<root>" else first.path) ++ ": " ++
    first.message = _
  rw [if_neg h]

end WireFormat

/-- **Faults are located along causes.** Let a value that is no wire failure be the cause, or the cause of a cause
and so on, of a failure which is well formed but for that. Then the failure is refused for the same faults in
the same order and with the same messages, each behind as many steps to a cause: the text of a place starts with
as many words `cause`, with points between them and before the place in the value, if it has one. And the message
of the error names the first of these places. -/
theorem faults_located_along_causes (g : Graph) (v w : Value) (k : Nat) (findings : List Finding)
    (hv : v ≠ .undefined) (hunwound : g.Unwound v) (hrefused : WireFormat.parseFailure g v = .error findings)
    (hw : g.Encloses v (k + 1) w) :
    ∃ located, WireFormat.parseFailure g w = .error located ∧
      located = findings.map (fun f => { f with path := List.replicate (k + 1) (.name "cause") ++ f.path }) ∧
      located.map WireFormat.issueOf = (findings.map WireFormat.issueOf).map (Issue.underCauses (k + 1)) ∧
      ∃ first more, located.map WireFormat.issueOf = first :: more ∧
        WireFormat.errorOf located = .wireFormat
          ("Invalid wire failure at " ++ first.path ++ ": " ++ first.message)
          (.list ((first :: more).map WireFormat.issueDocument)) := by
  obtain ⟨hne, hfound⟩ := Graph.parseFailure_eq_error.1 hrefused
  obtain ⟨-, -, hfoundw⟩ := Graph.findings_of_encloses hv hunwound hw
  rw [hfound] at hfoundw
  have hissues : (findings.map (Finding.underCauses (k + 1))).map WireFormat.issueOf =
      (findings.map WireFormat.issueOf).map (Issue.underCauses (k + 1)) := by
    rw [List.map_map, List.map_map]
    refine List.map_congr_left fun f hf => WireFormat.issueOf_underCauses (k + 1) ?_
    rw [← hfound] at hf
    exact Graph.startsNamed_of_mem hf
  refine ⟨findings.map (Finding.underCauses (k + 1)),
    Graph.parseFailure_eq_error.2 ⟨fun hnone => hne (List.map_eq_nil_iff.1 hnone), hfoundw⟩, rfl, hissues, ?_⟩
  obtain ⟨f, rest, rfl⟩ := List.exists_cons_of_ne_nil hne
  refine ⟨_, _, hissues, ?_⟩
  -- the first place is not the failure itself
  have hpath : ((WireFormat.issueOf f).underCauses (k + 1)).path ≠ "" := by
    rw [Issue.underCauses, Function.iterate_succ_apply']
    exact WireFormat.underCause_ne_empty _
  rw [WireFormat.errorOf, hissues, List.map_cons, List.map_cons, WireFormat.messageOf_cons _ hpath]

/-- A failure that has the number 5 as its message and information that misses what it should say, as object 2;
a failure with a source that it caused; and one with attributes on top. -/
def faultyCause : Graph :=
  ⟨[.record [],
    .record [("case", .text "serverFailureInfo"), ("value", .object 0)],
    .record [("message", .number 5), ("failureInfo", .object 1)],
    .record [("message", .text "step failed"), ("source", .text "worker"), ("cause", .object 2)],
    .bytes [123, 125],
    .record [],
    .record [("data", .object 4), ("metadata", .object 5)],
    .record [("cause", .object 3), ("message", .text "run failed"), ("encodedAttributes", .object 6)]]⟩

/-- Both faults are reported two causes deep. -/
theorem faults_located_along_causes_faultyCause :
    faultyCause.Unwound (.object 2) ∧
    WireFormat.parseFailure faultyCause (.object 2) = .error
      [⟨[.name "message"], "Invalid input: expected string, received number", false⟩,
        ⟨[.name "failureInfo"], "Invalid input", false⟩] ∧
    faultyCause.Encloses (.object 2) 2 (.object 7) ∧
    ∃ located, WireFormat.parseFailure faultyCause (.object 7) = .error located ∧
      located.map WireFormat.issueOf =
        [⟨"cause.cause.message", "Invalid input: expected string, received number"⟩,
          ⟨"cause.cause.failureInfo", "Invalid input"⟩] := by
  have hunwound : faultyCause.Unwound (.object 2) := Graph.unwound_of_forall nofun
  have hinner : faultyCause.SoundButCause (.object 3) :=
    ⟨rfl, ⟨_, rfl⟩, .inr ⟨_, rfl⟩, .inl rfl, .inl rfl, .inl rfl⟩
  have houter : faultyCause.SoundButCause (.object 7) :=
    ⟨rfl, ⟨_, rfl⟩, .inl rfl, .inl rfl, .inr ⟨rfl, ⟨_, rfl, nofun⟩, rfl⟩, .inl rfl⟩
  have hencloses : faultyCause.Encloses (.object 2) 2 (.object 7) :=
    .cause houter rfl (.cause hinner rfl .itself)
  have hrefused : WireFormat.parseFailure faultyCause (.object 2) = .error
      [⟨[.name "message"], "Invalid input: expected string, received number", false⟩,
        ⟨[.name "failureInfo"], "Invalid input", false⟩] := rfl
  obtain ⟨located, hlocated, -, hissues, -⟩ :=
    faults_located_along_causes faultyCause (.object 2) (.object 7) 1 _ nofun hunwound hrefused hencloses
  exact ⟨hunwound, hrefused, hencloses, located, hlocated, hissues⟩

end FailureWire
