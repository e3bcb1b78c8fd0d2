import Mathlib.Data.List.Basic
import FailureWire.Policy

/-!
# What the policy decides

A policy decides by class where it can, and asks its predicate about everything else (`isWorkflowFailure`). The
predicate has a state of its own, so it matters how often it is asked: `Policy.watched` puts down every question.
`policy_decides` says when an error fails a workflow, and that a call asks the predicate once where no class decides,
and never otherwise.

Two consequences are part of it. More classes never save a workflow (`Policy.Extends`), and the classes that are
listed for other workflow types do not matter.
-/

namespace FailureWire

namespace Graph

variable {g : Graph} {v : Value}

/-- A value is an error of a class, or of one that is derived from it. -/
def IsInstance (g : Graph) (v : Value) (c : ErrorClass) : Prop :=
  ∃ e, g.errorOf? v = some e ∧ e.errorClass.isA c = true

theorem isOneOf_iff {classes : List ErrorClass} : g.isOneOf v classes = true ↔ ∃ c ∈ classes, g.IsInstance v c := by
  unfold isOneOf IsInstance
  cases g.errorOf? v with
  | none => simp
  | some e => simp

end Graph

namespace Policy

/-- What a predicate is asked: about an error, and about the type of the workflow that raised it. -/
abbrev Question : Type := Value × Option String

section
variable {m : Type → Type} {p q : Policy m} {g : Graph} {error : Value} {workflowType : Option String}

/-- A class decides about an error: it is a failure, or an instance of a class that is listed for all workflows or
under the very name of the workflow's type. -/
inductive Decides (p : Policy m) (g : Graph) (error : Value) (workflowType : Option String) : Prop
  | failure : g.IsInstance error .failure → Decides p g error workflowType
  | listed {c : ErrorClass} : c ∈ p.listed → g.IsInstance error c → Decides p g error workflowType
  | listedFor {name : String} {classes : List ErrorClass} {c : ErrorClass} : workflowType = some name →
    Fields.get? p.listedFor name = some classes → c ∈ classes → g.IsInstance error c →
      Decides p g error workflowType

/-- A policy lists what another one does, and maybe more, and has the same predicate. -/
structure Extends (p q : Policy m) : Prop where
  listed : p.listed ⊆ q.listed
  listedFor : ∀ name classes, Fields.get? p.listedFor name = some classes →
    ∃ more, Fields.get? q.listedFor name = some more ∧ classes ⊆ more
  predicate : q.predicate = p.predicate

/-- Two policies differ at most in what they list for other types than this one. -/
structure AgreesFor (p q : Policy m) (workflowType : Option String) : Prop where
  listed : q.listed = p.listed
  listedFor : ∀ name, workflowType = some name → Fields.get? q.listedFor name = Fields.get? p.listedFor name
  predicate : q.predicate = p.predicate

theorem isOneOf_classesFor_iff :
    g.isOneOf error (p.classesFor workflowType) = true ↔ p.Decides g error workflowType := by
  rw [Graph.isOneOf_iff, classesFor]
  constructor
  · rintro ⟨c, hc, hinstance⟩
    rcases List.mem_cons.1 hc with rfl | hc
    · exact .failure hinstance
    rcases List.mem_append.1 hc with hc | hc
    · exact .listed hc hinstance
    · -- the type is given, and classes are listed for it
      cases hclasses : workflowType.bind (Fields.get? p.listedFor) with
      | none =>
        rw [hclasses] at hc
        cases hc
      | some classes =>
        obtain ⟨name, hname, hget⟩ := Option.bind_eq_some_iff.1 hclasses
        rw [hclasses] at hc
        exact .listedFor hname hget hc hinstance
  · intro h
    cases h with
    | failure hinstance => exact ⟨_, List.mem_cons_self .., hinstance⟩
    | listed hc hinstance => exact ⟨_, List.mem_cons_of_mem _ (List.mem_append_left _ hc), hinstance⟩
    | listedFor hname hget hc hinstance =>
      refine ⟨_, List.mem_cons_of_mem _ (List.mem_append_right _ ?_), hinstance⟩
      rw [hname, Option.bind_some, hget]
      exact hc

/-- **More classes decide about more errors.** -/
theorem Decides.extend (h : p.Decides g error workflowType) (hq : p.Extends q) : q.Decides g error workflowType := by
  cases h with
  | failure hinstance => exact .failure hinstance
  | listed hc hinstance => exact .listed (hq.listed hc) hinstance
  | listedFor hname hget hc hinstance =>
    obtain ⟨more, hmore, hsubset⟩ := hq.listedFor _ _ hget
    exact .listedFor hname hmore (hsubset hc) hinstance

/-- **Only the classes for the type at hand count.** -/
theorem AgreesFor.isWorkflowFailure_eq [Monad m] (h : p.AgreesFor q workflowType) :
    q.isWorkflowFailure g error workflowType = p.isWorkflowFailure g error workflowType := by
  have hclasses : q.classesFor workflowType = p.classesFor workflowType := by
    unfold classesFor
    rw [h.listed]
    cases workflowType with
    | none => rfl
    | some name => rw [Option.bind_some, Option.bind_some, h.listedFor name rfl]
  unfold isWorkflowFailure
  rw [hclasses, h.predicate]

end

section
variable {σ : Type} {p q : Policy (StateM σ)} {g : Graph} {error : Value} {workflowType : Option String} {s : σ}

/-- The policy whose predicate puts down what it is asked. -/
def watched (p : Policy (StateM σ)) : Policy (StateM (σ × List Question)) where
  listed := p.listed
  listedFor := p.listedFor
  predicate := p.predicate.map fun ask error workflowType state =>
    let (answer, inner) := ask error workflowType state.1
    (answer, inner, state.2 ++ [(error, workflowType)])

theorem watched_decides_iff : p.watched.Decides g error workflowType ↔ p.Decides g error workflowType := by
  rw [← isOneOf_classesFor_iff, ← isOneOf_classesFor_iff]
  rfl

/-- What a policy answers, and in which state its predicate is left. -/
def verdict (p : Policy (StateM σ)) (g : Graph) (error : Value) (workflowType : Option String) (s : σ) : Bool × σ :=
  (p.isWorkflowFailure g error workflowType).run s

theorem verdict_of_decides (h : p.Decides g error workflowType) : p.verdict g error workflowType s = (true, s) := by
  rw [verdict, isWorkflowFailure_of_listed (isOneOf_classesFor_iff.2 h)]
  rfl

/-- Where no class decides, the predicate does, if there is one. -/
theorem verdict_of_not_decides (h : ¬ p.Decides g error workflowType) : p.verdict g error workflowType s =
    match p.predicate with
    | some ask => ask error workflowType s
    | none => (false, s) := by
  have hunlisted : g.isOneOf error (p.classesFor workflowType) = false :=
    Bool.eq_false_iff.2 fun hlisted => h (isOneOf_classesFor_iff.1 hlisted)
  cases hask : p.predicate with
  | some ask =>
    rw [verdict, isWorkflowFailure_of_unlisted hunlisted hask]
    rfl
  | none =>
    unfold verdict isWorkflowFailure
    rw [hunlisted, hask]
    rfl

/-- **An error fails a workflow if a class decides, or else the predicate does.** -/
theorem verdict_fst_iff : (p.verdict g error workflowType s).1 = true ↔ p.Decides g error workflowType ∨
    ¬ p.Decides g error workflowType ∧ ∃ ask, p.predicate = some ask ∧ (ask error workflowType s).1 = true := by
  by_cases h : p.Decides g error workflowType
  · simp [verdict_of_decides h, h]
  · rw [verdict_of_not_decides h]
    cases hask : p.predicate with
    | some ask => simp [h]
    | none => simp [h]

/-- Errors that fail a workflow still do if more classes are listed. -/
theorem Extends.verdict (h : p.Extends q) (hfails : (p.verdict g error workflowType s).1 = true) :
    (q.verdict g error workflowType s).1 = true := by
  by_cases hq : q.Decides g error workflowType
  · rw [verdict_of_decides hq]
  · -- no class of either policy decides, so one predicate is asked in one state
    have hp : ¬ p.Decides g error workflowType := fun hdecides => hq (hdecides.extend h)
    rw [verdict_of_not_decides hp] at hfails
    rw [verdict_of_not_decides hq, h.predicate]
    exact hfails

/-- A call puts down one question where no class decides and there is a predicate, and nothing else. -/
theorem exists_verdict_watched (p : Policy (StateM σ)) (g : Graph) (error : Value) (workflowType : Option String)
    (s : σ) (asked : List Question) :
    ∃ more, p.watched.verdict g error workflowType (s, asked) =
        ((p.verdict g error workflowType s).1, (p.verdict g error workflowType s).2, asked ++ more) ∧
      (p.Decides g error workflowType → more = []) ∧
      (¬ p.Decides g error workflowType → more = p.predicate.toList.map fun _ => (error, workflowType)) := by
  by_cases h : p.Decides g error workflowType
  · refine ⟨[], ?_, fun _ => rfl, fun hnot => absurd h hnot⟩
    rw [verdict_of_decides h, verdict_of_decides (watched_decides_iff.2 h), List.append_nil]
  · refine ⟨_, ?_, fun hdecides => absurd hdecides h, fun _ => rfl⟩
    rw [verdict_of_not_decides h, verdict_of_not_decides fun hw => h (watched_decides_iff.1 hw)]
    unfold watched
    cases p.predicate with
    | some ask => rfl
    | none => simp

end

end Policy

/-- **What the policy decides.** An error fails a workflow if it is a failure, or an instance of a class that is listed
for all workflows or under the name of the workflow's type, or else if the predicate says so; and an error that does
not fail the workflow has the task retried. A call asks the predicate once where no class decides, and never
otherwise. If more classes are listed, no error is retried that failed its workflow before, and what is listed for
other types of workflows makes no difference. -/
theorem policy_decides {σ : Type} (p : Policy (StateM σ)) (g : Graph) (error : Value) (workflowType : Option String)
    (s : σ) (asked : List Policy.Question) :
    ((p.verdict g error workflowType s).1 = true ↔ p.Decides g error workflowType ∨
      ¬ p.Decides g error workflowType ∧ ∃ ask, p.predicate = some ask ∧ (ask error workflowType s).1 = true) ∧
    (∀ (τ : Type) (q : Policy (StateM τ)) (t : τ), (q.classify g error workflowType).run t =
      (if (q.verdict g error workflowType t).1 then Outcome.failWorkflow else .retryTask,
        (q.verdict g error workflowType t).2)) ∧
    (∃ more, p.watched.verdict g error workflowType (s, asked) =
        ((p.verdict g error workflowType s).1, (p.verdict g error workflowType s).2, asked ++ more) ∧
      (p.Decides g error workflowType → more = []) ∧
      (¬ p.Decides g error workflowType → more = p.predicate.toList.map fun _ => (error, workflowType))) ∧
    (∀ q : Policy (StateM σ), p.Extends q → (p.verdict g error workflowType s).1 = true →
      (q.verdict g error workflowType s).1 = true) ∧
    ∀ q : Policy (StateM σ), p.AgreesFor q workflowType →
      q.verdict g error workflowType s = p.verdict g error workflowType s := by
  refine ⟨Policy.verdict_fst_iff, fun _ _ _ => rfl, p.exists_verdict_watched g error workflowType s asked,
    fun q hq => hq.verdict, fun q hq => ?_⟩
  rw [Policy.verdict, hq.isWorkflowFailure_eq]
  rfl

/-- A policy that lists a class for workflows of the type `constructor`, and whose predicate is true of every second
error that it is asked about. -/
def secondChances : Policy (StateM Nat) where
  listedFor := [("constructor", [.derived "InventoryMismatchError" .error])]
  predicate := some fun _ _ count => (count % 2 = 1, count + 1)

/-- An error of the listed class, as object 0. -/
def mismatchedInventory : Graph :=
  ⟨[.error <| .raise ["InventoryMismatchError"] (.host false) (.text "two left") none]⟩

/-- The class decides about workflows of the type that it is listed for. About those of a type that every object has
a property for, the predicate is asked, and it is of another mind the next time. -/
theorem policy_decides_secondChances :
    (secondChances.verdict mismatchedInventory (.object 0) (some "constructor") 0).1 = true ∧
    (secondChances.watched.verdict mismatchedInventory (.object 0) (some "constructor") (0, [])).2.2 = [] ∧
    (secondChances.verdict mismatchedInventory (.object 0) (some "toString") 0).1 ≠ true ∧
    (secondChances.verdict mismatchedInventory (.object 0) (some "toString") 1).1 = true ∧
    (secondChances.watched.verdict mismatchedInventory (.object 0) (some "toString") (1, [])).2.2 =
      [(.object 0, some "toString")] := by
  have hinstance : mismatchedInventory.IsInstance (.object 0) (.derived "InventoryMismatchError" .error) :=
    ⟨_, rfl, by decide⟩
  have hlisted : secondChances.Decides mismatchedInventory (.object 0) (some "constructor") :=
    .listedFor rfl rfl (List.mem_singleton_self _) hinstance
  have hunlisted : ¬ secondChances.Decides mismatchedInventory (.object 0) (some "toString") :=
    fun h => absurd (Policy.isOneOf_classesFor_iff.2 h) (by decide)
  have hcertain := policy_decides secondChances mismatchedInventory (.object 0) (some "constructor") 0 []
  have hfirst := policy_decides secondChances mismatchedInventory (.object 0) (some "toString") 0 []
  have hsecond := policy_decides secondChances mismatchedInventory (.object 0) (some "toString") 1 []
  obtain ⟨none, hnone, hquiet, -⟩ := hcertain.2.2.1
  obtain ⟨one, hone, -, hasks⟩ := hsecond.2.2.1
  refine ⟨hcertain.1.2 (.inl hlisted), ?_, ?_, hsecond.1.2 (.inr ⟨hunlisted, _, rfl, rfl⟩), ?_⟩
  · rw [hnone, hquiet hlisted]
    rfl
  · intro hfails
    rcases hfirst.1.1 hfails with hdecides | ⟨-, ask, hask, htrue⟩
    · exact hunlisted hdecides
    · cases hask
      exact absurd htrue (by decide)
  · rw [hone, hasks hunlisted]
    rfl

end FailureWire
