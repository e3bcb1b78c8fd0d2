import FailureWire.Proofs.Config.Sources
import FailureWire.Proofs.Policy

/-!
# Settings about nondeterminism

A policy shows two settings: whether nondeterminism fails every workflow (`nondeterminismAsWorkflowFail`), and the
types whose workflows it fails (`nondeterminismAsWorkflowFailForTypes`). They are computed from the lists of classes
alone, by looking for the class of nondeterminism or one above it. What happens to an error is decided by looking for
a class that the error is an instance of. For errors of the class itself the two agree (`decides_iff_settingsFail`),
so `settings_tell_classification` tells from the settings what happens to such an error, and whether the predicate is
asked about it.
-/

namespace FailureWire

theorem coversNondeterminism_iff {classes : List ErrorClass} :
    coversNondeterminism classes = true ↔ ∃ c ∈ classes, ErrorClass.nondeterminism.isA c = true := by
  simp [coversNondeterminism, ErrorClass.isA_iff]

namespace Graph

variable {g : Graph} {v : Value} {c : ErrorClass}

/-- A value is an error of the class of nondeterminism itself, not of one that is derived from it. -/
def IsNondeterminism (g : Graph) (v : Value) : Prop :=
  ∃ e, g.errorOf? v = some e ∧ e.errorClass = .nondeterminism

theorem IsNondeterminism.isInstance_iff (h : g.IsNondeterminism v) :
    g.IsInstance v c ↔ ErrorClass.nondeterminism.isA c = true := by
  obtain ⟨e, he, hclass⟩ := h
  rw [← hclass]
  constructor
  · rintro ⟨e', he', hinstance⟩
    cases he.symm.trans he'
    exact hinstance
  · intro hinstance
    exact ⟨e, he, hinstance⟩

end Graph

namespace Policy

section
variable {m : Type → Type} {p : Policy m} {g : Graph} {error : Value} {workflowType : Option String} {name : String}

/-- The settings say that nondeterminism fails the workflows of a type. -/
def SettingsFail (p : Policy m) (workflowType : Option String) : Prop :=
  p.nondeterminismFails = true ∨ ∃ name ∈ p.nondeterminismFailsFor, workflowType = some name

theorem mem_nondeterminismFailsFor_iff (hrecord : (Fields.names p.listedFor).Nodup) :
    name ∈ p.nondeterminismFailsFor ↔
      ∃ classes, Fields.get? p.listedFor name = some classes ∧ coversNondeterminism classes = true := by
  simp only [nondeterminismFailsFor, Fields.names, List.mem_map, List.mem_filter, Prod.exists, exists_and_right,
    exists_eq_right, Fields.get?_eq_some_iff hrecord]

/-- **The settings agree with the classification.** A class decides about nondeterminism exactly if the settings say
that it fails the workflow. -/
theorem decides_iff_settingsFail (hrecord : (Fields.names p.listedFor).Nodup) (herror : g.IsNondeterminism error) :
    p.Decides g error workflowType ↔ p.SettingsFail workflowType := by
  constructor
  · intro h
    cases h with
    | failure hinstance =>
      -- nondeterminism is no failure
      exact absurd (herror.isInstance_iff.1 hinstance) (by decide)
    | listed hc hinstance =>
      exact .inl (coversNondeterminism_iff.2 ⟨_, hc, herror.isInstance_iff.1 hinstance⟩)
    | listedFor hname hget hc hinstance =>
      have hcovers := coversNondeterminism_iff.2 ⟨_, hc, herror.isInstance_iff.1 hinstance⟩
      exact .inr ⟨_, (mem_nondeterminismFailsFor_iff hrecord).2 ⟨_, hget, hcovers⟩, hname⟩
  · rintro (hall | ⟨name, hmem, hname⟩)
    · obtain ⟨c, hc, hisA⟩ := coversNondeterminism_iff.1 hall
      exact .listed hc (herror.isInstance_iff.2 hisA)
    · obtain ⟨classes, hget, hcovers⟩ := (mem_nondeterminismFailsFor_iff hrecord).1 hmem
      obtain ⟨c, hc, hisA⟩ := coversNondeterminism_iff.1 hcovers
      exact .listedFor hname hget hc (herror.isInstance_iff.2 hisA)

end

section
variable {σ : Type} {p : Policy (StateM σ)} {g : Graph} {error : Value} {workflowType : Option String} {s : σ}

theorem verdict_watched_of_decides (h : p.Decides g error workflowType) (asked : List Question) :
    p.watched.verdict g error workflowType (s, asked) = (true, s, asked) :=
  verdict_of_decides (watched_decides_iff.2 h)

end

end Policy

/-- **The settings tell what happens to nondeterminism.** Let an error be of the class of nondeterminism itself. If the
settings say that nondeterminism fails every workflow, or those of the type at hand, the error fails the workflow and
the predicate is not asked. If they do not, the answer is that of the predicate, and no without a predicate. -/
theorem settings_tell_classification {σ : Type} (p : Policy (StateM σ)) (g : Graph) (error : Value)
    (workflowType : Option String) (s : σ) (asked : List Policy.Question)
    (hrecord : (Fields.names p.listedFor).Nodup) (herror : g.IsNondeterminism error) :
    ((p.nondeterminismFails = true ∨ ∃ name ∈ p.nondeterminismFailsFor, workflowType = some name) →
      p.verdict g error workflowType s = (true, s) ∧
        p.watched.verdict g error workflowType (s, asked) = (true, s, asked)) ∧
    (¬ (p.nondeterminismFails = true ∨ ∃ name ∈ p.nondeterminismFailsFor, workflowType = some name) →
      p.verdict g error workflowType s =
        match p.predicate with
        | some ask => ask error workflowType s
        | none => (false, s)) := by
  have hagree : p.Decides g error workflowType ↔ p.SettingsFail workflowType :=
    Policy.decides_iff_settingsFail hrecord herror
  constructor
  · intro hsettings
    have hdecides := hagree.2 hsettings
    exact ⟨Policy.verdict_of_decides hdecides, Policy.verdict_watched_of_decides hdecides asked⟩
  · intro hsettings
    exact Policy.verdict_of_not_decides fun hdecides => hsettings (hagree.1 hdecides)

/-- A policy that lists a class above nondeterminism for workflows of one type, and a class below it for those of
another one. Its predicate is true of what it is asked about first. -/
def strictReplays : Policy (StateM Nat) where
  listed := [.derived "TypeError" .error]
  listedFor := [("order", [.application, .base]), ("refund", [.derived "ReplayError" .nondeterminism])]
  predicate := some fun _ _ count => (count = 0, count + 1)

/-- An error of the class of nondeterminism, as object 0. -/
def divergedReplay : Graph := ⟨[.error <| .raise [] (.library .nondeterminism (.text "nondeterminism") (.record []))
  (.text "no such command") none]⟩

/-- Nondeterminism fails the workflows of the first type, as the settings say. About the others the predicate is asked,
and changes its mind. -/
theorem settings_tell_classification_strictReplays :
    strictReplays.nondeterminismFails = false ∧ strictReplays.nondeterminismFailsFor = ["order"] ∧
    strictReplays.verdict divergedReplay (.object 0) (some "order") 0 = (true, 0) ∧
    strictReplays.watched.verdict divergedReplay (.object 0) (some "order") (0, []) = (true, 0, []) ∧
    strictReplays.verdict divergedReplay (.object 0) (some "refund") 0 = (true, 1) ∧
    strictReplays.verdict divergedReplay (.object 0) none 1 = (false, 2) := by
  have hrecord : (Fields.names strictReplays.listedFor).Nodup := by decide
  have herror : divergedReplay.IsNondeterminism (.object 0) := ⟨_, rfl, rfl⟩
  have horder := settings_tell_classification strictReplays divergedReplay (.object 0) (some "order") 0
    [] hrecord herror
  have hrefund := settings_tell_classification strictReplays divergedReplay (.object 0) (some "refund") 0
    [] hrecord herror
  have hnone := settings_tell_classification strictReplays divergedReplay (.object 0) none 1 [] hrecord herror
  obtain ⟨hfails, hquiet⟩ := horder.1 (.inr ⟨"order", by decide, rfl⟩)
  exact ⟨by decide, by decide, hfails, hquiet, hrefund.2 (by decide), hnone.2 (by decide)⟩

end FailureWire
