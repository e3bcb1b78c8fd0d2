import FailureWire.Log.Entry
import FailureWire.Proofs.Related

/-!
# Computations that come to an end

`x.Ends before a after` says that `x` gives `a` when it starts with the entries `before`, and that the
entries `after` have been reported then. A computation that is made of two parts ends exactly if both
parts do (`ends_bind`), which takes such computations apart.

`x.Gives a` says that `x` gives `a` whatever has been reported before. It puts computations together:
what is reported on the way need not be named.
-/

namespace FailureWire

@[simp] theorem Except.ok_bind {ε α β : Type} (a : α) (f : α → Except ε β) :
    ((Except.ok a : Except ε α) >>= f) = f a := rfl

/-- A computation that may fail gives a result exactly if its parts do. -/
theorem Except.bind_eq_ok {ε α β : Type} {x : Except ε α} {f : α → Except ε β} {b : β} :
    (x >>= f) = .ok b ↔ ∃ a, x = .ok a ∧ f a = .ok b := by
  cases x with
  | error e => simp [bind, Except.bind]
  | ok a => simp [bind, Except.bind]

/-- What is made of a result is there exactly if the result is. -/
theorem Except.exists_return_iff {ε α β : Type} {x : Except ε α} {f : α → β} :
    (∃ b, (do return f (← x)) = Except.ok b) ↔ ∃ a, x = .ok a := by
  constructor
  · rintro ⟨b, h⟩
    obtain ⟨a, ha, -⟩ := bind_eq_ok.1 h
    exact ⟨a, ha⟩
  · rintro ⟨a, ha⟩
    exact ⟨f a, bind_eq_ok.2 ⟨a, ha, rfl⟩⟩

/-- A list of computations that may fail gives the list of their results. -/
theorem Except.mapM_eq_ok {ε α β : Type} {f : α → Except ε β} {xs : List α} {ys : List β} :
    xs.mapM f = .ok ys ↔ List.Forall₂ (fun x y => f x = .ok y) xs ys := by
  induction xs generalizing ys with
  | nil =>
    rw [List.mapM_nil, List.forall₂_nil_left_iff]
    exact ⟨fun h => (Except.ok.inj h).symm, fun h => congrArg Except.ok h.symm⟩
  | cons x xs ih =>
    rw [List.mapM_cons, bind_eq_ok]
    constructor
    · rintro ⟨y, hy, h⟩
      obtain ⟨rest, hrest, hys⟩ := bind_eq_ok.1 h
      cases hys
      exact .cons hy (ih.1 hrest)
    · intro h
      obtain ⟨y, rest, hy, hrest, rfl⟩ := List.forall₂_cons_left_iff.1 h
      exact ⟨y, hy, bind_eq_ok.2 ⟨rest, ih.2 hrest, rfl⟩⟩

/-- A list of computations that may fail has results exactly if each of them has one. -/
theorem Except.exists_mapM_iff {ε α β : Type} {f : α → Except ε β} {xs : List α} :
    (∃ ys, xs.mapM f = .ok ys) ↔ ∀ x ∈ xs, ∃ y, f x = .ok y := by
  constructor
  · rintro ⟨ys, hys⟩ x hx
    obtain ⟨y, -, hy⟩ := exists_of_forall₂ (mapM_eq_ok.1 hys).flip hx
    exact ⟨y, hy⟩
  · intro h
    obtain ⟨ys, hys⟩ := exists_forall₂ h
    exact ⟨ys, mapM_eq_ok.2 hys⟩

namespace Logged

variable {α β : Type}

/-- The outcome of a computation that starts with some entries, and the entries reported then. -/
def runFrom (x : Logged α) (before : List LogEntry) : Except Fault α × List LogEntry :=
  x.run.run before

/-- A computation that starts with some entries ends with a value and entries. -/
def Ends (x : Logged α) (before : List LogEntry) (a : α) (after : List LogEntry) : Prop :=
  x.runFrom before = (.ok a, after)

theorem outcome_eq_iff {x : Logged α} {a : α} {entries : List LogEntry} :
    x.outcome = (.ok a, entries) ↔ x.Ends [] a entries := Iff.rfl

/-- A computation has a result exactly if it ends with it. -/
theorem outcome_fst_eq_iff {x : Logged α} {a : α} :
    x.outcome.1 = .ok a ↔ ∃ entries, x.Ends [] a entries := by
  constructor
  · intro h
    exact ⟨x.outcome.2, Prod.ext h rfl⟩
  · rintro ⟨entries, h⟩
    exact congrArg Prod.fst h

variable {before after : List LogEntry}

@[simp] theorem ends_pure {a b : α} :
    (pure a : Logged α).Ends before b after ↔ b = a ∧ after = before := by
  show (Except.ok a, before) = (Except.ok b, after) ↔ _
  simp [eq_comm]

theorem ends_bind {x : Logged α} {f : α → Logged β} {b : β} :
    (x >>= f).Ends before b after ↔
      ∃ a between, x.Ends before a between ∧ (f a).Ends between b after := by
  have hrun : (x >>= f).runFrom before =
      match x.runFrom before with
      | (.ok a, between) => (f a).runFrom between
      | (.error e, between) => (.error e, between) := by
    rw [runFrom, ExceptT.run_bind, StateT.run_bind]
    show _ = match x.run.run before with
      | (.ok a, between) => (f a).runFrom between
      | (.error e, between) => (.error e, between)
    rcases x.run.run before with ⟨e | a, between⟩ <;> rfl
  rw [Ends, hrun]
  simp only [Ends]
  rcases x.runFrom before with ⟨e | a, between⟩
  · simp
  · constructor
    · intro h
      exact ⟨a, between, rfl, h⟩
    · rintro ⟨a, between, ⟨⟩, h⟩
      exact h

@[simp] theorem ends_ofExcept {x : Except Fault α} {a : α} :
    (ofExcept x).Ends before a after ↔ x = .ok a ∧ after = before := by
  cases x with
  | ok b => simp [ofExcept, eq_comm]
  | error f =>
    show (Except.error f, before) = (Except.ok a, after) ↔ _
    simp

@[simp] theorem ends_report {level : LogLevel} {message : String} {fields : Option Document}
    {u : Unit} :
    (report level message fields).Ends before u after ↔
      after = before ++ [⟨level, message, fields⟩] := by
  show (Except.ok (), before ++ [⟨level, message, fields⟩]) = (Except.ok u, after) ↔ _
  simp [eq_comm]

@[simp] theorem not_ends_throw {f : Fault} {a : α} :
    ¬ (throw f : Logged α).Ends before a after := by
  show ¬ (Except.error f, before) = (Except.ok a, after)
  simp

/-! ## Whatever was reported before -/

/-- A computation gives a value, whatever was reported before it. -/
def Gives (x : Logged α) (a : α) : Prop := ∀ before, ∃ after, x.Ends before a after

theorem Gives.outcome {x : Logged α} {a : α} (h : x.Gives a) : x.outcome.1 = .ok a :=
  outcome_fst_eq_iff.2 (h [])

theorem gives_pure (a : α) : (pure a : Logged α).Gives a := fun _ => ⟨_, ends_pure.2 ⟨rfl, rfl⟩⟩

theorem gives_ofExcept {x : Except Fault α} {a : α} (h : x = .ok a) : (ofExcept x).Gives a :=
  fun _ => ⟨_, ends_ofExcept.2 ⟨h, rfl⟩⟩

theorem gives_report (level : LogLevel) (message : String) (fields : Option Document) :
    (report level message fields).Gives () := fun _ => ⟨_, ends_report.2 rfl⟩

theorem Gives.bind {x : Logged α} {f : α → Logged β} {a : α} {b : β} (hx : x.Gives a)
    (hf : (f a).Gives b) : (x >>= f).Gives b := by
  intro before
  obtain ⟨between, ha⟩ := hx before
  obtain ⟨after, hb⟩ := hf between
  exact ⟨after, ends_bind.2 ⟨a, between, ha, hb⟩⟩

end Logged
end FailureWire
