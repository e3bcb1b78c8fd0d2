import FailureWire.Proofs.Error.Causes
import FailureWire.Proofs.Related

/-!
# Chains of new errors

`Graph.addErrors` puts errors into a graph, each as the cause of the one before it. What comes out is a
finite chain of exactly these errors (`raised_addErrors`): `g.Raised g' e v` says that `v` is the error `e`,
put into the graph on the way from `g` to `g'` with its details, under some cause.
-/

namespace FailureWire

/-! ## Properties by name -/

namespace ThrownError

/-- The details of an error that is yet to be added, as a document. -/
def detailsDocument (e : ThrownError Document) : Document :=
  (e.failure?.bind (·.kind.details?)).getD .undefined

section
variable {δ ε : Type}

@[simp] theorem map_id (e : ThrownError δ) : e.map id = e := by
  obtain ⟨_, _, _, _, _, _, _, body, _⟩ := e
  cases body <;> simp [map, ErrorBody.map]

theorem map_map {ζ : Type} (f : δ → ε) (f' : ε → ζ) (e : ThrownError δ) : (e.map f).map f' = e.map (f' ∘ f) := by
  obtain ⟨_, _, _, _, _, _, _, body, _⟩ := e
  cases body <;> simp [map, ErrorBody.map, FailureKind.map_map]

@[simp] theorem failure?_map (f : δ → ε) (e : ThrownError δ) :
    (e.map f).failure? =
      e.failure?.map fun fs => ⟨fs.displayMessage, fs.stored, fs.stackTrace, fs.kind.map f⟩ := by
  simp only [failure?, map]
  cases e.body <;> rfl

@[simp] theorem failure?_withCause (e : ThrownError δ) (cause : Option Value) :
    (e.withCause cause).failure? = e.failure? := rfl

end

end ThrownError

theorem ErrorBody.get?_cause (b : ErrorBody Value) : Fields.get? b.properties "cause" = none := by
  cases b with
  | host named => rfl
  | library sort code context => simp [properties, code?, failure?, Fields.get?]
  | failure code context f =>
    obtain ⟨display, stored, trace, kind⟩ := f
    cases kind <;> simp [properties, code?, failure?, FailureKind.properties, Fields.get?]

namespace ThrownError

theorem get?_cause {e : ThrownError Value} (hextra : Fields.get? e.extra "cause" = none) :
    Fields.get? e.properties "cause" = e.cause := by
  have hstack (s : Option Value) : Fields.get? (s.map fun s => ("stack", s)).toList "cause" = none := by
    cases s <;> simp [Fields.get?]
  have hcause (c : Option Value) : Fields.get? (c.map fun c => ("cause", c)).toList "cause" = c := by
    cases c <;> simp [Fields.get?]
  simp [properties, classProperties, Fields.get?_append, hextra, hstack, hcause, ErrorBody.get?_cause, Fields.get?]

end ThrownError

/-! ## New errors -/

namespace Graph

/-- An error, put into the graph with its details, under some cause. -/
def Raised (g g' : Graph) (e : ThrownError Document) (v : Value) : Prop :=
  ∃ cause details, g'.errorOf? v = some ((e.withCause cause).map fun _ => details) ∧
    g.Placed g' e.detailsDocument details

section
variable {g g' g'' : Graph} {e : ThrownError Document} {v : Value}

theorem Raised.mono (h : g' ≤ g'') (hr : g.Raised g' e v) : g.Raised g'' e v := by
  obtain ⟨cause, details, he, hd⟩ := hr
  exact ⟨cause, details, errorOf?_of_le h he, hd.mono h⟩

theorem Raised.holds (hr : g.Raised g' e v) : g'.Holds v := by
  obtain ⟨cause, details, he, -⟩ := hr
  exact holds_of_objectOf? (errorOf?_eq_some.1 he)

theorem name_eq_of_raised (hr : g.Raised g' e v) : g'.read v "name" = e.name := by
  obtain ⟨cause, details, he, -⟩ := hr
  exact read_eq_of_get? (get?_of_error he _)

theorem errorOf?_addError (g : Graph) (e : ThrownError Document) :
    ∃ details, (g.addError e).1.errorOf? (g.addError e).2 = some (e.map fun _ => details) ∧
      g.Placed (g.addError e).1 e.detailsDocument details :=
  ⟨_, errorOf?_eq_some.2 (node?_push_self _ _), (placed_add g e.detailsDocument).mono (le_push _ _)⟩

theorem causeOf_of_own {e : ThrownError Value} (he : g.errorOf? v = some e)
    (hown : Fields.get? e.extra "cause" = none) : g.causeOf v = .ofOption e.cause := by
  rw [causeOf, read, get?_of_error he, ThrownError.get?_cause hown]

/-- What an error without further properties was given as its cause is its cause. -/
theorem causeOf_of_error {e : ThrownError Value} (he : g.errorOf? v = some e) (hextra : e.extra = []) :
    g.causeOf v = .ofOption e.cause :=
  causeOf_of_own he (by rw [hextra]; rfl)

theorem le_addErrors (g : Graph) : ∀ es : List (ThrownError Document), g ≤ (g.addErrors es).1
  | [] => le_refl g
  | [e] => le_addError g e
  | _ :: next :: rest => (le_addErrors g (next :: rest)).trans (le_addError _ _)

/-- An error with others behind it is added with them as its cause. -/
theorem addErrors_cons_cons (g : Graph) (e next : ThrownError Document) (rest : List (ThrownError Document)) :
    g.addErrors (e :: next :: rest) = (g.addErrors (next :: rest)).1.addError
      (e.withCause (some (g.addErrors (next :: rest)).2)) := rfl

theorem causeOf_addErrors (g : Graph) {e : ThrownError Document} (next : ThrownError Document)
    (rest : List (ThrownError Document)) (hextra : e.extra = []) :
    (g.addErrors (e :: next :: rest)).1.causeOf (g.addErrors (e :: next :: rest)).2 =
      (g.addErrors (next :: rest)).2 := by
  obtain ⟨details, he, -⟩ := errorOf?_addError (g.addErrors (next :: rest)).1
    (e.withCause (some (g.addErrors (next :: rest)).2))
  rw [addErrors_cons_cons, causeOf_of_error he hextra]
  rfl

/-- **Errors are added as a chain of causes.** -/
theorem raised_addErrors (g : Graph) : ∀ {es : List (ThrownError Document)},
    (∀ e ∈ es, e.cause = none ∧ e.extra = []) →
      ∃ vs, (g.addErrors es).1.CauseChain (g.addErrors es).2 vs ∧
        List.Forall₂ (g.Raised (g.addErrors es).1) es vs
  | [], _ => ⟨[], .done rfl, .nil⟩
  | [e], h => by
    obtain ⟨hcause, hextra⟩ := h e (List.mem_singleton_self e)
    obtain ⟨details, he, hd⟩ := errorOf?_addError g e
    have hend := causeOf_of_error he hextra
    refine ⟨[_], .link (isMissing_of_errorOf? he) (.done ?_), .cons ⟨e.cause, details, he, hd⟩ .nil⟩
    rw [show g.addErrors [e] = g.addError e from rfl, hend]
    simp [ThrownError.map, hcause, Value.ofOption, Value.isMissing]
  | e :: next :: rest, h => by
    obtain ⟨vs, hchain, hraised⟩ := raised_addErrors g fun e he => h e (List.mem_cons_of_mem _ he)
    have hcause := causeOf_addErrors g next rest (h e (List.mem_cons_self ..)).2
    have hle := le_addErrors g (next :: rest)
    rw [addErrors_cons_cons] at hcause ⊢
    generalize g.addErrors (next :: rest) = added at hcause hle hchain hraised ⊢
    obtain ⟨details, he, hd⟩ := errorOf?_addError added.1 (e.withCause (some added.2))
    have hgrow := le_addError added.1 (e.withCause (some added.2))
    refine ⟨_ :: vs, .link (isMissing_of_errorOf? he) ?_, .cons ⟨some added.2, details, he, ?_⟩ ?_⟩
    · rw [hcause]
      refine hchain.mono hgrow fun x hx => ?_
      obtain ⟨e', -, hr⟩ := exists_of_forall₂ hraised hx
      exact hr.holds
    · obtain ⟨first, hfirst, hplaced, hvalue⟩ := hd
      exact ⟨first, hle.trans hfirst, hplaced, hvalue⟩
    · exact hraised.imp fun _ _ hr => hr.mono hgrow

/-- **The last one of the errors that are added has no cause.** -/
theorem causeAt_addErrors (g : Graph) : ∀ {es : List (ThrownError Document)}, es ≠ [] →
    (∀ e ∈ es, e.cause = none ∧ e.extra = []) →
      (g.addErrors es).1.causeAt es.length (g.addErrors es).2 = .undefined
  | [], hne, _ => absurd rfl hne
  | [e], _, h => by
    obtain ⟨hcause, hextra⟩ := h e (List.mem_singleton_self e)
    obtain ⟨details, he, -⟩ := errorOf?_addError g e
    have hend : (g.addError e).1.causeOf (g.addError e).2 = .ofOption e.cause := causeOf_of_error he hextra
    rw [hcause] at hend
    exact hend
  | e :: next :: rest, _, h => by
    have hplain := fun e he => h e (List.mem_cons_of_mem _ he)
    obtain ⟨vs, hchain, hraised⟩ := raised_addErrors g hplain
    rw [List.length_cons, causeAt, causeOf_addErrors g next rest (h e (List.mem_cons_self ..)).2,
      ← causeAt_addErrors g (List.cons_ne_nil next rest) hplain, addErrors_cons_cons]
    refine causeAt_eq_of_le (le_addError _ _) fun i hi => ?_
    -- the values on the way are errors that were added
    have hx := List.getElem?_eq_getElem (hraised.length_eq ▸ hi)
    rw [← hchain.path.getElem? hx]
    obtain ⟨e', -, hr⟩ := exists_of_forall₂ hraised (List.mem_of_getElem? hx)
    exact hr.holds

end
end Graph
end FailureWire
