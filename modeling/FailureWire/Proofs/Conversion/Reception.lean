import FailureWire.Conversion.Receive
import FailureWire.Proofs.Conversion.Emission

/-!
# What wire failures become

Whatever a conversion makes of a wire failure, each error of the result keeps the link that it was decoded
from (`keeps_of_receive`), and the errors stand in the graph as a finite chain (`keeps_of_failureToError`).
The chain may be shorter than that of the wire failure: it ends where a limit, a cycle or a link without
a class of its own ends it.
-/

namespace FailureWire

/-- An error was made of a link, which it keeps. -/
def ThrownError.MadeOf (link : Value) (e : ThrownError Document) : Prop :=
  link.isMissing = false ∧ ∃ kind message display trace frames,
    e = build kind message display { stored := link, stackTrace := trace, frames }

/-- A value is an error that keeps a wire failure. -/
def Graph.Keeps (g : Graph) (v link : Value) : Prop :=
  link.isMissing = false ∧ ∃ e f, g.errorOf? v = some e ∧ e.failure? = some f ∧ f.stored = link

namespace Graph

variable {g g' : Graph} {v link : Value}

theorem Keeps.mono (h : g ≤ g') (hv : g.Keeps v link) : g'.Keeps v link := by
  obtain ⟨hlink, e, f, he, hf, hstored⟩ := hv
  exact ⟨hlink, e, f, errorOf?_of_le h he, hf, hstored⟩

theorem Keeps.holds (hv : g.Keeps v link) : g.Holds v := by
  obtain ⟨-, e, f, he, -, -⟩ := hv
  exact holds_of_objectOf? (errorOf?_eq_some.1 he)

theorem Raised.keeps {e : ThrownError Document} (hr : g.Raised g' e v) (he : e.MadeOf link) :
    g'.Keeps v link := by
  obtain ⟨cause, details, herror, -⟩ := hr
  obtain ⟨hlink, kind, message, display, trace, frames, rfl⟩ := he
  exact ⟨hlink, _, _, herror, rfl, rfl⟩

end Graph

/-! ## One link -/

namespace ConverterOptions

open Logged

variable {o : ConverterOptions} {g : Graph} {before after : List LogEntry}

theorem madeOf_of_toError {a : CommonAttributes} {link : Value} {kind : FailureKind Document}
    {e : ThrownError Document} (hlink : link.isMissing = false)
    (h : a.toError g o.frames link kind = .ok e) : e.MadeOf link := by
  unfold CommonAttributes.toError ThrownError.ofKind at h
  obtain ⟨display, -, h⟩ := FailureWire.Except.bind_eq_ok.1 h
  obtain ⟨-, -, h⟩ := FailureWire.Except.bind_eq_ok.1 h
  cases h
  exact ⟨hlink, _, _, _, _, _, rfl⟩

theorem isMissing_of_attributesOf {link : Value} {a : CommonAttributes}
    (h : (o.attributesOf g link).Ends before a after) : link.isMissing = false := by
  unfold attributesOf at h
  dsimp only at h
  split at h
  · obtain ⟨_, _, hthrow, -⟩ := ends_bind.1 h
    exact (not_ends_throw hthrow).elim
  next hlink => simpa using hlink

/-- **The error that a link becomes keeps the link.** -/
theorem madeOf_of_errorOf {link : Value} {e : ThrownError Document} {mapped : Bool}
    (h : (o.errorOf g link).Ends before (e, mapped) after) : e.MadeOf link := by
  unfold errorOf at h
  obtain ⟨a, _, ha, h⟩ := ends_bind.1 h
  have hlink := isMissing_of_attributesOf ha
  obtain ⟨info, _, -, h⟩ := ends_bind.1 h
  obtain ⟨kind?, _, -, h⟩ := ends_bind.1 h
  cases kind? with
  | some kind =>
    obtain ⟨e', _, he, h⟩ := ends_bind.1 h
    obtain ⟨heq, -⟩ := ends_pure.1 h
    cases heq
    exact madeOf_of_toError hlink (ends_ofExcept.1 he).1
  | none =>
    obtain ⟨_, _, -, h⟩ := ends_bind.1 h
    obtain ⟨e', _, he, h⟩ := ends_bind.1 h
    obtain ⟨heq, -⟩ := ends_pure.1 h
    cases heq
    exact madeOf_of_toError hlink (ends_ofExcept.1 he).1

/-! ## Chains -/

/-- Links become errors that keep them, from the first one on; but the last ones may be dropped. -/
theorem madeOf_of_errorsOf : ∀ {links : List Value} {errors : List (ThrownError Document)}
    {before after : List LogEntry}, (o.errorsOf g links).Ends before errors after →
      ∃ kept, kept <+: links ∧ List.Forall₂ ThrownError.MadeOf kept errors ∧
        (links ≠ [] → kept ≠ [])
  | [], errors, _, _, h => by
    obtain ⟨rfl, -⟩ := ends_pure.1 h
    exact ⟨[], List.nil_prefix, .nil, id⟩
  | link :: rest, errors, _, _, h => by
    rw [errorsOf] at h
    obtain ⟨inner, _, hinner, h⟩ := ends_bind.1 h
    obtain ⟨⟨e, mapped⟩, _, he, h⟩ := ends_bind.1 h
    obtain ⟨rfl, -⟩ := ends_pure.1 h
    have hmade := madeOf_of_errorOf he
    cases mapped with
    | true =>
      obtain ⟨kept, hinit, hkept, -⟩ := madeOf_of_errorsOf hinner
      exact ⟨link :: kept, List.cons_prefix_cons.2 ⟨rfl, hinit⟩, .cons hmade hkept,
        fun _ => List.cons_ne_nil _ _⟩
    | false =>
      exact ⟨[link], List.cons_prefix_cons.2 ⟨rfl, List.nil_prefix⟩, .cons hmade .nil,
        fun _ => List.cons_ne_nil _ _⟩

/-- **What is received is what the links of the chain become**, after the report that the chain was cut, if
it was. -/
theorem ends_receive {f : Value} {errors : List (ThrownError Document)} :
    (o.receive g f).Ends before errors after ↔
      ∃ chain, g.wireWalk o.maxCauseDepth f = .ok chain ∧
        (o.errorsOf g (linksOrSelf chain f)).Ends (before ++ chain.warnings .deserialize) errors after := by
  unfold receive
  rw [ends_bind]
  constructor
  · rintro ⟨chain, _, hchain, h⟩
    obtain ⟨hwalk, rfl⟩ := ends_ofExcept.1 hchain
    refine ⟨chain, hwalk, ?_⟩
    unfold Chain.warnings
    dsimp only at h
    split at h
    next hcut =>
      obtain ⟨_, _, hreport, h⟩ := ends_bind.1 h
      obtain rfl := ends_report.1 hreport
      rwa [if_pos hcut]
    next hcut => rwa [if_neg hcut, List.append_nil]
  · rintro ⟨chain, hwalk, h⟩
    refine ⟨chain, _, ends_ofExcept.2 ⟨hwalk, rfl⟩, ?_⟩
    unfold Chain.warnings at h
    dsimp only
    split at h
    next hcut =>
      rw [if_pos hcut]
      exact ends_bind.2 ⟨(), _, ends_report.2 rfl, h⟩
    next hcut => rwa [if_neg hcut, ← List.append_nil before]

/-- The errors that a wire failure becomes keep the failure and the causes of it, one after the other. -/
theorem madeOf_of_receive {f : Value} {errors : List (ThrownError Document)}
    (h : (o.receive g f).Ends before errors after) :
    ∃ kept, g.CausePath f kept ∧ kept ≠ [] ∧ List.Forall₂ ThrownError.MadeOf kept errors := by
  obtain ⟨chain, hchain, herrors⟩ := ends_receive.1 h
  have hpath := causePath_linksOrSelf (Graph.causePath_wireWalk hchain)
  obtain ⟨kept, hinit, hkept, hne⟩ := madeOf_of_errorsOf herrors
  exact ⟨kept, hpath.shorten hinit, hne (linksOrSelf_ne_nil chain f), hkept⟩

/-- **A wire failure becomes a finite chain of errors, each of which keeps the link that it was made of.** -/
theorem keeps_of_failureToError {f v : Value} {g' : Graph}
    (h : (o.failureToError g f).outcome.1 = .ok (g', v)) :
    g ≤ g' ∧ ∃ vs kept, g'.CauseChain v vs ∧ vs ≠ [] ∧ g.CausePath f kept ∧
      List.Forall₂ g'.Keeps vs kept := by
  obtain ⟨after, h⟩ := outcome_fst_eq_iff.1 h
  obtain ⟨errors, _, hreceive, h⟩ := ends_bind.1 h
  obtain ⟨hadd, -⟩ := ends_pure.1 h
  obtain ⟨kept, hpath, hne, hkept⟩ := madeOf_of_receive hreceive
  have hplain : ∀ e ∈ errors, e.cause = none ∧ e.extra = [] := by
    intro e he
    obtain ⟨link, -, -, kind, message, display, trace, frames, rfl⟩ := exists_of_forall₂ hkept he
    exact ⟨rfl, rfl⟩
  obtain ⟨vs, hchain, hraised⟩ := g.raised_addErrors hplain
  rw [← hadd] at hchain hraised
  have hkeeps : List.Forall₂ g'.Keeps vs kept :=
    (forall₂_comp (fun _ _ _ hmade hr => hr.keeps hmade) hkept hraised).flip
  refine ⟨by simpa [← hadd] using g.le_addErrors errors, vs, kept, hchain, ?_, hpath, hkeeps⟩
  rintro rfl
  cases hkeeps
  exact hne rfl

end ConverterOptions
end FailureWire
