import FailureWire.Proofs.Conversion.Arrival

/-!
# What can be sent

A value can be sent if the failure that stands for it can be: `o.CanSend g v` asks this of the value itself,
not of the failure that is made of it. The failure is of the kind `g.kindOf v`.
-/

namespace FailureWire

/-- The kind of the failure that stands for a value. -/
def Graph.kindOf (g : Graph) (v : Value) : FailureKind Document :=
  match g.errorOf? v with
  | some e => (e.failure?.map (·.kind.map .existing)).getD e.hostKind
  | none => .ofApplication (.text nonErrorType) [] .undefined .undefined

namespace ConverterOptions

/-- A value can be sent: an error is typed, was not decoded from a wire failure, and has details that the
codec restores, and the codec restores the attributes that it has to encode. -/
structure CanSend (o : ConverterOptions) (g : Graph) (v : Value) : Prop where
  typed : ∀ e, g.errorOf? v = some e → (e.map .existing).Typed g
  failure : ∀ e f, g.errorOf? v = some e → e.failure? = some f →
    f.stored = .undefined ∧ ∀ x ∈ (f.kind.map .existing).items g, o.codec.Restores g x
  attributes : o.encodeCommonAttributes = true → ∀ e message stackTrace, g.toFailure o.frames v = .ok e →
    e.message = .text message → o.stackTraceOf g e = .text stackTrace →
      o.codec.RestoresAttributes g message stackTrace

variable {o : ConverterOptions} {g : Graph} {v : Value}

/-- **What can be sent is sent as a failure of its kind.** -/
theorem CanSend.sends (h : o.CanSend g v) :
    ∃ e, g.toFailure o.frames v = .ok e ∧ ∃ f, o.Sends g e f ∧ f.stored = .undefined ∧ f.kind = g.kindOf v := by
  have hattributes := h.attributes
  cases he : g.errorOf? v with
  | none =>
    have hmade : g.toFailure o.frames v = .ok (Graph.failureOfOther o.frames v) := by rw [Graph.toFailure, he]
    refine ⟨_, hmade, _, ⟨?_, rfl, ?_, fun ho m t => hattributes ho _ m t hmade⟩, rfl, ?_⟩
    · exact ThrownError.typed_build (.application (.inr ⟨_, rfl⟩) .empty (.inl rfl)) ⟨_, rfl⟩ (.inl rfl)
    · rintro x ⟨⟩
    · simp [Graph.kindOf, he]
  | some e =>
    obtain ⟨e', hmade, htyped, f, hf, hstored, hkind⟩ := Graph.toFailure_of_typed he (h.typed e he)
    have hkindOf : f.kind = g.kindOf v := by simp [hkind, Graph.kindOf, he]
    refine ⟨e', hmade, f, ⟨htyped, hf, ?_, fun ho m t => hattributes ho e' m t hmade⟩, ?_, hkindOf⟩
    · cases hfailure : e.failure? with
      | some f' =>
        rw [hkind, hfailure]
        exact (h.failure e f' he hfailure).2
      | none =>
        rw [hkind, hfailure]
        simp
    · rw [hstored]
      cases hfailure : e.failure? with
      | some f' => exact (h.failure e f' he hfailure).1
      | none => rfl

end ConverterOptions
end FailureWire
