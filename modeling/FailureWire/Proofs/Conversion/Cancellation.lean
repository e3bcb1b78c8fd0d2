import FailureWire.Proofs.Conversion.Passage
import FailureWire.Proofs.Conversion.Sending

/-!
# Cancellation across the wire

Cancellation is recognized on the other side (`isCancellation`) exactly where it was meant: in a cancelled failure or
the host's signal, and in a failure of an activity or a child workflow whose direct cause is one of these
(`isCancellation_iff_of_passage`). Whatever lies further behind, in whatever shape, makes no difference, and neither
do the options of the two converters.
-/

namespace FailureWire

/-! ## Kinds -/

namespace FailureKind

variable {δ : Type}

def cancels : FailureKind δ → Bool
  | .cancelled _ => true
  | _ => false

def wraps : FailureKind δ → Bool
  | .activity .. | .childWorkflow .. => true
  | _ => false

theorem cancels_map {ε : Type} (f : δ → ε) (k : FailureKind δ) : (k.map f).cancels = k.cancels := by
  cases k <;> rfl

theorem wraps_map {ε : Type} (f : δ → ε) (k : FailureKind δ) : (k.map f).wraps = k.wraps := by
  cases k <;> rfl

theorem cancels_arrived (details : List Document) (k : FailureKind Document) :
    ((k.arrived details).getD .generic).cancels = k.cancels := by
  cases k <;> rfl

theorem wraps_arrived (details : List Document) (k : FailureKind Document) :
    ((k.arrived details).getD .generic).wraps = k.wraps := by
  cases k <;> rfl

theorem isSome_arrived_of_wraps {details : List Document} {k : FailureKind Document} (h : k.wraps = true) :
    (k.arrived details).isSome = true := by
  cases k <;> first | rfl | cases h

/-- No class of failures goes by the name of the host's signal. -/
theorem name_errorClass_ne (k : FailureKind δ) : k.errorClass.name ≠ "AbortError" := by
  cases k <;> simp [errorClass, ErrorClass.name]

end FailureKind

namespace ThrownError

variable {δ : Type}

theorem isCancelled_eq (e : ThrownError δ) : e.isCancelled = e.failure?.any (·.kind.cancels) := by
  rw [isCancelled, failure?]
  cases e.body <;> rfl

theorem isWrapper_eq (e : ThrownError δ) : e.isWrapper = e.failure?.any (·.kind.wraps) := by
  rw [isWrapper, failure?]
  cases e.body <;> rfl

theorem cancels_hostKind (e : ThrownError δ) : e.hostKind.cancels = e.isAbort := by
  unfold hostKind
  split
  next h => exact h.symm
  next h => simpa [FailureKind.cancels, FailureKind.ofApplication] using h

theorem wraps_hostKind (e : ThrownError δ) : e.hostKind.wraps = false := by
  unfold hostKind
  split <;> rfl

end ThrownError

namespace Graph

variable {g : Graph} {v : Value}

/-- A value is a cancelled failure, or an error that is no failure and is the host's signal. -/
def Cancels (g : Graph) (v : Value) : Prop :=
  ∃ e, g.errorOf? v = some e ∧ (e.isCancelled = true ∨ e.failure? = none ∧ e.isAbort = true)

theorem cancels_iff : g.Cancels v ↔ (g.kindOf v).cancels = true := by
  unfold Cancels kindOf
  cases he : g.errorOf? v with
  | none => simp [FailureKind.cancels, FailureKind.ofApplication]
  | some e => cases hf : e.failure? <;>
      simp [hf, ThrownError.isCancelled_eq, FailureKind.cancels_map, ThrownError.cancels_hostKind]

theorem isWrapper_eq_wraps : g.isWrapper v = (g.kindOf v).wraps := by
  unfold isWrapper kindOf
  cases he : g.errorOf? v with
  | none => rfl
  | some e => cases hf : e.failure? <;>
      simp [hf, ThrownError.isWrapper_eq, FailureKind.wraps_map, ThrownError.wraps_hostKind]

end Graph

namespace ConverterOptions

variable {o r : ConverterOptions} {g : Graph} {v : Value}

/-! ## The first two links -/

/-- What has a cause is an object, so a walk without a limit may take two links in such a graph, too. -/
theorem two_le_linksIn {d : Depth} (hd : d.Admits 2) (hcause : (g.causeOf v).isMissing = false) :
    2 ≤ d.linksIn g := by
  cases d with
  | atMost limit => exact hd
  | unlimited =>
    obtain ⟨id, -, hid⟩ := Graph.exists_id_of_causeOf hcause
    exact Nat.succ_le_succ (Nat.zero_lt_of_lt hid)

/-- The links behind the first one: the cause and what follows, unless there is none or it is the value
itself. -/
theorem links_walkFrom_cause (left : Nat) (hleft : (g.causeOf v).isMissing = false → 1 ≤ left) :
    ((g.walkFrom left v.id?.toList (g.causeOf v)).links = [] ∧
        ((g.causeOf v).isMissing = true ∨ g.causeOf v = v)) ∨
      ∃ rest, (g.walkFrom left v.id?.toList (g.causeOf v)).links = g.causeOf v :: rest := by
  cases hcause : (g.causeOf v).isMissing with
  | true => cases left <;> simp [Graph.walkFrom, hcause]
  | false =>
    obtain ⟨n, rfl⟩ : ∃ n, left = n + 1 := ⟨left - 1, by have := hleft hcause; omega⟩
    rw [Graph.walkFrom, if_neg (by simp [hcause])]
    cases hid : (g.causeOf v).id? with
    | none => exact .inr ⟨_, rfl⟩
    | some id =>
      by_cases hseen : v.id?.toList.contains id
      · refine .inl ⟨by simp only [hseen]; rfl, .inr ?_⟩
        have hself : v.id? = some id := by simpa using hseen
        cases hv : v <;> cases hc : g.causeOf v <;> simp_all [Value.id?]
      · exact .inr ⟨_, by simp only [hseen]; rfl⟩

/-- A walk that may take two links takes the value, and its cause unless there is none or it is the value
itself. -/
theorem linksOrSelf_walk_two {d : Depth} (hd : d.Admits 2) (g : Graph) (v : Value) :
    (linksOrSelf (g.walk d v) v = [v] ∧ ((g.causeOf v).isMissing = true ∨ g.causeOf v = v)) ∨
      ∃ rest, linksOrSelf (g.walk d v) v = v :: g.causeOf v :: rest := by
  cases hv : v.isMissing with
  | true =>
    have hlinks : (g.walk d v).links = [] := by
      rw [Graph.walk]
      cases d.linksIn g <;> simp [Graph.walkFrom, hv]
    refine .inl ⟨by simp [linksOrSelf, hlinks], .inl ?_⟩
    rw [Graph.causeOf_of_isMissing hv]
    rfl
  | false =>
    obtain ⟨n, hn⟩ : ∃ n, d.linksIn g = n + 1 := by
      cases d with
      | atMost limit =>
        have hlimit : 2 ≤ limit := hd
        exact ⟨limit - 1, by show limit = _; omega⟩
      | unlimited => exact ⟨g.size, rfl⟩
    have hlinks : (g.walk d v).links = v :: (g.walkFrom n v.id?.toList (g.causeOf v)).links := by
      rw [Graph.walk, hn, Graph.walkFrom, if_neg (by simp [hv])]
      cases hid : v.id? <;> rfl
    have hself : linksOrSelf (g.walk d v) v = (g.walk d v).links := by simp [linksOrSelf, hlinks]
    rw [hself, hlinks]
    have hleft (hcause : (g.causeOf v).isMissing = false) : 1 ≤ n := by
      have htwo := two_le_linksIn hd hcause
      omega
    rcases links_walkFrom_cause n hleft with ⟨hrest, hend⟩ | ⟨rest, hrest⟩
    · exact .inl ⟨by rw [hrest], hend⟩
    · exact .inr ⟨rest, by rw [hrest]⟩

/-! ## What arrives of the first two links -/

variable {g₁ g₂ : Graph} {e : ThrownError Document} {f : FailureFields Document} {link x : Value}
  {a : ThrownError Document × Bool}

theorem isCancelled_of_raised (h : g₁.Raised g₂ e x) : g₂.isCancelled x = e.isCancelled := by
  obtain ⟨cause, details, he, -⟩ := h
  rw [Graph.isCancelled, he]
  cases hf : e.failure? <;> simp [ThrownError.isCancelled_eq, hf, FailureKind.cancels_map]

theorem isWrapper_of_raised (h : g₁.Raised g₂ e x) : g₂.isWrapper x = e.isWrapper := by
  obtain ⟨cause, details, he, -⟩ := h
  rw [Graph.isWrapper, he]
  cases hf : e.failure? <;> simp [ThrownError.isWrapper_eq, hf, FailureKind.wraps_map]

theorem isCancelled_of_arrives (h : o.Arrives g g₁ e link a) (hf : e.failure? = some f) :
    a.1.isCancelled = f.kind.cancels := by
  obtain ⟨f', ds, display, frames, hf', -, rfl⟩ := h
  cases hf.symm.trans hf'
  rw [ThrownError.isCancelled_eq, ← FailureKind.cancels_arrived (Document.alignFrom 1 ds)]
  rfl

theorem isWrapper_of_arrives (h : o.Arrives g g₁ e link a) (hf : e.failure? = some f) :
    a.1.isWrapper = f.kind.wraps := by
  obtain ⟨f', ds, display, frames, hf', -, rfl⟩ := h
  cases hf.symm.trans hf'
  rw [ThrownError.isWrapper_eq, ← FailureKind.wraps_arrived (Document.alignFrom 1 ds)]
  rfl

theorem mapped_of_arrives (h : o.Arrives g g₁ e link a) (hf : e.failure? = some f)
    (hwraps : f.kind.wraps = true) : a.2 = true := by
  obtain ⟨f', ds, display, frames, hf', -, rfl⟩ := h
  cases hf.symm.trans hf'
  exact FailureKind.isSome_arrived_of_wraps hwraps

/-- No failure that arrives is the host's signal. -/
theorem isAbort_of_arrives (h : o.Arrives g g₁ e link a) (hx : g₁.Raised g₂ a.1 x) : g₂.isAbort x = false := by
  obtain ⟨f', ds, display, frames, hf', -, rfl⟩ := h
  rw [Graph.isAbort, Graph.name_eq_of_raised hx]
  show decide (Value.text ((f'.kind.arrived (Document.alignFrom 1 ds)).getD .generic).errorClass.name =
    .text "AbortError") = false
  simpa using FailureKind.name_errorClass_ne _

/-- What has no cause has none that is a cancelled failure. -/
theorem isCancelled_of_isMissing (hx : x.isMissing = true) : g.isCancelled x = false := by
  cases x <;> first | rfl | cases hx

theorem cancels_of_isMissing (hx : x.isMissing = true) : (g.kindOf x).cancels = false := by
  cases x <;> first | rfl | cases hx

/-- What arrived for a value is of the kind of the value, as far as cancellation goes. -/
structure SameSort (g g₁ g₂ : Graph) (x : Value) (a : ThrownError Document × Bool) : Prop where
  cancelled : a.1.isCancelled = (g.kindOf x).cancels
  wrapper : a.1.isWrapper = (g.kindOf x).wraps
  mapped : (g.kindOf x).wraps = true → a.2 = true
  abort : ∀ y, g₁.Raised g₂ a.1 y → g₂.isAbort y = false

theorem sameSort_of_arrives (h : o.Arrives g g₁ e link a) (hf : e.failure? = some f)
    (hkind : f.kind = g.kindOf x) : SameSort g g₁ g₂ x a :=
  ⟨hkind ▸ isCancelled_of_arrives h hf, hkind ▸ isWrapper_of_arrives h hf, hkind ▸ mapped_of_arrives h hf,
    fun _ hy => isAbort_of_arrives h hy⟩

/-- The first error that arrives is made in any case. -/
theorem exists_kept_cons (a : ThrownError Document × Bool) (rest : List (ThrownError Document × Bool)) :
    ∃ more, kept (a :: rest) = a.1 :: more := by
  unfold kept
  split
  · exact ⟨_, rfl⟩
  · exact ⟨[], rfl⟩

/-- Where one link was taken, cancellation is a matter of that link. -/
theorem isCancellation_of_one {v' : Value} {vs : List Value} {taken : Nat} (ha : SameSort g g₁ g₂ v a)
    (htaken : 1 ≤ taken) (hchain : g₂.CauseChain v' vs)
    (hraised : List.Forall₂ (g₁.Raised g₂) (kept ([a].take taken)) vs) :
    g₂.isCancellation v' = (g.kindOf v).cancels := by
  have hkept : kept ([a].take taken) = [a.1] := by
    rw [List.take_of_length_le (by simpa using htaken)]
    unfold kept
    split <;> rfl
  rw [hkept] at hraised
  obtain ⟨y, rest, hy, hrest, rfl⟩ := List.forall₂_cons_left_iff.1 hraised
  cases hrest
  obtain rfl := hchain.head
  have hend : (g₂.causeOf v').isMissing = true := by
    cases hchain.tail
    assumption
  rw [Graph.isCancellation, ha.abort v' hy, isCancelled_of_raised hy, ha.cancelled]
  rw [show g₂.read v' "cause" = g₂.causeOf v' from rfl, isCancelled_of_isMissing hend]
  simp

/-- Where two links or more were taken, cancellation is a matter of the first two. -/
theorem isCancellation_of_two {v' c : Value} {vs : List Value} {taken : Nat} {a' : ThrownError Document × Bool}
    {rest : List (ThrownError Document × Bool)} (ha : SameSort g g₁ g₂ v a) (ha' : SameSort g g₁ g₂ c a')
    (htaken : 2 ≤ taken) (hchain : g₂.CauseChain v' vs)
    (hraised : List.Forall₂ (g₁.Raised g₂) (kept ((a :: a' :: rest).take taken)) vs) :
    g₂.isCancellation v' = ((g.kindOf v).cancels || ((g.kindOf v).wraps && (g.kindOf c).cancels)) := by
  obtain ⟨n, rfl⟩ : ∃ n, taken = n + 2 := ⟨taken - 2, by omega⟩
  rw [List.take_succ_cons, List.take_succ_cons] at hraised
  cases hwraps : (g.kindOf v).wraps with
  | true =>
    obtain ⟨more, hmore⟩ := exists_kept_cons a' (rest.take n)
    rw [kept, if_pos (ha.mapped hwraps), hmore] at hraised
    obtain ⟨y, ys, hy, hrest, rfl⟩ := List.forall₂_cons_left_iff.1 hraised
    obtain ⟨x, xs, hx, -, rfl⟩ := List.forall₂_cons_left_iff.1 hrest
    obtain rfl := hchain.head
    have hcause : g₂.causeOf v' = x := hchain.tail.head
    rw [Graph.isCancellation, ha.abort v' hy, isCancelled_of_raised hy, ha.cancelled, isWrapper_of_raised hy,
      ha.wrapper, hwraps, show g₂.read v' "cause" = x from hcause, isCancelled_of_raised hx, ha'.cancelled]
    simp
  | false =>
    obtain ⟨more, hmore⟩ := exists_kept_cons a (a' :: rest.take n)
    rw [hmore] at hraised
    obtain ⟨y, ys, hy, -, rfl⟩ := List.forall₂_cons_left_iff.1 hraised
    obtain rfl := hchain.head
    rw [Graph.isCancellation, ha.abort v' hy, isCancelled_of_raised hy, ha.cancelled, isWrapper_of_raised hy,
      ha.wrapper, hwraps]
    simp

theorem isMissing_of_mem_linksOrSelf {d : Depth} (hv : v.isMissing = false) :
    ∀ x ∈ linksOrSelf (g.walk d v) v, x.isMissing = false := by
  unfold linksOrSelf
  split
  · simpa using hv
  · exact Graph.isMissing_of_mem_walkFrom _ _ v

/-- **What arrives is a cancellation exactly if the first link or, behind a wrapper, the second one is.** -/
theorem isCancellation_of_passage (hcodec : r.codec = o.codec) (ho : o.maxCauseDepth.Admits 2)
    (hr : r.maxCauseDepth.Admits 2) (hv : v.isMissing = false)
    (hsend : ∀ i, (g.causeAt i v).isMissing = false → o.CanSend g (g.causeAt i v)) :
    ∃ g₁ w g₂ v', (o.errorToFailure g v).outcome.1 = .ok (g₁, w) ∧
      (r.failureToError g₁ w).outcome.1 = .ok (g₂, v') ∧
        g₂.isCancellation v' = ((g.kindOf v).cancels ||
          ((g.kindOf v).wraps && (g.kindOf (g.causeOf v)).cancels)) := by
  have hlinks := causePath_linksOrSelf (g.causePath_walk o.maxCauseDepth v)
  have hall : ∀ x ∈ linksOrSelf (g.walk o.maxCauseDepth v) v, o.CanSend g x := by
    intro x hx
    obtain ⟨i, hi⟩ := List.mem_iff_getElem?.1 hx
    have hreached := hlinks.getElem? hi
    exact hreached ▸ hsend i (hreached ▸ isMissing_of_mem_linksOrSelf hv x hx)
  obtain ⟨errors, hmade⟩ := exists_forall₂ fun x hx => (hall x hx).sends
  have hne := ne_nil_of_forall₂ hmade (linksOrSelf_ne_nil _ v)
  obtain ⟨g₁, w, g₂, v', vs, arrivals, taken, hsent, hreceived, -, -, harrives, hchain, hraised, hone, htaken⟩ :=
    passage hcodec (FailureWire.Except.mapM_eq_ok.2 (hmade.imp fun _ _ h => h.1)) hne fun e he => by
      obtain ⟨x, -, -, f, hf, hstored, -⟩ := exists_of_forall₂ hmade he
      exact ⟨f, hf, hstored⟩
  refine ⟨g₁, w, g₂, v', hsent, hreceived, ?_⟩
  have hsorts : List.Forall₂ (SameSort g g₁ g₂) (linksOrSelf (g.walk o.maxCauseDepth v) v) arrivals :=
    forall₂_comp (fun _ _ _ ⟨_, f, hf, _, hkind⟩ ⟨_, ha⟩ => sameSort_of_arrives ha hf.failure hkind)
      hmade harrives
  rcases linksOrSelf_walk_two ho g v with ⟨hwalk, hend⟩ | ⟨rest, hwalk⟩
  · rw [hwalk] at hsorts
    obtain ⟨a, rest, ha, hrest, rfl⟩ := List.forall₂_cons_left_iff.1 hsorts
    cases hrest
    rw [isCancellation_of_one ha hone hchain hraised]
    rcases hend with hmissing | hself
    · simp [cancels_of_isMissing hmissing]
    · rw [hself]
      cases g.kindOf v <;> rfl
  · rw [hwalk] at hsorts hmade
    obtain ⟨a, rest, ha, hrest, rfl⟩ := List.forall₂_cons_left_iff.1 hsorts
    obtain ⟨a', rest, ha', -, rfl⟩ := List.forall₂_cons_left_iff.1 hrest
    exact isCancellation_of_two ha ha' (htaken 2 hr (by simp [← hmade.length_eq])) hchain hraised

end ConverterOptions

/-- **Cancellation across the wire.** What is sent by one converter and received by another one with the
same codec is a cancellation exactly if the value that was sent is a cancelled failure or the host's signal,
or the failure of an activity or a child workflow whose direct cause is one of these. -/
theorem isCancellation_across_wire {o r : ConverterOptions} {g : Graph} {v : Value}
    (hcodec : r.codec = o.codec) (ho : o.maxCauseDepth.Admits 2) (hr : r.maxCauseDepth.Admits 2)
    (hv : (g.errorOf? v).isSome)
    (hsend : ∀ i, (g.causeAt i v).isMissing = false → o.CanSend g (g.causeAt i v)) :
    ∃ g₁ w g₂ v', (o.errorToFailure g v).outcome.1 = .ok (g₁, w) ∧
      (r.failureToError g₁ w).outcome.1 = .ok (g₂, v') ∧
        (g₂.isCancellation v' = true ↔
          g.Cancels v ∨ g.isWrapper v = true ∧ g.Cancels (g.causeOf v)) := by
  obtain ⟨e, he⟩ := Option.isSome_iff_exists.1 hv
  obtain ⟨g₁, w, g₂, v', hsent, hreceived, hcancel⟩ :=
    ConverterOptions.isCancellation_of_passage hcodec ho hr (Graph.isMissing_of_errorOf? he) hsend
  refine ⟨g₁, w, g₂, v', hsent, hreceived, ?_⟩
  rw [hcancel, Graph.cancels_iff, Graph.cancels_iff, Graph.isWrapper_eq_wraps]
  simp

/-- A cancelled failure with a detail, as object 1, and the failure of the activity that it ended. -/
def stoppedActivity : Graph :=
  ⟨[.list [.text "shutdown"],
    .error <| .build (.cancelled (.object 0)) (.text "stopped") (.text "stopped") {},
    .error <| .build
      (.activity (.number 5) (.number 6) (.text "worker") (.text "charge") (.text "7") .undefined)
      (.text "failed") (.text "failed") { cause := .object 1 }]⟩

/-- The failure of a cancelled activity is a cancellation on the other side, too. -/
theorem isCancellation_across_wire_stoppedActivity :
    ∃ g₁ w g₂ v', (({} : ConverterOptions).errorToFailure stoppedActivity (.object 2)).outcome.1 = .ok (g₁, w) ∧
      (({} : ConverterOptions).failureToError g₁ w).outcome.1 = .ok (g₂, v') ∧ g₂.isCancellation v' = true := by
  have hcause : stoppedActivity.CauseChain (.object 2) [.object 2, .object 1] := .link rfl (.link rfl (.done rfl))
  have hactivity : ({} : ConverterOptions).CanSend stoppedActivity (.object 2) := by
    refine ⟨?_, ?_, nofun⟩
    · rintro e ⟨⟩
      refine ⟨⟨_, rfl⟩, ⟨_, rfl⟩, ?_, ?_, ?_⟩
      · rintro s ⟨⟩
      · rintro f ⟨⟩
        exact .inl rfl
      · rintro f ⟨⟩
        exact .activity ..
    · rintro e f ⟨⟩ ⟨⟩
      exact ⟨rfl, nofun⟩
  have hcancelled : ({} : ConverterOptions).CanSend stoppedActivity (.object 1) := by
    refine ⟨?_, ?_, nofun⟩
    · rintro e ⟨⟩
      refine ⟨⟨_, rfl⟩, ⟨_, rfl⟩, ?_, ?_, ?_⟩
      · rintro s ⟨⟩
      · rintro f ⟨⟩
        exact .inl rfl
      · rintro f ⟨⟩
        exact .cancelled (.existing rfl)
    · rintro e f ⟨⟩ ⟨⟩
      refine ⟨rfl, fun x hx => ?_⟩
      obtain rfl : x = .text "shutdown" := List.mem_singleton.1 hx
      exact Codec.restores_text rfl rfl (by decide +kernel)
  obtain ⟨g₁, w, g₂, v', hsent, hreceived, hcancel⟩ :=
    isCancellation_across_wire (r := {}) rfl (show 2 ≤ 50 by decide) (show 2 ≤ 50 by decide) rfl
      fun i hi => by
        have hmem := List.mem_of_getElem? (hcause.getElem?_causeAt hi)
        rcases List.mem_cons.1 hmem with h | h
        · rw [h]
          exact hactivity
        · rw [List.mem_singleton.1 h]
          exact hcancelled
  exact ⟨g₁, w, g₂, v', hsent, hreceived, hcancel.2 (.inr ⟨rfl, _, rfl, .inl rfl⟩)⟩

end FailureWire
