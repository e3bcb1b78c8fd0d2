import Mathlib.Data.List.Forall2

/-!
# Related lists

Chains are compared link by link: `List.Forall₂ R xs ys`. These lemmas put such relations together.
-/

namespace FailureWire

/-- What stands in the second one of two related lists is related to something in the first one. -/
theorem exists_of_forall₂ {α β : Type} {R : α → β → Prop} {xs : List α} {ys : List β}
    (h : List.Forall₂ R xs ys) {y : β} (hy : y ∈ ys) : ∃ x ∈ xs, R x y := by
  induction h with
  | nil => cases hy
  | @cons x _ xs _ hr _ ih =>
    rcases List.mem_cons.1 hy with rfl | hy
    · exact ⟨x, List.mem_cons_self .., hr⟩
    · obtain ⟨x', hx', hr'⟩ := ih hy
      exact ⟨x', List.mem_cons_of_mem x hx', hr'⟩

theorem ne_nil_of_forall₂ {α β : Type} {R : α → β → Prop} {xs : List α} {ys : List β}
    (h : List.Forall₂ R xs ys) (hne : xs ≠ []) : ys ≠ [] := by
  rintro rfl
  exact hne (List.length_eq_zero_iff.1 h.length_eq)

theorem forall₂_comp {α β γ : Type} {R : α → β → Prop} {S : β → γ → Prop} {T : α → γ → Prop}
    (h : ∀ x y z, R x y → S y z → T x z) {xs : List α} {ys : List β} {zs : List γ}
    (hxy : List.Forall₂ R xs ys) (hyz : List.Forall₂ S ys zs) : List.Forall₂ T xs zs := by
  induction hxy generalizing zs with
  | nil =>
    cases hyz
    exact .nil
  | cons hr _ ih =>
    obtain ⟨z, rest, hs, hrest, rfl⟩ := List.forall₂_cons_left_iff.1 hyz
    exact .cons (h _ _ _ hr hs) (ih hrest)

/-- What is made of two related lists, item by item, is related again. -/
theorem forall₂_square {α β γ δ : Type} {R : α → β → Prop} {S : α → γ → Prop} {T : β → δ → Prop}
    {U : γ → δ → Prop} (h : ∀ a b c d, R a b → S a c → T b d → U c d) {as : List α} {bs : List β} {cs : List γ}
    {ds : List δ} (hR : List.Forall₂ R as bs) (hS : List.Forall₂ S as cs) (hT : List.Forall₂ T bs ds) :
    List.Forall₂ U cs ds := by
  induction hR generalizing cs ds with
  | nil =>
    cases hS
    cases hT
    exact .nil
  | cons hr _ ih =>
    obtain ⟨c, _, hs, hrest, rfl⟩ := List.forall₂_cons_left_iff.1 hS
    obtain ⟨d, _, ht, hrest', rfl⟩ := List.forall₂_cons_left_iff.1 hT
    exact .cons (h _ _ _ _ hr hs ht) (ih hrest hrest')

/-- What says of each pair the same about both says the same about both lists. -/
theorem forall_mem_iff_of_forall₂ {α β : Type} {R : α → β → Prop} {P : α → Prop} {Q : β → Prop} {xs : List α}
    {ys : List β} (hxs : List.Forall₂ R xs ys) (h : ∀ x y, R x y → (P x ↔ Q y)) :
    (∀ x ∈ xs, P x) ↔ ∀ y ∈ ys, Q y := by
  induction hxs with
  | nil => simp
  | cons hr _ ih => rw [List.forall_mem_cons, List.forall_mem_cons, h _ _ hr, ih]

/-- What is made of two related lists, item by item, is the same if it is for each pair. -/
theorem map_eq_map_of_forall₂ {α β γ : Type} {f : α → γ} {h : β → γ} {xs : List α} {ys : List β}
    (hxs : List.Forall₂ (fun x y => f x = h y) xs ys) : xs.map f = ys.map h := by
  induction hxs with
  | nil => rfl
  | cons hr _ ih => rw [List.map_cons, List.map_cons, hr, ih]

theorem exists_forall₂ {α β : Type} {R : α → β → Prop} : ∀ {xs : List α},
    (∀ x ∈ xs, ∃ y, R x y) → ∃ ys, List.Forall₂ R xs ys
  | [], _ => ⟨[], .nil⟩
  | x :: xs, h => by
    obtain ⟨y, hy⟩ := h x (List.mem_cons_self ..)
    obtain ⟨ys, hys⟩ := exists_forall₂ fun x' hx' => h x' (List.mem_cons_of_mem x hx')
    exact ⟨y :: ys, .cons hy hys⟩

/-- What pairs of two lists have in common makes a third list. -/
theorem exists_common {α β γ : Type} {R : α → γ → Prop} {S : β → γ → Prop} {xs : List α} {ys : List β}
    (h : List.Forall₂ (fun x y => ∃ z, R x z ∧ S y z) xs ys) :
    ∃ zs, List.Forall₂ R xs zs ∧ List.Forall₂ S ys zs := by
  induction h with
  | nil => exact ⟨[], .nil, .nil⟩
  | cons hz _ ih =>
    obtain ⟨z, hr, hs⟩ := hz
    obtain ⟨zs, hrs, hss⟩ := ih
    exact ⟨z :: zs, .cons hr hrs, .cons hs hss⟩

/-- What is made of each pair of two lists makes two lists whose items are related. -/
theorem exists_forall₂_square {α β γ δ : Type} {R : α → γ → Prop} {S : β → δ → Prop} {T : γ → δ → Prop}
    {xs : List α} {ys : List β} (h : List.Forall₂ (fun x y => ∃ z u, R x z ∧ S y u ∧ T z u) xs ys) :
    ∃ zs us, List.Forall₂ R xs zs ∧ List.Forall₂ S ys us ∧ List.Forall₂ T zs us := by
  induction h with
  | nil => exact ⟨[], [], .nil, .nil, .nil⟩
  | cons hz _ ih =>
    obtain ⟨z, u, hr, hs, ht⟩ := hz
    obtain ⟨zs, us, hrs, hss, hts⟩ := ih
    exact ⟨z :: zs, u :: us, .cons hr hrs, .cons hs hss, .cons ht hts⟩

end FailureWire
