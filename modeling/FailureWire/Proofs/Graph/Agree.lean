import FailureWire.Proofs.Graph.Carried

/-!
# Reading values that are carried over

Reading a value of one graph and what stands for it in another one takes the same steps, one by one: `Agree R x y`
says that two computations have the same outcome, and that the objects that they have reached stay related
by `R`. Related are objects that stand for each other, in the order in which they were reached, as long as
the fuel suffices for those that were not. So a value that is carried over has the same document
(`document_eq_of_carries`).
-/

namespace FailureWire.Graph

/-- Two computations that start with related objects have the same outcome and end with related ones. -/
def Agree {α : Type} (R : List ObjectId → List ObjectId → Prop) (x y : StateM (List ObjectId) α) : Prop :=
  ∀ s t, R s t → (x.run s).1 = (y.run t).1 ∧ R (x.run s).2 (y.run t).2

section
variable {α β : Type} {R : List ObjectId → List ObjectId → Prop}

theorem agree_pure (a : α) : Agree R (pure a) (pure a) := fun _ _ h => ⟨rfl, h⟩

theorem Agree.bind {x y : StateM (List ObjectId) α} {f f' : α → StateM (List ObjectId) β}
    (hx : Agree R x y) (hf : ∀ a, Agree R (f a) (f' a)) : Agree R (x >>= f) (y >>= f') := by
  intro s t h
  obtain ⟨ha, hs⟩ := hx s t h
  show ((f (x.run s).1).run (x.run s).2).1 = ((f' (y.run t).1).run (y.run t).2).1 ∧
    R ((f (x.run s).1).run (x.run s).2).2 ((f' (y.run t).1).run (y.run t).2).2
  rw [ha]
  exact hf _ _ _ hs

theorem Agree.map {x y : StateM (List ObjectId) α} (f : α → β) (hx : Agree R x y) :
    Agree R (do return f (← x)) (do return f (← y)) :=
  hx.bind fun a => agree_pure (f a)

theorem agree_mapM {γ : Type} {f f' : γ → StateM (List ObjectId) α} {xs ys : List γ}
    (h : List.Forall₂ (fun x y => Agree R (f x) (f' y)) xs ys) : Agree R (xs.mapM f) (ys.mapM f') := by
  induction h with
  | nil => exact agree_pure []
  | cons hx _ ih =>
    rw [List.mapM_cons, List.mapM_cons]
    exact hx.bind fun a => ih.map (a :: ·)

end

/-! ## Objects that were reached -/

/-- Corresponding objects were reached in the same order on both sides, and there is fuel for all others. -/
structure Alongside (g g' : Graph) (R : Value → Value → Prop) (fuel fuel' : Nat) (s t : List ObjectId) : Prop where
  related : List.Forall₂ (fun id id' => R (.object id) (.object id')) s t
  nodup : s.Nodup
  nodup' : t.Nodup
  left : g.size < fuel + s.length
  right : g'.size < fuel' + t.length

section
variable {g g' : Graph} {R : Value → Value → Prop} {fuel fuel' : Nat} {s t : List ObjectId}

theorem CarriesOver.lt (hR : g.CarriesOver g' R) {id id' : ObjectId} (h : R (.object id) (.object id')) :
    id < g.size ∧ id' < g'.size := by
  rcases hR.carried h with ⟨hid, -⟩ | ⟨n, m, hn, hm, -⟩
  · cases hid
  · exact ⟨holds_of_objectOf? hn id rfl, holds_of_objectOf? hm id' rfl⟩

/-- No more objects are reached than there are. -/
theorem Alongside.fuel_pos (hR : g.CarriesOver g' R) (h : Alongside g g' R fuel fuel' s t) : 0 < fuel ∧ 0 < fuel' := by
  have hs : s ⊆ List.range g.size := by
    intro id hid
    obtain ⟨id', -, hr⟩ := exists_of_forall₂ h.related.flip hid
    exact List.mem_range.2 (hR.lt hr).1
  have ht : t ⊆ List.range g'.size := by
    intro id' hid'
    obtain ⟨id, -, hr⟩ := exists_of_forall₂ h.related hid'
    exact List.mem_range.2 (hR.lt hr).2
  have hlength := (List.subperm_of_subset h.nodup hs).length_le
  have hlength' := (List.subperm_of_subset h.nodup' ht).length_le
  have hleft := h.left
  have hright := h.right
  rw [List.length_range] at hlength hlength'
  omega

theorem Alongside.more (h : Alongside g g' R fuel fuel' s t) : Alongside g g' R (fuel + 1) (fuel' + 1) s t := by
  have hleft := h.left
  have hright := h.right
  exact ⟨h.related, h.nodup, h.nodup', by omega, by omega⟩

/-- Corresponding objects were reached at the same step. -/
theorem idxOf?_eq (hR : g.CarriesOver g' R) {i i' : ObjectId} (hi : R (.object i) (.object i'))
    (h : List.Forall₂ (fun id id' => R (.object id) (.object id')) s t) : s.idxOf? i = t.idxOf? i' := by
  induction h with
  | nil => rfl
  | @cons j j' _ _ hj _ ih =>
    have hbeq : (j == i) = (j' == i') := by
      rw [Bool.eq_iff_iff, beq_iff_eq, beq_iff_eq]
      exact hR.injective hj hi
    rw [List.idxOf?_cons, List.idxOf?_cons, hbeq, ih]

/-- Corresponding objects are reached on both sides. -/
theorem Alongside.reach (hR : g.CarriesOver g' R) (h : Alongside g g' R (fuel + 1) (fuel' + 1) s t)
    {i i' : ObjectId} (hi : R (.object i) (.object i')) (hnew : s.idxOf? i = none) :
    Alongside g g' R fuel fuel' (s ++ [i]) (t ++ [i']) := by
  have hleft := h.left
  have hright := h.right
  have hfresh : i ∉ s := by simpa [List.idxOf?_eq_none_iff] using hnew
  have hfresh' : i' ∉ t := by
    rw [idxOf?_eq hR hi h.related] at hnew
    simpa [List.idxOf?_eq_none_iff] using hnew
  refine ⟨List.rel_append h.related (.cons hi .nil), ?_, ?_, ?_, ?_⟩
  · simpa [List.nodup_append] using ⟨h.nodup, fun id hid heq => hfresh (heq ▸ hid)⟩
  · simpa [List.nodup_append] using ⟨h.nodup', fun id hid heq => hfresh' (heq ▸ hid)⟩
  · rw [List.length_append, List.length_singleton]
    omega
  · rw [List.length_append, List.length_singleton]
    omega

/-! ## Reading -/

section
variable {withStacks : Bool} {Q : List ObjectId → List ObjectId → Prop}
  (h : ∀ v v', R v v' → Agree Q (g.describe withStacks fuel v) (g'.describe withStacks fuel' v'))
include h

theorem agree_describeFields {fields others : Fields Value} (hf : fields.Zip R others) :
    Agree Q (fields.mapM fun (name, v) => do return (name, ← g.describe withStacks fuel v))
      (others.mapM fun (name, v) => do return (name, ← g'.describe withStacks fuel' v)) := by
  refine agree_mapM (List.Forall₂.imp (fun f o hfo => ?_) hf)
  obtain ⟨name, v⟩ := f
  obtain ⟨name', v'⟩ := o
  obtain ⟨rfl, hv⟩ := hfo
  exact (h v v' hv).map (Prod.mk name)

theorem agree_describeCause {cause cause' : Option Value} (hcause : Option.Rel R cause cause') :
    Agree Q (cause.mapM (g.describe withStacks fuel)) (cause'.mapM (g'.describe withStacks fuel')) := by
  cases hcause with
  | none => exact agree_pure _
  | some hv => exact (h _ _ hv).map some

theorem agree_describeStack {stack stack' : Option Value} (hstack : Option.Rel R stack stack') :
    Agree Q (g.describeStack withStacks fuel stack) (g'.describeStack withStacks fuel' stack') := by
  cases hstack with
  | none => exact agree_pure _
  | some hv =>
    cases withStacks with
    | true => exact h _ _ hv
    | false => exact agree_pure _

theorem agree_describeError {e e' : ThrownError Value} (hname : R e.name e'.name)
    (hmessage : R e.message e'.message) (hcause : Option.Rel R e.cause e'.cause)
    (hstack : Option.Rel R e.stack e'.stack) :
    Agree Q (g.describeNode withStacks fuel (some (.error e)))
      (g'.describeNode withStacks fuel' (some (.error e'))) :=
  (h _ _ hname).bind fun a => (h _ _ hmessage).bind fun b => (agree_describeCause h hcause).bind fun c =>
    (agree_describeStack h hstack).map (Document.error a b c)

theorem agree_describeNode {node node' : Node} (hn : node.Carried R node') :
    Agree Q (g.describeNode withStacks fuel (some node)) (g'.describeNode withStacks fuel' (some node')) := by
  cases hn with
  | error he => exact agree_describeError h he.name he.message he.cause he.stack
  | @kept e hheld =>
    refine agree_describeError h (hheld _ e.name_mem_values) (hheld _ e.message_mem_values) ?_ ?_
    · exact Option.rel_self fun v hv => hheld v (ThrownError.cause_mem_values hv)
    · exact Option.rel_self fun v hv => hheld v (ThrownError.stack_mem_values hv)
  | moved hn =>
    cases hn with
    | record hf => exact (agree_describeFields h hf).map Document.record
    | sparse hf => exact (agree_describeFields h hf).map Document.sparse
    | list hi => exact (agree_mapM (hi.imp h)).map Document.list
    | set hi => exact (agree_mapM (hi.imp h)).map Document.set
    | map he =>
      refine (agree_mapM (he.imp fun e o heo => ?_)).map Document.map
      exact (h _ _ heo.1).bind fun k => (h _ _ heo.2).map (Prod.mk k)
    | date | pattern | bytes | numbers | boxed => exact agree_pure _
    | error hname hmessage hcause hstack => exact agree_describeError h hname hmessage hcause (.some hstack)

end

/-- **Values that are carried over are read in the same steps.** -/
theorem agree_describe {withStacks : Bool} (hR : g.CarriesOver g' R) : ∀ (fuel fuel' : Nat) (v v' : Value),
    R v v' → Agree (Alongside g g' R fuel fuel') (g.describe withStacks fuel v) (g'.describe withStacks fuel' v')
  | 0, _, _, _, _ => fun _ _ h => absurd (h.fuel_pos hR).1 (Nat.lt_irrefl 0)
  | _ + 1, 0, _, _, _ => fun _ _ h => absurd (h.fuel_pos hR).2 (Nat.lt_irrefl 0)
  | fuel + 1, fuel' + 1, v, v', hv => by
    rcases hR.carried hv with ⟨hid, rfl⟩ | ⟨node, node', hnode, hnode', hnn⟩
    · cases v <;> first | exact agree_pure _ | cases hid
    · obtain ⟨i, rfl, hi⟩ := objectOf?_eq_some.1 hnode
      obtain ⟨i', rfl, hi'⟩ := objectOf?_eq_some.1 hnode'
      intro s t h
      rw [run_describe_object, run_describe_object, ← idxOf?_eq hR hv h.related]
      cases hnew : s.idxOf? i with
      | some k => exact ⟨rfl, h⟩
      | none =>
        obtain ⟨hd, hs⟩ := agree_describeNode (agree_describe hR fuel fuel') hnn _ _ (h.reach hR hv hnew)
        rw [hi, hi']
        exact ⟨hd, hs.more⟩

/-- **Values that are carried over have the same document.** -/
theorem document_eq_of_carries {v v' : Value} (hR : g.CarriesOver g' R) (hv : R v v') :
    g.document v = g'.document v' := by
  have hstart : Alongside g g' R (g.size + 2) (g'.size + 2) [] [] :=
    ⟨.nil, List.nodup_nil, List.nodup_nil, by simp, by simp⟩
  exact (agree_describe hR _ _ v v' hv _ _ hstart).1

end
end FailureWire.Graph
