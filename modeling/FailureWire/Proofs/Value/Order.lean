import FailureWire.Value.Fields

/-!
# The order of fields

Setting fields one after the other gives fields in their order, with one field for each name (`inOrder_ofList`).
Fields that are in order already stay as they are (`ofList_eq_self`), so that putting fields in order twice is
putting them in order once. Whatever is set under different names is there in the end, and nothing else
(`perm_ofList`), and the values do not matter for the order (`ofList_mapValues`).
-/

namespace FailureWire.Fields

variable {α β : Type} {name : String} {a : α} {fields others : Fields α}

/-- The place of a name in the order: positions come first, each at its number. -/
def rank (name : String) : Nat := (positionOf? name).getD 4294967295

/-- Fields in order, with one field for each name. -/
structure InOrder (fields : Fields α) : Prop where
  nodup : fields.names.Nodup
  sorted : (fields.names.map rank).Pairwise (· ≤ ·)

theorem InOrder.of_names {others : Fields β} (h : fields.InOrder) (hnames : fields.names = others.names) :
    others.InOrder := ⟨hnames ▸ h.nodup, hnames ▸ h.sorted⟩

theorem inOrder_nil : InOrder ([] : Fields α) := ⟨List.nodup_nil, .nil⟩

theorem positionOf?_lt {p : Nat} (h : positionOf? name = some p) : p < 4294967295 := by
  unfold positionOf? at h
  split at h
  · cases h
  · cases h
  · simp only [Option.ite_none_right_eq_some, Option.some.injEq] at h
    exact h.2.2 ▸ h.2.1

theorem rank_le (name : String) : rank name ≤ 4294967295 := by
  unfold rank
  cases h : positionOf? name with
  | none => exact Nat.le_refl _
  | some p => exact Nat.le_of_lt (positionOf?_lt h)

/-! ## Setting a field -/

theorem names_replace : (replace name a fields).names = fields.names := by
  induction fields with
  | nil => rfl
  | cons f rest ih =>
    obtain ⟨n, b⟩ := f
    unfold replace
    split
    · rfl
    · exact congrArg (n :: ·) ih

theorem has_iff_mem_names : fields.has name = true ↔ name ∈ fields.names := by
  induction fields with
  | nil => simp [has, get?, names]
  | cons f rest ih =>
    obtain ⟨n, b⟩ := f
    by_cases hn : n = name
    · simp [has, get?_cons, names, hn]
    · simpa [has, get?_cons, names, hn, Ne.symm hn] using ih

theorem get?_eq_none_iff : fields.get? name = none ↔ name ∉ fields.names := by
  rw [← has_iff_mem_names, has, Bool.not_eq_true, Option.isSome_eq_false_iff, Option.isNone_iff_eq_none]

theorem perm_insertPosition {p : Nat} : (insertPosition name p a fields).Perm ((name, a) :: fields) := by
  induction fields with
  | nil => exact .refl _
  | cons f rest ih =>
    obtain ⟨n, b⟩ := f
    unfold insertPosition
    split
    · split
      · exact .refl _
      · exact (ih.cons _).trans (.swap ..)
    · exact .refl _

/-- A new field is added to the others. -/
theorem perm_set (h : name ∉ fields.names) : (set fields name a).Perm ((name, a) :: fields) := by
  rw [set, if_neg (mt has_iff_mem_names.1 h)]
  split
  · exact perm_insertPosition
  · exact List.perm_append_comm

/-- A position is put before the first field that belongs behind it. -/
theorem sorted_insertPosition {p : Nat} (hp : positionOf? name = some p)
    (h : (fields.names.map rank).Pairwise (· ≤ ·)) :
    ((insertPosition name p a fields).names.map rank).Pairwise (· ≤ ·) := by
  have hrank : rank name = p := by rw [rank, hp, Option.getD_some]
  induction fields with
  | nil => exact List.pairwise_singleton ..
  | cons f rest ih =>
    obtain ⟨n, b⟩ := f
    obtain ⟨hfirst, hrest⟩ := List.pairwise_cons.1 h
    have hbefore (hle : p ≤ rank n) : ((names ((name, a) :: (n, b) :: rest)).map rank).Pairwise (· ≤ ·) := by
      refine List.pairwise_cons.2 ⟨fun q hq => ?_, h⟩
      rw [hrank]
      rcases List.mem_cons.1 hq with rfl | hq
      · exact hle
      · exact Nat.le_trans hle (hfirst q hq)
    unfold insertPosition
    split
    · next q hq =>
      split
      · next hlt => exact hbefore (by rw [rank, hq]; exact Nat.le_of_lt hlt)
      · next hge =>
        refine List.pairwise_cons.2 ⟨fun r hr => ?_, ih hrest⟩
        have hperm : ((insertPosition name p a rest).names.map rank).Perm (rank name :: (names rest).map rank) :=
          ((perm_insertPosition).map Prod.fst).map rank
        rcases List.mem_cons.1 (hperm.mem_iff.1 hr) with rfl | hr
        · rw [hrank, rank, hq]
          exact Nat.le_of_not_lt hge
        · exact hfirst r hr
    · next hnone => exact hbefore (by rw [rank, hnone]; exact Nat.le_of_lt (positionOf?_lt hp))

theorem InOrder.set (h : fields.InOrder) (name : String) (a : α) : (fields.set name a).InOrder := by
  by_cases hname : name ∈ fields.names
  · rw [Fields.set, if_pos (has_iff_mem_names.2 hname)]
    exact h.of_names names_replace.symm
  · refine ⟨((perm_set hname).map Prod.fst).nodup_iff.2 (List.nodup_cons.2 ⟨hname, h.nodup⟩), ?_⟩
    rw [Fields.set, if_neg (mt has_iff_mem_names.1 hname)]
    split
    · next p hp => exact sorted_insertPosition hp h.sorted
    · next hp =>
      have hrank : rank name = 4294967295 := by rw [rank, hp, Option.getD_none]
      simp only [names, List.map_append, List.map_cons, List.map_nil]
      refine List.pairwise_append.2 ⟨h.sorted, List.pairwise_singleton .., fun q hq r hr => ?_⟩
      obtain ⟨n, -, rfl⟩ := List.mem_map.1 hq
      rw [List.mem_singleton.1 hr, hrank]
      exact rank_le n

theorem insertPosition_eq_append {p : Nat} (h : ∀ n ∈ fields.names, ∃ q, positionOf? n = some q ∧ q ≤ p) :
    insertPosition name p a fields = fields ++ [(name, a)] := by
  induction fields with
  | nil => rfl
  | cons f rest ih =>
    obtain ⟨n, b⟩ := f
    obtain ⟨q, hq, hle⟩ := h n (List.mem_cons_self ..)
    simp only [insertPosition, hq, if_neg (Nat.not_lt.2 hle)]
    rw [ih fun m hm => h m (List.mem_cons_of_mem n hm), List.cons_append]

/-- A new field that belongs behind all others is put there. -/
theorem set_eq_append (h : InOrder (fields ++ [(name, a)])) : fields.set name a = fields ++ [(name, a)] := by
  have hnames : names (fields ++ [(name, a)]) = fields.names ++ [name] := List.map_append ..
  obtain ⟨hnodup, hsorted⟩ := h
  rw [hnames] at hnodup hsorted
  have hnew : name ∉ fields.names := fun hmem =>
    (List.nodup_append.1 hnodup).2.2 name hmem name (List.mem_singleton_self name) rfl
  rw [set, if_neg (mt has_iff_mem_names.1 hnew)]
  cases hp : positionOf? name with
  | none => rfl
  | some p =>
    refine insertPosition_eq_append fun n hn => ?_
    rw [List.map_append] at hsorted
    have hle := (List.pairwise_append.1 hsorted).2.2 (rank n) (List.mem_map_of_mem hn) (rank name)
      (List.mem_singleton_self _)
    have hlt := positionOf?_lt hp
    unfold rank at hle
    rw [hp] at hle
    cases hq : positionOf? n with
    | none =>
      rw [hq] at hle
      exact absurd (Nat.lt_of_le_of_lt hle hlt) (Nat.lt_irrefl _)
    | some q =>
      rw [hq] at hle
      exact ⟨q, rfl, hle⟩

/-! ## Putting fields in order -/

theorem InOrder.setAll (h : fields.InOrder) (others : Fields α) : (fields.setAll others).InOrder := by
  induction others generalizing fields with
  | nil => exact h
  | cons f rest ih => exact ih (h.set f.1 f.2)

/-- **Fields that are set one after the other are in order.** -/
theorem inOrder_ofList (fields : Fields α) : (ofList fields).InOrder := inOrder_nil.setAll fields

theorem setAll_eq_append (h : InOrder (fields ++ others)) : fields.setAll others = fields ++ others := by
  induction others generalizing fields with
  | nil => exact (List.append_nil fields).symm
  | cons f rest ih =>
    rw [← List.singleton_append, ← List.append_assoc] at h ⊢
    have hfirst : InOrder (fields ++ [f]) := by
      have hsub : (fields ++ [f]).names.Sublist (fields ++ [f] ++ rest).names :=
        (List.sublist_append_left ..).map Prod.fst
      exact ⟨h.nodup.sublist hsub, h.sorted.sublist (hsub.map rank)⟩
    show Fields.setAll (fields.set f.1 f.2) rest = _
    rw [set_eq_append hfirst]
    exact ih h

/-- **Fields in order are left as they are.** -/
theorem ofList_eq_self (h : fields.InOrder) : ofList fields = fields := setAll_eq_append h

theorem ofList_ofList (fields : Fields α) : ofList (ofList fields) = ofList fields :=
  ofList_eq_self (inOrder_ofList fields)

theorem inOrder_of_ofList (h : ofList fields = fields) : fields.InOrder := h ▸ inOrder_ofList fields

theorem ofList_of_names {others : Fields β} (h : ofList others = others) (hnames : fields.names = others.names) :
    ofList fields = fields := ofList_eq_self ((inOrder_of_ofList h).of_names hnames.symm)

theorem perm_setAll (h : (fields ++ others).names.Nodup) : (fields.setAll others).Perm (fields ++ others) := by
  induction others generalizing fields with
  | nil => rw [List.append_nil]; exact .refl _
  | cons f rest ih =>
    have hmiddle : (fields ++ f :: rest).Perm (f :: (fields ++ rest)) := List.perm_middle
    have hnames := ((hmiddle.map Prod.fst).nodup_iff).1 h
    have hset : (fields.set f.1 f.2 ++ rest).Perm (fields ++ f :: rest) :=
      ((perm_set fun hmem => (List.nodup_cons.1 hnames).1 (by
        rw [List.map_append]
        exact List.mem_append_left _ hmem)).append_right rest).trans hmiddle.symm
    exact (ih (((hset.map Prod.fst).nodup_iff).2 h)).trans hset

/-- **What is set under different names is there, and nothing else.** -/
theorem perm_ofList (h : fields.names.Nodup) : (ofList fields).Perm fields := perm_setAll h

/-- What is said of all values that are set is said of all that are there. -/
theorem forall_ofList {P : α → Prop} (h : ∀ f ∈ fields, P f.2) : ∀ f ∈ ofList fields, P f.2 := by
  have hset : ∀ {fields : Fields α} {name : String} {a : α}, (∀ f ∈ fields, P f.2) → P a →
      ∀ f ∈ fields.set name a, P f.2 := by
    intro fields name a hfields ha
    by_cases hname : name ∈ fields.names
    · rw [set, if_pos (has_iff_mem_names.2 hname)]
      clear hname
      induction fields with
      | nil => simp [replace]
      | cons g rest ih =>
        obtain ⟨n, b⟩ := g
        obtain ⟨hb, hrest⟩ := List.forall_mem_cons.1 hfields
        unfold replace
        split
        · exact List.forall_mem_cons.2 ⟨ha, hrest⟩
        · exact List.forall_mem_cons.2 ⟨hb, ih hrest⟩
    · intro f hf
      rcases List.mem_cons.1 ((perm_set hname).mem_iff.1 hf) with rfl | hf
      · exact ha
      · exact hfields f hf
  have hall : ∀ {others fields : Fields α}, (∀ f ∈ others, P f.2) → (∀ f ∈ fields, P f.2) →
      ∀ f ∈ fields.setAll others, P f.2 := by
    intro others
    induction others with
    | nil => exact fun _ hfields => hfields
    | cons g rest ih =>
      intro fields hothers hfields
      obtain ⟨hg, hrest⟩ := List.forall_mem_cons.1 hothers
      exact ih hrest (hset hfields hg)
  exact hall h (by simp)

/-! ## Values do not matter -/

theorem mapValues_cons (f : α → β) (n : String) (b : α) (rest : Fields α) :
    mapValues f ((n, b) :: rest) = (n, f b) :: mapValues f rest := rfl

theorem mapValues_insertPosition (f : α → β) {p : Nat} :
    mapValues f (insertPosition name p a fields) = insertPosition name p (f a) (mapValues f fields) := by
  induction fields with
  | nil => rfl
  | cons g rest ih =>
    obtain ⟨n, b⟩ := g
    simp only [mapValues_cons, insertPosition]
    split
    · split
      · rfl
      · rw [mapValues_cons, ih]
    · rfl

theorem mapValues_replace (f : α → β) :
    mapValues f (replace name a fields) = replace name (f a) (mapValues f fields) := by
  induction fields with
  | nil => rfl
  | cons g rest ih =>
    obtain ⟨n, b⟩ := g
    simp only [mapValues_cons, replace]
    split
    · rfl
    · rw [mapValues_cons, ih]

theorem mapValues_set (f : α → β) : mapValues f (fields.set name a) = (mapValues f fields).set name (f a) := by
  have hhas : (mapValues f fields).has name = fields.has name := by
    rw [Bool.eq_iff_iff, has_iff_mem_names, has_iff_mem_names]
    simp [names, mapValues]
  rw [set, set, hhas]
  split
  · exact mapValues_replace f
  · split
    · exact mapValues_insertPosition f
    · exact List.map_append ..

/-- **Fields are put in the same order whatever they hold.** -/
theorem ofList_mapValues (f : α → β) (fields : Fields α) :
    ofList (mapValues f fields) = mapValues f (ofList fields) := by
  have hset : ∀ (others : Fields α) (fields : Fields α),
      setAll (mapValues f fields) (mapValues f others) = mapValues f (fields.setAll others) := by
    intro others
    induction others with
    | nil => exact fun _ => rfl
    | cons g rest ih =>
      intro fields
      show setAll ((mapValues f fields).set g.1 (f g.2)) (mapValues f rest) =
        mapValues f ((fields.set g.1 g.2).setAll rest)
      rw [← mapValues_set, ih]
  exact hset fields []

end FailureWire.Fields
