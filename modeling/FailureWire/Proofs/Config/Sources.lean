import FailureWire.Config.Source
import FailureWire.Proofs.Value.Order
import Mathlib.Data.List.Induction
import Mathlib.Data.List.Nodup

/-!
# What sources give

A source is made from the variables of an environment (`EnvSource`) or from values that are given in code
(`ObjectSource`): an `Origin`. What it gives a key is what stands under the key or, in an environment, under the key
behind the prefix; nothing, if that is undefined. Merging keeps for each key the value of the last source that gives
it one, together with the name of that source (`get?_mergedFrom`), and nothing else (`mem_names_mergedFrom`).
-/

namespace FailureWire

/-! ## Fields with different names -/

namespace Fields

variable {α : Type} {fields others : Fields α} {name : String} {a : α}

theorem get?_eq_some_iff (h : fields.names.Nodup) : fields.get? name = some a ↔ (name, a) ∈ fields := by
  induction fields with
  | nil => simp [get?]
  | cons f rest ih =>
    obtain ⟨n, b⟩ := f
    obtain ⟨hnew, hrest⟩ := List.nodup_cons.1 h
    rw [get?_cons, List.mem_cons, Prod.mk.injEq]
    split
    next heq =>
      subst heq
      have hmem : (n, a) ∉ rest := fun hmem => hnew (List.mem_map.2 ⟨_, hmem, rfl⟩)
      simp [hmem, eq_comm]
    next hne =>
      rw [ih hrest]
      simp [Ne.symm hne]

/-- What fields with different names give does not depend on their order. -/
theorem get?_eq_of_perm (h : fields.names.Nodup) (hperm : fields.Perm others) (name : String) :
    fields.get? name = others.get? name := by
  have hothers : others.names.Nodup := (hperm.map Prod.fst).nodup_iff.1 h
  ext a
  rw [get?_eq_some_iff h, get?_eq_some_iff hothers, hperm.mem_iff]

end Fields

namespace ConfigSource

/-- Where a source comes from: an environment, of whose variables those with a prefix count, or code. -/
inductive Origin where
  | environment (start : String) (vars : Fields Value)
  | overrides (values : Fields Value)

namespace Origin

def source : Origin → ConfigSource
  | .environment start vars => .environment start vars
  | .overrides values => .overrides values

/-- What an origin gives to a key, if it is not undefined. No environment gives anything to the key by which objects
inherit. -/
def given? (o : Origin) (key : String) : Option Value :=
  match o with
  | .environment start vars => if key = heritageKey then none else (vars.get? (start ++ key)).bind (·.defined?)
  | .overrides values => (values.get? key).bind (·.defined?)

/-- The variables or values of an origin have different names, and nothing is inherited from values. -/
def IsRecord : Origin → Prop
  | .environment _ vars => vars.names.Nodup
  | .overrides values => values.names.Nodup ∧ heritageKey ∉ values.names

instance : DecidablePred IsRecord
  | .environment _ vars => inferInstanceAs (Decidable vars.names.Nodup)
  | .overrides values => inferInstanceAs (Decidable (values.names.Nodup ∧ heritageKey ∉ values.names))

end Origin

/-! ## Prefixes -/

section
variable {start key : String} {vars : Fields Value} {f : String × Value}

/-- What is left of a variable whose name begins with a prefix. -/
theorem exists_stripped_iff {v : Value} :
    (if start.toList.isPrefixOf f.1.toList then some (String.ofList (f.1.toList.drop start.length), f.2) else none) =
      some (key, v) ↔ f = (start ++ key, v) := by
  obtain ⟨name, w⟩ := f
  rw [Prod.mk.injEq, ← @String.toList_inj name, String.toList_append]
  constructor
  · intro h
    split at h
    next hstart =>
      obtain ⟨rest, hrest⟩ := List.isPrefixOf_iff_prefix.1 hstart
      cases h
      rw [← hrest, String.toList_ofList, ← String.length_toList, List.drop_left]
      exact ⟨rfl, rfl⟩
    next => cases h
  · rintro ⟨hname, rfl⟩
    rw [if_pos (List.isPrefixOf_iff_prefix.2 ⟨_, hname.symm⟩), hname, ← String.length_toList, List.drop_left,
      String.ofList_toList]

/-- **A prefix is taken off exactly.** -/
theorem get?_strip (h : vars.names.Nodup) :
    Fields.get? (strip start vars) key = if key = heritageKey then none else vars.get? (start ++ key) := by
  unfold strip
  generalize hstripped : vars.filterMap _ = stripped
  have hmem (key : String) (v : Value) : (key, v) ∈ stripped ↔ (start ++ key, v) ∈ vars := by
    rw [← hstripped, List.mem_filterMap]
    constructor
    · rintro ⟨f, hf, hkey⟩
      rwa [← exists_stripped_iff.1 hkey]
    · exact fun hf => ⟨_, hf, exists_stripped_iff.2 rfl⟩
  have hnames : (Fields.names stripped).Nodup := by
    rw [← hstripped, Fields.names, List.Nodup, List.pairwise_map, List.pairwise_filterMap]
    refine (List.pairwise_map.1 h).imp fun {f f'} hne s hs s' hs' heq => hne ?_
    rw [exists_stripped_iff.1 hs, exists_stripped_iff.1 hs', heq]
  -- the key by which objects inherit is left out
  have hkept : (Fields.names (stripped.filter fun f => f.1 ≠ heritageKey)).Nodup :=
    hnames.sublist (List.filter_sublist.map _)
  rw [← Fields.get?_eq_of_perm hkept (Fields.perm_ofList hkept).symm]
  ext v
  rw [Fields.get?_eq_some_iff hkept, List.mem_filter, hmem]
  by_cases hkey : key = heritageKey
  · simp [hkey]
  · simp [hkey, Fields.get?_eq_some_iff h]

end

/-! ## Merging -/

section
variable {o : Origin} {origins : List Origin} {key : String}

theorem Origin.given?_eq (h : o.IsRecord) : o.given? key = (o.source.values.get? key).bind (·.defined?) := by
  cases o with
  | environment start vars =>
    rw [given?, source, ConfigSource.environment, get?_strip h]
    split <;> rfl
  | overrides values => rfl

/-- The values of a source have different names, and nothing is inherited from them. -/
theorem Origin.names_values (h : o.IsRecord) :
    o.source.values.names.Nodup ∧ heritageKey ∉ o.source.values.names := by
  cases o with
  | environment start vars =>
    refine ⟨(Fields.inOrder_ofList _).nodup, Fields.get?_eq_none_iff.1 ?_⟩
    rw [source, ConfigSource.environment, get?_strip h, if_pos rfl]
  | overrides values => exact h

/-- **What a source gives stands in the place of what was there.** -/
theorem get?_override (h : o.IsRecord) (merged : Fields Sourced) : Fields.get? (override merged o.source) key =
    ((o.given? key).map fun v => ⟨v, o.source.name⟩).or (merged.get? key) := by
  rw [Origin.given?_eq h, override]
  obtain ⟨hnodup, hplain⟩ := Origin.names_values h
  generalize o.source.name = name
  generalize o.source.values = values at hnodup hplain
  induction values generalizing merged with
  | nil => rfl
  | cons f rest ih =>
    obtain ⟨n, v⟩ := f
    obtain ⟨hnew, hnodup⟩ := List.nodup_cons.1 hnodup
    obtain ⟨hn, hplain⟩ := List.ne_and_not_mem_of_not_mem_cons hplain
    rw [List.foldl_cons, ih _ hnodup hplain, get?_offer, Fields.get?_cons]
    by_cases hkey : n = key
    · subst hkey
      rw [Fields.get?_eq_none_iff.2 hnew, if_pos rfl]
      by_cases hv : v = .undefined
      · simp [hv, Value.defined?]
      · simp [hv, Value.defined?, Ne.symm hn]
    · simp [hkey]

/-- The values that the origins give are merged in their order. -/
def mergedFrom (origins : List Origin) : Fields Sourced := merge (origins.map Origin.source)

theorem mergedFrom_append (origins : List Origin) (o : Origin) :
    mergedFrom (origins ++ [o]) = override (mergedFrom origins) o.source := by
  rw [mergedFrom, List.map_append]
  exact merge_append _ _

/-- An origin is the last one that gives a key a value. -/
def Decides (origins : List Origin) (key : String) (o : Origin) (v : Value) : Prop :=
  ∃ before after, origins = before ++ o :: after ∧ o.given? key = some v ∧ ∀ later ∈ after, later.given? key = none

theorem Decides.mem {o : Origin} {v : Value} (h : Decides origins key o v) : o ∈ origins := by
  obtain ⟨before, after, rfl, -⟩ := h
  exact List.mem_append_right _ (List.mem_cons_self ..)

theorem decides_or_none (key : String) : ∀ origins : List Origin,
    (∃ o v, Decides origins key o v) ∨ ∀ o ∈ origins, o.given? key = none
  | [] => .inr nofun
  | first :: rest => by
    rcases decides_or_none key rest with ⟨o, v, before, after, rfl, hv, hafter⟩ | hnone
    · exact .inl ⟨o, v, first :: before, after, rfl, hv, hafter⟩
    · cases hgiven : first.given? key with
      | some v => exact .inl ⟨first, v, [], rest, rfl, hgiven, hnone⟩
      | none => exact .inr (List.forall_mem_cons.2 ⟨hgiven, hnone⟩)

def Origin.sourced? (key : String) (o : Origin) : Option Sourced := (o.given? key).map fun v => ⟨v, o.source.name⟩

/-- **Merging keeps what the last source gives.** -/
theorem get?_mergedFrom (h : ∀ o ∈ origins, o.IsRecord) (key : String) :
    Fields.get? (mergedFrom origins) key = origins.reverse.findSome? (Origin.sourced? key) := by
  induction origins using List.reverseRecOn with
  | nil => rfl
  | append_singleton origins last ih =>
    obtain ⟨hbefore, hlast⟩ := List.forall_mem_append.1 h
    rw [mergedFrom_append, get?_override (hlast last (List.mem_singleton_self last)), ih hbefore, List.reverse_append,
      List.reverse_singleton, List.singleton_append, List.findSome?_cons, Origin.sourced?]
    cases last.given? key <;> rfl

theorem get?_mergedFrom_of_none (h : ∀ o ∈ origins, o.IsRecord) (hnone : ∀ o ∈ origins, o.given? key = none) :
    Fields.get? (mergedFrom origins) key = none := by
  rw [get?_mergedFrom h, List.findSome?_eq_none_iff]
  intro o ho
  rw [Origin.sourced?, hnone o (List.mem_reverse.1 ho)]
  rfl

theorem get?_mergedFrom_of_decides {o : Origin} {v : Value} (h : ∀ o ∈ origins, o.IsRecord)
    (hdecides : Decides origins key o v) :
    Fields.get? (mergedFrom origins) key = some ⟨v, o.source.name⟩ := by
  rw [get?_mergedFrom h]
  obtain ⟨before, after, rfl, hv, hafter⟩ := hdecides
  have hnone : after.reverse.findSome? (Origin.sourced? key) = none := by
    rw [List.findSome?_eq_none_iff]
    intro later hlater
    rw [Origin.sourced?, hafter later (List.mem_reverse.1 hlater)]
    rfl
  rw [List.reverse_append, List.reverse_cons, List.append_assoc, List.findSome?_append, hnone, Option.none_or,
    List.singleton_append, List.findSome?_cons, Origin.sourced?, hv]
  rfl

/-- **Just the keys that are given a value are merged**, each of them once. -/
theorem mem_names_mergedFrom (h : ∀ o ∈ origins, o.IsRecord) :
    key ∈ (mergedFrom origins).names ↔ ∃ o ∈ origins, (o.given? key).isSome := by
  rw [← Fields.has_iff_mem_names, Fields.has]
  rcases decides_or_none key origins with ⟨o, v, hdecides⟩ | hnone
  · have hmem := hdecides.mem
    rw [get?_mergedFrom_of_decides h hdecides]
    obtain ⟨_, _, _, hv, -⟩ := hdecides
    exact iff_of_true rfl ⟨o, hmem, by rw [hv]; rfl⟩
  · rw [get?_mergedFrom_of_none h hnone]
    refine iff_of_false Bool.false_ne_true ?_
    rintro ⟨o, ho, hsome⟩
    rw [hnone o ho] at hsome
    cases hsome

theorem inOrder_mergedFrom (origins : List Origin) : (mergedFrom origins).InOrder := by
  have hoverride (merged : Fields Sourced) (s : ConfigSource) (h : merged.InOrder) : (override merged s).InOrder := by
    unfold override
    induction s.values generalizing merged with
    | nil => exact h
    | cons f rest ih =>
      rw [List.foldl_cons]
      refine ih _ ?_
      unfold offer
      split
      · exact h
      · exact h.set _ _
  induction origins using List.reverseRecOn with
  | nil => exact Fields.inOrder_nil
  | append_singleton origins last ih =>
    rw [mergedFrom_append]
    exact hoverride _ _ ih

/-- Nothing is inherited from records. -/
theorem heritage_eq_undefined (h : ∀ o ∈ origins, o.IsRecord) : heritage (origins.map Origin.source) = .undefined := by
  have hnone : ((origins.map Origin.source).flatMap (·.values)).filter (fun f =>
      f.1 = heritageKey && (f.2.id?.isSome || f.2 = .null)) = [] := by
    refine List.filter_eq_nil_iff.2 fun f hf => ?_
    obtain ⟨s, hs, hf⟩ := List.mem_flatMap.1 hf
    obtain ⟨o, ho, rfl⟩ := List.mem_map.1 hs
    have hname : f.1 ≠ heritageKey := fun hname =>
      (Origin.names_values (h o ho)).2 (List.mem_map.2 ⟨f, hf, hname⟩)
    simp [hname]
  rw [heritage, hnone]
  rfl

end

end ConfigSource
end FailureWire
