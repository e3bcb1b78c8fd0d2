import FailureWire.Proofs.Payload.Drafted

/-!
# What has an identity in a plain document

The objects of a plain document are numbered in the order in which they are reached, so each of them occurs once
(`Holds`). Besides them only whole numbers of any size and not-a-numbers can be told to be the same. If these are all
different, nothing occurs at two places, and payload text has no equalities (`toJson?_equalities`).
-/

namespace FailureWire

namespace Document

open Payload

variable {host : Host} {withBytes : Bool}

mutual
/-- The whole numbers of any size and the not-a-numbers of a document. -/
def singular : Document → List Identity
  | .number n => if n.isNaN then [.nan] else []
  | .big n => [.big n]
  | .record fields => singularInFields fields
  | .list items | .set items => singularInItems items
  | .map entries => singularInEntries entries
  | .error name message cause _ => singular name ++ singular message ++ singularInCause cause
  | _ => []
termination_by structural d => d

def singularInFields : List (String × Document) → List Identity
  | [] => []
  | (_, d) :: rest => singular d ++ singularInFields rest
termination_by structural fs => fs

def singularInItems : List Document → List Identity
  | [] => []
  | d :: rest => singular d ++ singularInItems rest
termination_by structural ds => ds

def singularInEntries : List (Document × Document) → List Identity
  | [] => []
  | (k, d) :: rest => singular k ++ singular d ++ singularInEntries rest
termination_by structural es => es

def singularInCause : Option Document → List Identity
  | none => []
  | some d => singular d
termination_by structural d => d
end

/-! ## Occurrences -/

/-- The identities of objects with these numbers. -/
def objects (k n : Nat) : List Identity := (List.range' k n).map .object

theorem objects_append (k n m : Nat) : objects k (n + m) = objects k n ++ objects (k + n) m := by
  rw [objects, ← List.range'_append_1, List.map_append]
  rfl

theorem objects_succ (k n : Nat) : objects k (1 + n) = .object k :: objects (k + 1) n := by
  rw [objects_append]
  rfl

theorem nodup_objects (k n : Nat) : (objects k n).Nodup :=
  List.Nodup.map (fun _ _ h => Identity.object.inj h) List.nodup_range'

/-- A search finds this many objects, each once and from the next number on, and beside them just these identities. -/
def Holds (search : StateM Nat (List Occurrence)) (n : Nat) (others : List Identity) : Prop :=
  (∀ i ∈ others, ∀ k, i ≠ .object k) ∧ ∀ k,
    ((search.run k).1.map Occurrence.identity).Perm (objects k n ++ others) ∧ (search.run k).2 = k + n

theorem holds_nothing : Holds (pure []) 0 [] := ⟨by simp, fun _ => ⟨.refl _, rfl⟩⟩

theorem holds_singular (path : List String) {i : Identity} (h : ∀ k, i ≠ .object k) :
    Holds (pure [⟨path, i⟩]) 0 [i] :=
  ⟨by simpa using h, fun _ => ⟨.refl _, rfl⟩⟩

theorem Holds.object {parts : StateM Nat (List Occurrence)} {n : Nat} {others : List Identity}
    (h : Holds parts n others) (path : List String) :
    Holds (do let k ← nextNumber; return ⟨path, .object k⟩ :: (← parts)) (1 + n) others := by
  refine ⟨h.1, fun k => ?_⟩
  obtain ⟨hperm, hnext⟩ := h.2 (k + 1)
  refine ⟨?_, ?_⟩
  · rw [objects_succ]
    exact hperm.cons _
  · show (parts.run (k + 1)).2 = k + (1 + n)
    rw [hnext, Nat.add_assoc]

theorem Holds.append {first second : StateM Nat (List Occurrence)} {n m : Nat} {others more : List Identity}
    (h : Holds first n others) (h' : Holds second m more) :
    Holds (do let here ← first; return here ++ (← second)) (n + m) (others ++ more) := by
  refine ⟨fun i hi => (List.mem_append.1 hi).elim (h.1 i) (h'.1 i), fun k => ?_⟩
  obtain ⟨hperm, hnext⟩ := h.2 k
  obtain ⟨hperm', hnext'⟩ := h'.2 (k + n)
  rw [← hnext] at hperm' hnext'
  refine ⟨?_, ?_⟩
  · show (((first.run k).1 ++ (second.run (first.run k).2).1).map Occurrence.identity).Perm _
    rw [List.map_append, objects_append, ← hnext]
    refine (hperm.append hperm').trans ?_
    rw [List.append_assoc, List.append_assoc]
    refine .append_left _ ?_
    rw [← List.append_assoc, ← List.append_assoc]
    exact .append_right _ List.perm_append_comm
  · show (second.run (first.run k).2).2 = k + (n + m)
    rw [hnext', hnext, Nat.add_assoc]

mutual
/-- In a plain document each object occurs once. -/
theorem holds_occurrencesAt : ∀ {d : Document}, d.IsPlain host withBytes → ∀ path : List String,
    Holds (occurrencesAt path d) d.objectCount d.singular
  | .undefined, _, _ | .null, _, _ | .bool _, _, _ | .text _, _, _ => holds_nothing
  | .big _, _, path => holds_singular path (by simp)
  | .number n, _, path => by
    simp only [occurrencesAt, singular]
    split
    · exact holds_singular path (by simp)
    · exact holds_nothing
  | .date _, _, path | .pattern _ _, _, path | .bytes _, _, path | .numbers _ _, _, path
  | .boxed (.address _), _, path => holds_nothing.object path
  | .record _, h, path => (holds_occurrencesInFields h.2 path).object path
  | .list _, h, path => (holds_occurrencesInItems h.2 path 0).object path
  | .set _, h, path => (holds_occurrencesInItems h.2.2 path 0).object path
  | .map _, h, path => (holds_occurrencesInEntries h.2.2 path 0).object path
  | .error name _ cause _, ⟨hname, ⟨s, hmessage⟩, hcause, hstack⟩, path => by
    subst hmessage hstack
    have hcount : (error name (.text s) cause .undefined).objectCount =
        1 + (name.objectCount + 0 + countInCause cause) := by
      simp only [objectCount]
      omega
    rw [hcount]
    exact (((holds_occurrencesAt hname _).append holds_nothing).append
      (holds_occurrencesInCause hcause path)).object path

theorem holds_occurrencesInFields : ∀ {fields : List (String × Document)}, PlainFields host withBytes fields →
    ∀ path : List String, Holds (occurrencesInFields path fields) (countInFields fields) (singularInFields fields)
  | [], _, _ => holds_nothing
  | (_, _) :: _, h, path => (holds_occurrencesAt h.2.1 _).append (holds_occurrencesInFields h.2.2 path)

theorem holds_occurrencesInItems : ∀ {items : List Document}, PlainItems host withBytes items →
    ∀ (path : List String) (i : Nat),
    Holds (occurrencesInItems path i items) (countInItems items) (singularInItems items)
  | [], _, _, _ => holds_nothing
  | _ :: _, h, path, i => (holds_occurrencesAt h.1 _).append (holds_occurrencesInItems h.2 path (i + 1))

theorem holds_occurrencesInEntries : ∀ {entries : List (Document × Document)}, PlainEntries host withBytes entries →
    ∀ (path : List String) (i : Nat),
      Holds (occurrencesInEntries path i entries) (countInEntries entries) (singularInEntries entries)
  | [], _, _, _ => holds_nothing
  | (_, _) :: _, h, path, i => ((holds_occurrencesAt h.1 _).append (holds_occurrencesAt h.2.1 _)).append
      (holds_occurrencesInEntries h.2.2 path (i + 1))

theorem holds_occurrencesInCause : ∀ {cause : Option Document}, PlainCause host withBytes cause → ∀ path : List String,
    Holds (occurrencesInCause path cause) (countInCause cause) (singularInCause cause)
  | some _, h, _ => holds_occurrencesAt h _
end

/-- No two places of a plain document hold the same, if its whole numbers of any size and its not-a-numbers are all
different. -/
theorem nodup_identities {d : Document} (h : d.IsPlain host withBytes) (hsingular : d.singular.Nodup) :
    (d.occurrences.map Occurrence.identity).Nodup := by
  obtain ⟨hothers, hholds⟩ := holds_occurrencesAt h []
  rw [occurrences, (hholds 0).1.nodup_iff]
  refine (nodup_objects 0 _).append hsingular fun i hi hi' => ?_
  obtain ⟨k, -, rfl⟩ := List.mem_map.1 hi
  exact hothers _ hi' k rfl

end Document

/-! ## Equalities -/

namespace Payload

theorem length_pathsOf (occurrences : List Occurrence) (i : Identity) :
    (pathsOf occurrences i).length = (occurrences.map Occurrence.identity).count i := by
  rw [pathsOf, List.length_mergeSort, List.length_map, ← List.countP_eq_length_filter, List.count_eq_countP,
    List.countP_map]
  rfl

/-- Where everything occurs once, there are no equalities. -/
theorem toJson?_equalities {occurrences : List Occurrence} (h : (occurrences.map Occurrence.identity).Nodup) :
    (equalities occurrences).toJson? = none := by
  have hsingle (i : Identity) : (pathsOf occurrences i).length ≤ 1 := by
    rw [length_pathsOf]
    exact List.nodup_iff_count_le_one.1 h i
  have hrepeated {α : Type} {f : List (List String) → Option α} (hnone : f [] = none) (hone : ∀ path, f [path] = none) :
      ((identitiesOf occurrences).map (pathsOf occurrences)).filterMap f = [] := by
    rw [List.filterMap_eq_nil_iff, List.forall_mem_map]
    intro i _
    have hi := hsingle i
    generalize pathsOf occurrences i = paths at hi
    rcases paths with _ | ⟨first, _ | ⟨second, rest⟩⟩
    · exact hnone
    · exact hone first
    · simp at hi
  rw [equalities, hrepeated rfl fun _ => rfl]
  rfl

end Payload

end FailureWire
