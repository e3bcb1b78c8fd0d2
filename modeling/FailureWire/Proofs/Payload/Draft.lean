import FailureWire.Payload.Reader
import FailureWire.Proofs.Payload.Frame
import Mathlib.Data.List.Perm.Basic

/-!
# Plain JSON with marked places

A draft is plain JSON in which some places are marked: what stands in a marked place, once everything inside it has
been turned back, is to be turned back by one more transformation. The annotations of a draft name the marked places
by their paths, those inside a marked place behind its own (`perm_below`). The entries of a table of annotations may
stand in any order, for each of them turns one place back and leaves the others (`reviveFields_entries`). So following
the annotations of a draft turns every marked place back (`revives`).
-/

namespace FailureWire.Payload

/-- Plain JSON with marked places. -/
inductive Draft where
  | leaf (j : Json)
  | record (fields : List (String × Draft))
  | list (items : List Draft)
  /-- A place to be turned back: by which transformation, from what, and into what. -/
  | marked (t : Transformation) (inside : Draft) (whole : Document)

namespace Draft

/-! ## What a draft consists of -/

mutual
/-- The plain JSON of a draft. -/
def plain : Draft → Json
  | .leaf j => j
  | .record fields => .record (plainFields fields)
  | .list items => .list (plainItems items)
  | .marked _ inside _ => plain inside
termination_by structural a => a

def plainFields : List (String × Draft) → List (String × Json)
  | [] => []
  | (k, a) :: rest => (k, plain a) :: plainFields rest
termination_by structural fs => fs

def plainItems : List Draft → List Json
  | [] => []
  | a :: rest => plain a :: plainItems rest
termination_by structural as => as
end

mutual
/-- The annotations of a draft. -/
def notes : Draft → Notes
  | .leaf _ => .none
  | .record fields => .above none (notesOfFields fields)
  | .list items => .above none (notesOfItems 0 items)
  | .marked t inside _ => ⟨some t, (notes inside).below⟩
termination_by structural a => a

def notesOfFields : List (String × Draft) → List (Fields Json)
  | [] => []
  | (k, a) :: rest => (notes a).under k :: notesOfFields rest
termination_by structural fs => fs

def notesOfItems (i : Nat) : List Draft → List (Fields Json)
  | [] => []
  | a :: rest => (notes a).under (positionName i) :: notesOfItems (i + 1) rest
termination_by structural as => as
end

mutual
/-- A draft as a document, in which the outermost marked places that are done have been turned back, and the others
are still plain JSON. -/
def stage (done : List String → Bool) : Draft → Document
  | .leaf j => .ofJson j
  | .record fields => .record (stageFields done fields)
  | .list items => .list (stageItems done 0 items)
  | .marked _ inside whole => if done [] then whole else .ofJson (plain inside)
termination_by structural a => a

def stageFields (done : List String → Bool) : List (String × Draft) → List (String × Document)
  | [] => []
  | (k, a) :: rest => (k, stage (fun path => done (k :: path)) a) :: stageFields done rest
termination_by structural fs => fs

def stageItems (done : List String → Bool) (i : Nat) : List Draft → List Document
  | [] => []
  | a :: rest => stage (fun path => done (positionName i :: path)) a :: stageItems done (i + 1) rest
termination_by structural as => as
end

/-- What a draft is turned back into. -/
def value (a : Draft) : Document := a.stage fun _ => true

mutual
/-- The outermost marked places of a draft, with their paths. -/
def marks : Draft → List (List String × Draft)
  | .leaf _ => []
  | .record fields => marksOfFields fields
  | .list items => marksOfItems 0 items
  | .marked t inside whole => [([], .marked t inside whole)]
termination_by structural a => a

def marksOfFields : List (String × Draft) → List (List String × Draft)
  | [] => []
  | (k, a) :: rest => (marks a).map (fun (path, m) => (k :: path, m)) ++ marksOfFields rest
termination_by structural fs => fs

def marksOfItems (i : Nat) : List Draft → List (List String × Draft)
  | [] => []
  | a :: rest => (marks a).map (fun (path, m) => (positionName i :: path, m)) ++ marksOfItems (i + 1) rest
termination_by structural as => as
end

mutual
/-- The names of a draft lead to its places, and every transformation turns back what it is meant for. -/
def Tidy (host : Host) : Draft → Prop
  | .leaf _ => True
  | .record fields => (fields.map Prod.fst).Nodup ∧ TidyFields host fields
  | .list items => items.length ≤ 4294967295 ∧ TidyItems host items
  | .marked t inside whole => (notes inside).own = none ∧ Tidy host inside ∧
      revive host (some t.toJson) (.part (value inside)) = .ok (some whole)
termination_by structural a => a

def TidyFields (host : Host) : List (String × Draft) → Prop
  | [] => True
  | (k, a) :: rest => Document.isUnsafeKey k = false ∧ Tidy host a ∧ TidyFields host rest
termination_by structural fs => fs

def TidyItems (host : Host) : List Draft → Prop
  | [] => True
  | a :: rest => Tidy host a ∧ TidyItems host rest
termination_by structural as => as
end

/-! ## Stages -/

variable {host : Host}

mutual
theorem stage_false : ∀ a : Draft, a.stage (fun _ => false) = .ofJson a.plain
  | .leaf _ => rfl
  | .record fields => congrArg Document.record (stageFields_false fields)
  | .list items => congrArg Document.list (stageItems_false 0 items)
  | .marked _ _ _ => rfl

theorem stageFields_false : ∀ fields : List (String × Draft),
    stageFields (fun _ => false) fields = Document.ofJsonFields (plainFields fields)
  | [] => rfl
  | (k, a) :: rest => congrArg₂ List.cons (congrArg (Prod.mk k) (stage_false a)) (stageFields_false rest)

theorem stageItems_false : ∀ (i : Nat) (items : List Draft),
    stageItems (fun _ => false) i items = Document.ofJsonItems (plainItems items)
  | _, [] => rfl
  | i, a :: rest => congrArg₂ List.cons (stage_false a) (stageItems_false (i + 1) rest)
end

mutual
theorem stage_congr : ∀ {a : Draft} {done done' : List String → Bool},
    (∀ mark ∈ a.marks, done mark.1 = done' mark.1) → a.stage done = a.stage done'
  | .leaf _, _, _, _ => rfl
  | .record _, _, _, h => congrArg Document.record (stageFields_congr h)
  | .list _, _, _, h => congrArg Document.list (stageItems_congr h)
  | .marked _ _ _, _, _, h => by
    have hdone := h _ (List.mem_singleton_self _)
    simp only [stage, hdone]

theorem stageFields_congr : ∀ {fields : List (String × Draft)} {done done' : List String → Bool},
    (∀ mark ∈ marksOfFields fields, done mark.1 = done' mark.1) → stageFields done fields = stageFields done' fields
  | [], _, _, _ => rfl
  | (k, a) :: rest, _, _, h => by
    obtain ⟨hhere, hrest⟩ := List.forall_mem_append.1 h
    exact congrArg₂ List.cons (congrArg (Prod.mk k) (stage_congr (List.forall_mem_map.1 hhere)))
      (stageFields_congr hrest)

theorem stageItems_congr : ∀ {items : List Draft} {i : Nat} {done done' : List String → Bool},
    (∀ mark ∈ marksOfItems i items, done mark.1 = done' mark.1) → stageItems done i items = stageItems done' i items
  | [], _, _, _, _ => rfl
  | a :: rest, _, _, _, h => by
    obtain ⟨hhere, hrest⟩ := List.forall_mem_append.1 h
    exact congrArg₂ List.cons (stage_congr (List.forall_mem_map.1 hhere)) (stageItems_congr hrest)
end

/-! ## Marked places -/

theorem exists_key_of_mem_fields : ∀ {fields : List (String × Draft)} {mark : List String × Draft},
    mark ∈ marksOfFields fields → ∃ k ∈ fields.map Prod.fst, ∃ path, mark.1 = k :: path
  | (k, a) :: rest, mark, h => by
    rcases List.mem_append.1 h with hhere | hrest
    · obtain ⟨inner, -, rfl⟩ := List.mem_map.1 hhere
      exact ⟨k, List.mem_cons_self .., inner.1, rfl⟩
    · obtain ⟨key, hkey, path, hpath⟩ := exists_key_of_mem_fields hrest
      exact ⟨key, List.mem_cons_of_mem k hkey, path, hpath⟩

theorem exists_position_of_mem_items : ∀ {items : List Draft} {i : Nat} {mark : List String × Draft},
    mark ∈ marksOfItems i items → ∃ j, i ≤ j ∧ ∃ path, mark.1 = positionName j :: path
  | a :: rest, i, mark, h => by
    rcases List.mem_append.1 h with hhere | hrest
    · obtain ⟨inner, -, rfl⟩ := List.mem_map.1 hhere
      exact ⟨i, Nat.le_refl i, inner.1, rfl⟩
    · obtain ⟨j, hj, path, hpath⟩ := exists_position_of_mem_items hrest
      exact ⟨j, by omega, path, hpath⟩

/-- Paths that begin with one key are different if they go on differently. -/
theorem nodup_map_cons {marks : List (List String × Draft)} (key : String) (h : (marks.map Prod.fst).Nodup) :
    ((marks.map fun (path, m) => (key :: path, m)).map Prod.fst).Nodup := by
  rw [List.map_map]
  have hcons : Prod.fst ∘ (fun (path, m) => (key :: path, m)) = (key :: ·) ∘ (Prod.fst : List String × Draft → _) := rfl
  rw [hcons, ← List.map_map]
  exact h.map (List.cons_injective)

/-- Paths that begin with one key are none of those that begin with others. -/
theorem disjoint_map_cons {marks others : List (List String × Draft)} {key : String}
    (h : ∀ mark ∈ others, ∃ key' path, mark.1 = key' :: path ∧ key' ≠ key) :
    ((marks.map fun (path, m) => (key :: path, m)).map Prod.fst).Disjoint (others.map Prod.fst) := by
  intro path hhere hrest
  obtain ⟨mark, hmark, rfl⟩ := List.mem_map.1 hhere
  obtain ⟨inner, -, rfl⟩ := List.mem_map.1 hmark
  obtain ⟨other, hother, heq⟩ := List.mem_map.1 hrest
  obtain ⟨key', path, hpath, hne⟩ := h other hother
  rw [hpath] at heq
  exact hne (List.cons.inj heq).1

mutual
/-- A path leads to one marked place only. -/
theorem nodup_marks : ∀ {a : Draft}, a.Tidy host → (a.marks.map Prod.fst).Nodup
  | .leaf _, _ => List.nodup_nil
  | .record _, h => nodup_marksOfFields h.1 h.2
  | .list _, h => nodup_marksOfItems 0 h.2
  | .marked _ _ _, _ => List.nodup_singleton _

theorem nodup_marksOfFields : ∀ {fields : List (String × Draft)}, (fields.map Prod.fst).Nodup → TidyFields host fields →
    ((marksOfFields fields).map Prod.fst).Nodup
  | [], _, _ => List.nodup_nil
  | (k, a) :: rest, hnames, h => by
    obtain ⟨hnew, hnames⟩ := List.nodup_cons.1 hnames
    rw [marksOfFields, List.map_append]
    refine (nodup_map_cons k (nodup_marks h.2.1)).append (nodup_marksOfFields hnames h.2.2) ?_
    refine disjoint_map_cons fun mark hmark => ?_
    obtain ⟨key, hkey, path, hpath⟩ := exists_key_of_mem_fields hmark
    exact ⟨key, path, hpath, fun heq => hnew (heq ▸ hkey)⟩

theorem nodup_marksOfItems : ∀ {items : List Draft} (i : Nat), TidyItems host items →
    ((marksOfItems i items).map Prod.fst).Nodup
  | [], _, _ => List.nodup_nil
  | a :: rest, i, h => by
    rw [marksOfItems, List.map_append]
    refine (nodup_map_cons _ (nodup_marks h.1)).append (nodup_marksOfItems (i + 1) h.2) ?_
    refine disjoint_map_cons fun mark hmark => ?_
    obtain ⟨j, hj, path, hpath⟩ := exists_position_of_mem_items hmark
    refine ⟨_, path, hpath, fun heq => ?_⟩
    have := positionName_injective heq
    omega
end

theorem names_stageFields (done : List String → Bool) : ∀ fields : List (String × Draft),
    Fields.names (stageFields done fields) = fields.map Prod.fst
  | [] => rfl
  | (k, _) :: rest => congrArg (k :: ·) (names_stageFields done rest)

section
variable {p : List String} {m : Draft} {done done' : List String → Bool}

mutual
/-- A marked place of a draft is a place of the document that it is at a stage. When the place is done, nothing else
changes. -/
theorem exists_frames : ∀ {a : Draft} {p : List String} (done done' : List String → Bool), a.Tidy host →
    (p, m) ∈ a.marks → done p = false → done' p = true → (∀ q, q ≠ p → done' q = done q) →
      ∃ frames, pathOf frames = p ∧ (∀ frame ∈ frames, frame.Fits) ∧
        a.stage done = plug frames (.ofJson m.plain) ∧ a.stage done' = plug frames m.value
  | .record fields, p, done, done', htidy, hmem, hp, hp', hq => by
    obtain ⟨before, k, after, inner, hpath, hfits, hstage, hstage'⟩ :=
      exists_frames_fields htidy.1 htidy.2 hmem hp hp' hq
    exact ⟨.field before k after :: inner, hpath, hfits, congrArg Document.record hstage,
      congrArg Document.record hstage'⟩
  | .list items, p, done, done', htidy, hmem, hp, hp', hq => by
    obtain ⟨before, after, inner, hlength, hpath, hfits, hstage, hstage'⟩ :=
      exists_frames_items htidy.2 hmem hp hp' hq
    rw [Nat.zero_add] at hpath
    exact ⟨.item before after :: inner, hpath, List.forall_mem_cons.2 ⟨Nat.lt_of_lt_of_le hlength htidy.1, hfits⟩,
      congrArg Document.list hstage, congrArg Document.list hstage'⟩
  | .marked t inside whole, p, done, done', _, hmem, hp, hp', _ => by
    cases List.mem_singleton.1 hmem
    exact ⟨[], rfl, by simp, if_neg (Bool.eq_false_iff.1 hp), if_pos hp'⟩

theorem exists_frames_fields : ∀ {fields : List (String × Draft)} {p : List String} {done done' : List String → Bool},
    (fields.map Prod.fst).Nodup → TidyFields host fields → (p, m) ∈ marksOfFields fields → done p = false →
      done' p = true → (∀ q, q ≠ p → done' q = done q) →
        ∃ before k after inner, pathOf (.field before k after :: inner) = p ∧
          (∀ frame ∈ .field before k after :: inner, frame.Fits) ∧
          stageFields done fields = before ++ (k, plug inner (.ofJson m.plain)) :: after ∧
          stageFields done' fields = before ++ (k, plug inner m.value) :: after
  | (k, a) :: rest, p, done, done', hnames, htidy, hmem, hp, hp', hq => by
    obtain ⟨hnew, hnames⟩ := List.nodup_cons.1 hnames
    rcases List.mem_append.1 hmem with hhere | hrest
    · obtain ⟨⟨path, _⟩, hinner, heq⟩ := List.mem_map.1 hhere
      cases heq
      obtain ⟨inner, rfl, hfits, hstage, hstage'⟩ := exists_frames (fun q => done (k :: q))
        (fun q => done' (k :: q)) htidy.2.1 hinner hp hp' fun q hne => hq _ fun h => hne (List.cons.inj h).2
      have hsame : stageFields done' rest = stageFields done rest := stageFields_congr fun mark hmark => by
        obtain ⟨key, hkey, path, hpath⟩ := exists_key_of_mem_fields hmark
        rw [hpath]
        exact hq _ fun h => hnew ((List.cons.inj h).1 ▸ hkey)
      refine ⟨[], k, stageFields done rest, inner, rfl, List.forall_mem_cons.2
        ⟨⟨by simp [Fields.names], htidy.1⟩, hfits⟩, ?_, ?_⟩
      · simp only [stageFields, hstage, List.nil_append]
      · simp only [stageFields, hstage', hsame, List.nil_append]
    · obtain ⟨before, key, after, inner, rfl, hfits, hstage, hstage'⟩ :=
        exists_frames_fields hnames htidy.2.2 hrest hp hp' hq
      obtain ⟨hfit, hfits⟩ := List.forall_mem_cons.1 hfits
      have hkey : key ∈ rest.map Prod.fst := by
        rw [← names_stageFields done rest, hstage]
        simp [Fields.names]
      have hne : k ≠ key := fun h => hnew (h ▸ hkey)
      have hsame : a.stage (fun path => done' (k :: path)) = a.stage fun path => done (k :: path) :=
        stage_congr fun mark _ => hq _ fun h => hne (List.cons.inj h).1
      refine ⟨(k, a.stage fun path => done (k :: path)) :: before, key, after, inner, rfl,
        List.forall_mem_cons.2 ⟨⟨fun hmem => ?_, hfit.2⟩, hfits⟩, ?_, ?_⟩
      · rcases List.mem_cons.1 hmem with heq | hmem
        · exact hne heq.symm
        · exact hfit.1 hmem
      · simp only [stageFields, hstage, List.cons_append]
      · simp only [stageFields, hstage', hsame, List.cons_append]

theorem exists_frames_items : ∀ {items : List Draft} {i : Nat} {p : List String} {done done' : List String → Bool},
    TidyItems host items → (p, m) ∈ marksOfItems i items → done p = false → done' p = true →
      (∀ q, q ≠ p → done' q = done q) →
        ∃ before after inner, before.length < items.length ∧ positionName (i + before.length) :: pathOf inner = p ∧
          (∀ frame ∈ inner, frame.Fits) ∧
          stageItems done i items = before ++ plug inner (.ofJson m.plain) :: after ∧
          stageItems done' i items = before ++ plug inner m.value :: after
  | a :: rest, i, p, done, done', htidy, hmem, hp, hp', hq => by
    rcases List.mem_append.1 hmem with hhere | hrest
    · obtain ⟨⟨path, _⟩, hinner, heq⟩ := List.mem_map.1 hhere
      cases heq
      obtain ⟨inner, rfl, hfits, hstage, hstage'⟩ := exists_frames (fun q => done (positionName i :: q))
        (fun q => done' (positionName i :: q)) htidy.1 hinner hp hp'
        fun q hne => hq _ fun h => hne (List.cons.inj h).2
      have hsame : stageItems done' (i + 1) rest = stageItems done (i + 1) rest := stageItems_congr fun mark hmark => by
        obtain ⟨j, hj, path, hpath⟩ := exists_position_of_mem_items hmark
        rw [hpath]
        refine hq _ fun h => ?_
        have := positionName_injective (List.cons.inj h).1
        omega
      refine ⟨[], stageItems done (i + 1) rest, inner, Nat.succ_pos _, rfl, hfits, ?_, ?_⟩
      · simp only [stageItems, hstage, List.nil_append]
      · simp only [stageItems, hstage', hsame, List.nil_append]
    · obtain ⟨before, after, inner, hlength, rfl, hfits, hstage, hstage'⟩ :=
        exists_frames_items htidy.2 hrest hp hp' hq
      have hsame : a.stage (fun path => done' (positionName i :: path)) =
          a.stage fun path => done (positionName i :: path) :=
        stage_congr fun mark _ => hq _ fun h => by
          have := positionName_injective (List.cons.inj h).1
          omega
      refine ⟨a.stage (fun path => done (positionName i :: path)) :: before, after, inner, Nat.succ_lt_succ hlength, ?_,
        hfits, ?_, ?_⟩
      · rw [List.length_cons, Nat.add_assoc, Nat.add_comm 1]
      · simp only [stageItems, hstage, List.cons_append]
      · simp only [stageItems, hstage', hsame, List.cons_append]
end

end

/-! ## Annotations of marked places -/

/-- The annotation of a marked place: its path, and what is to be done there. -/
def entry (mark : List String × Draft) : String × Json := (pathText mark.1, mark.2.notes.toJson)

theorem keysOf_pathText {path : List String} (h : path ≠ []) : keysOf false (pathText path) = .ok path := by
  have hparse := @parsePath_joinPath (path.map String.toList) (by simpa using h)
  have hback : (path.map String.toList).map String.ofList = path := by
    simp [List.map_map, Function.comp_def]
  rw [keysOf, pathText, String.toList_ofList, hparse]
  exact congrArg Except.ok hback

theorem pathText_injective {p q : List String} (hp : p ≠ []) (hq : q ≠ []) (h : pathText p = pathText q) : p = q := by
  have hkeys := keysOf_pathText hp
  rw [h, keysOf_pathText hq] at hkeys
  exact (Except.ok.inj hkeys).symm

theorem nodup_names_entries {marks : List (List String × Draft)} (hne : ∀ mark ∈ marks, mark.1 ≠ [])
    (h : (marks.map Prod.fst).Nodup) : (Fields.names (marks.map entry)).Nodup := by
  have hnames : Fields.names (marks.map entry) = (marks.map Prod.fst).map pathText := by
    simp [Fields.names, entry, Function.comp_def]
  rw [hnames]
  refine h.map_on fun p hp q hq heq => ?_
  obtain ⟨mark, hmark, rfl⟩ := List.mem_map.1 hp
  obtain ⟨other, hother, rfl⟩ := List.mem_map.1 hq
  exact pathText_injective (hne mark hmark) (hne other hother) heq

theorem path_ne_nil_of_mem_fields {fields : List (String × Draft)} : ∀ mark ∈ marksOfFields fields, mark.1 ≠ [] := by
  intro mark hmark
  obtain ⟨_, _, _, hpath⟩ := exists_key_of_mem_fields hmark
  simp [hpath]

theorem path_ne_nil_of_mem_items {items : List Draft} {i : Nat} : ∀ mark ∈ marksOfItems i items, mark.1 ≠ [] := by
  intro mark hmark
  obtain ⟨_, _, _, hpath⟩ := exists_position_of_mem_items hmark
  simp [hpath]

theorem path_ne_nil_of_mem {a : Draft} (h : a.notes.own = none) : ∀ mark ∈ a.marks, mark.1 ≠ [] := by
  cases a with
  | leaf j => simp [marks]
  | record fields => exact path_ne_nil_of_mem_fields
  | list items => exact path_ne_nil_of_mem_items
  | marked t inside whole => cases h

/-- Annotations are seen from above under one more key. -/
theorem under_map_entry {marks : List (List String × Draft)} {below : Fields Json} (key : String)
    (hne : ∀ mark ∈ marks, mark.1 ≠ []) (h : below.Perm (marks.map entry)) :
    ((Notes.mk none below).under key).Perm ((marks.map fun (path, m) => (key :: path, m)).map entry) := by
  refine (h.map _).trans (List.Perm.of_eq ?_)
  rw [List.map_map, List.map_map]
  refine List.map_congr_left fun mark hmark => ?_
  obtain ⟨k, path, hpath⟩ := List.exists_cons_of_ne_nil (hne mark hmark)
  simp [entry, hpath, pathText, joinPath]

/-- A table of annotations has one entry for each marked place. -/
theorem perm_above {below : List (Fields Json)} {marks : List (List String × Draft)}
    (hne : ∀ mark ∈ marks, mark.1 ≠ []) (hnodup : (marks.map Prod.fst).Nodup)
    (h : below.flatten.Perm (marks.map entry)) : (Notes.above none below).below.Perm (marks.map entry) :=
  (Fields.perm_ofList ((h.map Prod.fst).nodup_iff.2 (nodup_names_entries hne hnodup))).trans h

mutual
/-- The annotations of a place are those of its marked places. -/
theorem perm_under (key : String) : ∀ {a : Draft}, a.Tidy host →
    (a.notes.under key).Perm ((a.marks.map fun (path, m) => (key :: path, m)).map entry)
  | .leaf _, _ => .refl _
  | .record _, h => under_map_entry key path_ne_nil_of_mem_fields <|
      perm_above path_ne_nil_of_mem_fields (nodup_marksOfFields h.1 h.2) (perm_notesOfFields h.2)
  | .list _, h => under_map_entry key path_ne_nil_of_mem_items <|
      perm_above path_ne_nil_of_mem_items (nodup_marksOfItems 0 h.2) (perm_notesOfItems 0 h.2)
  | .marked _ _ _, _ => .refl _

theorem perm_notesOfFields : ∀ {fields : List (String × Draft)}, TidyFields host fields →
    (notesOfFields fields).flatten.Perm ((marksOfFields fields).map entry)
  | [], _ => .refl _
  | (k, a) :: rest, h => by
    rw [notesOfFields, marksOfFields, List.flatten_cons, List.map_append]
    exact (perm_under k h.2.1).append (perm_notesOfFields h.2.2)

theorem perm_notesOfItems (i : Nat) : ∀ {items : List Draft}, TidyItems host items →
    (notesOfItems i items).flatten.Perm ((marksOfItems i items).map entry)
  | [], _ => .refl _
  | a :: rest, h => by
    rw [notesOfItems, marksOfItems, List.flatten_cons, List.map_append]
    exact (perm_under (positionName i) h.1).append (perm_notesOfItems (i + 1) h.2)
end

/-- **The annotations below a draft are those of its marked places.** -/
theorem perm_below {a : Draft} (h : a.Tidy host) (hown : a.notes.own = none) :
    a.notes.below.Perm (a.marks.map entry) := by
  cases a with
  | leaf j => exact .refl _
  | record fields =>
    exact perm_above path_ne_nil_of_mem_fields (nodup_marksOfFields h.1 h.2) (perm_notesOfFields h.2)
  | list items =>
    exact perm_above path_ne_nil_of_mem_items (nodup_marksOfItems 0 h.2) (perm_notesOfItems 0 h.2)
  | marked t inside whole => cases hown

/-! ## Turning back -/

/-- Wherever a marked place stands, its annotations turn it back. -/
def Revives (host : Host) (m : Draft) : Prop := ∀ frames : List Frame, (∀ frame ∈ frames, frame.Fits) →
  reviveTree host false (pathOf frames) m.notes.toJson (plug frames (.ofJson m.plain)) = .ok (plug frames m.value)

section
variable {a : Draft} {frames : List Frame}

/-- **The entries of a table of annotations turn their places back, in whatever order they stand.** -/
theorem reviveFields_entries (hframes : ∀ frame ∈ frames, frame.Fits) (htidy : a.Tidy host) :
    ∀ (marks : List (List String × Draft)) (done : List String → Bool), (∀ mark ∈ marks, mark ∈ a.marks) →
      (∀ mark ∈ marks, mark.1 ≠ []) → (∀ mark ∈ marks, mark.2.Revives host) → (marks.map Prod.fst).Nodup →
        (∀ mark ∈ marks, done mark.1 = false) →
          reviveFields host false (pathOf frames) (marks.map entry) (plug frames (a.stage done)) =
            .ok (plug frames (a.stage fun p => done p || (marks.map Prod.fst).contains p))
  | [], done, _, _, _, _, _ => by simp [reviveFields]
  | (p, m) :: rest, done, hmem, hne, hrevives, hnodup, hdone => by
    obtain ⟨hmem, hrest⟩ := List.forall_mem_cons.1 hmem
    obtain ⟨hne, hrestne⟩ := List.forall_mem_cons.1 hne
    obtain ⟨hrevive, hrestrevives⟩ := List.forall_mem_cons.1 hrevives
    obtain ⟨hp, hrestdone⟩ := List.forall_mem_cons.1 hdone
    obtain ⟨hnew, hnodup⟩ := List.nodup_cons.1 hnodup
    obtain ⟨inner, hpath, hfits, hstage, hstage'⟩ := exists_frames done (fun q => done q || q == p) htidy hmem hp
      (by simp) fun q hq => by simp [hq]
    have htree := hrevive (frames ++ inner) (List.forall_mem_append.2 ⟨hframes, hfits⟩)
    rw [pathOf_append, hpath, plug_append, plug_append, ← hstage, ← hstage'] at htree
    have hlater := reviveFields_entries hframes htidy rest (fun q => done q || q == p) hrest hrestne hrestrevives hnodup
      fun mark hmark => by
        have hother : mark.1 ≠ p := fun h => hnew (h ▸ List.mem_map.2 ⟨mark, hmark, rfl⟩)
        simp [hrestdone mark hmark, hother]
    have hsame : (fun q => done q || q == p || (rest.map Prod.fst).contains q) =
        fun q => done q || (((p, m) :: rest).map Prod.fst).contains q := by
      funext q
      rw [List.map_cons, List.contains_cons, Bool.or_assoc]
    rw [hsame] at hlater
    simp only [List.map_cons, entry, reviveFields, keysOf_pathText hne]
    show (do let d ← reviveTree host false (pathOf frames ++ p) m.notes.toJson (plug frames (a.stage done))
             reviveFields host false (pathOf frames) (rest.map entry) d) = _
    rw [htree]
    exact hlater

theorem reviveFields_below (hframes : ∀ frame ∈ frames, frame.Fits) (htidy : a.Tidy host) (hown : a.notes.own = none)
    (hrevives : ∀ mark ∈ a.marks, mark.2.Revives host) :
    reviveFields host false (pathOf frames) a.notes.below (plug frames (.ofJson a.plain)) =
      .ok (plug frames a.value) := by
  obtain ⟨marks, heq, hperm⟩ : Relation.Comp (· = List.map entry ·) List.Perm a.notes.below a.marks := by
    rw [List.eq_map_comp_perm]
    exact perm_below htidy hown
  have hmem : ∀ mark ∈ marks, mark ∈ a.marks := fun mark hmark => hperm.mem_iff.1 hmark
  have hread := reviveFields_entries hframes htidy marks (fun _ => false) hmem
    (fun mark hmark => path_ne_nil_of_mem hown mark (hmem mark hmark))
    (fun mark hmark => hrevives mark (hmem mark hmark)) ((hperm.map Prod.fst).nodup_iff.2 (nodup_marks htidy))
    fun _ _ => rfl
  have hall : (a.stage fun p => false || (marks.map Prod.fst).contains p) = a.value :=
    stage_congr fun mark hmark => by
      simp only [Bool.false_or, List.contains_iff_mem]
      exact List.mem_map_of_mem (hperm.mem_iff.2 hmark)
  rw [heq, ← stage_false, hread, hall]

end

mutual
/-- Every marked place is turned back. -/
theorem revives_of_mem_marks : ∀ {a : Draft}, a.Tidy host → ∀ mark ∈ a.marks, mark.2.Revives host
  | .leaf _, _ => by simp [marks]
  | .record _, h => revives_of_mem_fields h.2
  | .list _, h => revives_of_mem_items h.2
  | .marked t inside whole, h => by
    obtain ⟨hown, htidy, hwhole⟩ := h
    refine List.forall_mem_singleton.2 fun frames hframes => ?_
    have hbelow := reviveFields_below hframes htidy hown (revives_of_mem_marks htidy)
    have hown := changeAtPath_plug hframes hwhole
    show reviveTree host false (pathOf frames)
      (.list (t.toJson :: if inside.notes.below.isEmpty then [] else [.record inside.notes.below]))
      (plug frames (.ofJson inside.plain)) = .ok (plug frames whole)
    cases hcases : inside.notes.below with
    | nil =>
      rw [hcases] at hbelow
      show changeAtPath (revive host (some t.toJson)) (pathOf frames) (plug frames (.ofJson inside.plain)) = _
      rw [Except.ok.inj hbelow]
      exact hown
    | cons e rest =>
      rw [hcases] at hbelow
      show (do let d ← reviveFields host false (pathOf frames) (e :: rest) (plug frames (.ofJson inside.plain))
               reviveAt host (pathOf frames) (some t.toJson) d) = _
      rw [hbelow]
      exact hown

theorem revives_of_mem_fields : ∀ {fields : List (String × Draft)}, TidyFields host fields →
    ∀ mark ∈ marksOfFields fields, mark.2.Revives host
  | [], _ => by simp [marksOfFields]
  | (k, a) :: rest, h =>
    List.forall_mem_append.2 ⟨List.forall_mem_map.2 (revives_of_mem_marks h.2.1), revives_of_mem_fields h.2.2⟩

theorem revives_of_mem_items : ∀ {items : List Draft} {i : Nat}, TidyItems host items →
    ∀ mark ∈ marksOfItems i items, mark.2.Revives host
  | [], _, _ => by simp [marksOfItems]
  | a :: rest, _, h =>
    List.forall_mem_append.2 ⟨List.forall_mem_map.2 (revives_of_mem_marks h.1), revives_of_mem_items h.2⟩
end

/-- **The annotations of a draft turn its plain JSON back into what it was made of.** -/
theorem reviveTree_notes {a : Draft} (h : a.Tidy host) :
    reviveTree host false [] a.notes.toJson (.ofJson a.plain) = .ok a.value := by
  by_cases hown : a.notes.own = none
  · have hbelow : reviveFields host false (pathOf []) a.notes.below (plug [] (.ofJson a.plain)) =
        .ok (plug [] a.value) :=
      reviveFields_below (by simp) h hown (revives_of_mem_marks h)
    have hnotes : a.notes.toJson = .record a.notes.below := by
      rw [Notes.toJson, hown]
    rw [hnotes]
    exact hbelow
  · cases a with
    | marked t inside whole => exact revives_of_mem_marks h _ (List.mem_singleton_self _) [] (by simp)
    | _ => exact absurd rfl hown

theorem value_eq_of_isEmpty {a : Draft} (h : a.Tidy host) (hempty : a.notes.isEmpty = true) :
    a.value = .ofJson a.plain := by
  simp only [Notes.isEmpty, Bool.and_eq_true, Option.isNone_iff_eq_none, List.isEmpty_iff] at hempty
  have hnone : a.marks = [] := by
    have hperm := perm_below h hempty.1
    rw [hempty.2] at hperm
    exact List.map_eq_nil_iff.1 hperm.nil_eq.symm
  rw [← stage_false]
  exact stage_congr (by simp [hnone])

end Draft

end FailureWire.Payload
