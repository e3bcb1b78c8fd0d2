import FailureWire.Proofs.Wire.Typed

/-!
# Shapes, checked

`g.Conforms s v` says that `v` is of the shape `s` to the letter: numbers are finite where the shape has
numbers, and safe integers where it has integers. The check of a schema finds nothing exactly where a value
conforms (`findings_check`), and then it returns `g.trim s v`: the value without whatever the schema does not
name (`check_of_conforms`).

What is returned conforms in turn, and nothing is left in it to be trimmed, wherever it is laid out
(`trim_shown`). So a second check returns it again.
-/

namespace FailureWire

/-! ## Checks without findings -/

namespace Checked

theorem under_ok (s : Segment) (d : Document) : (ok d).under s = ok d := rfl

theorem findings_under {s : Segment} {c : Checked} : (c.under s).findings = [] ↔ c.findings = [] :=
  List.map_eq_nil_iff

theorem findings_listOf {items : List Checked} :
    (listOf items).findings = [] ↔ ∀ c ∈ items, c.findings = [] :=
  List.flatMap_eq_nil_iff

theorem findings_recordOf {fields : List (String × Checked)} :
    (recordOf fields).findings = [] ↔ ∀ f ∈ fields, f.2.findings = [] :=
  List.flatMap_eq_nil_iff

theorem listOf_ok (ds : List Document) : listOf (ds.map ok) = ok (.list ds) := by
  simp [listOf, ok, Function.comp_def, List.flatMap_eq_nil_iff]

theorem recordOf_ok (fields : Fields Document) :
    recordOf (fields.map fun f => (f.1, ok f.2)) = ok (.record fields) := by
  simp only [recordOf, ok, List.map_map, Function.comp_def, List.map_id', List.flatMap_map]
  exact congrArg _ (List.flatMap_eq_nil_iff.2 fun _ _ => rfl)

end Checked

namespace Schema

theorem integerFindings_eq_nil {n : Number} : integerFindings n = [] ↔ ∃ i, n.toSafeInt? = some i := by
  unfold integerFindings Number.toSafeInt?
  cases n.toInt? with
  | none => simp
  | some i =>
    rw [Option.filter_some]
    dsimp only
    by_cases hbig : Number.maxSafe < i
    · simp [hbig, Int.not_le.2 hbig]
    · by_cases hsmall : i < -Number.maxSafe
      · simp [hbig, hsmall, Int.not_le.2 hsmall]
      · simp [hbig, hsmall, Int.not_lt.1 hbig, Int.not_lt.1 hsmall]

mutual
/-- The properties that a schema names are different ones, at every level. -/
def isDistinct : Schema → Bool
  | .table s | .list s | .optional s => isDistinct s
  | .record fields => decide (fields.map (·.1)).Nodup && areDistinct fields
  | _ => true
termination_by structural s => s

/-- The schemas of fields name different properties. -/
def areDistinct : List (String × Schema) → Bool
  | [] => true
  | (_, s) :: rest => isDistinct s && areDistinct rest
termination_by structural fs => fs
end

end Schema

namespace Graph

variable {g g' : Graph} {first : ObjectId} {v w : Value}

mutual
/-- A value is of a shape to the letter. What a table says of `__proto__` does not count. -/
def Conforms (g : Graph) : Schema → Value → Prop
  | .text, v => v.IsText
  | .bool, v => ∃ b, v = .bool b
  | .number, v => ∃ n, v = .number n ∧ n.isFinite = true
  | .integer, v => ∃ n i, v = .number n ∧ n.toSafeInt? = some i
  | .bytes, v => (g.bytesOf? v).isSome = true
  | .table values, v =>
    ∃ fields, g.recordOf? v = some fields ∧ ∀ f ∈ fields, f.1 ≠ "__proto__" → Conforms g values f.2
  | .list items, v => ∃ vs, g.listOf? v = some vs ∧ ∀ x ∈ vs, Conforms g items x
  | .record fields, v => g.isKeyed v = true ∧ FieldsConform g fields v
  | .optional s, v => v = .undefined ∨ Conforms g s v
termination_by structural s => s

/-- The properties of a value are of their shapes to the letter. -/
def FieldsConform (g : Graph) : List (String × Schema) → Value → Prop
  | [], _ => True
  | (name, s) :: rest, v => Conforms g s (g.read v name) ∧ FieldsConform g rest v
termination_by structural fs => fs
end

mutual
/-- A value without what a schema does not name. -/
def trim (g : Graph) : Schema → Value → Document
  | .table values, v =>
    .record ((((g.recordOf? v).getD []).filter fun f => f.1 ≠ "__proto__").map fun f =>
      (f.1, trim g values f.2))
  | .list items, v => .list (((g.listOf? v).getD []).map (trim g items))
  | .record fields, v => .record (trimFields g fields v)
  | .optional s, v => if v = .undefined then .undefined else trim g s v
  | .text, v | .bool, v | .number, v | .integer, v | .bytes, v => .existing v
termination_by structural s => s

/-- The properties that a value has of those that fields name, without what the schemas do not name. -/
def trimFields (g : Graph) : List (String × Schema) → Value → Fields Document
  | [], _ => []
  | (name, s) :: rest, v => ((g.get? v name).map fun w => (name, trim g s w)).toList ++ trimFields g rest v
termination_by structural fs => fs
end

/-- Only what is optional may be missing. -/
theorem isOptional_of_conforms_undefined {s : Schema} (h : g.Conforms s .undefined) : s.isOptional = true := by
  cases s with
  | optional => rfl
  | text | bool | number | integer =>
    simp only [Conforms, Value.IsText] at h
    simp at h
  | bytes => cases h
  | table | list =>
    obtain ⟨_, habsurd, -⟩ := h
    cases habsurd
  | record =>
    obtain ⟨habsurd, -⟩ := h
    cases habsurd

theorem trim_undefined {s : Schema} (h : g.Conforms s .undefined) : g.trim s .undefined = .undefined := by
  cases s with
  | optional => rw [trim, if_pos rfl]
  | text | bool | number | integer | bytes | table | list | record =>
    cases isOptional_of_conforms_undefined h

/-! ## What a check finds -/

theorem isFinite_of_toSafeInt? {n : Number} {i : Int} (h : n.toSafeInt? = some i) : n.isFinite = true := by
  cases n with
  | finite => rfl
  | nan | infinite => cases h

mutual
/-- **A check returns a value of the shape without what the schema does not name.** -/
theorem check_of_conforms : ∀ {s : Schema} {v : Value}, g.Conforms s v → s.check g v = .ok (g.trim s v)
  | .text, _, h => by
    obtain ⟨t, rfl⟩ := h
    rfl
  | .bool, _, h => by
    obtain ⟨b, rfl⟩ := h
    rfl
  | .number, _, h => by
    obtain ⟨n, rfl, hn⟩ := h
    simp only [Schema.check, hn, if_true, trim]
  | .integer, _, h => by
    obtain ⟨n, i, rfl, hi⟩ := h
    simp only [Schema.check, isFinite_of_toSafeInt? hi, if_true, trim,
      Schema.integerFindings_eq_nil.2 ⟨i, hi⟩]
    rfl
  | .bytes, _, h => if_pos h
  | .table values, v, ⟨fields, hv, hall⟩ => by
    simp only [Schema.check, trim, hv, Option.getD_some]
    rw [← Checked.recordOf_ok, List.map_map]
    refine congrArg _ (List.map_congr_left fun f hf => ?_)
    obtain ⟨hmem, hname⟩ := List.mem_filter.1 hf
    rw [check_of_conforms (hall f hmem (of_decide_eq_true hname))]
    rfl
  | .list items, v, ⟨vs, hv, hall⟩ => by
    simp only [Schema.check, trim, hv, Option.getD_some]
    rw [← Checked.listOf_ok, List.map_map]
    refine congrArg _ (List.ext_getElem (by simp) fun i hi _ => ?_)
    rw [List.getElem_mapIdx, List.getElem_map, check_of_conforms (hall _ (List.getElem_mem _))]
    rfl
  | .record fields, v, ⟨hkeyed, hall⟩ => by
    simp only [Schema.check, hkeyed, if_true, trim]
    rw [checkFields_of_conform hall, Checked.recordOf_ok]
  | .optional s, v, h => by
    simp only [Schema.check, trim]
    split
    · rfl
    next hv => exact check_of_conforms (h.resolve_left hv)

/-- The properties of a value are returned likewise. -/
theorem checkFields_of_conform : ∀ {fields : List (String × Schema)} {v : Value},
    g.FieldsConform fields v →
      Schema.checkFields g fields v = (g.trimFields fields v).map fun f => (f.1, .ok f.2)
  | [], _, _ => rfl
  | (name, s) :: rest, v, ⟨hhere, hrest⟩ => by
    simp only [Schema.checkFields, trimFields, List.map_append, checkFields_of_conform hrest]
    cases hv : g.get? v name with
    | none =>
      rw [read_eq_undefined hv] at hhere
      simp [isOptional_of_conforms_undefined hhere]
    | some w =>
      rw [read_eq_of_get? hv] at hhere
      simp only [check_of_conforms hhere]
      rfl
end

mutual
/-- A value in which a check finds nothing is of the shape. -/
theorem conforms_of_findings : ∀ {s : Schema} {v : Value}, (s.check g v).findings = [] → g.Conforms s v
  | .text, v, h => by
    cases v with
    | text s => exact ⟨s, rfl⟩
    | undefined | null | bool | number | big | object => cases h
  | .bool, v, h => by
    cases v with
    | bool b => exact ⟨b, rfl⟩
    | undefined | null | text | number | big | object => cases h
  | .number, v, h => by
    cases v with
    | number n =>
      refine ⟨n, rfl, ?_⟩
      by_contra hn
      simp [Schema.check, hn, Checked.fail] at h
    | undefined | null | bool | text | big | object => cases h
  | .integer, v, h => by
    cases v with
    | number n =>
      simp only [Schema.check] at h
      split at h
      · obtain ⟨i, hi⟩ := Schema.integerFindings_eq_nil.1 h
        exact ⟨n, i, rfl, hi⟩
      · cases h
    | undefined | null | bool | text | big | object => cases h
  | .bytes, v, h => by
    simp only [Schema.check] at h
    split at h
    next hbytes => exact hbytes
    next => cases h
  | .table values, v, h => by
    simp only [Schema.check] at h
    split at h
    next fields hfields =>
      refine ⟨fields, hfields, fun f hf hname => conforms_of_findings ?_⟩
      exact Checked.findings_under.1 (Checked.findings_recordOf.1 h _
        (List.mem_map.2 ⟨f, List.mem_filter.2 ⟨hf, decide_eq_true hname⟩, rfl⟩))
    next => cases h
  | .list items, v, h => by
    simp only [Schema.check] at h
    split at h
    next vs hvs =>
      refine ⟨vs, hvs, fun x hx => conforms_of_findings ?_⟩
      obtain ⟨i, hi, rfl⟩ := List.getElem_of_mem hx
      exact Checked.findings_under.1 (Checked.findings_listOf.1 h _
        (List.mem_mapIdx.2 ⟨i, hi, rfl⟩))
    next => cases h
  | .record fields, v, h => by
    simp only [Schema.check] at h
    split at h
    next hkeyed => exact ⟨hkeyed, fieldsConform_of_findings (Checked.findings_recordOf.1 h)⟩
    next => cases h
  | .optional s, v, h => by
    simp only [Schema.check] at h
    split at h
    next hv => exact .inl hv
    next => exact .inr (conforms_of_findings h)

theorem fieldsConform_of_findings : ∀ {fields : List (String × Schema)} {v : Value},
    (∀ f ∈ Schema.checkFields g fields v, f.2.findings = []) → g.FieldsConform fields v
  | [], _, _ => trivial
  | (name, s) :: rest, v, h => by
    simp only [Schema.checkFields] at h
    refine ⟨?_, fieldsConform_of_findings fun f hf => h f (List.mem_append_right _ hf)⟩
    cases hv : g.get? v name with
    | none =>
      rw [read_eq_undefined hv]
      cases hs : s.isOptional with
      | true =>
        cases s with
        | optional s => exact .inl rfl
        | text | bool | number | integer | bytes | table | list | record => cases hs
      | false =>
        have hfound := h (name, (s.check g .undefined).under (.name name)) (by simp [hv, hs])
        exact conforms_of_findings (Checked.findings_under.1 hfound)
    | some w =>
      rw [read_eq_of_get? hv]
      have hfound := h (name, (s.check g w).under (.name name)) (by simp [hv])
      exact conforms_of_findings (Checked.findings_under.1 hfound)
end

/-- **A check finds nothing exactly in the values of the shape.** -/
theorem findings_check {s : Schema} : (s.check g v).findings = [] ↔ g.Conforms s v :=
  ⟨conforms_of_findings, fun h => by rw [check_of_conforms h]; rfl⟩

/-! ## What a check returns -/

theorem get?_trimFields_of_not_mem : ∀ {fields : List (String × Schema)} {name : String},
    name ∉ fields.map (·.1) → Fields.get? (g.trimFields fields v) name = none
  | [], _, _ => rfl
  | (n, s) :: rest, name, h => by
    have hne : name ≠ n := List.ne_of_not_mem_cons h
    have hrest : name ∉ rest.map (·.1) := List.not_mem_of_not_mem_cons h
    rw [trimFields, Fields.get?_append, get?_trimFields_of_not_mem hrest, Option.or_none]
    cases g.get? v n with
    | none => rfl
    | some w => exact Fields.get?_cons_of_ne (Ne.symm hne) _ _

/-- A property that fields name is there if it was, without what its schema does not name. -/
theorem get?_trimFields : ∀ {fields : List (String × Schema)} {name : String} {s : Schema},
    (fields.map (·.1)).Nodup → (name, s) ∈ fields →
      Fields.get? (g.trimFields fields v) name = (g.get? v name).map (g.trim s)
  | (n, s') :: rest, name, s, hnodup, hmem => by
    obtain ⟨hnew, hnodup⟩ := List.nodup_cons.1 hnodup
    rw [trimFields, Fields.get?_append]
    rcases List.mem_cons.1 hmem with heq | hmem
    · cases heq
      rw [get?_trimFields_of_not_mem hnew, Option.or_none]
      cases g.get? v n with
      | none => rfl
      | some w => exact if_pos rfl
    · have hne : n ≠ name := fun heq => hnew (List.mem_map.2 ⟨(name, s), hmem, heq.symm⟩)
      rw [get?_trimFields hnodup hmem]
      cases g.get? v n with
      | none => rfl
      | some w => rw [Option.map_some, Option.toList_some, Fields.get?_cons_of_ne hne]; rfl

/-- The properties of `r` are those of `v` that fields name, without what their schemas do not name. -/
def ShowsTrimmed (g g' : Graph) (first : ObjectId) (fields : List (String × Schema)) (v r : Value) : Prop :=
  ∀ name s, (name, s) ∈ fields →
    Option.Rel (g'.Shows first) ((g.get? v name).map (g.trim s)) (g'.get? r name)

mutual
/-- **What a check returns is of the shape again**, and nothing of it is left out a second time. -/
theorem trim_shown (hle : g ≤ g') : ∀ {s : Schema} {v r : Value}, s.isDistinct = true → g.Conforms s v →
    g'.Shows first (g.trim s v) r → g'.Conforms s r ∧ g'.trim s r = g.trim s v
  | .text, v, r, _, hv, hr | .bool, v, r, _, hv, hr | .number, v, r, _, hv, hr
  | .integer, v, r, _, hv, hr => by
    obtain rfl : r = v := hr
    exact ⟨hv, rfl⟩
  | .bytes, v, r, _, hv, hr => by
    obtain rfl : r = v := hr
    obtain ⟨data, hdata⟩ := Option.isSome_iff_exists.1 hv
    have hdata' : g'.bytesOf? r = some data := bytesOf?_eq_some.2 (objectOf?_of_le hle (bytesOf?_eq_some.1 hdata))
    exact ⟨by rw [Conforms, hdata']; rfl, rfl⟩
  | .table values, v, r, hs, ⟨fields, hv, hall⟩, hr => by
    simp only [trim, hv, Option.getD_some] at hr ⊢
    obtain ⟨copies, hcopies, hshown⟩ := hr
    have hrecord := recordOf?_eq_some.2 hcopies
    have hkept : ∀ f ∈ fields.filter (fun f => f.1 ≠ "__proto__"),
        g.Conforms values f.2 ∧ f.1 ≠ "__proto__" := by
      intro f hf
      obtain ⟨hmem, hname⟩ := List.mem_filter.1 hf
      exact ⟨hall f hmem (of_decide_eq_true hname), of_decide_eq_true hname⟩
    have hboth : List.Forall₂ (fun f c => f.1 = c.1 ∧ f.1 ≠ "__proto__" ∧ g'.Conforms values c.2 ∧
        g'.trim values c.2 = g.trim values f.2) (fields.filter fun f => f.1 ≠ "__proto__") copies :=
      ((List.forall₂_and_left _ _).2 ⟨hkept, List.forall₂_map_left_iff.1 hshown.zip⟩).imp
        fun f c ⟨⟨hconforms, hproto⟩, hname, hshow⟩ => ⟨hname, hproto, trim_shown hle hs hconforms hshow⟩
    have hnames : copies.filter (fun f => f.1 ≠ "__proto__") = copies :=
      List.filter_eq_self.2 fun c hc => by
        obtain ⟨f, -, hname, hproto, -⟩ := exists_of_forall₂ hboth hc
        exact decide_eq_true (hname ▸ hproto)
    refine ⟨⟨copies, hrecord, fun c hc _ => ?_⟩, ?_⟩
    · obtain ⟨f, -, -, -, hconforms, -⟩ := exists_of_forall₂ hboth hc
      exact hconforms
    · rw [hrecord, Option.getD_some, hnames]
      refine congrArg Document.record (map_eq_map_of_forall₂ (hboth.imp fun f c h => ?_)).symm
      rw [h.1, h.2.2.2]
  | .list items, v, r, hs, ⟨vs, hv, hall⟩, hr => by
    simp only [trim, hv, Option.getD_some] at hr ⊢
    obtain ⟨copies, hcopies, hshown⟩ := hr
    have hlist : g'.listOf? r = some copies := by
      rw [listOf?, hcopies]
      rfl
    have hboth : List.Forall₂ (fun x c => g'.Conforms items c ∧ g'.trim items c = g.trim items x) vs copies :=
      ((List.forall₂_and_left _ _).2 ⟨hall, List.forall₂_map_left_iff.1 hshown.forall₂⟩).imp
        fun x c ⟨hconforms, hshow⟩ => trim_shown hle hs hconforms hshow
    refine ⟨⟨copies, hlist, fun c hc => ?_⟩, ?_⟩
    · obtain ⟨x, -, hconforms, -⟩ := exists_of_forall₂ hboth hc
      exact hconforms
    · rw [hlist, Option.getD_some]
      exact congrArg Document.list (map_eq_map_of_forall₂ (hboth.imp fun _ _ h => h.2.symm)).symm
  | .record fields, v, r, hs, ⟨hkeyed, hall⟩, hr => by
    obtain ⟨hnodup, hs⟩ := Bool.and_eq_true_iff.1 hs
    have hshown : ShowsTrimmed g g' first fields v r := by
      intro name s hmem
      rw [← get?_trimFields (of_decide_eq_true hnodup) hmem]
      exact (g'.reading_shows first).get? hr name
    obtain ⟨copies, hcopies, -⟩ := hr
    obtain ⟨hconform, htrim⟩ := trimFields_shown hle hs hall hshown
    refine ⟨⟨by rw [isKeyed, hcopies], hconform⟩, ?_⟩
    rw [trim, trim, htrim]
  | .optional s, v, r, hs, hv, hr => by
    simp only [trim] at hr ⊢
    by_cases hundefined : v = .undefined
    · rw [if_pos hundefined] at hr
      obtain rfl : r = .undefined := hr
      exact ⟨.inl rfl, by rw [if_pos rfl, if_pos hundefined]⟩
    · rw [if_neg hundefined] at hr
      have hs : s.isDistinct = true := hs
      obtain ⟨hconforms, htrim⟩ := trim_shown hle hs (hv.resolve_left hundefined) hr
      refine ⟨.inr hconforms, ?_⟩
      rw [if_neg hundefined, ← htrim]
      split
      next hr =>
        rw [hr] at hconforms ⊢
        exact (trim_undefined hconforms).symm
      next => rfl

/-- The properties that a check returns are of their shapes again. -/
theorem trimFields_shown (hle : g ≤ g') : ∀ {fields : List (String × Schema)} {v r : Value},
    Schema.areDistinct fields = true → g.FieldsConform fields v → ShowsTrimmed g g' first fields v r →
      g'.FieldsConform fields r ∧ g'.trimFields fields r = g.trimFields fields v
  | [], _, _, _, _, _ => ⟨trivial, rfl⟩
  | (name, s) :: rest, v, r, hs, ⟨hhere, hall⟩, hr => by
    obtain ⟨hs, hrest⟩ := Bool.and_eq_true_iff.1 hs
    obtain ⟨hconform, htrim⟩ := trimFields_shown hle hrest hall fun n s' hmem =>
      hr n s' (List.mem_cons_of_mem _ hmem)
    have hname := hr name s (List.mem_cons_self ..)
    generalize hfound : g'.get? r name = found at hname
    rw [FieldsConform, trimFields, trimFields, htrim, hfound]
    cases hv : g.get? v name with
    | none =>
      rw [hv] at hname
      cases hname
      rw [read_eq_undefined hv] at hhere
      rw [read_eq_undefined hfound]
      have hnothing : g'.Shows first (g.trim s .undefined) .undefined := by rw [trim_undefined hhere]; rfl
      exact ⟨⟨(trim_shown hle hs hhere hnothing).1, hconform⟩, rfl⟩
    | some w =>
      rw [hv] at hname
      cases hname with
      | @some _ x hshow =>
        rw [read_eq_of_get? hv] at hhere
        obtain ⟨hconforms, htrimmed⟩ := trim_shown hle hs hhere hshow
        rw [read_eq_of_get? hfound]
        refine ⟨⟨hconforms, hconform⟩, ?_⟩
        rw [Option.map_some, Option.map_some, htrimmed]
end

end Graph
end FailureWire
