import FailureWire.Proofs.Graph.Same
import FailureWire.Proofs.Wire.Parsed

/-!
# Failures with nothing to leave out

Parsing leaves out what the format does not name. `g.Exact s v` says that a value is of the shape `s` and that there
is nothing of the kind in it, at any level. Then the document that a check returns renders the value: whatever shows
the document is deeply equal to the value (`renders_trim`).

So a wire failure that has nothing but what the format names, and whose causes have nothing else either, is parsed
as a deep copy of itself (`exists_parsed_of_isExactFailure`).
-/

namespace FailureWire

theorem Fields.get?_map_values {α β : Type} (f : α → β) (fields : Fields α) (name : String) :
    Fields.get? (fields.map fun a => (a.1, f a.2)) name = (fields.get? name).map f := by
  induction fields with
  | nil => rfl
  | cons a rest ih =>
    obtain ⟨n, a⟩ := a
    rw [List.map_cons, get?_cons, get?_cons, ih]
    split <;> rfl

namespace Graph

variable {g g' : Graph} {first : ObjectId} {v : Value}

/-! ## Documents that render values -/

/-- Whatever shows a document is deeply equal to a value. -/
def Renders (g : Graph) (first : ObjectId) (v : Value) (d : Document) : Prop := ∀ w, g.Shows first d w → g.Alike v w

theorem renders_existing (v : Value) : g.Renders first v (.existing v) := by
  rintro w rfl
  rfl

theorem renders_undefined : g.Renders first .undefined .undefined := by
  rintro w rfl
  rfl

theorem renders_record {values : Fields Value} {fields : Fields Document} (hv : g.IsRecord v values)
    (h : values.Match (g.Renders first) fields) : g.Renders first v (.record fields) := by
  intro w hw
  obtain ⟨others, hothers, hshown⟩ := (g.reading_shows first).record hw
  exact alike_of_isRecord hv hothers (h.trans (fun _ _ x hr hs => hr x hs) hshown)

theorem renders_list {items : List Value} {ds : List Document} (hv : g.objectOf? v = some (.list items))
    (h : List.Forall₂ (g.Renders first) items ds) : g.Renders first v (.list ds) := by
  rintro w ⟨values, hvalues, hshown⟩
  exact alike_of_list hv hvalues (forall₂_comp (fun _ _ x hr hs => hr x hs) h hshown.forall₂)

/-! ## Values with nothing else in them -/

/-- A value is a record without properties of other names than these. -/
def HasOnly (g : Graph) (names : List String) (v : Value) : Prop :=
  ∃ own, g.objectOf? v = some (.record own) ∧ ∀ name, name ∉ names → own.get? name = none

mutual
/-- A value is of a shape to the letter, and has nothing that the shape does not name. -/
def Exact (g : Graph) : Schema → Value → Prop
  | .text, v => v.IsText
  | .bool, v => ∃ b, v = .bool b
  | .number, v => ∃ n, v = .number n ∧ n.isFinite = true
  | .integer, v => ∃ n i, v = .number n ∧ n.toSafeInt? = some i
  | .bytes, v => (g.bytesOf? v).isSome = true
  | .table values, v =>
    ∃ fields, g.objectOf? v = some (.record fields) ∧ ∀ f ∈ fields, f.1 ≠ "__proto__" ∧ Exact g values f.2
  | .list items, v => ∃ vs, g.objectOf? v = some (.list vs) ∧ ∀ x ∈ vs, Exact g items x
  | .record fields, v => g.HasOnly (fields.map (·.1)) v ∧ FieldsExact g fields v
  | .optional s, v => v = .undefined ∨ Exact g s v
termination_by structural s => s

/-- The properties of a value are of their shapes to the letter, and have nothing that these do not name. -/
def FieldsExact (g : Graph) : List (String × Schema) → Value → Prop
  | [], _ => True
  | (name, s) :: rest, v => Exact g s (g.read v name) ∧ FieldsExact g rest v
termination_by structural fs => fs
end

theorem HasOnly.isKeyed {names : List String} (h : g.HasOnly names v) : g.isKeyed v = true := by
  obtain ⟨own, hv, -⟩ := h
  rw [Graph.isKeyed, hv]

/-- A record with fields of some names has no others. -/
theorem IsRecord.hasOnly {fields : Fields Value} {names : List String} (h : g.IsRecord v fields)
    (hnames : ∀ name, name ∉ names → fields.get? name = none) : g.HasOnly names v := by
  obtain ⟨own, hv, hown⟩ := h
  exact ⟨own, hv, fun name hname => (hown name).trans (hnames name hname)⟩

mutual
/-- What has nothing else in it is of its shape. -/
theorem conforms_of_exact : ∀ {s : Schema} {v : Value}, g.Exact s v → g.Conforms s v
  | .text, _, h | .bool, _, h | .number, _, h | .integer, _, h | .bytes, _, h => h
  | .table _, _, ⟨fields, hv, hall⟩ =>
    ⟨fields, recordOf?_eq_some.2 hv, fun f hf _ => conforms_of_exact (hall f hf).2⟩
  | .list _, _, ⟨vs, hv, hall⟩ =>
    ⟨vs, by rw [listOf?, hv]; rfl, fun x hx => conforms_of_exact (hall x hx)⟩
  | .record _, _, ⟨honly, hall⟩ => ⟨honly.isKeyed, fieldsConform_of_exact hall⟩
  | .optional _, _, h => h.imp_right conforms_of_exact

theorem fieldsConform_of_exact : ∀ {fields : List (String × Schema)} {v : Value},
    g.FieldsExact fields v → g.FieldsConform fields v
  | [], _, _ => trivial
  | (_, _) :: _, _, ⟨hhere, hrest⟩ => ⟨conforms_of_exact hhere, fieldsConform_of_exact hrest⟩
end

mutual
/-- A value has nothing else in it in every larger graph. -/
theorem Exact.mono (hle : g ≤ g') : ∀ {s : Schema} {v : Value}, g.Exact s v → g'.Exact s v
  | .text, _, h | .bool, _, h | .number, _, h | .integer, _, h => h
  | .bytes, _, h => by
    obtain ⟨data, hdata⟩ := Option.isSome_iff_exists.1 h
    exact Option.isSome_iff_exists.2 ⟨data, bytesOf?_eq_some.2 (objectOf?_of_le hle (bytesOf?_eq_some.1 hdata))⟩
  | .table _, _, ⟨fields, hv, hall⟩ =>
    ⟨fields, objectOf?_of_le hle hv, fun f hf => ⟨(hall f hf).1, Exact.mono hle (hall f hf).2⟩⟩
  | .list _, _, ⟨vs, hv, hall⟩ => ⟨vs, objectOf?_of_le hle hv, fun x hx => Exact.mono hle (hall x hx)⟩
  | .record _, _, ⟨⟨own, hv, honly⟩, hall⟩ =>
    ⟨⟨own, objectOf?_of_le hle hv, honly⟩, FieldsExact.mono hle (holds_of_objectOf? hv) hall⟩
  | .optional _, _, h => h.imp_right (Exact.mono hle)

theorem FieldsExact.mono (hle : g ≤ g') : ∀ {fields : List (String × Schema)} {v : Value}, g.Holds v →
    g.FieldsExact fields v → g'.FieldsExact fields v
  | [], _, _, _ => trivial
  | (name, _) :: _, _, hv, ⟨hhere, hrest⟩ =>
    ⟨by rw [read_eq_of_le hle hv name]; exact Exact.mono hle hhere, FieldsExact.mono hle hv hrest⟩
end

/-- The properties that are kept of a record with no others render those that it has, if each of them does. -/
theorem match_trimFields {fields : List (String × Schema)} {own : Fields Value}
    (hv : g.objectOf? v = some (.record own))
    (hnodup : (fields.map (·.1)).Nodup) (honly : ∀ name, name ∉ fields.map (·.1) → own.get? name = none)
    (h : ∀ name s x, (name, s) ∈ fields → g.get? v name = some x → g'.Renders first x (g.trim s x)) :
    own.Match (g'.Renders first) (g.trimFields fields v) := by
  intro name
  by_cases hname : name ∈ fields.map (·.1)
  · obtain ⟨⟨_, s⟩, hmem, rfl⟩ := List.mem_map.1 hname
    rw [get?_trimFields hnodup hmem, ← get?_of_record hv]
    cases hx : g.get? v _ with
    | none => exact .none
    | some x => exact .some (h _ s x hmem hx)
  · rw [get?_trimFields_of_not_mem hname, honly name hname]
    exact .none

mutual
/-- **Of a value with nothing else in it a check returns what renders the value.** -/
theorem renders_trim (hle : g ≤ g') : ∀ {s : Schema} {v : Value}, s.isDistinct = true → g.Exact s v →
    g'.Renders first v (g.trim s v)
  | .text, v, _, _ | .bool, v, _, _ | .number, v, _, _ | .integer, v, _, _ | .bytes, v, _, _ => renders_existing v
  | .table values, v, hs, ⟨fields, hv, hall⟩ => by
    have hkept : fields.filter (fun f => f.1 ≠ "__proto__") = fields :=
      List.filter_eq_self.2 fun f hf => decide_eq_true (hall f hf).1
    simp only [trim, recordOf?_eq_some.2 hv, Option.getD_some, hkept]
    refine renders_record ⟨fields, objectOf?_of_le hle hv, fun _ => rfl⟩ fun name => ?_
    rw [Fields.get?_map_values]
    cases hname : Fields.get? fields name with
    | none => exact .none
    | some x => exact .some (renders_trim hle hs (hall _ (Fields.mem_of_get? hname)).2)
  | .list items, v, hs, ⟨vs, hv, hall⟩ => by
    have hlist : g.listOf? v = some vs := by
      rw [listOf?, hv]
      rfl
    simp only [trim, hlist, Option.getD_some]
    refine renders_list (objectOf?_of_le hle hv) (List.forall₂_map_right_iff.2 (List.forall₂_same.2 fun x hx => ?_))
    exact renders_trim hle hs (hall x hx)
  | .record fields, v, hs, ⟨⟨own, hv, honly⟩, hall⟩ => by
    obtain ⟨hnodup, hs⟩ := Bool.and_eq_true_iff.1 hs
    rw [trim]
    refine renders_record ⟨own, objectOf?_of_le hle hv, fun _ => rfl⟩ ?_
    exact match_trimFields hv (of_decide_eq_true hnodup) honly fun name s x hmem hx =>
      renders_trimFields hle hs hall hmem hx
  | .optional s, v, hs, h => by
    rw [trim]
    split
    next hundefined =>
      subst hundefined
      exact renders_undefined
    next hdefined => exact renders_trim hle hs (h.resolve_left hdefined)

/-- Each property that is kept renders the one that there was. -/
theorem renders_trimFields (hle : g ≤ g') : ∀ {fields : List (String × Schema)} {v : Value},
    Schema.areDistinct fields = true → g.FieldsExact fields v → ∀ {name : String} {s : Schema} {x : Value},
      (name, s) ∈ fields → g.get? v name = some x → g'.Renders first x (g.trim s x)
  | (n, s') :: rest, v, hs, ⟨hhere, hall⟩, name, s, x, hmem, hx => by
    obtain ⟨hs, hrest⟩ := Bool.and_eq_true_iff.1 hs
    rcases List.mem_cons.1 hmem with heq | hmem
    · cases heq
      rw [read_eq_of_get? hx] at hhere
      exact renders_trim hle hs hhere
    · exact renders_trimFields hle hrest hall hmem hx
end

/-! ## Failures with nothing else in them -/

/-- Failure information with nothing else in it: it is not set, or it is that of a known case. -/
inductive IsExactInfo (g : Graph) (v : Value) : Prop
  | unset : g.IsRecord v [("case", .undefined)] → IsExactInfo g v
  | known (name : String) (s : Schema) (value : Value) : Fields.get? Schema.infoCases name = some s →
    g.IsRecord v [("case", .text name), ("value", value)] → g.Exact s value → IsExactInfo g v

/-- A wire failure with nothing else in it, and so is its cause, if it has one. -/
inductive IsExactFailure (g : Graph) : Value → Prop
  | intro {v : Value} (only : g.HasOnly (WireFormat.leading.map (·.1) ++ ["cause", "failureInfo"]) v)
    (leading : g.FieldsExact WireFormat.leading v)
    (cause : g.read v "cause" ≠ .undefined → IsExactFailure g (g.read v "cause"))
    (failureInfo : (g.read v "failureInfo").Optionally g.IsExactInfo) : IsExactFailure g v

theorem IsExactInfo.isInfo (h : g.IsExactInfo v) : g.IsInfo v := by
  cases h with
  | unset hv =>
    have hcase : g.read v "case" = .undefined := hv.read "case"
    refine .unknown ?_ (by rw [hcase]; exact fun _ _ => nofun)
    obtain ⟨own, hown, -⟩ := hv
    rw [hown]
    rfl
  | known name s value hs hv hexact =>
    have hvalue : g.read v "value" = value := hv.read "value"
    obtain ⟨hkeyed, hinfo⟩ := isInfoValue_iff.2 ⟨s, hs, conforms_of_exact hexact⟩
    refine .known name ?_ (hv.read "case") (by rwa [hvalue]) (by rwa [hvalue])
    obtain ⟨own, hown, -⟩ := hv
    rw [Graph.isKeyed, hown]

theorem IsExactInfo.renders (hle : g ≤ g') (h : g.IsExactInfo v) : g'.Renders first v (g.trimInfo v) := by
  unfold trimInfo
  cases h with
  | unset hv =>
    have hcase : g.read v "case" = .undefined := hv.read "case"
    rw [hcase]
    exact renders_record (hv.mono hle) (.cons renders_undefined .nil)
  | known name s value hs hv hexact =>
    have hcase : g.read v "case" = .text name := hv.read "case"
    have hvalue : g.read v "value" = value := hv.read "value"
    have hofCase : Schema.ofCase? (.text name) = some s := hs
    have hdistinct : s.isDistinct = true :=
      (by decide : ∀ f ∈ Schema.infoCases, f.2.isDistinct = true) _ (Fields.mem_of_get? hs)
    rw [hcase, hofCase, hvalue]
    exact renders_record (hv.mono hle) (.cons (renders_existing _) (.cons (renders_trim hle hdistinct hexact) .nil))

theorem IsExactFailure.isWireFailure (h : g.IsExactFailure v) : g.IsWireFailure v := by
  induction h with
  | intro honly hleading _ hinfo ih =>
    obtain ⟨hmessage, hsource, hstack, hattributes⟩ := fieldsConform_leading.1 (fieldsConform_of_exact hleading)
    exact .intro honly.isKeyed hmessage hsource hstack hattributes ih
      (hinfo.imp_right fun h => h.isInfo)

theorem rel_trimOptional {name : String} {copy : Value → Document}
    (h : g.read v name ≠ .undefined → g'.Renders first (g.read v name) (copy (g.read v name))) :
    Option.Rel (g'.Renders first) (g.get? v name) (Fields.get? (g.trimOptional v name copy) name) := by
  rw [get?_trimOptional, if_pos rfl]
  cases hv : g.get? v name with
  | none => exact .none
  | some w =>
    rw [read_eq_of_get? hv] at h
    refine .some ?_
    dsimp only
    split
    next hundefined =>
      subst hundefined
      exact renders_undefined
    next hdefined => exact h hdefined

/-- **What is kept of a failure with nothing else in it renders the failure.** -/
theorem Trimmed.renders (hle : g ≤ g') {d : Document} (h : g.Trimmed v d) (hv : g.IsExactFailure v) :
    g'.Renders first v d := by
  induction h with
  | @intro v d _ ih =>
    obtain ⟨⟨own, hown, honly⟩, hleading, hcause, hinfo⟩ := hv
    refine renders_record ⟨own, objectOf?_of_le hle hown, fun _ => rfl⟩ fun name => ?_
    rw [Fields.get?_append, Fields.get?_append, ← get?_of_record hown]
    by_cases hname : name ∈ WireFormat.leading.map (·.1)
    · have hne : "cause" ≠ name ∧ "failureInfo" ≠ name := by
        constructor <;> rintro rfl <;> exact absurd hname (by decide)
      obtain ⟨⟨_, s⟩, hmem, rfl⟩ := List.mem_map.1 hname
      rw [get?_trimFields (by decide) hmem, get?_trimOptional, get?_trimOptional, if_neg hne.1, if_neg hne.2,
        Option.or_none, Option.or_none]
      cases hx : g.get? v _ with
      | none => exact .none
      | some x => exact .some (renders_trimFields hle (by decide) hleading hmem hx)
    · rw [get?_trimFields_of_not_mem hname, Option.none_or]
      by_cases hiscause : name = "cause"
      · subst hiscause
        rw [get?_trimOptional v "failureInfo", if_neg (by decide), Option.or_none]
        exact rel_trimOptional fun hdefined => ih hdefined (hcause hdefined)
      · rw [get?_trimOptional v "cause", if_neg (Ne.symm hiscause), Option.none_or]
        by_cases hisinfo : name = "failureInfo"
        · subst hisinfo
          exact rel_trimOptional fun hdefined => (hinfo.resolve_left hdefined).renders hle
        · have hother : name ∉ WireFormat.leading.map (·.1) ++ ["cause", "failureInfo"] := by
            simp [hname, hiscause, hisinfo]
          rw [get?_trimOptional, if_neg (Ne.symm hisinfo), get?_of_record hown, honly name hother]
          exact .none

/-- **A failure with nothing else in it is parsed as a deep copy of itself.** -/
theorem exists_parsed_of_isExactFailure (h : g.IsExactFailure v) :
    ∃ d, WireFormat.parseFailure g v = .ok d ∧ (g.add d).1.Alike v (g.add d).2 := by
  obtain ⟨d, hd, htrimmed⟩ := parseFailure_of_isWireFailure h.isWireFailure
  exact ⟨d, hd, htrimmed.renders (g.le_add d) h _ (g.shows_add d)⟩

end Graph
end FailureWire
