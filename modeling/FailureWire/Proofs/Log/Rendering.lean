import FailureWire.Log.Render
import FailureWire.Proofs.Graph.Extension
import FailureWire.Proofs.Text.Json
import FailureWire.Proofs.Value.Order
import Mathlib.Data.List.Perm.Subperm

/-!
# JSON values in log lines

`g.Means v j` says that a value of a graph is a JSON value: a primitive, a list of JSON values, or a record of such
values. What it is logged as is this JSON value (`render_of_means`), however deep it is and however often parts of it
are shared.

Rendering counts the objects that it is inside of, and refuses an object inside itself. Neither can go wrong: a value is
one JSON value only (`Means.unique`), and a part is smaller than the whole, so that the objects around a part are
different from it and from each other (`Inside`).
-/

namespace FailureWire

namespace Graph

mutual
/-- A value is a JSON value. Zero has no sign there, and a record has one field of each name, in their order. -/
inductive Means (g : Graph) : Value → Json → Prop
  | null : Means g .null .null
  | bool (b : Bool) : Means g (.bool b) (.bool b)
  | number {n : Number} : n.isFinite = true → Means g (.number n) (.number (if n.isZero then 0 else n))
  | text (s : String) : Means g (.text s) (.text s)
  | list {v : Value} {vs : List Value} {items : List Json} :
    g.objectOf? v = some (.list vs) → MeansItems g vs items → Means g v (.list items)
  | record {v : Value} {vs : Fields Value} {fields : List (String × Json)} :
    g.objectOf? v = some (.record vs) → Fields.ofList fields = fields → MeansFields g vs fields →
      Means g v (.record fields)

/-- Values are JSON values, one by one. -/
inductive MeansItems (g : Graph) : List Value → List Json → Prop
  | nil : MeansItems g [] []
  | cons {v : Value} {vs : List Value} {j : Json} {items : List Json} :
    Means g v j → MeansItems g vs items → MeansItems g (v :: vs) (j :: items)

/-- The values of fields are JSON values, one by one. -/
inductive MeansFields (g : Graph) : Fields Value → List (String × Json) → Prop
  | nil : MeansFields g [] []
  | cons {name : String} {v : Value} {vs : Fields Value} {j : Json} {fields : List (String × Json)} :
    Means g v j → MeansFields g vs fields → MeansFields g ((name, v) :: vs) ((name, j) :: fields)
end

variable {g : Graph} {v : Value} {j j' : Json}

/-! ## One JSON value each -/

mutual
/-- **A value is one JSON value at most.** -/
theorem Means.unique : ∀ {v : Value} {j j' : Json}, g.Means v j → g.Means v j' → j = j'
  | _, _, _, .null, h => by
    cases h with
    | null => rfl
    | list hv | record hv => cases hv
  | _, _, _, .bool _, h => by
    cases h with
    | bool => rfl
    | list hv | record hv => cases hv
  | _, _, _, .number _, h => by
    cases h with
    | number => rfl
    | list hv | record hv => cases hv
  | _, _, _, .text _, h => by
    cases h with
    | text => rfl
    | list hv | record hv => cases hv
  | _, _, _, .list hv hitems, h => by
    cases h with
    | list hv' hitems' =>
      cases hv.symm.trans hv'
      rw [hitems.unique hitems']
    | record hv' => cases hv.symm.trans hv'
    | _ => cases hv
  | _, _, _, .record hv _ hfields, h => by
    cases h with
    | record hv' _ hfields' =>
      cases hv.symm.trans hv'
      rw [hfields.unique hfields']
    | list hv' => cases hv.symm.trans hv'
    | _ => cases hv

theorem MeansItems.unique : ∀ {vs : List Value} {js js' : List Json}, g.MeansItems vs js → g.MeansItems vs js' →
    js = js'
  | _, _, _, .nil, h => by
    cases h
    rfl
  | _, _, _, .cons hv hvs, h => by
    cases h with
    | cons hv' hvs' => rw [hv.unique hv', hvs.unique hvs']

theorem MeansFields.unique : ∀ {vs : Fields Value} {fs fs' : List (String × Json)}, g.MeansFields vs fs →
    g.MeansFields vs fs' → fs = fs'
  | _, _, _, .nil, h => by
    cases h
    rfl
  | _, _, _, .cons hv hvs, h => by
    cases h with
    | cons hv' hvs' => rw [hv.unique hv', hvs.unique hvs']
end

theorem not_means_undefined : ¬ g.Means .undefined j := by
  intro h
  cases h with
  | list hv | record hv => cases hv

theorem Means.lt_size {id : ObjectId} (h : g.Means (.object id) j) : id < g.size := by
  cases h with
  | list hv | record hv => exact holds_of_objectOf? hv id rfl

mutual
/-- **The text of a JSON value spells it.** -/
theorem Means.readable : ∀ {v : Value} {j : Json}, g.Means v j → j.Readable
  | _, _, .null => trivial
  | _, _, .bool _ => trivial
  | _, _, .text _ => trivial
  | _, _, .number (n := n) hfinite => by
    rw [Json.Readable]
    split
    · decide
    next hzero =>
      refine ⟨hfinite, ?_⟩
      rintro rfl
      exact hzero rfl
  | _, _, .list _ hitems => hitems.readable
  | _, _, .record _ horder hfields => ⟨horder, hfields.readable⟩

theorem MeansItems.readable : ∀ {vs : List Value} {js : List Json}, g.MeansItems vs js → Json.ReadableItems js
  | _, _, .nil => trivial
  | _, _, .cons hv hvs => ⟨hv.readable, hvs.readable⟩

theorem MeansFields.readable : ∀ {vs : Fields Value} {fs : List (String × Json)}, g.MeansFields vs fs →
    Json.ReadableFields fs
  | _, _, .nil => trivial
  | _, _, .cons hv hvs => ⟨hv.readable, hvs.readable⟩
end

/-! ## The objects around a part -/

/-- A part stands inside some objects: they are different, and larger than the part. -/
structure Inside (g : Graph) (outer : List ObjectId) (j : Json) : Prop where
  nodup : outer.Nodup
  larger : ∀ id ∈ outer, ∃ whole, g.Means (.object id) whole ∧ sizeOf j < sizeOf whole

variable {outer : List ObjectId} {id : ObjectId}

theorem inside_nil (g : Graph) (j : Json) : g.Inside [] j := ⟨List.nodup_nil, by simp⟩

/-- No part is one of the objects around it. -/
theorem Inside.notMem (h : g.Inside outer j) (hid : g.Means (.object id) j) : id ∉ outer := by
  intro hmem
  obtain ⟨whole, hwhole, hlt⟩ := h.larger id hmem
  exact Nat.lt_irrefl _ (hwhole.unique hid ▸ hlt)

theorem Inside.cons {part : Json} (h : g.Inside outer j) (hid : g.Means (.object id) j) (hlt : sizeOf part < sizeOf j) :
    g.Inside (id :: outer) part where
  nodup := List.nodup_cons.2 ⟨h.notMem hid, h.nodup⟩
  larger := by
    rw [List.forall_mem_cons]
    refine ⟨⟨j, hid, hlt⟩, fun other hmem => ?_⟩
    obtain ⟨whole, hwhole, hlarger⟩ := h.larger other hmem
    exact ⟨whole, hwhole, Nat.lt_trans hlt hlarger⟩

theorem Inside.length_le (h : g.Inside outer j) : outer.length ≤ g.size := by
  have hsub : outer ⊆ List.range g.size := by
    intro id hid
    obtain ⟨whole, hwhole, -⟩ := h.larger id hid
    exact List.mem_range.2 hwhole.lt_size
  simpa using (List.subperm_of_subset h.nodup hsub).length_le

theorem sizeOf_lt_of_mem_items {items : List Json} (h : j ∈ items) : sizeOf j < sizeOf (Json.list items) := by
  have := List.sizeOf_lt_of_mem h
  simp only [Json.list.sizeOf_spec]
  omega

theorem sizeOf_lt_of_mem_fields {fields : List (String × Json)} {f : String × Json} (h : f ∈ fields) :
    sizeOf f.2 < sizeOf (Json.record fields) := by
  obtain ⟨name, j⟩ := f
  have := List.sizeOf_lt_of_mem h
  simp only [Prod.mk.sizeOf_spec, Json.record.sizeOf_spec] at this ⊢
  omega

/-! ## Rendering -/

theorem LogStyle.boundRecord_exact (fields : List (String × Json)) :
    LogStyle.boundRecord .exact (fields.map fun f => (f.1, some f.2)) = fields := by
  simp [LogStyle.boundRecord, List.filterMap_map]

mutual
/-- **A JSON value is logged as itself**, inside whatever it is. -/
theorem renderIn_of_means (depth : Nat) : ∀ {v : Value} {j : Json} {fuel : Nat} {outer : List ObjectId}, g.Means v j →
    g.Inside outer j → fuel + outer.length = g.size + 2 → g.renderIn .exact fuel outer depth v = some (some j)
  | _, _, 0, _, _, hinside, hfuel => by
    have := hinside.length_le
    omega
  | _, _, fuel + 1, _, .null, _, _ => rfl
  | _, _, fuel + 1, _, .bool _, _, _ => rfl
  | _, _, fuel + 1, _, .text _, _, _ => rfl
  | _, _, fuel + 1, _, .number hfinite, _, _ => by
    rw [renderIn, Document.numberJson, if_pos hfinite]
  | _, _, fuel + 1, outer, @Means.list _ _ vs items hv hitems, hinside, hfuel => by
    obtain ⟨id, rfl, hnode⟩ := objectOf?_eq_some.1 hv
    have hwhole : g.Means (.object id) (.list items) := .list hv hitems
    have hlogged : g.logged id = .list (vs.map .existing) := by rw [logged, hnode]
    have hroom : fuel + (id :: outer).length = g.size + 2 := by
      rw [List.length_cons]
      omega
    have hrendered := itemsToJson_of_means (depth + 1) hitems
      (fun j hj => hinside.cons hwhole (sizeOf_lt_of_mem_items hj)) hroom
    rw [renderIn, if_neg (by simpa using hinside.notMem hwhole), hlogged, Document.toJson, hrendered]
    simp [LogStyle.nested, LogStyle.boundList]
  | _, _, fuel + 1, outer, @Means.record _ _ vs fields hv horder hfields, hinside, hfuel => by
    obtain ⟨id, rfl, hnode⟩ := objectOf?_eq_some.1 hv
    have hwhole : g.Means (.object id) (.record fields) := .record hv horder hfields
    have hlogged : g.logged id = .record (vs.mapValues .existing) := by simp only [logged, hnode, listing, hv]
    have hroom : fuel + (id :: outer).length = g.size + 2 := by
      rw [List.length_cons]
      omega
    have hrendered := fieldsToJson_of_means (depth + 1) hfields
      (fun f hf => hinside.cons hwhole (sizeOf_lt_of_mem_fields hf)) hroom
    rw [renderIn, if_neg (by simpa using hinside.notMem hwhole), hlogged, Document.toJson, hrendered]
    simp [LogStyle.nested, LogStyle.boundRecord_exact]

theorem itemsToJson_of_means (depth : Nat) : ∀ {vs : List Value} {js : List Json} {fuel : Nat} {outer : List ObjectId},
    g.MeansItems vs js → (∀ j ∈ js, g.Inside outer j) → fuel + outer.length = g.size + 2 →
      Document.itemsToJson .exact (g.renderIn .exact fuel outer) depth (vs.map .existing) = some js
  | _, _, _, _, .nil, _, _ => rfl
  | _, _, _, _, .cons hv hvs, hinside, hfuel => by
    rw [List.forall_mem_cons] at hinside
    rw [List.map_cons, Document.itemsToJson, Document.toJson, renderIn_of_means depth hv hinside.1 hfuel,
      itemsToJson_of_means depth hvs hinside.2 hfuel]
    rfl

theorem fieldsToJson_of_means (depth : Nat) : ∀ {vs : Fields Value} {fs : List (String × Json)} {fuel : Nat}
    {outer : List ObjectId}, g.MeansFields vs fs → (∀ f ∈ fs, g.Inside outer f.2) →
      fuel + outer.length = g.size + 2 →
        Document.fieldsToJson .exact (g.renderIn .exact fuel outer) depth (vs.mapValues .existing) =
          some (fs.map fun f => (f.1, some f.2))
  | _, _, _, _, .nil, _, _ => rfl
  | _, _, _, _, .cons hv hvs, hinside, hfuel => by
    rw [List.forall_mem_cons] at hinside
    rw [Fields.mapValues_cons, Document.fieldsToJson, Document.toJson, renderIn_of_means depth hv hinside.1 hfuel,
      fieldsToJson_of_means depth hvs hinside.2 hfuel]
    rfl
end

/-- **A JSON value is logged as itself.** -/
theorem render_of_means (h : g.Means v j) : g.render (.existing v) = some j := by
  have hexact : g.renderIn .exact (g.size + 2) [] 0 v = some (some j) := renderIn_of_means 0 h (inside_nil g j) rfl
  show (g.renderIn .exact (g.size + 2) [] 0 v <|> g.renderIn .bounded (g.size + 2) [] 0 v).join = some j
  rw [hexact]
  rfl

end Graph
end FailureWire
