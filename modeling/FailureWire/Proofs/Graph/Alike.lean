import FailureWire.Proofs.Graph.Layout
import FailureWire.Proofs.Related

/-!
# Deep equality

Two values of a graph are alike if they are the same value, or objects of one sort whose parts are alike:
records with the same keys in whatever order, lists and maps item by item, errors of one class with the
same properties. Since objects may be parts of themselves, this is the largest relation that passes one
comparison of parts: `g.Alike v w` asks for some relation that does.

A record is also described by the fields that it has, `g.IsRecord v fields`, where the order of the fields
does not count. Records with alike fields are alike (`alike_of_isRecord`).
-/

namespace FailureWire

@[simp] theorem Fields.get?_nil {α : Type} (name : String) : Fields.get? ([] : Fields α) name = none := rfl

@[simp] theorem Fields.get?_append {α : Type} (fields others : Fields α) (name : String) :
    Fields.get? (fields ++ others) name = (fields.get? name).or (others.get? name) := by
  induction fields with
  | nil => rfl
  | cons f rest ih =>
    obtain ⟨n, a⟩ := f
    rw [List.cons_append, Fields.get?_cons, Fields.get?_cons, ih]
    split <;> rfl

/-- Fields with the same names and related values, in whatever order. -/
def Fields.Match {α β : Type} (R : α → β → Prop) (fields : Fields α) (others : Fields β) : Prop :=
  ∀ name, Option.Rel R (fields.get? name) (others.get? name)

theorem Fields.Match.imp {α β : Type} {R S : α → β → Prop} {fields : Fields α} {others : Fields β}
    (h : ∀ a b, R a b → S a b) (hm : fields.Match R others) : fields.Match S others := by
  intro name
  have hname := hm name
  cases hf : fields.get? name <;> cases ho : others.get? name <;> rw [hf, ho] at hname
  · exact .none
  · nomatch hname
  · nomatch hname
  · cases hname with
    | some hr => exact .some (h _ _ hr)

theorem Fields.Match.nil {α β : Type} {R : α → β → Prop} : Fields.Match R [] [] := fun _ => .none

theorem Fields.Match.cons {α β : Type} {R : α → β → Prop} {name : String} {a : α} {b : β}
    {fields : Fields α} {others : Fields β} (h : R a b) (hrest : fields.Match R others) :
    Fields.Match R ((name, a) :: fields) ((name, b) :: others) := by
  intro other
  rw [Fields.get?_cons, Fields.get?_cons]
  split
  · exact .some h
  · exact hrest other

theorem Fields.Match.append {α β : Type} {R : α → β → Prop} {fields more : Fields α}
    {others rest : Fields β} (h : fields.Match R others) (hmore : more.Match R rest) :
    Fields.Match R (fields ++ more) (others ++ rest) := by
  intro name
  rw [Fields.get?_append, Fields.get?_append]
  have hname := h name
  generalize fields.get? name = a at hname ⊢
  generalize others.get? name = b at hname ⊢
  cases hname with
  | some hr => exact .some hr
  | none => exact hmore name

theorem Fields.Match.square {α β γ δ : Type} {R : α → β → Prop} {M : α → γ → Prop} {S : γ → δ → Prop}
    {T : β → δ → Prop} (h : ∀ a b c d, R a b → M a c → S c d → T b d) {fields : Fields α}
    {left : Fields β} {others : Fields γ} {right : Fields δ} (hl : fields.Match R left)
    (hm : fields.Match M others) (hr : others.Match S right) : left.Match T right := by
  intro name
  have hleft := hl name
  have hmiddle := hm name
  have hright := hr name
  generalize fields.get? name = a at hleft hmiddle
  generalize left.get? name = b at hleft ⊢
  generalize others.get? name = c at hmiddle hright
  generalize right.get? name = d at hright ⊢
  cases hleft with
  | some hab =>
    cases hmiddle with
    | some hac =>
      cases hright with
      | some hcd => exact .some (h _ _ _ _ hab hac hcd)
  | none =>
    cases hmiddle
    cases hright
    exact .none

/-- One comparison of two objects, by a relation that compares their parts. -/
inductive Node.Match (R : Value → Value → Prop) : Node → Node → Prop
  | record {fields others : Fields Value} : fields.Match R others → Match R (.record fields) (.record others)
  | list {items others : List Value} : List.Forall₂ R items others → Match R (.list items) (.list others)
  | sparse {fields others : Fields Value} : fields.Match R others → Match R (.sparse fields) (.sparse others)
  | set {members others : List Value} : List.Forall₂ R members others → Match R (.set members) (.set others)
  | map {entries others : List (Value × Value)} :
    List.Forall₂ (fun e o => R e.1 o.1 ∧ R e.2 o.2) entries others → Match R (.map entries) (.map others)
  | date (time : Number) : Match R (.date time) (.date time)
  | pattern (source flags : String) : Match R (.pattern source flags) (.pattern source flags)
  | bytes (data : Bytes) : Match R (.bytes data) (.bytes data)
  | numbers (element : ElementType) (items : List Number) :
    Match R (.numbers element items) (.numbers element items)
  | boxed (content : Boxed) : Match R (.boxed content) (.boxed content)
  | error {e o : ThrownError Value} : e.errorClass = o.errorClass → e.body.context? = o.body.context? →
    e.properties.Match R o.properties → Match R (.error e) (.error o)

theorem Fields.Match.trans {α β γ : Type} {R : α → β → Prop} {S : β → γ → Prop} {T : α → γ → Prop}
    (h : ∀ a b c, R a b → S b c → T a c) {fields : Fields α} {others : Fields β} {more : Fields γ}
    (hl : fields.Match R others) (hr : others.Match S more) : fields.Match T more := by
  intro name
  have hleft := hl name
  have hright := hr name
  generalize fields.get? name = a at hleft ⊢
  generalize others.get? name = b at hleft hright
  generalize more.get? name = c at hright ⊢
  cases hleft with
  | some hab =>
    cases hright with
    | some hbc => exact .some (h _ _ _ hab hbc)
  | none =>
    cases hright
    exact .none

/-- Comparisons of one object with another one and of that with a third one are a comparison of the first and
the third one. -/
theorem Node.Match.trans {R S T : Value → Value → Prop} (h : ∀ u v w, R u v → S v w → T u w) {n m k : Node}
    (hnm : n.Match R m) (hmk : m.Match S k) : n.Match T k := by
  cases hnm with
  | record hf =>
    cases hmk with
    | record ho => exact .record (hf.trans h ho)
  | list hi =>
    cases hmk with
    | list ho => exact .list (forall₂_comp h hi ho)
  | sparse hf =>
    cases hmk with
    | sparse ho => exact .sparse (hf.trans h ho)
  | set hi =>
    cases hmk with
    | set ho => exact .set (forall₂_comp h hi ho)
  | map he =>
    cases hmk with
    | map ho => exact .map (forall₂_comp (fun _ _ _ hl hr => ⟨h _ _ _ hl.1 hr.1, h _ _ _ hl.2 hr.2⟩) he ho)
  | error hc hx hp =>
    cases hmk with
    | error hc' hx' hp' => exact .error (hc.trans hc') (hx.trans hx') (hp.trans h hp')
  | date | pattern | bytes | numbers | boxed =>
    cases hmk
    constructor

theorem Node.Match.imp {R S : Value → Value → Prop} (h : ∀ v w, R v w → S v w) {n m : Node}
    (hm : n.Match R m) : n.Match S m := by
  cases hm with
  | record hf => exact .record (hf.imp h)
  | list hi => exact .list (hi.imp fun _ _ => h _ _)
  | sparse hf => exact .sparse (hf.imp h)
  | set hi => exact .set (hi.imp fun _ _ => h _ _)
  | map he => exact .map (he.imp fun _ _ hp => ⟨h _ _ hp.1, h _ _ hp.2⟩)
  | date time => exact .date time
  | pattern source flags => exact .pattern source flags
  | bytes data => exact .bytes data
  | numbers element items => exact .numbers element items
  | boxed content => exact .boxed content
  | error hc hx hp => exact .error hc hx (hp.imp h)

namespace Graph

/-- One comparison of two values of a graph. -/
def Compare (g : Graph) (R : Value → Value → Prop) (v w : Value) : Prop :=
  v = w ∨ ∃ n m, g.objectOf? v = some n ∧ g.objectOf? w = some m ∧ n.Match R m

/-- Two values of a graph are deeply equal. -/
def Alike (g : Graph) (v w : Value) : Prop :=
  ∃ R : Value → Value → Prop, (∀ a b, R a b → g.Compare R a b) ∧ R v w

section
variable {g : Graph} {v w : Value}

theorem Compare.imp {R S : Value → Value → Prop} (h : ∀ a b, R a b → S a b)
    (hc : g.Compare R v w) : g.Compare S v w := by
  rcases hc with rfl | ⟨n, m, hn, hm, hnm⟩
  · exact .inl rfl
  · exact .inr ⟨n, m, hn, hm, hnm.imp h⟩

@[refl] theorem Alike.refl (g : Graph) (v : Value) : g.Alike v v :=
  ⟨Eq, fun _ _ h => .inl h, rfl⟩

theorem Alike.compare (h : g.Alike v w) : g.Compare g.Alike v w := by
  obtain ⟨R, hR, hvw⟩ := h
  exact (hR v w hvw).imp fun a b hab => ⟨R, hR, hab⟩

theorem Alike.of_compare (h : g.Compare g.Alike v w) : g.Alike v w := by
  refine ⟨fun a b => g.Alike a b ∨ (a = v ∧ b = w), ?_, .inr ⟨rfl, rfl⟩⟩
  rintro a b (hab | ⟨rfl, rfl⟩)
  · exact hab.compare.imp fun _ _ => .inl
  · exact h.imp fun _ _ => .inl

theorem Alike.mono {g' : Graph} (h : g ≤ g') (hvw : g.Alike v w) : g'.Alike v w := by
  obtain ⟨R, hR, hvw⟩ := hvw
  refine ⟨R, fun a b hab => ?_, hvw⟩
  rcases hR a b hab with rfl | ⟨n, m, hn, hm, hnm⟩
  · exact .inl rfl
  · exact .inr ⟨n, m, objectOf?_of_le h hn, objectOf?_of_le h hm, hnm⟩

/-- **Deep equality is transitive.** -/
theorem Alike.trans {u : Value} (huv : g.Alike u v) (hvw : g.Alike v w) : g.Alike u w := by
  obtain ⟨R, hR, huv⟩ := huv
  obtain ⟨S, hS, hvw⟩ := hvw
  -- values are related if one of the relations or both, one after the other, relate them
  refine ⟨fun a c => R a c ∨ S a c ∨ ∃ b, R a b ∧ S b c, ?_, .inr (.inr ⟨v, huv, hvw⟩)⟩
  rintro a c (hac | hac | ⟨b, hab, hbc⟩)
  · exact (hR a c hac).imp fun _ _ => .inl
  · exact (hS a c hac).imp fun _ _ hs => .inr (.inl hs)
  · rcases hR a b hab with rfl | ⟨n, m, hn, hm, hnm⟩
    · exact (hS a c hbc).imp fun _ _ hs => .inr (.inl hs)
    · rcases hS b c hbc with rfl | ⟨m', k, hm', hk, hmk⟩
      · exact .inr ⟨n, m, hn, hm, hnm.imp fun _ _ => .inl⟩
      · cases hm.symm.trans hm'
        exact .inr ⟨n, k, hn, hk, hnm.trans (fun _ d _ hr hs => .inr (.inr ⟨d, hr, hs⟩)) hmk⟩

theorem Alike.items {items others : List Value} (h : g.Alike v w) (hv : g.objectOf? v = some (.list items))
    (hw : g.objectOf? w = some (.list others)) : List.Forall₂ g.Alike items others := by
  rcases h.compare with rfl | ⟨n, m, hn, hm, hnm⟩
  · cases hv.symm.trans hw
    exact List.forall₂_same.2 fun x _ => .refl g x
  · cases hv.symm.trans hn
    cases hw.symm.trans hm
    cases hnm with
    | list hitems => exact hitems

theorem Alike.fields {fields others : Fields Value} (h : g.Alike v w) (hv : g.objectOf? v = some (.record fields))
    (hw : g.objectOf? w = some (.record others)) : fields.Match g.Alike others := by
  rcases h.compare with rfl | ⟨n, m, hn, hm, hnm⟩
  · cases hv.symm.trans hw
    intro name
    cases fields.get? name with
    | none => exact .none
    | some x => exact .some (.refl g x)
  · cases hv.symm.trans hn
    cases hw.symm.trans hm
    cases hnm with
    | record hfields => exact hfields

theorem Alike.field {fields others : Fields Value} {x y : Value} (h : g.Alike v w)
    (hv : g.objectOf? v = some (.record fields)) (hw : g.objectOf? w = some (.record others)) (name : String)
    (hx : fields.get? name = some x) (hy : others.get? name = some y) : g.Alike x y := by
  have hname := h.fields hv hw name
  rw [hx, hy] at hname
  cases hname with
  | some hxy => exact hxy

theorem alike_of_list {items others : List Value} (hv : g.objectOf? v = some (.list items))
    (hw : g.objectOf? w = some (.list others)) (h : List.Forall₂ g.Alike items others) : g.Alike v w :=
  .of_compare (.inr ⟨_, _, hv, hw, .list h⟩)

theorem alike_of_bytes {data : Bytes} (hv : g.objectOf? v = some (.bytes data))
    (hw : g.objectOf? w = some (.bytes data)) : g.Alike v w :=
  .of_compare (.inr ⟨_, _, hv, hw, .bytes data⟩)

end

/-! ## Records -/

/-- A value is a record with these fields, in whatever order. -/
def IsRecord (g : Graph) (v : Value) (fields : Fields Value) : Prop :=
  ∃ own, g.objectOf? v = some (.record own) ∧ ∀ name, own.get? name = fields.get? name

section
variable {g g' : Graph} {v w : Value} {fields others : Fields Value}

theorem IsRecord.get? (h : g.IsRecord v fields) (name : String) : g.get? v name = fields.get? name := by
  obtain ⟨own, hv, hown⟩ := h
  rw [get?_of_record hv, hown]

theorem IsRecord.read (h : g.IsRecord v fields) (name : String) :
    g.read v name = .ofOption (fields.get? name) := by
  rw [Graph.read, h.get?]

theorem IsRecord.mono (hle : g ≤ g') (h : g.IsRecord v fields) : g'.IsRecord v fields := by
  obtain ⟨own, hv, hown⟩ := h
  exact ⟨own, objectOf?_of_le hle hv, hown⟩

theorem IsRecord.isObject (h : g.IsRecord v fields) : ∃ id, v = .object id := by
  obtain ⟨own, hv, -⟩ := h
  obtain ⟨id, rfl, -⟩ := objectOf?_eq_some.1 hv
  exact ⟨id, rfl⟩

/-- **Records with alike fields are alike.** -/
theorem alike_of_isRecord (hv : g.IsRecord v fields) (hw : g.IsRecord w others)
    (h : fields.Match g.Alike others) : g.Alike v w := by
  obtain ⟨own, hown, hfields⟩ := hv
  obtain ⟨own', hown', hothers⟩ := hw
  refine .of_compare (.inr ⟨_, _, hown, hown', .record fun name => ?_⟩)
  rw [hfields, hothers]
  exact h name

end

end Graph
end FailureWire
