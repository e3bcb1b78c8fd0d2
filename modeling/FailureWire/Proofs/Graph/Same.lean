import FailureWire.Proofs.Graph.Copy
import FailureWire.Proofs.Related

/-!
# Deep equality across graphs

Two values of two graphs are the same up to identities: `g.Same g' v w` asks for some relation that relates the
values, is the equality on values which are no objects, and relates objects only if they are of one sort, have
the same parts in the same order, and the parts are related again. As with `Alike`, this is the largest relation
that passes one comparison, so that cyclic values are compared, too.

Deeply equal values may still be told apart by what they share: a list that has one record twice is the same as
one that has two records which are the same. `g.Indistinct g' v w` asks for a relation which is one-to-one on
objects. Nothing that is computed from a value without looking at identities tells such values apart.
-/

namespace FailureWire

/-! ## Fields -/

theorem Fields.Zip.imp {α : Type} {R S : α → α → Prop} {fields others : Fields α} (h : ∀ a b, R a b → S a b)
    (hz : fields.Zip R others) : fields.Zip S others :=
  List.Forall₂.imp (fun _ _ hf => ⟨hf.1, h _ _ hf.2⟩) hz

theorem Fields.zip_cons {α : Type} {R : α → α → Prop} {a b : α} {fields others : Fields α} (name : String)
    (h : R a b) (hz : fields.Zip R others) : Fields.Zip R ((name, a) :: fields) ((name, b) :: others) :=
  .cons ⟨rfl, h⟩ hz

theorem Fields.Zip.append {α : Type} {R : α → α → Prop} {fields others more rest : Fields α}
    (h : fields.Zip R others) (hmore : more.Zip R rest) : Fields.Zip R (fields ++ more) (others ++ rest) :=
  List.rel_append h hmore

theorem Fields.Zip.get? {α : Type} {R : α → α → Prop} {fields others : Fields α} (h : fields.Zip R others)
    (name : String) : Option.Rel R (fields.get? name) (others.get? name) := by
  induction h with
  | nil => exact .none
  | @cons f o _ _ hf _ ih =>
    obtain ⟨n, a⟩ := f
    obtain ⟨n', b⟩ := o
    obtain ⟨rfl, hr⟩ := hf
    rw [Fields.get?_cons, Fields.get?_cons]
    split
    · exact .some hr
    · exact ih

/-- A field that is there on both sides or on neither. -/
theorem Fields.zip_optional {α : Type} {R : α → α → Prop} {a b : Option α} (name : String)
    (h : Option.Rel R a b) :
    Fields.Zip R (a.map fun a => (name, a)).toList (b.map fun b => (name, b)).toList := by
  cases h with
  | none => exact .nil
  | some hr => exact .cons ⟨rfl, hr⟩ .nil

theorem Option.Rel.imp {α β : Type} {R S : α → β → Prop} {a : Option α} {b : Option β}
    (h : ∀ x y, R x y → S x y) (hr : Option.Rel R a b) : Option.Rel S a b := by
  cases hr with
  | none => exact .none
  | some hxy => exact .some (h _ _ hxy)

/-! ## Objects that resemble each other -/

/-- Kinds of one class with related fields. -/
structure FailureKind.Resembles (R : Value → Value → Prop) (k k' : FailureKind Value) : Prop where
  errorClass : k.errorClass = k'.errorClass
  properties : k.properties.Zip R k'.properties

/-- Documents that are related values, or one document that speaks of no value of a graph. -/
inductive Document.Resembles (R : Value → Value → Prop) : Document → Document → Prop
  | existing {v w : Value} : R v w → Resembles R (.existing v) (.existing w)
  | within {d : Document} {n : Nat} : d.Within n → Resembles R d d

/-- What errors of one class carry, with related values. -/
inductive ErrorBody.Resembles (R : Value → Value → Prop) : ErrorBody Value → ErrorBody Value → Prop
  | host (named : Bool) : Resembles R (.host named) (.host named)
  | library (sort : LibraryError) {code code' : Value} {context context' : Document} :
    R code code' → context.Resembles R context' →
      Resembles R (.library sort code context) (.library sort code' context')
  | failure {code code' display display' stored stored' stackTrace stackTrace' : Value}
    {context context' : Document} {kind kind' : FailureKind Value} :
    R code code' → context.Resembles R context' → R display display' → R stored stored' →
      R stackTrace stackTrace' → kind.Resembles R kind' →
        Resembles R (.failure code context ⟨display, stored, stackTrace, kind⟩)
          (.failure code' context' ⟨display', stored', stackTrace', kind'⟩)

/-- Errors of one class with related values. -/
structure ThrownError.Resembles (R : Value → Value → Prop) (e e' : ThrownError Value) : Prop where
  subclasses : e.subclasses = e'.subclasses
  name : R e.name e'.name
  message : R e.message e'.message
  stack : Option.Rel R e.stack e'.stack
  frames : e.frames = e'.frames
  cause : Option.Rel R e.cause e'.cause
  listsCause : e.listsCause = e'.listsCause
  body : e.body.Resembles R e'.body
  extra : e.extra.Zip R e'.extra

/-- Objects of one sort with related values. -/
inductive Node.Resembles (R : Value → Value → Prop) : Node → Node → Prop
  | moved {n m : Node} : n.Moved R m → Resembles R n m
  | error {e e' : ThrownError Value} : e.Resembles R e' → Resembles R (.error e) (.error e')

section
variable {R S : Value → Value → Prop} (h : ∀ v w, R v w → S v w)
include h

theorem FailureKind.Resembles.imp {k k' : FailureKind Value} (hk : k.Resembles R k') : k.Resembles S k' :=
  ⟨hk.errorClass, hk.properties.imp h⟩

theorem Document.Resembles.imp {d d' : Document} (hd : d.Resembles R d') : d.Resembles S d' := by
  cases hd with
  | existing hr => exact .existing (h _ _ hr)
  | within hd => exact .within hd

theorem ErrorBody.Resembles.imp {b b' : ErrorBody Value} (hb : b.Resembles R b') : b.Resembles S b' := by
  cases hb with
  | host named => exact .host named
  | library sort hcode hcontext => exact .library sort (h _ _ hcode) (hcontext.imp h)
  | failure hcode hcontext hdisplay hstored htrace hkind =>
    exact .failure (h _ _ hcode) (hcontext.imp h) (h _ _ hdisplay) (h _ _ hstored) (h _ _ htrace) (hkind.imp h)

theorem ThrownError.Resembles.imp {e e' : ThrownError Value} (he : e.Resembles R e') : e.Resembles S e' where
  subclasses := he.subclasses
  name := h _ _ he.name
  message := h _ _ he.message
  stack := Option.Rel.imp h he.stack
  frames := he.frames
  cause := Option.Rel.imp h he.cause
  listsCause := he.listsCause
  body := he.body.imp h
  extra := he.extra.imp h

theorem Node.Moved.imp {n m : Node} (hn : n.Moved R m) : n.Moved S m := by
  cases hn with
  | record hf => exact .record (hf.imp h)
  | list hi => exact .list (hi.imp fun _ _ => h _ _)
  | sparse hf => exact .sparse (hf.imp h)
  | set hi => exact .set (hi.imp fun _ _ => h _ _)
  | map he => exact .map (he.imp fun _ _ hp => ⟨h _ _ hp.1, h _ _ hp.2⟩)
  | date time => exact .date time
  | pattern source flags => exact .pattern source flags
  | bytes data => exact .bytes data
  | numbers element items => exact .numbers element items
  | boxed content => exact .boxed content
  | error hname hmessage hcause hstack =>
    exact .error (h _ _ hname) (h _ _ hmessage) (Option.Rel.imp h hcause) (h _ _ hstack)

theorem Node.Resembles.imp {n m : Node} (hn : n.Resembles R m) : n.Resembles S m := by
  cases hn with
  | moved hn => exact .moved (hn.imp h)
  | error he => exact .error (he.imp h)

end

theorem ErrorBody.Resembles.properties {R : Value → Value → Prop} {b b' : ErrorBody Value}
    (h : b.Resembles R b') : b.properties.Zip R b'.properties := by
  cases h with
  | host => exact .nil
  | library sort hcode => exact .cons ⟨rfl, hcode⟩ .nil
  | failure hcode _ hdisplay hstored htrace hkind =>
    exact .cons ⟨rfl, hcode⟩ (.cons ⟨rfl, hdisplay⟩ (.cons ⟨rfl, hstored⟩ (.cons ⟨rfl, htrace⟩ hkind.properties)))

theorem ThrownError.Resembles.properties {R : Value → Value → Prop} {e e' : ThrownError Value}
    (h : e.Resembles R e') : e.properties.Zip R e'.properties := by
  have hshown : Fields.Zip R [("name", e.name), ("message", e.message)] [("name", e'.name), ("message", e'.message)] :=
    .cons ⟨rfl, h.name⟩ (.cons ⟨rfl, h.message⟩ .nil)
  exact (((hshown.append (Fields.zip_optional "stack" h.stack)).append (Fields.zip_optional "cause" h.cause)).append
    h.body.properties).append h.extra

namespace Graph

/-! ## The same up to identities -/

/-- One comparison of values of two graphs. -/
def Compares (g g' : Graph) (R : Value → Value → Prop) (v w : Value) : Prop :=
  (v.id? = none ∧ v = w) ∨ ∃ n m, g.objectOf? v = some n ∧ g'.objectOf? w = some m ∧ n.Resembles R m

/-- Values of two graphs are deeply equal. -/
def Same (g g' : Graph) (v w : Value) : Prop :=
  ∃ R : Value → Value → Prop, (∀ a b, R a b → g.Compares g' R a b) ∧ R v w

/-- A relation between the values of two graphs by which they cannot be told apart: it is the equality on values
that are no objects, and one-to-one on objects that have the same parts. -/
structure Corresponds (g g' : Graph) (R : Value → Value → Prop) : Prop where
  plain : ∀ {v}, v.id? = none → R v v
  compares : ∀ {v w}, R v w → g.Compares g' R v w
  injective : ∀ {i j i' j'}, R (.object i) (.object i') → R (.object j) (.object j') → (i = j ↔ i' = j')

/-- Values of two graphs cannot be told apart but by their identities. -/
def Indistinct (g g' : Graph) (v w : Value) : Prop := ∃ R, g.Corresponds g' R ∧ R v w

section
variable {g g' h h' : Graph} {v w : Value} {R S : Value → Value → Prop}

theorem Compares.imp (hRS : ∀ a b, R a b → S a b) (hc : g.Compares g' R v w) : g.Compares g' S v w := by
  rcases hc with hplain | ⟨n, m, hn, hm, hnm⟩
  · exact .inl hplain
  · exact .inr ⟨n, m, hn, hm, hnm.imp hRS⟩

theorem Compares.mono (hle : g ≤ h) (hle' : g' ≤ h') (hc : g.Compares g' R v w) : h.Compares h' R v w := by
  rcases hc with hplain | ⟨n, m, hn, hm, hnm⟩
  · exact .inl hplain
  · exact .inr ⟨n, m, objectOf?_of_le hle hn, objectOf?_of_le hle' hm, hnm⟩

theorem Compares.objectOf? (hc : g.Compares g' R v w) :
    Option.Rel (Node.Resembles R) (g.objectOf? v) (g'.objectOf? w) := by
  rcases hc with ⟨hid, rfl⟩ | ⟨n, m, hn, hm, hnm⟩
  · rw [Graph.objectOf?, Graph.objectOf?, hid]
    exact .none
  · rw [hn, hm]
    exact .some hnm

theorem Same.compares (hs : g.Same g' v w) : g.Compares g' (g.Same g') v w := by
  obtain ⟨R, hR, hvw⟩ := hs
  exact (hR v w hvw).imp fun a b hab => ⟨R, hR, hab⟩

/-- Values whose parts are the same are the same. -/
theorem Same.of_compares (hc : g.Compares g' (g.Same g') v w) : g.Same g' v w := by
  refine ⟨fun a b => g.Same g' a b ∨ (a = v ∧ b = w), ?_, .inr ⟨rfl, rfl⟩⟩
  rintro a b (hab | ⟨rfl, rfl⟩)
  · exact hab.compares.imp fun _ _ => .inl
  · exact hc.imp fun _ _ => .inl

/-- A value that is no object is the same in every graph. -/
theorem same_of_plain (hv : v.id? = none) : g.Same g' v v := .of_compares (.inl ⟨hv, rfl⟩)

theorem Same.mono (hle : g ≤ h) (hle' : g' ≤ h') (hs : g.Same g' v w) : h.Same h' v w := by
  obtain ⟨R, hR, hvw⟩ := hs
  exact ⟨R, fun a b hab => (hR a b hab).mono hle hle', hvw⟩

/-- Values that cannot be told apart are the same. -/
theorem Indistinct.same (hi : g.Indistinct g' v w) : g.Same g' v w := by
  obtain ⟨R, hR, hvw⟩ := hi
  exact ⟨R, fun _ _ hab => hR.compares hab, hvw⟩

theorem indistinct_of_plain (hv : v.id? = none) : g.Indistinct g' v v := by
  refine ⟨fun a b => a.id? = none ∧ a = b, ⟨fun ha => ⟨ha, rfl⟩, fun hab => .inl hab, ?_⟩, hv, rfl⟩
  rintro i j i' j' ⟨hi, -⟩
  cases hi

/-- A value that is no object is told apart from all others. -/
theorem Same.eq_of_plain (hs : g.Same g' v w) (hv : v.id? = none) : w = v := by
  rcases hs.compares with ⟨-, rfl⟩ | ⟨n, m, hn, -, -⟩
  · rfl
  · obtain ⟨id, rfl, -⟩ := objectOf?_eq_some.1 hn
    cases hv

/-- What is not an object on one side is none on the other one. -/
theorem Same.id?_eq_none (hs : g.Same g' v w) : v.id? = none ↔ w.id? = none := by
  rcases hs.compares with ⟨-, rfl⟩ | ⟨n, m, hn, hm, -⟩
  · rfl
  · obtain ⟨id, rfl, -⟩ := objectOf?_eq_some.1 hn
    obtain ⟨id', rfl, -⟩ := objectOf?_eq_some.1 hm
    simp [Value.id?]

theorem Same.eq_iff_of_plain (hs : g.Same g' v w) {p : Value} (hp : p.id? = none) : v = p ↔ w = p := by
  constructor
  · rintro rfl
    exact hs.eq_of_plain hp
  · rintro rfl
    exact (hs.eq_of_plain (hs.id?_eq_none.2 hp)).symm

/-- **A copy cannot be told apart from what it is a copy of.** -/
theorem corresponds_of_copied {m m' n : Nat} (hcopied : g.Copied g' m m' n) :
    g.Corresponds g' (Value.Moved m m' n) where
  plain hv := .same hv
  compares hvw := by
    cases hvw with
    | same hid => exact .inl ⟨hid, rfl⟩
    | object hk =>
      obtain ⟨node, node', hnode, hnode', hmoved⟩ := hcopied _ hk
      exact .inr ⟨node, node', hnode, hnode', .moved hmoved⟩
  injective hi hj := by
    cases hi with
    | same hid => cases hid
    | object hk =>
      cases hj with
      | same hid => cases hid
      | object hk' => exact Nat.add_left_cancel_iff.trans Nat.add_left_cancel_iff.symm

/-- **What is put into two graphs cannot be told apart.** -/
theorem indistinct_of_placed {before before' : Graph} {d : Document} (hd : d.Within d.objectCount)
    (hv : before.Placed g d v) (hw : before'.Placed g' d w) : g.Indistinct g' v w := by
  obtain ⟨m, m', hcopied, hmoved⟩ := copied_of_placed hd hv hw
  exact ⟨_, corresponds_of_copied hcopied, hmoved⟩

end

end Graph
end FailureWire
