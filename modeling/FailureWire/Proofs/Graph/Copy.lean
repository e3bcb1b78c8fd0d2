import FailureWire.Proofs.Graph.Closed
import FailureWire.Proofs.Graph.Layout
import Mathlib.Data.List.Perm.Subperm

/-!
# Values that differ in their identities only

A document that speaks of its own objects only can be put into any graph, behind whatever is there. The
objects get other identities, and everything else stays the same: `g.Copied g' m m' n` says that the `n`
objects of `g` from `m` on are those of `g'` from `m'` on (`copied_of_placed`).
-/

namespace FailureWire

/-! ## The same but for identities -/

/-- Values that are the same, or objects that have one place among `n` objects each. -/
inductive Value.Moved (m m' n : Nat) : Value → Value → Prop
  | same {v : Value} : v.id? = none → Moved m m' n v v
  | object {k : Nat} : k < n → Moved m m' n (.object (m + k)) (.object (m' + k))

/-- Fields of the same names in the same order, with related values. -/
def Fields.Zip {α : Type} (R : α → α → Prop) (fields others : Fields α) : Prop :=
  List.Forall₂ (fun f o => f.1 = o.1 ∧ R f.2 o.2) fields others

/-- Objects that are the same but for the values that they hold, which are related. Errors are such as a
document describes. -/
inductive Node.Moved (R : Value → Value → Prop) : Node → Node → Prop
  | record {fields others : Fields Value} : fields.Zip R others → Moved R (.record fields) (.record others)
  | list {items others : List Value} : List.Forall₂ R items others → Moved R (.list items) (.list others)
  | sparse {fields others : Fields Value} : fields.Zip R others → Moved R (.sparse fields) (.sparse others)
  | set {members others : List Value} : List.Forall₂ R members others → Moved R (.set members) (.set others)
  | map {entries others : List (Value × Value)} :
    List.Forall₂ (fun e o => R e.1 o.1 ∧ R e.2 o.2) entries others → Moved R (.map entries) (.map others)
  | date (time : Number) : Moved R (.date time) (.date time)
  | pattern (source flags : String) : Moved R (.pattern source flags) (.pattern source flags)
  | bytes (data : Bytes) : Moved R (.bytes data) (.bytes data)
  | numbers (element : ElementType) (items : List Number) :
    Moved R (.numbers element items) (.numbers element items)
  | boxed (content : Boxed) : Moved R (.boxed content) (.boxed content)
  | error {name name' message message' stack stack' : Value} {cause cause' : Option Value} :
    R name name' → R message message' → Option.Rel R cause cause' → R stack stack' →
      Moved R
        (.error { subclasses := [], name, message, stack := some stack, cause, body := .host true, extra := [] })
        (.error { subclasses := [], name := name', message := message', stack := some stack', cause := cause'
                  body := .host true, extra := [] })

namespace Graph

/-! ## Laying out -/

section
variable {m m' n : Nat}

mutual
/-- **A document is laid out in the same way wherever it is put.** -/
theorem moved_layOut : ∀ (d : Document) (i : Nat), d.Within n → i + d.objectCount ≤ n →
    Value.Moved m m' n (layOut m (m + i) d).1 (layOut m' (m' + i) d).1 ∧
      List.Forall₂ (Node.Moved (Value.Moved m m' n)) (layOut m (m + i) d).2 (layOut m' (m' + i) d).2
  | .undefined, _, _, _ | .null, _, _, _ | .bool _, _, _, _ | .number _, _, _, _ | .text _, _, _, _
  | .big _, _, _, _ => ⟨.same rfl, .nil⟩
  | .again _, _, hk, _ => ⟨.object hk, .nil⟩
  | .record fields, i, hd, hle => by
    rw [Document.objectCount] at hle
    obtain ⟨hfields, hnodes⟩ := moved_layOutFields fields (i + 1) hd (by omega)
    exact ⟨.object (by omega), .cons (.record hfields) hnodes⟩
  | .sparse fields, i, hd, hle => by
    rw [Document.objectCount] at hle
    obtain ⟨hfields, hnodes⟩ := moved_layOutFields fields (i + 1) hd (by omega)
    exact ⟨.object (by omega), .cons (.sparse hfields) hnodes⟩
  | .list items, i, hd, hle => by
    rw [Document.objectCount] at hle
    obtain ⟨hitems, hnodes⟩ := moved_layOutItems items (i + 1) hd (by omega)
    exact ⟨.object (by omega), .cons (.list hitems) hnodes⟩
  | .set items, i, hd, hle => by
    rw [Document.objectCount] at hle
    obtain ⟨hitems, hnodes⟩ := moved_layOutItems items (i + 1) hd (by omega)
    exact ⟨.object (by omega), .cons (.set hitems) hnodes⟩
  | .map entries, i, hd, hle => by
    rw [Document.objectCount] at hle
    obtain ⟨hentries, hnodes⟩ := moved_layOutEntries entries (i + 1) hd (by omega)
    exact ⟨.object (by omega), .cons (.map hentries) hnodes⟩
  | .date _, i, _, hle => ⟨.object hle, .cons (.date _) .nil⟩
  | .pattern .., i, _, hle => ⟨.object hle, .cons (.pattern ..) .nil⟩
  | .bytes _, i, _, hle => ⟨.object hle, .cons (.bytes _) .nil⟩
  | .numbers .., i, _, hle => ⟨.object hle, .cons (.numbers ..) .nil⟩
  | .boxed _, i, _, hle => ⟨.object hle, .cons (.boxed _) .nil⟩
  | .error name message cause stack, i, ⟨hname, hmessage, hcause, hstack⟩, hle => by
    rw [Document.objectCount] at hle
    obtain ⟨hn, hnodes₁⟩ := moved_layOut name (i + 1) hname (by omega)
    obtain ⟨hm, hnodes₂⟩ := moved_layOut message (i + 1 + name.objectCount) hmessage (by omega)
    obtain ⟨hc, hnodes₃⟩ := moved_layOutCause cause (i + 1 + (name.objectCount + message.objectCount)) hcause (by omega)
    obtain ⟨hs, hnodes₄⟩ := moved_layOut stack
      (i + 1 + (name.objectCount + message.objectCount + Document.countInCause cause)) hstack (by omega)
    simp only [layOut, List.length_append, length_layOut, length_layOutCause, Nat.add_assoc] at *
    exact ⟨.object (by omega), .cons (.error hn hm hc hs)
      (List.rel_append (List.rel_append (List.rel_append hnodes₁ hnodes₂) hnodes₃) hnodes₄)⟩

theorem moved_layOutFields : ∀ (fields : List (String × Document)) (i : Nat),
    Document.WithinFields n fields → i + Document.countInFields fields ≤ n →
      Fields.Zip (Value.Moved m m' n) (layOutFields m (m + i) fields).1 (layOutFields m' (m' + i) fields).1 ∧
        List.Forall₂ (Node.Moved (Value.Moved m m' n)) (layOutFields m (m + i) fields).2
          (layOutFields m' (m' + i) fields).2
  | [], _, _, _ => ⟨.nil, .nil⟩
  | (name, d) :: rest, i, ⟨hd, hrest⟩, hle => by
    rw [Document.countInFields] at hle
    obtain ⟨hv, hnodes⟩ := moved_layOut d i hd (by omega)
    obtain ⟨hfields, hmore⟩ := moved_layOutFields rest (i + d.objectCount) hrest (by omega)
    simp only [layOutFields, length_layOut, Nat.add_assoc] at *
    exact ⟨.cons ⟨rfl, hv⟩ hfields, List.rel_append hnodes hmore⟩

theorem moved_layOutItems : ∀ (items : List Document) (i : Nat),
    Document.WithinItems n items → i + Document.countInItems items ≤ n →
      List.Forall₂ (Value.Moved m m' n) (layOutItems m (m + i) items).1 (layOutItems m' (m' + i) items).1 ∧
        List.Forall₂ (Node.Moved (Value.Moved m m' n)) (layOutItems m (m + i) items).2
          (layOutItems m' (m' + i) items).2
  | [], _, _, _ => ⟨.nil, .nil⟩
  | d :: rest, i, ⟨hd, hrest⟩, hle => by
    rw [Document.countInItems] at hle
    obtain ⟨hv, hnodes⟩ := moved_layOut d i hd (by omega)
    obtain ⟨hitems, hmore⟩ := moved_layOutItems rest (i + d.objectCount) hrest (by omega)
    simp only [layOutItems, length_layOut, Nat.add_assoc] at *
    exact ⟨.cons hv hitems, List.rel_append hnodes hmore⟩

theorem moved_layOutEntries : ∀ (entries : List (Document × Document)) (i : Nat),
    Document.WithinEntries n entries → i + Document.countInEntries entries ≤ n →
      List.Forall₂ (fun e o => Value.Moved m m' n e.1 o.1 ∧ Value.Moved m m' n e.2 o.2)
          (layOutEntries m (m + i) entries).1 (layOutEntries m' (m' + i) entries).1 ∧
        List.Forall₂ (Node.Moved (Value.Moved m m' n)) (layOutEntries m (m + i) entries).2
          (layOutEntries m' (m' + i) entries).2
  | [], _, _, _ => ⟨.nil, .nil⟩
  | (k, d) :: rest, i, ⟨hk, hd, hrest⟩, hle => by
    rw [Document.countInEntries] at hle
    obtain ⟨hkey, hkeys⟩ := moved_layOut k i hk (by omega)
    obtain ⟨hv, hnodes⟩ := moved_layOut d (i + k.objectCount) hd (by omega)
    obtain ⟨hentries, hmore⟩ :=
      moved_layOutEntries rest (i + k.objectCount + d.objectCount) hrest (by omega)
    simp only [layOutEntries, length_layOut, Nat.add_assoc] at *
    exact ⟨.cons ⟨hkey, hv⟩ hentries, List.rel_append (List.rel_append hkeys hnodes) hmore⟩

theorem moved_layOutCause : ∀ (cause : Option Document) (i : Nat),
    Document.WithinCause n cause → i + Document.countInCause cause ≤ n →
      Option.Rel (Value.Moved m m' n) (layOutCause m (m + i) cause).1 (layOutCause m' (m' + i) cause).1 ∧
        List.Forall₂ (Node.Moved (Value.Moved m m' n)) (layOutCause m (m + i) cause).2
          (layOutCause m' (m' + i) cause).2
  | none, _, _, _ => ⟨.none, .nil⟩
  | some d, i, hd, hle => by
    obtain ⟨hv, hnodes⟩ := moved_layOut d i hd hle
    exact ⟨.some hv, hnodes⟩
end

end

/-! ## Copies -/

/-- The `n` objects of a graph from `m` on are those of another graph from `m'` on. -/
def Copied (g g' : Graph) (m m' n : Nat) : Prop :=
  ∀ k < n, ∃ node node', g.node? (m + k) = some node ∧ g'.node? (m' + k) = some node' ∧
    node.Moved (Value.Moved m m' n) node'

section
variable {g g' : Graph} {m m' n : Nat}

theorem node?_of_standAt {nodes : List Node} {node : Node} {k : Nat} (h : g.StandAt m nodes)
    (hk : nodes[k]? = some node) : g.node? (m + k) = some node := by
  obtain ⟨more, hmore⟩ := h
  obtain ⟨hlt, -⟩ := List.getElem?_eq_some_iff.1 hk
  rw [node?, ← List.getElem?_drop, ← hmore, List.getElem?_append_left hlt]
  exact hk

theorem copied_of_standAt {nodes nodes' : List Node} (h : g.StandAt m nodes) (h' : g'.StandAt m' nodes')
    (hnodes : List.Forall₂ (Node.Moved (Value.Moved m m' nodes.length)) nodes nodes') :
    g.Copied g' m m' nodes.length := by
  intro k hk
  have hk' : k < nodes'.length := hnodes.length_eq ▸ hk
  exact ⟨_, _, node?_of_standAt h (List.getElem?_eq_getElem hk),
    node?_of_standAt h' (List.getElem?_eq_getElem hk'), hnodes.get hk hk'⟩

/-- **Wherever a document is put, the value is the same.** -/
theorem copied_of_placed {h h' : Graph} {d : Document} {v w : Value} (hd : d.Within d.objectCount)
    (hv : h.Placed g d v) (hw : h'.Placed g' d w) :
    ∃ m m', g.Copied g' m m' d.objectCount ∧ v.Moved m m' d.objectCount w := by
  obtain ⟨between, -, hadd, rfl⟩ := hv
  obtain ⟨between', -, hadd', rfl⟩ := hw
  obtain ⟨hvalue, hnodes⟩ := @moved_layOut between.size between'.size _ d 0 hd (by omega)
  have hlength : (layOut between.size between.size d).2.length = d.objectCount := length_layOut
  refine ⟨between.size, between'.size, ?_, hvalue⟩
  have hcopied := copied_of_standAt ((standAt_add between d).mono hadd) ((standAt_add between' d).mono hadd')
    (by rw [hlength]; exact hnodes)
  rwa [hlength] at hcopied

end

end Graph
end FailureWire
