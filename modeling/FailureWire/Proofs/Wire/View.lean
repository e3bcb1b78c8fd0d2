import FailureWire.Conversion.Emit
import FailureWire.Proofs.Error.Raised

/-!
# Wire failures in a graph

A chain of wire failures is written as one document. This file says what can be read of a value that such
a document describes: every link reads as it was written (`Reading.link`), and the links follow each other
as causes (`Reading.chain`), down to the failure that the chain ends in.

What it means that a document describes a value is left open. `g.Reading S` asks that `S` compares records
field by field, whatever the order of the fields, and lists item by item, with gaps or without; `g.Shows first`
does (`reading_shows`).
-/

namespace FailureWire

@[simp] theorem FailureInfo.get?_optionalField (name other : String) (d : Option Document) :
    Fields.get? (optionalField name d) other = if name = other then d else none := by
  cases d <;> simp [optionalField, Fields.get?]

/-- The record of payloads that information has. -/
def FailureInfo.details? {π : Type} : FailureInfo π → Option π
  | .application _ _ details _ | .timeout _ details | .canceled details | .terminated details => details
  | _ => none

/-- The payloads of the details that a wire failure has. -/
def Graph.payloadsAt (g : Graph) (v : Value) : List Value :=
  match g.infoAt v with
  | .ok info => (info.details?.bind fun d => g.listOf? (g.read d "payloads")).getD []
  | .error _ => []

namespace Graph

/-- A relation between documents and values, by which the parts of a wire failure can be read. -/
structure Reading (g : Graph) (S : Document → Value → Prop) : Prop where
  existing : ∀ {w v : Value}, S (.existing w) v → v = w
  undefined : ∀ {v : Value}, S .undefined v → v = .undefined
  number : ∀ {n : Number} {v : Value}, S (.number n) v → v = .number n
  bytes : ∀ {data : Bytes} {v : Value}, S (.bytes data) v → g.objectOf? v = some (.bytes data)
  numbers : ∀ {element : ElementType} {items : List Number} {v : Value}, S (.numbers element items) v →
    g.objectOf? v = some (.numbers element items)
  record : ∀ {fields : Fields Document} {v : Value}, S (.record fields) v →
    ∃ values, g.IsRecord v values ∧ fields.Match S values
  items : ∀ {ds : List Document} {v : Value}, S (.list ds) v →
    ∃ values, g.objectOf? v = some (.list values) ∧ List.Forall₂ S ds values
  sparse : ∀ {fields : Fields Document} {v : Value}, S (.sparse fields) v →
    ∃ values, g.objectOf? v = some (.sparse values) ∧ fields.Match S values

/-! ## Documents that are shown -/

section
variable {g : Graph} {first : ObjectId}

theorem ShowsFields.match : ∀ {fields : Fields Document} {values : Fields Value},
    g.ShowsFields first fields values → fields.Match (g.Shows first) values
  | [], _, h => by
    cases h
    exact fun _ => .none
  | (n, d) :: rest, _, ⟨v, more, hv, hd, hrest⟩ => by
    subst hv
    intro name
    rw [Fields.get?_cons, Fields.get?_cons]
    split
    · exact .some hd
    · exact ShowsFields.match hrest name

theorem reading_shows (g : Graph) (first : ObjectId) : g.Reading (g.Shows first) where
  existing h := h
  undefined h := h
  number h := h
  bytes h := h
  numbers h := h
  record := by
    rintro fields v ⟨values, hv, hs⟩
    exact ⟨values, ⟨values, hv, fun _ => rfl⟩, hs.match⟩
  items := by
    rintro ds v ⟨values, hv, hs⟩
    exact ⟨values, hv, hs.forall₂⟩
  sparse := by
    rintro fields v ⟨values, hv, hs⟩
    exact ⟨values, hv, hs.match⟩

end

/-! ## Records -/

section
variable {g : Graph} {S : Document → Value → Prop} {fields : Fields Document} {v w : Value}

theorem Reading.isObject (hS : g.Reading S) (h : S (.record fields) v) : ∃ id, v = .object id := by
  obtain ⟨values, hv, -⟩ := hS.record h
  exact hv.isObject

theorem Reading.get? (hS : g.Reading S) (h : S (.record fields) v) (name : String) :
    Option.Rel S (fields.get? name) (g.get? v name) := by
  obtain ⟨values, hv, hfields⟩ := hS.record h
  rw [hv.get?]
  exact hfields name

theorem Reading.read (hS : g.Reading S) (h : S (.record fields) v) (name : String) {d : Document}
    (hd : fields.get? name = some d) : S d (g.read v name) := by
  have hname := hS.get? h name
  rw [hd] at hname
  generalize hw : g.get? v name = found at hname
  cases hname with
  | some hshow => rwa [read_eq_of_get? hw]

/-- A field that is described as a value of the graph is that value. -/
theorem Reading.read_existing (hS : g.Reading S) (h : S (.record fields) v) (name : String)
    (hd : fields.get? name = some (.existing w)) : g.read v name = w :=
  hS.existing (hS.read h name hd)

theorem Reading.readOf (hS : g.Reading S) (h : S (.record fields) v) (name : String) :
    g.readOf v name = .ok (g.read v name) := by
  obtain ⟨id, rfl⟩ := hS.isObject h
  rfl

theorem Reading.readOf_existing (hS : g.Reading S) (h : S (.record fields) v) (name : String)
    (hd : fields.get? name = some (.existing w)) : g.readOf v name = .ok w := by
  rw [hS.readOf h, hS.read_existing h name hd]

theorem Reading.truthyAt (hS : g.Reading S) (described : Option (Fields Document)) {name : String}
    (h : Option.Rel S (described.map .record) (g.get? v name)) : g.truthyAt v name = g.get? v name := by
  generalize hw : g.get? v name = found at h
  cases hf : described with
  | none =>
    rw [hf] at h
    cases h
    rw [Graph.truthyAt, read_eq_undefined hw]
    rfl
  | some fs =>
    rw [hf] at h
    cases h with
    | some hshow =>
      obtain ⟨id, rfl⟩ := hS.isObject hshow
      rw [Graph.truthyAt, read_eq_of_get? hw]
      rfl

/-! ## Links -/

/-- A value is a wire failure as a link and its cause describe it. -/
structure ReadsLink (g : Graph) (S : Document → Value → Prop) (link : WireLink) (cause : Option Document)
    (v : Value) : Prop where
  isObject : ∃ id, v = .object id
  message : g.read v "message" = link.message
  source : g.read v "source" = link.source
  stackTrace : g.read v "stackTrace" = link.stackTrace
  cause : Option.Rel S cause (g.get? v "cause")
  info : S link.info.document (g.read v "failureInfo")
  attributes : Option.Rel S link.encodedAttributes (g.get? v "encodedAttributes")

/-- A value shows a link and its cause. -/
abbrev ShowsLink (g : Graph) (first : ObjectId) : WireLink → Option Document → Value → Prop :=
  g.ReadsLink (g.Shows first)

/-- **What the document of a link describes reads as the link.** -/
theorem Reading.link (hS : g.Reading S) {link : WireLink} {cause : Option Document}
    (h : S (link.document cause) v) : g.ReadsLink S link cause v where
  isObject := hS.isObject h
  message := hS.read_existing h "message" (by simp [Fields.get?])
  source := hS.read_existing h "source" (by simp [Fields.get?])
  stackTrace := hS.read_existing h "stackTrace" (by simp [Fields.get?])
  cause := by simpa [Fields.get?] using hS.get? h "cause"
  info := hS.read h "failureInfo" (by simp [Fields.get?])
  attributes := by simpa [Fields.get?] using hS.get? h "encodedAttributes"

theorem ReadsLink.isMissing {link : WireLink} {cause : Option Document} (h : g.ReadsLink S link cause v) :
    v.isMissing = false := by
  obtain ⟨id, rfl⟩ := h.isObject
  rfl

theorem ReadsLink.shows_cause {link : WireLink} {d : Document} (h : g.ReadsLink S link (some d) v) :
    S d (g.causeOf v) := by
  have hcause := h.cause
  generalize hw : g.get? v "cause" = found at hcause
  cases hcause with
  | some hshow => rwa [causeOf, read_eq_of_get? hw]

theorem ReadsLink.causeOf_eq_undefined {link : WireLink} (h : g.ReadsLink S link none v) :
    g.causeOf v = .undefined := by
  have hcause := h.cause
  generalize hw : g.get? v "cause" = found at hcause
  cases hcause
  exact read_eq_undefined hw

/-! ## Chains -/

/-- **A chain reads as its links, one the cause of the other, down to what it ends in.** -/
theorem Reading.chain (hS : g.Reading S) {last : Option Value} :
    ∀ {links : List WireLink} {d : Document} {v : Value}, links ≠ [] →
      chainDocument links (last.map .existing) = some d → S d v →
        ∃ vs, g.CausePath v vs ∧ g.causeAt vs.length v = .ofOption last ∧
          List.Forall₂ (fun link x => ∃ cause, g.ReadsLink S link cause x) links vs
  | [], _, _, hne, _, _ => absurd rfl hne
  | [link], d, v, _, hd, h => by
    cases hd
    have hlink := hS.link h
    refine ⟨[v], .cons (.nil _), ?_, .cons ⟨_, hlink⟩ .nil⟩
    cases last with
    | none => exact hlink.causeOf_eq_undefined
    | some w => exact hS.existing hlink.shows_cause
  | link :: next :: rest, d, v, _, hd, h => by
    cases hd
    have hlink := hS.link h
    obtain ⟨vs, hpath, hend, hlinks⟩ := hS.chain (List.cons_ne_nil next rest) rfl hlink.shows_cause
    exact ⟨v :: vs, .cons hpath, hend, .cons ⟨_, hlink⟩ hlinks⟩

theorem Reading.emitted (hS : g.Reading S) {e : Emitted} (hne : e.links ≠ []) (h : S e.document v) :
    ∃ vs, g.CausePath v vs ∧ g.causeAt vs.length v = .ofOption (e.stored.filter (·.isTruthy)) ∧
      List.Forall₂ (fun link x => ∃ cause, g.ReadsLink S link cause x) e.links vs := by
  obtain ⟨links, stored⟩ := e
  cases links with
  | nil => exact absurd rfl hne
  | cons link rest => exact hS.chain (List.cons_ne_nil link rest) rfl h

/-- Links that end in no stored failure are a finite chain. -/
theorem Reading.emitted_chain (hS : g.Reading S) {links : List WireLink} (hne : links ≠ [])
    (h : S (Emitted.document ⟨links, none⟩) v) :
    ∃ vs, g.CauseChain v vs ∧ List.Forall₂ (fun link x => ∃ cause, g.ReadsLink S link cause x) links vs := by
  obtain ⟨vs, hpath, hend, hread⟩ := hS.emitted hne h
  refine ⟨vs, ?_, hread⟩
  have hobjects : ∀ x ∈ vs, x.isMissing = false := by
    intro x hx
    obtain ⟨link, -, cause, hlink⟩ := exists_of_forall₂ hread hx
    exact hlink.isMissing
  have hchain := hpath.chain hobjects (.done (by rw [hend]; rfl))
  rwa [List.append_nil] at hchain

end
end Graph

theorem isTruthy_of_encodeAttributes {g g' : Graph} {first : ObjectId} {c : Codec} {message stackTrace w : Value}
    {p : Document} (h : c.encodeAttributes g message stackTrace = .ok p) (hw : g'.Shows first p w) :
    w.isTruthy = true := by
  unfold Codec.encodeAttributes Codec.encodeValue at h
  obtain ⟨encoded, -, h⟩ := FailureWire.Except.bind_eq_ok.1 h
  cases encoded with
  | itself =>
    cases h
    cases hw
    rfl
  | payload p =>
    cases h
    obtain ⟨id, rfl⟩ := (g'.reading_shows first).isObject hw
    rfl

end FailureWire
