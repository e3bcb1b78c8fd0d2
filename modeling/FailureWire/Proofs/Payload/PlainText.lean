import FailureWire.Proofs.Graph.Tree
import FailureWire.Proofs.Payload.Identity
import FailureWire.Proofs.Text.Halves
import FailureWire.Proofs.Text.Utf8

/-!
# Payload text of plain documents

Payload text of a plain document is plain JSON with annotations, and nothing else (`jsonOf_of_isPlain`). It is read
back as this JSON (`readable_jsonOf`), whose annotations turn the plain part back into the document
(`decodeText_chars`).
-/

namespace FailureWire

namespace Document

open Payload

variable {host : Host} {withBytes : Bool}

/-! ## Writing out -/

mutual
/-- A document that names no object is left as it is when it is written out. -/
theorem run_unfoldAfter : ∀ {d : Document}, d.IsPlain host withBytes → ∀ forms, ((unfoldAfter d).run forms).1 = d
  | .undefined, _, _ | .null, _, _ | .bool _, _, _ | .text _, _, _ | .big _, _, _ | .number _, _, _ | .date _, _, _
  | .pattern _ _, _, _ | .bytes _, _, _ | .numbers _ _, _, _ | .boxed (.address _), _, _ => rfl
  | .record _, h, _ => congrArg Document.record (run_unfoldFields h.2 _)
  | .list _, h, _ => congrArg Document.list (run_unfoldItems h.2 _)
  | .set _, h, _ => congrArg Document.set (run_unfoldItems h.2.2 _)
  | .map _, h, _ => congrArg Document.map (run_unfoldEntries h.2.2 _)
  | .error _ _ cause _, ⟨hname, ⟨s, hmessage⟩, hcause, hstack⟩, _ => by
    subst hmessage hstack
    exact congrArg₂ (fun name cause => error name (.text s) cause .undefined) (run_unfoldAfter hname _)
      (run_unfoldCause hcause _)

theorem run_unfoldFields : ∀ {fields : List (String × Document)}, PlainFields host withBytes fields →
    ∀ forms, ((unfoldFields fields).run forms).1 = fields
  | [], _, _ => rfl
  | (k, _) :: _, h, _ => congrArg₂ List.cons (congrArg (Prod.mk k) (run_unfoldAfter h.2.1 _)) (run_unfoldFields h.2.2 _)

theorem run_unfoldItems : ∀ {items : List Document}, PlainItems host withBytes items →
    ∀ forms, ((unfoldItems items).run forms).1 = items
  | [], _, _ => rfl
  | _ :: _, h, _ => congrArg₂ List.cons (run_unfoldAfter h.1 _) (run_unfoldItems h.2 _)

theorem run_unfoldEntries : ∀ {entries : List (Document × Document)}, PlainEntries host withBytes entries →
    ∀ forms, ((unfoldEntries entries).run forms).1 = entries
  | [], _, _ => rfl
  | _ :: _, h, _ => congrArg₂ List.cons (congrArg₂ Prod.mk (run_unfoldAfter h.1 _) (run_unfoldAfter h.2.1 _))
      (run_unfoldEntries h.2.2 _)

theorem run_unfoldCause : ∀ {cause : Option Document}, PlainCause host withBytes cause →
    ∀ forms, ((unfoldCause cause).run forms).1 = cause
  | some _, h, _ => congrArg some (run_unfoldAfter h _)
end

theorem unfold_eq_self {d : Document} (h : d.IsPlain host withBytes) : d.unfold = d := run_unfoldAfter h []

mutual
theorem unsafeKey?_eq_none : ∀ {d : Document}, d.IsPlain host withBytes → d.unsafeKey? = none
  | .undefined, _ | .null, _ | .bool _, _ | .text _, _ | .big _, _ | .number _, _ | .date _, _ | .pattern _ _, _
  | .bytes _, _ | .numbers _ _, _ | .boxed (.address _), _ => rfl
  | .record _, h => unsafeKeyInFields?_eq_none h.2
  | .list _, h => unsafeKeyInItems?_eq_none h.2
  | .set _, h => unsafeKeyInItems?_eq_none h.2.2
  | .map _, h => unsafeKeyInEntries?_eq_none h.2.2
  | .error _ _ _ _, ⟨hname, ⟨_, hmessage⟩, hcause, _⟩ => by
    subst hmessage
    rw [unsafeKey?, unsafeKey?_eq_none hname, unsafeKeyInCause?_eq_none hcause]
    rfl

theorem unsafeKeyInFields?_eq_none : ∀ {fields : List (String × Document)}, PlainFields host withBytes fields →
    unsafeKeyInFields? fields = none
  | [], _ => rfl
  | (k, d) :: rest, h => by
    rw [unsafeKeyInFields?, h.1, unsafeKey?_eq_none h.2.1, unsafeKeyInFields?_eq_none h.2.2]
    rfl

theorem unsafeKeyInItems?_eq_none : ∀ {items : List Document}, PlainItems host withBytes items →
    unsafeKeyInItems? items = none
  | [], _ => rfl
  | d :: rest, h => by
    rw [unsafeKeyInItems?, unsafeKey?_eq_none h.1, unsafeKeyInItems?_eq_none h.2]
    rfl

theorem unsafeKeyInEntries?_eq_none : ∀ {entries : List (Document × Document)}, PlainEntries host withBytes entries →
    unsafeKeyInEntries? entries = none
  | [], _ => rfl
  | (k, d) :: rest, h => by
    rw [unsafeKeyInEntries?, unsafeKey?_eq_none h.1, unsafeKey?_eq_none h.2.1, unsafeKeyInEntries?_eq_none h.2.2]
    rfl

theorem unsafeKeyInCause?_eq_none : ∀ {cause : Option Document}, PlainCause host withBytes cause →
    unsafeKeyInCause? cause = none
  | some _, h => unsafeKey?_eq_none h
end

end Document

/-! ## JSON -/

namespace Json

theorem readableFields_iff : ∀ {fields : List (String × Json)},
    ReadableFields fields ↔ ∀ field ∈ fields, Readable field.2
  | [] => by simp [ReadableFields]
  | _ :: _ => by
    rw [List.forall_mem_cons, ← readableFields_iff]
    rfl

end Json

namespace Document

open Json Payload

variable {host : Host} {withBytes : Bool}

theorem readableItems_iff {items : List Json} : ReadableItems items ↔ ∀ j ∈ items, Readable j := by
  induction items with
  | nil => simp [ReadableItems]
  | cons j rest ih =>
    rw [List.forall_mem_cons, ← ih]
    rfl

theorem plainFields_eq_mapValues : ∀ fields : List (String × Document),
    plainFields fields = Fields.mapValues plain fields
  | [] => rfl
  | f :: rest => congrArg ((f.1, f.2.plain) :: ·) (plainFields_eq_mapValues rest)

theorem readable_plainNumber (n : Number) : Readable (plainNumber n) := by
  unfold plainNumber
  split_ifs with hzero hfinite
  · trivial
  · exact ⟨hfinite, hzero⟩
  · trivial

mutual
/-- The plain JSON of a plain document is read back from its text. -/
theorem readable_plain : ∀ {d : Document}, d.IsPlain host withBytes → Readable d.plain
  | .undefined, _ | .null, _ | .bool _, _ | .text _, _ | .big _, _ | .pattern _ _, _ | .boxed (.address _), _ => trivial
  | .number n, _ => readable_plainNumber n
  | .date time, _ => by
    simp only [plain, plainDate]
    split <;> trivial
  | .record fields, h => by
    refine ⟨?_, readable_plainFields h.2⟩
    rw [plainFields_eq_mapValues, Fields.ofList_mapValues, h.1]
  | .list _, h => readable_plainItems h.2
  | .set _, h => readable_plainItems h.2.2
  | .map _, h => readable_plainEntries h.2.2
  | .bytes data, _ => readableItems_iff.2 (List.forall_mem_map.2 fun b _ =>
      ⟨Number.isFinite_ofInt (fits_byte b), Number.ofInt_ne_negativeZero (fits_byte b)⟩)
  | .numbers _ _, h => readableItems_iff.2 (List.forall_mem_map.2 fun n hn => ⟨(h n hn).1, (h n hn).2.1⟩)
  | .error name _ cause _, ⟨hname, ⟨s, hmessage⟩, hcause, _⟩ => by
    subst hmessage
    cases cause with
    | none => exact hcause.elim
    | some d =>
      have horder : Fields.ofList [("name", ()), ("message", ()), ("cause", ())] =
          [("name", ()), ("message", ()), ("cause", ())] := by decide
      exact ⟨Fields.ofList_of_names horder rfl, readable_plain hname, trivial, readable_plain hcause, trivial⟩

theorem readable_plainFields : ∀ {fields : List (String × Document)}, PlainFields host withBytes fields →
    ReadableFields (plainFields fields)
  | [], _ => trivial
  | (_, _) :: _, h => ⟨readable_plain h.2.1, readable_plainFields h.2.2⟩

theorem readable_plainItems : ∀ {items : List Document}, PlainItems host withBytes items →
    ReadableItems (plainItems items)
  | [], _ => trivial
  | _ :: _, h => ⟨readable_plain h.1, readable_plainItems h.2⟩

theorem readable_plainEntries : ∀ {entries : List (Document × Document)}, PlainEntries host withBytes entries →
    ReadableItems (plainEntries entries)
  | [], _ => trivial
  | (_, _) :: _, h => ⟨⟨readable_plain h.1, readable_plain h.2.1, trivial⟩, readable_plainEntries h.2.2⟩
end

end Document

namespace Payload

open Json

theorem readable_transformation (t : Transformation) : Readable t.toJson := by
  cases t <;> simp [Transformation.toJson, Readable, ReadableItems]

/-- Annotations are read back from their text. -/
structure ReadableNotes (notes : Notes) : Prop where
  inOrder : Fields.ofList notes.below = notes.below
  values : ∀ note ∈ notes.below, Readable note.2

theorem ReadableNotes.toJson {notes : Notes} (h : ReadableNotes notes) : Readable notes.toJson := by
  have hbelow : Readable (.record notes.below) := ⟨h.inOrder, readableFields_iff.2 h.values⟩
  unfold Notes.toJson
  split
  · refine ⟨readable_transformation _, ?_⟩
    split_ifs
    · trivial
    · exact ⟨hbelow, trivial⟩
  · exact hbelow

theorem ReadableNotes.under {notes : Notes} (h : ReadableNotes notes) (key : String) :
    ∀ note ∈ notes.under key, Readable note.2 := by
  unfold Notes.under
  split
  · simpa using h.toJson
  · rw [List.forall_mem_map]
    exact h.values

theorem readableNotes_above {below : List (Fields Json)} (own : Option Transformation)
    (h : ∀ notes ∈ below, ∀ note ∈ notes, Readable note.2) : ReadableNotes (.above own below) where
  inOrder := Fields.ofList_ofList _
  values := Fields.forall_ofList fun note hnote => by
    obtain ⟨notes, hnotes, hmem⟩ := List.mem_flatten.1 hnote
    exact h notes hnotes note hmem

namespace Draft

mutual
theorem readableNotes : ∀ a : Draft, ReadableNotes a.notes
  | .leaf _ => ⟨rfl, by simp [notes, Notes.none]⟩
  | .record fields => readableNotes_above none (readableNotes_fields fields)
  | .list items => readableNotes_above none (readableNotes_items 0 items)
  | .marked _ inside _ => ⟨(readableNotes inside).inOrder, (readableNotes inside).values⟩

theorem readableNotes_fields : ∀ fields : List (String × Draft),
    ∀ notes ∈ notesOfFields fields, ∀ note ∈ notes, Readable note.2
  | [] => by simp [notesOfFields]
  | (key, a) :: rest => List.forall_mem_cons.2 ⟨(readableNotes a).under key, readableNotes_fields rest⟩

theorem readableNotes_items (i : Nat) : ∀ items : List Draft,
    ∀ notes ∈ notesOfItems i items, ∀ note ∈ notes, Readable note.2
  | [] => by simp [notesOfItems]
  | a :: rest => List.forall_mem_cons.2 ⟨(readableNotes a).under _, readableNotes_items (i + 1) rest⟩
end

end Draft

end Payload

/-! ## Payload text -/

namespace Payload

open Json

variable {host : Host} {d : Document} {withBytes : Bool}

/-- The annotations of payload text that has no equalities. -/
def metaOf (notes : Notes) : Fields Json :=
  if notes.isEmpty then [] else [("meta", .record [("values", notes.toJson), ("v", .number 1)])]

/-- **Payload text of a plain document says no more than its annotations do.** -/
theorem jsonOf_of_isPlain (h : d.IsPlain host withBytes) (hsingular : d.singular.Nodup) :
    jsonOf d = .record (("json", d.plain) :: metaOf d.notes) := by
  simp only [jsonOf, Document.unfold_eq_self h, toJson?_equalities (Document.nodup_identities h hsingular)]
  by_cases hempty : d.notes.isEmpty = true
  · simp only [metaOf, if_pos hempty]
    rfl
  · simp only [metaOf, if_neg hempty]
    rfl

theorem readable_metaOf {notes : Notes} (h : ReadableNotes notes) : ∀ note ∈ metaOf notes, Readable note.2 := by
  unfold metaOf
  split_ifs
  · simp
  · have horder : Fields.ofList [("values", ()), ("v", ())] = [("values", ()), ("v", ())] := by decide
    have hversion : Readable (.number 1) := by
      constructor <;> decide +kernel
    simpa using ⟨Fields.ofList_of_names horder rfl, h.toJson, hversion, trivial⟩

/-- What payload text of a plain document says is read back from the text. -/
theorem readable_jsonOf (h : d.IsPlain host withBytes) (hsingular : d.singular.Nodup) : Readable (jsonOf d) := by
  have hnotes : ReadableNotes d.notes := Document.notes_draft h ▸ d.draft.readableNotes
  rw [jsonOf_of_isPlain h hsingular]
  refine ⟨?_, Document.readable_plain h, readableFields_iff.2 (readable_metaOf hnotes)⟩
  have hone : Fields.ofList [("json", ())] = [("json", ())] := by decide
  have htwo : Fields.ofList [("json", ()), ("meta", ())] = [("json", ()), ("meta", ())] := by decide
  unfold metaOf
  split_ifs
  · exact Fields.ofList_of_names hone rfl
  · exact Fields.ofList_of_names htwo rfl

/-- What is read of JSON is what its annotations turn its plain JSON into, if it has no equalities. -/
theorem ofJson_record {j : Json} {notes : Notes} {e : Document} (hempty : notes.isEmpty = true → e = .ofJson j)
    (hrevive : reviveTree host false [] notes.toJson (.ofJson j) = .ok e) (he : e.IsPlain host withBytes) :
    ofJson host (.record (("json", j) :: metaOf notes)) = .ok e := by
  have hroot : (Graph.empty.add e).1.fullDocument (Graph.empty.add e).2 = e := Graph.fullDocument_add he
  unfold metaOf
  split_ifs with hnotes
  · rw [hempty hnotes] at hroot ⊢
    exact congrArg Except.ok hroot
  · have hlegacy : isLegacy (.record [("values", notes.toJson), ("v", .number 1)]) = .ok false := by
      have hless : Number.less 1 1 = false := by decide +kernel
      show Except.ok (Number.less 1 1) = _
      rw [hless]
    have hvalues : notesAt? (.record [("values", notes.toJson), ("v", .number 1)]) "values" = some notes.toJson := by
      have htruthy : isTruthy notes.toJson = true := by
        unfold Notes.toJson
        split <;> rfl
      show (some notes.toJson).filter isTruthy = _
      rw [Option.filter_some, if_pos htruthy]
    generalize hmeta : Json.record [("values", notes.toJson), ("v", .number 1)] = m at hlegacy hvalues
    have hshared : notesAt? m "referentialEqualities" = none := by
      rw [← hmeta]
      rfl
    have hm : ((Json.record [("json", j), ("meta", m)]).get? "meta").getD .null = m := rfl
    have hj : Document.ofOption (((Json.record [("json", j), ("meta", m)]).get? "json").map .ofJson) = .ofJson j := rfl
    simp only [ofJson, hm, hj, hvalues, hshared, hlegacy, Except.bind, bind, hrevive]
    exact congrArg Except.ok hroot

/-- The annotations of a plain document turn its plain JSON back into the document. -/
theorem ofJson_jsonOf (h : d.IsPlain host withBytes) (hsingular : d.singular.Nodup) :
    ofJson host (jsonOf d) = .ok d := by
  have htidy := Document.tidy_draft h
  have hvalue : d.draft.value = d := Document.stage_draft h
  have hrevive := Draft.reviveTree_notes htidy
  have hempty := Draft.value_eq_of_isEmpty htidy
  rw [Document.notes_draft h, Document.plain_draft h, hvalue] at hrevive hempty
  rw [jsonOf_of_isPlain h hsingular]
  exact ofJson_record hempty hrevive h

/-- **A plain document is read back from its payload text.** -/
theorem decodeText_chars (h : d.IsPlain host withBytes) (hsingular : d.singular.Nodup) :
    decodeText host (jsonOf d).chars = .ok d := by
  rw [decodeText, parse?_chars (readable_jsonOf h hsingular)]
  exact (if_pos (halvesPaired_chars _)).trans (ofJson_jsonOf h hsingular)

end Payload

end FailureWire
