import FailureWire.Proofs.Payload.Draft
import FailureWire.Proofs.Text.Json
import FailureWire.Proofs.Time.Instant
import FailureWire.Proofs.Value.Plain

/-!
# Plain documents in payload text

A plain document consists of primitive values, valid dates, lists without gaps, records, sets and maps, each of which
is of the form that it has when it is built step by step. Its plain JSON and its annotations are those of a draft
(`plain_draft`, `notes_draft`) in which everything that JSON lacks is marked, and every transformation turns back what
it is meant for (`tidy_draft`). If nothing that has an identity occurs twice, payload text says no more than that
(`jsonOf_of_isPlain`), and it is read back as the document (`ofJson_jsonOf`).
-/

namespace FailureWire

namespace Document

open Payload

variable {host : Host} {withBytes : Bool}

/-! ## Drafts of documents -/

mutual
/-- The draft of a plain document: whatever JSON lacks is marked. -/
def draft : Document → Draft
  | .undefined => .marked .undefined (.leaf .null) .undefined
  | .bool b => .leaf (.bool b)
  | .number n =>
    if n = Number.negativeZero || !n.isFinite then .marked .number (.leaf (plainNumber n)) (.number n)
    else .leaf (.number n)
  | .text s => .leaf (.text s)
  | .big n => .marked .big (.leaf (.text (String.ofList (Number.intChars n)))) (.big n)
  | .date time => .marked .date (.leaf (plainDate time)) (.date time)
  | .pattern source flags =>
    .marked .pattern (.leaf (.text ("/" ++ source ++ "/" ++ flags))) (.pattern source flags)
  | .bytes data =>
    .marked (.numbers "Uint8Array") (.leaf (.list (data.map fun b => .number (.ofInt b.toNat)))) (.bytes data)
  | .numbers element items =>
    .marked (.numbers element.arrayName) (.leaf (.list (items.map .number))) (.numbers element items)
  | .record fields => .record (draftFields fields)
  | .list items => .list (draftItems items)
  | .set members => .marked .set (.list (draftItems members)) (.set members)
  | .map entries => .marked .map (.list (draftEntries entries)) (.map entries)
  | .error name message cause stack =>
    .marked .error (.record (("name", draft name) :: ("message", draft message) :: draftCause cause))
      (.error name message cause stack)
  | .boxed (.address a) => .marked .address (.leaf (.text a.href)) (.boxed (.address a))
  | .null | .sparse _ | .boxed _ | .again _ | .existing _ => .leaf .null
termination_by structural d => d

def draftFields : List (String × Document) → List (String × Draft)
  | [] => []
  | (k, d) :: rest => (k, draft d) :: draftFields rest
termination_by structural fs => fs

def draftItems : List Document → List Draft
  | [] => []
  | d :: rest => draft d :: draftItems rest
termination_by structural ds => ds

def draftEntries : List (Document × Document) → List Draft
  | [] => []
  | (k, d) :: rest => .list [draft k, draft d] :: draftEntries rest
termination_by structural es => es

def draftCause : Option Document → List (String × Draft)
  | none => []
  | some d => [("cause", draft d)]
termination_by structural d => d
end

theorem names_draftFields : ∀ fields : List (String × Document),
    (draftFields fields).map Prod.fst = Fields.names fields
  | [] => rfl
  | (k, _) :: rest => congrArg (k :: ·) (names_draftFields rest)

theorem length_draftItems : ∀ items : List Document, (draftItems items).length = items.length
  | [] => rfl
  | _ :: rest => congrArg (· + 1) (length_draftItems rest)

theorem length_draftEntries : ∀ entries : List (Document × Document), (draftEntries entries).length = entries.length
  | [] => rfl
  | _ :: rest => congrArg (· + 1) (length_draftEntries rest)

mutual
theorem plain_draft : ∀ {d : Document}, d.IsPlain host withBytes → d.draft.plain = d.plain
  | .undefined, _ | .null, _ | .bool _, _ | .text _, _ | .big _, _ | .date _, _ | .pattern _ _, _ | .bytes _, _
  | .numbers _ _, _ | .boxed (.address _), _ => rfl
  | .number n, _ => by
    simp only [draft]
    split
    · rfl
    · next h =>
      simp only [Bool.or_eq_true, decide_eq_true_eq, Bool.not_eq_true', not_or, Bool.not_eq_false] at h
      simp only [Draft.plain, plain, plainNumber, h.1, h.2, if_false, if_true]
  | .record _, h => congrArg Json.record (plainFields_draft h.2)
  | .list _, h => congrArg Json.list (plainItems_draft h.2)
  | .set _, h => congrArg Json.list (plainItems_draft h.2.2)
  | .map _, h => congrArg Json.list (plainEntries_draft h.2.2)
  | .error _ _ _ _, ⟨hname, ⟨s, hmessage⟩, hcause, _⟩ => by
    subst hmessage
    show Json.record (("name", _) :: ("message", .text s) :: _) = .record (("name", _) :: ("message", .text s) :: _)
    rw [plain_draft hname, plainCause_draft hcause]

theorem plainFields_draft : ∀ {fields : List (String × Document)}, PlainFields host withBytes fields →
    Draft.plainFields (draftFields fields) = plainFields fields
  | [], _ => rfl
  | (k, _) :: _, h => congrArg₂ List.cons (congrArg (Prod.mk k) (plain_draft h.2.1)) (plainFields_draft h.2.2)

theorem plainItems_draft : ∀ {items : List Document}, PlainItems host withBytes items →
    Draft.plainItems (draftItems items) = plainItems items
  | [], _ => rfl
  | _ :: _, h => congrArg₂ List.cons (plain_draft h.1) (plainItems_draft h.2)

theorem plainEntries_draft : ∀ {entries : List (Document × Document)}, PlainEntries host withBytes entries →
    Draft.plainItems (draftEntries entries) = plainEntries entries
  | [], _ => rfl
  | (k, d) :: _, h => by
    simp only [draftEntries, Draft.plainItems, Draft.plain, plainEntries, plain_draft h.1, plain_draft h.2.1,
      plainEntries_draft h.2.2]

theorem plainCause_draft : ∀ {cause : Option Document}, PlainCause host withBytes cause →
    Draft.plainFields (draftCause cause) = plainCause cause
  | some _, h => congrArg (fun j => [("cause", j)]) (plain_draft h)
end

mutual
theorem notes_draft : ∀ {d : Document}, d.IsPlain host withBytes → d.draft.notes = d.notes
  | .undefined, _ | .null, _ | .bool _, _ | .text _, _ | .big _, _ | .pattern _ _, _ | .bytes _, _
  | .numbers _ _, _ | .boxed (.address _), _ => rfl
  | .date _, ⟨ms, hms, htime⟩ => by
    rw [htime]
    simp only [draft, Draft.notes, notes, dateNotes,
      Number.toInt?_ofInt (Number.fits_of_natAbs_le (a := ms) (by omega)), Option.isSome_some, if_true]
    rfl
  | .number n, _ => by
    simp only [draft, notes]
    split <;> rfl
  | .record _, h => congrArg (Notes.above none) (notesOfFields_draft h.2)
  | .list _, h => congrArg (Notes.above none) (notesOfItems_draft 0 h.2)
  | .set _, h => congrArg (Notes.above (some .set)) (notesOfItems_draft 0 h.2.2)
  | .map _, h => congrArg (Notes.above (some .map)) (notesOfEntries_draft 0 h.2.2)
  | .error _ _ _ _, ⟨hname, ⟨_, hmessage⟩, hcause, _⟩ => by
    subst hmessage
    refine congrArg (Notes.above (some .error)) ?_
    exact congrArg₂ List.cons (congrArg (Notes.under "name") (notes_draft hname))
      (congrArg (Notes.under "message" .none :: ·) (notesOfCause_draft hcause))

theorem notesOfFields_draft : ∀ {fields : List (String × Document)}, PlainFields host withBytes fields →
    Draft.notesOfFields (draftFields fields) = notesOfFields fields
  | [], _ => rfl
  | (k, _) :: _, h => congrArg₂ List.cons (congrArg (Notes.under k) (notes_draft h.2.1)) (notesOfFields_draft h.2.2)

theorem notesOfItems_draft (i : Nat) : ∀ {items : List Document}, PlainItems host withBytes items →
    Draft.notesOfItems i (draftItems items) = notesOfItems i items
  | [], _ => rfl
  | _ :: _, h => congrArg₂ List.cons (congrArg (Notes.under _) (notes_draft h.1)) (notesOfItems_draft (i + 1) h.2)

theorem notesOfEntries_draft (i : Nat) : ∀ {entries : List (Document × Document)}, PlainEntries host withBytes entries →
    Draft.notesOfItems i (draftEntries entries) = notesOfEntries i entries
  | [], _ => rfl
  | (k, d) :: _, h => by
    simp only [draftEntries, Draft.notesOfItems, Draft.notes, notesOfEntries, notes_draft h.1, notes_draft h.2.1,
      notesOfEntries_draft (i + 1) h.2.2]

theorem notesOfCause_draft : ∀ {cause : Option Document}, PlainCause host withBytes cause →
    Draft.notesOfFields (draftCause cause) = notesOfCause cause
  | some _, h => congrArg (fun notes => [Notes.under "cause" notes]) (notes_draft h)
end

mutual
theorem stage_draft : ∀ {d : Document}, d.IsPlain host withBytes → d.draft.stage (fun _ => true) = d
  | .undefined, _ | .null, _ | .bool _, _ | .text _, _ | .big _, _ | .date _, _ | .pattern _ _, _ | .bytes _, _
  | .numbers _ _, _ | .boxed (.address _), _ | .set _, _ | .map _, _ | .error _ _ _ _, _ => rfl
  | .number n, _ => by
    simp only [draft]
    split <;> rfl
  | .record _, h => congrArg Document.record (stageFields_draft h.2)
  | .list _, h => congrArg Document.list (stageItems_draft 0 h.2)

theorem stageFields_draft : ∀ {fields : List (String × Document)}, PlainFields host withBytes fields →
    Draft.stageFields (fun _ => true) (draftFields fields) = fields
  | [], _ => rfl
  | (k, _) :: _, h => congrArg₂ List.cons (congrArg (Prod.mk k) (stage_draft h.2.1)) (stageFields_draft h.2.2)

theorem stageItems_draft (i : Nat) : ∀ {items : List Document}, PlainItems host withBytes items →
    Draft.stageItems (fun _ => true) i (draftItems items) = items
  | [], _ => rfl
  | _ :: _, h => congrArg₂ List.cons (stage_draft h.1) (stageItems_draft (i + 1) h.2)
end

theorem stageEntries_draft (i : Nat) : ∀ {entries : List (Document × Document)}, PlainEntries host withBytes entries →
    Draft.stageItems (fun _ => true) i (draftEntries entries) = entries.map fun e => .list [e.1, e.2]
  | [], _ => rfl
  | _ :: _, h => congrArg₂ List.cons
      (congrArg₂ (fun k d => Document.list [k, d]) (stage_draft h.1) (stage_draft h.2.1))
      (stageEntries_draft (i + 1) h.2.2)

/-! ## Transformations -/

theorem revive_word (word : String) (d : Document) :
    revive host (some (.text word)) (.part d) = (reviveByWord host word d).map some := by
  have hword : (ofJson (.text word)).toText = .ok word.toList := rfl
  simp only [revive, hword]
  show (do return some (← reviveByWord host (String.ofList word.toList) d)) = _
  rw [String.ofList_toList]
  rfl

theorem toBig_text {s : String} {n : Int} (h : Number.wholeOfText? s.toList = some n) :
    toBig (.text s) = .ok (.big n) := by
  have hprimitive : (Document.text s).primitive = .ok (.text s) := rfl
  simp only [toBig, hprimitive, Except.bind, bind, h]
  rfl

theorem revive_big (n : Int) :
    revive host (some Transformation.big.toJson) (.part (.text (String.ofList (Number.intChars n)))) =
      .ok (some (.big n)) := by
  rw [Transformation.toJson, revive_word]
  show (toBig _).map some = _
  rw [toBig_text (by rw [String.toList_ofList, Number.wholeOfText?_intChars])]
  rfl

theorem toInstant_text (s : String) :
    (Document.text s).toInstant = .ok (((Instant.parse? s.toList).map Number.ofInt).getD .nan) := rfl

theorem revive_date {ms : Int} (h : ms.natAbs ≤ 8640000000000000) :
    revive host (some Transformation.date.toJson) (.part (ofJson (plainDate (.ofInt ms)))) =
      .ok (some (.date (.ofInt ms))) := by
  have hplain : plainDate (.ofInt ms) = .text (String.ofList (Instant.chars ms)) := by
    rw [plainDate, Number.toInt?_ofInt (Number.fits_of_natAbs_le (by omega))]
  rw [hplain, Transformation.toJson, revive_word]
  simp only [ofJson, reviveByWord, toInstant_text, String.toList_ofList, Instant.parse?_chars h]
  rfl

/-- A number that JSON lacks is read off the way it is spelled. -/
theorem revive_number {n : Number} (h : (n = Number.negativeZero || !n.isFinite) = true) :
    revive host (some Transformation.number.toJson) (.part (ofJson (plainNumber n))) = .ok (some (.number n)) := by
  rw [Transformation.toJson, revive_word]
  have hspelled {s : String} (hs : Number.ofText s.toList = n) (hn : plainNumber n = .text s) :
      (reviveByWord host "number" (ofJson (plainNumber n))).map some = .ok (some (.number n)) := by
    rw [hn, ← hs]
    rfl
  cases n with
  | nan => exact hspelled (s := "NaN") (by decide +kernel) rfl
  | infinite b =>
    cases b
    · exact hspelled (s := "Infinity") (by decide +kernel) rfl
    · exact hspelled (s := "-Infinity") (by decide +kernel) rfl
  | finite b o =>
    simp only [Number.isFinite, Bool.not_true, Bool.or_false, decide_eq_true_eq] at h
    exact hspelled (s := "-0") (h ▸ by decide +kernel) (if_pos h)

theorem revive_set {members : List Document} (h : Container.setOf sameness members = members) :
    revive host (some Transformation.set.toJson) (.part (.list members)) = .ok (some (.set members)) := by
  rw [Transformation.toJson, revive_word]
  show Except.ok (some (Document.set (Container.setOf sameness members))) = _
  rw [h]

theorem revive_map {entries : List (Document × Document)} (h : Container.mapOf sameness entries = entries) :
    revive host (some Transformation.map.toJson) (.part (.list (entries.map fun e => .list [e.1, e.2]))) =
      .ok (some (.map entries)) := by
  have hentries : (entries.map fun e => Document.list [e.1, e.2]).mapM toEntry = .ok entries := by
    clear h
    induction entries with
    | nil => rfl
    | cons e rest ih =>
      rw [List.map_cons, List.mapM_cons, ih]
      rfl
  have hmap : toMap (.list (entries.map fun e => .list [e.1, e.2])) = .ok (.map entries) := by
    simp only [toMap, itemsOf, Except.bind, bind, hentries, h]
    rfl
  rw [Transformation.toJson, revive_word]
  exact congrArg (Except.map some) hmap

/-- A slash, a text, and what comes behind the last slash. -/
theorem splitAtSlash_slash {source flags : List Char} (h : '/' ∉ flags) :
    splitAtSlash (fun c => decide (c = '/')) ('/' :: (source ++ '/' :: flags)) = (source, flags) := by
  have hreverse : ('/' :: (source ++ '/' :: flags)).reverse = flags.reverse ++ '/' :: (source.reverse ++ ['/']) := by
    simp
  have hflags : ∀ c ∈ flags.reverse, (!decide (c = '/')) = true := by
    intro c hc
    have hne : c ≠ '/' := fun heq => h (heq ▸ List.mem_reverse.1 hc)
    simpa using hne
  have hbehind : (('/' :: (source ++ '/' :: flags)).reverse.takeWhile fun c => !decide (c = '/')).reverse = flags := by
    rw [hreverse, List.takeWhile_append_of_pos hflags]
    simp
  have hlength : ('/' :: (source ++ '/' :: flags)).length - flags.length - 1 = ('/' :: source).length := by
    simp only [List.length_cons, List.length_append]
    omega
  simp only [splitAtSlash, hbehind, List.any_cons, decide_true, Bool.true_or, if_true, hlength]
  rw [← List.cons_append, List.take_left, List.drop_one, List.tail_cons]

theorem revive_pattern {source flags : String} (hvalid : Pattern.isValid source.toList flags.toList = true)
    (hsource : Pattern.sourceText source.toList = source.toList)
    (hflags : Pattern.sortFlags flags.toList = flags.toList) :
    revive host (some Transformation.pattern.toJson) (.part (.text ("/" ++ source ++ "/" ++ flags))) =
      .ok (some (.pattern source flags)) := by
  have hslash : '/' ∉ flags.toList := by
    rw [← hflags, Pattern.sortFlags, List.mem_filter]
    exact fun h => absurd h.1 (by decide)
  have hlist : ("/" ++ source ++ "/" ++ flags).toList = '/' :: (source.toList ++ '/' :: flags.toList) := by
    simp
  have hpattern : patternOf source.toList flags.toList = .ok (.pattern source flags) := by
    rw [patternOf, if_pos hvalid, hsource, hflags, String.ofList_toList, String.ofList_toList]
  rw [Transformation.toJson, revive_word]
  simp only [reviveByWord, toPattern, hlist, splitAtSlash_slash hslash, hpattern]
  rfl

theorem mapM_toNumber (items : List Number) : (items.map Document.number).mapM toNumber = .ok items := by
  induction items with
  | nil => rfl
  | cons n rest ih =>
    rw [List.map_cons, List.mapM_cons, ih]
    rfl

theorem ofJsonItems_numbers (items : List Number) : ofJsonItems (items.map .number) = items.map .number := by
  induction items with
  | nil => rfl
  | cons n rest ih => exact congrArg (Document.number n :: ·) ih

/-- An address is read back from its text by a host that does so. -/
theorem revive_address {a : Address} (h : host.Reads a) :
    revive host (some Transformation.address.toJson) (.part (.text a.href)) = .ok (some (.boxed (.address a))) := by
  have htext : (Document.text a.href).toText = .ok a.href.toList := rfl
  have haddress : toAddress host (.text a.href) = .ok (.boxed (.address a)) := by
    unfold Host.Reads at h
    simp only [toAddress, htext, Except.bind, bind, h]
    rfl
  rw [Transformation.toJson, revive_word]
  exact congrArg (Except.map some) haddress

/-- An annotation that names a class of arrays turns numbers back into such an array. -/
theorem revive_numbersOf {name : String} (h : isInherited name = false) (items : List Number) :
    revive host (some (Transformation.numbers name).toJson) (.part (ofJson (.list (items.map .number)))) =
      (numbersOf name (.ok items)).map some := by
  have hname : (Document.text name).toText = .ok name.toList := rfl
  have hitems (hasRoom : Nat → Bool) : numberItems hasRoom (.list (items.map .number)) = .ok items :=
    mapM_toNumber items
  rw [ofJson, ofJsonItems_numbers]
  show (do
    let text ← (Document.text name).toText
    if isInherited (String.ofList text) then reviveByInherited (String.ofList text) _
    else
      some <$> numbersOf (String.ofList text)
        (numberItems (fun n => host.hasRoom (itemWidth (String.ofList text) * n)) (.list (items.map .number)))) = _
  rw [hname]
  show (if isInherited (String.ofList name.toList) then _ else _) = _
  rw [String.ofList_toList, h, hitems]
  rfl

theorem revive_numbers {element : ElementType} {items : List Number} (h : ∀ n ∈ items, element.store n = n) :
    revive host (some (Transformation.numbers element.arrayName).toJson) (.part (ofJson (.list (items.map .number)))) =
      .ok (some (.numbers element items)) := by
  have hinherited : isInherited element.arrayName = false := by cases element <;> decide
  have hname : element.arrayName ≠ "Uint8Array" := by cases element <;> decide
  have hstore : items.map element.store = items := (List.map_congr_left h).trans items.map_id
  rw [revive_numbersOf hinherited, numbersOf, if_neg hname, ElementType.ofArrayName?_arrayName]
  show Except.ok (some (Document.numbers element (items.map element.store))) = _
  rw [hstore]

theorem fits_byte (b : UInt8) : Number.Fits (b.toNat : Int) :=
  Number.fits_of_natAbs_le (by have := b.toNat_lt; omega)

theorem wrap_byte (b : UInt8) : UInt8.ofNat (ElementType.wrap 8 (.ofInt b.toNat)).toNat = b := by
  obtain ⟨o, ho, hvalue⟩ := Number.ofInt_of_fits (fits_byte b)
  have hpos : decide ((b.toNat : Int) < 0) = false := by simp
  have hmod : (b.toNat : Int) % Int.ofNat (Nat.pow 2 8) = b.toNat := by
    have hlt := b.toNat_lt
    show (b.toNat : Int) % 256 = b.toNat
    omega
  rw [hpos] at ho hvalue
  rw [ho]
  simp only [ElementType.wrap, Number.isNegative, Number.isFinite, hvalue, Bool.false_eq_true, if_false, if_true,
    Rat.floor_intCast, hmod]
  rw [Int.toNat_natCast, UInt8.ofNat_toNat]

theorem revive_bytes (data : Bytes) :
    revive host (some (Transformation.numbers "Uint8Array").toJson)
      (.part (ofJson (.list (data.map fun b => .number (.ofInt b.toNat))))) = .ok (some (.bytes data)) := by
  have hnumbers : (data.map fun b => Json.number (.ofInt b.toNat)) =
      (data.map fun b => Number.ofInt b.toNat).map .number := by
    rw [List.map_map]
    rfl
  have hdata : (data.map fun b => Number.ofInt b.toNat).map (fun n => UInt8.ofNat (ElementType.wrap 8 n).toNat) =
      data := by
    rw [List.map_map]
    exact List.map_id'' wrap_byte data
  rw [hnumbers, revive_numbersOf (by decide), numbersOf, if_pos rfl]
  show Except.ok (some (Document.bytes _)) = _
  rw [hdata]

theorem revive_error (name cause : Document) (message : String) :
    revive host (some Transformation.error.toJson)
      (.part (.record [("name", name), ("message", .text message), ("cause", cause)])) =
        .ok (some (.error name (.text message) (some cause) .undefined)) := by
  rw [Transformation.toJson, revive_word]
  show Except.ok (some (Document.error name (.text (String.ofList message.toList)) (some cause) .undefined)) = _
  rw [String.ofList_toList]

mutual
/-- **Every transformation turns back what it is meant for.** -/
theorem tidy_draft : ∀ {d : Document}, d.IsPlain host withBytes → d.draft.Tidy host
  | .undefined, _ => ⟨rfl, trivial, rfl⟩
  | .null, _ | .bool _, _ | .text _, _ => trivial
  | .big n, _ => ⟨rfl, trivial, revive_big n⟩
  | .date _, ⟨_, hms, htime⟩ => ⟨rfl, trivial, htime ▸ revive_date hms⟩
  | .number n, _ => by
    simp only [draft]
    split
    · next h => exact ⟨rfl, trivial, revive_number h⟩
    · exact trivial
  | .record fields, h => ⟨(names_draftFields fields).symm ▸ (Fields.inOrder_of_ofList h.1).nodup, tidyFields_draft h.2⟩
  | .list items, h => ⟨(length_draftItems items).trans_le h.1, tidyItems_draft h.2⟩
  | .set members, h => ⟨rfl, ⟨(length_draftItems members).trans_le h.1, tidyItems_draft h.2.2⟩, by
      have hvalue : (Draft.list (draftItems members)).value = .list members :=
        congrArg Document.list (stageItems_draft 0 h.2.2)
      rw [hvalue]
      exact revive_set h.2.1⟩
  | .map entries, h => ⟨rfl, ⟨(length_draftEntries entries).trans_le h.1, tidyEntries_draft h.2.2⟩, by
      have hvalue : (Draft.list (draftEntries entries)).value = .list (entries.map fun e => .list [e.1, e.2]) :=
        congrArg Document.list (stageEntries_draft 0 h.2.2)
      rw [hvalue]
      exact revive_map h.2.1⟩
  | .pattern _ _, ⟨hvalid, hsource, hflags⟩ => ⟨rfl, trivial, revive_pattern hvalid hsource hflags⟩
  | .boxed (.address _), h => ⟨rfl, trivial, revive_address h⟩
  | .bytes data, _ => ⟨rfl, trivial, revive_bytes data⟩
  | .numbers _ _, h => ⟨rfl, trivial, revive_numbers fun n hn => (h n hn).2.2⟩
  | .error name _ cause _, ⟨hname, ⟨s, hmessage⟩, hcause, hstack⟩ => by
    subst hmessage hstack
    cases cause with
    | none => exact hcause.elim
    | some d =>
      have hnodup : ["name", "message", "cause"].Nodup := by decide
      refine ⟨rfl, ⟨hnodup, ⟨by decide, tidy_draft hname, by decide, trivial, by decide, tidy_draft hcause, trivial⟩⟩,
        ?_⟩
      have hvalue : (Draft.record (("name", name.draft) :: ("message", draft (.text s)) :: draftCause (some d))).value =
          .record [("name", name), ("message", .text s), ("cause", d)] := by
        show Document.record [("name", _), ("message", .text s), ("cause", _)] = _
        rw [stage_draft hname, stage_draft hcause]
      rw [hvalue]
      exact revive_error name d s

theorem tidyFields_draft : ∀ {fields : List (String × Document)}, PlainFields host withBytes fields →
    Draft.TidyFields host (draftFields fields)
  | [], _ => trivial
  | _ :: _, h => ⟨h.1, tidy_draft h.2.1, tidyFields_draft h.2.2⟩

theorem tidyItems_draft : ∀ {items : List Document}, PlainItems host withBytes items →
    Draft.TidyItems host (draftItems items)
  | [], _ => trivial
  | _ :: _, h => ⟨tidy_draft h.1, tidyItems_draft h.2⟩

theorem tidyEntries_draft : ∀ {entries : List (Document × Document)}, PlainEntries host withBytes entries →
    Draft.TidyItems host (draftEntries entries)
  | [], _ => trivial
  | _ :: _, h => ⟨⟨by simp, tidy_draft h.1, tidy_draft h.2.1, trivial⟩, tidyEntries_draft h.2.2⟩
end

end Document

end FailureWire
