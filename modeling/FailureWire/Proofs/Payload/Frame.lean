import FailureWire.Payload.Place
import FailureWire.Payload.Sharing
import FailureWire.Proofs.Number.Digits
import FailureWire.Proofs.Value.Order

/-!
# Places in records and lists

A place inside records and lists is what stands around it, container by container: a `Frame` is one container
without the part that leads to the place, and `plug` puts a document into the place. The path of a place leads to
it and to nothing else: whatever is done at the path is done to the document in the place, and all that stands
around it stays (`changeAtPath_plug`).
-/

namespace FailureWire.Payload

/-- A container without one of its parts. -/
inductive Frame where
  | field (before : Fields Document) (name : String) (after : Fields Document)
  | item (before after : List Document)

namespace Frame

/-- The key of the part. -/
def key : Frame → String
  | .field _ name _ => name
  | .item before _ => positionName before.length

/-- The part itself. -/
def part : Frame → Part
  | .field _ name _ => .field name
  | .item before _ => .item before.length

/-- The container with a document as the part. -/
def fill : Frame → Document → Document
  | .field before name after, d => .record (before ++ (name, d) :: after)
  | .item before after, d => .list (before ++ d :: after)

/-- The key leads to the part: a name stands at one field only and may be written, and a position is one. -/
def Fits : Frame → Prop
  | .field before name _ => name ∉ before.names ∧ Document.isUnsafeKey name = false
  | .item before _ => before.length < 4294967295

section
variable {f : Frame} {d e : Document}

theorem get?_append_cons {α : Type} {before after : Fields α} {name : String} {a : α} (h : name ∉ before.names) :
    Fields.get? (before ++ (name, a) :: after) name = some a := by
  induction before with
  | nil => simp [Fields.get?]
  | cons g rest ih =>
    obtain ⟨n, b⟩ := g
    obtain ⟨hne, hrest⟩ := not_or.1 (mt List.mem_cons.2 h)
    rw [List.cons_append, Fields.get?_cons, if_neg (Ne.symm hne), ih hrest]

theorem replace_append_cons {α : Type} {before after : Fields α} {name : String} {a b : α} (h : name ∉ before.names) :
    Fields.replace name b (before ++ (name, a) :: after) = before ++ (name, b) :: after := by
  induction before with
  | nil => simp [Fields.replace]
  | cons g rest ih =>
    obtain ⟨n, c⟩ := g
    obtain ⟨hne, hrest⟩ := not_or.1 (mt List.mem_cons.2 h)
    simp only [List.cons_append, Fields.replace, if_neg (Ne.symm hne), ih hrest]

theorem get?_fill (hf : f.Fits) : (f.fill d).container.get? f.part = some d := by
  cases f with
  | field before name after => exact get?_append_cons hf.1
  | item before after =>
    show (before ++ d :: after)[before.length]? = some d
    simp

theorem occupant_fill (hf : f.Fits) : occupant (f.fill d).container f.part = .part d := by
  have hget := get?_fill (d := d) hf
  cases f with
  | field before name after =>
    have hhas : Fields.has (before ++ (name, d) :: after) name = true := by
      rw [Fields.has, get?_append_cons hf.1]
      rfl
    simp only [fill, Document.container, part, occupant, hhas, if_true, Container.current, Container.get?,
      get?_append_cons hf.1, Option.getD_some]
  | item before after =>
    simp only [occupant, Container.current]
    exact congrArg (fun d => Occupant.part (Option.getD d _)) hget

theorem ofContainer_replace_fill (hf : f.Fits) :
    .ofContainer ((f.fill d).container.replace f.part e) (f.fill d) = f.fill e := by
  cases f with
  | field before name after => exact congrArg Document.record (replace_append_cons hf.1)
  | item before after =>
    refine congrArg Document.list ?_
    show (before ++ d :: after).set before.length e = before ++ e :: after
    simp

theorem ofContainer_change_fill (hf : f.Fits) :
    .ofContainer ((f.fill d).container.change Document.sameness f.part e) (f.fill d) = f.fill e := by
  cases f with
  | field before name after =>
    have hhas : Fields.has (before ++ (name, d) :: after) name = true := by
      rw [Fields.has, get?_append_cons hf.1]
      rfl
    refine congrArg Document.record ?_
    show Fields.set (before ++ (name, d) :: after) name e = _
    rw [Fields.set, if_pos hhas, replace_append_cons hf.1]
  | item before after =>
    have hlt : before.length < (before ++ d :: after).length := by simp
    simp only [fill, Document.container, part, Container.change, Container.setItem, if_pos hlt]
    refine congrArg Document.list ?_
    simp

end

theorem listPart_positionName {i : Nat} (hi : i < 4294967295) : listPart (positionName i) = .item i := by
  have hnumber : keyNumber (positionName i) = .ofInt i := by
    rw [keyNumber, positionName, String.toList_ofList, Number.ofText_toDigits (by omega)]
  have hname : String.ofList (Number.ofInt i).chars = positionName i := by
    rw [Number.chars_ofInt (by omega), Number.intChars, if_neg (by omega)]
    rfl
  simp only [listPart, hnumber, hname, positionOf?_positionName hi, Option.map_some, Option.getD_some]

theorem isUnsafeKey_positionName (i : Nat) : Document.isUnsafeKey (positionName i) = false := by
  have hne (s : String) (hs : s.toList.all Char.isDigit = false) : positionName i ≠ s := by
    rintro rfl
    rw [positionName, String.toList_ofList, List.all_eq_true.2 (Number.areDigits_toDigits i)] at hs
    cases hs
  simp [Document.isUnsafeKey, hne "__proto__" (by decide), hne "constructor" (by decide), hne "prototype" (by decide)]

theorem Fits.isUnsafeKey {f : Frame} (hf : f.Fits) : Document.isUnsafeKey f.key = false := by
  cases f with
  | field before name after => exact hf.2
  | item before after => exact isUnsafeKey_positionName _

end Frame

/-! ## Places -/

/-- A document in a place. -/
def plug (frames : List Frame) (d : Document) : Document := frames.foldr Frame.fill d

/-- The path of a place. -/
def pathOf (frames : List Frame) : List String := frames.map Frame.key

theorem plug_append (frames inner : List Frame) (d : Document) :
    plug (frames ++ inner) d = plug frames (plug inner d) := List.foldr_append

theorem pathOf_append (frames inner : List Frame) : pathOf (frames ++ inner) = pathOf frames ++ pathOf inner :=
  List.map_append

section
variable {frames : List Frame} {d e : Document} {f : Change}

theorem checkKeys_pathOf (hframes : ∀ frame ∈ frames, frame.Fits) : checkKeys (pathOf frames) = .ok () := by
  have hkeys : ∀ key ∈ pathOf frames, Document.isUnsafeKey key = false := by
    intro key hkey
    obtain ⟨frame, hframe, rfl⟩ := List.mem_map.1 hkey
    exact (hframes frame hframe).isUnsafeKey
  have hnone : ["__proto__", "prototype", "constructor"].find? (pathOf frames).contains = none := by
    refine List.find?_eq_none.2 fun key hkey hcontains => ?_
    have hsafe := hkeys key (List.contains_iff_mem.1 hcontains)
    simp only [List.mem_cons, List.not_mem_nil, or_false] at hkey
    rcases hkey with rfl | rfl | rfl <;> cases hsafe
  rw [checkKeys, hnone]

/-- A path of two or more keys leads through a list by the position that the first one names. -/
theorem resolve_list {ν : Type} {s : Sameness ν} {peek : ν → Container ν} {v w : ν} {items : List ν}
    {key next : String} {rest : List String} (previous : Option String) (hv : peek v = .list items)
    (hw : (Container.list items).get? (listPart key) = some w) :
    resolve s peek previous (key :: next :: rest) v =
      (do return Place.behind (listPart key) (← resolve s peek (some key) (next :: rest) w)) := by
  -- one step of the walk, computed: the equations of `resolve` take long to derive
  conv =>
    lhs
    whnf
  rw [hv]
  dsimp only
  rw [hw]

/-- It leads through a record by the name. -/
theorem resolve_record {ν : Type} {s : Sameness ν} {peek : ν → Container ν} {v w : ν} {fields : Fields ν}
    {key next : String} {rest : List String} (previous : Option String) (hv : peek v = .record fields)
    (hw : fields.get? key = some w) :
    resolve s peek previous (key :: next :: rest) v =
      (do return Place.behind (.field key) (← resolve s peek (some key) (next :: rest) w)) := by
  conv =>
    lhs
    whnf
  rw [hv]
  dsimp only
  rw [hw]

/-- The first key of a place's path leads into the outermost container. -/
theorem resolve_fill {outer : Frame} (houter : outer.Fits) (previous : Option String) (key : String)
    (rest : List String) :
    resolve Document.sameness Document.container previous (outer.key :: key :: rest) (outer.fill d) = (do
      return Place.behind outer.part
        (← resolve Document.sameness Document.container (some outer.key) (key :: rest) d)) := by
  have hget := Frame.get?_fill (d := d) houter
  cases outer with
  | field before name after => exact resolve_record previous rfl hget
  | item before after =>
    have hpart := Frame.listPart_positionName houter
    rw [Frame.key, resolve_list previous rfl (by rw [hpart]; exact hget), hpart, Frame.part]

/-- The path of a place ends there. -/
theorem resolve_plug {frame : Frame} : ∀ {frames : List Frame} (previous : Option String),
    (∀ f ∈ frames ++ [frame], f.Fits) →
      resolve Document.sameness Document.container previous (pathOf (frames ++ [frame])) (plug (frames ++ [frame]) d) =
        .ok (some ⟨frames.map Frame.part, frame.part⟩)
  | [], previous, hfits => by
    have hframe := hfits frame (List.mem_singleton_self frame)
    cases frame with
    | field before name after => rfl
    | item before after =>
      exact congrArg (fun part => Except.ok (some (Place.mk [] part))) (Frame.listPart_positionName hframe)
  | outer :: frames, previous, hfits => by
    obtain ⟨houter, hinner⟩ := List.forall_mem_cons.1 hfits
    have hresolve := resolve_plug (some outer.key) hinner
    obtain ⟨key, rest, hpath⟩ : ∃ key rest, pathOf (frames ++ [frame]) = key :: rest :=
      List.exists_cons_of_ne_nil (by simp [pathOf])
    have hcons : pathOf (outer :: frames ++ [frame]) = outer.key :: key :: rest := congrArg (outer.key :: ·) hpath
    rw [hpath] at hresolve
    rw [hcons]
    show resolve _ _ previous (outer.key :: key :: rest) (outer.fill (plug (frames ++ [frame]) d)) = _
    rw [resolve_fill houter, hresolve]
    rfl

theorem changeBehind_plug {g : Document → Except Fault Document} (hframes : ∀ frame ∈ frames, frame.Fits)
    (h : g d = .ok e) : changeBehind g (frames.map Frame.part) (plug frames d) = .ok (plug frames e) := by
  induction frames with
  | nil => exact h
  | cons outer frames ih =>
    obtain ⟨houter, hinner⟩ := List.forall_mem_cons.1 hframes
    show changeBehind g (outer.part :: frames.map Frame.part) (outer.fill (plug frames d)) =
      .ok (outer.fill (plug frames e))
    simp only [changeBehind, Frame.get?_fill houter, ih hinner]
    exact congrArg Except.ok (Frame.ofContainer_replace_fill houter)

/-- **What is done at the path of a place is done to what stands there.** -/
theorem changeAtPath_plug (hframes : ∀ frame ∈ frames, frame.Fits) (h : f (.part d) = .ok (some e)) :
    changeAtPath f (pathOf frames) (plug frames d) = .ok (plug frames e) := by
  rw [changeAtPath, checkKeys_pathOf hframes]
  rcases List.eq_nil_or_concat frames with rfl | ⟨init, frame, rfl⟩
  · show (do return (← f (.part d)).getD d) = Except.ok e
    rw [h]
    rfl
  · have hframe := hframes frame (by simp)
    have hinit : ∀ f ∈ init, f.Fits := fun f hf => hframes f (by simp [hf])
    have hpart : changePart f frame.part (frame.fill d) = .ok (frame.fill e) := by
      rw [changePart, Frame.occupant_fill hframe, h]
      exact congrArg Except.ok (Frame.ofContainer_change_fill hframe)
    have hne : (pathOf (init ++ [frame])).isEmpty = false := by simp [pathOf]
    have hchange := changeBehind_plug hinit hpart
    simp only [List.concat_eq_append] at *
    show (if (pathOf (init ++ [frame])).isEmpty = true then _ else _) = _
    rw [hne, resolve_plug none hframes]
    simp only [plug_append]
    exact hchange

end

end FailureWire.Payload
