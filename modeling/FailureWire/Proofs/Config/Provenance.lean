import FailureWire.Config.Loaded
import FailureWire.Proofs.Config.Sources
import FailureWire.Proofs.Number.Integer
import FailureWire.Proofs.Related
import FailureWire.Proofs.Wire.Shape

/-!
# Settings and where they come from

`Setting.Reads` says which values are valid for a setting, and what they stand for. Settings are loaded
(`loadFailureConverterConfig`) exactly if whatever the last sources give to their keys is valid. Then each setting has
the value that its last source gives it, and is explained by the name of that source, or else has its default
(`settings_loaded`). Other keys are named, and make no difference.
-/

namespace FailureWire

/-! ## Valid values -/

theorem Number.less_zero_iff {n : Number} {i : Int} (h : n.toInt? = some i) : Number.less 0 n = true ↔ 0 < i := by
  cases n with
  | nan | infinite => cases h
  | finite b o =>
    unfold Number.toInt? at h
    obtain ⟨hden, hnum⟩ := Option.ite_none_right_eq_some.1 h
    have hvalue : (Number.finite b o).value = i := by rw [← Option.some.inj hnum, Rat.coe_int_num_of_den_eq_one hden]
    have hzero : (0 : Number).value = 0 := Number.magnitude_zero
    show decide ((0 : Number).value < (Number.finite b o).value) = true ↔ 0 < i
    rw [decide_eq_true_iff, hzero, hvalue, Int.cast_pos]

/-- The value of a setting. -/
def Settings.value (l : Settings) : Setting → Value
  | .maxCauseDepth => .number l.maxCauseDepth
  | .reuseStoredFailure => .bool l.reuseStoredFailure
  | .encodeCommonAttributes => .bool l.encodeCommonAttributes
  | .includeStackTrace => .bool l.includeStackTrace
  | .logLevel => .text l.logLevel.name

namespace Setting

/-- A setting that is on or off. -/
def IsSwitch (s : Setting) : Prop := s ≠ .maxCauseDepth ∧ s ≠ .logLevel

/-- A value is valid for a setting, and stands for another one: the greatest depth reads as a positive safe integer, a
switch is a truth value or one of the words for it, in upper or lower case, and a log level is named. -/
inductive Reads (g : Graph) : Setting → Value → Value → Prop
  | depth {v : Value} {n : Number} {i : Int} : g.castNumber v = .ok n → n.toSafeInt? = some i → 0 < i →
    Reads g .maxCauseDepth v (.number n)
  | flag {s : Setting} (b : Bool) : s.IsSwitch → Reads g s (.bool b) (.bool b)
  | word {s : Setting} {word : String} {b : Bool} : s.IsSwitch →
    String.ofList (word.toList.map Char.toLower) ∈ (if b then Settings.trueWords else Settings.falseWords) →
      Reads g s (.text word) (.bool b)
  | level (l : LogLevel) : Reads g .logLevel (.text l.name) (.text l.name)

end Setting

namespace Settings

variable {g : Graph} {v w : Value}

theorem depthOf_eq_ok {n k : Number} :
    depthOf g n = .ok k ↔ k = n ∧ ∃ i, n.toSafeInt? = some i ∧ 0 < i := by
  unfold depthOf
  split
  next hfinite =>
    dsimp only
    constructor
    · intro h
      split at h
      next hnone =>
        obtain ⟨hint, hpositive⟩ := List.append_eq_nil_iff.1 hnone
        obtain ⟨i, hi⟩ := Schema.integerFindings_eq_nil.1 hint
        have hread := (Option.filter_eq_some_iff.1 hi).1
        refine ⟨(Except.ok.inj h).symm, i, hi, (Number.less_zero_iff hread).1 ?_⟩
        by_contra hless
        simp [hread, hless] at hpositive
      next => cases h
    · rintro ⟨rfl, i, hi, hpos⟩
      have hread := (Option.filter_eq_some_iff.1 hi).1
      have hless := (Number.less_zero_iff hread).2 hpos
      simp [Schema.integerFindings_eq_nil.2 ⟨i, hi⟩, hless]
  next hfinite =>
    refine iff_of_false nofun ?_
    rintro ⟨-, i, hi, -⟩
    exact hfinite (Graph.isFinite_of_toSafeInt? hi)

theorem reads_maxCauseDepth_iff :
    Setting.Reads g .maxCauseDepth v w ↔ ∃ n, readDepth g v = .ok n ∧ w = .number n := by
  unfold readDepth
  constructor
  · intro h
    cases h with
    | depth hcast hsafe hpos => exact ⟨_, by rw [hcast, depthOf_eq_ok]; exact ⟨rfl, _, hsafe, hpos⟩, rfl⟩
    | flag _ hs => exact absurd rfl hs.1
    | word hs _ => exact absurd rfl hs.1
  · rintro ⟨n, h, rfl⟩
    split at h
    next hcast =>
      obtain ⟨rfl, i, hsafe, hpos⟩ := depthOf_eq_ok.1 h
      exact .depth hcast hsafe hpos
    next => cases h

theorem flagOfWord?_eq_some {word : String} {b : Bool} : flagOfWord? word = some b ↔
    String.ofList (word.toList.map Char.toLower) ∈ if b then trueWords else falseWords := by
  have hdisjoint : ∀ word ∈ trueWords, word ∉ falseWords := by decide
  unfold flagOfWord?
  generalize String.ofList _ = lower
  dsimp only
  cases b with
  | true => by_cases h : lower ∈ trueWords <;> simp [h]
  | false =>
    by_cases h : lower ∈ trueWords
    · simp [h, hdisjoint _ h]
    · simp [h]

theorem reads_switch_iff {s : Setting} (hs : s.IsSwitch) :
    s.Reads g v w ↔ ∃ b, readFlag v = .ok b ∧ w = .bool b := by
  unfold readFlag
  constructor
  · intro h
    cases h with
    | depth => exact absurd rfl hs.1
    | flag b => exact ⟨b, rfl, rfl⟩
    | word _ hword => exact ⟨_, by simp [Value.bool?, Value.text?, flagOfWord?_eq_some.2 hword], rfl⟩
    | level => exact absurd rfl hs.2
  · rintro ⟨b, h, rfl⟩
    split at h
    next hread =>
      cases h
      cases v with
      | bool => cases hread; exact .flag _ hs
      | text => exact .word hs (flagOfWord?_eq_some.1 hread)
      | _ => cases hread
    next => cases h

theorem reads_logLevel_iff : Setting.Reads g .logLevel v w ↔ ∃ l, readLevel v = .ok l ∧ w = .text l.name := by
  unfold readLevel
  constructor
  · intro h
    cases h with
    | flag _ hs => exact absurd rfl hs.2
    | word hs _ => exact absurd rfl hs.2
    | level l => exact ⟨l, by simp [Value.text?, LogLevel.ofName?_name], rfl⟩
  · rintro ⟨l, h, rfl⟩
    split at h
    next hread =>
      cases h
      obtain ⟨name, hname, hl⟩ := Option.bind_eq_some_iff.1 hread
      cases v with
      | text name =>
        cases hname
        have hfound := List.find?_some (p := fun l : LogLevel => decide (l.name = name)) hl
        rw [← of_decide_eq_true hfound]
        exact .level l
      | _ => cases hname
    next => cases h

/-! ## Reading settings -/

/-- The value that a setting gets from merged values: what the value under its key stands for, or else its default. -/
def Settles (g : Graph) (merged : Fields Sourced) (s : Setting) (w : Value) : Prop :=
  match Fields.get? merged s.key with
  | some given => s.Reads g given.value w
  | none => w = Settings.default.value s

/-- A reader of one setting, and how its results are written as values. -/
structure ReadsBy {α : Type} (g : Graph) (s : Setting) (read : Value → Reading α) (otherwise : α)
    (write : α → Value) : Prop where
  reads : ∀ v w, s.Reads g v w ↔ ∃ a, read v = .ok a ∧ w = write a
  default : Settings.default.value s = write otherwise

theorem readOr_cases {α : Type} {s : Setting} {read : Value → Reading α} {otherwise : α} {write : α → Value}
    (h : ReadsBy g s read otherwise write) (merged : Fields Sourced) :
    (∃ a, readOr merged s read otherwise = .ok a ∧ Settles g merged s (write a)) ∨
      (∃ findings, readOr merged s read otherwise = .error findings) ∧ ∀ w, ¬ Settles g merged s w := by
  unfold readOr Settles
  cases Fields.get? merged s.key with
  | none => exact .inl ⟨otherwise, rfl, h.default.symm⟩
  | some given =>
    dsimp only
    cases hread : read given.value with
    | ok a => exact .inl ⟨a, rfl, (h.reads _ _).2 ⟨a, hread, rfl⟩⟩
    | error findings =>
      refine .inr ⟨⟨_, rfl⟩, fun w hw => ?_⟩
      obtain ⟨a, ha, -⟩ := (h.reads _ _).1 hw
      rw [hread] at ha
      cases ha

/-- **Settings are read exactly if each of them gets a value.** -/
theorem read_cases (g : Graph) (merged : Fields Sourced) :
    (∃ l, read g merged = .ok l ∧ ∀ s, Settles g merged s (l.value s)) ∨
      (∃ findings, read g merged = .error findings) ∧ ∃ s, ∀ w, ¬ Settles g merged s w := by
  have hswitch (s : Setting) (hs : s.IsSwitch) {b : Bool} (hb : Settings.default.value s = .bool b) :
      ReadsBy g s readFlag b .bool := ⟨fun _ _ => reads_switch_iff hs, hb⟩
  have hdepth : ReadsBy g .maxCauseDepth (readDepth g) default.maxCauseDepth .number :=
    ⟨fun _ _ => reads_maxCauseDepth_iff, rfl⟩
  have hlevel : ReadsBy g .logLevel readLevel default.logLevel (.text ·.name) :=
    ⟨fun _ _ => reads_logLevel_iff, rfl⟩
  have hreuse := hswitch .reuseStoredFailure ⟨nofun, nofun⟩ rfl
  have hencode := hswitch .encodeCommonAttributes ⟨nofun, nofun⟩ rfl
  have hstack := hswitch .includeStackTrace ⟨nofun, nofun⟩ rfl
  unfold read
  dsimp only
  rcases readOr_cases hdepth merged with ⟨depth, hd, hsd⟩ | ⟨⟨_, hd⟩, hbad⟩
  case inr => exact .inr ⟨by rw [hd]; exact ⟨_, rfl⟩, _, hbad⟩
  rcases readOr_cases hreuse merged with ⟨reuse, hr, hsr⟩ | ⟨⟨_, hr⟩, hbad⟩
  case inr => exact .inr ⟨by rw [hd, hr]; exact ⟨_, rfl⟩, _, hbad⟩
  rcases readOr_cases hencode merged with ⟨encode, he, hse⟩ | ⟨⟨_, he⟩, hbad⟩
  case inr => exact .inr ⟨by rw [hd, hr, he]; exact ⟨_, rfl⟩, _, hbad⟩
  rcases readOr_cases hstack merged with ⟨stack, hs, hss⟩ | ⟨⟨_, hs⟩, hbad⟩
  case inr => exact .inr ⟨by rw [hd, hr, he, hs]; exact ⟨_, rfl⟩, _, hbad⟩
  rcases readOr_cases hlevel merged with ⟨level, hl, hsl⟩ | ⟨⟨_, hl⟩, hbad⟩
  case inr => exact .inr ⟨by rw [hd, hr, he, hs, hl]; exact ⟨_, rfl⟩, _, hbad⟩
  refine .inl ⟨⟨depth, reuse, encode, stack, level⟩, by rw [hd, hr, he, hs, hl], fun s => ?_⟩
  cases s with
  | maxCauseDepth => exact hsd
  | reuseStoredFailure => exact hsr
  | encodeCommonAttributes => exact hse
  | includeStackTrace => exact hss
  | logLevel => exact hsl

end Settings

/-! ## First occurrences -/

section
variable {α : Type} [DecidableEq α] {x y : α}

theorem idxOf_lt_idxOf_of_filter (p : α → Bool) (hx : p x) (hy : p y) : ∀ {as : List α},
    (as.filter p).idxOf x < (as.filter p).idxOf y → as.idxOf x < as.idxOf y
  | [], h => h
  | a :: as, h => by
    by_cases hya : a = y
    · subst hya
      rw [List.filter_cons_of_pos hy, List.idxOf_cons_self] at h
      cases h
    rw [List.idxOf_cons_ne as hya]
    by_cases hxa : a = x
    · subst hxa
      rw [List.idxOf_cons_self]
      exact Nat.succ_pos _
    rw [List.idxOf_cons_ne as hxa]
    refine Nat.succ_lt_succ (idxOf_lt_idxOf_of_filter p hx hy ?_)
    by_cases ha : p a
    · rw [List.filter_cons_of_pos ha, List.idxOf_cons_ne _ hxa, List.idxOf_cons_ne _ hya] at h
      exact Nat.lt_of_succ_lt_succ h
    · rwa [List.filter_cons_of_neg ha] at h

/-- Without later duplicates, items stand in the order in which they first occur. -/
theorem pairwise_idxOf_eraseDups : ∀ as : List α, as.eraseDups.Pairwise fun a b => as.idxOf a < as.idxOf b
  | [] => List.Pairwise.nil
  | a :: as => by
    have hless := pairwise_idxOf_eraseDups (as.filter fun b => !b == a)
    rw [List.eraseDups_cons, List.pairwise_cons]
    have hother {b : α} (hb : b ∈ (as.filter fun b => !b == a).eraseDups) : (!b == a) = true :=
      (List.mem_filter.1 (List.mem_eraseDups.1 hb)).2
    constructor
    · intro b hb
      have hne : a ≠ b := fun h => by simpa [h] using hother hb
      rw [List.idxOf_cons_self, List.idxOf_cons_ne as hne]
      exact Nat.succ_pos _
    · refine hless.imp_of_mem fun {b c} hb hc hlt => ?_
      refine idxOf_lt_idxOf_of_filter (!· == a) (hother hb) (hother hc) ?_
      rwa [List.filter_cons_of_neg (by simp)]
  termination_by as => as.length
  decreasing_by exact Nat.lt_succ_of_le (List.length_filter_le ..)

end

/-! ## Loading -/

namespace LoadedSettings

open ConfigSource

variable {g : Graph} {origins others : List Origin} {l : LoadedSettings}

theorem load_eq (h : ∀ o ∈ origins, o.IsRecord) :
    load g (origins.map Origin.source) = match Settings.read g (mergedFrom origins) with
      | .ok settings => .ok ⟨settings, mergedFrom origins⟩
      | .error findings => .error (errorOf (origins.map Origin.source) findings) := by
  have hnothing : inherited g (origins.map Origin.source) = [] := by
    have hread (key : String) : g.read .undefined key = .undefined := rfl
    simp [inherited, heritage_eq_undefined h, hread]
  unfold load
  dsimp only
  rw [hnothing, List.append_nil]
  rfl

/-- The error about invalid settings names all sources. -/
theorem exists_errorOf (origins : List Origin) (findings : List Finding) :
    ∃ message, errorOf (origins.map Origin.source) findings =
      .configuration message (.list (origins.map fun o => .text o.source.name)) := by
  refine ⟨_, congrArg (fun names => ThrownError.configuration _ (.list names)) ?_⟩
  exact List.map_map

/-- What the last origin gives to a setting is no valid value for it. -/
def IsInvalid (g : Graph) (origins : List Origin) (s : Setting) : Prop :=
  ∃ o v, Decides origins s.key o v ∧ ∀ w, ¬ s.Reads g v w

/-- A setting is what the last origin gives to it, and the name of its source explains that, or else it has its
default. -/
inductive Explains (g : Graph) (origins : List Origin) (l : LoadedSettings) (s : Setting) : Prop
  | given {o : Origin} {v : Value} : Decides origins s.key o v → s.Reads g v (l.settings.value s) →
    l.explain s = o.source.name → Explains g origins l s
  | default : (∀ o ∈ origins, o.given? s.key = none) → l.settings.value s = Settings.default.value s →
    l.explain s = defaultSource → Explains g origins l s

/-- Origins with sources of the same names, which give the same to all settings. -/
def SameSettings (o o' : Origin) : Prop :=
  o.source.name = o'.source.name ∧ ∀ s : Setting, o.given? s.key = o'.given? s.key

/-- What loaded settings are asked for, except for the other keys. -/
def answers (l : LoadedSettings) : Settings × (Setting → String) × List String :=
  (l.settings, l.explain, l.sourcesUsed)

theorem explains_of_settles (h : ∀ o ∈ origins, o.IsRecord) {settings : Settings} {s : Setting}
    (hsettles : Settings.Settles g (mergedFrom origins) s (settings.value s)) :
    Explains g origins ⟨settings, mergedFrom origins⟩ s := by
  unfold Settings.Settles at hsettles
  rcases decides_or_none s.key origins with ⟨o, v, hdecides⟩ | hnone
  · have hget := get?_mergedFrom_of_decides h hdecides
    rw [hget] at hsettles
    exact .given hdecides hsettles (by rw [explain, hget]; rfl)
  · have hget := get?_mergedFrom_of_none h hnone
    rw [hget] at hsettles
    exact .default hnone hsettles (by rw [explain, hget]; rfl)

theorem isInvalid_iff (h : ∀ o ∈ origins, o.IsRecord) {s : Setting} :
    IsInvalid g origins s ↔ ∀ w, ¬ Settings.Settles g (mergedFrom origins) s w := by
  unfold Settings.Settles
  constructor
  · rintro ⟨o, v, hdecides, hbad⟩
    rwa [get?_mergedFrom_of_decides h hdecides]
  · intro hbad
    rcases decides_or_none s.key origins with ⟨o, v, hdecides⟩ | hnone
    · rw [get?_mergedFrom_of_decides h hdecides] at hbad
      exact ⟨o, v, hdecides, hbad⟩
    · rw [get?_mergedFrom_of_none h hnone] at hbad
      exact absurd rfl (hbad _)

theorem ofKey?_eq_none_iff {key : String} : Setting.ofKey? key = none ↔ ∀ s : Setting, s.key ≠ key := by
  unfold Setting.ofKey?
  rw [List.find?_eq_none]
  refine ⟨fun h s => ?_, fun h s _ => by simpa using h s⟩
  have hmem : s ∈ Setting.all := by cases s <;> decide
  simpa using h s hmem

theorem mem_unknownKeys (h : ∀ o ∈ origins, o.IsRecord) (hl : l.merged = mergedFrom origins) {key : String} :
    key ∈ l.unknownKeys ↔ (∀ s : Setting, s.key ≠ key) ∧ ∃ o ∈ origins, (o.given? key).isSome := by
  unfold unknownKeys
  rw [List.mem_filter, hl, mem_names_mergedFrom h, Option.isNone_iff_eq_none, ofKey?_eq_none_iff, and_comm]

theorem get?_mergedFrom_of_sameSettings (h : ∀ o ∈ origins, o.IsRecord) (h' : ∀ o ∈ others, o.IsRecord)
    (hsame : List.Forall₂ SameSettings origins others) (s : Setting) :
    Fields.get? (mergedFrom origins) s.key = Fields.get? (mergedFrom others) s.key := by
  have hsourced : origins.map (Origin.sourced? s.key) = others.map (Origin.sourced? s.key) := by
    refine map_eq_map_of_forall₂ (hsame.imp ?_)
    rintro o o' ⟨hname, hgiven⟩
    rw [Origin.sourced?, Origin.sourced?, hname, hgiven]
  have hfind (origins : List Origin) : origins.reverse.findSome? (Origin.sourced? s.key) =
      (origins.map (Origin.sourced? s.key)).reverse.findSome? id := by
    rw [← List.map_reverse, List.findSome?_map]
    rfl
  rw [get?_mergedFrom h, get?_mergedFrom h', hfind, hfind, hsourced]

/-- **Settings do not depend on what other keys are given.** -/
theorem load_of_sameSettings (h : ∀ o ∈ origins, o.IsRecord) (h' : ∀ o ∈ others, o.IsRecord)
    (hsame : List.Forall₂ SameSettings origins others) :
    (load g (origins.map Origin.source)).map answers = (load g (others.map Origin.source)).map answers := by
  have hget := get?_mergedFrom_of_sameSettings h h' hsame
  have hread : Settings.read g (mergedFrom origins) = Settings.read g (mergedFrom others) := by
    simp only [Settings.read, Settings.readOr, hget]
  have hexplain (settings : Settings) :
      explain ⟨settings, mergedFrom origins⟩ = explain ⟨settings, mergedFrom others⟩ := by
    funext s
    simp only [explain, hget]
  have hnames : origins.map (·.source.name) = others.map (·.source.name) :=
    map_eq_map_of_forall₂ (hsame.imp fun _ _ => And.left)
  rw [load_eq h, load_eq h', hread]
  cases Settings.read g (mergedFrom others) with
  | ok settings => simp only [Except.map, answers, sourcesUsed, hexplain]
  | error findings =>
    have htexts := congrArg (List.map Document.text) hnames
    rw [List.map_map, List.map_map] at htexts
    simp only [Except.map, errorOf, List.map_map]
    exact congrArg (fun names => Except.error (ThrownError.configuration _ (.list names))) htexts

end LoadedSettings

open ConfigSource LoadedSettings in
/-- **Settings are loaded exactly if what the last sources give is valid**, and then all of them are explained. Each
source that explains one is named once, in the order of the settings; so is each other key that some source gives a
value. Those keys make no difference. Where something is invalid, the error names all sources. -/
theorem settings_loaded (g : Graph) (origins : List Origin) (h : ∀ o ∈ origins, o.IsRecord) :
    ((∃ s, IsInvalid g origins s) ↔ ∃ message, load g (origins.map Origin.source) =
      .error (.configuration message (.list (origins.map fun o => .text o.source.name)))) ∧
    ((¬ ∃ s, IsInvalid g origins s) → ∃ l, load g (origins.map Origin.source) = .ok l ∧
      (∀ s, Explains g origins l s) ∧
      (∀ name, name ∈ l.sourcesUsed ↔ ∃ s, l.explain s = name) ∧
      (l.sourcesUsed.Pairwise fun a b => (Setting.all.map l.explain).idxOf a < (Setting.all.map l.explain).idxOf b) ∧
      (∀ key, key ∈ l.unknownKeys ↔ (∀ s : Setting, s.key ≠ key) ∧ ∃ o ∈ origins, (o.given? key).isSome) ∧
      l.unknownKeys.Nodup) ∧
    ∀ others : List Origin, (∀ o ∈ others, o.IsRecord) → List.Forall₂ SameSettings origins others →
      (load g (others.map Origin.source)).map answers = (load g (origins.map Origin.source)).map answers := by
  have hinvalid : (∃ s, IsInvalid g origins s) ↔ ∃ s, ∀ w, ¬ Settings.Settles g (mergedFrom origins) s w :=
    exists_congr fun s => isInvalid_iff h
  refine ⟨?_, fun hvalid => ?_, fun others h' hsame => (load_of_sameSettings h h' hsame).symm⟩
  · rw [hinvalid, load_eq h]
    rcases Settings.read_cases g (mergedFrom origins) with ⟨l, hread, hsettles⟩ | ⟨⟨findings, hread⟩, hbad⟩
    · refine iff_of_false (fun ⟨s, hbad⟩ => hbad _ (hsettles s)) ?_
      rw [hread]
      exact nofun
    · obtain ⟨message, hmessage⟩ := exists_errorOf origins findings
      exact iff_of_true hbad ⟨message, by rw [hread, ← hmessage]⟩
  · rw [hinvalid] at hvalid
    rcases Settings.read_cases g (mergedFrom origins) with ⟨settings, hread, hsettles⟩ | ⟨-, hbad⟩
    · refine ⟨⟨settings, mergedFrom origins⟩, by rw [load_eq h, hread], fun s => explains_of_settles h (hsettles s),
        fun name => ?_, pairwise_idxOf_eraseDups _, fun key => mem_unknownKeys h rfl, ?_⟩
      · rw [sourcesUsed, List.mem_eraseDups, List.mem_map]
        have hall (s : Setting) : s ∈ Setting.all := by cases s <;> decide
        exact ⟨fun ⟨s, _, hs⟩ => ⟨s, hs⟩, fun ⟨s, hs⟩ => ⟨s, hall s, hs⟩⟩
      · exact (inOrder_mergedFrom origins).nodup.filter _
    · exact absurd hbad hvalid

/-- An environment that sets a level, and code that leaves it open. -/
def levelAndColor : List ConfigSource.Origin :=
  [.environment "WEFT_" [("WEFT_LOG_LEVEL", .text "debug"), ("HOME", .text "/root")],
    .overrides [("LOG_LEVEL", .undefined), ("INCLUDE_STACK_TRACE", .text "Off"), ("COLOR", .text "red")]]

open ConfigSource LoadedSettings in
/-- An undefined value leaves a level to the environment. A key that is no setting is named. -/
theorem settings_loaded_levelAndColor : (∀ o ∈ levelAndColor, o.IsRecord) ∧
    ∃ l, load .empty (levelAndColor.map Origin.source) = .ok l ∧
      l.explain .logLevel = "env:WEFT_" ∧ "COLOR" ∈ l.unknownKeys := by
  have hrecords : ∀ o ∈ levelAndColor, o.IsRecord := by decide
  obtain ⟨hbad, hgood, -⟩ := settings_loaded .empty levelAndColor hrecords
  have hvalid : ¬ ∃ s, IsInvalid .empty levelAndColor s := by
    intro hinvalid
    obtain ⟨message, hload⟩ := hbad.1 hinvalid
    have hok : (load .empty (levelAndColor.map Origin.source)).toBool = true := by decide
    rw [hload] at hok
    cases hok
  obtain ⟨l, hload, hexplains, -, -, hunknown, -⟩ := hgood hvalid
  have hsource : (Fields.get? (mergedFrom levelAndColor) Setting.logLevel.key).map (·.source) = some "env:WEFT_" := by
    decide
  refine ⟨hrecords, l, hload, ?_, (hunknown "COLOR").2 ⟨fun s => by cases s <;> decide, by decide⟩⟩
  cases hexplains .logLevel with
  | given hdecides _ hname =>
    rw [get?_mergedFrom_of_decides hrecords hdecides] at hsource
    exact hname.trans (Option.some.inj hsource)
  | default hnone _ _ => cases hnone _ (List.mem_cons_self ..)

end FailureWire
