import FailureWire.Log.Logger
import FailureWire.Proofs.Config.Sources
import FailureWire.Proofs.Log.Outcome
import FailureWire.Proofs.Log.Rendering

/-!
# The line of a message

A logger descends from others, and each of them has a context. A name in a line has the value that it has in the fields
given with the message, or else in the nearest context that defines it (`Nearest`). `exists_line_of_tidy` says that this
is what a line reads, and that nothing else is needed to know the line than the scopes on the way to the logger: the
fields given, and the contexts, the nearest first.

Some names have a meaning of their own, for the logger or for the line, and some are inherited by every object, so that
what writes a field is not found under them. Scopes without such names are tidy (`Graph.TidyScope`).
-/

namespace FailureWire

/-! ## The last field of a name -/

namespace Fields

variable {α : Type}

theorem get?_setAll (fields others : Fields α) (name : String) :
    get? (setAll fields others) name = (get? (ofList others) name).or (get? fields name) := by
  induction others generalizing fields with
  | nil => rfl
  | cons f rest ih =>
    have hset (fs : Fields α) : setAll fs (f :: rest) = setAll (fs.set f.1 f.2) rest := rfl
    rw [ofList, hset, hset, ih, ih (set [] f.1 f.2), get?_set, get?_set]
    split <;> simp [get?]

end Fields

namespace LogFields

variable {a b fields : LogFields} {name : String} {j : Json}

@[simp] theorem read_nil (name : String) : read [] name = none := rfl

/-- Of two parts of a line the latter counts. -/
theorem read_append (a b : LogFields) (name : String) : read (a ++ b) name = (read b name).or (read a name) := by
  rw [read, Fields.ofList, Fields.setAll, List.foldl_append]
  exact Fields.get?_setAll _ b name

theorem read_cons (n : String) (j : Json) (fields : LogFields) (name : String) :
    read ((n, j) :: fields) name = (read fields name).or (if n = name then some j else none) := by
  rw [← List.singleton_append, read_append]
  congr 1
  exact Fields.get?_set [] n j name

theorem read_eq_none (h : name ∉ Fields.names fields) : read fields name = none := by
  induction fields with
  | nil => rfl
  | cons f rest ih =>
    obtain ⟨hne, hrest⟩ := not_or.1 (mt List.mem_cons.2 h)
    rw [read_cons, ih hrest, if_neg (Ne.symm hne)]
    rfl

theorem read_of_nodup (h : (Fields.names fields).Nodup) : read fields name = Fields.get? fields name := by
  induction fields with
  | nil => rfl
  | cons f rest ih =>
    obtain ⟨hnew, hrest⟩ := List.nodup_cons.1 h
    rw [read_cons, ih hrest, Fields.get?_cons]
    split
    next hname =>
      rw [← ih hrest, read_eq_none (hname ▸ hnew)]
      rfl
    next => exact Option.or_none

end LogFields

/-! ## Tidy scopes -/

/-- The names that mean something to a logger, in a context or in what is given with a message, or that a line has for
itself. -/
def reservedNames : List String :=
  ["level", "time", "pid", "hostname", "msg", "err", "serializers", "formatters", "customLevels", "method", "headers",
    "socket", "hasOwnProperty", "__proto__"]

/-- A name may be that of any field: it needs no escapes, no object inherits it, and nobody else uses it. -/
structure TidyName (name : String) : Prop where
  plain : LogFields.isPlain name = true
  own : isInherited name = false
  free : name ∉ reservedNames

namespace Graph

variable {g : Graph} {v : Value} {fields : Fields Value} {fs : LogFields} {name : String}

def scopeFields (g : Graph) (v : Value) : Fields Value :=
  match g.objectOf? v with
  | some (.record fields) => fields
  | _ => []

/-- A field has a tidy name and is a JSON value, or undefined. -/
structure TidyField (g : Graph) (f : String × Value) : Prop where
  name : TidyName f.1
  value : f.2 = .undefined ∨ ∃ j, g.Means f.2 j

/-- A scope is a record of tidy fields, or missing. -/
inductive TidyScope (g : Graph) : Value → Prop
  | absent : TidyScope g .undefined
  | record {v : Value} {fields : Fields Value} : g.objectOf? v = some (.record fields) → (Fields.names fields).Nodup →
    (∀ f ∈ fields, g.TidyField f) → TidyScope g v

theorem TidyScope.nodup (h : g.TidyScope v) : (Fields.names (g.scopeFields v)).Nodup := by
  cases h with
  | absent => exact List.nodup_nil
  | record hv hnodup _ => simpa [scopeFields, hv] using hnodup

theorem TidyScope.tidyField (h : g.TidyScope v) : ∀ f ∈ g.scopeFields v, g.TidyField f := by
  cases h with
  | absent => simp [scopeFields, objectOf?, Value.id?]
  | record hv _ hfields => simpa [scopeFields, hv] using hfields

theorem TidyScope.listing (h : g.TidyScope v) : g.listing v = (g.scopeFields v).mapValues .existing := by
  cases h with
  | absent => rfl
  | record hv _ _ => simp only [Graph.listing, scopeFields, hv]

theorem TidyScope.read (h : g.TidyScope v) (name : String) :
    g.read v name = .ofOption (Fields.get? (g.scopeFields v) name) := by
  cases h with
  | absent => rfl
  | record hv _ _ => simp only [Graph.read, Graph.get?, scopeFields, hv]

theorem TidyScope.errorOf?_eq_none (h : g.TidyScope v) : g.errorOf? v = none := by
  cases h with
  | absent => rfl
  | record hv _ _ => simp only [errorOf?, hv]

theorem TidyScope.read_reserved (h : g.TidyScope v) (hname : name ∈ reservedNames) : g.read v name = .undefined := by
  rw [h.read, Fields.get?_eq_none_iff.2]
  · rfl
  · intro hmem
    obtain ⟨f, hf, rfl⟩ := List.mem_map.1 hmem
    exact (h.tidyField f hf).name.free hname

theorem TidyScope.isRequest_eq_false (h : g.TidyScope v) : g.isRequest v = false := by
  have hmethod : "method" ∈ reservedNames := by decide
  simp [isRequest, h.read_reserved hmethod, Value.isTruthy]

theorem TidyScope.messageOf (h : g.TidyScope v) (s : String) : g.messageOf v (.text s) = .ok (.text s) := by
  cases h with
  | absent => rfl
  | record hv _ _ =>
    obtain ⟨id, rfl, -⟩ := objectOf?_eq_some.1 hv
    rfl

/-! ## What a scope adds to a line -/

/-- Fields add those of them that are defined. -/
inductive Adds (g : Graph) : Fields Value → LogFields → Prop
  | nil : Adds g [] []
  | undefined (name : String) {fields : Fields Value} {fs : LogFields} : Adds g fields fs →
    Adds g ((name, .undefined) :: fields) fs
  | field (name : String) {v : Value} {j : Json} {fields : Fields Value} {fs : LogFields} : g.Means v j →
    Adds g fields fs → Adds g ((name, v) :: fields) ((name, j) :: fs)

theorem exists_adds : ∀ {fields : Fields Value}, (∀ f ∈ fields, g.TidyField f) → ∃ fs, g.Adds fields fs
  | [], _ => ⟨[], .nil⟩
  | (name, v) :: rest, h => by
    rw [List.forall_mem_cons] at h
    obtain ⟨fs, hfs⟩ := exists_adds h.2
    rcases h.1.value with rfl | ⟨j, hj⟩
    · exact ⟨fs, .undefined name hfs⟩
    · exact ⟨(name, j) :: fs, .field name hj hfs⟩

theorem Adds.names_sublist (h : g.Adds fields fs) : (Fields.names fs).Sublist (Fields.names fields) := by
  induction h with
  | nil => exact .slnil
  | undefined name _ ih => exact ih.cons name
  | field name _ _ ih => exact ih.cons_cons name

theorem Adds.readable (h : g.Adds fields fs) : Json.ReadableFields fs := by
  induction h with
  | nil => trivial
  | undefined _ _ ih => exact ih
  | field _ hj _ ih => exact ⟨hj.readable, ih⟩

/-- What is added under a name: the JSON value of the field of the name, nothing if it is undefined. -/
theorem Adds.get? (h : g.Adds fields fs) (hnodup : (Fields.names fields).Nodup) (name : String) :
    Option.Rel g.Means ((Fields.get? fields name).filter (· ≠ .undefined)) (Fields.get? fs name) := by
  induction h with
  | nil => exact .none
  | @undefined n fields fs hfs ih =>
    obtain ⟨hnew, hrest⟩ := List.nodup_cons.1 hnodup
    rw [Fields.get?_cons]
    split
    next hname =>
      have hnone : Fields.get? fs name = none :=
        Fields.get?_eq_none_iff.2 fun hmem => hnew (hname ▸ hfs.names_sublist.subset hmem)
      rw [hnone]
      exact .none
    next => exact ih hrest
  | @field n v j fields fs hj _ ih =>
    rw [Fields.get?_cons, Fields.get?_cons]
    split
    next =>
      have hdefined : v ≠ .undefined := by
        rintro rfl
        exact not_means_undefined hj
      rw [Option.filter_some_pos (by simpa using hdefined)]
      exact .some hj
    next => exact ih (List.nodup_cons.1 hnodup).2

end Graph

namespace LogFields

variable {g : Graph} {asIs : Bool} {fields : Fields Value} {fs : LogFields}

theorem ofFields_cons {name : String} {d : Document} {rest : Fields Document} {part more : LogFields}
    (hpart : ofField g asIs name d = .ok (some part)) (hrest : ofFields g asIs rest = .ok (some more)) :
    ofFields g asIs ((name, d) :: rest) = .ok (some (part ++ more)) := by
  obtain ⟨parts, hparts, hmore⟩ := Except.bind_eq_ok.1 hrest
  obtain ⟨written, hwritten, rfl⟩ := Option.map_eq_some_iff.1 (Except.ok.inj hmore)
  refine Except.bind_eq_ok.2 ⟨some part :: parts, ?_, ?_⟩
  · rw [List.mapM_cons, hpart, hparts]
    rfl
  · rw [List.mapM_cons, hwritten]
    rfl

theorem ofField_undefined (name : String) : ofField g asIs name (.existing .undefined) = .ok (some []) := rfl

/-- **A tidy field is written as it is**, be its name escaped or not. -/
theorem ofField_of_means {name : String} {v : Value} {j : Json} (hname : TidyName name) (h : g.Means v j) :
    ofField g asIs name (.existing v) = .ok (some [(name, j)]) := by
  have hdefined : (Document.existing v).isDefined = true := by
    cases v <;> first | rfl | exact absurd h Graph.not_means_undefined
  have hkey : name ≠ errorKey := fun heq => hname.free (heq ▸ by decide)
  have hjson : jsonOf g name (.existing v) = .ok (some j) := by
    rw [jsonOf, if_neg hkey, Graph.render_of_means h]
  rw [ofField, hdefined, hname.own, hjson]
  simp [hname.plain, pure, Except.pure]

/-- **Tidy fields are written as they are.** -/
theorem ofFields_of_adds (asIs : Bool) (hnames : ∀ f ∈ fields, TidyName f.1) (h : g.Adds fields fs) :
    ofFields g asIs (fields.mapValues .existing) = .ok (some fs) := by
  induction h with
  | nil => rfl
  | undefined name _ ih =>
    rw [List.forall_mem_cons] at hnames
    exact ofFields_cons (ofField_undefined name) (ih hnames.2)
  | field name hj _ ih =>
    rw [List.forall_mem_cons] at hnames
    exact ofFields_cons (ofField_of_means hnames.1 hj) (ih hnames.2)

end LogFields

/-! ## Scopes on the way to a logger -/

/-- A context, or the fields given with a message, as they are when they are given. -/
structure LogScope where
  graph : Graph
  value : Value

namespace LogScope

def Tidy (s : LogScope) : Prop := s.graph.TidyScope s.value

/-- What the nearest scope that defines a name has under it, if one does. -/
inductive Nearest (name : String) : List LogScope → Option Json → Prop
  | nowhere : Nearest name [] none
  | here {s : LogScope} {outer : List LogScope} {j : Json} : s.graph.Means (s.graph.read s.value name) j →
    Nearest name (s :: outer) (some j)
  | further {s : LogScope} {outer : List LogScope} {found : Option Json} : s.graph.read s.value name = .undefined →
    Nearest name outer found → Nearest name (s :: outer) found

/-- A name has one value at most. -/
theorem Nearest.unique {name : String} {scopes : List LogScope} {found found' : Option Json}
    (h : Nearest name scopes found) (h' : Nearest name scopes found') : found = found' := by
  induction h with
  | nowhere =>
    cases h'
    rfl
  | here hj =>
    cases h' with
    | here hj' => rw [hj.unique hj']
    | further hundefined _ => exact absurd (hundefined ▸ hj) Graph.not_means_undefined
  | further hundefined _ ih =>
    cases h' with
    | here hj' => exact absurd (hundefined ▸ hj') Graph.not_means_undefined
    | further _ hrest => exact ih hrest

/-- The fields of scopes, the nearest scope first; its fields are written last. -/
inductive Written : List LogScope → LogFields → Prop
  | nil : Written [] []
  | cons {s : LogScope} {outer : List LogScope} {before fs : LogFields} : Written outer before →
    s.graph.Adds (s.graph.scopeFields s.value) fs → Written (s :: outer) (before ++ fs)

variable {scopes : List LogScope} {fs : LogFields} {name : String}

theorem Written.tidyName (h : Written scopes fs) (htidy : ∀ s ∈ scopes, s.Tidy) : ∀ f ∈ fs, TidyName f.1 := by
  induction h with
  | nil => simp
  | cons _ hadds ih =>
    rw [List.forall_mem_cons] at htidy
    rw [List.forall_mem_append]
    refine ⟨ih htidy.2, fun f hf => ?_⟩
    obtain ⟨f', hf', hname⟩ := List.mem_map.1 (hadds.names_sublist.subset (List.mem_map_of_mem hf))
    exact hname ▸ (htidy.1.tidyField f' hf').name

theorem readableFields_append {a b : LogFields} (ha : Json.ReadableFields a) (hb : Json.ReadableFields b) :
    Json.ReadableFields (a ++ b) := by
  induction a with
  | nil => exact hb
  | cons f rest ih => exact ⟨ha.1, ih ha.2⟩

theorem Written.readable (h : Written scopes fs) : Json.ReadableFields fs := by
  induction h with
  | nil => trivial
  | cons _ hadds ih => exact readableFields_append ih hadds.readable

/-- **A name has the value of the nearest scope that defines it.** -/
theorem Written.nearest (h : Written scopes fs) (htidy : ∀ s ∈ scopes, s.Tidy) (name : String) :
    Nearest name scopes (LogFields.read fs name) := by
  induction h with
  | nil => exact .nowhere
  | @cons s outer before fs _ hadds ih =>
    rw [List.forall_mem_cons] at htidy
    have hrel := hadds.get? htidy.1.nodup name
    have hread := Graph.TidyScope.read htidy.1 name
    rw [LogFields.read_append, LogFields.read_of_nodup (htidy.1.nodup.sublist hadds.names_sublist)]
    generalize Fields.get? fs name = added at hrel
    cases hv : Fields.get? (s.graph.scopeFields s.value) name with
    | none =>
      rw [hv] at hrel hread
      cases hrel
      exact .further hread (ih htidy.2)
    | some v =>
      rw [hv] at hrel hread
      by_cases hdefined : v = .undefined
      · subst hdefined
        cases hrel
        exact .further hread (ih htidy.2)
      · rw [Option.filter_some_pos (by simpa using hdefined)] at hrel
        cases hrel with
        | some hj => exact .here (hread ▸ hj)

theorem exists_written : ∀ {scopes : List LogScope}, (∀ s ∈ scopes, s.Tidy) → ∃ fs, Written scopes fs
  | [], _ => ⟨[], .nil⟩
  | s :: outer, h => by
    rw [List.forall_mem_cons] at h
    obtain ⟨before, hbefore⟩ := exists_written h.2
    obtain ⟨fs, hadds⟩ := Graph.exists_adds h.1.tidyField
    exact ⟨before ++ fs, .cons hbefore hadds⟩

end LogScope

/-! ## Loggers -/

namespace Logger

variable {level threshold : LogLevel} {g : Graph} {context fields : Value} {before fs : LogFields}
    {scopes : List LogScope}

/-- The logger at the end of a way, from contexts alone, the nearest first. -/
def along (threshold : LogLevel) : List LogScope → Except Fault Logger
  | [] => .ok ⟨some threshold, some []⟩
  | s :: outer => do child (← along threshold outer) s.graph s.value

/-- **A child has the fields of its parent, and behind them those of its context.** -/
theorem child_of_tidy (htidy : g.TidyScope context) (hadds : g.Adds (g.scopeFields context) fs) :
    child ⟨some threshold, some before⟩ g context = .ok ⟨some threshold, some (before ++ fs)⟩ := by
  have hnames : ∀ f ∈ g.scopeFields context, TidyName f.1 := fun f hf => (htidy.tidyField f hf).name
  have hset : contextFields g context = (g.scopeFields context).mapValues .existing := by
    have hkept : ((g.scopeFields context).mapValues Document.existing).filter (fun f => !setupKeys.contains f.1) =
        (g.scopeFields context).mapValues .existing := by
      rw [List.filter_eq_self]
      intro f hf
      obtain ⟨f', hf', rfl⟩ := List.mem_map.1 hf
      have hfree := (hnames f' hf').free
      simp only [reservedNames, List.mem_cons, not_or] at hfree
      simp [setupKeys, levelKey, hfree]
    unfold contextFields
    split
    · cases htidy with
      | record hv => cases hv
    · rw [htidy.listing, hkept]
  have hpresent : (context ≠ .undefined && !context.isTruthy) = false := by
    cases htidy with
    | absent => rfl
    | record hv _ _ => simp [Graph.isTruthy_of_objectOf? hv]
  have hown : ((g.scopeFields context).mapValues Document.existing).has ownershipKey = false := by
    rw [Bool.eq_false_iff, Ne, Fields.has_iff_mem_names]
    intro hmem
    obtain ⟨f, hf, hname⟩ := List.mem_map.1 hmem
    obtain ⟨f', hf', rfl⟩ := List.mem_map.1 hf
    exact (hnames f' hf').free (hname ▸ by decide)
  have hadded := LogFields.ofFields_of_adds true hnames hadds
  simp only [child, hset, hpresent, hown, hadded]
  rfl

/-- **A logger at the end of a tidy way has the fields of the contexts on it.** -/
theorem along_of_written (htidy : ∀ s ∈ scopes, s.Tidy) (h : LogScope.Written scopes fs) :
    along threshold scopes = .ok ⟨some threshold, some fs⟩ := by
  induction h with
  | nil => rfl
  | cons _ hadds ih =>
    rw [List.forall_mem_cons] at htidy
    rw [along, ih htidy.2]
    exact child_of_tidy htidy.1 hadds

/-- The line of a message has its level in front of the fields of the contexts and those given, and the message behind
them. -/
theorem line_of_tidy (htidy : g.TidyScope fields) (hadds : g.Adds (g.scopeFields fields) fs) (message : String) :
    line ⟨some threshold, some before⟩ g level (.text message) fields =
      .ok (some ((levelKey, .number (.ofInt level.severity)) :: (before ++ fs) ++ [(messageKey, .text message)])) := by
  have hgiven : given g fields = (g.scopeFields fields).mapValues .existing := by
    simp [given, htidy.isRequest_eq_false, htidy.errorOf?_eq_none, htidy.listing]
  have hmessage : messageFields g fields (.text message) = .ok [(messageKey, .text message)] := by
    rw [messageFields, htidy.isRequest_eq_false, htidy.messageOf]
    simp [Graph.render_of_means (.text message)]
  have hadded := LogFields.ofFields_of_adds false (fun f hf => (htidy.tidyField f hf).name) hadds
  simp only [line, hmessage, hgiven, hadded]
  simp

theorem emits_iff {context : Option LogFields} :
    emits ⟨some threshold, context⟩ level = true ↔ threshold.severity ≤ level.severity := by
  simp [emits]

/-- **A message that is severe enough becomes its line.** -/
theorem log_of_tidy (hsevere : threshold.severity ≤ level.severity) (htidy : g.TidyScope fields)
    (hadds : g.Adds (g.scopeFields fields) fs) (message : String) :
    log ⟨some threshold, some before⟩ g level (.text message) fields =
      .ok (some ((levelKey, .number (.ofInt level.severity)) :: (before ++ fs) ++ [(messageKey, .text message)])) := by
  rw [log, if_pos (emits_iff.2 hsevere), line_of_tidy htidy hadds]
  rfl

theorem log_of_not_emits {l : Logger} (h : ¬ l.emits level = true) (message : Value) :
    log l g level message fields = .ok none := if_neg h

end Logger

/-! ## What a line says -/

/-- A line for a message: read as JSON it has the message, the level, and under every other name what the nearest scope
has that defines it. -/
structure IsLine (level : LogLevel) (message : String) (scopes : List LogScope) (line : LogFields) : Prop where
  spelled : Json.parse? (Json.record line).chars = some (.record (Fields.ofList line))
  message : line.read Logger.messageKey = some (.text message)
  level : line.read Logger.levelKey = some (.number (.ofInt level.severity))
  others : ∀ name, name ≠ Logger.messageKey → name ≠ Logger.levelKey → LogScope.Nearest name scopes (line.read name)

/-- **The fields of tidy scopes, between a level and a message, are the line for the message.** -/
theorem LogScope.Written.isLine {scopes : List LogScope} {fs : LogFields} (h : Written scopes fs)
    (htidy : ∀ s ∈ scopes, s.Tidy) (level : LogLevel) (message : String) :
    IsLine level message scopes
      ((Logger.levelKey, .number (.ofInt level.severity)) :: fs ++ [(Logger.messageKey, .text message)]) := by
  have hread (name : String) : LogFields.read
      ((Logger.levelKey, .number (.ofInt level.severity)) :: fs ++ [(Logger.messageKey, .text message)]) name =
        (if Logger.messageKey = name then some (.text message) else none).or ((LogFields.read fs name).or
          (if Logger.levelKey = name then some (.number (.ofInt level.severity)) else none)) := by
    rw [LogFields.read_append, LogFields.read_cons, LogFields.read_cons, LogFields.read_nil, Option.none_or]
  have hreserved : ∀ name ∈ reservedNames, LogFields.read fs name = none := by
    intro name hname
    refine LogFields.read_eq_none fun hmem => ?_
    obtain ⟨f, hf, rfl⟩ := List.mem_map.1 hmem
    exact (h.tidyName htidy f hf).free hname
  constructor
  case spelled =>
    have hseverity : (Number.ofInt level.severity).isFinite = true ∧
        Number.ofInt level.severity ≠ Number.negativeZero := by
      cases level <;> decide
    exact Json.parse?_record ⟨hseverity, readableFields_append h.readable ⟨trivial, trivial⟩⟩
  case message =>
    rw [hread, if_pos rfl]
    rfl
  case level =>
    rw [hread, if_neg (by decide), if_pos rfl, hreserved _ (by decide)]
    rfl
  case others =>
    intro name hmessage hlevel
    rw [hread, if_neg hmessage.symm, if_neg hlevel.symm, Option.none_or, Option.or_none]
    exact h.nearest htidy name

end FailureWire
