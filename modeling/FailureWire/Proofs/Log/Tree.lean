import FailureWire.Proofs.Log.Lines

/-!
# Trees of loggers

Calls come in any order on any of the loggers that there are: a call makes a child (`child`) or logs a message
(`trace` to `fatal`). Loggers are numbered, the root is number 0, and a child has the next number. `LoggerTree.call`
is one call and `LoggerTree.run` a sequence of them.

`LoggerTree.Inv` is what every call keeps: each logger is the one that the contexts on its way from the root make, and
the lines are those of the messages that are severe enough, in the order of the calls. From the way alone it follows
what a logger emits, so that no other call has a part in it (`logger_tree_lines`).
-/

namespace FailureWire

/-- A call on one of the loggers that there are, by its number. -/
inductive LogCall where
  | child (on : Nat) (context : LogScope)
  | log (on : Nat) (level : LogLevel) (message : String) (fields : LogScope)

namespace LogCall

/-- The logger that is called. -/
def on : LogCall → Nat
  | .child on _ | .log on .. => on

/-- The context of the child, or the fields given with the message. -/
def scope : LogCall → LogScope
  | .child _ context => context
  | .log _ _ _ fields => fields

/-- The child that a call makes: its parent and its context. -/
def made? : LogCall → Option (Nat × LogScope)
  | .child on context => some (on, context)
  | .log .. => none

/-- A call logs a message that is at least as severe as a threshold. -/
def isEmitted (threshold : LogLevel) : LogCall → Bool
  | .child .. => false
  | .log _ level .. => threshold.severity ≤ level.severity

/-- Where there are so many loggers, every call is on one that there is then. -/
def Addressed : Nat → List LogCall → Prop
  | _, [] => True
  | n, call :: rest => call.on < n ∧ Addressed (n + call.made?.toList.length) rest

end LogCall

/-- The scopes on the way from a logger to the root, given the children that were made: the nearest first. -/
inductive PathTo (root : LogScope) (made : List (Nat × LogScope)) : Nat → List LogScope → Prop
  | root : PathTo root made 0 [root]
  | child {n on : Nat} {context : LogScope} {path : List LogScope} : made[n]? = some (on, context) →
    PathTo root made on path → PathTo root made (n + 1) (context :: path)

theorem PathTo.mono {root : LogScope} {made made' : List (Nat × LogScope)} {n : Nat} {path : List LogScope}
    (h : PathTo root made n path) (hle : made <+: made') : PathTo root made' n path := by
  obtain ⟨later, rfl⟩ := hle
  induction h with
  | root => exact .root
  | child hmade _ ih =>
    obtain ⟨hlt, -⟩ := List.getElem?_eq_some_iff.1 hmade
    exact .child ((List.getElem?_append_left hlt).trans hmade) ih

/-- There is one way from a logger to the root. -/
theorem PathTo.unique {root : LogScope} {made : List (Nat × LogScope)} {n : Nat} {path path' : List LogScope}
    (h : PathTo root made n path) (h' : PathTo root made n path') : path = path' := by
  induction h generalizing path' with
  | root =>
    cases h'
    rfl
  | child hmade _ ih =>
    cases h' with
    | child hmade' hrest =>
      cases hmade.symm.trans hmade'
      rw [ih hrest]

/-- The loggers that were made, by their numbers, and the lines that were emitted. -/
structure LoggerTree where
  loggers : List Logger
  lines : List LogFields

namespace LoggerTree

/-- The logger of a number. -/
def logger (t : LoggerTree) (n : Nat) : Logger := (t.loggers[n]?).getD .silent

/-- A call. -/
def call (t : LoggerTree) : LogCall → Except Fault LoggerTree
  | .child on context => do
    let child ← (t.logger on).child context.graph context.value
    return { t with loggers := t.loggers ++ [child] }
  | .log on level message fields => do
    let line ← (t.logger on).log fields.graph level (.text message) fields.value
    return { t with lines := t.lines ++ line.toList }

/-- Calls, one after the other, on a logger and those that descend from it. -/
def run (root : Logger) (calls : List LogCall) : Except Fault LoggerTree := calls.foldlM call ⟨[root], []⟩

/-- The line is the one for the call: what the logger emits that the contexts on the way make by themselves, and what
the nearest scopes say. -/
def IsLineOf (threshold : LogLevel) (root : LogScope) (made : List (Nat × LogScope)) : LogCall → LogFields → Prop
  | .child .., _ => False
  | .log on level message fields, line => ∃ path l, PathTo root made on path ∧
    Logger.along threshold path = .ok l ∧ l.log fields.graph level (.text message) fields.value = .ok (some line) ∧
      IsLine level message (fields :: path) line

theorem IsLineOf.mono {threshold : LogLevel} {root : LogScope} {made made' : List (Nat × LogScope)} {c : LogCall}
    {line : LogFields} (h : IsLineOf threshold root made c line) (hle : made <+: made') :
    IsLineOf threshold root made' c line := by
  cases c with
  | child => exact h
  | log on level message fields =>
    obtain ⟨path, l, hpath, hrest⟩ := h
    exact ⟨path, l, hpath.mono hle, hrest⟩

/-- What is true of a tree after calls. -/
structure Inv (threshold : LogLevel) (root : LogScope) (before : List LogCall) (t : LoggerTree) : Prop where
  count : t.loggers.length = (before.filterMap LogCall.made?).length + 1
  loggers : ∀ n l, t.loggers[n]? = some l → ∃ path, PathTo root (before.filterMap LogCall.made?) n path ∧
    (∀ s ∈ path, s.Tidy) ∧ Logger.along threshold path = .ok l
  lines : List.Forall₂ (IsLineOf threshold root (before.filterMap LogCall.made?))
    (before.filter (LogCall.isEmitted threshold)) t.lines

variable {threshold : LogLevel} {root : LogScope} {before : List LogCall} {t : LoggerTree} {on : Nat}

theorem inv_start {l : Logger} (htidy : root.Tidy) (hroot : Logger.along threshold [root] = .ok l) :
    Inv threshold root [] ⟨[l], []⟩ where
  count := rfl
  loggers n l' h := by
    obtain ⟨rfl, rfl⟩ : n = 0 ∧ l = l' := by
      cases n with
      | zero => exact ⟨rfl, Option.some.inj h⟩
      | succ n => cases h
    exact ⟨[root], .root, by simpa using htidy, hroot⟩
  lines := .nil

/-- **A logger that there is** is the one that the contexts on its way make. -/
theorem Inv.exists_path (h : Inv threshold root before t) (hon : on < t.loggers.length) :
    ∃ path fs, t.logger on = ⟨some threshold, some fs⟩ ∧ PathTo root (before.filterMap LogCall.made?) on path ∧
      (∀ s ∈ path, s.Tidy) ∧ LogScope.Written path fs := by
  have hthere := List.getElem?_eq_getElem hon
  obtain ⟨path, hpath, htidy, halong⟩ := h.loggers on _ hthere
  obtain ⟨fs, hwritten⟩ := LogScope.exists_written htidy
  have hl := halong.symm.trans (Logger.along_of_written htidy hwritten)
  refine ⟨path, fs, ?_, hpath, htidy, hwritten⟩
  rw [logger, hthere, Option.getD_some, Except.ok.inj hl]

theorem Inv.child (h : Inv threshold root before t) (hon : on < t.loggers.length) {context : LogScope}
    (htidy : context.Tidy) :
    ∃ t', t.call (.child on context) = .ok t' ∧ Inv threshold root (before ++ [.child on context]) t' := by
  obtain ⟨path, fs, hlogger, hpath, hpaths, hwritten⟩ := h.exists_path hon
  obtain ⟨more, hadds⟩ := Graph.exists_adds htidy.tidyField
  have hchild : Logger.child ⟨some threshold, some fs⟩ context.graph context.value = _ :=
    Logger.child_of_tidy htidy hadds
  have hmade : (before ++ [LogCall.child on context]).filterMap LogCall.made? =
      before.filterMap LogCall.made? ++ [(on, context)] := List.filterMap_append ..
  have hprefix : before.filterMap LogCall.made? <+: (before ++ [LogCall.child on context]).filterMap LogCall.made? :=
    hmade ▸ List.prefix_append ..
  refine ⟨{ t with loggers := t.loggers ++ [⟨some threshold, some (fs ++ more)⟩] }, ?_, ?_, ?_, ?_⟩
  · rw [call, hlogger, hchild]
    rfl
  · rw [hmade, List.length_append, List.length_append, h.count]
    rfl
  · intro n l hl
    rw [List.getElem?_append] at hl
    split at hl
    · obtain ⟨path', hpath', hrest⟩ := h.loggers n l hl
      exact ⟨path', hpath'.mono hprefix, hrest⟩
    next hn =>
      -- the new logger has the number of loggers that there were
      obtain ⟨rfl, rfl⟩ : n = t.loggers.length ∧ (⟨some threshold, some (fs ++ more)⟩ : Logger) = l := by
        have hzero : n - t.loggers.length = 0 := by
          by_contra hne
          obtain ⟨k, hk⟩ := Nat.exists_eq_succ_of_ne_zero hne
          rw [hk] at hl
          cases hl
        rw [hzero] at hl
        exact ⟨by omega, Option.some.inj hl⟩
      have hall : ∀ s ∈ context :: path, s.Tidy := List.forall_mem_cons.2 ⟨htidy, hpaths⟩
      refine ⟨context :: path, ?_, hall, Logger.along_of_written hall (.cons hwritten hadds)⟩
      rw [h.count]
      refine .child ?_ (hpath.mono hprefix)
      rw [hmade, List.getElem?_append_right (Nat.le_refl _), Nat.sub_self]
      rfl
  · have hkept : (before ++ [LogCall.child on context]).filter (LogCall.isEmitted threshold) =
        before.filter (LogCall.isEmitted threshold) := by
      simp [LogCall.isEmitted]
    rw [hkept]
    exact h.lines.imp fun _ _ hline => hline.mono hprefix

/-- A message becomes a line if it is severe enough. -/
theorem Inv.log (h : Inv threshold root before t) (hon : on < t.loggers.length) (level : LogLevel) (message : String)
    {fields : LogScope} (htidy : fields.Tidy) :
    ∃ t', t.call (.log on level message fields) = .ok t' ∧
      Inv threshold root (before ++ [.log on level message fields]) t' := by
  obtain ⟨path, fs, hlogger, hpath, hpaths, hwritten⟩ := h.exists_path hon
  obtain ⟨more, hadds⟩ := Graph.exists_adds htidy.tidyField
  have hmade : (before ++ [LogCall.log on level message fields]).filterMap LogCall.made? =
      before.filterMap LogCall.made? := by
    rw [List.filterMap_append]
    exact List.append_nil _
  by_cases hsevere : threshold.severity ≤ level.severity
  · -- the line that the logger emits is the one for the scopes on its way
    have hall : ∀ s ∈ fields :: path, s.Tidy := List.forall_mem_cons.2 ⟨htidy, hpaths⟩
    have hline := (LogScope.Written.cons hwritten hadds).isLine hall level message
    have hlog : Logger.log ⟨some threshold, some fs⟩ fields.graph level (.text message) fields.value = _ :=
      Logger.log_of_tidy hsevere htidy hadds message
    generalize (Logger.levelKey, Json.number (.ofInt level.severity)) :: (fs ++ more) ++
      [(Logger.messageKey, Json.text message)] = line at hline hlog
    refine ⟨{ t with lines := t.lines ++ [line] }, ?_, ?_, ?_, ?_⟩
    · rw [call, hlogger, hlog]
      rfl
    · rw [hmade]
      exact h.count
    · rw [hmade]
      exact h.loggers
    · rw [hmade, List.filter_append, List.filter_singleton, LogCall.isEmitted, decide_eq_true hsevere]
      refine List.rel_append h.lines (.cons ⟨path, _, hpath, ?_, hlog, hline⟩ .nil)
      exact Logger.along_of_written hpaths hwritten
  · refine ⟨t, ?_, ?_, ?_, ?_⟩
    · rw [call, hlogger, Logger.log_of_not_emits (mt Logger.emits_iff.1 hsevere)]
      show Except.ok { t with lines := t.lines ++ [] } = .ok t
      rw [List.append_nil]
    · rw [hmade]
      exact h.count
    · rw [hmade]
      exact h.loggers
    · rw [hmade, List.filter_append, List.filter_singleton, LogCall.isEmitted, decide_eq_false hsevere]
      simpa using h.lines

/-- **One call** on a logger that there is goes through and keeps what is true of the tree. -/
theorem Inv.step (h : Inv threshold root before t) {c : LogCall} (hon : c.on < t.loggers.length)
    (htidy : c.scope.Tidy) : ∃ t', t.call c = .ok t' ∧ Inv threshold root (before ++ [c]) t' := by
  cases c with
  | child on context => exact h.child hon htidy
  | log on level message fields => exact h.log hon level message htidy

/-- **Calls**, one after the other. -/
theorem Inv.run : ∀ {calls before : List LogCall} {t : LoggerTree}, Inv threshold root before t →
    LogCall.Addressed t.loggers.length calls → (∀ c ∈ calls, c.scope.Tidy) →
      ∃ t', calls.foldlM call t = .ok t' ∧ Inv threshold root (before ++ calls) t'
  | [], before, t, h, _, _ => ⟨t, rfl, by rwa [List.append_nil]⟩
  | c :: rest, before, t, h, ⟨hon, haddressed⟩, htidy => by
    rw [List.forall_mem_cons] at htidy
    obtain ⟨t₁, hcall, h₁⟩ := h.step hon htidy.1
    have hcount : t₁.loggers.length = t.loggers.length + c.made?.toList.length := by
      rw [h₁.count, h.count, List.filterMap_append, List.length_append]
      cases c <;> simp [LogCall.made?]
    obtain ⟨t', hrun, h'⟩ := Inv.run h₁ (hcount ▸ haddressed) htidy.2
    refine ⟨t', ?_, by rwa [List.append_cons]⟩
    rw [List.foldlM_cons, hcall]
    exact hrun

/-! ## Silent trees -/

/-- All loggers of a tree are silent, and no line was emitted. -/
structure Silent (t : LoggerTree) : Prop where
  loggers : ∀ l ∈ t.loggers, l = .silent
  lines : t.lines = []

theorem Silent.logger (h : t.Silent) (n : Nat) : t.logger n = .silent := by
  unfold LoggerTree.logger
  cases hl : t.loggers[n]? with
  | none => rfl
  | some l => exact h.loggers l (List.mem_of_getElem? hl)

/-- **No call wakes a silent tree.** -/
theorem Silent.step (h : t.Silent) (c : LogCall) : ∃ t', t.call c = .ok t' ∧ t'.Silent := by
  cases c with
  | child on context =>
    refine ⟨{ t with loggers := t.loggers ++ [.silent] }, ?_, ?_, h.lines⟩
    · rw [call, h.logger, Logger.silent_child]
      rfl
    · rw [List.forall_mem_append, List.forall_mem_singleton]
      exact ⟨h.loggers, rfl⟩
  | log on level message fields =>
    refine ⟨{ t with lines := t.lines ++ [] }, ?_, h.loggers, ?_⟩
    · rw [call, h.logger, Logger.silent_log]
      rfl
    · rw [List.append_nil, h.lines]

theorem Silent.run : ∀ (calls : List LogCall) {t : LoggerTree}, t.Silent →
    ∃ t', calls.foldlM call t = .ok t' ∧ t'.Silent
  | [], t, h => ⟨t, rfl, h⟩
  | c :: rest, t, h => by
    obtain ⟨t₁, hcall, h₁⟩ := h.step c
    obtain ⟨t', hrun, h'⟩ := Silent.run rest h₁
    refine ⟨t', ?_, h'⟩
    rw [List.foldlM_cons, hcall]
    exact hrun

end LoggerTree

/-- **What a tree of loggers emits.** Let calls be made, in any order, on a root logger and those that descend from it.
With tidy contexts and fields every call goes through. There is one line for each message that is at least as severe
as the level of the root, in the order of the calls, and no other line. Each line is what the logger emits that the
contexts on the way to it make by themselves; read as JSON, it has the message, the level, and under every other name
what the nearest scope has that defines it, among the fields given with the message and these contexts. A silent tree
emits nothing, whatever is called. -/
theorem logger_tree_lines (level : Option LogLevel) (root : LogScope) (calls : List LogCall)
    (haddressed : LogCall.Addressed 1 calls) :
    (root.Tidy → (∀ c ∈ calls, c.scope.Tidy) →
      ∃ l t, Logger.root (level.getD .info) root.graph root.value = .ok l ∧ LoggerTree.run l calls = .ok t ∧
        List.Forall₂ (LoggerTree.IsLineOf (level.getD .info) root (calls.filterMap LogCall.made?))
          (calls.filter (LogCall.isEmitted (level.getD .info))) t.lines) ∧
    ∃ t, LoggerTree.run .silent calls = .ok t ∧ t.lines = [] := by
  constructor
  · intro hroot htidy
    have hall : ∀ s ∈ [root], s.Tidy := List.forall_mem_singleton.2 hroot
    obtain ⟨fs, hwritten⟩ := LogScope.exists_written hall
    have halong : Logger.along (level.getD .info) [root] = _ := Logger.along_of_written hall hwritten
    obtain ⟨t, hrun, hinv⟩ := (LoggerTree.inv_start hroot halong).run haddressed htidy
    exact ⟨_, t, halong, hrun, hinv.lines⟩
  · have hsilent : LoggerTree.Silent ⟨[.silent], []⟩ := ⟨List.forall_mem_singleton.2 rfl, rfl⟩
    obtain ⟨t, hrun, h⟩ := LoggerTree.Silent.run calls hsilent
    exact ⟨t, hrun, h.lines⟩

/-- The scopes of an order: the context of its workflow, that of its second attempt, and fields given with a message. -/
def orderScopes : Graph :=
  ⟨[.record [("workflowId", .text "order-7"), ("attempt", .number 1)],
    .record [("attempt", .number 2), ("module", .undefined)],
    .record [("attempt", .undefined), ("tags", .object 3)],
    .list [.text "late", .null]]⟩

/-- A child is made for the second attempt. It logs a message, and the root one that is not severe enough. -/
def orderCalls : List LogCall :=
  [.child 0 ⟨orderScopes, .object 1⟩, .log 1 .warn "retried" ⟨orderScopes, .object 2⟩,
    .log 0 .debug "waiting" ⟨.empty, .undefined⟩]

/-- There is one line. It has the attempt of the child, since that of the fields is undefined, and the workflow of the
root. -/
theorem logger_tree_lines_order :
    ∃ l t line, Logger.root .info orderScopes (.object 0) = .ok l ∧ LoggerTree.run l orderCalls = .ok t ∧
      t.lines = [line] ∧ line.read "attempt" = some (.number 2) ∧ line.read "workflowId" = some (.text "order-7") ∧
        line.read "module" = none := by
  have hroot : LogScope.Tidy ⟨orderScopes, .object 0⟩ := .record rfl (by decide) <|
    List.forall_mem_cons.2 ⟨⟨⟨by decide, by decide, by decide⟩, .inr ⟨_, .text _⟩⟩,
      List.forall_mem_singleton.2 ⟨⟨by decide, by decide, by decide⟩, .inr ⟨_, .number rfl⟩⟩⟩
  have hchild : LogScope.Tidy ⟨orderScopes, .object 1⟩ := .record rfl (by decide) <|
    List.forall_mem_cons.2 ⟨⟨⟨by decide, by decide, by decide⟩, .inr ⟨_, .number rfl⟩⟩,
      List.forall_mem_singleton.2 ⟨⟨by decide, by decide, by decide⟩, .inl rfl⟩⟩
  have hfields : LogScope.Tidy ⟨orderScopes, .object 2⟩ := .record rfl (by decide) <|
    List.forall_mem_cons.2 ⟨⟨⟨by decide, by decide, by decide⟩, .inl rfl⟩,
      List.forall_mem_singleton.2
        ⟨⟨by decide, by decide, by decide⟩, .inr ⟨_, .list rfl (.cons (.text _) (.cons .null .nil))⟩⟩⟩
  have hcalls : ∀ c ∈ orderCalls, c.scope.Tidy := by
    simp only [orderCalls, List.forall_mem_cons, List.not_mem_nil, false_imp_iff, implies_true, and_true]
    exact ⟨hchild, hfields, .absent⟩
  have haddressed : LogCall.Addressed 1 orderCalls := ⟨by decide, by decide, by decide, trivial⟩
  obtain ⟨l, t, hl, hrun, hlines⟩ :=
    (logger_tree_lines none ⟨orderScopes, .object 0⟩ orderCalls haddressed).1 hroot hcalls
  obtain ⟨line, more, ⟨path, -, hpath, -, -, hline⟩, hrest, ht⟩ := List.forall₂_cons_left_iff.1 hlines
  cases hrest
  obtain rfl := hpath.unique (.child rfl .root)
  refine ⟨l, t, line, hl, hrun, ht, ?_, ?_, ?_⟩
  · exact (hline.others "attempt" (by decide) (by decide)).unique (.further rfl (.here (.number rfl)))
  · exact (hline.others "workflowId" (by decide) (by decide)).unique (.further rfl (.further rfl (.here (.text _))))
  · exact (hline.others "module" (by decide) (by decide)).unique (.further rfl (.further rfl (.further rfl .nowhere)))

/-- Fields given with a message, one of them under a name that every object inherits. -/
def inheritedName : Graph := ⟨[.record [("isPrototypeOf", .text "a prototype")]]⟩

/-- **An inherited name is not kept.** It needs no escapes and is not reserved, and still the line does not have the
value of the nearest scope that defines it. -/
theorem inherited_name_not_kept :
    LogFields.isPlain "isPrototypeOf" = true ∧ "isPrototypeOf" ∉ reservedNames ∧
      inheritedName.Means (inheritedName.read (.object 0) "isPrototypeOf") (.text "a prototype") ∧
      ∃ l t line, Logger.root .info .empty .undefined = .ok l ∧
        LoggerTree.run l [.log 0 .info "m" ⟨inheritedName, .object 0⟩] = .ok t ∧ t.lines = [line] ∧
        line.read "isPrototypeOf" = some (.bool false) ∧
        ¬ LogScope.Nearest "isPrototypeOf" [⟨inheritedName, .object 0⟩, ⟨.empty, .undefined⟩]
          (line.read "isPrototypeOf") := by
  refine ⟨by decide, by decide, .text _, _, _, _, rfl, rfl, rfl, rfl, fun h => ?_⟩
  have hkept : LogScope.Nearest "isPrototypeOf" [⟨inheritedName, .object 0⟩, ⟨.empty, .undefined⟩]
      (some (.text "a prototype")) := .here (.text _)
  cases h.unique hkept

end FailureWire
