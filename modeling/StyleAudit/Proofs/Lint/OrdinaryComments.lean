/-
Module: StyleAudit.Proofs.Lint.OrdinaryComments
Purpose: Runs over the rules of this library do not depend on comments that are no directives.
Trusted boundary: none
Main exports: Rule.IgnoresComments, ignoresComments_of_get?_default, Registry.ExaminesAlike,
  dispatch_congr, lint_thinned
-/
import StyleAudit.Proofs.Document.Thinning
import StyleAudit.Proofs.Lint.Preparation
import StyleAudit.Proofs.Lint.Filter
import Mathlib

namespace StyleAudit

open Node (ThinsTo)

/-!
### Rules
-/

/-- A rule finds the same in two documents when ordinary comments are all that is missing in one
of them. -/
def Rule.IgnoresComments (rule : Rule) : Prop :=
  ∀ primary secondary examine, rule.bind primary secondary = .ok examine →
    ∀ d thinned : Document, d.ThinsTo thinned → examine thinned = examine d

theorem Node.ThinsTo.all_isComment {nodes left : List Node} (thins : ThinsTo nodes left) :
    left.all Node.isComment = nodes.all Node.isComment := by
  induction thins with
  | nil => rfl
  | drop _ _ others => rw [others, List.all_cons, Node.isComment, Bool.true_and]
  | keep _ _ _ _ others =>
      rw [List.all_cons, List.all_cons, Node.isComment_withChildren, others]

namespace EmptyBlock

/-- Whether a block is empty is decided by the children that are no comments.  A statement needs
a child to be told from one without a block. -/
theorem flags_withChildren {node : Node} {below : List Node}
    (inside : ThinsTo node.children below)
    (statement : node.IsStatement → below = [] → node.children = []) :
    flags (node.withChildren below) = flags node := by
  cases node with
  | rule p selector nodes => exact inside.all_isComment
  | atRule p atName params nodes =>
      have ends : (below.isEmpty && statements.contains atName)
          = (nodes.isEmpty && statements.contains atName) := by
        by_cases listed : statements.contains atName = true
        · have same : below = [] ↔ nodes = [] := by
            refine ⟨statement ⟨List.contains_iff_mem.1 listed⟩, ?_⟩
            rintro rfl
            exact inside.eq_nil
          rw [listed, Bool.and_true, Bool.and_true, Bool.eq_iff_iff, List.isEmpty_iff,
            List.isEmpty_iff, same]
        · rw [Bool.not_eq_true] at listed
          rw [listed, Bool.and_false, Bool.and_false]
      have comments := inside.all_isComment
      simp only [Node.withChildren, Node.children, flags] at comments ⊢
      rw [comments, ends]
  | _ => rfl

theorem findings_eq_filterMap (d : Document) :
    findings d = d.walk.filterMap fun node => if flags node then some (finding node) else none := by
  rw [findings, ← List.filterMap_eq_map, List.filterMap_filter]
  rfl

theorem ignoresComments : rule.IgnoresComments := by
  rintro _ _ _ ⟨⟩ d _ ⟨left, thins, rfl⟩
  refine congrArg Examination.found ?_
  rw [findings_eq_filterMap, findings_eq_filterMap]
  refine thins.filterMap_walkAll (fun _ _ _ => rfl) fun inside statement => ?_
  rw [flags_withChildren inside statement, finding, finding, Node.position_withChildren]

end EmptyBlock

theorem HexColor.ignoresComments : HexColor.rule.IgnoresComments := by
  rintro _ _ _ ⟨⟩ d thinned thins
  refine congrArg Examination.found ?_
  rw [findings, findings, thins.declarations]

theorem Important.ignoresComments : Important.rule.IgnoresComments := by
  rintro _ _ _ ⟨⟩ d thinned thins
  refine congrArg Examination.found ?_
  rw [findings, findings, thins.declarations]

namespace NestingDepth

theorem findingsAmong_thinned (o : Options) {nodes left : List Node}
    (thins : ThinsTo nodes left) :
    ∀ depth, findingsAmong o depth left = findingsAmong o depth nodes := by
  induction thins with
  | nil => exact fun _ => rfl
  | drop _ _ others => exact others
  | @keep node below _ _ _ _ _ inside others =>
      intro depth
      rw [findingsAmong, findingsAmong, others]
      cases node with
      | rule p selector nodes =>
          rw [Node.withChildren, findingsFrom, findingsFrom, inside]
          rfl
      | atRule p atName params nodes =>
          rw [Node.withChildren, findingsFrom, findingsFrom, inside]
          rfl
      | _ => rfl

theorem ignoresComments : rule.IgnoresComments := by
  rintro primary secondary _ ⟨⟩ d _ ⟨left, thins, rfl⟩
  have same : findings primary secondary { d with children := left }
      = findings primary secondary d := by
    unfold findings
    cases options primary secondary with
    | ok o => exact findingsAmong_thinned o thins 0
    | error unusable => rfl
  simp only [same]

end NestingDepth

theorem ignoresComments_of_get?_default {key : Key} {rule : Rule}
    (found : Table.get? key Registry.default = some rule) : rule.IgnoresComments := by
  obtain ⟨k, member, _⟩ := Table.mem_of_get?_eq_some found
  obtain ⟨⟨name, builtin⟩, listed, entry⟩ := List.mem_map.1 member
  cases entry
  simp only [Registry.builtins, List.mem_cons, List.not_mem_nil, or_false, Prod.mk.injEq] at listed
  rcases listed with ⟨_, rfl⟩ | ⟨_, rfl⟩ | ⟨_, rfl⟩ | ⟨_, rfl⟩
  · exact EmptyBlock.ignoresComments
  · exact HexColor.ignoresComments
  · exact Important.ignoresComments
  · exact NestingDepth.ignoresComments

/-!
### Runs
-/

/-- Each rule of a registry finds the same in two documents. -/
def Registry.ExaminesAlike (registry : Registry) (d other : Document) : Prop :=
  ∀ key rule, Table.get? key registry = some rule →
    ∀ primary secondary examine, rule.bind primary secondary = .ok examine →
      examine other = examine d

section Congruence

variable {registry : Registry} {d other : Document}

theorem runSetting_congr (alike : registry.ExaminesAlike d other) (name : Key)
    (setting : Setting) (r : Recorder) :
    runSetting registry name setting other r = runSetting registry name setting d r := by
  unfold runSetting
  cases found : Table.get? name registry with
  | none => rfl
  | some rule =>
      simp only [runRule]
      cases bound : rule.bind setting.primary setting.secondary with
      | error failure => rfl
      | ok examine => simp only [alike name rule found _ _ examine bound]

theorem runSettings_congr (alike : registry.ExaminesAlike d other)
    (settings : List (Key × Setting)) :
    ∀ r, runSettings registry other settings r = runSettings registry d settings r := by
  induction settings with
  | nil => exact fun _ => rfl
  | cons entry rest ih =>
      intro r
      rw [runSettings, runSettings, runSetting_congr alike, ih]

theorem dispatch_congr (alike : registry.ExaminesAlike d other) (rules : Mapping) (r : Recorder) :
    dispatch rules registry other r = dispatch rules registry d r := by
  unfold dispatch
  cases checkedSettings rules registry with
  | error fault => rfl
  | ok settings => exact runSettings_congr alike settings r

theorem finishRun_congr (alike : registry.ExaminesAlike d other)
    (sameDirectives : other.directives = d.directives) (c : Configuration)
    (before : List LogRecord) :
    finishRun c registry other before = finishRun c registry d before := by
  simp only [finishRun, startRecord, disableRanges, disableRangesLog, sameDirectives,
    dispatch_congr alike]

end Congruence

/-- Whatever ordinary comments are deleted in a document, a run without plugins over the rules
of this library is the same: it has the same ranges, severities and diagnostics, or the same
failure. -/
theorem lint_thinned {w : World} {options : Value} {d thinned : Document}
    (noPlugins : ∀ c base, (prepare w options).outcome = .ok (c, base) → c.plugins = [])
    (thins : d.ThinsTo thinned) :
    lint w thinned options Registry.default = lint w d options Registry.default := by
  have alike : Registry.default.ExaminesAlike d thinned :=
    fun _ _ found primary secondary examine bound =>
      ignoresComments_of_get?_default found primary secondary examine bound d thinned thins
  cases prepared : (prepare w options).outcome with
  | error failure => simp only [lint, prepared]
  | ok configured =>
      obtain ⟨c, base⟩ := configured
      have apart : c.apart Registry.default = c := rfl
      simp only [lint, prepared, apart, noPlugins c base prepared, loadPlugins,
        finishRun_congr alike thins.directives]

/-!
Notes above a block, in a block that holds nothing else, and beside the directive in another one
can go; so can one of the two notes in a statement, but not both.
-/

/-- A document with notes and a directive. -/
def notedDocument : Document :=
  ⟨Position.origin, .null,
    [.comment ⟨1, 1⟩ "colors",
      .atRule ⟨2, 1⟩ "use" "sheet" [.comment ⟨2, 5⟩ "a", .comment ⟨2, 9⟩ "b"],
      .rule ⟨3, 1⟩ "a" [.comment ⟨3, 5⟩ "nothing yet"],
      .rule ⟨4, 1⟩ "b" [.comment ⟨4, 3⟩ "short", .comment ⟨4, 9⟩ "sheetlint-disable-line",
        .declaration ⟨4, 40⟩ "color" "#ab" true]]⟩

/-- The document without most of its notes. -/
def terseDocument : Document :=
  ⟨Position.origin, .null,
    [.atRule ⟨2, 1⟩ "use" "sheet" [.comment ⟨2, 9⟩ "b"], .rule ⟨3, 1⟩ "a" [],
      .rule ⟨4, 1⟩ "b" [.comment ⟨4, 9⟩ "sheetlint-disable-line",
        .declaration ⟨4, 40⟩ "color" "#ab" true]]⟩

/-- Options of a run with three rules. -/
def notedOptions : Value := .map (rulesAlone filteredRules false)

theorem thinsTo_terseDocument : notedDocument.ThinsTo terseDocument := by
  have inUse : ThinsTo [.comment ⟨2, 5⟩ "a", .comment ⟨2, 9⟩ "b"] [.comment ⟨2, 9⟩ "b"] :=
    .drop (by decide) (.keep .nil (by rintro ⟨⟩) .nil)
  have inA : ThinsTo [.comment ⟨3, 5⟩ "nothing yet"] [] := .drop (by decide) .nil
  have inB : ThinsTo
      [.comment ⟨4, 3⟩ "short", .comment ⟨4, 9⟩ "sheetlint-disable-line",
        .declaration ⟨4, 40⟩ "color" "#ab" true]
      [.comment ⟨4, 9⟩ "sheetlint-disable-line", .declaration ⟨4, 40⟩ "color" "#ab" true] :=
    .drop (by decide) (.keep .nil (by rintro ⟨⟩) (.keep .nil (by rintro ⟨⟩) .nil))
  exact ⟨_, .drop (by decide) (.keep inUse (by rintro _ ⟨⟩)
    (.keep inA (by rintro ⟨⟩) (.keep inB (by rintro ⟨⟩) .nil))), rfl⟩

theorem lint_thinned_noted :
    notedDocument.ThinsTo terseDocument
      ∧ lint noFiles terseDocument notedOptions Registry.default
          = lint noFiles notedDocument notedOptions Registry.default
      ∧ ∃ r, (lint noFiles terseDocument notedOptions Registry.default).outcome = .ok r
        ∧ r.diagnostics.map (·.position.line) = [2, 3, 1] := by
  have prepared := prepare_rulesAlone noFiles filteredRules false
  have noPlugins : ∀ c base, (prepare noFiles notedOptions).outcome = .ok (c, base) →
      c.plugins = [] := by
    intro c base other
    rw [notedOptions, prepared] at other
    cases other
    rfl
  have ended : (dispatch filteredRules Registry.default terseDocument
      (startRecord false terseDocument)).failure = none :=
    Option.isNone_iff_eq_none.1 (by decide +kernel)
  refine ⟨thinsTo_terseDocument, lint_thinned noPlugins thinsTo_terseDocument, _,
    (lint_ok_iff prepared rfl).2 ⟨ended, rfl⟩, ?_⟩
  decide +kernel

end StyleAudit
