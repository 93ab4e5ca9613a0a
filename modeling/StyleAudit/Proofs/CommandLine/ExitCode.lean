/-
Module: StyleAudit.Proofs.CommandLine.ExitCode
Purpose: The command that lints exits with one exactly when there is an error on record, and what
  is counted of the record agrees.
Trusted boundary: none
Main exports: reaches_of_lint, CompletesLint, code_of_completesLint, counts_and_exit_code_agree
-/
import StyleAudit.Proofs.CommandLine.Agreement
import StyleAudit.Proofs.Report.Counts

namespace StyleAudit

section Lint

variable {w : World} {d : Document} {options : Value} {registry : Registry} {r : Recorder}

/-- A run that ends well leaves a record to which steps lead from one without diagnostics. -/
theorem reaches_of_lint (linted : (lint w d options registry).outcome = .ok r) :
    ∃ start : Recorder, start.diagnostics = [] ∧ start.Reaches r := by
  rcases ready_or_stops w options registry with ⟨c, loaded, ready⟩ | ⟨failure, left, stops⟩
  · obtain ⟨⟨base, prepared, loads⟩, _, _⟩ := ready
    obtain ⟨log, run⟩ := lint_of_loads prepared loads d
    rw [run, outcome_finishRun] at linted
    refine ⟨startRecord c.quiet d, rfl, ?_⟩
    simp only at linted
    split at linted
    · cases linted
    · cases linted
      exact reaches_dispatch _
  · rw [(lint_of_stops stops d).1] at linted
    cases linted

end Lint

/-- A command that lints gets to its end: its tree is read, the run ends well and leaves a record,
and the program finishes with an exit code. -/
structure CompletesLint (w : World) (arguments : List Text) (r : Recorder) (code : Nat) : Prop where
  ran : ∃ options tree format d described,
    NamesCommand w arguments options (.lint tree format)
      ∧ readTree w (Path.ofText tree) = .ok d
      ∧ runOptions w options = .ok described
      ∧ (lint w d described Registry.default).outcome = .ok r
  finished : ∃ output errors, (runCommand w arguments).outcome = .finished code output errors

section Commands

variable {w : World} {arguments : List Text} {r : Recorder} {code : Nat}

theorem code_of_showDiagnostics {path : Path} {format : ReportFormat} {d : Document}
    {diagnostics : List Diagnostic} {output errors : String}
    (finished : showDiagnostics path format d diagnostics = .finished code output errors) :
    code = if Diagnostic.hasErrors diagnostics then 1 else 0 := by
  rw [showDiagnostics] at finished
  split at finished
  · cases finished
  · rw [CommandOutcome.printing] at finished
    split at finished
    · cases finished
      rfl
    · cases finished

theorem code_of_completesLint (completes : CompletesLint w arguments r code) :
    code = 1 ↔ ∃ d ∈ r.diagnostics, d.severity = .error := by
  obtain ⟨⟨options, tree, format, d, described, names, read, named, linted⟩, output, errors,
    finished⟩ := completes
  rw [outcome_runCommand names] at finished
  cases checked : w.checkOptions options with
  | error refusal =>
      rw [checked] at finished
      cases refusal <;> cases finished
  | ok _ =>
      simp only [checked, runParsed, outcome_lintCommand read, named, linted] at finished
      rw [code_of_showDiagnostics finished, ← Diagnostic.hasErrors_iff]
      simp

end Commands

/-- However reports, findings about options, and changes of severities, of the wish for errors only
and of ranges follow on one another from a record without diagnostics, what is counted agrees.  So
it does where a command that lints completes, and its exit code is one exactly when there is an
error on record. -/
theorem counts_and_exit_code_agree :
    (∀ (start : Recorder) (steps : List Recorder.Step), start.diagnostics = [] →
        (start.stepAll steps).IsConsistent)
      ∧ ∀ (w : World) (arguments : List Text) (r : Recorder) (code : Nat),
          CompletesLint w arguments r code →
            r.IsConsistent ∧ (code = 1 ↔ ∃ d ∈ r.diagnostics, d.severity = .error) := by
  constructor
  · intro start steps fresh
    exact Recorder.isConsistent_stepAll fresh steps
  · intro w arguments r code completes
    obtain ⟨_, _, _, _, _, _, _, _, linted⟩ := completes.ran
    obtain ⟨start, fresh, steps, rfl⟩ := reaches_of_lint linted
    exact ⟨Recorder.isConsistent_stepAll fresh steps, code_of_completesLint completes⟩

/-!
A record to which something of every kind happens, and a document with an empty block under a
configuration that makes it an error and one that makes it a warning.
-/

/-- A record in which only a range is known. -/
def busyStart : Recorder := ⟨[], false, [⟨"b", 2, some 3⟩], []⟩

/-- A report is recorded as a warning; then reports are dropped since they are warnings, since a
range covers them and since their rule does not run, and options are found to be wrong. -/
def busySteps : List Recorder.Step :=
  [.activate (.str "a") .warning, .report "a" "kept" ⟨1, 1⟩, .setQuiet true,
    .report "a" "quieted" ⟨1, 2⟩, .activate (.str "a") .error, .addRange ⟨"a", 5, none⟩,
    .report "a" "suppressed" ⟨7, 1⟩, .invalidOption "b" "primary" (.int 3),
    .report "b" "inactive" ⟨9, 1⟩]

/-- Entries that give empty blocks a severity. -/
def hollowEntries (severity : Text) : Mapping :=
  [(.str "rules", .map [(.str "block-no-empty", .str severity)])]

/-- Two configuration files and a tree. -/
def hollowFiles : World where
  tree := ⟨[
    (["error.py"], .module (.exporting (some (.map (hollowEntries "error"))) .absent)),
    (["warning.py"], .module (.exporting (some (.map (hollowEntries "warning"))) .absent)),
    (["tree.json"], .file "\x7b\"type\":\"root\",\"nodes\":[\x7b\"type\":\"rule\"\x7d]\x7d".toUTF8)]⟩
  workingDirectory := []
  searchPath := []

/-- The document in the tree. -/
def hollowDocument : Document := ⟨Position.origin, .null, [.rule Position.origin "" []]⟩

/-- The options of the program that name a file. -/
def hollowProgram (file : Text) : ProgramOptions := ⟨some file, none, false, .warning, false⟩

def hollowArguments (file : Text) : List Text := ["--config", file, "lint", "tree.json"]

/-- The options of a run under a severity. -/
def hollowOptions (severity : Text) : Value :=
  .map [(.str "config", .map (hollowEntries severity ++ [(.str "config_basedir", .str "/")]))]

/-- What is on record when the run under a severity ends. -/
def hollowRecord (severity : Severity) : Recorder :=
  ⟨[(.str "block-no-empty", severity)], false, [],
    [⟨"block-no-empty", severity, "Unexpected empty block (block-no-empty)", Position.origin⟩]⟩

theorem readTree_hollow : readTree hollowFiles (Path.ofText "tree.json") = .ok hollowDocument := by
  cbv

/-- A file can be named, and gives empty blocks a severity. -/
structure IsHollow (file : Text) (severity : Severity) : Prop where
  names : NamesCommand hollowFiles (hollowArguments file) (hollowProgram file)
    (.lint "tree.json" .text)
  accepted : hollowFiles.checkOptions (hollowProgram file) = .ok ()
  named : runOptions hollowFiles (hollowProgram file) = .ok (hollowOptions severity.label)
  linted : (lint hollowFiles hollowDocument (hollowOptions severity.label) Registry.default).outcome
    = .ok (hollowRecord severity)
  shown : ∃ output errors, showDiagnostics (Path.ofText "tree.json") .text hollowDocument
    (hollowRecord severity).diagnostics
      = .finished (if severity = .error then 1 else 0) output errors

theorem IsHollow.completes {file : Text} {severity : Severity} (holds : IsHollow file severity) :
    CompletesLint hollowFiles (hollowArguments file) (hollowRecord severity)
      (if severity = .error then 1 else 0) where
  ran := ⟨_, _, _, _, _, holds.names, readTree_hollow, holds.named, holds.linted⟩
  finished := by
    rw [outcome_runCommand holds.names, holds.accepted]
    simp only [runParsed, outcome_lintCommand readTree_hollow, holds.named, holds.linted]
    exact holds.shown

theorem exists_finished_of_plain {code : Nat} {output errors : Text}
    (plain : (Console.output? output).isSome = true) :
    ∃ printed others, CommandOutcome.printing code output errors
      = .finished code printed others := by
  obtain ⟨printed, same⟩ := Option.isSome_iff_exists.1 plain
  refine ⟨printed, Console.errors errors, ?_⟩
  rw [CommandOutcome.printing, same]

theorem showDiagnostics_hollow {severity : Severity} (on : severity ≠ .off) :
    ∃ output errors, showDiagnostics (Path.ofText "tree.json") .text hollowDocument
      (hollowRecord severity).diagnostics
        = .finished (if severity = .error then 1 else 0) output errors := by
  have writable : Report.haveWritablePositions (hollowRecord severity).diagnostics = true := by
    cases severity <;> decide +kernel
  simp only [showDiagnostics, Report.render?, Report.text?, writable, if_true]
  cases severity with
  | off => exact absurd rfl on
  | warning => exact exists_finished_of_plain (by decide +kernel)
  | error => exact exists_finished_of_plain (by decide +kernel)

theorem isHollow_error : IsHollow "error.py" .error where
  names := ⟨⟨["lint", "tree.json"], rfl, rfl⟩, rfl⟩
  accepted := rfl
  named := by cbv
  linted := by cbv
  shown := showDiagnostics_hollow Severity.noConfusion

theorem isHollow_warning : IsHollow "warning.py" .warning where
  names := ⟨⟨["lint", "tree.json"], rfl, rfl⟩, rfl⟩
  accepted := rfl
  named := by cbv
  linted := by cbv
  shown := showDiagnostics_hollow Severity.noConfusion

/-- Two diagnostics come of the steps, and the program exits with one or zero. -/
theorem counts_and_exit_code_agree_busy :
    (busyStart.stepAll busySteps).IsConsistent
      ∧ (busyStart.stepAll busySteps).diagnostics
        = [⟨"a", .warning, "kept", ⟨1, 1⟩⟩, Recorder.invalidOption "b" "primary" (.int 3)]
      ∧ (hollowRecord .error).IsConsistent
      ∧ (∃ d ∈ (hollowRecord .error).diagnostics, d.severity = .error)
      ∧ (hollowRecord .warning).IsConsistent
      ∧ ¬ ∃ d ∈ (hollowRecord .warning).diagnostics, d.severity = .error := by
  obtain ⟨erring, errs⟩ := counts_and_exit_code_agree.2 _ _ _ _ isHollow_error.completes
  obtain ⟨warning, warns⟩ := counts_and_exit_code_agree.2 _ _ _ _ isHollow_warning.completes
  have busy := counts_and_exit_code_agree.1 busyStart busySteps rfl
  refine ⟨busy, ?_, erring, errs.1 rfl, warning, ?_⟩
  · decide +kernel
  · intro some
    cases warns.2 some

end StyleAudit
