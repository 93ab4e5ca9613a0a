/-
Module: StyleAudit.Proofs.CommandLine.Agreement
Purpose: The command that shows the configuration and the one that lints agree on which
  configurations are at fault, and report the fault in the same words.
Trusted boundary: none
Main exports: CommandOutcome.Reports, NamesCommand, RunsCleanly, reports_configCommand_iff,
  runCommand_reports_iff
-/
import StyleAudit.CommandLine
import StyleAudit.Proofs.Lint.Phases

namespace StyleAudit

/-!
### Reports
-/

/-- A command reports a fault of the configuration: it writes no output, the words for the
fault among the errors, with the file that the fault is about if there is one, and exits with
one. -/
inductive CommandOutcome.Reports : CommandOutcome → ConfigFault → Prop where
  | plain {fault : ConfigFault} (noFile : fault.file? = none) :
      Reports (.finished 1 "" (Console.errors (ended ["Error: " ++ fault.message]))) fault
  | inFile {fault : ConfigFault} {file : Path} (about : fault.file? = some file) :
      Reports (.finished 1 "" (Console.errors
        (ended ["Error: " ++ fault.message, "  in: " ++ file.display]))) fault

section Reports

variable {fault : ConfigFault} {outcome : CommandOutcome}

theorem reports_iff : outcome.Reports fault ↔ outcome = reportFault fault := by
  constructor
  · intro reports
    cases reports with
    | plain noFile =>
        rw [reportFault, noFile]
        rfl
    | inFile about =>
        rw [reportFault, about]
        rfl
  · rintro rfl
    cases about : fault.file? with
    | none =>
        rw [reportFault, about]
        exact .plain about
    | some file =>
        rw [reportFault, about]
        exact .inFile about

/-- A letter that starts no control sequence is printed as it is. -/
theorem toList_errors_cons {c : Char} (plain : c ≠ Console.escapeCharacter)
    (rest : List CodePoint) :
    (Console.errors ⟨.char c :: rest⟩).toList = c :: (Console.errors ⟨rest⟩).toList := by
  have unmarked : ¬ CodePoint.char c = .char Console.escapeCharacter := by
    simpa using plain
  have kept : Console.dropSequences 0 (.char c :: rest)
      = .char c :: Console.dropSequences 0 rest := by
    rw [Console.dropSequences, if_neg unmarked]
  simp [Console.errors, Console.escaped, Console.withoutSequences, kept, Console.escapePoint]

/-- What is printed without errors is no report. -/
theorem not_reports_printing {code : Nat} {output : Text} :
    ¬ (CommandOutcome.printing code output "").Reports fault := by
  have silent : ∀ message others,
      Console.errors (ended (("Error: " ++ message) :: others)) ≠ Console.errors "" := by
    intro message others same
    have points : ∃ rest,
        ended (("Error: " ++ message) :: others) = ⟨.char 'E' :: rest⟩ := by
      simp [ended, Text.join, Text.ofString, Text.ofChars]
    obtain ⟨rest, points⟩ := points
    have listed := congrArg String.toList same
    rw [points, toList_errors_cons (by decide)] at listed
    cases listed
  intro reports
  rw [CommandOutcome.printing] at reports
  cases printed : Console.output? output with
  | none =>
      rw [printed] at reports
      cases reports
  | some shown =>
      rw [printed] at reports
      generalize nothing : Console.errors "" = printedErrors at reports
      cases reports with
      | plain _ => exact silent _ _ nothing.symm
      | inFile _ => exact silent _ _ nothing.symm

theorem not_reports_refusal (refusal : Refusal) : ¬ refusal.outcome.Reports fault := by
  intro reports
  cases refusal with
  | usage => cases reports
  | unusable => cases reports

end Reports

/-!
### Commands

Both commands prepare the same configuration.  One of them then reads the settings of its rules
and prints, the other one loads plugins and dispatches.
-/

/-- Nothing is wrong with the plugins and the rules of a configuration but perhaps their
settings: all plugins give rules, all names are those of built-in rules or of plugins, and no
rule fails, bound or run. -/
structure RunsCleanly (w : World) (d : Document) (c : Configuration) (base : Path) : Prop where
  known : ∀ entry ∈ c.rules, Table.contains entry.1 Registry.default = true
    ∨ ∃ plugin ∈ c.plugins, Sameness.same plugin.1 entry.1 = true
  loads : ∃ loaded, LoadsPlugins w base c.plugins loaded
    ∧ ∀ settings, settingsOf c.rules = .ok settings → ∀ entry ∈ settings,
        (examinationOf (Registry.default.registerAll loaded) d entry.1 entry.2).failure = none

section Commands

variable {w : World} {d : Document} {c : Configuration} {base : Path} {fault : ConfigFault}
  {options : ProgramOptions} {validate asJson : Bool}

/-- The command that shows the configuration fails to print sound settings only for want of
words. -/
theorem eq_unusable_of_printConfiguration {settings : List (Key × Setting)} {failure : Failure}
    (read : settingsOf c.rules = .ok settings)
    (failed : printConfiguration options validate asJson c = .error failure) :
    failure = .unusable := by
  rw [printConfiguration] at failed
  split at failed
  · cases failed
  · split at failed
    · split at failed
      · cases failed
      · cases failed
        rfl
    · rw [Configuration.describe, read] at failed
      change (if c.namesAreWritable = true then pure _ else throw Failure.unusable) = _ at failed
      split at failed
      · cases failed
      · cases failed
        rfl

/-- Sound settings are not reported. -/
theorem not_reports_showConfiguration {settings : List (Key × Setting)}
    (read : settingsOf c.rules = .ok settings) :
    ¬ (showConfiguration options validate asJson c).Reports fault := by
  intro reports
  simp only [showConfiguration, read] at reports
  cases printed : printConfiguration options validate asJson c with
  | ok shown =>
      rw [printed] at reports
      exact not_reports_printing reports
  | error failure =>
      rw [printed, eq_unusable_of_printConfiguration read printed] at reports
      cases reports

theorem not_reports_showDiagnostics {path : Path} {format : ReportFormat}
    {diagnostics : List Diagnostic} :
    ¬ (showDiagnostics path format d diagnostics).Reports fault := by
  intro reports
  rw [showDiagnostics] at reports
  split at reports
  · cases reports
  · exact not_reports_printing reports

theorem outcome_configCommand (w : World) (options : ProgramOptions) (validate asJson : Bool) :
    (configCommand w options validate asJson).outcome =
      match runOptions w options with
      | .error failure => reportFailure failure
      | .ok described =>
          match (prepare w described).outcome with
          | .error failure => reportFailure failure
          | .ok (c, _) => showConfiguration options validate asJson c := by
  simp only [configCommand, Logged.outcome_bind, outcome_ofExcept]
  cases runOptions w options with
  | error failure => rfl
  | ok described =>
      simp only [Except.bind]
      cases (prepare w described).outcome <;> rfl

theorem outcome_lintCommand {tree : Text} (read : readTree w (Path.ofText tree) = .ok d)
    (format : ReportFormat) :
    (lintCommand w options tree format).outcome =
      match runOptions w options with
      | .error failure => reportFailure failure
      | .ok described =>
          match (lint w d described Registry.default).outcome with
          | .error failure => reportFailure failure
          | .ok r => showDiagnostics (Path.ofText tree) format d r.diagnostics := by
  simp only [lintCommand, read]
  cases runOptions w options with
  | error failure => rfl
  | ok described =>
      simp only
      cases (lint w d described Registry.default).outcome <;> rfl

/-- The names of plugins that give rules are those of the rules. -/
theorem exists_name_of_loads {plugins : List (Key × Text)} {loaded : List (Key × Rule)}
    (loads : LoadsPlugins w base plugins loaded) {plugin : Key × Text}
    (member : plugin ∈ plugins) : ∃ entry ∈ loaded, entry.1 = plugin.1 := by
  induction loads with
  | nil => cases member
  | cons gives _ ih =>
      cases member with
      | head => exact ⟨_, List.mem_cons_self, gives.named⟩
      | tail _ later =>
          obtain ⟨entry, memberLoaded, named⟩ := ih later
          exact ⟨entry, List.mem_cons_of_mem _ memberLoaded, named⟩

theorem RunsCleanly.known_loaded {loaded : List (Key × Rule)} (clean : RunsCleanly w d c base)
    (loads : LoadsPlugins w base c.plugins loaded) :
    ∀ entry ∈ c.rules, Table.contains entry.1 (Registry.default.registerAll loaded) = true := by
  intro entry member
  rw [contains_registerAll]
  rcases clean.known entry member with builtIn | ⟨plugin, declared, same⟩
  · exact .inl builtIn
  · obtain ⟨rule, memberLoaded, named⟩ := exists_name_of_loads loads declared
    exact .inr ⟨rule, memberLoaded, named ▸ same⟩

/-- A run in which nothing else is wrong fails with the fault of the settings, if there is one,
and otherwise does not fail. -/
theorem outcome_lint_of_clean {described : Value}
    (prepared : (prepare w described).outcome = .ok (c, base)) (clean : RunsCleanly w d c base) :
    match settingsOf c.rules with
    | .error fault => (lint w d described Registry.default).outcome = .error (.ofFault fault)
    | .ok _ => ∃ r, (lint w d described Registry.default).outcome = .ok r := by
  have names : Prepares w described Registry.default c base := ⟨c, prepared, rfl⟩
  obtain ⟨loaded, loads, passes⟩ := clean.loads
  have known := clean.known_loaded loads
  cases read : settingsOf c.rules with
  | error fault =>
      obtain ⟨before, ⟨name, v⟩, after, split, sound, faulty⟩ := settingsOf_eq_error_iff.1 read
      exact (lint_of_stops (.checking names loads (.setting split known sound faulty)) d).1
  | ok settings =>
      have sound := exists_settingsOf_iff.1 ⟨settings, read⟩
      obtain ⟨_, dispatches⟩ := lint_of_ready ⟨⟨base, names, loads⟩, known, sound⟩ d
      cases ended : (lint w d described Registry.default).outcome with
      | ok r => exact ⟨r, rfl⟩
      | error failure =>
          obtain ⟨others, readAgain, entry, member, raised⟩ := dispatches.raised failure ended
          rw [read, Except.ok.injEq] at readAgain
          subst readAgain
          rw [passes settings read entry member] at raised
          cases raised

/-- Where nothing is wrong with plugins and rules, both commands report the same faults. -/
theorem reports_configCommand_iff {tree : Text} {format : ReportFormat} {others : ProgramOptions}
    (sameOptions : runOptions w others = runOptions w options)
    (read : readTree w (Path.ofText tree) = .ok d)
    (clean : ∀ described c base, runOptions w options = .ok described →
      (prepare w described).outcome = .ok (c, base) → RunsCleanly w d c base) :
    (configCommand w options validate asJson).outcome.Reports fault ↔
      (lintCommand w others tree format).outcome.Reports fault := by
  rw [outcome_configCommand, outcome_lintCommand read, sameOptions]
  cases named : runOptions w options with
  | error failure => exact Iff.rfl
  | ok described =>
      simp only
      cases prepared : (prepare w described).outcome with
      | error failure =>
          rw [(lint_of_stops (.preparing prepared) d).1]
      | ok found =>
          obtain ⟨c, base⟩ := found
          have ended := outcome_lint_of_clean prepared (clean _ c base named prepared)
          cases settled : settingsOf c.rules with
          | error other =>
              rw [settled] at ended
              simp only [showConfiguration, settled, ended]
          | ok settings =>
              rw [settled] at ended
              obtain ⟨r, finished⟩ := ended
              rw [finished]
              constructor
              · intro reports
                exact absurd reports (not_reports_showConfiguration settled)
              · intro reports
                exact absurd reports not_reports_showDiagnostics

end Commands

/-!
### The program
-/

/-- Arguments name a command, with the options of the program before it. -/
structure NamesCommand (w : World) (arguments : List Text) (options : ProgramOptions)
    (command : Command) : Prop where
  parsed : ∃ rest, ProgramOptions.parse? arguments = some (options, rest)
    ∧ w.checkCommand rest = .ok command
  runs : options.showVersion = false

section Program

variable {w : World} {options others : ProgramOptions} {arguments : List Text} {command : Command}

theorem outcome_runCommand (names : NamesCommand w arguments options command) :
    (runCommand w arguments).outcome =
      match w.checkOptions options with
      | .error refusal => refusal.outcome
      | .ok _ => (runParsed w options command).outcome := by
  obtain ⟨⟨rest, parsed, checked⟩, runs⟩ := names
  simp only [runCommand, parsed, runs]
  cases w.checkOptions options with
  | error refusal => rfl
  | ok _ =>
      have followed : (Except.ok () >>= fun _ => w.checkCommand rest) = .ok command := checked
      simp [followed]

/-- The order in which the paths are looked at does not matter for whether they will do. -/
theorem checkOptions_eq_ok_iff :
    w.checkOptions options = .ok () ↔
      checkPath w.namesDirectory options.config = .ok ()
        ∧ checkPath w.namesFile options.basedir = .ok () := by
  have both : ∀ first second : Except Refusal Unit,
      (do first; second) = .ok () ↔ first = .ok () ∧ second = .ok () := by
    intro first second
    cases first <;> simp [bind, Except.bind]
  rw [World.checkOptions]
  split
  · rw [both, and_comm]
  · rw [both]

end Program

/-- On the same files, options of the program that name the same configuration file and the same
base directory make the command that shows or checks the configuration and the command that
lints report the same faults, in the same words, as long as the tree can be read and, where a
configuration is prepared, nothing but its settings is wrong. -/
theorem runCommand_reports_iff {w : World} {d : Document} {showing linting : List Text}
    {options others : ProgramOptions} {validate asJson : Bool} {tree : Text}
    {format : ReportFormat}
    (shows : NamesCommand w showing options (.config validate asJson))
    (lints : NamesCommand w linting others (.lint tree format))
    (sameConfig : others.config = options.config) (sameBasedir : others.basedir = options.basedir)
    (read : readTree w (Path.ofText tree) = .ok d)
    (clean : ∀ described c base, runOptions w options = .ok described →
      (prepare w described).outcome = .ok (c, base) → RunsCleanly w d c base)
    (fault : ConfigFault) :
    (runCommand w showing).outcome.Reports fault
      ↔ (runCommand w linting).outcome.Reports fault := by
  have sameOptions : runOptions w others = runOptions w options := by
    simp only [runOptions, configFile, basedirOption, sameConfig, sameBasedir]
  have sameChecks : w.checkOptions others = .ok () ↔ w.checkOptions options = .ok () := by
    rw [checkOptions_eq_ok_iff, checkOptions_eq_ok_iff, sameConfig, sameBasedir]
  rw [outcome_runCommand shows, outcome_runCommand lints]
  cases checked : w.checkOptions options with
  | ok _ =>
      rw [sameChecks.2 checked]
      exact reports_configCommand_iff sameOptions read clean
  | error refusal =>
      cases checkedOthers : w.checkOptions others with
      | ok _ =>
          rw [sameChecks.1 checkedOthers] at checked
          cases checked
      | error other =>
          constructor
          · intro reports
            exact absurd reports (not_reports_refusal refusal)
          · intro reports
            exact absurd reports (not_reports_refusal other)

/-!
A configuration file with a plugin, and a severity for its rule that is none.  The check of the
configuration does not look at the plugin, and the run over a tree does; both report the severity.
-/

/-- Entries with a severity that is none. -/
def loudEntries : Mapping :=
  [(.str "rules", .map [(.str "mine", .str "loud"), (.str "block-no-empty", .int 2)]),
   (.str "plugins", .map [(.str "mine", .str "./mine.py")])]

/-- The configuration file, the plugin and a tree. -/
def loudFiles : World where
  tree := ⟨[
    (["style.py"], .module (.exporting (some (.map loudEntries)) .absent)),
    (["mine.py"], .module (.exporting none (.callable (Rule.speaking [] none)))),
    (["tree.json"], .file "\x7b\"type\":\"root\"\x7d".toUTF8)]⟩
  workingDirectory := []
  searchPath := []

/-- The configuration in the file. -/
def loudConfiguration : Configuration where
  rules := [(.str "mine", .str "loud"), (.str "block-no-empty", .int 2)]
  plugins := [(.str "mine", "./mine.py")]
  quiet := false
  basedir := some ⟨.root, []⟩

/-- The options of a run with the file. -/
def loudOptions : Value :=
  .map [(.str "config", .map (loudEntries ++ [(.str "config_basedir", .str "/")]))]

/-- The options of the program that name the file. -/
def loudProgram : ProgramOptions := ⟨some "style.py", none, false, .warning, false⟩

def loudCheck : List Text := ["--config", "style.py", "config", "--validate"]

def loudLint : List Text := ["--config", "style.py", "--verbose", "lint", "tree.json"]

theorem runOptions_loud : runOptions loudFiles loudProgram = .ok loudOptions := by cbv

theorem prepare_loud :
    (prepare loudFiles loudOptions).outcome = .ok (loudConfiguration, ⟨.root, []⟩) := by cbv

theorem readTree_loud : readTree loudFiles (Path.ofText "tree.json") = .ok emptyDocument := by
  cbv

theorem namesCommand_loudCheck :
    NamesCommand loudFiles loudCheck loudProgram (.config true false) where
  parsed := ⟨["config", "--validate"], rfl, rfl⟩
  runs := rfl

theorem namesCommand_loudLint :
    NamesCommand loudFiles loudLint { loudProgram with level := .info }
      (.lint "tree.json" .text) where
  parsed := ⟨["lint", "tree.json"], rfl, rfl⟩
  runs := rfl

theorem runsCleanly_loud : RunsCleanly loudFiles emptyDocument loudConfiguration ⟨.root, []⟩ where
  known := by decide
  loads := by
    let plugin : loudFiles.tree.File := ⟨["mine.py"], by decide⟩
    have loaded : loudFiles.loadRule plugin = .ok (Rule.speaking [] none) := by cbv
    have gives : GivesRule loudFiles ⟨.root, []⟩ (.str "mine", "./mine.py")
        (.str "mine", Rule.speaking [] none) := ⟨rfl, plugin, rfl, loaded⟩
    refine ⟨_, .cons gives .nil, ?_⟩
    intro settings impossible
    cases impossible

theorem reports_loudCheck :
    (runCommand loudFiles loudCheck).outcome.Reports
      (.invalidSeverity (.str "loud") (.str "mine")) := by
  have accepted : loudFiles.checkOptions loudProgram = .ok () := rfl
  rw [outcome_runCommand namesCommand_loudCheck, accepted, reports_iff]
  simp only [runParsed, outcome_configCommand, runOptions_loud, prepare_loud]
  rfl

theorem runCommand_reports_iff_loud :
    (runCommand loudFiles loudCheck).outcome.Reports
        (.invalidSeverity (.str "loud") (.str "mine"))
      ∧ (runCommand loudFiles loudLint).outcome.Reports
        (.invalidSeverity (.str "loud") (.str "mine")) := by
  have clean : ∀ described c base, runOptions loudFiles loudProgram = .ok described →
      (prepare loudFiles described).outcome = .ok (c, base) →
        RunsCleanly loudFiles emptyDocument c base := by
    intro described c base again prepared
    rw [runOptions_loud] at again
    cases again
    rw [prepare_loud] at prepared
    cases prepared
    exact runsCleanly_loud
  have agree := runCommand_reports_iff namesCommand_loudCheck namesCommand_loudLint rfl rfl
    readTree_loud clean (.invalidSeverity (.str "loud") (.str "mine"))
  exact ⟨reports_loudCheck, agree.1 reports_loudCheck⟩

end StyleAudit
