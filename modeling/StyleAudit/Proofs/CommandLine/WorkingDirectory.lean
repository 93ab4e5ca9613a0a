/-
Module: StyleAudit.Proofs.CommandLine.WorkingDirectory
Purpose: A program whose paths are all absolute prints, logs and exits the same from every working
  directory.
Trusted boundary: none
Main exports: World.NamesAbsoluteBase, NamesAbsolutely, NamesAbsoluteTree, runCommand_movedTo
-/
import StyleAudit.CommandLine
import StyleAudit.Proofs.Lint.WorkingDirectory

namespace StyleAudit

/-!
### Commands
-/

/-- The base directory that a configuration file names, if it names one, is an absolute path. -/
def World.NamesAbsoluteBase (w : World) (p : Path) : Prop :=
  ∀ resolved file v, w.absolute p = .ok resolved → w.readEntries resolved = .ok file →
    file.entries.find? basedirKey = some v → ∃ t, v = .str t ∧ (Path.ofText t).isAbsolute = true

/-- The program's options name an absolute configuration file, in which nothing but an absolute
path is named as the base directory, and no base directory but an absolute one. -/
structure NamesAbsolutely (w : World) (options : ProgramOptions) : Prop where
  config : ∃ file, options.config = some file ∧ (Path.ofText file).isAbsolute = true
    ∧ w.NamesAbsoluteBase (Path.ofText file)
  basedir : ∀ directory, options.basedir = some directory →
    (Path.ofText directory).isAbsolute = true

section Commands

variable {w : World} {directory : Location} {options : ProgramOptions}

theorem startsAbsolutely_readConfigFile {p : Path} (names : w.NamesAbsoluteBase p)
    {file : FileEntries} (read : w.readConfigFile p = .ok file) :
    StartsAbsolutely file.entries := by
  obtain ⟨resolved, made, read⟩ := bind_eq_ok_iff.1 read
  obtain ⟨inner, readInner, done⟩ := bind_eq_ok_iff.1 read
  cases done
  have above : resolved.parent.isAbsolute = true := by
    have resolvedAbsolute := isAbsolute_of_absolute made
    exact resolvedAbsolute
  have held (v : Value) :
      Mapping.find? basedirKey (Table.putNew (Key.str basedirKey) v inner.entries)
        = some ((inner.entries.find? basedirKey).getD v) := by
    rw [Mapping.find?, Table.get?_putNew, if_pos (LawfulSameness.refl _)]
    rfl
  cases named : inner.entries.find? basedirKey with
  | some v =>
      obtain ⟨t, rfl, absolute⟩ := names _ _ v made readInner named
      exact ⟨t, by rw [held, named]; rfl, absolute⟩
  | none =>
      exact ⟨resolved.parent.display, by rw [held, named]; rfl, isAbsolute_ofText_display above⟩

theorem configFile_movedTo (names : NamesAbsolutely w options) :
    configFile (w.movedTo directory) options = configFile w options := by
  obtain ⟨file, named, absolute, _⟩ := names.config
  simp only [configFile, named]
  exact readConfigFile_movedTo absolute

theorem startsAbsolutely_configFile (names : NamesAbsolutely w options) {file : FileEntries}
    (read : configFile w options = .ok file) : StartsAbsolutely file.entries := by
  obtain ⟨_, named, _, base⟩ := names.config
  rw [configFile, named] at read
  exact startsAbsolutely_readConfigFile base read

theorem basedirOf_cons_config (v : Value) (data : Mapping) :
    basedirOf ((.str configKey, v) :: data) = basedirOf data := rfl

/-- The base directory of a run is told by the program's options or by the configuration file, and
so it is absolute. -/
theorem exists_baseDirectory (names : NamesAbsolutely w options) {entries : Mapping}
    (starts : StartsAbsolutely entries) :
    ∃ base : Path, base.isAbsolute = true
      ∧ ∀ v : World, baseDirectory v (basedirOption options) entries = .ok base := by
  cases given : options.basedir with
  | some text =>
      have absolute := isAbsolute_ofText_display (names.basedir text given)
      have tells : StartsAbsolutely (basedirOption options) := by
        rw [basedirOption, given]
        exact ⟨_, rfl, absolute⟩
      obtain ⟨base, gives, absolute⟩ := tells.givesDirectory
      exact ⟨base, absolute, fun v => baseDirectory_ok_iff.2 (.options gives)⟩
  | none =>
      have bare : GivesDirectory (basedirOption options) none := by
        rw [basedirOption, given]
        exact .absent (by simp [Mapping.find?])
      obtain ⟨base, gives, absolute⟩ := starts.givesDirectory
      exact ⟨base, absolute, fun v => baseDirectory_ok_iff.2 (.configuration bare gives)⟩

theorem runOptions_movedTo (names : NamesAbsolutely w options) :
    runOptions (w.movedTo directory) options = runOptions w options := by
  rw [runOptions, runOptions, configFile_movedTo names]
  cases read : configFile w options with
  | error failure => rfl
  | ok file =>
      obtain ⟨base, _, starts⟩ :=
        exists_baseDirectory names (startsAbsolutely_configFile names read)
      simp only [bind, Except.bind, starts]

theorem fixesBase_of_runOptions (names : NamesAbsolutely w options) {described : Value}
    (told : runOptions w options = .ok described) :
    ∃ entries, described = .map entries ∧ FixesBase entries := by
  obtain ⟨file, read, told⟩ := bind_eq_ok_iff.1 told
  have starts := startsAbsolutely_configFile names read
  obtain ⟨base, absolute, found⟩ := exists_baseDirectory names starts
  simp only at told
  split at told
  · obtain ⟨_, _, stops⟩ := bind_eq_ok_iff.1 told
    cases stops
  · cases told
    refine ⟨_, rfl, file.entries, base, ?_, absolute, fun v => ?_⟩
    · obtain ⟨t, held, _⟩ := starts
      cases listed : file.entries with
      | nil =>
          rw [listed] at held
          cases held
      | cons entry rest => rfl
    · rw [← found v, baseDirectory, baseDirectory, basedirOf_cons_config]

/-!
The arguments of the command are looked at in the same way.
-/

theorem reachArgument_movedTo {argument : Text}
    (absolute : (Path.ofText argument).isAbsolute = true) :
    (w.movedTo directory).reachArgument argument = w.reachArgument argument := by
  have literal : (Path.literal argument).isAbsolute = true := by
    simp only [Path.literal]
    split
    · split <;> exact absolute
    · exact absolute
  rw [World.reachArgument, World.reachArgument, reach_movedTo literal]

theorem namesFile_movedTo {argument : Text}
    (absolute : (Path.ofText argument).isAbsolute = true) :
    (w.movedTo directory).namesFile argument = w.namesFile argument := by
  rw [World.namesFile, World.namesFile, reachArgument_movedTo absolute]

theorem namesDirectory_movedTo {argument : Text}
    (absolute : (Path.ofText argument).isAbsolute = true) :
    (w.movedTo directory).namesDirectory argument = w.namesDirectory argument := by
  rw [World.namesDirectory, World.namesDirectory, reachArgument_movedTo absolute]

theorem checkPath_congr {isWrong other : Text → Bool} {argument : Option Text}
    (agree : ∀ text, argument = some text → isWrong text = other text) :
    checkPath isWrong argument = checkPath other argument := by
  cases argument with
  | none => rfl
  | some text => rw [checkPath, checkPath, agree text rfl]

theorem checkOptions_movedTo (names : NamesAbsolutely w options) :
    (w.movedTo directory).checkOptions options = w.checkOptions options := by
  have config : checkPath (w.movedTo directory).namesDirectory options.config
      = checkPath w.namesDirectory options.config := by
    apply checkPath_congr
    intro text named
    obtain ⟨file, named', absolute, _⟩ := names.config
    cases named.symm.trans named'
    exact namesDirectory_movedTo absolute
  have basedir : checkPath (w.movedTo directory).namesFile options.basedir
      = checkPath w.namesFile options.basedir :=
    checkPath_congr fun text named => namesFile_movedTo (names.basedir text named)
  rw [World.checkOptions, World.checkOptions, config, basedir]

/-- The arguments of the command name no tree but at an absolute path. -/
def NamesAbsoluteTree (arguments : List Text) : Prop :=
  ∀ tree format, Command.parse arguments = .ok (.lint tree format) →
    (Path.ofText tree).isAbsolute = true

theorem checkCommand_movedTo {arguments : List Text} (named : NamesAbsoluteTree arguments) :
    (w.movedTo directory).checkCommand arguments = w.checkCommand arguments := by
  rw [World.checkCommand, World.checkCommand]
  cases parsed : Command.parse arguments with
  | error refusal => rfl
  | ok command =>
      cases command with
      | lint tree format =>
          simp only [bind, Except.bind, namesFile_movedTo (named tree format parsed)]
      | _ => rfl

theorem parse_of_checkCommand {arguments : List Text} {command : Command}
    (checked : w.checkCommand arguments = .ok command) :
    Command.parse arguments = .ok command := by
  obtain ⟨parsed, told, kept⟩ := bind_eq_ok_iff.1 checked
  cases parsed with
  | lint tree format =>
      simp only at kept
      split at kept
      · cases kept
        exact told
      · cases kept
  | _ =>
      cases kept
      exact told

theorem readTree_movedTo {p : Path} (absolute : p.isAbsolute = true) :
    readTree (w.movedTo directory) p = readTree w p := by
  rw [readTree, readTree, fileAt?_movedTo absolute]

theorem configCommand_movedTo (search : w.SearchesAbsolutely) (names : NamesAbsolutely w options)
    (validate asJson : Bool) :
    configCommand (w.movedTo directory) options validate asJson
      = configCommand w options validate asJson := by
  have prepared : (Logged.ofExcept (runOptions (w.movedTo directory) options)
        >>= prepare (w.movedTo directory))
      = Logged.ofExcept (runOptions w options) >>= prepare w := by
    rw [runOptions_movedTo names]
    refine Logged.bind_congr fun described told => ?_
    obtain ⟨entries, rfl, fixes⟩ := fixesBase_of_runOptions names told
    exact prepare_movedTo search fixes
  rw [configCommand, configCommand, prepared]

theorem lintCommand_movedTo (search : w.SearchesAbsolutely) (names : NamesAbsolutely w options)
    {tree : Text} (absolute : (Path.ofText tree).isAbsolute = true) (format : ReportFormat) :
    lintCommand (w.movedTo directory) options tree format = lintCommand w options tree format := by
  simp only [lintCommand, readTree_movedTo absolute, runOptions_movedTo names]
  cases readTree w (Path.ofText tree) with
  | error fault => rfl
  | ok d =>
      cases told : runOptions w options with
      | error failure => rfl
      | ok described =>
          obtain ⟨entries, rfl, fixes⟩ := fixesBase_of_runOptions names told
          simp only [lint_movedTo search fixes]

/-- A program whose paths are all absolute prints, logs and exits the same from every working
directory. -/
theorem runCommand_movedTo {arguments rest : List Text}
    (parsed : ProgramOptions.parse? arguments = some (options, rest))
    (search : w.SearchesAbsolutely) (names : NamesAbsolutely w options)
    (named : NamesAbsoluteTree rest) (directory : Location) :
    runCommand (w.movedTo directory) arguments = runCommand w arguments := by
  simp only [runCommand, parsed, checkOptions_movedTo names, checkCommand_movedTo named]
  split
  · rfl
  · cases checked : w.checkOptions options >>= fun _ => w.checkCommand rest with
    | error refusal => rfl
    | ok command =>
        obtain ⟨_, _, followed⟩ := bind_eq_ok_iff.1 checked
        have same : runParsed (w.movedTo directory) options command
            = runParsed w options command := by
          cases command with
          | config validate asJson => exact configCommand_movedTo search names validate asJson
          | rules => rfl
          | lint tree format =>
              have absolute := named tree format (parse_of_checkCommand followed)
              exact lintCommand_movedTo search names absolute format
        simp only [same]

end Commands

/-!
A configuration file behind a link.  Its lookups start from the directory that the link leads to,
whatever stands in the working directory.
-/

/-- The entries of the configuration file. -/
def deskEntries : Mapping :=
  [(.str "extends", .str "./base.py"), (.str "rules", .map [(.str "block-no-empty", .int 2)])]

/-- The file behind the link, the file that it extends, a tree, and a file of the same name in
another directory. -/
def deskFiles : World where
  tree := ⟨[
    (["main.py"], .link ⟨.relative, ["desk", "main.py"]⟩),
    (["desk", "main.py"], .module (.exporting (some (.map deskEntries)) .absent)),
    (["desk", "base.py"], .module (.exporting
      (some (.map [(.str "config_basedir", .str "..")])) .absent)),
    (["away", "base.py"], .module (.raising "away")),
    (["tree.json"], .file ⟨#[0x7b, 0x7d]⟩)]⟩
  workingDirectory := ["desk"]
  searchPath := [⟨.root, ["away"]⟩]

/-- What is asked for. -/
def deskArguments : List Text := ["--config", "/main.py", "lint", "/tree.json"]

theorem namesAbsoluteBase_desk : deskFiles.NamesAbsoluteBase (Path.ofText "/main.py") := by
  intro resolved file v made read held
  have leads : deskFiles.absolute (Path.ofText "/main.py") = .ok ⟨.root, ["desk", "main.py"]⟩ := by
    cbv
  cases leads.symm.trans made
  have holds : deskFiles.readEntries ⟨.root, ["desk", "main.py"]⟩ = .ok ⟨deskEntries, false⟩ := by
    cbv
  cases holds.symm.trans read
  cases held

theorem runCommand_movedTo_desk :
    deskFiles.SearchesAbsolutely
      ∧ NamesAbsolutely deskFiles ⟨some "/main.py", none, false, .warning, false⟩
      ∧ NamesAbsoluteTree ["lint", "/tree.json"]
      ∧ runCommand (deskFiles.movedTo ["away"]) deskArguments
          = runCommand deskFiles deskArguments := by
  have search : deskFiles.SearchesAbsolutely := List.forall_mem_singleton.2 rfl
  have names : NamesAbsolutely deskFiles ⟨some "/main.py", none, false, .warning, false⟩ :=
    ⟨⟨_, rfl, rfl, namesAbsoluteBase_desk⟩, by rintro _ ⟨⟩⟩
  have named : NamesAbsoluteTree ["lint", "/tree.json"] := by
    rintro tree format parsed
    cases parsed
    rfl
  exact ⟨search, names, named, runCommand_movedTo (by cbv) search names named ["away"]⟩

end StyleAudit
