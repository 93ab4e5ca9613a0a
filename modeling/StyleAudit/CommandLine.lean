/-
Module: StyleAudit.CommandLine
Purpose: The command line: its arguments, and what each command prints and exits with.
Trusted boundary: none
Main exports: ProgramOptions, ProgramOptions.parse?, Command, Command.parse, CommandOutcome,
  CommandRun, runCommand
-/
import StyleAudit.Console
import StyleAudit.Document.Reader
import StyleAudit.Lint
import StyleAudit.Report

namespace StyleAudit

/-!
### Arguments

Options of the program stand before the command, options of a command anywhere
behind it.  An option's value is the next argument, or follows an equals sign.
Two hyphens alone end the options.
-/

/-- The version of the program. -/
def version : String := "0.1.0"

/-- A command with its own options. -/
inductive Command where
  | config (validate asJson : Bool)
  | rules
  | lint (tree : Text) (format : ReportFormat)
deriving DecidableEq, Repr

/-- What the program's options say, and whether the base directory was named before any
configuration file. -/
structure ProgramOptions where
  config : Option Text
  basedir : Option Text
  basedirFirst : Bool
  level : LogLevel
  showVersion : Bool
deriving DecidableEq, Repr

/-- Why arguments are not followed: they are not understood, or a path among them cannot
be asked about. -/
inductive Refusal where
  | usage
  | unusable
deriving DecidableEq, Repr

/-- An option as written: its name and the value behind an equals sign. -/
structure OptionText where
  name : Text
  value : Option Text

/-- The option that an argument is, if it is one. -/
def OptionText.ofArgument? (argument : Text) : Option OptionText :=
  match argument.points with
  | .char '-' :: _ :: _ =>
      let name := argument.points.takeWhile (· != .char '=')
      let rest := argument.points.drop name.length
      some ⟨⟨name⟩, if rest.isEmpty then none else some ⟨rest.tail⟩⟩
  | _ => none

/-- The value of an option and the arguments behind it. -/
def OptionText.withValue? (o : OptionText) (rest : List Text) :
    Option (Text × List Text) :=
  match o.value, rest with
  | some value, rest => some (value, rest)
  | none, value :: rest => some (value, rest)
  | none, [] => none

/-- One option of the program; the level only ever gets more detailed.  Help is no answer,
but who has asked for the version gets that first. -/
def ProgramOptions.set? (p : ProgramOptions) (o : OptionText) (rest : List Text) :
    Option (ProgramOptions × List Text) :=
  match o.name.shown, o.value with
  | "--config", _ => (o.withValue? rest).map fun (v, rest) => ({ p with config := some v }, rest)
  | "--config-basedir", _ =>
      (o.withValue? rest).map fun (v, rest) =>
        ({ p with basedir := some v, basedirFirst := p.basedirFirst || p.config.isNone }, rest)
  | "--verbose", none =>
      some ({ p with level := if p.level = .debug then .debug else .info }, rest)
  | "--debug", none => some ({ p with level := .debug }, rest)
  | "--version", none => some ({ p with showVersion := true }, rest)
  | "--help", none => if p.showVersion then some (p, rest) else none
  | _, _ => none

/-- The program's options, and the command with its arguments. -/
def ProgramOptions.take? : Nat → ProgramOptions → List Text →
    Option (ProgramOptions × List Text)
  | 0, p, rest => some (p, rest)
  | _ + 1, p, [] => some (p, [])
  | fuel + 1, p, argument :: rest =>
      if argument = "--" then some (p, rest)
      else
        match OptionText.ofArgument? argument with
        | none => some (p, argument :: rest)
        | some o =>
            match p.set? o rest with
            | none => none
            | some (p, rest) => ProgramOptions.take? fuel p rest

/-- The options and the other arguments of a command. -/
structure CommandArguments where
  validate : Bool
  asJson : Bool
  format : Option Text
  operands : List Text

/-- One option of a command; each command knows its own. -/
def CommandArguments.set? (name : String) (a : CommandArguments) (o : OptionText)
    (rest : List Text) : Option (CommandArguments × List Text) :=
  match name, o.name.shown, o.value with
  | "config", "--validate", none => some ({ a with validate := true }, rest)
  | "config", "--json", none => some ({ a with asJson := true }, rest)
  | "lint", "--format", _ =>
      (o.withValue? rest).map fun (v, rest) => ({ a with format := some v }, rest)
  | _, _, _ => none

/-- The options of a command, wherever they stand, and its other arguments. -/
def CommandArguments.take? (name : String) : Nat → CommandArguments → List Text →
    Option CommandArguments
  | 0, a, rest => some { a with operands := a.operands ++ rest }
  | _ + 1, a, [] => some a
  | fuel + 1, a, argument :: rest =>
      if argument = "--" then some { a with operands := a.operands ++ rest }
      else
        match OptionText.ofArgument? argument with
        | none => take? name fuel { a with operands := a.operands ++ [argument] } rest
        | some o =>
            match a.set? name o rest with
            | none => none
            | some (a, rest) => take? name fuel a rest

/-- The program's options, and the command with its arguments; none when the options are
not understood. -/
def ProgramOptions.parse? (arguments : List Text) : Option (ProgramOptions × List Text) :=
  ProgramOptions.take? arguments.length ⟨none, none, false, .warning, false⟩ arguments

/-- The argument holds something that no path can hold. -/
def isUnnameable (argument : Text) : Bool :=
  argument.fileBytes?.isNone

/-- The command of a name with its arguments.  Whether a path can be asked about counts
before any argument that is too many. -/
def Command.parse : List Text → Except Refusal Command
  | [] => .error .usage
  | name :: arguments =>
      let start : CommandArguments := ⟨false, false, none, []⟩
      match CommandArguments.take? name.shown arguments.length start arguments with
      | none => .error .usage
      | some a =>
          match name.shown, a.operands with
          | "config", [] => .ok (.config a.validate a.asJson)
          | "rules", [] => .ok .rules
          | "lint", tree :: others =>
              match ReportFormat.ofWord? (a.format.getD ReportFormat.text.word).shown with
              | none => .error .usage
              | some format =>
                  if isUnnameable tree then .error .unusable
                  else if others.isEmpty then .ok (.lint tree format)
                  else .error .usage
          | _, _ => .error .usage

/-!
### Paths among the arguments

A configuration file must not be a directory, a base directory must not be a file,
and a tree must be a file.  An empty argument names nothing that exists, and an
argument that ends in a slash names no file.  The options' paths are looked at in
the order in which they were named, and before the command.
-/

/-- The place that an argument reaches, read to the letter. -/
def World.reachArgument (w : World) (argument : Text) : Except Obstacle Location :=
  if argument.isEmpty then .error .missing
  else if FileTree.pathLimit < argument.byteSize then .error .tooLong
  else w.reach (Path.literal argument)

/-- The argument names a directory. -/
def World.namesDirectory (w : World) (argument : Text) : Bool :=
  match w.reachArgument argument with
  | .ok place => w.tree.isDirectory place
  | .error _ => false

/-- The argument names a file. -/
def World.namesFile (w : World) (argument : Text) : Bool :=
  match w.reachArgument argument with
  | .ok place => w.tree.isFileAt place
  | .error _ => false

/-- Looks at a path among the options, given what it must not be. -/
def checkPath (isWrong : Text → Bool) : Option Text → Except Refusal Unit
  | none => .ok ()
  | some argument =>
      if isUnnameable argument then .error .unusable
      else if isWrong argument then .error .usage
      else .ok ()

/-- Looks at the paths among the options. -/
def World.checkOptions (w : World) (options : ProgramOptions) : Except Refusal Unit := do
  if options.basedirFirst then
    checkPath w.namesFile options.basedir
    checkPath w.namesDirectory options.config
  else
    checkPath w.namesDirectory options.config
    checkPath w.namesFile options.basedir

/-- The command that arguments name, its tree being a file. -/
def World.checkCommand (w : World) (arguments : List Text) : Except Refusal Command := do
  match ← Command.parse arguments with
  | .lint tree format => if w.namesFile tree then return .lint tree format else throw .usage
  | command => return command

/-!
### Commands
-/

/-- How a command ends: its arguments were not understood, it finished with an exit
code and texts for the two outputs, or it failed in a way it does not report. -/
inductive CommandOutcome where
  | usage
  | finished (code : Nat) (output errors : String)
  | failed (failure : Failure)

/-- How a command ends, and what it logs before it writes anything else. -/
structure CommandRun where
  log : List LogRecord
  outcome : CommandOutcome

/-- Some lines of text, each ended. -/
def ended (lines : List Text) : Text :=
  Text.join (lines.map (· ++ "\n"))

/-- A command that finished prints its texts, if they can be printed. -/
def CommandOutcome.printing (code : Nat) (output errors : Text) : CommandOutcome :=
  match Console.output? output with
  | some printed => .finished code printed (Console.errors errors)
  | none => .failed .unusable

/-- How a command reports a fault of the configuration. -/
def reportFault (fault : ConfigFault) : CommandOutcome :=
  let about : List Text := match fault.file? with
    | some file => ["  in: " ++ file.display]
    | none => []
  .printing 1 "" (ended (("Error: " ++ fault.message) :: about))

/-- How a command ends with a failure: only faults of the configuration are
reported. -/
def reportFailure : Failure → CommandOutcome
  | .configuration fault => reportFault fault
  | failure => .failed failure

/-- The file of the configuration that the program's options name; an empty one when they
name none. -/
def configFile (w : World) (options : ProgramOptions) : Except Failure FileEntries :=
  match options.config with
  | some file => w.readConfigFile (Path.ofText file)
  | none => .ok ⟨[], false⟩

/-- The base directory that the program's options name, as an option of a run. -/
def basedirOption (options : ProgramOptions) : Mapping :=
  match options.basedir with
  | some directory => [(.str basedirKey, .str (Path.ofText directory).display)]
  | none => []

/-- The options of a run that the program's options describe.  An endless configuration
fails, but not before the base directory is found. -/
def runOptions (w : World) (options : ProgramOptions) : Except Failure Value := do
  let file ← configFile w options
  let basedir := basedirOption options
  if file.isEndless then
    let _ ← baseDirectory w basedir file.entries
    throw (endlessFailure file.entries)
  else return .map ((.str configKey, .map file.entries) :: basedir)

/-- What the command that shows the configuration prints, its settings being sound. -/
def printConfiguration (options : ProgramOptions) (validate asJson : Bool) (c : Configuration) :
    Except Failure Text :=
  if validate then
    let file : Text := match options.config with
      | some file => (Path.ofText file).display
      | none => "(none)"
    .ok ("Configuration valid: " ++ file)
  else if asJson then
    match Json.write? .indented (.map c.toMapping) with
    | some json => .ok json
    | none => .error .unusable
  else c.describe

/-- How the command that shows the configuration ends. -/
def showConfiguration (options : ProgramOptions) (validate asJson : Bool) (c : Configuration) :
    CommandOutcome :=
  match settingsOf c.rules with
  | .error fault => reportFailure (.ofFault fault)
  | .ok _ =>
      match printConfiguration options validate asJson c with
      | .error failure => reportFailure failure
      | .ok shown => .printing 0 (ended [shown]) ""

/-- The command that shows or validates the configuration. -/
def configCommand (w : World) (options : ProgramOptions) (validate asJson : Bool) : CommandRun :=
  let prepared := Logged.ofExcept (runOptions w options) >>= prepare w
  match prepared.outcome with
  | .error failure => ⟨prepared.log, reportFailure failure⟩
  | .ok (c, _) => ⟨prepared.log, showConfiguration options validate asJson c⟩

/-- The command that lists the rules that come with the program. -/
def rulesCommand : CommandRun :=
  ⟨[], .printing 0 (ended Registry.default.names) ""⟩

/-- How reading a document tree ends when it gives none. -/
inductive TreeFault where
  | unreadable
  | malformed (fault : DocumentFault)
  | unusable

/-- The document in a tree file. -/
def readTree (w : World) (path : Path) : Except TreeFault Document :=
  match (w.fileAt? path).bind fun file => w.tree.entryAt? file.place with
  | some (.file bytes) =>
      match readBytes .json path bytes with
      | .error .unusable => .error .unusable
      | .error _ => .error .unreadable
      | .ok d => (Document.ofValue d.value).mapError .malformed
  | _ => .error .unreadable

/-- The words for a fault of a document tree; none for one that is not reported. -/
def TreeFault.message? : TreeFault → Option String
  | .unreadable => some "it holds no JSON text"
  | .malformed fault => some fault.message
  | .unusable => none

/-- The start of the line about a document tree that gives no document. -/
def treeFaultMark : String := "Error: cannot load document tree "

/-- How the command that lints ends when there is no document. -/
def reportTreeFault (path : Path) (fault : TreeFault) : CommandOutcome :=
  match fault.message? with
  | some reason => .printing 1 "" (ended [treeFaultMark ++ path.display ++ ": " ++ reason])
  | none => .failed .unusable

/-- What the command that lints prints, and its exit code. -/
def showDiagnostics (path : Path) (format : ReportFormat) (d : Document)
    (diagnostics : List Diagnostic) : CommandOutcome :=
  let source := if d.source.holds then d.source else .str path.display
  match Report.render? format source diagnostics with
  | none => .failed .unusable
  | some report =>
      let shown := if report.isEmpty then [] else [report]
      let closing : List Text := if format = .text then [Report.summary diagnostics] else []
      .printing (if Diagnostic.hasErrors diagnostics then 1 else 0) (ended (shown ++ closing)) ""

/-- The command that lints a document tree. -/
def lintCommand (w : World) (options : ProgramOptions) (tree : Text) (format : ReportFormat) :
    CommandRun :=
  let path := Path.ofText tree
  match readTree w path with
  | .error fault => ⟨[], reportTreeFault path fault⟩
  | .ok d =>
      match runOptions w options with
      | .error failure => ⟨[], reportFailure failure⟩
      | .ok runOptions =>
          let run := lint w d runOptions Registry.default
          match run.outcome with
          | .error failure => ⟨run.log, reportFailure failure⟩
          | .ok r => ⟨run.log, showDiagnostics path format d r.diagnostics⟩

/-- Records at a level or above. -/
def logAt (level : LogLevel) (log : List LogRecord) : List LogRecord :=
  log.filter fun r => level.rank ≤ r.level.rank

/-- How arguments that are not followed end the program. -/
def Refusal.outcome : Refusal → CommandOutcome
  | .usage => .usage
  | .unusable => .failed .unusable

/-- Runs a command. -/
def runParsed (w : World) (options : ProgramOptions) : Command → CommandRun
  | .config validate asJson => configCommand w options validate asJson
  | .rules => rulesCommand
  | .lint tree format => lintCommand w options tree format

/-- Runs the program with arguments. -/
def runCommand (w : World) (arguments : List Text) : CommandRun :=
  match ProgramOptions.parse? arguments with
  | none => ⟨[], .usage⟩
  | some (options, rest) =>
      if options.showVersion then
        ⟨[], .printing 0 (ended ["sheetlint, version " ++ version]) ""⟩
      else
        match w.checkOptions options >>= fun _ => w.checkCommand rest with
        | .error refusal => ⟨[], refusal.outcome⟩
        | .ok command =>
            let run := runParsed w options command
            { run with log := logAt options.level run.log }

/-- A record as a line of the log. -/
def LogRecord.line (elapsed : String) (r : LogRecord) : String :=
  Console.escaped (r.topic ++ ": " ++ r.message elapsed)

end StyleAudit
