/-
Module: StyleAudit.Log
Purpose: What operations log, as data, and the words for each record.
Trusted boundary: none
Main exports: LogLevel, LogRecord, LogRecord.level, LogRecord.topic, LogRecord.message, Logged
-/
import StyleAudit.Failure
import StyleAudit.Suppression.Directive

namespace StyleAudit

/-!
### Log records
-/

/-- How much detail a record gives. -/
inductive LogLevel where
  | debug
  | info
  | warning
deriving DecidableEq, Repr

namespace LogLevel

/-- The rank of a level; more matters more. -/
def rank : LogLevel → Nat
  | .debug => 10
  | .info => 20
  | .warning => 30

/-- The word for a level. -/
def title : LogLevel → String
  | .debug => "DEBUG"
  | .info => "INFO"
  | .warning => "WARNING"

end LogLevel

/-- Something worth logging. -/
inductive LogRecord where
  | resolved (lookup : Text) (base found : Path)
  | extending (file : Path)
  | directive (d : PlacedDirective)
  | enableIgnored (rule : Text) (line : Int)
  | nothingToEnable (rule : Text) (line : Int)
  | suppressed (rule : Text) (position : Position)
  | skipping (rule : Key)
  | ruleFinished (rule : Key) (severity : Severity) (count : Nat)
  | pluginReplaces (file : Path) (rule : Key)
  | pluginLoaded (rule : Key) (file : Path)
  | configResolved (rules : Nat)
  | rangesFound (count : Nat)
  | finished (rules diagnostics : Nat)
deriving Repr

namespace LogRecord

/-- How much detail the record gives. -/
def level : LogRecord → LogLevel
  | .enableIgnored _ _ => .warning
  | .configResolved _ => .info
  | .finished _ _ => .info
  | _ => .debug

/-- The part of the program that the record is about. -/
def topic : LogRecord → String
  | .resolved _ _ _ => "sheetlint.modules"
  | .extending _ => "sheetlint.config"
  | .directive _ => "sheetlint.disable_ranges"
  | .enableIgnored _ _ => "sheetlint.disable_ranges"
  | .nothingToEnable _ _ => "sheetlint.disable_ranges"
  | .suppressed _ _ => "sheetlint.context"
  | .skipping _ => "sheetlint.dispatcher"
  | .ruleFinished _ _ _ => "sheetlint.dispatcher"
  | .pluginReplaces _ _ => "sheetlint.plugins"
  | .pluginLoaded _ _ => "sheetlint.plugins"
  | .configResolved _ => "sheetlint.runner"
  | .rangesFound _ => "sheetlint.runner"
  | .finished _ _ => "sheetlint.runner"

/-- The names that a directive's record shows: its list, or the name for all. -/
def shownRules (rules : List Text) : Text :=
  if rules.isEmpty then Directive.allRules else (Value.seq (rules.map .str)).described

/-- The words of a record; the elapsed time is given as text. -/
def message (elapsed : String) : LogRecord → Text
  | .resolved lookup base found =>
      "Resolved " ++ Text.quoted lookup ++ " from " ++ base.display ++ " to " ++ found.display
  | .extending file => "Extending from " ++ file.display
  | .directive d =>
      "Directive " ++ d.directive.kind.keyword ++ " " ++ shownRules d.directive.rules
        ++ " at line " ++ toString d.line
  | .enableIgnored rule line =>
      "Ignoring sheetlint-enable for " ++ Text.quoted rule ++ " at line " ++ toString line
        ++ ": all rules are disabled"
  | .nothingToEnable rule line =>
      "Nothing to enable for " ++ Text.quoted rule ++ " at line " ++ toString line
  | .suppressed rule position =>
      "Suppressed " ++ rule ++ " at " ++ toString position.line ++ ":" ++ toString position.column
  | .skipping rule => "Skipping " ++ rule.display ++ " (off)"
  | .ruleFinished rule severity count =>
      "Rule " ++ rule.display ++ " (" ++ severity.label ++ ") produced " ++ toString count
        ++ " diagnostics"
  | .pluginReplaces file rule =>
      "Plugin " ++ file.display ++ " replaces registered rule " ++ rule.display
  | .pluginLoaded rule file =>
      "Loaded plugin rule " ++ rule.display ++ " from " ++ file.display
  | .configResolved rules => "Resolved configuration with " ++ toString rules ++ " rules"
  | .rangesFound count => "Found " ++ toString count ++ " disable ranges"
  | .finished rules diagnostics =>
      "Ran " ++ toString rules ++ " rules, " ++ toString diagnostics
        ++ " diagnostics. Completed in " ++ elapsed ++ "s"

end LogRecord

/-!
### Operations that log

An operation that logs gives its records whether it succeeds or fails.
-/

/-- What was logged, and a result or a failure. -/
structure Logged (α : Type) where
  log : List LogRecord
  outcome : Except Failure α

namespace Logged

variable {α β : Type}

/-- A result without records. -/
protected def pure (a : α) : Logged α := ⟨[], .ok a⟩

/-- Goes on with a result; after a failure nothing more is done. -/
protected def bind (first : Logged α) (next : α → Logged β) : Logged β :=
  match first.outcome with
  | .ok a => ⟨first.log ++ (next a).log, (next a).outcome⟩
  | .error failure => ⟨first.log, .error failure⟩

instance : Monad Logged where
  pure := Logged.pure
  bind := Logged.bind

/-- Logs one record. -/
def note (r : LogRecord) : Logged Unit := ⟨[r], .ok ()⟩

/-- Fails. -/
def fail (failure : Failure) : Logged α := ⟨[], .error failure⟩

/-- Fails with a fault of the configuration. -/
def refuse (fault : ConfigFault) : Logged α := fail (.ofFault fault)

/-- An outcome without records. -/
def ofExcept (outcome : Except Failure α) : Logged α := ⟨[], outcome⟩

@[simp] theorem outcome_pure (a : α) : (pure a : Logged α).outcome = .ok a := rfl

/-- The outcome of two steps is the outcome of the steps in turn. -/
theorem outcome_bind (first : Logged α) (next : α → Logged β) :
    (first >>= next).outcome = first.outcome.bind fun a => (next a).outcome := by
  show (Logged.bind first next).outcome = _
  unfold Logged.bind
  cases first.outcome <;> rfl

end Logged

end StyleAudit
