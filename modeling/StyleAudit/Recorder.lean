/-
Module: StyleAudit.Recorder
Purpose: The record of one lint run, and what it takes up of the findings offered to it.
Trusted boundary: none
Main exports: Recorder, Verdict, Recorder.verdict, Recorder.report, Recorder.Step, Recorder.step
-/
import StyleAudit.Suppression.Range

namespace StyleAudit

/-!
### Recording findings

A finding is recorded under its rule's severity.  It is dropped when the rule does
not run, when only errors are wanted and it is none, and when a range suppresses
the rule in its line.  A finding about a rule's own options is always recorded, as
an error at the start of the source.
-/

/-- The severities of the rules that run, what is to be left out, and the
diagnostics so far. -/
structure Recorder where
  severities : Table Key Severity
  quiet : Bool
  ranges : List DisableRange
  diagnostics : List Diagnostic
deriving Repr

/-- What becomes of a finding. -/
inductive Verdict where
  | inactive
  | quieted
  | suppressed
  | recorded (severity : Severity)
deriving DecidableEq, Repr

namespace Recorder

/-- A record without anything in it. -/
def empty : Recorder := ⟨[], false, [], []⟩

/-- The severity of a rule; off when the rule does not run. -/
def severityOf (r : Recorder) (rule : Text) : Severity :=
  (Table.get? (Key.str rule) r.severities).getD .off

/-- Some range suppresses a rule in a line. -/
def isDisabled (r : Recorder) (rule : Text) (line : Int) : Bool :=
  r.ranges.any fun range => range.covers rule line

/-- What becomes of a finding of a rule at a line. -/
def verdict (r : Recorder) (rule : Text) (line : Int) : Verdict :=
  match r.severityOf rule with
  | .off => .inactive
  | severity =>
      if r.quiet && severity != .error then .quieted
      else if r.isDisabled rule line then .suppressed
      else .recorded severity

/-- Adds a diagnostic. -/
def add (d : Diagnostic) (r : Recorder) : Recorder :=
  { r with diagnostics := r.diagnostics ++ [d] }

/-- The diagnostic that a finding is recorded as, unless it is dropped. -/
def diagnosticOf (r : Recorder) (rule message : Text) (position : Position) :
    Option Diagnostic :=
  match r.verdict rule position.line with
  | .recorded severity => some ⟨rule, severity, message, position⟩
  | _ => none

/-- The record after a finding was offered. -/
def report (rule message : Text) (position : Position) (r : Recorder) : Recorder :=
  match r.diagnosticOf rule message position with
  | some d => r.add d
  | none => r

/-- What offering a finding logs. -/
def reportLog (r : Recorder) (rule : Text) (position : Position) : List LogRecord :=
  match r.verdict rule position.line with
  | .suppressed => [.suppressed rule position]
  | _ => []

/-- The diagnostic about an option that a rule cannot use. -/
def invalidOption (rule option : Text) (value : Value) : Diagnostic :=
  ⟨rule, .error,
    "Invalid value " ++ value.described ++ " for option \"" ++ option ++ "\" of rule \"" ++ rule
      ++ "\"",
    Position.origin⟩

/-- The record after a finding about a rule's options. -/
def reportInvalidOption (rule option : Text) (value : Value) (r : Recorder) : Recorder :=
  r.add (invalidOption rule option value)

/-- Notes that a rule runs, and with which severity. -/
def activate (rule : Key) (severity : Severity) (r : Recorder) : Recorder :=
  { r with severities := Table.put rule severity r.severities }

/-- Sets whether only errors are wanted. -/
def setQuiet (quiet : Bool) (r : Recorder) : Recorder :=
  { r with quiet := quiet }

/-- Adds a range behind the ranges there are. -/
def addRange (range : DisableRange) (r : Recorder) : Recorder :=
  { r with ranges := r.ranges ++ [range] }

/-!
### Steps

Everything that can happen to a record is one of five steps.
-/

/-- A step that changes a record. -/
inductive Step where
  | report (rule message : Text) (position : Position)
  | invalidOption (rule option : Text) (value : Value)
  | activate (rule : Key) (severity : Severity)
  | setQuiet (quiet : Bool)
  | addRange (range : DisableRange)
deriving Repr

/-- The record after a step. -/
def step (r : Recorder) : Step → Recorder
  | .report rule message position => r.report rule message position
  | .invalidOption rule option value => r.reportInvalidOption rule option value
  | .activate rule severity => r.activate rule severity
  | .setQuiet quiet => r.setQuiet quiet
  | .addRange range => r.addRange range

/-- The diagnostic that a step records, if it records one. -/
def stepDiagnostic (r : Recorder) : Step → Option Diagnostic
  | .report rule message position => r.diagnosticOf rule message position
  | .invalidOption rule option value => some (invalidOption rule option value)
  | _ => none

/-- What a step logs. -/
def stepLog (r : Recorder) : Step → List LogRecord
  | .report rule _ position => r.reportLog rule position
  | _ => []

end Recorder

end StyleAudit
