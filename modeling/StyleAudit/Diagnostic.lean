/-
Module: StyleAudit.Diagnostic
Purpose: What rules find: diagnostics with a severity and a position, and their order.
Trusted boundary: none
Main exports: Severity, Position, Diagnostic, Diagnostic.sorted, Diagnostic.countOf
-/
import StyleAudit.Text.Basic

namespace StyleAudit

/-- How much a finding of a rule matters. -/
inductive Severity where
  | off
  | warning
  | error
deriving DecidableEq, Repr, Inhabited

namespace Severity

/-- The number of a severity in configurations. -/
def level : Severity → Nat
  | .off => 0
  | .warning => 1
  | .error => 2

/-- The severity of a number. -/
def ofLevel? : Int → Option Severity
  | 0 => some .off
  | 1 => some .warning
  | 2 => some .error
  | _ => none

/-- The word for a severity. -/
def label : Severity → String
  | .off => "off"
  | .warning => "warning"
  | .error => "error"

/-- The word for a severity as reports show it. -/
def title : Severity → String
  | .off => "OFF"
  | .warning => "WARNING"
  | .error => "ERROR"

/-- All severities, from the least on. -/
def all : List Severity := [.off, .warning, .error]

/-- A severity is read back from its number. -/
@[simp] theorem ofLevel?_level (s : Severity) : ofLevel? s.level = some s := by
  cases s <;> rfl

end Severity

/-- A place in a source; any integers may stand in a serialized document. -/
structure Position where
  line : Int
  column : Int
deriving DecidableEq, Repr

/-- Where a diagnostic about a configuration is put. -/
def Position.origin : Position := ⟨1, 1⟩

/-- The position comes no later than another, lines before columns. -/
def Position.le (a b : Position) : Bool :=
  a.line < b.line || (a.line = b.line && a.column ≤ b.column)

/-- A finding as it is recorded. -/
structure Diagnostic where
  rule : Text
  severity : Severity
  message : Text
  position : Position
deriving DecidableEq, Repr

namespace Diagnostic

/-- Diagnostics by position; those at one position stay in the order in which they
were recorded. -/
def sorted (diagnostics : List Diagnostic) : List Diagnostic :=
  diagnostics.mergeSort fun a b => a.position.le b.position

/-- How many diagnostics have a severity. -/
def countOf (severity : Severity) (diagnostics : List Diagnostic) : Nat :=
  diagnostics.countP fun d => d.severity == severity

/-- Some diagnostic is an error. -/
def hasErrors (diagnostics : List Diagnostic) : Bool :=
  diagnostics.any fun d => d.severity == .error

/-- Sorting loses nothing and adds nothing. -/
theorem sorted_perm (diagnostics : List Diagnostic) : (sorted diagnostics).Perm diagnostics :=
  List.mergeSort_perm diagnostics _

end Diagnostic

end StyleAudit
