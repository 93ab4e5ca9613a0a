/-
Module: StyleAudit.Suppression.Range
Purpose: The line ranges in which directives suppress rules.
Trusted boundary: none
Main exports: DisableRange, DisableRange.covers, Ranges, Ranges.apply, disableRanges
-/
import StyleAudit.Log

namespace StyleAudit

/-!
### Ranges

A range suppresses one rule, or all rules, from a line to a line, or to the end of
the document when it is open.
-/

/-- Lines in which a rule is suppressed. -/
structure DisableRange where
  rule : Text
  start : Int
  stop : Option Int
deriving DecidableEq, Repr

/-- The range suppresses a rule in a line. -/
def DisableRange.covers (r : DisableRange) (rule : Text) (line : Int) : Bool :=
  (r.rule == Directive.allRules || r.rule == rule)
    && r.start ≤ line
    && (match r.stop with
        | none => true
        | some stop => line ≤ stop)

/-!
### From directives to ranges

The directives are read in source order.  Open ranges are kept by rule with the
line at which they opened; a second opening of a rule changes nothing.  An enable
closes the ranges of the rules it lists, or all of them.  An enable of a rule that
has no range of its own is worth a warning while all rules are switched off.
-/

/-- The ranges closed so far, the open ones by rule, and what was logged. -/
structure Ranges where
  closed : List DisableRange
  opened : Table Text Int
  log : List LogRecord

namespace Ranges

/-- Before the first directive. -/
def empty : Ranges := ⟨[], [], []⟩

/-- Adds single-line ranges for rules. -/
def single (rules : List Text) (line : Int) (s : Ranges) : Ranges :=
  { s with closed := s.closed ++ rules.map fun rule => ⟨rule, line, some line⟩ }

/-- Opens ranges for rules that have none. -/
def openAll (rules : List Text) (line : Int) (s : Ranges) : Ranges :=
  { s with opened := rules.foldl (fun opened rule => Table.putNew rule line opened) s.opened }

/-- Closes the range of one rule, if it has one. -/
def closeOne (rule : Text) (line : Int) (s : Ranges) : Ranges :=
  match Table.get? rule s.opened with
  | some start =>
      { s with
        closed := s.closed ++ [⟨rule, start, some line⟩]
        opened := Table.erase rule s.opened }
  | none =>
      let record :=
        if s.opened.contains Directive.allRules then LogRecord.enableIgnored rule line
        else LogRecord.nothingToEnable rule line
      { s with log := s.log ++ [record] }

/-- Closes the ranges of rules in turn. -/
def closeAll (rules : List Text) (line : Int) (s : Ranges) : Ranges :=
  rules.foldl (fun s rule => s.closeOne rule line) s

/-- Reads one more directive. -/
def apply (s : Ranges) (d : PlacedDirective) : Ranges :=
  let s := { s with log := s.log ++ [LogRecord.directive d] }
  match d.directive.kind with
  | .disableLine => s.single d.directive.targets d.line
  | .disableNextLine => s.single d.directive.targets (d.line + 1)
  | .disable => s.openAll d.directive.targets d.line
  | .enable =>
      let rules := if d.directive.rules.isEmpty then s.opened.keys else d.directive.rules
      s.closeAll rules d.line

/-- The closed ranges, and then the ones that stay open. -/
def all (s : Ranges) : List DisableRange :=
  s.closed ++ s.opened.map fun (rule, start) => ⟨rule, start, none⟩

end Ranges

/-- What a sequence of directives leaves. -/
def rangesOf (directives : List PlacedDirective) : Ranges :=
  directives.foldl Ranges.apply Ranges.empty

/-- The ranges in which a document's directives suppress rules. -/
def disableRanges (d : Document) : List DisableRange :=
  (rangesOf d.directives).all

/-- What reading a document's directives logs. -/
def disableRangesLog (d : Document) : List LogRecord :=
  (rangesOf d.directives).log

end StyleAudit
