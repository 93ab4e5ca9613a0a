/-
Module: StyleAudit.Rule.Basic
Purpose: Rules as functions from options and documents to findings.
Trusted boundary: none
Main exports: Finding, Examination, Rule, RuleOrigin, Finding.recordOn, recordAll
-/
import StyleAudit.Recorder

namespace StyleAudit

/-!
### Rules

A rule is first bound to its options and then examines a document.  What it finds
is a list of findings, and perhaps a failure that ended its examination.  A rule
sees neither the severities nor the ranges, so what it finds does not depend on
what is recorded.
-/

/-- Something a rule has to say. -/
inductive Finding where
  | report (rule message : Text) (position : Position)
  | invalidOption (rule option : Text) (value : Value)
deriving Repr

/-- What an examination found, and how it ended. -/
structure Examination where
  findings : List Finding
  failure : Option Failure
deriving Repr

/-- An examination that ended well. -/
def Examination.found (findings : List Finding) : Examination := ⟨findings, none⟩

/-- Where a rule comes from. -/
inductive RuleOrigin where
  | builtin (name : String)
  | plugin
  | custom (label : Text)
deriving DecidableEq, Repr

/-- A rule: binding its two options gives an examination of documents, or fails. -/
structure Rule where
  origin : RuleOrigin
  bind : Value → Value → Except Failure (Document → Examination)

/-- The record after one finding. -/
def Finding.recordOn (r : Recorder) : Finding → Recorder
  | .report rule message position => r.report rule message position
  | .invalidOption rule option value => r.reportInvalidOption rule option value

/-- What taking up one finding logs. -/
def Finding.log (r : Recorder) : Finding → List LogRecord
  | .report rule _ position => r.reportLog rule position
  | .invalidOption _ _ _ => []

/-- The record after findings in turn. -/
def recordAll (findings : List Finding) (r : Recorder) : Recorder :=
  findings.foldl Finding.recordOn r

/-- What taking up findings in turn logs.  Recording changes nothing that a verdict
depends on, so every finding is judged by the first record. -/
def recordLog (findings : List Finding) (r : Recorder) : List LogRecord :=
  findings.flatMap (Finding.log r)

end StyleAudit
