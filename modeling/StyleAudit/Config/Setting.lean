/-
Module: StyleAudit.Config.Setting
Purpose: The settings of rules: a severity and up to two options.
Trusted boundary: none
Main exports: Setting, severityOfValue, Setting.ofValue
-/
import StyleAudit.Failure

namespace StyleAudit

/-!
### Severities and settings

A severity is one of three integers or one of four words in any case.  A setting
is a severity, or a list of a severity and options, of which two count.
-/

/-- The words for severities.  No character beyond ASCII has one of their letters
as its lower case, so folding the case of ASCII letters is enough. -/
def severityTokens : List (String × Severity) :=
  [("off", .off), ("warning", .warning), ("warn", .warning), ("error", .error)]

/-- The severity of a word. -/
def severityOfWord? (word : Text) : Option Severity :=
  severityTokens.lookup (String.ofList (word.characters.map Char.toLower))

/-- The severity that a value gives, if it gives one. -/
def severityOfValue? : Value → Option Severity
  | .str word => severityOfWord? word
  | .int n => Severity.ofLevel? n
  | _ => none

/-- The severity that a value gives to a rule. -/
def severityOfValue (name : Key) (v : Value) : Except ConfigFault Severity :=
  match severityOfValue? v with
  | some severity => .ok severity
  | none => .error (.invalidSeverity v name)

/-- What a configuration says about one rule. -/
structure Setting where
  severity : Severity
  primary : Value
  secondary : Value
deriving Repr

/-- The setting that a value gives to a rule; options that are not given are null. -/
def Setting.ofValue (name : Key) : Value → Except ConfigFault Setting
  | .seq [] => .error (.emptySetting name)
  | .seq (first :: options) => do
      let severity ← severityOfValue name first
      return ⟨severity, options[0]?.getD .null, options[1]?.getD .null⟩
  | v => do
      let severity ← severityOfValue name v
      return ⟨severity, .null, .null⟩

/-- The settings of a configuration's rules in their order, up to the first fault. -/
def settingsOf (rules : Mapping) : Except ConfigFault (List (Key × Setting)) :=
  rules.mapM fun (name, v) => do
    let setting ← Setting.ofValue name v
    return (name, setting)

end StyleAudit
