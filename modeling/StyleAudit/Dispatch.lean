/-
Module: StyleAudit.Dispatch
Purpose: Running the enabled rules of a configuration against a document.
Trusted boundary: none
Main exports: RuleEvent, Dispatch, checkNames, runSettings, dispatch
-/
import StyleAudit.Config.Setting
import StyleAudit.Rule.Registry

namespace StyleAudit

/-!
### Events

A dispatch binds and runs rules.  The events tell in which order, and with which
options each rule was bound.
-/

/-- A rule was bound to its options, or was run. -/
inductive RuleEvent where
  | bound (name : Key) (origin : RuleOrigin) (primary secondary : Value)
  | ran (name : Key) (origin : RuleOrigin)
deriving Repr

/-- What a dispatch leaves: the record, the events, what was logged, and the
failure that ended it. -/
structure Dispatch where
  recorder : Recorder
  events : List RuleEvent
  log : List LogRecord
  failure : Option Failure
deriving Repr

/-!
### Checks

Before any rule is bound, all names must be registered and all settings sound.
-/

/-- All names of rules are registered; the first one that is not is the fault. -/
def checkNames (registry : Registry) : List Key → Except ConfigFault Unit
  | [] => .ok ()
  | name :: rest =>
      if Table.contains name registry then checkNames registry rest
      else .error (.undefinedRule name)

/-- The settings of a configuration's rules, once all its names are known. -/
def checkedSettings (rules : Mapping) (registry : Registry) :
    Except ConfigFault (List (Key × Setting)) := do
  checkNames registry rules.keys
  settingsOf rules

/-!
### Running

A rule that is off is passed over.  Any other rule's severity is noted before it is
bound, and so is known even if binding fails.  A failure ends the dispatch, but
what the rule found before it is recorded.
-/

/-- What one rule leaves, given the rule and its setting. -/
def runRule (name : Key) (setting : Setting) (rule : Rule) (d : Document) (r : Recorder) :
    Dispatch :=
  let active := r.activate name setting.severity
  let boundEvent := RuleEvent.bound name rule.origin setting.primary setting.secondary
  match rule.bind setting.primary setting.secondary with
  | .error failure => ⟨active, [boundEvent], [], some failure⟩
  | .ok examine =>
      let examination := examine d
      let after := recordAll examination.findings active
      let count := after.diagnostics.length - r.diagnostics.length
      let log := recordLog examination.findings active
      let events := [boundEvent, .ran name rule.origin]
      match examination.failure with
      | some failure => ⟨after, events, log, some failure⟩
      | none => ⟨after, events, log ++ [.ruleFinished name setting.severity count], none⟩

/-- What one entry of a configuration leaves. -/
def runSetting (registry : Registry) (name : Key) (setting : Setting) (d : Document)
    (r : Recorder) : Dispatch :=
  if setting.severity = .off then ⟨r, [], [.skipping name], none⟩
  else
    match Table.get? name registry with
    | none => ⟨r.activate name setting.severity, [], [], some .unusable⟩
    | some rule => runRule name setting rule d r

/-- Runs entries in order, up to the first failure. -/
def runSettings (registry : Registry) (d : Document) : List (Key × Setting) → Recorder → Dispatch
  | [], r => ⟨r, [], [], none⟩
  | (name, setting) :: rest, r =>
      let first := runSetting registry name setting d r
      match first.failure with
      | some _ => first
      | none =>
          let others := runSettings registry d rest first.recorder
          { others with
            events := first.events ++ others.events
            log := first.log ++ others.log }

/-- Runs the enabled rules of a configuration against a document. -/
def dispatch (rules : Mapping) (registry : Registry) (d : Document) (r : Recorder) : Dispatch :=
  match checkedSettings rules registry with
  | .error fault => ⟨r, [], [], some (.ofFault fault)⟩
  | .ok settings => runSettings registry d settings r

end StyleAudit
