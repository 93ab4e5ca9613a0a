/-
Module: StyleAudit.Lint
Purpose: A whole lint run: configuration, plugins, directives and rules.
Trusted boundary: none
Main exports: prepare, LintRun, lint
-/
import StyleAudit.Config.Inheritance
import StyleAudit.Plugin
import StyleAudit.Dispatch

namespace StyleAudit

/-!
### Options

The options of a run are a configuration, or a mapping that holds one next to a
base directory and overrides.  The base directory is the one of the options, or
else the one of the configuration, or else the working directory; one that holds
nothing counts as absent.
-/

/-- The key of a configuration inside options. -/
def configKey : String := "config"

/-- The key of overrides inside options. -/
def overridesKey : String := "config_overrides"

/-- The configuration inside options: an empty one when it holds nothing. -/
def configOf (options : Mapping) : Value :=
  let config := (options.find? configKey).getD (.map options)
  if config.holds then config else .map []

/-- The overrides inside options; only options that hold a configuration have any. -/
def overridesOf (options : Mapping) : Value :=
  match options.find? configKey with
  | some _ => (options.find? overridesKey).getD .null
  | none => .null

/-- The base directory that a mapping names, if it names one. -/
def basedirOf (data : Mapping) : Except Failure (Option Path) :=
  match data.find? basedirKey with
  | none => .ok none
  | some v =>
      if !v.holds then .ok none
      else
        match v with
        | .str text => .ok (some (Path.ofText text))
        | _ => .error .unusable

/-- The directory from which a run's lookups start. -/
def baseDirectory (w : World) (options config : Mapping) : Except Failure Path := do
  match ← basedirOf options with
  | some path => .ok path
  | none =>
      match ← basedirOf config with
      | some path => .ok path
      | none => .ok w.here

/-- The checked configuration that options describe, and the base directory. -/
def prepare (w : World) (options : Value) : Logged (Configuration × Path) :=
  match options with
  | .map options =>
      match configOf options with
      | .map config => do
          let base ← Logged.ofExcept (baseDirectory w options config)
          let resolved ← resolveConfig w config base
          match applyOverrides? (.map resolved) (overridesOf options) with
          | none => Logged.fail .unusable
          | some merged =>
              let configuration ← Logged.ofExcept (Configuration.ofValue merged)
              Logged.note (.configResolved configuration.rules.length)
              return (configuration, base)
      | _ => Logged.fail .unusable
  | _ => Logged.fail .unusable

/-!
### Runs
-/

/-- What a run leaves: the record or a failure, the registry with the plugins that
were loaded, the events of its rules, and what was logged. -/
structure LintRun where
  outcome : Except Failure Recorder
  registry : Registry
  events : List RuleEvent
  log : List LogRecord

/-- The record that a run starts with. -/
def startRecord (quiet : Bool) (d : Document) : Recorder :=
  ⟨[], quiet, disableRanges d, []⟩

/-- What the dispatch of a run leaves, after its directives were read. -/
def finishRun (configuration : Configuration) (registry : Registry) (d : Document)
    (before : List LogRecord) : LintRun :=
  let start := startRecord configuration.quiet d
  let done := dispatch configuration.rules registry d start
  let log := before ++ disableRangesLog d ++ [.rangesFound start.ranges.length] ++ done.log
  match done.failure with
  | some failure => ⟨.error failure, registry, done.events, log⟩
  | none =>
      let r := done.recorder
      ⟨.ok r, registry, done.events,
        log ++ [.finished r.severities.length r.diagnostics.length]⟩

/-- The configuration with the labels of its names behind those of a registry, since
they come from different readings. -/
def Configuration.apart (registry : Registry) (c : Configuration) : Configuration :=
  let given := labelsOfKeys registry.keys
  { c with rules := c.rules.relabelKeys given, plugins := c.plugins.relabelKeys given }

/-- Lints a document under options.  Each phase starts only when the one before it
has succeeded. -/
def lint (w : World) (d : Document) (options : Value) (registry : Registry) : LintRun :=
  let prepared := prepare w options
  match prepared.outcome with
  | .error failure => ⟨.error failure, registry, [], prepared.log⟩
  | .ok (configuration, base) =>
      let configuration := configuration.apart registry
      let loaded := loadPlugins w base configuration.plugins registry
      let log := prepared.log ++ loaded.log
      match loaded.failure with
      | some failure => ⟨.error failure, loaded.registry, [], log⟩
      | none => finishRun configuration loaded.registry d log

end StyleAudit
