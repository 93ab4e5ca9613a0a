/-
Module: StyleAudit.Proofs.Lint.Resolved
Purpose: A run over a resolved configuration ends as the run over the configuration that it comes
  from.
Trusted boundary: none
Main exports: optionsWith, LintRun.EndsLike, outcome_prepare_optionsWith, lint_of_prepare,
  resolveConfig_settles
-/
import StyleAudit.Proofs.Config.FixedPoint
import StyleAudit.Proofs.Lint.BaseDirectory
import StyleAudit.Proofs.Lint.Phases

namespace StyleAudit

/-!
### Runs that end alike

What a run logs tells which files were extended, and so it is not the same for a configuration
and for what that comes to.  Everything else that a run leaves is.
-/

/-- Two runs leave the same record or failure, the same registry and the same events. -/
structure LintRun.EndsLike (run other : LintRun) : Prop where
  outcome : run.outcome = other.outcome
  registry : run.registry = other.registry
  events : run.events = other.events

/-- After the options are prepared, a run depends on nothing but what they come to. -/
theorem lint_of_prepare {w : World} {options others : Value}
    (same : (prepare w options).outcome = (prepare w others).outcome) (d : Document)
    (registry : Registry) :
    (lint w d options registry).EndsLike (lint w d others registry) := by
  simp only [lint, same]
  cases (prepare w others).outcome with
  | error failure => exact ⟨rfl, rfl, rfl⟩
  | ok found =>
      obtain ⟨c, base⟩ := found
      simp only
      cases (loadPlugins w base (c.apart registry).plugins registry).failure with
      | some failure => exact ⟨rfl, rfl, rfl⟩
      | none =>
          constructor
          · rw [outcome_finishRun, outcome_finishRun]
          · rw [registry_finishRun, registry_finishRun]
          · rw [events_finishRun, events_finishRun]

/-- Options that hold a configuration, a base directory and overrides. -/
def optionsWith (config : Mapping) (directory : Text) (overrides : Value) : Mapping :=
  [(.str configKey, .map config), (.str basedirKey, .str directory),
   (.str overridesKey, overrides)]

section Options

variable {w : World} {directory : Text}

theorem configOf_optionsWith (config : Mapping) (directory : Text) (overrides : Value) :
    configOf (optionsWith config directory overrides) = .map config := by
  have held : (optionsWith config directory overrides).find? configKey = some (.map config) := rfl
  rw [configOf, held]
  cases config with
  | nil => rfl
  | cons entry rest => rfl

theorem baseDirectory_optionsWith (filled : directory ≠ "") (config : Mapping)
    (overrides : Value) :
    baseDirectory w (optionsWith config directory overrides) config
      = .ok (Path.ofText directory) :=
  baseDirectory_ok_iff.2 (.options (.text rfl filled))

/-- What options come to depends on nothing of their configuration but what that comes to. -/
theorem outcome_prepare_optionsWith (filled : directory ≠ "") {config other : Mapping}
    (same : (resolveConfig w config (Path.ofText directory)).outcome
      = (resolveConfig w other (Path.ofText directory)).outcome) (overrides : Value) :
    (prepare w (.map (optionsWith config directory overrides))).outcome
      = (prepare w (.map (optionsWith other directory overrides))).outcome := by
  have laid (config : Mapping) :
      overridesOf (optionsWith config directory overrides) = overrides := rfl
  simp only [prepare, configOf_optionsWith, baseDirectory_optionsWith filled, laid,
    Logged.outcome_bind, outcome_ofExcept]
  show (resolveConfig w config (Path.ofText directory)).outcome.bind _ = _
  rw [same]
  rfl

/-!
### Resolving twice
-/

/-- A resolved configuration has no list of lookups.  It comes to itself, seen from anywhere and
with whatever files there are, and a run that is given it ends as a run that is given the
configuration which it comes from. -/
theorem resolveConfig_settles (modules : w.HasDistinctModules) {config resolved : Mapping}
    (distinct : Table.isDistinct config = true) {base : Path}
    (outcome : (resolveConfig w config base).outcome = .ok resolved) :
    resolved.find? extendsKey = none
      ∧ (∀ (elsewhere : World) (other : Path),
          resolveConfig elsewhere resolved other = pure resolved)
      ∧ (∀ directory : Text, directory ≠ "" → Path.ofText directory = base →
          ∀ (overrides : Value) (d : Document) (registry : Registry),
            (lint w d (.map (optionsWith resolved directory overrides)) registry).EndsLike
              (lint w d (.map (optionsWith config directory overrides)) registry)) := by
  have absent := find?_extends_of_resolveConfig modules distinct outcome
  refine ⟨absent, resolveConfig_of_lookups_absent absent, ?_⟩
  rintro directory filled rfl overrides d registry
  have again : (resolveConfig w resolved (Path.ofText directory)).outcome = .ok resolved := by
    rw [resolveConfig_of_lookups_absent absent]
    rfl
  apply lint_of_prepare
  exact outcome_prepare_optionsWith filled (again.trans outcome.symm) overrides

end Options

/-!
A configuration that extends a file in a directory.  The list of lookups of the file is empty
text, its plugin stands beside it, and it names a base directory.
-/

/-- The entries of the file. -/
def studioEntries : Mapping :=
  [(.str "extends", .str ""), (.str "plugins", .map [(.str "mine", .str "./mine.py")]),
   (.str "rules", .map [(.str "mine", .int 1)]), (.str "config_basedir", .str "..")]

/-- The file and the plugin beside it, which finds nothing. -/
def studioFiles : World where
  tree := ⟨[
    (["studio", "base.py"], .module (.exporting (some (.map studioEntries)) .absent)),
    (["studio", "mine.py"], .module (.exporting none
      (.callable ⟨.plugin, fun _ _ => .ok fun _ => ⟨[], none⟩⟩)))]⟩
  workingDirectory := []
  searchPath := []

/-- The configuration. -/
def studioConfig : Mapping := [(.str "extends", .seq [.str "./studio/base.py"])]

/-- What the configuration comes to. -/
def studioResolved : Mapping :=
  [(.str "plugins", .map [(.str "mine", .str "/studio/mine.py")]),
   (.str "rules", .map [(.str "mine", .int 1)]), (.str "config_basedir", .str "..")]

theorem hasDistinctModules_studioFiles : studioFiles.HasDistinctModules := by
  intro entry member config rule stands
  simp only [studioFiles, List.mem_cons, List.not_mem_nil, or_false] at member
  obtain rfl | rfl := member
  · cases stands
    rintro _ ⟨⟩
    decide
  · cases stands

theorem resolveConfig_settles_studio :
    studioFiles.HasDistinctModules ∧ Table.isDistinct studioConfig = true
      ∧ (resolveConfig studioFiles studioConfig (Path.ofText "/")).outcome = .ok studioResolved
      ∧ resolveConfig shelfFiles studioResolved Path.here = pure studioResolved
      ∧ (lint studioFiles ⟨Position.origin, .null, []⟩
            (.map (optionsWith studioResolved "/" (.map sharedRules))) []).EndsLike
          (lint studioFiles ⟨Position.origin, .null, []⟩
            (.map (optionsWith studioConfig "/" (.map sharedRules))) []) := by
  have distinct : Table.isDistinct studioConfig = true := by decide
  have resolved : (resolveConfig studioFiles studioConfig (Path.ofText "/")).outcome
      = .ok studioResolved := by cbv
  obtain ⟨_, settled, ends⟩ :=
    resolveConfig_settles hasDistinctModules_studioFiles distinct resolved
  exact ⟨hasDistinctModules_studioFiles, distinct, resolved, settled _ _,
    ends "/" (by decide) rfl _ _ _⟩

end StyleAudit
