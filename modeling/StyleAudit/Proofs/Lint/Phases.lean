/-
Module: StyleAudit.Proofs.Lint.Phases
Purpose: The phases of a lint run: which failure ends a run before any rule is bound, what it
  leaves in the registry, and what a run does that gets past all checks.
Trusted boundary: none
Main exports: Prepares, LintStops, LintIsReady, ready_or_stops, lint_of_stops, lint_of_ready,
  lint_phases
-/
import StyleAudit.Lint
import StyleAudit.Proofs.Dispatch.Turns
import StyleAudit.Proofs.Dispatch.Validation
import StyleAudit.Proofs.Plugin.Loading

namespace StyleAudit

/-!
### Where a run stops

A run prepares a configuration, loads its plugins, looks for faults in its rules, and only then
binds and runs any of them.  Each step needs all steps before it, so the step at which a run
stops says that those before it were taken.
-/

/-- Options come to a configuration and a base directory.  The names in the configuration are
told apart from those in the registry of the run. -/
def Prepares (w : World) (options : Value) (registry : Registry) (c : Configuration)
    (base : Path) : Prop :=
  ∃ read, (prepare w options).outcome = .ok (read, base) ∧ c = read.apart registry

/-- A run stops before any rule is bound: the failure that it ends with, and the registry that
it leaves. -/
inductive LintStops (w : World) (options : Value) (registry : Registry) :
    Failure → Registry → Prop where
  | preparing {failure : Failure} (failed : (prepare w options).outcome = .error failure) :
      LintStops w options registry failure registry
  | loading {c : Configuration} {base : Path} {before after : List (Key × Text)} {name : Key}
      {lookup : Text} {loaded : List (Key × Rule)} {failure : Failure}
      (prepared : Prepares w options registry c base)
      (split : c.plugins = before ++ (name, lookup) :: after)
      (loads : LoadsPlugins w base before loaded)
      (givesNone : GivesNoRule w base lookup failure) :
      LintStops w options registry failure (registry.registerAll loaded)
  | checking {c : Configuration} {base : Path} {loaded : List (Key × Rule)} {fault : ConfigFault}
      (prepared : Prepares w options registry c base)
      (loads : LoadsPlugins w base c.plugins loaded)
      (first : FirstFault (registry.registerAll loaded) c.rules fault) :
      LintStops w options registry (.ofFault fault) (registry.registerAll loaded)

/-- A run is ready to bind rules: its configuration is prepared, all plugins give rules, and
with these all names are registered and all settings are sound. -/
structure LintIsReady (w : World) (options : Value) (registry : Registry) (c : Configuration)
    (loaded : List (Key × Rule)) : Prop where
  loads : ∃ base, Prepares w options registry c base ∧ LoadsPlugins w base c.plugins loaded
  known : ∀ entry ∈ c.rules, Table.contains entry.1 (registry.registerAll loaded) = true
  sound : ∀ entry ∈ c.rules, entry.2.IsSetting

section Phases

variable {w : World} {options : Value} {registry : Registry} {c : Configuration} {base : Path}
  {loaded : List (Key × Rule)} {failure : Failure}

theorem Prepares.unique {other : Configuration} {otherBase : Path}
    (first : Prepares w options registry c base)
    (second : Prepares w options registry other otherBase) : c = other ∧ base = otherBase := by
  obtain ⟨read, outcome, rfl⟩ := first
  obtain ⟨again, outcomeAgain, rfl⟩ := second
  rw [outcome, Except.ok.injEq, Prod.mk.injEq] at outcomeAgain
  obtain ⟨rfl, rfl⟩ := outcomeAgain
  exact ⟨rfl, rfl⟩

/-- Every run is ready or stops before. -/
theorem ready_or_stops (w : World) (options : Value) (registry : Registry) :
    (∃ c loaded, LintIsReady w options registry c loaded)
      ∨ ∃ failure left, LintStops w options registry failure left := by
  cases outcome : (prepare w options).outcome with
  | error failure => exact .inr ⟨failure, registry, .preparing outcome⟩
  | ok found =>
      obtain ⟨read, base⟩ := found
      have prepared : Prepares w options registry (read.apart registry) base :=
        ⟨read, outcome, rfl⟩
      rcases loads_or_stops w base (read.apart registry).plugins with ⟨loaded, loads⟩ |
        ⟨before, name, lookup, after, loaded, failure, split, loads, givesNone⟩
      · by_cases faulty :
            ∃ fault, FirstFault (registry.registerAll loaded) (read.apart registry).rules fault
        · obtain ⟨fault, first⟩ := faulty
          exact .inr ⟨_, _, .checking prepared loads first⟩
        · rw [exists_firstFault_iff] at faulty
          push Not at faulty
          refine .inl ⟨read.apart registry, loaded, ⟨base, prepared, loads⟩, ?_, ?_⟩
          · intro entry member
            exact Bool.eq_true_of_not_eq_false (faulty entry member).1
          · intro entry member
            exact (faulty entry member).2
      · exact .inr ⟨_, _, .loading prepared split loads givesNone⟩

/-- A run that is ready does not stop before. -/
theorem LintIsReady.not_stops {left : Registry} (ready : LintIsReady w options registry c loaded) :
    ¬ LintStops w options registry failure left := by
  obtain ⟨⟨base, prepared, loads⟩, known, sound⟩ := ready
  obtain ⟨ended, registered⟩ := loadPlugins_of_loads loads registry
  intro stops
  cases stops with
  | preparing failed =>
      obtain ⟨read, outcome, _⟩ := prepared
      rw [failed] at outcome
      cases outcome
  | loading again split loadsBefore givesNone =>
      obtain ⟨rfl, rfl⟩ := again.unique prepared
      rw [split, (loadPlugins_of_givesNoRule loadsBefore givesNone registry).1] at ended
      cases ended
  | checking again loadsAgain first =>
      obtain ⟨rfl, rfl⟩ := again.unique prepared
      rw [← (loadPlugins_of_loads loadsAgain registry).2, registered] at first
      obtain ⟨entry, member, unknown | unsound⟩ := exists_firstFault_iff.1 ⟨_, first⟩
      · rw [known entry member] at unknown
        cases unknown
      · exact unsound (sound entry member)

/-!
### Runs
-/

/-- Once its plugins are loaded, a run is a dispatch. -/
theorem lint_of_loads (prepared : Prepares w options registry c base)
    (loads : LoadsPlugins w base c.plugins loaded) (d : Document) :
    ∃ log, lint w d options registry = finishRun c (registry.registerAll loaded) d log := by
  obtain ⟨read, outcome, rfl⟩ := prepared
  obtain ⟨ended, registered⟩ := loadPlugins_of_loads loads registry
  simp only [lint, outcome, ended, registered]
  exact ⟨_, rfl⟩

theorem registry_finishRun (c : Configuration) (registry : Registry) (d : Document)
    (log : List LogRecord) : (finishRun c registry d log).registry = registry := by
  simp only [finishRun]
  cases (dispatch c.rules registry d (startRecord c.quiet d)).failure <;> rfl

theorem events_finishRun (c : Configuration) (registry : Registry) (d : Document)
    (log : List LogRecord) :
    (finishRun c registry d log).events
      = (dispatch c.rules registry d (startRecord c.quiet d)).events := by
  simp only [finishRun]
  cases (dispatch c.rules registry d (startRecord c.quiet d)).failure <;> rfl

theorem outcome_finishRun (c : Configuration) (registry : Registry) (d : Document)
    (log : List LogRecord) :
    (finishRun c registry d log).outcome =
      let done := dispatch c.rules registry d (startRecord c.quiet d)
      match done.failure with
      | some failure => .error failure
      | none => .ok done.recorder := by
  simp only [finishRun]
  cases (dispatch c.rules registry d (startRecord c.quiet d)).failure <;> rfl

/-- A run that stops ends with the failure at which it does, has bound and run no rule, and
leaves the plugins that were loaded. -/
theorem lint_of_stops {left : Registry} (stops : LintStops w options registry failure left)
    (d : Document) :
    (lint w d options registry).outcome = .error failure
      ∧ (lint w d options registry).registry = left
      ∧ (lint w d options registry).events = [] := by
  cases stops with
  | preparing failed =>
      simp only [lint, failed, and_self]
  | loading prepared split loads givesNone =>
      obtain ⟨read, outcome, rfl⟩ := prepared
      obtain ⟨ended, registered⟩ := loadPlugins_of_givesNoRule loads givesNone registry
      rw [← split] at ended registered
      simp only [lint, outcome, ended, registered, and_self]
  | checking prepared loads first =>
      obtain ⟨log, run⟩ := lint_of_loads prepared loads d
      rw [run, outcome_finishRun, registry_finishRun, events_finishRun]
      simp only [dispatch_eq_of_firstFault first, and_self]

/-- A run that is ready dispatches its rules: it binds and runs those that are not off, one
after another, and all of them unless one fails. -/
structure LintDispatches (d : Document) (registry : Registry) (rules : Mapping) (run : LintRun) :
    Prop where
  until_failure : run.events.map RuleEvent.turn <+: turnsOf (enabledNames rules)
  all : ∀ r, run.outcome = .ok r → run.events.map RuleEvent.turn = turnsOf (enabledNames rules)
  raised : ∀ failure, run.outcome = .error failure →
    ∃ settings, settingsOf rules = .ok settings
      ∧ ∃ entry ∈ settings, (examinationOf registry d entry.1 entry.2).failure = some failure

theorem lintDispatches_finishRun
    (known : ∀ entry ∈ c.rules, Table.contains entry.1 registry = true)
    (sound : ∀ entry ∈ c.rules, entry.2.IsSetting) (d : Document) (log : List LogRecord) :
    LintDispatches d registry c.rules (finishRun c registry d log) := by
  obtain ⟨settings, read⟩ := exists_settingsOf_iff.2 sound
  have follows := follows_dispatch c.rules registry d (startRecord c.quiet d)
  have ran := dispatch_eq_runSettings known read d (startRecord c.quiet d)
  constructor
  · rw [events_finishRun]
    exact follows.until_failure
  · intro r ended
    rw [outcome_finishRun] at ended
    rw [events_finishRun]
    apply follows.all
    cases failed : (dispatch c.rules registry d (startRecord c.quiet d)).failure with
    | none => rfl
    | some failure =>
        simp only [failed] at ended
        cases ended
  · intro failure ended
    rw [outcome_finishRun] at ended
    refine ⟨settings, read, ?_⟩
    cases failed : (dispatch c.rules registry d (startRecord c.quiet d)).failure with
    | none =>
        simp only [failed] at ended
        cases ended
    | some other =>
        simp only [failed] at ended
        cases ended
        rw [ran] at failed
        exact exists_of_failure_runSettings failed

theorem lint_of_ready (ready : LintIsReady w options registry c loaded) (d : Document) :
    (lint w d options registry).registry = registry.registerAll loaded
      ∧ LintDispatches d (registry.registerAll loaded) c.rules (lint w d options registry) := by
  obtain ⟨⟨base, prepared, loads⟩, known, sound⟩ := ready
  obtain ⟨log, run⟩ := lint_of_loads prepared loads d
  rw [run]
  exact ⟨registry_finishRun _ _ _ _, lintDispatches_finishRun known sound d log⟩

end Phases

/-- Every run is either ready to bind rules or stops before.  One that stops ends with the
failure of the first step that fails, has bound and run nothing, and leaves the registry with
the plugins loaded until then.  One that is ready leaves the registry with all plugins, however
it ends, and fails only when a rule does.  So rules are bound or run only in a run that is
ready. -/
theorem lint_phases (w : World) (d : Document) (options : Value) (registry : Registry) :
    ((∃ c loaded, LintIsReady w options registry c loaded) ↔
        ¬ ∃ failure left, LintStops w options registry failure left)
      ∧ ((lint w d options registry).events ≠ [] →
          ∃ c loaded, LintIsReady w options registry c loaded)
      ∧ (∀ failure left, LintStops w options registry failure left →
          (lint w d options registry).outcome = .error failure
            ∧ (lint w d options registry).registry = left
            ∧ (lint w d options registry).events = [])
      ∧ ∀ c loaded, LintIsReady w options registry c loaded →
          (lint w d options registry).registry = registry.registerAll loaded
            ∧ LintDispatches d (registry.registerAll loaded) c.rules
                (lint w d options registry) := by
  refine ⟨⟨?_, ?_⟩, ?_, fun failure left stops => lint_of_stops stops d,
    fun c loaded ready => lint_of_ready ready d⟩
  · rintro ⟨c, loaded, ready⟩ ⟨failure, left, stops⟩
    exact ready.not_stops stops
  · intro never
    exact (ready_or_stops w options registry).resolve_right never
  · intro happened
    apply (ready_or_stops w options registry).resolve_right
    rintro ⟨failure, left, stops⟩
    exact happened (lint_of_stops stops d).2.2

/-!
Of two plugins the second one is not found: the first one stays in the registry.
-/

/-- One plugin. -/
def halfFiles : World where
  tree := ⟨[(["near.py"], .module (.exporting none (.callable (Rule.speaking [] none))))]⟩
  workingDirectory := []
  searchPath := []

/-- Options with that plugin and another one. -/
def halfOptions : Value :=
  .map [(.str "rules", .map [(.str "near", .int 2)]),
    (.str "plugins", .map [(.str "near", .str "./near.py"), (.str "far", .str "./far.py")])]

example : (lint halfFiles emptyDocument halfOptions []).registry.keys = [.str "near"] := by cbv

end StyleAudit
