/-
Module: StyleAudit.Proofs.Plugin.Loading
Purpose: What loading plugins leaves in a registry: the rules of the plugins up to the first one
  that gives none.
Trusted boundary: none
Main exports: GivesRule, GivesNoRule, LoadsPlugins, Registry.registerAll, loadPlugins_append,
  loadPlugins_of_loads, loadPlugins_of_givesNoRule, loads_or_stops
-/
import StyleAudit.Plugin
import StyleAudit.Proofs.Config.Gathering
import StyleAudit.Proofs.Table
import Mathlib.Data.List.Forall2

namespace StyleAudit

/-!
### One plugin
-/

/-- A plugin gives a rule under its name: its lookup names a file, and the file's module has the
rule. -/
structure GivesRule (w : World) (base : Path) (plugin : Key × Text) (loaded : Key × Rule) :
    Prop where
  named : loaded.1 = plugin.1
  given : ∃ file, w.lookupFile plugin.2 base = .ok (some file) ∧ w.loadRule file = .ok loaded.2

/-- A lookup gives no rule: the search for its file fails or finds none, or the module of the
file fails or has no rule. -/
inductive GivesNoRule (w : World) (base : Path) (lookup : Text) : Failure → Prop where
  | search {failure : Failure} (looked : w.lookupFile lookup base = .error failure) :
      GivesNoRule w base lookup failure
  | absent (looked : w.lookupFile lookup base = .ok none) :
      GivesNoRule w base lookup (.ofFault (.notFound lookup))
  | module {file : w.tree.File} {failure : Failure}
      (looked : w.lookupFile lookup base = .ok (some file))
      (failed : w.loadRule file = .error failure) :
      GivesNoRule w base lookup failure

theorem outcome_loadPlugin (w : World) (lookup : Text) (base : Path) :
    (loadPlugin w lookup base).outcome =
      (w.locate lookup base).outcome.bind fun file =>
        (w.loadRule file).bind fun rule => .ok (file.path, rule) := by
  rw [loadPlugin, Logged.outcome_bind]
  congr 1
  funext file
  rw [Logged.outcome_bind, outcome_ofExcept]
  rfl

theorem givesRule_of_loadPlugin {w : World} {base path : Path} {name : Key} {lookup : Text}
    {rule : Rule} (loaded : (loadPlugin w lookup base).outcome = .ok (path, rule)) :
    GivesRule w base (name, lookup) (name, rule) := by
  rw [outcome_loadPlugin, bind_eq_ok_iff] at loaded
  obtain ⟨file, located, made⟩ := loaded
  obtain ⟨other, load, same⟩ := bind_eq_ok_iff.1 made
  cases same
  exact ⟨rfl, file, locate_ok_iff.1 located, load⟩

theorem GivesRule.loadPlugin {w : World} {base : Path} {plugin : Key × Text}
    {loaded : Key × Rule} (gives : GivesRule w base plugin loaded) :
    ∃ path, (loadPlugin w plugin.2 base).outcome = .ok (path, loaded.2) := by
  obtain ⟨_, file, looked, load⟩ := gives
  refine ⟨file.path, ?_⟩
  rw [outcome_loadPlugin, bind_eq_ok_iff]
  exact ⟨file, locate_ok_iff.2 looked, bind_eq_ok_iff.2 ⟨loaded.2, load, rfl⟩⟩

theorem loadPlugin_eq_error_iff {w : World} {base : Path} {lookup : Text} {failure : Failure} :
    (loadPlugin w lookup base).outcome = .error failure ↔ GivesNoRule w base lookup failure := by
  rw [outcome_loadPlugin, outcome_locate]
  constructor
  · intro failed
    cases looked : w.lookupFile lookup base with
    | error other =>
        rw [looked] at failed
        cases failed
        exact .search looked
    | ok found =>
        rw [looked] at failed
        cases found with
        | none =>
            cases failed
            exact .absent looked
        | some file =>
            cases load : w.loadRule file with
            | error other =>
                simp only [Except.bind, load] at failed
                cases failed
                exact .module looked load
            | ok rule =>
                simp only [Except.bind, load] at failed
                cases failed
  · intro givesNone
    cases givesNone with
    | search looked =>
        rw [looked]
        rfl
    | absent looked =>
        rw [looked]
        rfl
    | module looked failed =>
        rw [looked]
        simp only [Except.bind, failed]

/-!
### All plugins
-/

/-- Plugins all give rules, told one by one in their order. -/
def LoadsPlugins (w : World) (base : Path) : List (Key × Text) → List (Key × Rule) → Prop :=
  List.Forall₂ (GivesRule w base)

/-- A registry with more rules, registered in turn. -/
def Registry.registerAll (registry : Registry) (rules : List (Key × Rule)) : Registry :=
  rules.foldl (fun registry entry => registry.register entry.1 entry.2) registry

/-- A name is in a registry with more rules when it was in there or is the name of one of
them. -/
theorem contains_registerAll {name : Key} {rules : List (Key × Rule)} {registry : Registry} :
    Table.contains name (registry.registerAll rules) = true ↔
      Table.contains name registry = true ∨ ∃ entry ∈ rules, Sameness.same entry.1 name = true := by
  induction rules generalizing registry with
  | nil => simp [Registry.registerAll]
  | cons entry rest ih =>
      have first : Table.contains name (registry.register entry.1 entry.2) = true ↔
          Sameness.same entry.1 name = true ∨ Table.contains name registry = true := by
        rw [Registry.register, Table.contains, Table.get?_put]
        by_cases same : Sameness.same entry.1 name = true
        · simp [same]
        · simp [same, Table.contains]
      have opened : registry.registerAll (entry :: rest)
          = Registry.registerAll (registry.register entry.1 entry.2) rest := rfl
      rw [opened, ih, first, List.exists_mem_cons_iff, or_assoc, or_left_comm]

/-- Plugins that give rules are registered, and then loading goes on behind them. -/
theorem loadPlugins_append {w : World} {base : Path} {before : List (Key × Text)}
    {loaded : List (Key × Rule)} (loads : LoadsPlugins w base before loaded)
    (rest : List (Key × Text)) (registry : Registry) :
    (loadPlugins w base (before ++ rest) registry).failure
        = (loadPlugins w base rest (registry.registerAll loaded)).failure
      ∧ (loadPlugins w base (before ++ rest) registry).registry
        = (loadPlugins w base rest (registry.registerAll loaded)).registry := by
  induction loads generalizing registry with
  | nil => exact ⟨rfl, rfl⟩
  | @cons plugin entry _ _ gives _ ih =>
      obtain ⟨path, outcome⟩ := gives.loadPlugin
      obtain ⟨name, lookup⟩ := plugin
      have named : entry.1 = name := gives.named
      rw [List.cons_append, loadPlugins]
      simp only [outcome]
      rw [← named]
      exact ih (registry.register entry.1 entry.2)

theorem loadPlugins_of_loads {w : World} {base : Path} {plugins : List (Key × Text)}
    {loaded : List (Key × Rule)} (loads : LoadsPlugins w base plugins loaded)
    (registry : Registry) :
    (loadPlugins w base plugins registry).failure = none
      ∧ (loadPlugins w base plugins registry).registry = registry.registerAll loaded := by
  have whole := loadPlugins_append loads [] registry
  rw [List.append_nil] at whole
  exact whole

/-- A plugin that gives no rule ends the loading, and leaves the rules of those before it. -/
theorem loadPlugins_of_givesNoRule {w : World} {base : Path} {before after : List (Key × Text)}
    {loaded : List (Key × Rule)} {name : Key} {lookup : Text} {failure : Failure}
    (loads : LoadsPlugins w base before loaded) (givesNone : GivesNoRule w base lookup failure)
    (registry : Registry) :
    (loadPlugins w base (before ++ (name, lookup) :: after) registry).failure = some failure
      ∧ (loadPlugins w base (before ++ (name, lookup) :: after) registry).registry
        = registry.registerAll loaded := by
  have behind := loadPlugins_append loads ((name, lookup) :: after) registry
  rw [behind.1, behind.2, loadPlugins]
  simp only [loadPlugin_eq_error_iff.2 givesNone, and_self]

/-- Plugins all give rules, or there is a first one that gives none. -/
theorem loads_or_stops (w : World) (base : Path) (plugins : List (Key × Text)) :
    (∃ loaded, LoadsPlugins w base plugins loaded)
      ∨ ∃ before name lookup after loaded failure, plugins = before ++ (name, lookup) :: after
        ∧ LoadsPlugins w base before loaded ∧ GivesNoRule w base lookup failure := by
  induction plugins with
  | nil => exact .inl ⟨[], .nil⟩
  | cons plugin rest ih =>
      obtain ⟨name, lookup⟩ := plugin
      cases outcome : (loadPlugin w lookup base).outcome with
      | error failure =>
          exact .inr ⟨[], name, lookup, rest, [], failure, rfl, .nil,
            loadPlugin_eq_error_iff.1 outcome⟩
      | ok found =>
          obtain ⟨path, rule⟩ := found
          have gives : GivesRule w base (name, lookup) (name, rule) :=
            givesRule_of_loadPlugin outcome
          rcases ih with ⟨loaded, loads⟩ | ⟨before, other, stop, after, loaded, failure, rfl,
            loads, givesNone⟩
          · exact .inl ⟨(name, rule) :: loaded, .cons gives loads⟩
          · exact .inr ⟨(name, lookup) :: before, other, stop, after, (name, rule) :: loaded,
              failure, rfl, .cons gives loads, givesNone⟩

end StyleAudit
