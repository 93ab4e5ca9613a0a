/-
Module: StyleAudit.Plugin
Purpose: Loading plugins into a registry.
Trusted boundary: none
Main exports: PluginLoad, loadPlugins
-/
import StyleAudit.Config.Source
import StyleAudit.Rule.Registry

namespace StyleAudit

/-!
### Plugins

Plugins are located and loaded one after another.  Each is registered under its
name before the next one is located, so what a failure leaves behind is the
registry with the plugins before it.
-/

/-- The registry after loading, what was logged, and the failure that ended it. -/
structure PluginLoad where
  registry : Registry
  log : List LogRecord
  failure : Option Failure

/-- Locates and loads one plugin. -/
def loadPlugin (w : World) (lookup : Text) (base : Path) : Logged (Path × Rule) := do
  let file ← w.locate lookup base
  let rule ← Logged.ofExcept (w.loadRule file)
  return (file.path, rule)

/-- What registering a loaded plugin logs. -/
def registerLog (name : Key) (file : Path) (registry : Registry) : List LogRecord :=
  (if Table.contains name registry then [.pluginReplaces file name] else [])
    ++ [.pluginLoaded name file]

/-- Loads plugins into a registry, in order, up to the first failure. -/
def loadPlugins (w : World) (base : Path) : List (Key × Text) → Registry → PluginLoad
  | [], registry => ⟨registry, [], none⟩
  | (name, lookup) :: rest, registry =>
      let loaded := loadPlugin w lookup base
      match loaded.outcome with
      | .error failure => ⟨registry, loaded.log, some failure⟩
      | .ok (file, rule) =>
          let others := loadPlugins w base rest (registry.register name rule)
          { others with log := loaded.log ++ registerLog name file registry ++ others.log }

end StyleAudit
