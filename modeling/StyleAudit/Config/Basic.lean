/-
Module: StyleAudit.Config.Basic
Purpose: Configurations whose fields have been checked.
Trusted boundary: none
Main exports: Configuration, Configuration.ofMapping, Configuration.toMapping, applyOverrides?
-/
import StyleAudit.Config.Setting
import StyleAudit.Value.Merge

namespace StyleAudit

/-!
### Configurations

A configuration has rules, plugins, a flag for errors only, and perhaps a base
directory.  All faults in the shape of its fields are reported together.
-/

/-- A configuration with checked fields. -/
structure Configuration where
  rules : Mapping
  plugins : Table Key Text
  quiet : Bool
  basedir : Option Path
deriving Repr

/-- The key of the rules. -/
def rulesKey : String := "rules"

/-- The key of the plugins. -/
def pluginsKey : String := "plugins"

/-- The key of the flag for errors only. -/
def quietKey : String := "quiet"

/-- The key of the directory that lookups start from. -/
def basedirKey : String := "config_basedir"

namespace Configuration

/-- The rules in a field, and the faults of the field. -/
def rulesField : Value → Mapping × List ShapeFault
  | .map rules => (rules, [])
  | v => ([], [.rulesNotMapping v.kindName])

/-- The plugins among the entries of a field. -/
def pluginEntries (entries : Mapping) : Table Key Text :=
  entries.filterMap fun (name, v) => v.text?.map fun lookup => (name, lookup)

/-- The faults among the entries of a field for plugins. -/
def pluginFaults (entries : Mapping) : List ShapeFault :=
  entries.filterMap fun (name, v) =>
    if v.text?.isSome then none else some (.pluginNotText name)

/-- The plugins in a field, and the faults of the field. -/
def pluginsField : Option Value → Table Key Text × List ShapeFault
  | none => ([], [])
  | some (.map entries) => (pluginEntries entries, pluginFaults entries)
  | some v => ([], [.pluginsNotMapping v.kindName])

/-- The flag in a field, and the faults of the field. -/
def quietField : Option Value → Bool × List ShapeFault
  | none => (false, [])
  | some .null => (false, [])
  | some (.bool b) => (b, [])
  | some _ => (false, [.quietNotBool])

/-- The base directory in a field, and the faults of the field. -/
def basedirField : Option Value → Option Path × List ShapeFault
  | none => (none, [])
  | some .null => (none, [])
  | some (.str text) => (some (Path.ofText text), [])
  | some _ => (none, [.basedirNotPath])

/-- The configuration that the fields of a mapping with rules give. -/
def ofFields (rules : Value) (data : Mapping) : Except ConfigFault Configuration :=
  let (rules, ruleFaults) := rulesField rules
  let (plugins, pluginFaults) := pluginsField (data.find? pluginsKey)
  let (quiet, quietFaults) := quietField (data.find? quietKey)
  let (basedir, basedirFaults) := basedirField (data.find? basedirKey)
  match ruleFaults ++ pluginFaults ++ quietFaults ++ basedirFaults with
  | [] => .ok ⟨rules, plugins, quiet, basedir⟩
  | faults => .error (.shape faults)

/-- The configuration that a mapping gives. -/
def ofMapping (data : Mapping) : Except ConfigFault Configuration :=
  if data.isEmpty then .error .empty
  else
    match data.find? rulesKey with
    | none => .error .noRules
    | some .null => .error .noRules
    | some rules => ofFields rules data

/-- The configuration that a value gives; a value that holds nothing gives none. -/
def ofValue (data : Value) : Except Failure Configuration :=
  if !data.holds then .error (.configuration .empty)
  else
    match data with
    | .map entries => (ofMapping entries).mapError .ofFault
    | _ => .error .unusable

/-- A configuration as a mapping of its four fields. -/
def toMapping (c : Configuration) : Mapping :=
  [(.str rulesKey, .map c.rules),
   (.str pluginsKey, .map (c.plugins.map fun (name, lookup) => (name, .str lookup))),
   (.str quietKey, .bool c.quiet),
   (.str basedirKey, match c.basedir with
     | some p => .str p.display
     | none => .null)]

/-- The names of rules and plugins can be written. -/
def namesAreWritable (c : Configuration) : Bool :=
  c.rules.keys.all Key.isWritable && c.plugins.keys.all Key.isWritable

/-- The lines about rules and plugins, given the settings. -/
def lines (c : Configuration) (settings : List (Key × Setting)) : List Text :=
  let basedir : Text := match c.basedir with
    | some p => p.display
    | none => "(cwd)"
  let header : List Text :=
    ["sheetlint Configuration", String.ofList (List.replicate 40 '='), "",
     "Base directory: " ++ basedir, "Quiet: " ++ boolWord c.quiet, "", "Rules:"]
  let rules : List Text := settings.map fun (name, setting) =>
    "  " ++ name.display ++ ": " ++ setting.severity.title
  let plugins : List Text :=
    if c.plugins.isEmpty then []
    else "" :: "Plugins:" :: c.plugins.map fun (name, lookup) =>
      "  " ++ name.display ++ ": " ++ lookup
  header ++ rules ++ plugins

/-- A configuration as lines for a reader.  Settings may turn out to be faulty, and
names may turn out to have no text. -/
def describe (c : Configuration) : Except Failure Text := do
  let settings ← (settingsOf c.rules).mapError .ofFault
  if c.namesAreWritable then return Text.intercalate "\n" (c.lines settings)
  else throw .unusable

end Configuration

/-- Overrides laid over a configuration.  Overrides that hold nothing change
nothing; others must be a mapping. -/
def applyOverrides? (config overrides : Value) : Option Value :=
  if overrides.holds then config.mergeLayers? [overrides] else some config

end StyleAudit
