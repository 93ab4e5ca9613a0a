/-
Module: StyleAudit.Failure
Purpose: Why an operation fails, as causes, and the words for each cause.
Trusted boundary: none
Main exports: ConfigFault, ConfigFault.message, DocumentFault, DocumentFault.message, Failure,
  Failure.ofFault
-/
import StyleAudit.Diagnostic
import StyleAudit.FileSystem.Path
import StyleAudit.Value.Printer

namespace StyleAudit

/-!
### Faults of a configuration
-/

/-- A field of a configuration that has the wrong shape. -/
inductive ShapeFault where
  | rulesNotMapping (kind : String)
  | pluginNotText (name : Key)
  | pluginsNotMapping (kind : String)
  | quietNotBool
  | basedirNotPath
deriving DecidableEq, Repr

/-- The words for a field of the wrong shape. -/
def ShapeFault.message : ShapeFault → Text
  | .rulesNotMapping kind => s!"rules must be a mapping, got {kind}"
  | .pluginNotText name => "plugins." ++ name.display ++ " must be a string"
  | .pluginsNotMapping kind => s!"plugins must be a mapping, got {kind}"
  | .quietNotBool => "quiet must be a boolean"
  | .basedirNotPath => "config_basedir must be a path"

/-- The formats of configuration files whose texts can be malformed. -/
inductive TextFormat where
  | json
  | toml
  | yaml
deriving DecidableEq, Repr

/-- The name of a format. -/
def TextFormat.title : TextFormat → String
  | .json => "JSON"
  | .toml => "TOML"
  | .yaml => "YAML"

/-- What is wrong with a configuration, a file it needs, or a plugin. -/
inductive ConfigFault where
  | notFound (lookup : Text)
  | circular (chain : List Path) (again : Path)
  | extendsShape (kind : String)
  | empty
  | noRules
  | shape (faults : List ShapeFault)
  | undefinedRule (name : Key)
  | emptySetting (name : Key)
  | invalidSeverity (value : Value) (name : Key)
  | unreadable (file : Path)
  | undecodable (file : Path)
  | malformed (format : TextFormat) (file : Path)
  | notMapping (kind : String) (file : Path)
  | notImportable (file : Path)
  | noRule (file : Path)
deriving Repr

/-- The words that name the valid severities. -/
def severityWords : String :=
  (Value.seq (Severity.all.map fun s => .str s.label)).described

/-- The words for a fault of a configuration. -/
def ConfigFault.message : ConfigFault → Text
  | .notFound lookup =>
      "Could not find \"" ++ lookup ++ "\". Do you need a `config_basedir`? "
        ++ "File paths need a \"./\" or \"../\" prefix; bare names are resolved as modules."
  | .circular chain again =>
      "Circular extends detected: "
        ++ Text.intercalate " -> " ((chain ++ [again]).map Path.display)
  | .extendsShape kind => s!"extends must be a string or a list of strings, got {kind}"
  | .empty => "No configuration provided"
  | .noRules => "No rules found within configuration"
  | .shape faults =>
      "Configuration errors:\n"
        ++ Text.intercalate "\n" (faults.map fun fault => "  - " ++ fault.message)
  | .undefinedRule name => "Undefined rule " ++ name.display
  | .emptySetting name => "Empty setting for rule " ++ name.display
  | .invalidSeverity value name =>
      "Invalid severity " ++ value.described ++ " for rule " ++ name.display
        ++ "; expected 0, 1, 2 or one of " ++ severityWords
  | .unreadable _ => "Cannot read config file"
  | .undecodable _ => "Cannot decode config file"
  | .malformed format _ => "Invalid " ++ format.title
  | .notMapping kind _ => s!"Configuration must be a mapping, got {kind}"
  | .notImportable _ => "Cannot import module"
  | .noRule _ => "Plugin module must define a callable `rule`"

/-- The fault of a field can be put into words. -/
def ShapeFault.isWritable : ShapeFault → Bool
  | .pluginNotText name => name.isWritable
  | _ => true

/-- The fault can be put into words: no integer in it has too many digits. -/
def ConfigFault.isWritable : ConfigFault → Bool
  | .shape faults => faults.all ShapeFault.isWritable
  | .undefinedRule name => name.isWritable
  | .emptySetting name => name.isWritable
  | .invalidSeverity value name => value.isWritable && name.isWritable
  | _ => true

/-- The file that a fault is about. -/
def ConfigFault.file? : ConfigFault → Option Path
  | .circular _ again => some again
  | .unreadable file => some file
  | .undecodable file => some file
  | .malformed _ file => some file
  | .notMapping _ file => some file
  | .notImportable file => some file
  | .noRule file => some file
  | _ => none

/-!
### Faults of a serialized document
-/

/-- What is wrong with a serialized document. -/
inductive DocumentFault where
  | notObject (kind : String)
  | badCoordinate (name : String) (value : Value)
  | childrenNotList (kind : String)
  | unknownType (value : Value)
  | notRoot (typeName : String)
deriving Repr

/-- The words for a fault of a serialized document. -/
def DocumentFault.message : DocumentFault → String
  | .notObject kind => s!"Document node must be an object, got {kind}"
  | .badCoordinate name value => s!"Node {name} must be an integer, got " ++ value.described
  | .childrenNotList kind => s!"Node children must be a list, got {kind}"
  | .unknownType value => "Unknown document node type: " ++ value.described
  | .notRoot typeName => "Document must have a root node, got " ++ Text.quoted typeName

/-!
### Failures

A failure is a fault of a configuration or of a document, an error that a rule or
a module raised with its own words, a path on which a link leads back to itself, or a
value of a kind that an operation cannot use and does not check for.
-/

/-- Why an operation fails. -/
inductive Failure where
  | configuration (fault : ConfigFault)
  | document (fault : DocumentFault)
  | raised (message : Text)
  | linkLoop (path : Path)
  | unusable
deriving Repr

/-- The failure that a fault of a configuration is.  One that cannot be put into words
is not reported as such. -/
def Failure.ofFault (fault : ConfigFault) : Failure :=
  if fault.isWritable then .configuration fault else .unusable

/-- The words for a link that leads back to itself. -/
def linkLoopMessage (path : Path) : String :=
  "Symlink loop from " ++ Text.quoted path.display

end StyleAudit
