/-
Module: StyleAudit.Config.Source
Purpose: Reading configuration files in the formats that their suffixes name.
Trusted boundary: none
Main exports: FileFormat, FileFormat.ofPath, World.readConfig
-/
import StyleAudit.FileSystem.Lookup
import StyleAudit.Config.Basic
import StyleAudit.Config.Extends
import StyleAudit.Json.Reader
import StyleAudit.Toml.Reader
import StyleAudit.Yaml.Reader

namespace StyleAudit

/-!
### Configuration files

The suffix of a file's name says how the file is read; a name with any other
suffix or none means JSON.  What is read must be a mapping.
-/

/-- How a configuration file is read. -/
inductive FileFormat where
  | module
  | text (format : TextFormat)
deriving DecidableEq, Repr

/-- The format that a path's suffix names. -/
def FileFormat.ofPath (p : Path) : FileFormat :=
  match p.suffix.shown with
  | ".py" => .module
  | ".toml" => .text .toml
  | ".yaml" => .text .yaml
  | ".yml" => .text .yaml
  | _ => .text .json

/-- What bytes denote in a format. -/
def TextFormat.read (format : TextFormat) (bytes : ByteArray) :
    Except Format.Fault Format.Denotation := do
  match format with
  | .json => return .finite (← Json.read (Format.normalizeLineEnds (← Format.decode bytes)))
  | .yaml => Yaml.read (Yaml.Source.ofBytes bytes)
  | .toml => return .finite (.map (← Toml.read (← Format.decode bytes)))

/-- The failure that a fault in a text means for the file. -/
def faultOf (format : TextFormat) (path : Path) : Format.Fault → Failure
  | .malformed => .configuration (.malformed format path)
  | .unfinished => .configuration (.malformed format path)
  | .unrepresentable => .unusable
  | .undecodable => .configuration (.undecodable path)

/-- What the bytes of a file denote in a format. -/
def readBytes (format : TextFormat) (path : Path) (bytes : ByteArray) :
    Except Failure Format.Denotation :=
  (format.read bytes).mapError (faultOf format path)

/-- What a module gives as its configuration; null when it gives none. -/
def moduleConfig (w : World) (file : w.tree.File) : Except Failure Format.Denotation := do
  let imported ← w.importAt file.place
  .ok (.finite (imported.config.getD .null))

/-- What a configuration file holds, read as its path says.  A module is named by its path,
which must then be one of characters. -/
def World.readValue (w : World) (path : Path) : Except Failure Format.Denotation :=
  if path.isUnnameable || (FileFormat.ofPath path = .module && !path.display.isPlain) then
    .error .unusable
  else
    match w.fileAt? path with
    | none => .error (.configuration (.unreadable path))
    | some file =>
        match FileFormat.ofPath path with
        | .module => moduleConfig w file
        | .text format =>
            match w.tree.entryAt? file.place with
            | some (.file bytes) => readBytes format path bytes
            | _ => .error (.configuration (.malformed format path))

/-- The failure to use an endless configuration.  What it extends is looked at first, so
a list of lookups of the wrong shape is what counts. -/
def endlessFailure (config : Mapping) : Failure :=
  match lookupsOf config with
  | .error fault => .ofFault fault
  | .ok _ => .unusable

/-- The entries of a configuration file, and whether they are those of an endless mapping
cut short. -/
structure FileEntries where
  entries : Mapping
  isEndless : Bool

/-- The entries of the mapping that a configuration file holds. -/
def World.readEntries (w : World) (path : Path) : Except Failure FileEntries := do
  match ← w.readValue path with
  | ⟨.map entries, isEndless⟩ => .ok ⟨entries, isEndless⟩
  | ⟨v, _⟩ => .error (.configuration (.notMapping v.kindName path))

/-- The mapping that a configuration file holds, to be used as it stands. -/
def World.readConfig (w : World) (path : Path) : Except Failure Mapping := do
  let file ← w.readEntries path
  if file.isEndless then .error (endlessFailure file.entries) else .ok file.entries

/-- The entries of a file named by the caller.  The file's directory is the base directory
unless the file names one. -/
def World.readConfigFile (w : World) (path : Path) : Except Failure FileEntries := do
  let resolved ← w.absolute path
  let file ← w.readEntries resolved
  .ok { file with
    entries := Table.putNew (Key.str basedirKey) (.str resolved.parent.display) file.entries }

end StyleAudit
