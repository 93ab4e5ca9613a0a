/-
Module: StyleAudit.FileSystem.Lookup
Purpose: Finding the file that a lookup names, and importing module files.
Trusted boundary: none
Main exports: World.matchFile, World.importAt, World.searchModule, World.locate
-/
import StyleAudit.FileSystem.RealPath

namespace StyleAudit

/-!
### Candidates for a file

A path that reaches no file is tried with each suffix of configuration files, and
then as a package: a directory that holds an initial module.  A path without a
last name takes no suffix.  A path that is too long ends the search.
-/

/-- The suffixes of configuration files, in the order in which they are tried. -/
def configSuffixes : List Text := [".json", ".toml", ".yaml", ".yml", ".py"]

/-- The name of a package's initial module, without its suffix. -/
def initialModule : Text := "__init__"

/-- The suffix of modules that are given by their program text. -/
def sourceSuffix : Text := ".py"

/-- The suffix of compiled modules. -/
def compiledSuffix : Text := ".pyc"

/-- The suffix of native libraries. -/
def nativeSuffix : Text := ".so"

/-- The suffixes of modules in the order in which a search tries them. -/
def moduleSuffixes : List Text :=
  [".cpython-311-x86_64-linux-gnu" ++ nativeSuffix, ".abi3" ++ nativeSuffix, nativeSuffix,
    sourceSuffix, compiledSuffix]

/-- The last name of a path ends like this. -/
def Path.endsWith (ending : Text) (p : Path) : Bool :=
  ending.points.isSuffixOf p.name.points

namespace World

/-- The file that a candidate reaches, if it reaches one. -/
def candidateFile (w : World) (candidate : Path) : Except Failure (Option w.tree.File) :=
  match w.reach candidate with
  | .ok place => .ok (w.fileOf? place)
  | .error .tooLong => .error .unusable
  | .error _ => .ok none

/-- The first of several candidates that is a file. -/
def firstFile (w : World) : List Path → Except Failure (Option w.tree.File)
  | [] => .ok none
  | candidate :: rest => do
      match ← w.candidateFile candidate with
      | some file => .ok (some file)
      | none => firstFile w rest

/-- The first candidate for a path that is a file. -/
def matchFile (w : World) (candidate : Path) : Except Failure (Option w.tree.File) := do
  match ← w.candidateFile candidate with
  | some file => .ok (some file)
  | none =>
      if candidate.parts.isEmpty then .error .unusable
      else
        w.firstFile (configSuffixes.filterMap candidate.addSuffix?
          ++ [candidate.child (initialModule ++ sourceSuffix)])

/-!
### Modules

Importing a module file does what its content says.  A file that is given by its
bytes holds no program that could be run, unless it is blank.  Native libraries and
compiled modules that are none cannot be imported, but are found where nothing needs to
be imported.
-/

/-- The configuration and the rule of a module that was imported. -/
structure Imported where
  config : Option Value
  rule : RuleExport

/-- Imports the module that stands at a place. -/
def importAt (w : World) (place : Location) : Except Failure Imported :=
  match w.tree.entryAt? place with
  | some (.module (.raising message)) => .error (.raised message)
  | some (.module (.exporting config rule)) => .ok ⟨config, rule⟩
  | some (.file bytes) =>
      if bytes.toList.all fun b => Text.isBlank (Char.ofNat b.toNat) then .ok ⟨none, .absent⟩
      else .error .unusable
  | _ => .error .unusable

/-- The bytes that every compiled module starts with. -/
def compiledMark : List UInt8 := [0xA7, 0x0D, 0x0D, 0x0A]

/-- How many bytes stand before the program in a compiled module. -/
def compiledHeader : Nat := 16

/-- The place holds a compiled module that breaks off before its program. -/
def isCutOff (w : World) (place : Location) : Bool :=
  match w.tree.entryAt? place with
  | some (.file bytes) =>
      compiledMark.isPrefixOf bytes.toList && bytes.size ≤ compiledHeader
  | _ => false

/-- Imports a parent of a module; says whether that is possible. -/
def importParent (w : World) (file : w.tree.File) : Except Failure Bool :=
  if file.path.endsWith sourceSuffix then (w.importAt file.place).map fun _ => true
  else if file.path.endsWith compiledSuffix && w.isCutOff file.place then .error .unusable
  else .ok false

/-- Where a name was found: a module file, a package with its initial module, or
directories that only serve as parents. -/
inductive Found (t : FileTree) where
  | module (file : t.File)
  | package (file : t.File) (directory : Path)
  | directories (paths : List Path)

/-- The first module file of a name in a directory. -/
def moduleIn? (w : World) (name : Text) (directory : Path) : Option w.tree.File :=
  moduleSuffixes.findSome? fun suffix => w.fileAt? (directory.child (name ++ suffix))

/-- A name under which a directory can list something; what is listed holds characters
only. -/
def canBeListed (name : Text) : Bool :=
  name.isPlain && !name.points.contains (.char '/') && name != Path.dot
    && name != Path.doubleDot

/-- Looks a name up in one directory. -/
def findIn? (w : World) (name : Text) (directory : Path) : Option (Found w.tree) :=
  if !canBeListed name then none
  else
    let inside := directory.child name
    match if name.isEmpty then none else w.moduleIn? initialModule inside with
    | some file => some (.package file inside)
    | none =>
        match w.moduleIn? name directory with
        | some file => some (.module file)
        | none =>
            if !name.isEmpty && w.isDirectory inside then some (.directories [inside]) else none

/-- Looks a name up in directories: the first module or package, or else all the
directories of that name. -/
def findAmong? (w : World) (name : Text) : List Path → Option (Found w.tree)
  | [] => none
  | directory :: rest =>
      match w.findIn? name directory, findAmong? w name rest with
      | some (.directories here), some (.directories more) => some (.directories (here ++ more))
      | some (.directories here), none => some (.directories here)
      | some (.directories _), some found => some found
      | some found, _ => some found
      | none, found => found

/-- Looks up the names of a dotted module name from the outside in, importing each
parent on the way. -/
def searchNames (w : World) : List Text → List Path → Except Failure (Option w.tree.File)
  | [], _ => .ok none
  | [name], directories =>
      match w.findAmong? name directories with
      | some (.module file) => .ok (some file)
      | some (.package file _) => .ok (some file)
      | _ => .ok none
  | name :: rest, directories =>
      match w.findAmong? name directories with
      | some (.module file) => do
          let _ ← w.importParent file
          .ok none
      | some (.package file directory) => do
          if ← w.importParent file then searchNames w rest [directory] else .ok none
      | some (.directories paths) => searchNames w rest paths
      | none => .ok none

/-- Looks a module name up on the search path.  A name that is empty or starts
with a dot is not found. -/
def searchModule (w : World) (name : Text) : Except Failure (Option w.tree.File) :=
  if name.isEmpty || name.points.head? == some (.char '.') then .ok none
  else searchNames w (name.splitOn '.') (w.searchPath.filter w.isDirectory)

/-!
### Lookups
-/

/-- The file that a lookup names, seen from a base directory, if there is one. -/
def lookupFile (w : World) (lookup : Text) (base : Path) :
    Except Failure (Option w.tree.File) :=
  if isPathLookup lookup then w.matchFile (base.join (Path.ofText lookup))
  else do
    match ← w.matchFile (base.join (modulePath lookup)) with
    | some file => .ok (some file)
    | none => w.searchModule lookup

/-- The file that a lookup names, seen from a base directory. -/
def locate (w : World) (lookup : Text) (base : Path) : Logged w.tree.File := do
  match ← Logged.ofExcept (w.lookupFile lookup base) with
  | none => Logged.refuse (.notFound lookup)
  | some file =>
      Logged.note (.resolved lookup base file.path)
      return file

/-!
### Loading a rule
-/

/-- The rule that a module file gives.  A module is named by its path, which must be one of
characters. -/
def loadRule (w : World) (file : w.tree.File) : Except Failure Rule :=
  if !file.path.display.isPlain then .error .unusable
  else if file.path.endsWith sourceSuffix then do
    let imported ← w.importAt file.place
    match imported.rule with
    | .callable rule => .ok rule
    | _ => .error (.configuration (.noRule file.path))
  else if file.path.endsWith compiledSuffix || file.path.endsWith nativeSuffix then
    .error .unusable
  else .error (.configuration (.notImportable file.path))

end World

end StyleAudit
