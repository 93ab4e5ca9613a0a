/-
Module: StyleAudit.FileSystem.Tree
Purpose: File trees as data, and which file a path reaches.
Trusted boundary: none
Main exports: Location, ModuleContent, Entry, FileTree, Obstacle, FileTree.walk, FileTree.File,
  World, World.reach, World.fileAt?
-/
import StyleAudit.FileSystem.Path
import StyleAudit.Rule.Basic

namespace StyleAudit

/-!
### Trees

A file tree lists what stands where.  A place is a list of names from the root on.
Directories need not be listed when something stands in them.  A module file is
given by what importing it does, since a rule is a function and no text.
-/

/-- The names from the root to a place. -/
abbrev Location := List Text

/-- What a module holds under the name of the rule. -/
inductive RuleExport where
  | absent
  | notCallable
  | callable (rule : Rule)

/-- What importing a module does: it raises an error, or gives a configuration and
a rule, each of which may be absent. -/
inductive ModuleContent where
  | raising (message : Text)
  | exporting (config : Option Value) (rule : RuleExport)

/-- What stands at a place. -/
inductive Entry where
  | file (bytes : ByteArray)
  | module (content : ModuleContent)
  | directory
  | link (target : Path)

/-- The entry is a file of either kind. -/
def Entry.isFile : Entry → Bool
  | .file _ => true
  | .module _ => true
  | _ => false

/-- What stands where. -/
structure FileTree where
  entries : List (Location × Entry)

namespace FileTree

/-- What is listed at a place. -/
def entryAt? (t : FileTree) (place : Location) : Option Entry :=
  (t.entries.find? fun e => e.1 == place).map (·.2)

/-- The place is a directory: it is the root, is listed as one, or something
stands below it. -/
def isDirectory (t : FileTree) (place : Location) : Bool :=
  place.isEmpty
    || (match t.entryAt? place with
        | some .directory => true
        | some _ => false
        | none => t.entries.any fun e => place.isPrefixOf e.1)

/-- The places of all files. -/
def files (t : FileTree) : List Location :=
  (t.entries.filter fun e => e.2.isFile).map (·.1)

/-- The place holds a file. -/
def isFileAt (t : FileTree) (place : Location) : Bool :=
  match t.entryAt? place with
  | some entry => entry.isFile
  | none => false

/-- A file stands among the files. -/
theorem mem_files_of_isFileAt {t : FileTree} {place : Location} (h : t.isFileAt place = true) :
    place ∈ t.files := by
  unfold isFileAt entryAt? at h
  cases hfind : t.entries.find? fun e => e.1 == place with
  | none => simp [hfind] at h
  | some e =>
      simp only [hfind, Option.map_some] at h
      have hmem := List.mem_of_find?_eq_some hfind
      have heq := List.find?_some hfind
      simp only [beq_iff_eq] at heq
      exact List.mem_map.2 ⟨e, List.mem_filter.2 ⟨hmem, h⟩, heq⟩

/-!
### Following links

A path is followed name by name.  Every name but the last must lead to a
directory; a dot stays there; double dots lead to the directory above; a link leads
on from where its target does.  Names are told apart by their bytes.  The number of links
on the way is bounded, and so are the lengths of names and of whole paths, which count in
bytes.
-/

/-- How many links may be followed. -/
def linkLimit : Nat := 40

/-- How many bytes a name may have. -/
def nameLimit : Nat := 255

/-- How many bytes a path may have. -/
def pathLimit : Nat := 4095

end FileTree

/-- Why a path reaches nothing: something on the way is missing or no directory, too
many links follow each other, a name or the whole path is too long, or the path holds
something that no name can hold. -/
inductive Obstacle where
  | missing
  | tooManyLinks
  | tooLong
  | unnameable
deriving DecidableEq, Repr

namespace FileTree

/-- Follows names from a place.  What to do at a link is given. -/
def descend (t : FileTree) (onLink : Location → List Text → Except Obstacle Location) :
    Location → List Text → Except Obstacle Location
  | place, [] => .ok place
  | place, name :: rest =>
      if !t.isDirectory place then .error .missing
      else if name = Path.dot then descend t onLink place rest
      else if name = Path.doubleDot then descend t onLink place.dropLast rest
      else if nameLimit < name.byteSize then .error .tooLong
      else
        let next := place ++ [name.fileName]
        match t.entryAt? next with
        | some (.link target) =>
            onLink (if target.isAbsolute then [] else place) (target.parts ++ rest)
        | some _ => descend t onLink next rest
        | none => if t.isDirectory next then descend t onLink next rest else .error .missing

/-- Follows names from a place with at most the given number of links. -/
def walk (t : FileTree) : Nat → Location → List Text → Except Obstacle Location
  | 0 => t.descend fun _ _ => .error .tooManyLinks
  | links + 1 => t.descend (walk t links)

/-- A file of a tree. -/
structure File (t : FileTree) where
  place : Location
  isFile : place ∈ t.files

/-- The path of a file from the root on. -/
def File.path {t : FileTree} (f : t.File) : Path :=
  ⟨.root, f.place⟩

/-- The directory of a file. -/
def File.directory {t : FileTree} (f : t.File) : Path :=
  f.path.parent

end FileTree

/-!
### The world of a run

A run sees a file tree, the directory it works in, and the directories in which
modules are looked up.
-/

/-- What a run can see. -/
structure World where
  tree : FileTree
  workingDirectory : Location
  searchPath : List Path

namespace World

/-- The names from the root on that a path denotes, links and double dots not
followed. -/
def names (w : World) (p : Path) : List Text :=
  if p.isAbsolute then p.parts else w.workingDirectory ++ p.parts

/-- The place that a path reaches, links followed. -/
def reach (w : World) (p : Path) : Except Obstacle Location :=
  if p.isUnnameable then .error .unnameable
  else if FileTree.pathLimit < p.display.byteSize then .error .tooLong
  else w.tree.walk FileTree.linkLimit [] (w.names p)

/-- The file at a place, if there is one. -/
def fileOf? (w : World) (place : Location) : Option w.tree.File :=
  if h : w.tree.isFileAt place = true then some ⟨place, FileTree.mem_files_of_isFileAt h⟩
  else none

/-- The file that a path reaches. -/
def fileAt? (w : World) (p : Path) : Option w.tree.File :=
  match w.reach p with
  | .ok place => w.fileOf? place
  | .error _ => none

/-- The path reaches a directory. -/
def isDirectory (w : World) (p : Path) : Bool :=
  match w.reach p with
  | .ok place => w.tree.isDirectory place
  | .error _ => false

/-- The working directory as a path. -/
def here (w : World) : Path :=
  ⟨.root, w.workingDirectory⟩

end World

end StyleAudit
