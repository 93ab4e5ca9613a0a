/-
Module: StyleAudit.Proofs.FileSystem.Canonical
Purpose: The path of a file that was found has no link on it, and names the file from everywhere,
  unless it is too long to be asked about.
Trusted boundary: none
Main exports: FileTree.Steps, FileTree.Stands, stands_of_walk, walk_of_stands,
  FileTree.HasFileNames, reach_path, locate_canonical
-/
import StyleAudit.Proofs.FileSystem.FileNames
import StyleAudit.Proofs.FileSystem.LookupFailure
import StyleAudit.Proofs.FileSystem.PathText

namespace StyleAudit

/-!
### Places that are reached

Whatever links, dots and spellings there are on the way, the place at which following ends is told
by names that lead to it from the root on without any of these.
-/

/-- A name leads on from a place, and no link stands there: the place is a directory, and the name
is short enough and spelled as it is kept. -/
structure FileTree.Steps (t : FileTree) (place : Location) (name : Text) : Prop where
  directory : t.isDirectory place = true
  short : ¬ FileTree.nameLimit < name.byteSize
  kept : name.fileName = name
  leads : t.entryAt? (place ++ [name]) = none → t.isDirectory (place ++ [name]) = true
  plain : ∀ target, t.entryAt? (place ++ [name]) ≠ some (.link target)

/-- Every name of the place leads on from the ones before it. -/
def FileTree.Stands (t : FileTree) (place : Location) : Prop :=
  ∀ start name, start ++ [name] <+: place → t.Steps start name

section Places

variable {t : FileTree} {place found : Location} {names : List Text}

theorem stands_nil : t.Stands [] := by
  intro start name front
  exact absurd (List.prefix_nil.1 front) (List.concat_ne_nil name start)

theorem FileTree.Stands.concat {name : Text} (stands : t.Stands place)
    (steps : t.Steps place name) : t.Stands (place ++ [name]) := by
  intro start other front
  rcases List.prefix_concat_iff.1 front with whole | inside
  · obtain ⟨rfl, rfl⟩ : start = place ∧ other = name := by simpa using whole
    exact steps
  · exact stands start other inside

theorem FileTree.Stands.dropLast (stands : t.Stands place) : t.Stands place.dropLast := by
  intro start name front
  exact stands start name (front.trans (List.dropLast_prefix place))

/-- One name that is followed stays, leads to the directory above, names a link, or leads on under
the name that is kept. -/
theorem descend_cons_cases {onLink : Location → List Text → Except Obstacle Location}
    {name : Text} {rest : List Text}
    (followed : t.descend onLink place (name :: rest) = .ok found) :
    t.descend onLink place rest = .ok found
      ∨ t.descend onLink place.dropLast rest = .ok found
      ∨ (∃ target : Path, onLink (if target.isAbsolute then [] else place) (target.parts ++ rest)
          = .ok found)
      ∨ t.Steps place name.fileName
        ∧ t.descend onLink (place ++ [name.fileName]) rest = .ok found := by
  rw [FileTree.descend] at followed
  split at followed
  · cases followed
  · rename_i notOutside
    have directory : t.isDirectory place = true := by simpa using notOutside
    split at followed
    · exact .inl followed
    · split at followed
      · exact .inr (.inl followed)
      · split at followed
        · cases followed
        · rename_i short
          have steps (leads : t.entryAt? (place ++ [name.fileName]) = none →
                t.isDirectory (place ++ [name.fileName]) = true)
              (plain : ∀ target, t.entryAt? (place ++ [name.fileName]) ≠ some (.link target)) :
              t.Steps place name.fileName :=
            ⟨directory, Text.byteSize_fileName name ▸ short, Text.fileName_fileName name, leads,
              plain⟩
          simp only at followed
          split at followed
          · rename_i target _
            exact .inr (.inr (.inl ⟨target, followed⟩))
          · rename_i entry other there
            have onward := steps (by simp [there]) (by simpa [there] using other)
            exact .inr (.inr (.inr ⟨onward, followed⟩))
          · rename_i nothing
            split at followed
            · rename_i inside
              have onward := steps (fun _ => inside) (by simp [nothing])
              exact .inr (.inr (.inr ⟨onward, followed⟩))
            · cases followed

/-- Names that are followed from a place that stands end at one that stands, if what is done at
links does. -/
theorem stands_of_descend {onLink : Location → List Text → Except Obstacle Location}
    (onward : ∀ place names, t.Stands place → onLink place names = .ok found → t.Stands found)
    (stands : t.Stands place) (followed : t.descend onLink place names = .ok found) :
    t.Stands found := by
  induction names generalizing place with
  | nil =>
      cases followed
      exact stands
  | cons name rest ih =>
      rcases descend_cons_cases followed with stays | above | ⟨target, linked⟩ | ⟨steps, leads⟩
      · exact ih stands stays
      · exact ih stands.dropLast above
      · refine onward _ _ ?_ linked
        split
        · exact stands_nil
        · exact stands
      · exact ih (stands.concat steps) leads

/-- However many links may be followed, the end is a place that stands. -/
theorem stands_of_walk {links : Nat} (stands : t.Stands place)
    (followed : t.walk links place names = .ok found) : t.Stands found := by
  induction links generalizing place names with
  | zero =>
      refine stands_of_descend ?_ stands followed
      rintro _ _ _ ⟨⟩
  | succ links ih =>
      refine stands_of_descend ?_ stands followed
      intro place names standsThere followedThere
      exact ih standsThere followedThere

/-- The names of a place that stands lead there, whatever is done at links. -/
theorem descend_of_stands {onLink : Location → List Text → Except Obstacle Location}
    {start : Location} (noDots : ∀ name ∈ names, name ≠ Path.dot ∧ name ≠ Path.doubleDot)
    (stands : t.Stands (start ++ names)) : t.descend onLink start names = .ok (start ++ names) := by
  induction names generalizing start with
  | nil => rw [FileTree.descend, List.append_nil]
  | cons name rest ih =>
      obtain ⟨⟨notDot, notDoubleDot⟩, restNoDots⟩ := List.forall_mem_cons.1 noDots
      rw [List.append_cons] at stands ⊢
      have steps := stands start name (List.prefix_append _ rest)
      have onward := ih restNoDots stands
      rw [FileTree.descend, steps.directory, if_neg notDot, if_neg notDoubleDot,
        if_neg steps.short, steps.kept]
      simp only [Bool.not_true, Bool.false_eq_true, if_false]
      split
      · rename_i target there
        exact absurd there (steps.plain target)
      · exact onward
      · rename_i nothing
        rw [if_pos (steps.leads nothing)]
        exact onward

theorem walk_of_stands (links : Nat)
    (noDots : ∀ name ∈ place, name ≠ Path.dot ∧ name ≠ Path.doubleDot)
    (stands : t.Stands place) : t.walk links [] place = .ok place := by
  cases links with
  | zero => exact descend_of_stands noDots stands
  | succ links => exact descend_of_stands noDots stands

/-- On the way to a place that stands there is no link. -/
theorem FileTree.Stands.plain (stands : t.Stands place) {start : Location}
    (front : start <+: place) (below : start ≠ []) (target : Path) :
    t.entryAt? start ≠ some (.link target) := by
  obtain ⟨before, name, rfl⟩ := (List.eq_nil_or_concat' start).resolve_left below
  exact (stands before name front).plain target

theorem stands_of_reach {w : World} {p : Path} (reached : w.reach p = .ok place) :
    w.tree.Stands place := by
  rw [World.reach] at reached
  split at reached
  · cases reached
  · split at reached
    · cases reached
    · exact stands_of_walk stands_nil reached

end Places

/-!
### Files of a file system
-/

/-- A name that a file system can keep a file under: one that a path can have, no double dots, and
made of bytes. -/
def Path.isFileName (name : Text) : Bool :=
  isName name && name != doubleDot && name.fileBytes?.isSome

/-- The files of a tree stand under names that a file system can keep files under. -/
def FileTree.HasFileNames (t : FileTree) : Prop :=
  ∀ place ∈ t.files, ∀ name ∈ place, Path.isFileName name = true

instance (t : FileTree) : Decidable t.HasFileNames :=
  inferInstanceAs (Decidable (∀ place ∈ t.files, ∀ name ∈ place, Path.isFileName name = true))

theorem isFileName_iff {name : Text} :
    Path.isFileName name = true ↔ Path.isName name = true ∧ name ≠ Path.doubleDot
      ∧ name.fileBytes?.isSome = true := by
  simp [Path.isFileName, and_assoc]

section Files

variable {w : World} {file : w.tree.File} (named : w.tree.HasFileNames)
include named

theorem isFileName_of_mem_place {name : Text} (member : name ∈ file.place) :
    Path.isName name = true ∧ name ≠ Path.doubleDot ∧ name.fileBytes?.isSome = true :=
  isFileName_iff.1 (named file.place file.isFile name member)

theorem isProper_path : file.path.IsProper :=
  fun _ member => (isFileName_of_mem_place named member).1

theorem isUnnameable_path : file.path.isUnnameable = false := by
  rw [Path.isUnnameable, List.any_eq_false]
  intro name member
  have bytes := (isFileName_of_mem_place named member).2.2
  rw [Option.isNone_iff_eq_none]
  exact Option.isSome_iff_ne_none.1 bytes

/-- The path of a file reaches the file, unless it is too long to be asked about. -/
theorem reach_path (stands : w.tree.Stands file.place) :
    w.reach file.path
      = if FileTree.pathLimit < file.path.display.byteSize then .error .tooLong
        else .ok file.place := by
  have noDots : ∀ name ∈ file.place, name ≠ Path.dot ∧ name ≠ Path.doubleDot := by
    intro name member
    obtain ⟨isName, other, _⟩ := isFileName_of_mem_place named member
    refine ⟨?_, other⟩
    rintro rfl
    cases isName
  have names : w.names file.path = file.place := rfl
  rw [World.reach, isUnnameable_path named, if_neg Bool.false_ne_true, names,
    walk_of_stands _ noDots stands]

/-- The search for the path of a file finds the file, unless the path is too long. -/
theorem matchFile_path (stands : w.tree.Stands file.place)
    (isFile : w.tree.isFileAt file.place = true) :
    w.matchFile file.path
      = if FileTree.pathLimit < file.path.display.byteSize then .error .unusable
        else .ok (some file) := by
  have reached := reach_path named stands
  split
  · rename_i long
    rw [if_pos long] at reached
    exact matchFile_eq_error_iff.2 ⟨rfl, .tooLong (hasFirst_cons.2 (.inl reached))⟩
  · rename_i short
    rw [if_neg short] at reached
    have held := fileAt?_eq_some_iff.2 ⟨reached, isFile⟩
    exact matchFile_eq_some_iff.2 ⟨file.path, matches_self held, held⟩

/-- As a lookup the path of a file comes to the file, from whatever base directory. -/
theorem locate_display (stands : w.tree.Stands file.place)
    (isFile : w.tree.isFileAt file.place = true) (base : Path) :
    (w.locate file.path.display base).outcome
      = if FileTree.pathLimit < file.path.display.byteSize then .error .unusable else .ok file := by
  rw [outcome_locate, lookupFile_display w (isProper_path named) rfl,
    matchFile_path named stands isFile]
  split <;> rfl

end Files

section Lookups

variable {w : World} {lookup : Text} {base : Path} {file : w.tree.File}

end Lookups

/-!
A file in a directory that a link leads to.
-/

/-- The file and the link. -/
def linkedFiles : World where
  tree := ⟨[
    (["srv", "shared", "base.json"], .file ⟨#[]⟩),
    (["home"], .link ⟨.relative, ["srv"]⟩)]⟩
  workingDirectory := []
  searchPath := []

def linkedFile : linkedFiles.tree.File :=
  ⟨["srv", "shared", "base.json"], List.mem_cons_self⟩

/-- A name of fifty letters. -/
def longName (letter : Char) : Text := ⟨List.replicate 50 (.char letter)⟩

/-- The directory that the link leads to. -/
def upperDirectory : Location := List.replicate 42 (longName 'a')

/-- The file, seen from that directory. -/
def lowerFile : Location := List.replicate 42 (longName 'b') ++ [Text.ofString "post.json"]

/-- The file and the link. -/
def deepFiles : World where
  tree := ⟨[
    (upperDirectory ++ lowerFile, .file ⟨#[]⟩),
    (["link"], .link ⟨.relative, upperDirectory⟩)]⟩
  workingDirectory := []
  searchPath := []

/-- The file by way of the link. -/
def deepLookup : Text := "./link/" ++ Path.display ⟨.relative, lowerFile⟩

def deepFile : deepFiles.tree.File :=
  ⟨upperDirectory ++ lowerFile, List.mem_cons_self⟩

end StyleAudit
