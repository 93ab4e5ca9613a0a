/-
Module: StyleAudit.Proofs.FileSystem.Matching
Purpose: The path at which a lookup finds a file: one that is tried for the lookup, or one of a
  module on the search path.
Trusted boundary: none
Main exports: World.Reaches.isFileAt, candidatesOf, World.Passes, World.Matches,
  matchFile_eq_some_iff, moduleFilesOf, lookupPath, World.Finds, lookupFile_eq_some_iff,
  locate_eq_ok_iff
-/
import StyleAudit.Proofs.Config.SettingFaults
import StyleAudit.Proofs.FileSystem.Search

namespace StyleAudit

/-!
### Files that are reached
-/

/-- Some path reaches the file. -/
def World.Reaches (w : World) (file : w.tree.File) : Prop :=
  ∃ p, w.fileAt? p = some file

section Reaching

variable {w : World} {p : Path} {file : w.tree.File}

/-- A path reaches a file where a file stands at the place that it reaches. -/
theorem fileAt?_eq_some_iff :
    w.fileAt? p = some file ↔
      w.reach p = .ok file.place ∧ w.tree.isFileAt file.place = true := by
  rw [World.fileAt?]
  constructor
  · intro held
    split at held
    · rename_i place reached
      rw [World.fileOf?] at held
      split at held
      · rename_i isFile
        cases held
        exact ⟨reached, isFile⟩
      · cases held
    · cases held
  · rintro ⟨reached, isFile⟩
    rw [reached]
    simp only [World.fileOf?, isFile, dif_pos]

/-- A file that a path reaches stands in the file tree. -/
theorem World.Reaches.isFileAt (reaches : w.Reaches file) :
    w.tree.isFileAt file.place = true := by
  obtain ⟨p, held⟩ := reaches
  exact (fileAt?_eq_some_iff.1 held).2

end Reaching

/-!
### Candidates

What is tried for a path is the path itself, the path with each suffix of configuration files, and
the package of its name.
-/

/-- Everything that is tried for a path, in this order. -/
def candidatesOf (p : Path) : List Path :=
  p :: (configSuffixes.filterMap p.addSuffix? ++ [p.child (initialModule ++ sourceSuffix)])

/-- The path can be asked about, and is no file. -/
def World.Passes (w : World) (p : Path) : Prop :=
  ¬ w.IsTooLong p ∧ w.fileAt? p = none

/-- The candidate at which the search for a path ends: it reaches a file, and everything that is
tried before it passes.  For a path without names nothing else is tried. -/
structure World.Matches (w : World) (p matched : Path) : Prop where
  first : HasFirst w.Passes
    (fun candidate => candidate = matched ∧ (w.fileAt? candidate).isSome = true) (candidatesOf p)
  nameless : p.parts = [] → matched = p

section Candidates

variable {w : World} {p : Path} {file : w.tree.File}

theorem mem_candidatesOf {candidate : Path} :
    candidate ∈ candidatesOf p ↔ candidate = p
      ∨ (∃ suffix ∈ configSuffixes, p.addSuffix? suffix = some candidate)
      ∨ candidate = p.child (initialModule ++ sourceSuffix) := by
  rw [candidatesOf, List.mem_cons, List.mem_append, List.mem_filterMap, List.mem_singleton]

/-- Whatever is done with a file, it is found at a candidate, or behind one that passes. -/
theorem candidateFile_bind_eq_some_iff
    {next : Option w.tree.File → Except Failure (Option w.tree.File)}
    (keeps : ∀ file, next (some file) = .ok (some file)) :
    (w.candidateFile p >>= next) = .ok (some file) ↔
      w.fileAt? p = some file ∨ w.Passes p ∧ next none = .ok (some file) := by
  by_cases long : w.IsTooLong p
  · have nothing : w.fileAt? p = none := by
      rw [World.fileAt?, long]
    simp [candidateFile_of_tooLong long, bind, Except.bind, nothing, World.Passes, long]
  · rw [candidateFile_of_not_tooLong long]
    cases held : w.fileAt? p with
    | some other => simp [bind, Except.bind, keeps, World.Passes, held]
    | none => simp [bind, Except.bind, long, World.Passes, held]

theorem firstFile_eq_some_iff {candidates : List Path} :
    w.firstFile candidates = .ok (some file) ↔
      HasFirst w.Passes (fun candidate => w.fileAt? candidate = some file) candidates := by
  induction candidates with
  | nil =>
      constructor
      · intro impossible
        cases impossible
      · intro impossible
        exact absurd impossible not_hasFirst_nil
  | cons candidate rest ih =>
      rw [World.firstFile, hasFirst_cons, ← ih]
      exact candidateFile_bind_eq_some_iff fun _ => rfl

theorem hasFirst_fileAt?_iff {candidates : List Path} :
    HasFirst w.Passes (fun candidate => w.fileAt? candidate = some file) candidates ↔
      ∃ matched, HasFirst w.Passes
        (fun candidate => candidate = matched ∧ (w.fileAt? candidate).isSome = true) candidates
        ∧ w.fileAt? matched = some file := by
  constructor
  · rintro ⟨before, matched, after, split, passes, held⟩
    exact ⟨matched, ⟨before, matched, after, split, passes, rfl, Option.isSome_of_eq_some held⟩,
      held⟩
  · rintro ⟨_, ⟨before, matched, after, split, passes, rfl, _⟩, held⟩
    exact ⟨before, matched, after, split, passes, held⟩

/-- A path that reaches a file is matched by itself. -/
theorem matches_self (held : w.fileAt? p = some file) : w.Matches p p where
  first := hasFirst_cons.2 (.inl ⟨rfl, Option.isSome_of_eq_some held⟩)
  nameless _ := rfl

/-- A search finds the file that the matched path reaches. -/
theorem matchFile_eq_some_iff :
    w.matchFile p = .ok (some file) ↔
      ∃ matched, w.Matches p matched ∧ w.fileAt? matched = some file := by
  rw [World.matchFile]
  refine (candidateFile_bind_eq_some_iff ?_).trans ?_
  · intro other
    rfl
  by_cases bare : p.parts = []
  · simp only [bare, List.isEmpty_nil, if_true, reduceCtorEq, and_false, or_false]
    constructor
    · intro held
      exact ⟨p, matches_self held, held⟩
    · rintro ⟨matched, ends, held⟩
      rw [← ends.nameless bare]
      exact held
  · have filled : ¬ p.parts.isEmpty = true := mt List.isEmpty_iff.1 bare
    rw [if_neg filled, firstFile_eq_some_iff]
    refine hasFirst_cons.symm.trans (hasFirst_fileAt?_iff.trans ?_)
    constructor
    · rintro ⟨matched, first, held⟩
      exact ⟨matched, ⟨first, fun nameless => absurd nameless bare⟩, held⟩
    · rintro ⟨matched, ends, held⟩
      exact ⟨matched, ends.first, held⟩

/-- Nothing that passes reaches a file, so a search ends at one candidate only. -/
theorem eq_of_hasFirst {candidates : List Path} {one other : Path}
    (first : HasFirst w.Passes
      (fun candidate => candidate = one ∧ (w.fileAt? candidate).isSome = true) candidates)
    (again : HasFirst w.Passes
      (fun candidate => candidate = other ∧ (w.fileAt? candidate).isSome = true) candidates) :
    one = other := by
  induction candidates with
  | nil => exact absurd first not_hasFirst_nil
  | cons candidate rest ih =>
      have stops (passes : w.Passes candidate) : ¬ (w.fileAt? candidate).isSome = true := by
        rw [passes.2]
        exact Bool.false_ne_true
      rcases hasFirst_cons.1 first with ⟨rfl, reached⟩ | ⟨passes, later⟩
      · rcases hasFirst_cons.1 again with ⟨same, _⟩ | ⟨passes, _⟩
        · exact same
        · exact absurd reached (stops passes)
      · rcases hasFirst_cons.1 again with ⟨_, reached⟩ | ⟨_, laterAgain⟩
        · exact absurd reached (stops passes)
        · exact ih later laterAgain

theorem World.Matches.unique {one other : Path} (ends : w.Matches p one)
    (again : w.Matches p other) : one = other :=
  eq_of_hasFirst ends.first again.first

theorem World.Matches.mem_candidatesOf {matched : Path} (ends : w.Matches p matched) :
    matched ∈ candidatesOf p := by
  obtain ⟨before, _, after, split, _, rfl, _⟩ := ends.first
  rw [split]
  exact List.mem_append_right _ List.mem_cons_self

end Candidates

/-!
### Modules on the search path
-/

/-- Where the file of a module or a package of this path can stand. -/
def moduleFilesOf (inside : Path) : List Path :=
  moduleSuffixes.flatMap fun suffix =>
    (inside.addSuffix? suffix).toList ++ [inside.child (initialModule ++ suffix)]

section Modules

variable {w : World} {file : w.tree.File}

theorem mem_moduleFilesOf {inside candidate : Path} :
    candidate ∈ moduleFilesOf inside ↔ ∃ suffix ∈ moduleSuffixes,
      inside.addSuffix? suffix = some candidate
        ∨ candidate = inside.child (initialModule ++ suffix) := by
  simp [moduleFilesOf, List.mem_flatMap]

/-- A path reaches the file from where a module of some name in a directory can stand. -/
def World.StandsIn (w : World) (names : List Text) (file : w.tree.File) (directory : Path) : Prop :=
  ∃ p ∈ moduleFilesOf ⟨directory.anchor, directory.parts ++ names⟩, w.fileAt? p = some file

/-- What is found of a name among directories stands in one of them. -/
def World.Found.StandsAmong {w : World} (name : Text) (directories : List Path) :
    World.Found w.tree → Prop
  | .module file => ∃ directory ∈ directories, w.StandsIn [name] file directory
  | .package file inside =>
      ∃ directory ∈ directories, inside = directory.child name ∧ w.StandsIn [name] file directory
  | .directories paths => ∀ path ∈ paths, ∃ directory ∈ directories, path = directory.child name

theorem standsIn_of_moduleIn? {name : Text} {directory : Path}
    (found : w.moduleIn? name directory = some file) : w.StandsIn [name] file directory := by
  obtain ⟨suffix, known, held⟩ := List.exists_of_findSome?_eq_some found
  refine ⟨_, mem_moduleFilesOf.2 ⟨suffix, known, .inl ?_⟩, held⟩
  simp [Path.addSuffix?, Path.child]

theorem standsIn_of_package {name : Text} {directory : Path}
    (found : w.moduleIn? initialModule (directory.child name) = some file) :
    w.StandsIn [name] file directory := by
  obtain ⟨suffix, known, held⟩ := List.exists_of_findSome?_eq_some found
  exact ⟨_, mem_moduleFilesOf.2 ⟨suffix, known, .inr rfl⟩, held⟩

theorem standsAmong_of_findAmong? {name : Text} {directories : List Path}
    {found : World.Found w.tree} (looked : w.findAmong? name directories = some found) :
    found.StandsAmong name directories := by
  apply findAmong?_of_each _ _ looked
  · intro directory listed here inDirectory
    rcases findIn?_cases inDirectory with ⟨_, held, rfl⟩ | ⟨_, held, rfl⟩ | rfl
    · exact ⟨directory, listed, rfl, standsIn_of_package held⟩
    · exact ⟨directory, listed, standsIn_of_moduleIn? held⟩
    · exact List.forall_mem_singleton.2 ⟨directory, listed, rfl⟩
  · intro paths more here there
    exact List.forall_mem_append.2 ⟨here, there⟩

/-- What stands in a subdirectory stands in the directory, behind one name more. -/
theorem World.StandsIn.above {name : Text} {names : List Text} {directory : Path}
    (stands : w.StandsIn names file (directory.child name)) :
    w.StandsIn (name :: names) file directory := by
  obtain ⟨p, listed, held⟩ := stands
  rw [Path.child, List.append_assoc] at listed
  exact ⟨p, listed, held⟩

/-- A module that is found stands behind its names in one of the directories. -/
theorem exists_standsIn_of_searchNames {names : List Text} {directories : List Path}
    (found : w.searchNames names directories = .ok (some file)) :
    ∃ directory ∈ directories, w.StandsIn names file directory := by
  induction names generalizing directories with
  | nil => cases found
  | cons name rest ih =>
      cases rest with
      | nil =>
          rw [World.searchNames] at found
          split at found
          · rename_i looked
            cases found
            exact standsAmong_of_findAmong? looked
          · rename_i looked
            cases found
            obtain ⟨directory, listed, _, stands⟩ := standsAmong_of_findAmong? looked
            exact ⟨directory, listed, stands⟩
          · cases found
      | cons second others =>
          simp only [World.searchNames] at found
          split at found
          · obtain ⟨_, _, impossible⟩ := bind_eq_ok_iff.1 found
            cases impossible
          · rename_i looked
            obtain ⟨imported, _, later⟩ := bind_eq_ok_iff.1 found
            obtain ⟨directory, listed, rfl, _⟩ := standsAmong_of_findAmong? looked
            cases imported with
            | false => cases later
            | true =>
                obtain ⟨inside, only, stands⟩ := ih later
                rw [List.mem_singleton] at only
                subst only
                exact ⟨directory, listed, stands.above⟩
          · rename_i looked
            obtain ⟨inside, among, stands⟩ := ih found
            obtain ⟨directory, listed, rfl⟩ := standsAmong_of_findAmong? looked inside among
            exact ⟨directory, listed, stands.above⟩
          · cases found

end Modules

/-!
### Lookups
-/

/-- The path that a lookup denotes, seen from a base directory. -/
def lookupPath (lookup : Text) (base : Path) : Path :=
  base.join (if isPathLookup lookup then Path.ofText lookup else modulePath lookup)

/-- The path at which a lookup finds a file, seen from a base directory: the one that the search for
the lookup's path ends at, or where nothing matches a module name, that of a module on the search
path. -/
inductive World.Finds (w : World) (lookup : Text) (base : Path) (p : Path) : Prop where
  | tried (ends : w.Matches (lookupPath lookup base) p) : Finds w lookup base p
  | imported {directory : Path} {file : w.tree.File} (isModule : isPathLookup lookup = false)
      (absent : w.matchFile (lookupPath lookup base) = .ok none)
      (searched : w.searchModule lookup = .ok (some file)) (onPath : directory ∈ w.searchPath)
      (listed : p ∈ moduleFilesOf
        ⟨directory.anchor, directory.parts ++ lookup.splitOn '.'⟩)
      (reached : w.fileAt? p = some file) : Finds w lookup base p

section Lookups

variable {w : World} {lookup : Text} {base : Path} {file : w.tree.File}

/-- Every lookup is tried as a path first; only a module name is searched for then. -/
theorem lookupFile_eq_bind (w : World) (lookup : Text) (base : Path) :
    w.lookupFile lookup base = (do
      match ← w.matchFile (lookupPath lookup base) with
      | some file => .ok (some file)
      | none => if isPathLookup lookup then .ok none else w.searchModule lookup) := by
  rw [World.lookupFile, lookupPath]
  cases isPathLookup lookup with
  | true =>
      simp only [if_true]
      cases w.matchFile (base.join (Path.ofText lookup)) with
      | error failure => rfl
      | ok here => cases here <;> rfl
  | false => rfl

theorem exists_standsIn_of_searchModule (found : w.searchModule lookup = .ok (some file)) :
    ∃ directory ∈ w.searchPath, w.StandsIn (lookup.splitOn '.') file directory := by
  rw [World.searchModule] at found
  split at found
  · cases found
  · obtain ⟨directory, listed, stands⟩ := exists_standsIn_of_searchNames found
    exact ⟨directory, List.mem_of_mem_filter listed, stands⟩

/-- A lookup finds the file that is reached by the path at which it is found. -/
theorem lookupFile_eq_some_iff :
    w.lookupFile lookup base = .ok (some file) ↔
      ∃ p, w.Finds lookup base p ∧ w.fileAt? p = some file := by
  rw [lookupFile_eq_bind]
  constructor
  · intro found
    obtain ⟨here, tried, later⟩ := bind_eq_ok_iff.1 found
    cases here with
    | some other =>
        cases later
        obtain ⟨p, ends, held⟩ := matchFile_eq_some_iff.1 tried
        exact ⟨p, .tried ends, held⟩
    | none =>
        simp only at later
        split at later
        · cases later
        · rename_i isModule
          obtain ⟨directory, onPath, p, listed, held⟩ := exists_standsIn_of_searchModule later
          exact ⟨p, .imported (Bool.eq_false_iff.2 isModule) tried later onPath listed held, held⟩
  · rintro ⟨p, ends | ⟨isModule, absent, searched, _, _, reached⟩, held⟩
    · rw [matchFile_eq_some_iff.2 ⟨p, ends, held⟩]
      rfl
    · rw [reached] at held
      cases held
      rw [absent, isModule]
      exact searched

theorem reaches_of_lookupFile (found : w.lookupFile lookup base = .ok (some file)) :
    w.Reaches file := by
  obtain ⟨p, _, held⟩ := lookupFile_eq_some_iff.1 found
  exact ⟨p, held⟩

theorem locate_eq_ok_iff :
    (w.locate lookup base).outcome = .ok file ↔
      ∃ p, w.Finds lookup base p ∧ w.fileAt? p = some file := by
  rw [← lookupFile_eq_some_iff, outcome_locate]
  cases w.lookupFile lookup base with
  | error failure => simp [Except.bind]
  | ok found => cases found <;> simp [Except.bind]

/-- A lookup that denotes a path to a file comes to the file. -/
theorem locate_of_reach (isFile : w.tree.isFileAt file.place = true)
    (reached : w.reach (lookupPath lookup base) = .ok file.place) :
    (w.locate lookup base).outcome = .ok file := by
  have held := fileAt?_eq_some_iff.2 ⟨reached, isFile⟩
  exact locate_eq_ok_iff.2 ⟨_, .tried (matches_self held), held⟩

end Lookups

end StyleAudit
