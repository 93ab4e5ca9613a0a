/-
Module: StyleAudit.Proofs.FileSystem.LookupFailure
Purpose: A lookup names a file that exists or is reported as not found, unless the search for it
  breaks off; and when exactly it does.
Trusted boundary: none
Main exports: World.BreaksOff, World.ImportsParent, World.ImportsQuietly,
  matchFile_eq_error_iff, lookupFile_eq_error_iff, locate_reports
-/
import StyleAudit.Proofs.FileSystem.Matching

namespace StyleAudit

/-!
### Candidates

The search for a path breaks off at a candidate that is too long to be asked about.  It also breaks
off at a path without names that is no file, since there is no name to add to.
-/

/-- The search for a path breaks off. -/
inductive World.BreaksOff (w : World) (p : Path) : Prop where
  | tooLong (first : HasFirst w.Passes w.IsTooLong (candidatesOf p)) : BreaksOff w p
  | nameless (passed : w.Passes p) (bare : p.parts = []) : BreaksOff w p

section Candidates

variable {w : World} {p : Path} {failure : Failure}

/-- Whatever is done with a file, a search fails at a candidate that is too long, or behind one that
passes. -/
theorem candidateFile_bind_eq_error_iff
    {next : Option w.tree.File → Except Failure (Option w.tree.File)}
    (keeps : ∀ file, next (some file) = .ok (some file)) :
    (w.candidateFile p >>= next) = .error failure ↔
      failure = .unusable ∧ w.IsTooLong p ∨ w.Passes p ∧ next none = .error failure := by
  by_cases long : w.IsTooLong p
  · have stays : ¬ w.Passes p := fun passes => passes.1 long
    rw [candidateFile_of_tooLong long]
    simp only [bind, Except.bind, Except.error.injEq, long, stays, and_true, false_and, or_false]
    exact eq_comm
  · rw [candidateFile_of_not_tooLong long]
    cases held : w.fileAt? p with
    | some file => simp [bind, Except.bind, keeps, long, World.Passes, held]
    | none => simp [bind, Except.bind, long, World.Passes, held]

/-- Trying candidates fails exactly when one that is too long comes before any file. -/
theorem firstFile_eq_error_iff {candidates : List Path} :
    w.firstFile candidates = .error failure ↔
      failure = .unusable ∧ HasFirst w.Passes w.IsTooLong candidates := by
  induction candidates with
  | nil =>
      constructor
      · intro impossible
        cases impossible
      · intro impossible
        exact absurd impossible.2 not_hasFirst_nil
  | cons candidate rest ih =>
      rw [World.firstFile, hasFirst_cons, and_or_left, and_left_comm, ← ih]
      exact candidateFile_bind_eq_error_iff fun _ => rfl

/-- The search for a path breaks off at the path itself, for want of a name, or at a later
candidate. -/
theorem breaksOff_iff :
    w.BreaksOff p ↔ w.IsTooLong p ∨ w.Passes p ∧
      (p.parts = [] ∨ HasFirst w.Passes w.IsTooLong (candidatesOf p).tail) := by
  constructor
  · rintro (first | ⟨passes, bare⟩)
    · rcases hasFirst_cons.1 first with long | ⟨passes, later⟩
      · exact .inl long
      · exact .inr ⟨passes, .inr later⟩
    · exact .inr ⟨passes, .inl bare⟩
  · rintro (long | ⟨passes, bare | later⟩)
    · exact .tooLong (hasFirst_cons.2 (.inl long))
    · exact .nameless passes bare
    · exact .tooLong (hasFirst_cons.2 (.inr ⟨passes, later⟩))

/-- The search for a path fails exactly when it breaks off. -/
theorem matchFile_eq_error_iff :
    w.matchFile p = .error failure ↔ failure = .unusable ∧ w.BreaksOff p := by
  rw [World.matchFile, breaksOff_iff, and_or_left, and_left_comm]
  refine (candidateFile_bind_eq_error_iff ?_).trans ?_
  · intro file
    rfl
  apply or_congr_right
  apply and_congr_right
  intro _
  by_cases bare : p.parts = []
  · simp only [bare, List.isEmpty_nil, if_true, Except.error.injEq, true_or, and_true]
    exact eq_comm
  · have filled : ¬ p.parts.isEmpty = true := mt List.isEmpty_iff.1 bare
    simp only [filled, bare, false_or]
    exact firstFile_eq_error_iff

end Candidates

/-!
### Parents

A dotted name is looked up from the outside in, and each parent that is a module file is imported
on the way.
-/

/-- A parent that is imported when names are looked up in directories. -/
inductive World.ImportsParent (w : World) : List Text → List Path → w.tree.File → Prop where
  | module {name second : Text} {rest : List Text} {directories : List Path}
      {parent : w.tree.File} (found : w.findAmong? name directories = some (.module parent)) :
      ImportsParent w (name :: second :: rest) directories parent
  | package {name second : Text} {rest : List Text} {directories : List Path}
      {parent : w.tree.File} {inside : Path}
      (found : w.findAmong? name directories = some (.package parent inside)) :
      ImportsParent w (name :: second :: rest) directories parent
  | insidePackage {name second : Text} {rest : List Text} {directories : List Path}
      {parent other : w.tree.File} {inside : Path}
      (found : w.findAmong? name directories = some (.package parent inside))
      (imported : w.importParent parent = .ok true)
      (imports : ImportsParent w (second :: rest) [inside] other) :
      ImportsParent w (name :: second :: rest) directories other
  | insideDirectories {name second : Text} {rest : List Text} {directories paths : List Path}
      {other : w.tree.File}
      (found : w.findAmong? name directories = some (.directories paths))
      (imports : ImportsParent w (second :: rest) paths other) :
      ImportsParent w (name :: second :: rest) directories other

/-- A parent that is imported when a lookup is followed: the lookup is a module name, nothing
matches it in the base directory, and the parent is met on the search path. -/
structure World.Imports (w : World) (lookup : Text) (base : Path) (parent : w.tree.File) :
    Prop where
  isModule : isPathLookup lookup = false
  absent : w.matchFile (lookupPath lookup base) = .ok none
  isName : lookup ≠ "" ∧ lookup.points.head? ≠ some (.char '.')
  met : w.ImportsParent (lookup.splitOn '.') (w.searchPath.filter w.isDirectory) parent

/-- Importing the parents that a lookup imports ends well, or says that they cannot be
imported. -/
def World.ImportsQuietly (w : World) (lookup : Text) (base : Path) : Prop :=
  ∀ parent, w.Imports lookup base parent → ∃ imported, w.importParent parent = .ok imported

/-- A lookup that is a path imports nothing. -/
theorem importsQuietly_of_path {w : World} {lookup : Text} (isPath : isPathLookup lookup = true)
    (base : Path) : w.ImportsQuietly lookup base := by
  intro parent imports
  rw [imports.isModule] at isPath
  cases isPath

section Search

variable {w : World}

/-- A search fails only with a parent that it imports. -/
theorem exists_searchNames {names : List Text} {directories : List Path}
    (quiet : ∀ parent, w.ImportsParent names directories parent →
      ∃ imported, w.importParent parent = .ok imported) :
    ∃ found, w.searchNames names directories = .ok found := by
  induction names generalizing directories with
  | nil => exact ⟨none, rfl⟩
  | cons name rest ih =>
      cases rest with
      | nil =>
          rw [World.searchNames]
          split
          · exact ⟨_, rfl⟩
          · exact ⟨_, rfl⟩
          · exact ⟨_, rfl⟩
      | cons second others =>
          simp only [World.searchNames]
          cases looked : w.findAmong? name directories with
          | none => exact ⟨none, rfl⟩
          | some here =>
              cases here with
              | module parent =>
                  obtain ⟨imported, done⟩ := quiet parent (.module looked)
                  simp only [done]
                  exact ⟨none, rfl⟩
              | package parent inside =>
                  obtain ⟨imported, done⟩ := quiet parent (.package looked)
                  simp only [done]
                  cases imported with
                  | false => exact ⟨none, rfl⟩
                  | true =>
                      apply ih
                      intro other imports
                      exact quiet other (.insidePackage looked done imports)
              | directories paths =>
                  apply ih
                  intro other imports
                  exact quiet other (.insideDirectories looked imports)

theorem exists_searchModule {lookup : Text} {base : Path} (quiet : w.ImportsQuietly lookup base)
    (isModule : isPathLookup lookup = false)
    (absent : w.matchFile (lookupPath lookup base) = .ok none) :
    ∃ found, w.searchModule lookup = .ok found := by
  rw [World.searchModule]
  split
  · exact ⟨none, rfl⟩
  · rename_i named
    rw [Bool.or_eq_true, not_or, beq_iff_eq] at named
    have isName : lookup ≠ "" ∧ lookup.points.head? ≠ some (.char '.') := by
      refine ⟨?_, named.2⟩
      rintro rfl
      exact named.1 rfl
    apply exists_searchNames
    intro parent met
    exact quiet parent ⟨isModule, absent, isName, met⟩

end Search

/-!
### Lookups
-/

section Lookups

variable {w : World} {lookup : Text} {base : Path}

/-- Looking for a file fails exactly when the search for the lookup's path breaks off. -/
theorem lookupFile_eq_error_iff (quiet : w.ImportsQuietly lookup base) {failure : Failure} :
    w.lookupFile lookup base = .error failure ↔
      failure = .unusable ∧ w.BreaksOff (lookupPath lookup base) := by
  rw [lookupFile_eq_bind, ← matchFile_eq_error_iff]
  cases tried : w.matchFile (lookupPath lookup base) with
  | error other => rfl
  | ok here =>
      cases here with
      | some file => simp [bind, Except.bind]
      | none =>
          cases isPath : isPathLookup lookup with
          | true => simp [bind, Except.bind]
          | false =>
              obtain ⟨found, searched⟩ := exists_searchModule quiet isPath tried
              simp [bind, Except.bind, searched]

/-- The words for a lookup that is not found tell the lookup. -/
theorem message_notFound (lookup : Text) :
    ∃ before after, (ConfigFault.notFound lookup).message = before ++ lookup ++ after :=
  ⟨_, _, Text.append_assoc _ _ _⟩

/-- A lookup fails otherwise than as not found exactly when the search for its path breaks off.  If
it does not, the lookup leads to a file that exists, or is reported as not found in words that tell
the lookup. -/
theorem locate_reports (quiet : w.ImportsQuietly lookup base) :
    ((w.locate lookup base).outcome = .error .unusable ↔ w.BreaksOff (lookupPath lookup base))
      ∧ (¬ w.BreaksOff (lookupPath lookup base) →
          (∃ file, (w.locate lookup base).outcome = .ok file
            ∧ w.tree.isFileAt file.place = true)
          ∨ (w.locate lookup base).outcome = .error (.configuration (.notFound lookup))
            ∧ ∃ before after,
              (ConfigFault.notFound lookup).message = before ++ lookup ++ after) := by
  rw [outcome_locate]
  cases looked : w.lookupFile lookup base with
  | error failure =>
      rcases (lookupFile_eq_error_iff quiet).1 looked with ⟨rfl, broke⟩
      constructor
      · exact ⟨fun _ => broke, fun _ => rfl⟩
      · intro whole
        exact absurd broke whole
  | ok found =>
      have whole : ¬ w.BreaksOff (lookupPath lookup base) := by
        intro broke
        have fails := (lookupFile_eq_error_iff quiet).2 ⟨rfl, broke⟩
        rw [looked] at fails
        cases fails
      constructor
      · constructor
        · intro impossible
          cases found <;> cases impossible
        · intro broke
          exact absurd broke whole
      · intro _
        cases found with
        | some file => exact .inl ⟨file, rfl, (reaches_of_lookupFile looked).isFileAt⟩
        | none => exact .inr ⟨rfl, message_notFound lookup⟩

end Lookups

/-!
A package with a module in it, on the search path.  A path that comes to nothing from the empty
directory has no name, and a name of so many letters is too long.
-/

/-- The package and the module. -/
def parcelFiles : World where
  tree := ⟨[
    (["lib", "parcel", "__init__.py"], .module (.exporting none .absent)),
    (["lib", "parcel", "lid.py"], .module (.exporting none .absent))]⟩
  workingDirectory := []
  searchPath := [⟨.root, ["lib"]⟩]

theorem importsQuietly_parcel : parcelFiles.ImportsQuietly "parcel.lid" Path.here := by
  let package : parcelFiles.tree.File := ⟨["lib", "parcel", "__init__.py"], by decide⟩
  have found : parcelFiles.findAmong? "parcel" [⟨.root, ["lib"]⟩]
      = some (.package package ⟨.root, ["lib", "parcel"]⟩) := by cbv
  have imported : parcelFiles.importParent package = .ok true := by cbv
  have directories : parcelFiles.searchPath.filter parcelFiles.isDirectory
      = [⟨.root, ["lib"]⟩] := by decide +kernel
  intro parent imports
  have met : parcelFiles.ImportsParent ["parcel", "lid"] [⟨.root, ["lib"]⟩] parent := by
    rw [← directories]
    exact imports.met
  cases met with
  | module other =>
      rw [found] at other
      cases other
  | package other =>
      rw [found] at other
      cases other
      exact ⟨true, imported⟩
  | insidePackage _ _ imports => cases imports
  | insideDirectories _ imports => cases imports

/-- A lookup of a name that is too long. -/
def longLookup : Text := "./" ++ ⟨List.replicate 256 (.char 'a')⟩

theorem locate_reports_parcel :
    parcelFiles.ImportsQuietly "parcel.lid" Path.here
      ∧ (∃ file, (parcelFiles.locate "parcel.lid" Path.here).outcome = .ok file
          ∧ parcelFiles.tree.isFileAt file.place = true)
      ∧ (parcelFiles.locate "./" Path.here).outcome = .error .unusable
      ∧ (parcelFiles.locate longLookup Path.here).outcome = .error .unusable := by
  have found := (locate_reports importsQuietly_parcel).2
  have whole : ¬ parcelFiles.BreaksOff (lookupPath "parcel.lid" Path.here) := by
    intro broke
    have passed : parcelFiles.matchFile (lookupPath "parcel.lid" Path.here) = .ok none := by cbv
    rw [matchFile_eq_error_iff.2 ⟨rfl, broke⟩] at passed
    cases passed
  have nameless : parcelFiles.BreaksOff (lookupPath "./" Path.here) :=
    (matchFile_eq_error_iff.1 (by cbv)).2
  have reached : parcelFiles.reach (lookupPath longLookup Path.here) = .error .tooLong := by
    decide +kernel
  have isPath : isPathLookup "./" = true := rfl
  have isPathLong : isPathLookup longLookup = true := rfl
  refine ⟨importsQuietly_parcel, ?_,
    (locate_reports (importsQuietly_of_path isPath Path.here)).1.2 nameless,
    (locate_reports (importsQuietly_of_path isPathLong Path.here)).1.2
      (.tooLong (hasFirst_cons.2 (.inl reached)))⟩
  rcases found whole with there | ⟨missing, _⟩
  · exact there
  · have located : (parcelFiles.locate "parcel.lid" Path.here).outcome.toBool = true := by
      decide +kernel
    rw [missing] at located
    cases located

end StyleAudit
