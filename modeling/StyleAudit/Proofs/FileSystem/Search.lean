/-
Module: StyleAudit.Proofs.FileSystem.Search
Purpose: What one step of a search for a file or a module comes to.
Trusted boundary: none
Main exports: World.IsTooLong, candidateFile_of_not_tooLong, findIn?_cases, findAmong?_of_each
-/
import StyleAudit.Proofs.Config.Gathering

namespace StyleAudit

/-!
### One candidate
-/

/-- The path is too long to be asked about, or one of the names on the way is. -/
def World.IsTooLong (w : World) (p : Path) : Prop :=
  w.reach p = .error .tooLong

section Candidate

variable {w : World} {p : Path}

theorem candidateFile_of_tooLong (long : w.IsTooLong p) :
    w.candidateFile p = .error .unusable := by
  rw [World.candidateFile, long]

theorem candidateFile_of_not_tooLong (short : ¬ w.IsTooLong p) :
    w.candidateFile p = .ok (w.fileAt? p) := by
  rw [World.candidateFile, World.fileAt?]
  cases reached : w.reach p with
  | ok place => rfl
  | error obstacle =>
      cases obstacle with
      | tooLong => exact absurd reached short
      | _ => rfl

end Candidate

/-!
### One directory, and several

Every proof about a search for modules goes through these two lemmas, so none of them opens the
search again.
-/

section Directories

variable {w : World} {name : Text} {directory : Path} {found : World.Found w.tree}

/-- In a directory a name is found as a package, as a module, or as a directory. -/
theorem findIn?_cases (looked : w.findIn? name directory = some found) :
    (∃ file, w.moduleIn? initialModule (directory.child name) = some file
        ∧ found = .package file (directory.child name))
      ∨ (∃ file, w.moduleIn? name directory = some file ∧ found = .module file)
      ∨ found = .directories [directory.child name] := by
  simp only [World.findIn?] at looked
  split at looked
  · cases looked
  · split at looked
    · rename_i file package
      split at package
      · cases package
      · cases looked
        exact .inl ⟨file, package, rfl⟩
    · split at looked
      · rename_i file module
        cases looked
        exact .inr (.inl ⟨file, module, rfl⟩)
      · split at looked
        · cases looked
          exact .inr (.inr rfl)
        · cases looked

/-- What holds of all that is found in single directories, and of directories put together, holds
of what is found among them. -/
theorem findAmong?_of_each {P : World.Found w.tree → Prop} {directories : List Path}
    (each : ∀ directory ∈ directories, ∀ found, w.findIn? name directory = some found → P found)
    (together : ∀ paths more, P (.directories paths) → P (.directories more) →
      P (.directories (paths ++ more)))
    (looked : w.findAmong? name directories = some found) : P found := by
  induction directories generalizing found with
  | nil => cases looked
  | cons directory rest ih =>
      obtain ⟨first, others⟩ := List.forall_mem_cons.1 each
      rw [World.findAmong?] at looked
      cases inFirst : w.findIn? name directory with
      | none =>
          rw [inFirst] at looked
          exact ih others looked
      | some here =>
          have holds := first here inFirst
          rw [inFirst] at looked
          cases inRest : w.findAmong? name rest with
          | none =>
              rw [inRest] at looked
              cases here <;> cases looked <;> exact holds
          | some more =>
              have holdsMore := ih others inRest
              rw [inRest] at looked
              cases here with
              | directories paths =>
                  cases more with
                  | directories others =>
                      cases looked
                      exact together _ _ holds holdsMore
                  | _ =>
                      cases looked
                      exact holdsMore
              | _ =>
                  cases looked
                  exact holds

end Directories

end StyleAudit
