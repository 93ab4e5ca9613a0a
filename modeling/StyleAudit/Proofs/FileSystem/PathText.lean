/-
Module: StyleAudit.Proofs.FileSystem.PathText
Purpose: A path is read back from its text, so the text of an absolute path names the same file
  from every base directory.
Trusted boundary: none
Main exports: Path.isName, Path.IsProper, isProper_ofText, ofText_display, lookupFile_display,
  lookupFile_anchored
-/
import StyleAudit.FileSystem.Lookup
import StyleAudit.Proofs.Text.Pieces

namespace StyleAudit

/-!
### Names and their texts
-/

namespace Path

/-- What stands between names. -/
def slash : CodePoint := .char '/'

/-- A text that a path can have as a name: it is not empty, no lone dot, and has no slash. -/
def isName (name : Text) : Bool :=
  !name.isEmpty && name != dot && !name.points.contains slash

/-- All names of the path are names. -/
def IsProper (p : Path) : Prop :=
  ∀ name ∈ p.parts, isName name = true

theorem isProper_ofText (text : Text) : (ofText text).IsProper := by
  intro name member
  obtain ⟨listed, kept⟩ := List.mem_filter.1 member
  obtain ⟨piece, inPieces, rfl⟩ := List.mem_map.1 listed
  have bare : slash ∉ piece := Text.not_mem_of_mem_pieces piece inPieces
  rw [isName, kept]
  simpa using bare

theorem IsProper.join {base other : Path} (properBase : base.IsProper)
    (proper : other.IsProper) : (base.join other).IsProper := by
  rw [Path.join]
  split
  · exact proper
  · exact List.forall_mem_append.2 ⟨properBase, proper⟩

/-- Names with slashes between them. -/
def spelled (names : List Text) : List CodePoint :=
  [slash].intercalate (names.map Text.points)

section Names

variable {names : List Text} (proper : ∀ name ∈ names, isName name = true)
include proper

theorem ne_slash_of_spelled {p : CodePoint} {rest : List CodePoint}
    (starts : spelled names = p :: rest) : p ≠ slash := by
  cases names with
  | nil => cases starts
  | cons first others =>
      have named := proper first (List.mem_cons_self)
      obtain ⟨points⟩ := first
      cases points with
      | nil => cases named
      | cons q qs =>
          have begins : ∃ more, spelled (⟨q :: qs⟩ :: others) = q :: more := by
            cases others with
            | nil => exact ⟨qs, by simp [spelled, List.intercalate]⟩
            | cons second more =>
                exact ⟨_, by rw [spelled, List.map_cons, List.map_cons,
                  List.intercalate_cons_cons, List.cons_append, List.cons_append]⟩
          obtain ⟨more, spelling⟩ := begins
          rw [spelling, List.cons.injEq] at starts
          obtain ⟨rfl, _⟩ := starts
          simp only [isName, Bool.and_eq_true, Bool.not_eq_true', List.contains_eq_mem,
            decide_eq_false_iff_not, List.mem_cons, not_or] at named
          exact fun same => named.2.1 same.symm

/-- Between the slashes of spelled names stand the names, and an empty text if there is no
name. -/
theorem splitOn_spelled :
    ∃ blanks, (spelled names).splitOn slash
      = List.replicate blanks [] ++ names.map Text.points := by
  cases empty : names with
  | nil => exact ⟨1, rfl⟩
  | cons first others =>
      rw [← empty]
      refine ⟨0, List.splitOn_intercalate slash ?_ (by simp [empty])⟩
      intro points member
      obtain ⟨name, listed, rfl⟩ := List.mem_map.1 member
      have named := proper name listed
      simp only [isName, Bool.and_eq_true, Bool.not_eq_true', List.contains_eq_mem,
        decide_eq_false_iff_not] at named
      exact named.2

theorem partsOf_of_splitOn {text : Text} {blanks : Nat}
    (split : text.points.splitOn slash = List.replicate blanks [] ++ names.map Text.points) :
    partsOf text = names := by
  have kept : names.filter (fun part => !part.isEmpty && part != dot) = names := by
    apply List.filter_eq_self.2
    intro name member
    have named := proper name member
    rw [isName, Bool.and_eq_true] at named
    exact named.1
  have same : (names.map Text.points).map Text.mk = names := by
    rw [List.map_map]
    exact List.map_id names
  have dropped : ∀ n, ((List.replicate n []).map Text.mk).filter
      (fun part => !part.isEmpty && part != dot) = [] := by
    intro n
    rw [List.filter_eq_nil_iff]
    intro part member
    rw [List.map_replicate, List.mem_replicate] at member
    simp [member.2, Text.isEmpty]
  rw [partsOf, Text.splitOn, Text.pieces_eq_splitOn]
  show ((text.points.splitOn slash).map Text.mk).filter _ = names
  rw [split, List.map_append, same, List.filter_append, dropped, kept, List.nil_append]

end Names

/-!
### Reading a path back
-/

/-- How many slashes a start is written with. -/
def slashesOf : Anchor → Nat
  | .relative => 0
  | .root => 1
  | .doubleRoot => 2

theorem points_display {p : Path} (shown : p ≠ here) :
    p.display.points = List.replicate (slashesOf p.anchor) slash ++ spelled p.parts := by
  obtain ⟨anchor, parts⟩ := p
  have notHere : ¬ (decide (anchor = .relative) && parts.isEmpty) = true := by
    rw [Bool.and_eq_true, decide_eq_true_eq, List.isEmpty_iff]
    rintro ⟨rfl, rfl⟩
    exact shown rfl
  have start : (Text.ofString (anchorText anchor)).points
      = List.replicate (slashesOf anchor) slash := by
    cases anchor <;> rfl
  rw [display, if_neg notHere, Text.points_append, Text.points_intercalate, start]
  rfl

theorem splitOn_slashes (count : Nat) (points : List CodePoint) :
    (List.replicate count slash ++ points).splitOn slash
      = List.replicate count [] ++ points.splitOn slash := by
  induction count with
  | zero => rfl
  | succ count ih =>
      rw [List.replicate_succ, List.cons_append, List.splitOn_cons_eq_if_modifyHead,
        if_pos (beq_self_eq_true slash), ih]
      rfl

theorem anchorOf_slashes {anchor : Anchor} {points : List CodePoint}
    (bare : ∀ p rest, points = p :: rest → p ≠ slash) :
    anchorOf (List.replicate (slashesOf anchor) slash ++ points) = anchor := by
  cases points with
  | nil => cases anchor <;> rfl
  | cons p rest =>
      have other : p ≠ .char '/' := bare p rest rfl
      cases anchor with
      | relative => simp [slashesOf, anchorOf, other]
      | root => simp [slashesOf, anchorOf, slash, other]
      | doubleRoot => simp [slashesOf, anchorOf, slash, other]

/-- A path is read back from its text. -/
theorem ofText_display {p : Path} (proper : p.IsProper) : ofText p.display = p := by
  by_cases shown : p = here
  · subst shown
    rfl
  · have spelling := points_display shown
    obtain ⟨blanks, split⟩ := splitOn_spelled proper
    have parts : partsOf p.display = p.parts := by
      apply partsOf_of_splitOn proper
      rw [spelling, splitOn_slashes, split, ← List.append_assoc, ← List.replicate_add]
    have anchor : anchorOf p.display.points = p.anchor := by
      rw [spelling]
      exact anchorOf_slashes fun q rest starts => ne_slash_of_spelled proper starts
    rw [ofText, parts, anchor]

end Path

/-!
### Lookups
-/

/-- The text of an absolute path is a lookup of a file. -/
theorem isPathLookup_display {p : Path} (proper : p.IsProper) (absolute : p.isAbsolute = true) :
    isPathLookup p.display = true := by
  rw [isPathLookup, Path.ofText_display proper, absolute, Bool.or_true]

/-- The text of an absolute path names the file of the path, from whatever base directory. -/
theorem lookupFile_display (w : World) {p : Path} (proper : p.IsProper)
    (absolute : p.isAbsolute = true) (base : Path) :
    w.lookupFile p.display base = w.matchFile p := by
  rw [World.lookupFile, if_pos (isPathLookup_display proper absolute), Path.ofText_display proper,
    Path.join_of_isAbsolute absolute]

theorem anchorOf_slash_cons (rest : List CodePoint) :
    Path.anchorOf (Path.slash :: rest) ≠ .relative := by
  unfold Path.anchorOf
  split
  · decide
  · split <;> decide
  · decide
  · rename_i bare
    exact absurd rfl (bare rest)

/-- The text of an absolute path denotes an absolute path, even where a name has a slash. -/
theorem isAbsolute_ofText_display {p : Path} (absolute : p.isAbsolute = true) :
    (Path.ofText p.display).isAbsolute = true := by
  have shown : p ≠ Path.here := by
    rintro rfl
    cases absolute
  obtain ⟨rest, begins⟩ : ∃ rest, p.display.points = Path.slash :: rest := by
    rw [Path.points_display shown]
    obtain ⟨anchor, parts⟩ := p
    cases anchor with
    | relative => cases absolute
    | root => exact ⟨_, rfl⟩
    | doubleRoot => exact ⟨_, rfl⟩
  rw [Path.isAbsolute, Path.ofText, begins]
  exact decide_eq_true (anchorOf_slash_cons rest)

theorem isAbsolute_join {base : Path} (absolute : base.isAbsolute = true) (other : Path) :
    (base.join other).isAbsolute = true := by
  rw [Path.join]
  split
  · assumption
  · exact absolute

/-- A lookup of a file, seen from a directory and written out, names from every base directory
what the lookup names from the directory. -/
theorem lookupFile_anchored (w : World) {directory : Path} {lookup : Text}
    (proper : directory.IsProper) (absolute : directory.isAbsolute = true)
    (isPath : isPathLookup lookup = true) (base : Path) :
    w.lookupFile (directory.join (Path.ofText lookup)).display base
      = w.lookupFile lookup directory := by
  have properJoin := proper.join (Path.isProper_ofText lookup)
  have absoluteJoin := isAbsolute_join absolute (Path.ofText lookup)
  rw [lookupFile_display w properJoin absoluteJoin, World.lookupFile, if_pos isPath]

end StyleAudit
