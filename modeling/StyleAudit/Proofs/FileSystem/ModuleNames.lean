/-
Module: StyleAudit.Proofs.FileSystem.ModuleNames
Purpose: Which module names are looked for below the base directory, and what is looked for in
  place of the others.
Trusted boundary: none
Main exports: Path.IsBelow, StartsOver, NamesSomething, modulePath_of_not_startsOver,
  isBelow_of_mem_candidatesOf, matchFile_moduleName
-/
import StyleAudit.Proofs.FileSystem.Matching
import StyleAudit.Proofs.FileSystem.PathText

namespace StyleAudit

/-!
### Pieces
-/

namespace Text

section Pieces

variable {α : Type} [DecidableEq α] {separator a : α} {items : List α}

/-- The pieces one behind another are what is left without the separators. -/
theorem flatten_pieces :
    (pieces separator items).flatten = items.filter fun other => other ≠ separator := by
  induction items with
  | nil => rfl
  | cons b rest ih =>
      rw [pieces]
      cases split : pieces separator rest with
      | nil => exact absurd split (pieces_ne_nil separator rest)
      | cons piece others =>
          rw [split, List.flatten_cons] at ih
          by_cases same : b = separator
          · simpa [same] using ih
          · simpa [same] using ih

/-- The first piece starts like the items, unless these start with a separator. -/
theorem head?_of_pieces {piece : List α} {others : List (List α)} (other : a ≠ separator)
    (split : pieces separator items = piece :: others) :
    piece.head? = some a ↔ items.head? = some a := by
  cases items with
  | nil =>
      cases split
      rfl
  | cons b rest =>
      rw [pieces] at split
      cases splitRest : pieces separator rest with
      | nil => exact absurd splitRest (pieces_ne_nil separator rest)
      | cons first more =>
          rw [splitRest] at split
          by_cases same : b = separator
          · simp only [same, if_true, List.cons.injEq] at split
            simp [← split.1, same, other.symm]
          · simp only [same, if_false, List.cons.injEq] at split
            simp [← split.1]

/-- A later piece starts with what stands right behind a separator. -/
theorem exists_mem_tail_pieces_iff (other : a ≠ separator) :
    (∃ piece ∈ (pieces separator items).tail, piece.head? = some a)
      ↔ [separator, a] <:+: items := by
  induction items with
  | nil => simp [pieces]
  | cons b rest ih =>
      have starts : [a] <+: rest ↔ rest.head? = some a := by
        cases rest <;> simp [List.cons_prefix_cons, eq_comm]
      rw [pieces, List.infix_cons_iff, ← ih, List.cons_prefix_cons, starts]
      cases split : pieces separator rest with
      | nil => exact absurd split (pieces_ne_nil separator rest)
      | cons piece others =>
          rw [← head?_of_pieces other split]
          by_cases same : b = separator
          · simp [same]
          · simp [same, Ne.symm same]

end Pieces

end Text

/-!
### Paths joined one behind another
-/

namespace Path

/-- The path is a directory with further names behind it, none of them double dots. -/
def IsBelow (p directory : Path) : Prop :=
  ∃ names, names ≠ [] ∧ doubleDot ∉ names
    ∧ p = ⟨directory.anchor, directory.parts ++ names⟩

section Joining

variable {start : Path} {paths : List Path} {text : Text}

/-- Paths that are all relative are put behind the first. -/
theorem foldl_join_of_relative (relative : ∀ p ∈ paths, p.isAbsolute = false) :
    paths.foldl join start = ⟨start.anchor, start.parts ++ paths.flatMap parts⟩ := by
  induction paths generalizing start with
  | nil => rw [List.foldl_nil, List.flatMap_nil, List.append_nil]
  | cons p rest ih =>
      obtain ⟨relativeFirst, relativeRest⟩ := List.forall_mem_cons.1 relative
      have behind : start.join p = ⟨start.anchor, start.parts ++ p.parts⟩ := by
        rw [join, relativeFirst, if_neg Bool.false_ne_true]
      rw [List.foldl_cons, behind, ih relativeRest, List.flatMap_cons, List.append_assoc]

/-- One absolute path among them makes the whole absolute. -/
theorem isAbsolute_foldl_join
    (absolute : start.isAbsolute = true ∨ ∃ p ∈ paths, p.isAbsolute = true) :
    (paths.foldl join start).isAbsolute = true := by
  induction paths generalizing start with
  | nil => simpa using absolute
  | cons p rest ih =>
      rw [List.exists_mem_cons_iff] at absolute
      apply ih
      rcases absolute with here | here | there
      · exact .inl (isAbsolute_join here p)
      · exact .inl (by rw [join_of_isAbsolute here, here])
      · exact .inr there

/-- A text denotes an absolute path exactly when it starts with a slash. -/
theorem isAbsolute_ofText_iff :
    (ofText text).isAbsolute = true ↔ text.points.head? = some slash := by
  rw [isAbsolute, ofText]
  cases begins : text.points with
  | nil => simp [anchorOf]
  | cons p rest =>
      by_cases same : p = slash
      · simp [same, anchorOf_slash_cons rest]
      · have other : p ≠ .char '/' := fun again => same again
        simp [anchorOf, other, same]

theorem mem_partsOf {name : Text} :
    name ∈ partsOf text ↔ name.points ∈ Text.pieces slash text.points
      ∧ name.points ≠ [] ∧ name ≠ dot := by
  have between : name ∈ text.splitOn '/' ↔ name.points ∈ Text.pieces slash text.points := by
    constructor
    · intro listed
      obtain ⟨piece, inPieces, rfl⟩ := List.mem_map.1 listed
      exact inPieces
    · intro inPieces
      exact List.mem_map.2 ⟨_, inPieces, rfl⟩
  rw [partsOf, List.mem_filter, between]
  simp [Text.isEmpty]

/-- What a name between slashes is made of stands in the text. -/
theorem mem_of_mem_pieces {piece : List CodePoint} {p : CodePoint}
    (between : piece ∈ Text.pieces slash text.points) (member : p ∈ piece) : p ∈ text.points := by
  have inside := List.mem_flatten_of_mem between member
  rw [Text.flatten_pieces] at inside
  exact List.mem_of_mem_filter inside

/-- A text without dots denotes no double dots. -/
theorem doubleDot_not_mem_partsOf (plain : .char '.' ∉ text.points) :
    doubleDot ∉ partsOf text := by
  intro listed
  exact plain (mem_of_mem_pieces (mem_partsOf.1 listed).1 (List.mem_cons_self))

/-- A text without dots that starts with anything but a slash denotes some name. -/
theorem partsOf_ne_nil {p : CodePoint} (starts : text.points.head? = some p) (other : p ≠ slash)
    (plain : .char '.' ∉ text.points) : partsOf text ≠ [] := by
  cases split : Text.pieces slash text.points with
  | nil => exact absurd split (Text.pieces_ne_nil slash text.points)
  | cons piece others =>
      have between : piece ∈ Text.pieces slash text.points := split ▸ List.mem_cons_self
      have startsPiece := (Text.head?_of_pieces other split).2 starts
      have listed : (⟨piece⟩ : Text) ∈ partsOf text := by
        refine mem_partsOf.2 ⟨between, ?_, ?_⟩
        · rintro rfl
          cases startsPiece
        · intro lone
          refine plain (mem_of_mem_pieces between ?_)
          rw [show piece = dot.points from congrArg Text.points lone]
          exact List.mem_cons_self
      exact List.ne_nil_of_mem listed

end Joining

end Path

/-!
### Module names

A module name is split at its dots, and each piece is joined to the path as a path of its own.  So a
piece that starts with a slash is a path from the root on, and the base directory is lost.  A name
of nothing but dots has no piece that names anything, and denotes the base directory itself.
-/

/-- A slash stands right behind a dot. -/
def StartsOver (lookup : Text) : Prop :=
  [.char '.', Path.slash] <:+: lookup.points

/-- The lookup holds something other than dots. -/
def NamesSomething (lookup : Text) : Prop :=
  ∃ p ∈ lookup.points, p ≠ .char '.'

instance (lookup : Text) : Decidable (StartsOver lookup) :=
  inferInstanceAs (Decidable ([.char '.', Path.slash] <:+: lookup.points))

instance (lookup : Text) : Decidable (NamesSomething lookup) :=
  inferInstanceAs (Decidable (∃ p ∈ lookup.points, p ≠ .char '.'))

section ModulePath

variable {lookup : Text}

theorem modulePath_eq_foldl (lookup : Text) :
    modulePath lookup = ((lookup.splitOn '.').map Path.ofText).foldl Path.join Path.here := by
  rw [modulePath, List.foldl_map]

/-- A lookup with a slash right behind a dot denotes a path that no base directory matters to. -/
theorem isAbsolute_modulePath (startsOver : StartsOver lookup) :
    (modulePath lookup).isAbsolute = true := by
  obtain ⟨piece, later, starts⟩ :=
    (Text.exists_mem_tail_pieces_iff (by decide)).2 startsOver
  rw [modulePath_eq_foldl]
  apply Path.isAbsolute_foldl_join
  refine .inr ⟨Path.ofText ⟨piece⟩, ?_, Path.isAbsolute_ofText_iff.2 starts⟩
  exact List.mem_map_of_mem (List.mem_map_of_mem (List.mem_of_mem_tail later))

/-- The pieces of a module name start with no slash, unless the name starts over. -/
theorem head?_ne_slash (isModule : isPathLookup lookup = false) (goesOn : ¬ StartsOver lookup)
    {piece : List CodePoint} (listed : piece ∈ Text.pieces (.char '.') lookup.points) :
    piece.head? ≠ some Path.slash := by
  intro starts
  cases split : Text.pieces (.char '.') lookup.points with
  | nil => exact absurd split (Text.pieces_ne_nil _ _)
  | cons first others =>
      rw [split] at listed
      rcases List.mem_cons.1 listed with rfl | later
      · have absolute := Path.isAbsolute_ofText_iff.2
          ((Text.head?_of_pieces (by decide) split).1 starts)
        rw [isPathLookup, absolute, Bool.or_true] at isModule
        cases isModule
      · refine goesOn ((Text.exists_mem_tail_pieces_iff (by decide)).1 ⟨piece, ?_, starts⟩)
        rw [split]
        exact later

/-- Otherwise the pieces are put one behind another. -/
theorem modulePath_of_not_startsOver (isModule : isPathLookup lookup = false)
    (goesOn : ¬ StartsOver lookup) :
    modulePath lookup = ⟨.relative, (lookup.splitOn '.').flatMap Path.partsOf⟩ := by
  rw [modulePath_eq_foldl, Path.foldl_join_of_relative, List.flatMap_map]
  · rfl
  · intro p listed
    obtain ⟨_, inPieces, rfl⟩ := List.mem_map.1 listed
    obtain ⟨piece, between, rfl⟩ := List.mem_map.1 inPieces
    rw [← Bool.not_eq_true, Path.isAbsolute_ofText_iff]
    exact head?_ne_slash isModule goesOn between

/-- No piece denotes double dots. -/
theorem doubleDot_not_mem_flatMap (lookup : Text) :
    Path.doubleDot ∉ (lookup.splitOn '.').flatMap Path.partsOf := by
  intro listed
  obtain ⟨_, inPieces, inParts⟩ := List.mem_flatMap.1 listed
  obtain ⟨piece, between, rfl⟩ := List.mem_map.1 inPieces
  exact Path.doubleDot_not_mem_partsOf (Text.not_mem_of_mem_pieces piece between) inParts

/-- The pieces hold what the lookup holds, its dots excepted. -/
theorem namesSomething_iff :
    NamesSomething lookup ↔ ∃ piece ∈ Text.pieces (.char '.') lookup.points, piece ≠ [] := by
  have left : NamesSomething lookup ↔
      (Text.pieces (.char '.') lookup.points).flatten ≠ [] := by
    rw [Text.flatten_pieces, Ne, List.filter_eq_nil_iff]
    simp [NamesSomething]
  rw [left, Ne, List.flatten_eq_nil_iff]
  simp

/-- Some piece denotes a name exactly when the lookup holds something other than dots. -/
theorem flatMap_partsOf_ne_nil_iff (isModule : isPathLookup lookup = false)
    (goesOn : ¬ StartsOver lookup) :
    (lookup.splitOn '.').flatMap Path.partsOf ≠ [] ↔ NamesSomething lookup := by
  rw [namesSomething_iff]
  constructor
  · intro named
    obtain ⟨name, listed⟩ := List.exists_mem_of_ne_nil _ named
    obtain ⟨_, inPieces, inParts⟩ := List.mem_flatMap.1 listed
    obtain ⟨piece, between, rfl⟩ := List.mem_map.1 inPieces
    obtain ⟨inNames, filled, _⟩ := Path.mem_partsOf.1 inParts
    obtain ⟨p, member⟩ := List.exists_mem_of_ne_nil _ filled
    exact ⟨piece, between, List.ne_nil_of_mem (Path.mem_of_mem_pieces inNames member)⟩
  · rintro ⟨piece, between, filled⟩
    have starts := List.head?_eq_some_head filled
    have other : piece.head filled ≠ Path.slash := by
      intro same
      exact head?_ne_slash isModule goesOn between (same ▸ starts)
    have named : Path.partsOf ⟨piece⟩ ≠ [] :=
      Path.partsOf_ne_nil starts other (Text.not_mem_of_mem_pieces piece between)
    obtain ⟨name, listed⟩ := List.exists_mem_of_ne_nil _ named
    exact List.ne_nil_of_mem
      (List.mem_flatMap.2 ⟨⟨piece⟩, List.mem_map_of_mem between, listed⟩)

end ModulePath

/-!
### Candidates below a directory
-/

section Candidates

variable {p base candidate : Path}

theorem addSuffix?_eq_some {suffix : Text} (added : p.addSuffix? suffix = some candidate) :
    ∃ front last, p.parts = front ++ [last]
      ∧ candidate = ⟨p.anchor, front ++ [last ++ suffix]⟩ := by
  obtain ⟨last, ends, rfl⟩ := Option.map_eq_some_iff.1 added
  obtain ⟨front, split⟩ := List.getLast?_eq_some_iff.1 ends
  refine ⟨front, last, split, ?_⟩
  rw [split, List.dropLast_concat]

/-- A name with a suffix of configuration files is longer than double dots. -/
theorem doubleDot_ne_append {suffix : Text} (known : suffix ∈ configSuffixes) (last : Text) :
    Path.doubleDot ≠ last ++ suffix := by
  intro same
  have long : ∀ other ∈ configSuffixes, 2 < other.length := by decide
  have lengths := congrArg Text.length same
  rw [Text.length_append, show Path.doubleDot.length = 2 from rfl] at lengths
  have := long suffix known
  omega

/-- Behind names below a directory, one more name is below it too. -/
theorem isBelow_concat (base : Path) {names : List Text} {name : Text}
    (plain : Path.doubleDot ∉ names) (other : Path.doubleDot ≠ name) :
    Path.IsBelow ⟨base.anchor, base.parts ++ names ++ [name]⟩ base := by
  refine ⟨names ++ [name], List.concat_ne_nil name names, ?_, ?_⟩
  · rw [List.mem_append, List.mem_singleton, not_or]
    exact ⟨plain, other⟩
  · rw [List.append_assoc]

/-- Everything that is tried for a path below a directory is below the directory. -/
theorem isBelow_of_mem_candidatesOf (below : p.IsBelow base)
    (listed : candidate ∈ candidatesOf p) : candidate.IsBelow base := by
  rcases mem_candidatesOf.1 listed with rfl | ⟨suffix, known, added⟩ | rfl
  · exact below
  · obtain ⟨names, filled, plain, rfl⟩ := below
    obtain ⟨before, last, rfl⟩ := (List.eq_nil_or_concat' names).resolve_left filled
    obtain ⟨front, _, split, rfl⟩ := addSuffix?_eq_some added
    obtain ⟨rfl, rfl⟩ : base.parts ++ before = front ∧ last = _ := by
      simpa [← List.append_assoc] using split
    rw [List.mem_append, not_or] at plain
    exact isBelow_concat base plain.1 (doubleDot_ne_append known last)
  · obtain ⟨names, _, plain, rfl⟩ := below
    have other : Path.doubleDot ≠ initialModule ++ sourceSuffix := by decide
    exact isBelow_concat base plain other

/-- Of what is tried for a directory itself, only the initial module is below the directory. -/
theorem isBelow_iff_of_mem_candidatesOf (listed : candidate ∈ candidatesOf base) :
    candidate.IsBelow base ↔ candidate = base.child (initialModule ++ sourceSuffix) := by
  have notLonger : candidate.parts.length = base.parts.length → ¬ candidate.IsBelow base := by
    rintro same ⟨names, filled, _, rfl⟩
    rw [List.length_append, Nat.add_eq_left, List.length_eq_zero_iff] at same
    exact filled same
  constructor
  · intro below
    rcases mem_candidatesOf.1 listed with rfl | ⟨suffix, _, added⟩ | package
    · exact absurd below (notLonger rfl)
    · obtain ⟨front, last, split, rfl⟩ := addSuffix?_eq_some added
      exact absurd below (notLonger (by simp [split]))
    · exact package
  · rintro rfl
    exact ⟨[initialModule ++ sourceSuffix], List.cons_ne_nil _ _, by decide, rfl⟩

end Candidates

section ModuleNames

variable {w : World} {lookup : Text} {base : Path} {file : w.tree.File}

/-- A lookup of nothing but dots does not start over. -/
theorem not_startsOver (onlyDots : ¬ NamesSomething lookup) : ¬ StartsOver lookup := by
  rintro ⟨before, after, split⟩
  refine onlyDots ⟨Path.slash, ?_, by decide⟩
  rw [← split]
  simp

theorem join_modulePath_of_not_startsOver (isModule : isPathLookup lookup = false)
    (goesOn : ¬ StartsOver lookup) (base : Path) :
    base.join (modulePath lookup)
      = ⟨base.anchor, base.parts ++ (lookup.splitOn '.').flatMap Path.partsOf⟩ := by
  rw [modulePath_of_not_startsOver isModule goesOn]
  rfl

/-- A name of nothing but dots denotes the directory itself. -/
theorem join_modulePath_of_not_namesSomething (isModule : isPathLookup lookup = false)
    (onlyDots : ¬ NamesSomething lookup) (base : Path) :
    base.join (modulePath lookup) = base := by
  have goesOn := not_startsOver onlyDots
  have nothing : (lookup.splitOn '.').flatMap Path.partsOf = [] := by
    by_contra named
    exact onlyDots ((flatMap_partsOf_ne_nil_iff isModule goesOn).1 named)
  rw [join_modulePath_of_not_startsOver isModule goesOn, nothing, List.append_nil]

/-- Any other name that does not start over denotes a path below the directory. -/
theorem isBelow_join_modulePath (isModule : isPathLookup lookup = false)
    (goesOn : ¬ StartsOver lookup) (named : NamesSomething lookup) (base : Path) :
    (base.join (modulePath lookup)).IsBelow base :=
  ⟨_, (flatMap_partsOf_ne_nil_iff isModule goesOn).2 named, doubleDot_not_mem_flatMap lookup,
    join_modulePath_of_not_startsOver isModule goesOn base⟩

/-- Where a file is found for a module name in a base directory, the path that was matched is below
the directory, if the name holds something other than dots and no slash right behind a dot.  A name
of nothing but dots matches what is tried for the directory itself, of which only the initial module
is below the directory.  A name with a slash right behind a dot matches what is tried for an
absolute path, whatever the directory is. -/
theorem matchFile_moduleName (isModule : isPathLookup lookup = false)
    (found : w.matchFile (base.join (modulePath lookup)) = .ok (some file)) :
    ∃ matched, w.Matches (base.join (modulePath lookup)) matched
      ∧ (∀ other, w.Matches (base.join (modulePath lookup)) other → other = matched)
      ∧ w.fileAt? matched = some file
      ∧ (¬ StartsOver lookup → NamesSomething lookup → matched.IsBelow base)
      ∧ (¬ NamesSomething lookup → matched ∈ candidatesOf base
          ∧ (matched.IsBelow base ↔ matched = base.child (initialModule ++ sourceSuffix)))
      ∧ (StartsOver lookup → (modulePath lookup).isAbsolute = true
          ∧ matched ∈ candidatesOf (modulePath lookup)) := by
  obtain ⟨matched, ends, held⟩ := matchFile_eq_some_iff.1 found
  have listed := ends.mem_candidatesOf
  refine ⟨matched, ends, fun other again => again.unique ends, held, ?_, ?_, ?_⟩
  · intro goesOn named
    exact isBelow_of_mem_candidatesOf (isBelow_join_modulePath isModule goesOn named base) listed
  · intro onlyDots
    rw [join_modulePath_of_not_namesSomething isModule onlyDots] at listed
    exact ⟨listed, isBelow_iff_of_mem_candidatesOf listed⟩
  · intro startsOver
    have absolute := isAbsolute_modulePath startsOver
    rw [Path.join_of_isAbsolute absolute] at listed
    exact ⟨absolute, listed⟩

end ModuleNames

/-!
A directory with a module in it.  One more file has the name of the directory with a suffix, and
one stands elsewhere.
-/

/-- The module in the directory, and the two files that are not in it. -/
def yardFiles : World where
  tree := ⟨[
    (["yard", "gate", "post.json"], .file ⟨#[]⟩),
    (["yard.json"], .file ⟨#[]⟩),
    (["field", "post.json"], .file ⟨#[]⟩)]⟩
  workingDirectory := []
  searchPath := []

/-- The directory. -/
def yard : Path := ⟨.root, ["yard"]⟩

theorem matchFile_moduleName_yard :
    (∃ matched, yardFiles.Matches (yard.join (modulePath "gate.post")) matched
        ∧ matched.IsBelow yard)
      ∧ (∃ matched, yardFiles.Matches (yard.join (modulePath ".")) matched
        ∧ matched ∈ candidatesOf yard ∧ ¬ matched.IsBelow yard)
      ∧ (∃ matched, yardFiles.Matches (yard.join (modulePath "gate./field/post")) matched
        ∧ matched ∈ candidatesOf ⟨.root, ["field", "post"]⟩ ∧ ¬ matched.IsBelow yard) := by
  have inside : yardFiles.matchFile (yard.join (modulePath "gate.post"))
      = .ok (some ⟨["yard", "gate", "post.json"], by decide⟩) := by cbv
  have beside : yardFiles.matchFile (yard.join (modulePath "."))
      = .ok (some ⟨["yard.json"], by decide⟩) := by rfl
  have elsewhere : yardFiles.matchFile (yard.join (modulePath "gate./field/post"))
      = .ok (some ⟨["field", "post.json"], by decide⟩) := by cbv
  refine ⟨?_, ?_, ?_⟩
  · obtain ⟨matched, ends, _, _, below, _⟩ := matchFile_moduleName (by decide) inside
    exact ⟨matched, ends, below (by decide) (by decide)⟩
  · obtain ⟨matched, ends, _, held, _, tried, _⟩ := matchFile_moduleName (by decide) beside
    obtain ⟨listed, below⟩ := tried (by decide)
    refine ⟨matched, ends, listed, ?_⟩
    rw [below]
    rintro rfl
    have empty : yardFiles.fileAt? (yard.child (initialModule ++ sourceSuffix)) = none := by rfl
    rw [empty] at held
    cases held
  · obtain ⟨matched, ends, _, _, _, _, away⟩ := matchFile_moduleName (by decide) elsewhere
    have listed := (away (by decide)).2
    refine ⟨matched, ends, listed, ?_⟩
    rintro ⟨names, _, _, rfl⟩
    have apart : ∀ candidate ∈ candidatesOf (modulePath "gate./field/post"),
        candidate.parts.head? ≠ some "yard" := by decide
    exact apart _ listed rfl

end StyleAudit
