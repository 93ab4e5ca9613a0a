/-
Module: StyleAudit.Proofs.Text.Pieces
Purpose: Splitting at a separator and joining again, and what the pieces are when a text is
  lengthened at either end.
Trusted boundary: none
Main exports: Text.pieces_eq_splitOn, Text.points_intercalate, Text.not_mem_of_mem_pieces,
  Text.pieces_cons, Text.pieces_append_separator, Text.exists_pieces_append,
  Text.splitOn_eq_iff
-/
import StyleAudit.Text.Basic
import Mathlib.Data.List.Basic

namespace StyleAudit

namespace Text

/-!
### Splitting and joining texts
-/

theorem pieces_eq_splitOn {α : Type} [DecidableEq α] (separator : α) (items : List α) :
    pieces separator items = items.splitOn separator := by
  induction items with
  | nil => rfl
  | cons a rest ih =>
      rw [List.splitOn_cons_eq_if_modifyHead, ← ih, pieces]
      cases split : pieces separator rest with
      | nil => exact absurd split (pieces_ne_nil separator rest)
      | cons piece others =>
          by_cases same : a = separator <;> simp [same]

theorem points_intercalate (separator : Text) (texts : List Text) :
    (intercalate separator texts).points
      = separator.points.intercalate (texts.map points) := by
  have spread : ∀ items : List Text, (items.intersperse separator).flatMap points
      = separator.points.intercalate (items.map points) := by
    intro items
    induction items with
    | nil => rfl
    | cons first rest ih =>
        cases rest with
        | nil => simp [List.intercalate]
        | cons second others => simpa [List.intercalate] using ih
  exact spread texts

theorem not_mem_of_mem_pieces {α : Type} [DecidableEq α] {separator : α} {items : List α} :
    ∀ piece ∈ pieces separator items, separator ∉ piece := by
  induction items with
  | nil => simp [pieces]
  | cons a rest ih =>
      rw [pieces]
      cases split : pieces separator rest with
      | nil => exact absurd split (pieces_ne_nil separator rest)
      | cons piece others =>
          rw [split, List.forall_mem_cons] at ih
          by_cases same : a = separator
          · simpa [same] using ih
          · have bare : separator ∉ a :: piece := by
              rw [List.mem_cons, not_or]
              exact ⟨fun again => same again.symm, ih.1⟩
            simp only [same, if_false]
            exact List.forall_mem_cons.2 ⟨bare, ih.2⟩

/-!
### Longer texts
-/

variable {α : Type} [DecidableEq α] {separator : α}

/-- An item in front is a separator, which makes a piece of its own, or lengthens the first
piece. -/
theorem pieces_cons (a : α) (items : List α) :
    pieces separator (a :: items) =
      if a = separator then [] :: pieces separator items
      else (pieces separator items).modifyHead (a :: ·) := by
  simp only [pieces_eq_splitOn, List.splitOn_cons_eq_if_modifyHead, beq_iff_eq]

theorem pieces_append_separator {first : List α} (bare : separator ∉ first) (rest : List α) :
    pieces separator (first ++ separator :: rest) = first :: pieces separator rest := by
  induction first with
  | nil => rw [List.nil_append, pieces_cons, if_pos rfl]
  | cons a others ih =>
      rw [List.mem_cons, not_or] at bare
      rw [List.cons_append, pieces_cons, if_neg (Ne.symm bare.1), ih bare.2]
      rfl

/-- What holds no separator lengthens the first piece when it stands in front. -/
theorem pieces_append_of_not_mem {first : List α} (bare : separator ∉ first) (items : List α) :
    pieces separator (first ++ items) = (pieces separator items).modifyHead (first ++ ·) := by
  induction first with
  | nil => exact (congrFun List.modifyHead_id _).symm
  | cons a others ih =>
      rw [List.mem_cons, not_or] at bare
      rw [List.cons_append, pieces_cons, if_neg (Ne.symm bare.1), ih bare.2]
      simp [Function.comp_def]

/-- What holds no separator lengthens the last piece when it stands behind. -/
theorem exists_pieces_append {last : List α} (bare : separator ∉ last) (items : List α) :
    ∃ before piece, pieces separator items = before ++ [piece]
      ∧ pieces separator (items ++ last) = before ++ [piece ++ last] := by
  induction items with
  | nil =>
      have single := pieces_append_of_not_mem bare []
      rw [List.append_nil] at single
      exact ⟨[], [], rfl, by simpa [pieces] using single⟩
  | cons a rest ih =>
      obtain ⟨before, piece, split, splitLonger⟩ := ih
      rw [List.cons_append, pieces_cons, pieces_cons, split, splitLonger]
      by_cases same : a = separator
      · exact ⟨[] :: before, piece, by simp [same], by simp [same]⟩
      · cases before with
        | nil => exact ⟨[], a :: piece, by simp [same], by simp [same]⟩
        | cons first others =>
            exact ⟨(a :: first) :: others, piece, by simp [same], by simp [same]⟩

/-- The texts between the occurrences of a character are the texts without it that give the
whole when it is put between each two. -/
theorem splitOn_eq_iff {separator : Char} {t : Text} {items : List Text} :
    t.splitOn separator = items ↔
      items ≠ [] ∧ (∀ item ∈ items, .char separator ∉ item.points)
        ∧ t = intercalate ⟨[.char separator]⟩ items := by
  constructor
  · intro split
    subst split
    refine ⟨?_, ?_, ?_⟩
    · intro empty
      exact pieces_ne_nil _ _ (List.map_eq_nil_iff.1 empty)
    · intro item member
      obtain ⟨piece, listed, rfl⟩ := List.mem_map.1 member
      exact not_mem_of_mem_pieces piece listed
    · apply ext
      rw [points_intercalate, splitOn, List.map_map, pieces_eq_splitOn]
      simp [Function.comp_def]
  · rintro ⟨filled, bare, rfl⟩
    have bareLists : ∀ piece ∈ items.map points, .char separator ∉ piece := by
      intro piece member
      obtain ⟨item, listed, rfl⟩ := List.mem_map.1 member
      exact bare item listed
    rw [splitOn, points_intercalate, pieces_eq_splitOn,
      List.splitOn_intercalate _ bareLists (by simpa using filled), List.map_map]
    simp [Function.comp_def]

end Text

end StyleAudit
