/-
Module: StyleAudit.Text.Blank
Purpose: White space, and cutting it off both ends of a text.
Trusted boundary: none
Main exports: inRanges, isBlank, trimLeft, trim
-/
import StyleAudit.Text.Basic

namespace StyleAudit.Text

/-- A code point lies in one of the listed closed ranges. -/
def inRanges (ranges : List (Nat × Nat)) (code : Nat) : Bool :=
  ranges.any fun range => range.1 ≤ code && code ≤ range.2

/-!
### White space

White space is every character with the Unicode property of that name together
with the four information separators U+001C to U+001F.  The zero-width space and
the byte-order mark are not white space.
-/

/-- The closed ranges of white-space code points. -/
def blankRanges : List (Nat × Nat) :=
  [(9, 13), (28, 32), (133, 133), (160, 160), (5760, 5760), (8192, 8202),
   (8232, 8233), (8239, 8239), (8287, 8287), (12288, 12288)]

/-- A white-space character. -/
def isBlank (c : Char) : Bool :=
  inRanges blankRanges c.toNat

/-- Every character that core calls white space is white space here. -/
theorem isBlank_of_isWhitespace {c : Char} (h : c.isWhitespace = true) : isBlank c = true := by
  simp only [Char.isWhitespace, Bool.or_eq_true, decide_eq_true_eq] at h
  rcases h with ((rfl | rfl) | rfl) | rfl <;> decide

/-- The text without its leading white space. -/
def trimLeft (t : Text) : Text :=
  ⟨t.points.dropWhile (·.isA isBlank)⟩

/-- The text without its trailing white space. -/
def trimRight (t : Text) : Text :=
  ⟨(t.points.reverse.dropWhile (·.isA isBlank)).reverse⟩

/-- The text without white space at either end. -/
def trim (t : Text) : Text :=
  t.trimLeft.trimRight

end StyleAudit.Text
