/-
Module: StyleAudit.Yaml.Source
Purpose: A YAML file as far as it can be read, and why it cannot be read on.
Trusted boundary: none
Main exports: Source, Source.ofText, Source.ofBytes
-/
import StyleAudit.Format.Encoded
import StyleAudit.Yaml.Cursor

namespace StyleAudit.Yaml

open Format

/-!
### Pieces

A file is read piece by piece, a piece when the scanning has used up the ones before it.
A piece with bytes that encode nothing, or with a character that no YAML text may hold, is a
fault of the file, and counts only when the text before it has none.
-/

/-- What can be read of a file, and the fault of the piece behind that. -/
structure Source where
  text : List Char
  fault : Option Fault

/-- How many characters a piece has.  The first two are read together. -/
def pieceSize : Nat := 4096

/-- How many characters the pieces that end before a place have. -/
def wholePieces (place : Nat) : Nat :=
  if place < 2 * pieceSize then 0 else place / pieceSize * pieceSize

/-- No piece that ends before a place reaches beyond it. -/
theorem wholePieces_le (place : Nat) : wholePieces place ≤ place := by
  unfold wholePieces
  split
  · exact Nat.zero_le place
  · exact Nat.div_mul_le_self place pieceSize

namespace Source

/-- The source of characters, behind which a fault may stand. -/
def ofText (text : List Char) (fault : Option Fault) : Source :=
  let whole := if fault.isSome then text.take (wholePieces text.length) else text
  match whole.findIdx? (!isAllowed ·) with
  | some place => ⟨whole.take (wholePieces place), some .malformed⟩
  | none => ⟨whole, fault⟩

/-- The source of a file. -/
def ofBytes (bytes : ByteArray) : Source :=
  match decode bytes with
  | .ok text => ofText (normalizeLineEnds text) none
  | .error fault =>
      let leading := normalizeLineEnds (leadingText bytes)
      ofText (leading.take (readableLength bytes pieceSize)) (some fault)

end Source

end StyleAudit.Yaml
