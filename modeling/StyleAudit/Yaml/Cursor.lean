/-
Module: StyleAudit.Yaml.Cursor
Purpose: A place in a YAML text: what follows, and the line and column it stands at.
Trusted boundary: none
Main exports: Cursor, Cursor.peek, Cursor.refusal, Cursor.advance, Cursor.takeBreak?,
  Cursor.takeWhile
-/
import StyleAudit.Format.Fault

namespace StyleAudit.Yaml

open Format

/-!
### Characters

The text ends with a mark that no text holds, since controls are refused before
the text is scanned.  A line ends at a line feed, at the next-line character and
at the two separators of Unicode.
-/

/-- What is seen behind the last character. -/
def endMark : Char := '\x00'

/-- A character that ends a line. -/
def isBreak (c : Char) : Bool :=
  c == '\n' || c == '\x85' || c == '\u2028' || c == '\u2029'

/-- The end of the text or of a line. -/
def isEnd (c : Char) : Bool :=
  c == endMark || isBreak c

/-- The end of the text or of a line, or a space. -/
def isEndOrSpace (c : Char) : Bool :=
  c == ' ' || isEnd c

/-- The end of the text or of a line, a space or a tab. -/
def isEndOrBlank (c : Char) : Bool :=
  c == '\t' || isEndOrSpace c

/-- A letter, a digit, a hyphen or an underscore, as names are made of. -/
def isNameCharacter (c : Char) : Bool :=
  c.isAlphanum || c == '-' || c == '_'

/-- A character that a YAML text may hold. -/
def isAllowed (c : Char) : Bool :=
  let n := c.toNat
  n == 9 || n == 10 || n == 13 || (32 ≤ n && n ≤ 126) || n == 0x85 || (0xA0 ≤ n && n ≤ 0xFFFD)
    || 0x10000 ≤ n

/-!
### Places
-/

/-- A place in a text.  Lines and columns count from zero; a byte-order mark takes
no column. -/
structure Cursor where
  rest : List Char
  index : Nat
  line : Nat
  column : Nat
deriving Inhabited

namespace Cursor

/-- The start of a text. -/
def start (text : List Char) : Cursor := ⟨text, 0, 0, 0⟩

/-- The character some places ahead. -/
def ahead (n : Nat) (c : Cursor) : Char :=
  c.rest[n]?.getD endMark

/-- The next character. -/
def peek (c : Cursor) : Char := c.ahead 0

/-- The fault of a text in which something else is needed at the place. -/
def refusal (c : Cursor) : Fault :=
  if c.rest.isEmpty then .unfinished else .malformed

/-- The place behind the next character. -/
def step (c : Cursor) : Cursor :=
  match c.rest with
  | [] => c
  | ch :: rest =>
      if isBreak ch then ⟨rest, c.index + 1, c.line + 1, 0⟩
      else if ch == '\ufeff' then ⟨rest, c.index + 1, c.line, c.column⟩
      else ⟨rest, c.index + 1, c.line, c.column + 1⟩

/-- The place some characters ahead. -/
def advance : Nat → Cursor → Cursor
  | 0, c => c
  | n + 1, c => advance n c.step

/-- The longest run of characters with a property, and the place behind it. -/
def takeWhile (p : Char → Bool) (c : Cursor) : List Char × Cursor :=
  let taken := c.rest.takeWhile p
  (taken, c.advance taken.length)

/-- The place behind the longest run of characters with a property. -/
def skipWhile (p : Char → Bool) (c : Cursor) : Cursor :=
  (c.takeWhile p).2

/-- A line's end, if the place is at one.  The separators of Unicode stand for
themselves and the other two characters for a line feed. -/
def takeBreak? (c : Cursor) : Option (Char × Cursor) :=
  let ch := c.peek
  if ch == '\n' || ch == '\x85' then some ('\n', c.step)
  else if ch == '\u2028' || ch == '\u2029' then some (ch, c.step)
  else none

/-- The next three characters are the same given one and white space follows. -/
def atMarker (mark : Char) (c : Cursor) : Bool :=
  c.ahead 0 == mark && c.ahead 1 == mark && c.ahead 2 == mark && isEndOrBlank (c.ahead 3)

/-- The place is at a marker between documents. -/
def atSeparator (c : Cursor) : Bool :=
  c.atMarker '-' || c.atMarker '.'

/-- How many characters are known by who has looked for a marker at the start of the line and
then come to the place. -/
def seenInLine (c : Cursor) : Nat :=
  if c.column = 0 && c.atSeparator then c.index + 4
  else if c.column < 3 then c.index + (3 - c.column)
  else c.index

/-- Spaces and a comment to the end of a line, and that end. -/
def restOfLine? (c : Cursor) : Except Fault Cursor :=
  let spaced := c.skipWhile (· == ' ')
  let after := if spaced.peek == '#' then spaced.skipWhile (!isBreak ·) else spaced
  if isEnd after.peek then
    .ok (match after.takeBreak? with
      | some (_, next) => next
      | none => after)
  else .error .malformed

end Cursor

end StyleAudit.Yaml
