/-
Module: StyleAudit.Json.Printer
Purpose: Writing values as JSON texts.
Trusted boundary: none
Main exports: Json.Layout, Json.write?, Json.writeString
-/
import StyleAudit.Number.Limit
import StyleAudit.Value.Basic
import StyleAudit.Number.Notation
import StyleAudit.Text.Quoted

namespace StyleAudit.Json

/-!
### Writing JSON

Only ASCII is written: every other character, and every control, is escaped by its code
units, and so is half of a surrogate pair by itself.  A mapping is written as an object
whose names are the keys' texts.  Dates, times, bytes and sets have no JSON form, neither as
values nor as names, and neither have integers of too many digits, so a value that holds one
is not written at all.
-/

/-- One line with a space after each comma, or one item a line with two spaces
of indentation a level. -/
inductive Layout where
  | compact
  | indented
deriving DecidableEq, Repr

/-- An escape of one code unit. -/
def unitEscape (code : Nat) : List Char :=
  '\\' :: 'u' :: Text.hexDigits 4 code

/-- One character inside a string. -/
def escapeCharacter (c : Char) : List Char :=
  if c = '"' then ['\\', '"']
  else if c = '\\' then ['\\', '\\']
  else if c = '\n' then ['\\', 'n']
  else if c = '\r' then ['\\', 'r']
  else if c = '\t' then ['\\', 't']
  else if c = '\x0c' then ['\\', 'f']
  else if c = '\x08' then ['\\', 'b']
  else if 32 ≤ c.toNat && c.toNat < 127 then [c]
  else if c.toNat < 0x10000 then unitEscape c.toNat
  else
    let above := c.toNat - 0x10000
    unitEscape (0xD800 + above / 0x400) ++ unitEscape (0xDC00 + above % 0x400)

/-- One code point inside a string. -/
def escapePoint : CodePoint → List Char
  | .char c => escapeCharacter c
  | .surrogate place => unitEscape (CodePoint.surrogate place).value

/-- A string between quotation marks. -/
def writeString (s : Text) : List Char :=
  '"' :: s.points.flatMap escapePoint ++ ['"']

/-- A number; the three values that are no JSON numbers are written as words. -/
def writeFloat (x : Binary64) : List Char :=
  match x.shape with
  | .nan => "NaN".toList
  | .infinite negative => if negative then "-Infinity".toList else "Infinity".toList
  | .finite _ _ _ => (Number.render x).toList

/-- An integer, unless it has too many digits. -/
def writeInteger? (n : Int) : Option (List Char) :=
  if Number.isWritable n then some (toString n).toList else none

/-- The name that a key gives a member. -/
def memberName? : Key → Option Text
  | .null => some "null"
  | .bool b => some (if b then "true" else "false")
  | .int n => (writeInteger? n).map Text.ofChars
  | .float x => some (Text.ofChars (writeFloat x))
  | .str s => some s
  | .moment _ => none
  | .bytes _ => none

/-- The break before an item at a depth. -/
def lineBreak (layout : Layout) (depth : Nat) : List Char :=
  match layout with
  | .compact => []
  | .indented => '\n' :: List.replicate (2 * depth) ' '

/-- What stands between two items at a depth. -/
def separator (layout : Layout) (depth : Nat) : List Char :=
  match layout with
  | .compact => [',', ' ']
  | .indented => ',' :: lineBreak layout depth

/-- Items between brackets; an empty list has nothing inside. -/
def enclose (layout : Layout) (depth : Nat) (opening closing : Char) (items : List (List Char)) :
    List Char :=
  if items.isEmpty then [opening, closing]
  else
    opening :: lineBreak layout (depth + 1)
      ++ (items.intersperse (separator layout (depth + 1))).flatten
      ++ lineBreak layout depth ++ [closing]

mutual

/-- A value at a depth of nesting, when it has a JSON form. -/
def writeValue? (layout : Layout) (depth : Nat) : Value → Option (List Char)
  | .null => some "null".toList
  | .bool b => some (if b then "true".toList else "false".toList)
  | .int n => writeInteger? n
  | .float x => some (writeFloat x)
  | .str s => some (writeString s)
  | .moment _ => none
  | .bytes _ => none
  | .set _ => none
  | .seq items => (writeItems? layout (depth + 1) items).map (enclose layout depth '[' ']')
  | .map entries =>
      (writeMembers? layout (depth + 1) entries).map (enclose layout depth '\x7b' '\x7d')

/-- The items of a sequence, each written. -/
def writeItems? (layout : Layout) (depth : Nat) : List Value → Option (List (List Char))
  | [] => some []
  | v :: rest => do
      let item ← writeValue? layout depth v
      let items ← writeItems? layout depth rest
      return item :: items

/-- The entries of a mapping, each written as a member. -/
def writeMembers? (layout : Layout) (depth : Nat) :
    List (Key × Value) → Option (List (List Char))
  | [] => some []
  | (key, v) :: rest => do
      let name ← memberName? key
      let item ← writeValue? layout depth v
      let items ← writeMembers? layout depth rest
      return (writeString name ++ ':' :: ' ' :: item) :: items

end

/-- A value as a JSON text, when it has one. -/
def write? (layout : Layout) (v : Value) : Option String :=
  (writeValue? layout 0 v).map String.ofList

end StyleAudit.Json
