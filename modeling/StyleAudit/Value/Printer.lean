/-
Module: StyleAudit.Value.Printer
Purpose: Values as plain text and as messages describe them.
Trusted boundary: none
Main exports: Key.described, Key.display, Value.described, Value.display, Value.isWritable
-/
import StyleAudit.Value.SetOrder
import StyleAudit.Number.Limit
import StyleAudit.Number.Notation
import StyleAudit.Text.Quoted

namespace StyleAudit

/-!
### Described and displayed

A message describes a value so that its kind can be told: texts and bytes are
quoted, sequences stand in brackets, mappings and sets in braces.  Displayed values differ
only for texts, which are shown as they are, and for moments.
-/

/-- The word for a truth value. -/
def boolWord (b : Bool) : String :=
  if b then "True" else "False"

/-- A key as a message describes it. -/
def Key.described : Key → String
  | .null => "None"
  | .bool b => boolWord b
  | .int n => toString n
  | .float x => Number.render x
  | .str s => Text.quoted s
  | .moment m => m.described
  | .bytes data => Text.quotedBytes data

/-- A key as plain text. -/
def Key.display : Key → Text
  | .str s => s
  | .moment m => m.display
  | k => k.described

/-- A set as a message describes it. -/
def describedSet (members : List Key) : String :=
  if members.isEmpty then "set()"
  else "\x7b" ++ String.intercalate ", " ((shownMembers members).map Key.described) ++ "\x7d"

mutual

/-- A value as a message describes it. -/
def Value.described : Value → String
  | .null => "None"
  | .bool b => boolWord b
  | .int n => toString n
  | .float x => Number.render x
  | .str s => Text.quoted s
  | .moment m => m.described
  | .bytes data => Text.quotedBytes data
  | .set members => describedSet members
  | .seq items => "[" ++ String.intercalate ", " (describedItems items) ++ "]"
  | .map entries => "\x7b" ++ String.intercalate ", " (describedEntries entries) ++ "\x7d"

/-- The items of a sequence, each described. -/
def describedItems : List Value → List String
  | [] => []
  | v :: rest => v.described :: describedItems rest

/-- The entries of a mapping, each described. -/
def describedEntries : List (Key × Value) → List String
  | [] => []
  | (k, v) :: rest => (k.described ++ ": " ++ v.described) :: describedEntries rest

end

/-- A value as plain text. -/
def Value.display : Value → Text
  | .str s => s
  | .moment m => m.display
  | v => v.described

/-!
### What can be written

An integer of too many digits has no text, so a message that would show one cannot
be given.
-/

/-- The key has a text. -/
def Key.isWritable : Key → Bool
  | .int n => Number.isWritable n
  | _ => true

mutual

/-- The value has a text. -/
def Value.isWritable : Value → Bool
  | .int n => Number.isWritable n
  | .set members => members.all Key.isWritable
  | .seq items => areWritable items
  | .map entries => areWritableEntries entries
  | _ => true

/-- The items of a sequence all have texts. -/
def areWritable : List Value → Bool
  | [] => true
  | v :: rest => v.isWritable && areWritable rest

/-- The entries of a mapping all have texts. -/
def areWritableEntries : List (Key × Value) → Bool
  | [] => true
  | (k, v) :: rest => k.isWritable && v.isWritable && areWritableEntries rest

end

end StyleAudit
