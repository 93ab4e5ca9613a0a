/-
Module: StyleAudit.Toml.Reader
Purpose: Reading TOML texts into mappings.
Trusted boundary: none
Main exports: Toml.read
-/
import StyleAudit.Toml.Scalar
import StyleAudit.Toml.Namespace

namespace StyleAudit.Toml

open Format

/-!
### Keys and values

A key is a list of parts with points between them.  The readers of values call
each other for arrays and inline tables; their first argument bounds the nesting
and the number of items together.
-/

/-- A character of a key part without quotation marks. -/
def isBare (c : Char) : Bool :=
  c.isAlphanum || c == '-' || c == '_'

/-- The text after white space inside a line. -/
def skipSpace (text : List Char) : List Char :=
  text.dropWhile isSpace

/-- One part of a key. -/
def readKeyPart (text : List Char) : Reading String :=
  let (bare, rest) := span isBare text
  if !bare.isEmpty then .ok (String.ofList bare, rest)
  else
    match readLineString? text with
    | some read => read
    | none => .error .malformed

/-- A key and the white space behind it. -/
def readKey : Nat → List Char → Except Fault (KeyPath × List Char)
  | 0, _ => .error .malformed
  | fuel + 1, text => do
      let (part, rest) ← readKeyPart text
      match skipSpace rest with
      | '.' :: more =>
          let (path, after) ← readKey fuel (skipSpace more)
          .ok (part :: path, after)
      | after => .ok ([part], after)

/-- A comment, up to the end of its line, which no control character may hold. -/
def skipComment : List Char → Except Fault (List Char)
  | '#' :: rest =>
      let (comment, after) := span (· != '\n') rest
      if comment.any isControl then .error .malformed else .ok after
  | text => .ok text

/-- White space, line breaks and comments between the items of an array. -/
def skipBetweenItems : Nat → List Char → Except Fault (List Char)
  | 0, text => .ok text
  | fuel + 1, text =>
      match text.dropWhile isSpaceOrBreak with
      | '#' :: rest => do
          let after ← skipComment ('#' :: rest)
          skipBetweenItems fuel after
      | after => .ok after

mutual

/-- A value at the start of a text. -/
def readValue : Nat → List Char → Reading Value
  | 0, _ => .error .malformed
  | fuel + 1, text =>
      match text with
      | '[' :: rest =>
          (readArray fuel rest).map fun (items, after) => (.seq items, after)
      | '\x7b' :: rest =>
          match skipSpace rest with
          | '\x7d' :: after => .ok (.map [], after)
          | inner =>
              (readInline fuel [] [] inner).map fun (table, after) => (.map table, after)
      | text =>
          match readString? text with
          | some read => read.map fun (s, after) => (.str s, after)
          | none =>
              match readWord? text with
              | some read => .ok read
              | none =>
                  match readMoment? text with
                  | some read => read
                  | none =>
                      match readNumber? text with
                      | some read => read
                      | none => .error .malformed

/-- The items of an array up to its closing bracket; a comma may precede it. -/
def readArray : Nat → List Char → Except Fault (List Value × List Char)
  | 0, _ => .error .malformed
  | fuel + 1, text => do
      match ← skipBetweenItems text.length text with
      | ']' :: after => .ok ([], after)
      | start =>
          let (item, rest) ← readValue fuel start
          match ← skipBetweenItems rest.length rest with
          | ']' :: after => .ok ([item], after)
          | ',' :: more =>
              let (items, after) ← readArray fuel more
              .ok (item :: items, after)
          | _ => .error .malformed

/-- The assignments of an inline table up to its closing brace. -/
def readInline : Nat → Mapping → List KeyPath → List Char →
    Except Fault (Mapping × List Char)
  | 0, _, _, _ => .error .malformed
  | fuel + 1, table, closed, text => do
      let (path, rest) ← readKey text.length text
      match rest with
      | '=' :: more =>
          let (v, rest) ← readValue fuel (skipSpace more)
          match assignInline? table closed path v with
          | none => .error .malformed
          | some table =>
              match skipSpace rest with
              | '\x7d' :: after => .ok (table, after)
              | ',' :: more =>
                  let closed := if isContainer v then path :: closed else closed
                  readInline fuel table closed (skipSpace more)
              | _ => .error .malformed
      | _ => .error .malformed

end

/-!
### Lines

A document is a sequence of lines; each holds nothing, a header or an assignment,
and perhaps a comment.  An assignment may go on over several lines of text.
-/

/-- The document or a fault. -/
def orMalformed {α : Type} : Option α → Except Fault α
  | some a => .ok a
  | none => .error .malformed

/-- What stands in a line before its comment. -/
def readStatement (d : Document) (text : List Char) : Except Fault (Document × List Char) :=
  match text with
  | '[' :: '[' :: rest => do
      let (path, rest) ← readKey rest.length (skipSpace rest)
      let d ← orMalformed (d.endSection.openItem? path)
      match rest with
      | ']' :: ']' :: after => .ok (d, after)
      | _ => .error .malformed
  | '[' :: rest => do
      let (path, rest) ← readKey rest.length (skipSpace rest)
      let d ← orMalformed (d.endSection.openTable? path)
      match rest with
      | ']' :: after => .ok (d, after)
      | _ => .error .malformed
  | c :: _ =>
      if isBare c || c == '"' || c == '\'' then do
        let (path, rest) ← readKey text.length text
        match rest with
        | '=' :: more =>
            let (v, after) ← readValue (2 * more.length + 2) (skipSpace more)
            let d ← orMalformed (d.assign? path v)
            .ok (d, after)
        | _ => .error .malformed
      else if c == '#' then .ok (d, text)
      else .error .malformed
  | [] => .ok (d, [])

/-- The lines of a document from one on.  Every line holds a character at least,
so the first argument need not exceed the length of the text. -/
def readLines : Nat → Document → List Char → Except Fault Document
  | 0, d, text => if text.isEmpty then .ok d else .error .malformed
  | fuel + 1, d, text =>
      match skipSpace text with
      | [] => .ok d
      | '\n' :: rest => readLines fuel d rest
      | start => do
          let (d, rest) ← readStatement d start
          match ← skipComment (skipSpace rest) with
          | [] => .ok d
          | '\n' :: after => readLines fuel d after
          | _ => .error .malformed

/-- A text with each carriage return before a line feed dropped. -/
def joinLineEnds : List Char → List Char
  | '\r' :: '\n' :: rest => '\n' :: joinLineEnds rest
  | c :: rest => c :: joinLineEnds rest
  | [] => []

/-- The table that a whole text denotes. -/
def read (text : List Char) : Except Fault Mapping := do
  let text := joinLineEnds text
  let d ← readLines (text.length + 1) Document.empty text
  .ok d.table

end StyleAudit.Toml
