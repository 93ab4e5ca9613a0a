/-
Module: StyleAudit.Yaml.ScalarText
Purpose: The texts of YAML scalars: plain, quoted and block ones.
Trusted boundary: none
Main exports: scanPlain, scanQuoted, scanBlock
-/
import StyleAudit.Text.Basic
import StyleAudit.Yaml.Cursor

namespace StyleAudit.Yaml

open Format

/-!
### Folding

A line break inside a scalar becomes a space; one with empty lines behind it
becomes those empty lines.  Only a line feed folds this way.
-/

/-- What a break followed by further breaks leaves in a folded scalar. -/
def folded (first : Char) (others : List Char) : List Char :=
  (if first != '\n' then [first] else if others.isEmpty then [' '] else []) ++ others

/-!
### Plain scalars
-/

/-- A character that ends a plain scalar's run, given what follows it. -/
def endsPlain (inFlow : Bool) (c next : Char) : Bool :=
  isEndOrBlank c
    || (c == ':' && (isEndOrBlank next || (inFlow && ",[]\x7b\x7d".toList.contains next)))
    || (inFlow && ",?[]\x7b\x7d".toList.contains c)

/-- The longest run of characters that do not end a plain scalar. -/
def plainRun (inFlow : Bool) : List Char → List Char
  | [] => []
  | [c] => if endsPlain inFlow c endMark then [] else [c]
  | c :: next :: rest =>
      if endsPlain inFlow c next then [] else c :: plainRun inFlow (next :: rest)

/-- The breaks behind a plain scalar's line, up to the next text; none when a
marker between documents comes first. -/
def plainBreaks : Nat → Cursor → Option (List Char × Cursor)
  | 0, c => some ([], c)
  | fuel + 1, c =>
      let c := c.skipWhile (· == ' ')
      match c.takeBreak? with
      | none => some ([], c)
      | some (ch, next) =>
          if next.atSeparator then none
          else (plainBreaks fuel next).map fun (others, after) => (ch :: others, after)

/-- What stands between two runs of a plain scalar. -/
structure PlainGap where
  text : List Char
  after : Cursor
  brokeLine : Bool

/-- Spaces and breaks behind a run.  A gap without text ends the scalar. -/
def plainGap (c : Cursor) : PlainGap :=
  let (spaces, afterSpaces) := c.takeWhile (· == ' ')
  match afterSpaces.takeBreak? with
  | none => ⟨spaces, afterSpaces, false⟩
  | some (ch, next) =>
      if next.atSeparator then ⟨[], next, true⟩
      else
        match plainBreaks (next.rest.length + 1) next with
        | some (others, after) => ⟨folded ch others, after, true⟩
        | none => ⟨[], (next.skipWhile fun c => c == ' ' || isBreak c), true⟩

/-- The runs and gaps of a plain scalar.  The result says whether a simple key may
start behind it, which is so when its last gap held a break. -/
def plainRuns (inFlow : Bool) (indent : Int) :
    Nat → Cursor → List Char × Cursor × Bool
  | 0, c => ([], c, false)
  | fuel + 1, c =>
      let run := if c.peek == '#' then [] else plainRun inFlow c.rest
      if run.isEmpty then ([], c, false)
      else
        let gap := plainGap (c.advance run.length)
        let stops := gap.text.isEmpty || gap.after.peek == '#'
          || (!inFlow && (gap.after.column : Int) < indent)
        if stops then (run, gap.after, gap.brokeLine)
        else
          let (more, after, broke) := plainRuns inFlow indent fuel gap.after
          if more.isEmpty then (run, gap.after, gap.brokeLine)
          else (run ++ gap.text ++ more, after, broke)

/-- A plain scalar that goes on over lines indented by `indent` at least. -/
def scanPlain (inFlow : Bool) (indent : Int) (c : Cursor) : List Char × Cursor × Bool :=
  plainRuns inFlow indent (c.rest.length + 1) c

/-!
### Quoted scalars
-/

/-- The character that a one-letter escape stands for. -/
def shortEscape? : Char → Option Char
  | '0' => some '\x00'
  | 'a' => some '\x07'
  | 'b' => some '\x08'
  | 't' => some '\t'
  | '\t' => some '\t'
  | 'n' => some '\n'
  | 'v' => some '\x0b'
  | 'f' => some '\x0c'
  | 'r' => some '\r'
  | 'e' => some '\x1b'
  | ' ' => some ' '
  | '"' => some '"'
  | '\\' => some '\\'
  | '/' => some '/'
  | 'N' => some '\x85'
  | '_' => some '\u00a0'
  | 'L' => some '\u2028'
  | 'P' => some '\u2029'
  | _ => none

/-- How many hexadecimal digits follow the letter of a numeric escape. -/
def escapeWidth? : Char → Option Nat
  | 'x' => some 2
  | 'u' => some 4
  | 'U' => some 8
  | _ => none

/-- The breaks inside a quoted scalar, with the blanks around them dropped. -/
def quotedBreaks : Nat → Cursor → Except Fault (List Char × Cursor)
  | 0, _ => .error .malformed
  | fuel + 1, c =>
      if c.atSeparator then .error (c.advance 3).refusal
      else
        let c := c.skipWhile fun ch => ch == ' ' || ch == '\t'
        match c.takeBreak? with
        | none => .ok ([], c)
        | some (ch, next) => do
            let (others, after) ← quotedBreaks fuel next
            .ok (ch :: others, after)

/-- An escape in a scalar between quotation marks, behind its backslash.  A numeric escape
may give half of a surrogate pair; a number beyond the last code point denotes nothing. -/
def scanEscape (c : Cursor) : Except Fault (List CodePoint × Cursor) :=
  match shortEscape? c.peek with
  | some meant => .ok ([.char meant], c.step)
  | none =>
      match escapeWidth? c.peek with
      | some width =>
          let digits := c.step.rest.take width
          if !digits.all (isDigitOf 16) then .error .malformed
          else if digits.length < width then .error .unfinished
          else
            match CodePoint.ofValue? (naturalOfDigits 16 digits) with
            | some meant => .ok ([meant], c.step.advance width)
            | none => .error .unrepresentable
      | none =>
          match c.takeBreak? with
          | some (_, next) =>
              (quotedBreaks (next.rest.length + 1) next).map fun (breaks, after) =>
                (breaks.map .char, after)
          | none => .error c.refusal

/-- The blanks or folded breaks between the words of a quoted scalar. -/
def quotedGap (c : Cursor) : Except Fault (List Char × Cursor) :=
  let (blanks, afterBlanks) := c.takeWhile fun ch => ch == ' ' || ch == '\t'
  match afterBlanks.takeBreak? with
  | some (ch, next) => do
      let (others, after) ← quotedBreaks (next.rest.length + 1) next
      .ok (folded ch others, after)
  | none => .ok (blanks, afterBlanks)

/-- A quoted scalar, from behind its opening mark. -/
def quotedText (double : Bool) : Nat → Cursor → Except Fault (List CodePoint × Cursor)
  | 0, _ => .error .malformed
  | fuel + 1, c =>
      let ch := c.peek
      let continued (text : List CodePoint) (next : Cursor) :
          Except Fault (List CodePoint × Cursor) := do
        let (more, after) ← quotedText double fuel next
        .ok (text ++ more, after)
      if c.rest.isEmpty then .error .unfinished
      else if ch == ' ' || ch == '\t' || isBreak ch then do
        let (gap, next) ← quotedGap c
        continued (gap.map .char) next
      else if double then
        if ch == '"' then .ok ([], c.step)
        else if ch == '\\' then do
          let (meant, next) ← scanEscape c.step
          continued meant next
        else continued [.char ch] c.step
      else if ch == '\'' then
        if c.ahead 1 == '\'' then continued [.char '\''] (c.advance 2) else .ok ([], c.step)
      else continued [.char ch] c.step

/-- A quoted scalar, from its opening mark. -/
def scanQuoted (double : Bool) (c : Cursor) : Except Fault (Text × Cursor) :=
  (quotedText double (c.rest.length + 1) c.step).map fun (points, after) => (⟨points⟩, after)

/-!
### Block scalars

A header gives the chomping and perhaps the indentation.  Chomping says what
becomes of the last break and of the empty lines behind it: both are kept, both
are dropped, or only the last break is kept.
-/

/-- What becomes of the breaks at the end of a block scalar. -/
inductive Chomping where
  | clip
  | strip
  | keep
deriving DecidableEq

/-- A chomping mark. -/
def chompingMark? : Char → Option Chomping
  | '+' => some .keep
  | '-' => some .strip
  | _ => none

/-- The header of a block scalar, behind its style mark, in either order. -/
def blockHeader (c : Cursor) : Except Fault (Chomping × Option Nat × Cursor) := do
  let readWidth (c : Cursor) : Except Fault (Option Nat × Cursor) :=
    if c.peek.isDigit then
      if c.peek == '0' then .error .malformed
      else .ok (some (c.peek.toNat - 48), c.step)
    else .ok (none, c)
  let (chomping, width, after) ←
    match chompingMark? c.peek with
    | some chomping => do
        let (width, after) ← readWidth c.step
        .ok (chomping, width, after)
    | none => do
        let (width, after) ← readWidth c
        match width, chompingMark? after.peek with
        | some _, some chomping => .ok (chomping, width, after.step)
        | _, _ => .ok (Chomping.clip, width, after)
  if isEndOrSpace after.peek then .ok (chomping, width, after) else .error .malformed

/-- Empty lines before a block scalar whose indentation is not given: their breaks
and the deepest column they reach. -/
def leadingLines : Nat → Nat → Cursor → List Char × Nat × Cursor
  | 0, deepest, c => ([], deepest, c)
  | fuel + 1, deepest, c =>
      if c.peek == ' ' then
        let next := c.step
        leadingLines fuel (max deepest next.column) next
      else
        match c.takeBreak? with
        | some (ch, next) =>
            let (breaks, deepest, after) := leadingLines fuel deepest next
            (ch :: breaks, deepest, after)
        | none => ([], deepest, c)

/-- Spaces up to a column. -/
def skipIndent : Nat → Nat → Cursor → Cursor
  | 0, _, c => c
  | fuel + 1, indent, c =>
      if c.column < indent && c.peek == ' ' then skipIndent fuel indent c.step else c

/-- The breaks of empty lines, each followed by spaces up to a column. -/
def blockBreaks : Nat → Nat → Cursor → List Char × Cursor
  | 0, _, c => ([], c)
  | fuel + 1, indent, c =>
      let c := skipIndent indent indent c
      match c.takeBreak? with
      | some (ch, next) =>
          let (breaks, after) := blockBreaks fuel indent next
          (ch :: breaks, after)
      | none => ([], c)

/-- The lines of a block scalar.  `pending` holds the breaks of the empty lines
before the next one.  The result ends with the last line's own break and the
breaks behind it. -/
def blockLines (fold : Bool) (indent : Nat) :
    Nat → List Char → Cursor → List Char × Option Char × List Char × Cursor
  | 0, pending, c => ([], none, pending, c)
  | fuel + 1, pending, c =>
      let startsBlank := c.peek == ' ' || c.peek == '\t'
      let (line, afterLine) := c.takeWhile (!isBreak ·)
      let (ended, next) : Option Char × Cursor :=
        match afterLine.takeBreak? with
        | some (ch, next) => (some ch, next)
        | none => (none, afterLine)
      let (breaks, next) := blockBreaks (next.rest.length + 1) indent next
      if next.column = indent && !next.rest.isEmpty then
        let nextBlank := next.peek == ' ' || next.peek == '\t'
        let joint :=
          if fold && ended == some '\n' && !startsBlank && !nextBlank then
            if breaks.isEmpty then [' '] else []
          else ended.toList
        let (more, last, trailing, after) := blockLines fold indent fuel breaks next
        (pending ++ line ++ joint ++ more, last, trailing, after)
      else (pending ++ line, ended, breaks, next)

/-- A block scalar from its style mark, inside a block of indentation `outer`. -/
def scanBlock (fold : Bool) (outer : Int) (c : Cursor) : Except Fault (List Char × Cursor) := do
  let (chomping, width, afterHeader) ← blockHeader c.step
  let c ← afterHeader.restOfLine?
  let least := max 1 (outer + 1).toNat
  let (indent, breaks, c) : Nat × List Char × Cursor :=
    match width with
    | none =>
        let (breaks, deepest, after) := leadingLines (c.rest.length + 1) 0 c
        (max least deepest, breaks, after)
    | some width =>
        let indent := least + width - 1
        let (breaks, after) := blockBreaks (c.rest.length + 1) indent c
        (indent, breaks, after)
  let (text, last, trailing, after) : List Char × Option Char × List Char × Cursor :=
    if c.column = indent && !c.rest.isEmpty then
      blockLines fold indent (c.rest.length + 1) breaks c
    else ([], none, breaks, c)
  let ending :=
    match chomping with
    | .strip => []
    | .clip => last.toList
    | .keep => last.toList ++ trailing
  .ok (text ++ ending, after)

end StyleAudit.Yaml
