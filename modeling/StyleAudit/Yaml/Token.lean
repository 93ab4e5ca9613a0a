/-
Module: StyleAudit.Yaml.Token
Purpose: The tokens of a YAML text, with the starts of keys and blocks made explicit.
Trusted boundary: none
Main exports: Token, Scanned, Token.scan
-/
import StyleAudit.Yaml.ScalarText
import StyleAudit.Yaml.Source

namespace StyleAudit.Yaml

open Format

/-!
### Tokens

The grammar of YAML is written with indentation.  Scanning replaces it by tokens:
the start and end of a block are tokens, and so is the start of a key.  A key
without a mark of its own is only recognised at the colon behind it, so the
scanner keeps the places where such a simple key may have started and puts the
missing tokens in there.
-/

/-- A tag as written: a handle that a directive explains, or none, and a suffix. -/
structure TagText where
  handle : Option String
  suffix : String
deriving DecidableEq

/-- A piece of a YAML text. -/
inductive Token where
  | streamEnd
  | versionDirective (major : Nat)
  | tagDirective (handle meaning : String)
  | otherDirective
  | documentStart
  | documentEnd
  | blockSequenceStart
  | blockMappingStart
  | blockEnd
  | flowSequenceStart
  | flowMappingStart
  | flowSequenceEnd
  | flowMappingEnd
  | key
  | value
  | blockEntry
  | flowEntry
  | alias (name : String)
  | anchor (name : String)
  | tag (text : TagText)
  | scalar (text : Text) (plain : Bool)
deriving DecidableEq, Inhabited

/-- A place where a simple key may have started: the number of the token there,
whether the text is wrong if no colon follows, and the place. -/
structure Candidate where
  token : Nat
  required : Bool
  index : Nat
  line : Nat
  column : Nat

/-- What scanning has found so far: the tokens, the columns of the open blocks,
the number of open brackets, and the possible keys by that number.  The last token may have
been found by looking at more characters than it takes. -/
structure Scanner where
  cursor : Cursor
  tokens : Array Token
  depth : Nat
  indent : Int
  indents : List Int
  keyAllowed : Bool
  candidates : List (Nat × Candidate)
  seen : Nat

namespace Scanner

/-- The start of a text. -/
def start (text : List Char) : Scanner :=
  ⟨Cursor.start text, #[], 0, -1, [], true, [], 0⟩

/-- Some brackets are open, so indentation means nothing. -/
def inFlow (s : Scanner) : Bool := s.depth ≠ 0

/-- Adds a token. -/
def push (t : Token) (s : Scanner) : Scanner :=
  { s with tokens := s.tokens.push t }

/-- Puts tokens in at an earlier place. -/
def insertAt (place : Nat) (ts : Array Token) (s : Scanner) : Scanner :=
  { s with tokens := s.tokens.extract 0 place ++ ts ++ s.tokens.extract place s.tokens.size }

/-- Closes the blocks that are indented more than a column. -/
def closeBlocks (column : Int) : List Int → Scanner → Scanner
  | outer :: indents, s =>
      if !s.inFlow && column < s.indent then
        closeBlocks column indents
          ({ s with indent := outer, indents := indents }.push .blockEnd)
      else s
  | [], s => s

/-- Closes blocks by the column of the next token. -/
def unwind (column : Int) (s : Scanner) : Scanner :=
  closeBlocks column s.indents s

/-- Opens a block at a column, unless one is open there; says whether it did. -/
def indentTo (column : Nat) (s : Scanner) : Bool × Scanner :=
  if s.indent < column then
    (true, { s with indents := s.indent :: s.indents, indent := column })
  else (false, s)

/-- Opens a block with its token at a column, unless one is open there or brackets
are. -/
def openBlock (opening : Token) (s : Scanner) : Scanner :=
  if s.inFlow then s
  else
    match s.indentTo s.cursor.column with
    | (true, s) => s.push opening
    | (false, s) => s

/-- Gives up the candidate of the current depth. -/
def dropCandidate (s : Scanner) : Except Fault Scanner :=
  match s.candidates.lookup s.depth with
  | some candidate =>
      if candidate.required then .error .malformed
      else .ok { s with candidates := s.candidates.filter (·.1 != s.depth) }
  | none => .ok s

/-- Notes that a simple key may start here. -/
def noteCandidate (s : Scanner) : Except Fault Scanner :=
  if s.keyAllowed then do
    let required := !s.inFlow && s.indent == s.cursor.column
    let s ← s.dropCandidate
    let candidate : Candidate :=
      ⟨s.tokens.size, required, s.cursor.index, s.cursor.line, s.cursor.column⟩
    .ok { s with candidates := (s.depth, candidate) :: s.candidates }
  else .ok s

/-- A simple key stands on one line and is not longer than 1024 characters. -/
def isStale (s : Scanner) (candidate : Candidate) : Bool :=
  candidate.line != s.cursor.line || candidate.index + 1024 < s.cursor.index

/-- Gives up the candidates that can no longer be keys. -/
def dropStale (s : Scanner) : Except Fault Scanner :=
  if s.candidates.any fun (_, c) => s.isStale c && c.required then .error s.cursor.refusal
  else .ok { s with candidates := s.candidates.filter fun (_, c) => !s.isStale c }

/-- Spaces, comments and line breaks before the next token. -/
def skipToToken : Nat → Scanner → Scanner
  | 0, s => s
  | fuel + 1, s =>
      let spaced := s.cursor.skipWhile (· == ' ')
      let after := if spaced.peek == '#' then spaced.skipWhile (!isBreak ·) else spaced
      match after.takeBreak? with
      | some (_, next) =>
          skipToToken fuel { s with cursor := next, keyAllowed := s.keyAllowed || !s.inFlow }
      | none => { s with cursor := after }

/-- Ends all blocks and gives up the last candidate, as directives and markers do. -/
def endBlocks (s : Scanner) : Except Fault Scanner := do
  let s ← (s.unwind (-1)).dropCandidate
  .ok { s with keyAllowed := false }

/-!
### Directives, names and tags
-/

/-- A name of at least one character. -/
def scanName (c : Cursor) : Except Fault (String × Cursor) :=
  let (name, after) := c.takeWhile isNameCharacter
  if name.isEmpty then .error after.refusal else .ok (String.ofList name, after)

/-- A handle: an exclamation mark, and perhaps a name and another such mark. -/
def scanTagHandle (c : Cursor) : Except Fault (String × Cursor) :=
  if c.peek != '!' then .error c.refusal
  else if c.ahead 1 == ' ' then .ok ("!", c.step)
  else
    let (name, after) := c.step.takeWhile isNameCharacter
    if after.peek == '!' then .ok (String.ofList ('!' :: name ++ ['!']), after.step)
    else .error after.refusal

/-- A character that a tag may hold. -/
def isTagCharacter (c : Char) : Bool :=
  c.isAlphanum || "-;/?:@&=+$,_.!~*'()[]%".toList.contains c

/-- The bytes that percent signs with two hexadecimal digits denote, and the rest. -/
def percentBytes : List Char → Except Fault (List UInt8 × List Char)
  | '%' :: a :: b :: rest =>
      if isDigitOf 16 a && isDigitOf 16 b then
        (percentBytes rest).map fun (bytes, after) =>
          (UInt8.ofNat (naturalOfDigits 16 [a, b]) :: bytes, after)
      else .error .malformed
  | '%' :: _ => .error .malformed
  | text => .ok ([], text)

/-- A tag with its percent escapes decoded. -/
def decodeTag : Nat → List Char → Except Fault (List Char)
  | 0, text => .ok text
  | _ + 1, [] => .ok []
  | fuel + 1, c :: rest =>
      if c == '%' then do
        let (bytes, after) ← percentBytes (c :: rest)
        match String.fromUTF8? ⟨bytes.toArray⟩ with
        | some s => do
            let more ← decodeTag fuel after
            .ok (s.toList ++ more)
        | none => .error .malformed
      else do
        let more ← decodeTag fuel rest
        .ok (c :: more)

/-- The suffix of a tag, of at least one character. -/
def scanTagSuffix (c : Cursor) : Except Fault (String × Cursor) := do
  let (text, after) := c.takeWhile isTagCharacter
  if text.isEmpty then .error after.refusal
  else
    let decoded ← (decodeTag text.length text).mapError fun _ => after.refusal
    .ok (String.ofList decoded, after)

/-- The place of a further exclamation mark, or of the next blank when there is none before
that.  A tag is looked through up to there before it is read. -/
def handleEnd (c : Cursor) : Cursor :=
  c.step.skipWhile fun ch => !isEndOrSpace ch && ch != '!'

/-- A tag. -/
def scanTag (c : Cursor) : Except Fault (TagText × Cursor) := do
  let next := c.ahead 1
  let looked := if next == '<' || isEndOrBlank next then c.step else handleEnd c
  let (tag, after) ←
    if next == '<' then do
      let (suffix, after) ← scanTagSuffix (c.advance 2)
      if after.peek == '>' then .ok (⟨none, suffix⟩, after.step) else .error after.refusal
    else if isEndOrBlank next then .ok (⟨none, "!"⟩, c.step)
    else if looked.peek == '!' then do
      let (handle, after) ← scanTagHandle c
      let (suffix, after) ← scanTagSuffix after
      .ok (⟨some handle, suffix⟩, after)
    else do
      let (suffix, after) ← (scanTagSuffix c.step).mapError fun _ => looked.refusal
      .ok (⟨some "!", suffix⟩, after)
  if isEndOrSpace after.peek then .ok (tag, after) else .error looked.refusal

/-- An anchor's or an alias's name. -/
def scanAnchorName (c : Cursor) : Except Fault (String × Cursor) := do
  let (name, after) ← scanName c.step
  if isEndOrBlank after.peek || "?:,]\x7d%@`".toList.contains after.peek then .ok (name, after)
  else .error .malformed

/-- A number in a version. -/
def scanVersionNumber (c : Cursor) : Except Fault (Nat × Cursor) :=
  let (digits, after) := c.takeWhile Char.isDigit
  if digits.isEmpty then .error after.refusal
  else (boundedInteger false digits).map fun n => (n.toNat, after)

/-- A directive, from its percent sign to the end of its line. -/
def scanDirective (c : Cursor) : Except Fault (Token × Cursor) := do
  let (name, c) ← scanName c.step
  if !isEndOrSpace c.peek then .error .malformed
  else
    let spaced := c.skipWhile (· == ' ')
    let (token, after) ←
      if name == "YAML" then do
        let (major, after) ← scanVersionNumber spaced
        if after.peek != '.' then .error after.refusal
        else
          let (_, after) ← scanVersionNumber after.step
          if isEndOrSpace after.peek then .ok (Token.versionDirective major, after)
          else .error .malformed
      else if name == "TAG" then do
        let (handle, after) ← scanTagHandle spaced
        if after.peek != ' ' then .error after.refusal
        else
          let (meaning, after) ← scanTagSuffix (after.skipWhile (· == ' '))
          if isEndOrSpace after.peek then .ok (Token.tagDirective handle meaning, after)
          else .error .malformed
      else .ok (Token.otherDirective, c.skipWhile (!isBreak ·))
    let after ← after.restOfLine?
    .ok (token, after)

/-!
### One token at a time
-/

/-- A bracket that opens. -/
def openFlow (t : Token) (s : Scanner) : Except Fault Scanner := do
  let s ← s.noteCandidate
  .ok ({ s with depth := s.depth + 1, keyAllowed := true, cursor := s.cursor.step }.push t)

/-- A bracket that closes. -/
def closeFlow (t : Token) (s : Scanner) : Except Fault Scanner := do
  let s ← s.dropCandidate
  .ok ({ s with depth := s.depth - 1, keyAllowed := false, cursor := s.cursor.step }.push t)

/-- The characters up to the place, and those looked at behind it, are all there, with one
more behind the place. -/
def isSettled (s : Scanner) : Bool :=
  !s.cursor.rest.isEmpty && s.seen ≤ s.cursor.index + s.cursor.rest.length

/-- A mark that may open a block: a hyphen, a question mark or a lone colon. -/
def blockMark (opening mark : Token) (keyAllowed : Bool) (s : Scanner) :
    Except Fault Scanner := do
  if !s.inFlow && !s.keyAllowed then
    .error (if { s with cursor := s.cursor.step }.isSettled then .malformed else .unfinished)
  else
    let s ← (s.openBlock opening).dropCandidate
    .ok ({ s with keyAllowed := keyAllowed, cursor := s.cursor.step }.push mark)

/-- A hyphen in brackets is left for the grammar to refuse.  At the start of a line it could
be that of a marker. -/
def entryMark (s : Scanner) : Except Fault Scanner :=
  { s with seen := s.cursor.seenInLine }.blockMark .blockSequenceStart .blockEntry true

/-- A colon: the key before it becomes one now, or the key is empty. -/
def valueMark (s : Scanner) : Except Fault Scanner :=
  match s.candidates.lookup s.depth with
  | some candidate =>
      let s := { s with
        candidates := s.candidates.filter (·.1 != s.depth), keyAllowed := false }
      let (opened, s) := if s.inFlow then (false, s) else s.indentTo candidate.column
      let missing := if opened then #[Token.blockMappingStart, Token.key] else #[Token.key]
      let s := s.insertAt candidate.token missing
      .ok ({ s with cursor := s.cursor.step }.push .value)
  | none => s.blockMark .blockMappingStart .value (!s.inFlow)

/-- A token that may be a simple key. -/
def simple (read : Cursor → Except Fault (Token × Cursor)) (s : Scanner) :
    Except Fault Scanner := do
  let s ← s.noteCandidate
  let (token, after) ← read s.cursor
  .ok ({ s with keyAllowed := false, cursor := after }.push token)

/-- A plain scalar, which may be a simple key and may end behind a line break. -/
def plain (s : Scanner) : Except Fault Scanner := do
  let s ← s.noteCandidate
  let (text, after, broke) := scanPlain s.inFlow (s.indent + 1) s.cursor
  let seen := if broke then after.seenInLine else after.index + (if after.peek == ':' then 2 else 1)
  .ok ({ s with keyAllowed := broke, cursor := after, seen := seen }.push
    (.scalar (Text.ofChars text) true))

/-- A quoted scalar, which may be a simple key. -/
def quoted (s : Scanner) : Except Fault Scanner := do
  let line := s.cursor.line
  let s ← s.simple fun c => (scanQuoted (c.peek == '"') c).map fun (text, after) =>
    (.scalar text false, after)
  .ok (if line < s.cursor.line then { s with seen := s.cursor.seenInLine } else s)

/-- A block scalar. -/
def block (fold : Bool) (s : Scanner) : Except Fault Scanner := do
  let s ← { s with keyAllowed := true }.dropCandidate
  let (text, after) ← scanBlock fold s.indent s.cursor
  .ok ({ s with cursor := after }.push (.scalar (Text.ofChars text) false))

/-- A marker between documents. -/
def marker (t : Token) (s : Scanner) : Except Fault Scanner := do
  let s ← s.endBlocks
  .ok ({ s with cursor := s.cursor.advance 3 }.push t)

/-- A character with which a plain scalar starts, given the next one. -/
def startsPlain (inFlow : Bool) (c next : Char) : Bool :=
  (!isEndOrBlank c && !("-?:,[]\x7b\x7d#&*!|>'\"%@`".toList.contains c))
    || (!isEndOrBlank next && (c == '-' || (!inFlow && (c == '?' || c == ':'))))

/-- The next token; nothing when the text has ended. -/
def next (s : Scanner) : Except Fault (Option Scanner) := do
  let s ← s.dropStale
  let s ← (skipToToken (s.cursor.rest.length + 1) s).dropStale
  let s := s.unwind s.cursor.column
  let c := s.cursor
  let ch := c.peek
  let blankNext := isEndOrBlank (c.ahead 1)
  if c.rest.isEmpty then .ok none
  else .some <$>
    if ch == '%' && c.column = 0 then do
      let s ← s.endBlocks
      let (token, after) ← scanDirective s.cursor
      .ok ({ s with cursor := after }.push token)
    else if c.column = 0 && c.atMarker '-' then s.marker .documentStart
    else if c.column = 0 && c.atMarker '.' then s.marker .documentEnd
    else if ch == '[' then s.openFlow .flowSequenceStart
    else if ch == '\x7b' then s.openFlow .flowMappingStart
    else if ch == ']' then s.closeFlow .flowSequenceEnd
    else if ch == '\x7d' then s.closeFlow .flowMappingEnd
    else if ch == ',' then do
      let s ← s.dropCandidate
      .ok ({ s with keyAllowed := true, cursor := s.cursor.step }.push .flowEntry)
    else if ch == '-' && blankNext then s.entryMark
    else if ch == '?' && (s.inFlow || blankNext) then
      s.blockMark .blockMappingStart .key (!s.inFlow)
    else if ch == ':' && (s.inFlow || blankNext) then s.valueMark
    else if ch == '*' then
      s.simple fun c => (scanAnchorName c).map fun (name, after) => (.alias name, after)
    else if ch == '&' then
      s.simple fun c => (scanAnchorName c).map fun (name, after) => (.anchor name, after)
    else if ch == '!' then
      s.simple fun c => (scanTag c).map fun (tag, after) => (.tag tag, after)
    else if ch == '|' && !s.inFlow then s.block false
    else if ch == '>' && !s.inFlow then s.block true
    else if ch == '\'' || ch == '"' then s.quoted
    else if startsPlain s.inFlow ch (c.ahead 1) then s.plain
    else .error c.step.refusal

/-- The step behind the last token. -/
def finish (s : Scanner) : Except Fault Scanner := do
  let s ← (← (skipToToken (s.cursor.rest.length + 1) s).dropStale).endBlocks
  .ok (s.push .streamEnd)

/-- The number of tokens that are settled.  A token where a simple key may have started
is not, since other tokens may have to be put in before it. -/
def settled (s : Scanner) : Nat :=
  s.candidates.foldl
    (fun least (_, c) => if s.isStale c then least else min least c.token) s.tokens.size

end Scanner

/-!
### Whole texts

The grammar is read along with the scanning, so a fault of the text only counts when
the tokens before it are sound.
-/

/-- The tokens of a text up to the first fault in it, and the fault; the last token of
a text without a fault is the end of the stream. -/
structure Scanned where
  tokens : List Token
  fault : Option Fault

namespace Scanner

/-- What was found when a fault ends the scanning. -/
def stopped (fault : Fault) (s : Scanner) : Scanned :=
  ⟨(s.tokens.extract 0 s.settled).toList, some fault⟩

/-- Scans to the end of a text.  Every token takes a character at least. -/
def run : Nat → Scanner → Scanned
  | 0, s => s.stopped .malformed
  | fuel + 1, s =>
      match s.next with
      | .error fault => s.stopped fault
      | .ok (some s) => run fuel s
      | .ok none =>
          match s.finish with
          | .error fault => s.stopped fault
          | .ok s => ⟨s.tokens.toList, none⟩

/-- Scans up to a fault that stands behind the text.  A token that takes the last character,
or is found by looking behind that, is not settled, since what follows may belong to it. -/
def runUpTo (ending : Fault) : Nat → Scanner → Scanned
  | 0, s => s.stopped .malformed
  | fuel + 1, s =>
      match s.next with
      | .error .unfinished => s.stopped ending
      | .error fault => s.stopped fault
      | .ok none => s.stopped ending
      | .ok (some after) =>
          if after.isSettled then runUpTo ending fuel after else s.stopped ending

end Scanner

/-- A text without the byte-order mark at its start. -/
def dropMark (c : Cursor) : Cursor :=
  if c.peek == '\ufeff' then c.step else c

/-- The tokens of a source. -/
def Token.scan (source : Source) : Scanned :=
  let s := Scanner.start source.text
  let s := { s with cursor := dropMark s.cursor }
  let fuel := source.text.length + 2
  match source.fault with
  | none => s.run fuel
  | some fault => s.runUpTo fault fuel

end StyleAudit.Yaml
