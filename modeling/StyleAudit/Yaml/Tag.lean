/-
Module: StyleAudit.Yaml.Tag
Purpose: The kinds of YAML nodes, and which kind a plain scalar's text gives it.
Trusted boundary: none
Main exports: Tag, Tag.ofName, Tag.ofPlain
-/
import StyleAudit.Format.Fault
import StyleAudit.Text.Basic

namespace StyleAudit.Yaml

open Format

/-!
### Tags

A node's tag says what it denotes.  Only the tags of the standard repository are
known; a node with another tag denotes nothing.
-/

/-- What a node denotes. -/
inductive Tag where
  | null
  | bool
  | int
  | float
  | timestamp
  | str
  | seq
  | map
  | pairs
  | set
  | binary
  | merge
  | value
  | unknown
deriving DecidableEq, Repr

/-- The start of the standard tags' names. -/
def standardRepository : String := "tag:yaml.org,2002:"

/-- The tag of a name. -/
def Tag.ofName (name : String) : Tag :=
  if name == standardRepository ++ "null" then .null
  else if name == standardRepository ++ "bool" then .bool
  else if name == standardRepository ++ "int" then .int
  else if name == standardRepository ++ "float" then .float
  else if name == standardRepository ++ "timestamp" then .timestamp
  else if name == standardRepository ++ "str" then .str
  else if name == standardRepository ++ "seq" then .seq
  else if name == standardRepository ++ "map" then .map
  else if name == standardRepository ++ "omap" then .pairs
  else if name == standardRepository ++ "pairs" then .pairs
  else if name == standardRepository ++ "set" then .set
  else if name == standardRepository ++ "binary" then .binary
  else if name == standardRepository ++ "merge" then .merge
  else if name == standardRepository ++ "value" then .value
  else .unknown

/-!
### Texts of plain scalars

A plain scalar is null, a truth value, a number or a time when its text has that
form, and a text otherwise.  Integers may be binary, octal with a leading zero,
hexadecimal, or in base sixty with colons; a float needs a point, and a sign in
its exponent.  A scalar that is marked to be taken as a plain one may end with a
line feed; a single one at the end does not count.
-/

/-- A text without the line feed at its end. -/
def dropFinalBreak : List Char → List Char
  | [] => []
  | ['\n'] => []
  | c :: rest => c :: dropFinalBreak rest

/-- The words for nothing. -/
def nullWords : List String := ["", "~", "null", "Null", "NULL"]

/-- The words for truth values. -/
def boolWords : List String :=
  ["yes", "Yes", "YES", "no", "No", "NO", "true", "True", "TRUE", "false", "False", "FALSE",
   "on", "On", "ON", "off", "Off", "OFF"]

/-- A text without its sign. -/
def unsigned : List Char → List Char
  | '+' :: rest => rest
  | '-' :: rest => rest
  | text => text

/-- A character of a grouped number: a digit of the base or an underscore. -/
def isGrouped (base : Nat) (c : Char) : Bool :=
  isDigitOf base c || c == '_'

/-- At least one character, all with a property. -/
def nonEmptyAll (p : Char → Bool) (text : List Char) : Bool :=
  !text.isEmpty && text.all p

/-- A part of a number in base sixty: one digit, or two of which the first is
below six. -/
def isSixtyPart : List Char → Bool
  | [d] => d.isDigit
  | [t, d] => isDigitOf 6 t && d.isDigit
  | _ => false

/-- The parts of base sixty behind the first one, each behind a colon, of which
there is one at least. -/
def isSixtyTail : List Char → Bool
  | ':' :: parts => (Text.pieces ':' parts).all isSixtyPart
  | _ => false

/-- The text is an integer. -/
def isIntegerText (text : List Char) : Bool :=
  match unsigned text with
  | ['0'] => true
  | '0' :: 'b' :: digits => nonEmptyAll (isGrouped 2) digits
  | '0' :: 'x' :: digits => nonEmptyAll (isGrouped 16) digits
  | '0' :: digits => digits.all (isGrouped 8)
  | c :: rest =>
      c.isDigit
        && (let tail := rest.dropWhile (isGrouped 10)
            tail.isEmpty || isSixtyTail tail)
  | [] => false

/-- The text is empty or an exponent with a sign and digits. -/
def isExponentText : List Char → Bool
  | [] => true
  | e :: sign :: digits =>
      (e == 'e' || e == 'E') && (sign == '+' || sign == '-') && nonEmptyAll Char.isDigit digits
  | _ => false

/-- The text is a number in base sixty with a point. -/
def isSixtyFloatText (text : List Char) : Bool :=
  let before := text.takeWhile (· != '.')
  let after := text.drop before.length
  match before, after with
  | c :: rest, '.' :: fraction =>
      c.isDigit && isSixtyTail (rest.dropWhile (isGrouped 10)) && fraction.all (isGrouped 10)
  | _, _ => false

/-- The text is a float. -/
def isFloatText (text : List Char) : Bool :=
  let plain :=
    match unsigned text with
    | c :: rest =>
        c.isDigit
          && (match rest.dropWhile (isGrouped 10) with
              | '.' :: more => isExponentText (more.dropWhile (isGrouped 10))
              | _ => false)
    | [] => false
  let leadingPoint :=
    match text with
    | '.' :: d :: more => d.isDigit && isExponentText (more.dropWhile (isGrouped 10))
    | _ => false
  let infinite := [".inf", ".Inf", ".INF"].contains (String.ofList (unsigned text))
  let undefined := [".nan", ".NaN", ".NAN"].contains (String.ofList text)
  plain || leadingPoint || isSixtyFloatText (unsigned text) || infinite || undefined

/-!
### Times

A time is a date of four, two and two digits, or a date and a time of day with
looser widths and perhaps an offset.
-/

/-- The parts of a time as written. -/
structure TimeText where
  year : Nat
  month : Nat
  day : Nat
  clock : Option (Nat × Nat × Nat × List Char)
  offset : Option (Option (Bool × Nat × Nat))

/-- At least `least` and at most `most` digits. -/
def takeDigits? (least most : Nat) (text : List Char) : Option (Nat × List Char) :=
  let digits := (text.take most).takeWhile Char.isDigit
  if least ≤ digits.length then some (naturalOfDigits 10 digits, text.drop digits.length)
  else none

/-- The text behind an expected character. -/
def expect? (c : Char) : List Char → Option (List Char)
  | d :: rest => if d = c then some rest else none
  | [] => none

/-- The offset at the end of a time: none, universal time, or a sign with hours
and perhaps minutes. -/
def readOffset? (text : List Char) : Option (Option (Option (Bool × Nat × Nat))) :=
  if text.isEmpty then some none
  else
    match text.dropWhile (fun c => c == ' ' || c == '\t') with
    | ['Z'] => some (some none)
    | sign :: rest =>
        if sign == '+' || sign == '-' then do
          let (hour, rest) ← takeDigits? 1 2 rest
          let negative := sign == '-'
          match rest with
          | [] => some (some (some (negative, hour, 0)))
          | ':' :: rest =>
              let (minute, rest) ← takeDigits? 2 2 rest
              if rest.isEmpty then some (some (some (negative, hour, minute))) else none
          | _ => none
        else none
    | [] => none

/-- A time of day with an offset, up to the end of the text. -/
def readClockText? (year month day : Nat) (text : List Char) : Option TimeText := do
  let (hour, rest) ← takeDigits? 1 2 text
  let rest ← expect? ':' rest
  let (minute, rest) ← takeDigits? 2 2 rest
  let rest ← expect? ':' rest
  let (second, rest) ← takeDigits? 2 2 rest
  let (fraction, rest) :=
    match rest with
    | '.' :: more => span Char.isDigit more
    | _ => ([], rest)
  let offset ← readOffset? rest
  some ⟨year, month, day, some (hour, minute, second, fraction), offset⟩

/-- The parts of a time of any width. -/
def readTimeText? (text : List Char) : Option TimeText := do
  let (year, rest) ← takeDigits? 4 4 text
  let rest ← expect? '-' rest
  let (month, rest) ← takeDigits? 1 2 rest
  let rest ← expect? '-' rest
  let (day, rest) ← takeDigits? 1 2 rest
  match rest with
  | [] => some ⟨year, month, day, none, none⟩
  | c :: more =>
      if c == 'T' || c == 't' then readClockText? year month day more
      else if c == ' ' || c == '\t' then
        readClockText? year month day (rest.dropWhile fun c => c == ' ' || c == '\t')
      else none

/-- The text is a time; a date alone must have its full width. -/
def isTimeText (text : List Char) : Bool :=
  match readTimeText? text with
  | some time => time.clock.isSome || text.length = 10
  | none => false

/-- The tag that a text without a final line feed gives a plain scalar. -/
def Tag.ofLine (chars : List Char) : Tag :=
  let text := String.ofList chars
  if boolWords.contains text then .bool
  else if isFloatText chars then .float
  else if isIntegerText chars then .int
  else if text == "<<" then .merge
  else if nullWords.contains text then .null
  else if isTimeText chars then .timestamp
  else if text == "=" then .value
  else if ["!", "&", "*"].contains text then .unknown
  else .str

/-- The tag of a plain scalar.  A line feed alone is a text, and so is whatever holds half
of a surrogate pair, since no form has a place for it. -/
def Tag.ofPlain (text : Text) : Tag :=
  let chars := text.characters
  if chars = ['\n'] then .str else Tag.ofLine (dropFinalBreak chars)

end StyleAudit.Yaml
