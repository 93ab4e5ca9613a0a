/-
Module: StyleAudit.Json.Reader
Purpose: Reading JSON texts into values.
Trusted boundary: none
Main exports: Json.read
-/
import StyleAudit.Format.Fault
import StyleAudit.Value.Basic

namespace StyleAudit.Json

open Format

/-!
### Reading JSON

The reader accepts JSON and the three words for numbers that JSON lacks: NaN,
Infinity and -Infinity.  A number without point and exponent is an integer of
any size up to the limit on digits; every other number is rounded to double
precision, so that too large a one becomes infinite.  Of several members with
one name the last value counts, at the first one's place.
-/

/-- White space between the tokens of JSON. -/
def isSpace (c : Char) : Bool :=
  c == ' ' || c == '\t' || c == '\n' || c == '\r'

/-- The text after its leading white space. -/
def skipSpace (text : List Char) : List Char :=
  text.dropWhile isSpace

/-- The character that a one-letter escape stands for. -/
def shortEscape? : Char → Option Char
  | '"' => some '"'
  | '\\' => some '\\'
  | '/' => some '/'
  | 'b' => some '\x08'
  | 'f' => some '\x0c'
  | 'n' => some '\n'
  | 'r' => some '\r'
  | 't' => some '\t'
  | _ => none

/-- The code point that four hexadecimal digits denote. -/
def codeUnit? (digits : List Char) : Option CodePoint :=
  if digits.all (isDigitOf 16) then CodePoint.ofValue? (naturalOfDigits 16 digits) else none

/-- The code points of a string, from behind its opening quotation mark to its closing
one.  Escapes may give halves of surrogate pairs. -/
def readPoints : List Char → Reading (List CodePoint)
  | [] => .error .malformed
  | '"' :: rest => .ok ([], rest)
  | '\\' :: 'u' :: a :: b :: c :: d :: rest =>
      match codeUnit? [a, b, c, d] with
      | some point => (readPoints rest).map fun read => (point :: read.1, read.2)
      | none => .error .malformed
  | '\\' :: c :: rest =>
      match shortEscape? c with
      | some meant => (readPoints rest).map fun read => (.char meant :: read.1, read.2)
      | none => .error .malformed
  | c :: rest =>
      if c.toNat < 32 || c == '\\' then .error .malformed
      else (readPoints rest).map fun read => (.char c :: read.1, read.2)

/-- The character of a surrogate pair, when two halves make one. -/
def pairCharacter? (first second : Fin 2048) : Option Char :=
  if first.val < 0x400 ∧ 0x400 ≤ second.val then
    some (Char.ofNat (0x10000 + first.val * 0x400 + (second.val - 0x400)))
  else none

/-- Code points with the halves of surrogate pairs joined. -/
def joinPairs : List CodePoint → List CodePoint
  | .surrogate first :: .surrogate second :: rest =>
      match pairCharacter? first second with
      | some c => .char c :: joinPairs rest
      | none => .surrogate first :: joinPairs (.surrogate second :: rest)
  | point :: rest => point :: joinPairs rest
  | [] => []

/-- A string, from behind its opening quotation mark. -/
def readString (text : List Char) : Reading Text :=
  (readPoints text).map fun read => (⟨joinPairs read.1⟩, read.2)

/-- The fraction of a number: a point with at least one digit. -/
def readFraction : List Char → List Char × List Char
  | '.' :: rest =>
      let (digits, after) := span Char.isDigit rest
      if digits.isEmpty then ([], '.' :: rest) else (digits, after)
  | text => ([], text)

/-- The exponent of a number, when there is one. -/
def readExponent : List Char → Option Int × List Char
  | c :: rest =>
      if c == 'e' || c == 'E' then
        let (negative, unsigned) :=
          match rest with
          | '-' :: more => (true, more)
          | '+' :: more => (false, more)
          | more => (false, more)
        let (digits, after) := span Char.isDigit unsigned
        if digits.isEmpty then (none, c :: rest)
        else
          let n : Int := naturalOfDigits 10 digits
          (some (if negative then -n else n), after)
      else (none, c :: rest)
  | [] => (none, [])

/-- A number without its sign. -/
def readMagnitude (negative : Bool) (text : List Char) : Reading Value :=
  let (whole, rest) :=
    match text with
    | '0' :: rest => (['0'], rest)
    | text => span Char.isDigit text
  if whole.isEmpty then .error .malformed else
  let (fraction, rest) := readFraction rest
  let (exponent, rest) := readExponent rest
  match fraction, exponent with
  | [], none => (boundedInteger negative whole).map fun n => (.int n, rest)
  | _, _ =>
      let digits := naturalOfDigits 10 (whole ++ fraction)
      let scale : Int := exponent.getD 0 - fraction.length
      .ok (.float (Binary64.ofDecimal negative digits scale), rest)

/-- A word or a number. -/
def readScalar : List Char → Reading Value
  | 'n' :: 'u' :: 'l' :: 'l' :: rest => .ok (.null, rest)
  | 't' :: 'r' :: 'u' :: 'e' :: rest => .ok (.bool true, rest)
  | 'f' :: 'a' :: 'l' :: 's' :: 'e' :: rest => .ok (.bool false, rest)
  | 'N' :: 'a' :: 'N' :: rest => .ok (.float Binary64.nan, rest)
  | 'I' :: 'n' :: 'f' :: 'i' :: 'n' :: 'i' :: 't' :: 'y' :: rest =>
      .ok (.float (Binary64.infinity false), rest)
  | '-' :: 'I' :: 'n' :: 'f' :: 'i' :: 'n' :: 'i' :: 't' :: 'y' :: rest =>
      .ok (.float (Binary64.infinity true), rest)
  | '-' :: rest => readMagnitude true rest
  | text => readMagnitude false text

mutual

/-- A value at the start of a text.  The first argument bounds the nesting and
the number of items together. -/
def readValue : Nat → List Char → Reading Value
  | 0, _ => .error .malformed
  | fuel + 1, text =>
      match text with
      | '"' :: rest => (readString rest).map fun read => (.str read.1, read.2)
      | '[' :: rest =>
          match skipSpace rest with
          | ']' :: after => .ok (.seq [], after)
          | inner => (readItems fuel inner).map fun read => (.seq read.1, read.2)
      | '\x7b' :: rest =>
          match skipSpace rest with
          | '\x7d' :: after => .ok (.map [], after)
          | inner =>
              (readMembers fuel inner).map fun read => (.map (Table.ofList read.1), read.2)
      | text => readScalar text

/-- The items of an array up to its closing bracket. -/
def readItems : Nat → List Char → Except Fault (List Value × List Char)
  | 0, _ => .error .malformed
  | fuel + 1, text => do
      let (item, rest) ← readValue fuel text
      match skipSpace rest with
      | ']' :: after => .ok ([item], after)
      | ',' :: more =>
          let (items, after) ← readItems fuel (skipSpace more)
          .ok (item :: items, after)
      | _ => .error .malformed

/-- The members of an object up to its closing brace. -/
def readMembers : Nat → List Char → Except Fault (List (Key × Value) × List Char)
  | 0, _ => .error .malformed
  | fuel + 1, text =>
      match text with
      | '"' :: start => do
          let (name, rest) ← readString start
          match skipSpace rest with
          | ':' :: more =>
              let (v, rest) ← readValue fuel (skipSpace more)
              match skipSpace rest with
              | '\x7d' :: after => .ok ([(Key.str name, v)], after)
              | ',' :: more =>
                  let (members, after) ← readMembers fuel (skipSpace more)
                  .ok ((Key.str name, v) :: members, after)
              | _ => .error .malformed
          | _ => .error .malformed
      | _ => .error .malformed

end

/-- The value that a whole text denotes. -/
def read (text : List Char) : Except Fault Value := do
  let (v, rest) ← readValue (2 * text.length + 2) (skipSpace text)
  if (skipSpace rest).isEmpty then .ok v else .error .malformed

end StyleAudit.Json
