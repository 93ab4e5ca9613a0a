/-
Module: StyleAudit.Yaml.Scalar
Purpose: The values of YAML scalars by their tags.
Trusted boundary: none
Main exports: integerValue, floatValue, boolValue, momentValue, scalarValue
-/
import StyleAudit.Format.Base64
import StyleAudit.Text.DecimalDigit
import StyleAudit.Value.Basic
import StyleAudit.Yaml.Tag

namespace StyleAudit.Yaml

open Format

/-!
### Numbers

Underscores are dropped wherever they stand.  A tag that is written gives a text
of any form, so reading may still fail.  Digits of any script are read, with white
space around them.
-/

/-- The text without underscores. -/
def ungroup (text : List Char) : List Char :=
  text.filter (· != '_')

/-- The text starts with a minus sign. -/
def isNegative (text : List Char) : Bool :=
  text.head? == some '-'

/-- The letter behind the zero that marks a base. -/
def baseLetter? : Nat → Option Char
  | 2 => some 'b'
  | 8 => some 'o'
  | 16 => some 'x'
  | _ => none

/-- The digits behind the mark of a base, when the mark is there. -/
def dropBaseMark (base : Nat) : List Char → List Char
  | '0' :: letter :: rest =>
      if some letter.toLower == baseLetter? base then rest else '0' :: letter :: rest
  | text => text

/-- An integer in a base, with blanks around it and a sign allowed. -/
def readInteger (base : Nat) (text : List Char) : Except Fault Int :=
  let trimmed := Text.trimPlain (Text.plainDigits text)
  let digits := dropBaseMark base (unsigned trimmed)
  if nonEmptyAll (isDigitOf base) digits then
    if base = 10 then boundedInteger (isNegative trimmed) digits
    else
      let n : Int := naturalOfDigits base digits
      .ok (if isNegative trimmed then -n else n)
  else .error .unrepresentable

/-- The value of an integer's text. -/
def integerValue (text : List Char) : Except Fault Int := do
  let written := ungroup text
  let size ←
    match unsigned written with
    | [] => .error .unrepresentable
    | ['0'] => .ok 0
    | '0' :: 'b' :: digits => readInteger 2 digits
    | '0' :: 'x' :: digits => readInteger 16 digits
    | '0' :: digits => readInteger 8 ('0' :: digits)
    | digits =>
        if digits.contains ':' then do
          let parts ← (Text.pieces ':' digits).mapM (readInteger 10)
          .ok (parts.foldl (fun n part => n * 60 + part) 0)
        else readInteger 10 digits
  .ok (if isNegative written then -size else size)

/-- A decimal number with an optional point and exponent. -/
def readDecimal (negative : Bool) (text : List Char) : Except Fault Binary64 :=
  let (whole, rest) := span Char.isDigit text
  let (fraction, rest) :=
    match rest with
    | '.' :: more => span Char.isDigit more
    | _ => ([], rest)
  let exponent : Option Int :=
    match rest with
    | [] => some 0
    | 'e' :: more =>
        if nonEmptyAll Char.isDigit (unsigned more) then
          let n : Int := naturalOfDigits 10 (unsigned more)
          some (if isNegative more then -n else n)
        else none
    | _ => none
  match exponent with
  | some exponent =>
      if whole.isEmpty && fraction.isEmpty then .error .unrepresentable
      else
        .ok (Binary64.ofDecimal negative (naturalOfDigits 10 (whole ++ fraction))
          (exponent - fraction.length))
  | none => .error .unrepresentable

/-- A float with blanks around it, a sign, or a word in place of digits. -/
def readFloat (text : List Char) : Except Fault Binary64 :=
  let trimmed := Text.trimPlain (Text.plainDigits text)
  let negative := isNegative trimmed
  let digits := unsigned trimmed
  if ["inf", "infinity"].contains (String.ofList digits) then .ok (Binary64.infinity negative)
  else if String.ofList digits == "nan" then .ok Binary64.nan
  else readDecimal negative digits

/-- The sum of the parts of a number in base sixty, the last part first, given what
the part at hand is worth.  A worth beyond all finite numbers denotes nothing. -/
def sumSixty (sum : Binary64) (worth : Nat) : List Binary64 → Except Fault Binary64
  | [] => .ok sum
  | part :: rest =>
      let factor := Binary64.ofRatio false worth 1
      if factor = Binary64.infinity false then .error .unrepresentable
      else sumSixty (sum.add (part.mul factor)) (worth * 60) rest

/-- The value of a float's text without a sign, which may hold parts in base sixty. -/
def unsignedFloat (digits : List Char) : Except Fault Binary64 :=
  if digits.contains ':' then do
    let parts ← (Text.pieces ':' digits).mapM readFloat
    sumSixty (Binary64.zero false) 1 parts.reverse
  else readFloat digits

/-- The value of a float's text.  The dotted word for no number always denotes the same;
any other text that denotes none gives one with the label. -/
def floatValue (label : Nat) (text : List Char) : Except Fault Binary64 :=
  let written := (ungroup text).map Char.toLower
  let signed (size : Binary64) : Binary64 := if isNegative written then size.negate else size
  match unsigned written with
  | [] => .error .unrepresentable
  | ['.', 'i', 'n', 'f'] => .ok (signed (Binary64.infinity false))
  | ['.', 'n', 'a', 'n'] => .ok Binary64.nan
  | digits =>
      (unsignedFloat digits).map fun size =>
        if size.shape = .nan then Binary64.labelledNan label else signed size

/-!
### Truth values and times
-/

/-- The truth value of a word in any case. -/
def boolValue (text : List Char) : Except Fault Bool :=
  let word := String.ofList (text.map Char.toLower)
  if ["yes", "true", "on"].contains word then .ok true
  else if ["no", "false", "off"].contains word then .ok false
  else .error .unrepresentable

/-- The microseconds that the digits of a fraction denote. -/
def microsecondsOf (digits : List Char) : Nat :=
  let kept := digits.take 6
  naturalOfDigits 10 kept * Nat.pow 10 (6 - kept.length)

/-- The moment that the parts of a time name. -/
def TimeText.moment (time : TimeText) : Moment :=
  let day : Day := ⟨time.year, time.month, time.day⟩
  match time.clock with
  | none => .date day
  | some (hour, minute, second, fraction) =>
      let clock : Clock := ⟨hour, minute, second, microsecondsOf fraction⟩
      match time.offset with
      | none => .floating day clock
      | some none => .zoned day clock 0
      | some (some (negative, hours, minutes)) =>
          let size : Int := hours * 60 + minutes
          .zoned day clock (if negative then -size else size)

/-- The moment of a time's text; a single line feed at its end does not count. -/
def momentValue (text : List Char) : Except Fault Moment :=
  match readTimeText? (dropFinalBreak text) with
  | some time => if time.moment.exists then .ok time.moment else .error .unrepresentable
  | none => .error .unrepresentable

/-- The bytes of a text in base sixty-four. -/
def bytesValue (text : List Char) : Except Fault (List UInt8) :=
  match Base64.decode? text with
  | some data => .ok data
  | none => .error .malformed

/-- The value of a scalar.  Tags of collections do not fit a scalar, and the marks
of merging and of default values denote nothing by themselves.  Only a text has a place for
half of a surrogate pair.  The label is that of a float which is no number. -/
def scalarValue (label : Nat) (tag : Tag) (text : Text) : Except Fault Value :=
  let chars := text.characters
  match tag with
  | .null => .ok .null
  | .bool => (boolValue chars).map .bool
  | .int => (integerValue chars).map .int
  | .float => (floatValue label chars).map .float
  | .timestamp => (momentValue chars).map .moment
  | .str => .ok (.str text)
  | .binary => (bytesValue chars).map .bytes
  | .seq | .map | .pairs | .set | .merge | .value | .unknown => .error .malformed

end StyleAudit.Yaml
