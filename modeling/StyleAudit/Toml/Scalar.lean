/-
Module: StyleAudit.Toml.Scalar
Purpose: The strings, numbers, dates and times of TOML.
Trusted boundary: none
Main exports: Toml.readString?, Toml.readMoment?, Toml.readNumber?, Toml.readWord?
-/
import StyleAudit.Format.Fault
import StyleAudit.Value.Basic

namespace StyleAudit.Toml

open Format

/-!
### Strings

A string stands between quotation marks, with escapes, or between apostrophes,
without.  Three marks open a string that may span lines; a line break right
behind them is dropped, and up to two more marks before the closing three belong
to the string.  In such a string a backslash at the end of a line joins the line
to the next character that is no white space.
-/

/-- A control character, which no string and no comment may hold, the tab
excepted. -/
def isControl (c : Char) : Bool :=
  (c.toNat < 32 && c != '\t') || c.toNat == 127

/-- White space inside a line. -/
def isSpace (c : Char) : Bool :=
  c == ' ' || c == '\t'

/-- White space that may hold line breaks. -/
def isSpaceOrBreak (c : Char) : Bool :=
  isSpace c || c == '\n'

/-- The character that a one-letter escape stands for. -/
def shortEscape? : Char → Option Char
  | 'b' => some '\x08'
  | 't' => some '\t'
  | 'n' => some '\n'
  | 'f' => some '\x0c'
  | 'r' => some '\r'
  | '"' => some '"'
  | '\\' => some '\\'
  | _ => none

/-- The character that hexadecimal digits denote, unless they denote half a
surrogate pair or nothing. -/
def characterOfHex? (digits : List Char) : Option Char :=
  if digits.all (isDigitOf 16) then
    let code := naturalOfDigits 16 digits
    if h : code.isValidChar then some (Char.ofNatAux code h) else none
  else none

/-- Where the reader of a string stands: in its text, behind a backslash that
must be followed by a line break, or in the white space behind such a break. -/
inductive Place where
  | text
  | beforeBreak
  | afterBreak
deriving DecidableEq, Repr

/-- The closing marks of a string over several lines: the marks that still belong
to it, and the rest of the text. -/
def closing? (mark : Char) : List Char → Option (List Char × List Char)
  | a :: b :: c :: rest =>
      if a = mark && b = mark && c = mark then
        match rest with
        | d :: e :: after =>
            if d = mark && e = mark then some ([mark, mark], after)
            else if d = mark then some ([mark], e :: after)
            else some ([], rest)
        | [d] => if d = mark then some ([mark], []) else some ([], [d])
        | [] => some ([], [])
      else none
  | _ => none

/-- A string with escapes, from behind its opening marks. -/
def readEscaped (lines : Bool) : Place → List Char → Reading (List Char)
  | _, [] => .error .malformed
  | .beforeBreak, c :: rest =>
      if isSpace c then readEscaped lines .beforeBreak rest
      else if c = '\n' then readEscaped lines .afterBreak rest
      else .error .malformed
  | place, c :: rest =>
      let continued (meant : Char) (read : Reading (List Char)) : Reading (List Char) :=
        read.map fun (text, after) => (meant :: text, after)
      if place = .afterBreak && isSpaceOrBreak c then readEscaped lines .afterBreak rest
      else if c = '"' then
        if lines then
          match closing? '"' (c :: rest) with
          | some closed => .ok closed
          | none => continued c (readEscaped lines .text rest)
        else .ok ([], rest)
      else if c = '\\' then
        match rest with
        | 'u' :: a :: b :: c :: d :: after =>
            match characterOfHex? [a, b, c, d] with
            | some meant => continued meant (readEscaped lines .text after)
            | none => .error .malformed
        | 'U' :: a :: b :: c :: d :: e :: f :: g :: h :: after =>
            match characterOfHex? [a, b, c, d, e, f, g, h] with
            | some meant => continued meant (readEscaped lines .text after)
            | none => .error .malformed
        | e :: after =>
            if lines && e = '\n' then readEscaped lines .afterBreak after
            else if lines && isSpace e then readEscaped lines .beforeBreak after
            else
              match shortEscape? e with
              | some meant => continued meant (readEscaped lines .text after)
              | none => .error .malformed
        | [] => .error .malformed
      else if isControl c && !(lines && c = '\n') then .error .malformed
      else continued c (readEscaped lines .text rest)

/-- A string without escapes, from behind its opening marks. -/
def readLiteral (lines : Bool) : List Char → Reading (List Char)
  | [] => .error .malformed
  | c :: rest =>
      let continued : Reading (List Char) :=
        (readLiteral lines rest).map fun (text, after) => (c :: text, after)
      if c = '\'' then
        if lines then
          match closing? '\'' (c :: rest) with
          | some closed => .ok closed
          | none => continued
        else .ok ([], rest)
      else if isControl c && !(lines && c = '\n') then .error .malformed
      else continued

/-- The text behind a line break at its start, when there is one. -/
def dropBreak : List Char → List Char
  | '\n' :: rest => rest
  | text => text

/-- A string on one line, from its opening mark. -/
def readLineString? : List Char → Option (Reading String)
  | '"' :: rest => some ((readEscaped false .text rest).map fun (s, r) => (String.ofList s, r))
  | '\'' :: rest => some ((readLiteral false rest).map fun (s, r) => (String.ofList s, r))
  | _ => none

/-- A string of any of the four kinds, from its opening marks. -/
def readString? : List Char → Option (Reading String)
  | '"' :: '"' :: '"' :: rest =>
      some ((readEscaped true .text (dropBreak rest)).map fun (s, r) => (String.ofList s, r))
  | '\'' :: '\'' :: '\'' :: rest =>
      some ((readLiteral true (dropBreak rest)).map fun (s, r) => (String.ofList s, r))
  | text => readLineString? text

/-!
### Dates and times

Fields have a fixed number of digits.  A date may be followed by a time, behind
a space or the letter T, and a time by an offset.  Seconds may have a fraction,
of which six digits count.
-/

/-- Exactly `count` decimal digits. -/
def readDigits? (count : Nat) (text : List Char) : Option (Nat × List Char) :=
  let digits := text.take count
  if digits.length = count && digits.all Char.isDigit then
    some (naturalOfDigits 10 digits, text.drop count)
  else none

/-- A number of two digits between bounds. -/
def readField? (low high : Nat) (text : List Char) : Option (Nat × List Char) := do
  let (n, rest) ← readDigits? 2 text
  if low ≤ n && n ≤ high then some (n, rest) else none

/-- The text behind an expected character. -/
def expect? (c : Char) : List Char → Option (List Char)
  | d :: rest => if d = c then some rest else none
  | [] => none

/-- The microseconds that the digits of a fraction denote. -/
def microsecondsOf (digits : List Char) : Nat :=
  let kept := digits.take 6
  naturalOfDigits 10 kept * Nat.pow 10 (6 - kept.length)

/-- A time of day. -/
def readClock? (text : List Char) : Option (Clock × List Char) := do
  let (hour, rest) ← readField? 0 23 text
  let rest ← expect? ':' rest
  let (minute, rest) ← readField? 0 59 rest
  let rest ← expect? ':' rest
  let (second, rest) ← readField? 0 59 rest
  match rest with
  | '.' :: more =>
      let (digits, after) := span Char.isDigit more
      if digits.isEmpty then some (⟨hour, minute, second, 0⟩, rest)
      else some (⟨hour, minute, second, microsecondsOf digits⟩, after)
  | _ => some (⟨hour, minute, second, 0⟩, rest)

/-- An offset from universal time in minutes. -/
def readOffset? : List Char → Option (Int × List Char)
  | c :: rest =>
      if c = 'Z' || c = 'z' then some (0, rest)
      else if c = '+' || c = '-' then do
        let (hour, rest) ← readField? 0 23 rest
        let rest ← expect? ':' rest
        let (minute, rest) ← readField? 0 59 rest
        let size : Int := hour * 60 + minute
        some (if c = '-' then -size else size, rest)
      else none
  | [] => none

/-- A day written with four, two and two digits. -/
def readDay? (text : List Char) : Option (Day × List Char) := do
  let (year, rest) ← readDigits? 4 text
  let rest ← expect? '-' rest
  let (month, rest) ← readField? 1 12 rest
  let rest ← expect? '-' rest
  let (day, rest) ← readField? 1 31 rest
  some (⟨year, month, day⟩, rest)

/-- The time behind a date, behind its mark. -/
def readClockAfterDay? : List Char → Option (Clock × List Char)
  | c :: rest => if c = 'T' || c = 't' || c = ' ' then readClock? rest else none
  | [] => none

/-- A date, with or without a time and an offset, or a time of day. -/
def readMoment? (text : List Char) : Option (Reading Value) :=
  match readDay? text with
  | some (day, rest) =>
      let (moment, after) : Moment × List Char :=
        match readClockAfterDay? rest with
        | some (clock, rest) =>
            match readOffset? rest with
            | some (offset, after) => (.zoned day clock offset, after)
            | none => (.floating day clock, rest)
        | none => (.date day, rest)
      some (if moment.exists then .ok (.moment moment, after) else .error .malformed)
  | none =>
      (readClock? text).map fun (clock, rest) => .ok (.moment (.time clock), rest)

/-!
### Numbers

Digits may be grouped by single underscores between them.  Integers in base
sixteen, eight and two carry no sign.  A decimal integer has no needless leading
zero.
-/

/-- The digits behind the first one, single underscores between them dropped. -/
def readMoreDigits (p : Char → Bool) : List Char → List Char × List Char
  | '_' :: c :: rest =>
      if p c then
        let (digits, after) := readMoreDigits p rest
        (c :: digits, after)
      else ([], '_' :: c :: rest)
  | c :: rest =>
      if p c then
        let (digits, after) := readMoreDigits p rest
        (c :: digits, after)
      else ([], c :: rest)
  | [] => ([], [])

/-- At least one digit, with single underscores between digits. -/
def readGrouped? (p : Char → Bool) : List Char → Option (List Char × List Char)
  | c :: rest =>
      if p c then
        let (digits, after) := readMoreDigits p rest
        some (c :: digits, after)
      else none
  | [] => none

/-- An integer in base sixteen, eight or two. -/
def readBased? : List Char → Option (Value × List Char)
  | '0' :: letter :: rest =>
      let inBase (base : Nat) : Option (Value × List Char) :=
        (readGrouped? (isDigitOf base) rest).map fun (digits, after) =>
          (.int (naturalOfDigits base digits), after)
      match letter with
      | 'x' => inBase 16
      | 'b' => inBase 2
      | 'o' => inBase 8
      | _ => none
  | _ => none

/-- The sign of a number, and the rest. -/
def readSign : List Char → Bool × List Char
  | '+' :: rest => (false, rest)
  | '-' :: rest => (true, rest)
  | text => (false, text)

/-- The whole part of a decimal number. -/
def readWhole? : List Char → Option (List Char × List Char)
  | '0' :: rest => some (['0'], rest)
  | text => readGrouped? Char.isDigit text

/-- The fraction of a decimal number, when there is one. -/
def readFraction : List Char → List Char × List Char
  | '.' :: rest =>
      match readGrouped? Char.isDigit rest with
      | some (digits, after) => (digits, after)
      | none => ([], '.' :: rest)
  | text => ([], text)

/-- The exponent of a decimal number, when there is one. -/
def readExponent : List Char → Option Int × List Char
  | c :: rest =>
      if c = 'e' || c = 'E' then
        let (negative, unsigned) := readSign rest
        match readGrouped? Char.isDigit unsigned with
        | some (digits, after) =>
            let n : Int := naturalOfDigits 10 digits
            (some (if negative then -n else n), after)
        | none => (none, c :: rest)
      else (none, c :: rest)
  | [] => (none, [])

/-- A decimal number: a float when it has a fraction or an exponent. -/
def readDecimal? (text : List Char) : Option (Reading Value) := do
  let (negative, unsigned) := readSign text
  let (whole, rest) ← readWhole? unsigned
  let (fraction, rest) := readFraction rest
  let (exponent, rest) := readExponent rest
  match fraction, exponent with
  | [], none => some ((boundedInteger negative whole).map fun n => (.int n, rest))
  | _, _ =>
      let digits := naturalOfDigits 10 (whole ++ fraction)
      let scale : Int := exponent.getD 0 - fraction.length
      some (.ok (.float (Binary64.ofDecimal negative digits scale), rest))

/-- An infinity or a number that is none, with or without a sign. -/
def readSpecial? (text : List Char) : Option (Value × List Char) :=
  let (negative, rest) := readSign text
  match rest with
  | 'i' :: 'n' :: 'f' :: after => some (.float (Binary64.infinity negative), after)
  | 'n' :: 'a' :: 'n' :: after => some (.float Binary64.nan, after)
  | _ => none

/-- A number of any kind. -/
def readNumber? (text : List Char) : Option (Reading Value) :=
  match readBased? text with
  | some read => some (.ok read)
  | none =>
      match readDecimal? text with
      | some read => some read
      | none => (readSpecial? text).map .ok

/-- A truth value. -/
def readWord? : List Char → Option (Value × List Char)
  | 't' :: 'r' :: 'u' :: 'e' :: rest => some (.bool true, rest)
  | 'f' :: 'a' :: 'l' :: 's' :: 'e' :: rest => some (.bool false, rest)
  | _ => none

end StyleAudit.Toml
