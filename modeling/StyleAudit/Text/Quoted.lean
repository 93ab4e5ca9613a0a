/-
Module: StyleAudit.Text.Quoted
Purpose: Texts and bytes as messages quote them: between quotation marks, with escapes.
Trusted boundary: none
Main exports: hexDigits, quotationMark, escape, quoted, quotedBytes
-/
import StyleAudit.Text.Printable

namespace StyleAudit.Text

/-!
### Quoting

A quoted text stands between apostrophes, unless it holds an apostrophe and no
double quotation mark; then double quotation marks enclose it.  The enclosing
mark and the backslash are escaped, and so is every code point that is not
printable: with a letter for tab, line feed and carriage return, and otherwise
with two, four or eight hexadecimal digits.  So what is quoted holds characters only.
-/

/-- The lower-case hexadecimal digit of a number below sixteen. -/
def hexDigit (n : Nat) : Char :=
  if n < 10 then Char.ofNat (48 + n) else Char.ofNat (87 + n)

/-- The last `width` hexadecimal digits of a number. -/
def hexDigits : Nat → Nat → List Char
  | 0, _ => []
  | width + 1, n => hexDigits width (n / 16) ++ [hexDigit (n % 16)]

/-- The mark that encloses a quoted text. -/
def quotationMark (text : List Char) : Char :=
  if text.contains '\'' && !text.contains '"' then '"' else '\''

/-- One character inside a text enclosed by `mark`. -/
def escape (mark c : Char) : List Char :=
  if c = mark || c = '\\' then ['\\', c]
  else if c = '\t' then ['\\', 't']
  else if c = '\n' then ['\\', 'n']
  else if c = '\r' then ['\\', 'r']
  else if isPrintable c then [c]
  else if c.toNat < 256 then '\\' :: 'x' :: hexDigits 2 c.toNat
  else if c.toNat < 65536 then '\\' :: 'u' :: hexDigits 4 c.toNat
  else '\\' :: 'U' :: hexDigits 8 c.toNat

/-- One code point inside a text enclosed by `mark`. -/
def escapePoint (mark : Char) : CodePoint → List Char
  | .char c => escape mark c
  | .surrogate place => '\\' :: 'u' :: hexDigits 4 (CodePoint.surrogate place).value

/-- A text as a message quotes it. -/
def quoted (text : Text) : String :=
  let mark := quotationMark text.characters
  String.ofList (mark :: text.points.flatMap (escapePoint mark) ++ [mark])

/-- One byte inside bytes enclosed by `mark`: ASCII as in a text, and any other byte
by its two hexadecimal digits. -/
def escapeByte (mark : Char) (b : UInt8) : List Char :=
  if b.toNat < 127 then escape mark (Char.ofNat b.toNat)
  else '\\' :: 'x' :: hexDigits 2 b.toNat

/-- Bytes as a message quotes them, with a letter before the marks. -/
def quotedBytes (bytes : List UInt8) : String :=
  let mark := quotationMark (bytes.map fun b => Char.ofNat b.toNat)
  String.ofList ('b' :: mark :: bytes.flatMap (escapeByte mark) ++ [mark])

example : quoted "it's" = "\"it's\"" := by decide +kernel
example : quoted "a\n\x7f" = "'a\\n\\x7f'" := by decide +kernel
example : quoted ⟨[.char 'a', .surrogate 0xFF]⟩ = "'a\\ud8ff'" := by decide +kernel
example : quotedBytes [104, 0, 255] = "b'h\\x00\\xff'" := by decide +kernel

end StyleAudit.Text
