/-
Module: StyleAudit.Text.DecimalDigit
Purpose: The decimal digits of all scripts, and texts of numbers with ASCII digits only.
Trusted boundary: the table of zeros (Unicode 14)
Main exports: zeros, decimalDigit?, plainDigits, trimPlain
-/
import StyleAudit.Text.Blank

namespace StyleAudit.Text

/-!
### Decimal digits

Every script that writes decimal numbers has ten digits in a row, so a table of the
zeros gives the value of each digit.  Superscripts and other numerals are no digits.
-/

/-- The code points of the zeros beyond ASCII. -/
def zeros : List Nat :=
  [1632, 1776, 1984, 2406, 2534, 2662, 2790, 2918, 3046, 3174, 3302, 3430, 3558, 3664, 3792,
    3872, 4160, 4240, 6112, 6160, 6470, 6608, 6784, 6800, 6992, 7088, 7232, 7248, 42528, 43216,
    43264, 43472, 43504, 43600, 44016, 65296, 66720, 68912, 69734, 69872, 69942, 70096, 70384,
    70736, 70864, 71248, 71360, 71472, 71904, 72016, 72784, 73040, 73120, 92768, 92864, 93008,
    120782, 120792, 120802, 120812, 120822, 123200, 123632, 125264, 130032]

/-- The value of a decimal digit beyond ASCII. -/
def decimalDigit? (c : Char) : Option Nat :=
  (zeros.find? fun first => first ≤ c.toNat && c.toNat < first + 10).map fun first =>
    c.toNat - first

/-!
### Texts of numbers

A number may be written with the digits of any script and with any white space
around it.  Both are replaced by their ASCII forms first.  ASCII itself is left
alone, so the four information separators are no white space here.
-/

/-- A character as texts of numbers are read: ASCII for digits and white space. -/
def plainDigit (c : Char) : Char :=
  if c.toNat < 127 then c
  else if isBlank c then ' '
  else
    match decimalDigit? c with
    | some value => Char.ofNat (48 + value)
    | none => c

/-- A text of a number with digits and white space in ASCII. -/
def plainDigits (text : List Char) : List Char :=
  text.map plainDigit

/-- A space or one of the five ASCII controls that move the writing position. -/
def isPlainBlank (c : Char) : Bool :=
  c == ' ' || (9 ≤ c.toNat && c.toNat ≤ 13)

/-- A text without the ASCII white space at either end. -/
def trimPlain (text : List Char) : List Char :=
  ((text.dropWhile isPlainBlank).reverse.dropWhile isPlainBlank).reverse

/-- Every digit of the table is read as the ASCII digit of its value. -/
theorem plainDigit_of_decimalDigit {c : Char} {value : Nat} (ascii : ¬ c.toNat < 127)
    (ink : isBlank c = false) (h : decimalDigit? c = some value) :
    plainDigit c = Char.ofNat (48 + value) := by
  simp [plainDigit, ascii, ink, h]

end StyleAudit.Text
