/-
Module: StyleAudit.Number.Notation
Purpose: Double-precision numbers as text.
Trusted boundary: none
Main exports: render
-/
import StyleAudit.Number.Shortest

namespace StyleAudit.Number

/-!
### Layout

A number is written with the fewest digits that identify it.  It is written
positionally, with at least one digit on either side of the point, when its
first digit stands for a power of ten from the minus fourth to the fifteenth;
otherwise with one digit before the point and a signed exponent of at least two
digits.  Zero keeps its sign.
-/

/-- The digits of a positive decimal without trailing zeros, and the power of
ten at the first of them. -/
def significantDigits (d : Decimal) : List Char × Int :=
  let digits := Nat.toDigits 10 d.digits
  let kept := (digits.reverse.dropWhile (· == '0')).reverse
  (kept, d.exponent + digits.length - 1)

/-- Digits with a point after the first one, in exponent form. -/
def scientific (digits : List Char) (power : Int) : List Char :=
  let mantissa :=
    match digits with
    | [] => ['0']
    | [d] => [d]
    | d :: rest => d :: '.' :: rest
  let size := Nat.toDigits 10 power.natAbs
  let padded := if size.length < 2 then '0' :: size else size
  mantissa ++ ['e', if power < 0 then '-' else '+'] ++ padded

/-- Digits with a point where the powers of ten change sign. -/
def positional (digits : List Char) (power : Int) : List Char :=
  if power < 0 then
    '0' :: '.' :: List.replicate (power.natAbs - 1) '0' ++ digits
  else
    let whole := power.natAbs + 1
    let before := digits.take whole ++ List.replicate (whole - digits.length) '0'
    let after := digits.drop whole
    before ++ '.' :: (if after.isEmpty then ['0'] else after)

/-- A number as text. -/
def render (x : Binary64) : String :=
  match x.shape with
  | .nan => "nan"
  | .infinite negative => if negative then "-inf" else "inf"
  | .finite negative significand exponent =>
      let digits :=
        if significand = 0 then ['0', '.', '0'] else
        let (kept, power) := significantDigits (shortest x.magnitude significand exponent)
        if -4 ≤ power && power < 16 then positional kept power else scientific kept power
      String.ofList (if negative then '-' :: digits else digits)

example : render (Binary64.ofDecimal false 1 (-1)) = "0.1" := by decide +kernel
example : render (Binary64.ofDecimal false 1 16) = "1e+16" := by decide +kernel
example : render (Binary64.zero true) = "-0.0" := by decide +kernel

end StyleAudit.Number
