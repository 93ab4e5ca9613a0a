/-
Module: StyleAudit.Number.Shortest
Purpose: The fewest decimal digits that identify a double-precision number.
Trusted boundary: none
Main exports: Decimal, decimalExponent, shortest
-/
import StyleAudit.Number.Binary64

namespace StyleAudit.Number

/-!
### The fewest digits

A decimal identifies a number when rounding its exact value yields that number.
For each count of digits only the two neighbours of the number on the grid of
that many digits can do so; the nearer one is tried first.  The first count with
a hit gives the shortest decimal.  Seventeen digits always suffice.
-/

/-- The value `digits` times ten to the power of `exponent`. -/
structure Decimal where
  digits : Nat
  exponent : Int
deriving DecidableEq, Repr

/-- How many decimal digits a natural number has; zero has one. -/
def decimalLength (n : Nat) : Nat :=
  (Nat.toDigits 10 n).length

/-- The exact value of a finite number without its sign, as a ratio. -/
def ratio (significand : Nat) (exponent : Int) : Nat × Nat :=
  if exponent < 0 then (significand, Nat.pow 2 exponent.natAbs)
  else (significand * Nat.pow 2 exponent.natAbs, 1)

/-- The power of ten at the first digit of a positive ratio. -/
def decimalExponent (num den : Nat) : Int :=
  let guess : Int := (decimalLength num : Int) - (decimalLength den : Int)
  let reached :=
    if guess < 0 then den ≤ num * Nat.pow 10 guess.natAbs else den * Nat.pow 10 guess.natAbs ≤ num
  if reached then guess else guess - 1

/-- The two neighbours of a ratio on the grid of steps of ten to the power of
`exponent`, the nearer one first. -/
def neighbours (num den : Nat) (exponent : Int) : List Decimal :=
  let scaled :=
    if exponent < 0 then (num * Nat.pow 10 exponent.natAbs, den)
    else (num, den * Nat.pow 10 exponent.natAbs)
  let below := scaled.1 / scaled.2
  let twice := 2 * (scaled.1 % scaled.2)
  let up := scaled.2 < twice || (scaled.2 = twice && below % 2 = 1)
  if up then [⟨below + 1, exponent⟩, ⟨below, exponent⟩]
  else [⟨below, exponent⟩, ⟨below + 1, exponent⟩]

/-- The decimal rounds to the given number. -/
def identifies (x : Binary64) (d : Decimal) : Bool :=
  Binary64.ofDecimal false d.digits d.exponent == x

/-- The shortest decimal that identifies a positive number, its digits counted
from one upwards. -/
def shortest (x : Binary64) (significand : Nat) (exponent : Int) : Decimal :=
  let value := ratio significand exponent
  let first := decimalExponent value.1 value.2
  let grid (count : Nat) : List Decimal := neighbours value.1 value.2 (first - count)
  ((List.range 17).findSome? fun count => (grid count).find? (identifies x)).getD
    ⟨0, 0⟩

end StyleAudit.Number
