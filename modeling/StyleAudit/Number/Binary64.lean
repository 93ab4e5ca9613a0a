/-
Module: StyleAudit.Number.Binary64
Purpose: Double-precision numbers as bit patterns, and rounding to the nearest one.
Trusted boundary: none
Main exports: Binary64, Binary64.Shape, Binary64.shape, Binary64.ofRatio, Binary64.ofDecimal,
  Binary64.add, Binary64.mul
-/

namespace StyleAudit

/-!
### Double-precision numbers

A number is kept as its 64 bits, so that two numbers are equal exactly when they
are written alike: minus zero differs from zero, and a not-a-number pattern
equals itself only.  No operation of the processor is used.  Reading a decimal rounds
its exact value, a ratio of two natural numbers, to the nearest representable
one, and of two equally near ones takes the one with the even significand.
-/

/-- A double-precision number, given by its bits. -/
structure Binary64 where
  bits : UInt64
deriving DecidableEq, Repr, Inhabited

namespace Binary64

/-- What a bit pattern denotes.  A finite number is its significand times two to
the power of its exponent, with a sign. -/
inductive Shape where
  | nan
  | infinite (negative : Bool)
  | finite (negative : Bool) (significand : Nat) (exponent : Int)
deriving DecidableEq, Repr

/-- Puts the sign, the biased exponent and the fraction into one word. -/
def pack (negative : Bool) (biased fraction : Nat) : Binary64 :=
  ⟨UInt64.ofNat ((if negative then Nat.pow 2 63 else 0) + biased * Nat.pow 2 52 + fraction)⟩

/-- The sign bit. -/
def isNegative (x : Binary64) : Bool :=
  Nat.pow 2 63 ≤ x.bits.toNat

/-- The value denoted by a bit pattern. -/
def shape (x : Binary64) : Shape :=
  let fraction : Nat := x.bits.toNat % Nat.pow 2 52
  let biased : Nat := x.bits.toNat / Nat.pow 2 52 % Nat.pow 2 11
  if biased = 2047 then
    if fraction = 0 then .infinite x.isNegative else .nan
  else if biased = 0 then .finite x.isNegative fraction (-1074)
  else .finite x.isNegative (Nat.pow 2 52 + fraction) ((biased : Int) - 1075)

/-- Infinity of either sign. -/
def infinity (negative : Bool) : Binary64 :=
  pack negative 2047 0

/-- A not-a-number with a label, by which it is told apart from others. -/
def labelledNan (label : Nat) : Binary64 :=
  pack false 2047 (Nat.pow 2 51 + label)

/-- The not-a-number without a label. -/
def nan : Binary64 :=
  labelledNan 0

/-- Zero of either sign. -/
def zero (negative : Bool) : Binary64 :=
  pack negative 0 0

/-- The quotient rounded to the nearest natural number, a half to the even one. -/
def roundHalfEven (num den : Nat) : Nat :=
  let quotient := num / den
  let twice := 2 * (num % den)
  if twice < den then quotient
  else if den < twice then quotient + 1
  else quotient + quotient % 2

/-- Scales a ratio by two to the power of minus `exponent`. -/
def scaleDown (num den : Nat) (exponent : Int) : Nat × Nat :=
  if exponent < 0 then (num * Nat.pow 2 exponent.natAbs, den)
  else (num, den * Nat.pow 2 exponent.natAbs)

/-- The number nearest to a positive ratio.  The exponent is chosen so that the
significand has 53 bits, or as small as exponents go. -/
def ofRatio (negative : Bool) (num den : Nat) : Binary64 :=
  if num = 0 then zero negative else
  let low : Int := (Nat.log2 num : Int) - (Nat.log2 den : Int) - 53
  let atLow := scaleDown num den low
  let fitted := if atLow.1 / atLow.2 < Nat.pow 2 53 then low else low + 1
  let exponent := max fitted (-1074)
  let scaled := scaleDown num den exponent
  let rounded := roundHalfEven scaled.1 scaled.2
  let carried := rounded = Nat.pow 2 53
  let significand := if carried then Nat.pow 2 52 else rounded
  let final := if carried then exponent + 1 else exponent
  if significand < Nat.pow 2 52 then pack negative 0 significand
  else if 971 < final then infinity negative
  else pack negative (final + 1075).toNat (significand - Nat.pow 2 52)

/-- The number nearest to `digits` times ten to the power of `exponent`.  Values
far beyond the range are settled by their magnitude alone. -/
def ofDecimal (negative : Bool) (digits : Nat) (exponent : Int) : Binary64 :=
  if digits = 0 then zero negative else
  let size := Nat.log2 digits
  if 400 < (size * 3 / 10 : Nat) + exponent then infinity negative
  else if ((size + 1) / 3 + 1 : Nat) + exponent < -400 then zero negative
  else if exponent < 0 then ofRatio negative digits (Nat.pow 10 exponent.natAbs)
  else ofRatio negative (digits * Nat.pow 10 exponent.natAbs) 1

/-- The exact integer that a number denotes, when it denotes one. -/
def toInt? (x : Binary64) : Option Int :=
  match x.shape with
  | .finite negative significand exponent =>
      let signed (n : Nat) : Int := if negative then -n else n
      if 0 ≤ exponent then some (signed (significand * Nat.pow 2 exponent.natAbs))
      else if significand % Nat.pow 2 exponent.natAbs = 0 then
        some (signed (significand / Nat.pow 2 exponent.natAbs))
      else none
  | _ => none

/-- Zero of either sign is the only number that counts as nothing. -/
def isZero (x : Binary64) : Bool :=
  x.bits.toNat % Nat.pow 2 63 = 0

/-- The bits without the sign. -/
def magnitude (x : Binary64) : Binary64 :=
  ⟨UInt64.ofNat (x.bits.toNat % Nat.pow 2 63)⟩

/-- The number with the opposite sign. -/
def negate (x : Binary64) : Binary64 :=
  if x.isNegative then x.magnitude else ⟨UInt64.ofNat (x.bits.toNat + Nat.pow 2 63)⟩

/-- The exact value of a finite number, as a ratio. -/
def toRatio? (x : Binary64) : Option (Int × Nat) :=
  match x.shape with
  | .finite negative significand exponent =>
      let signed (n : Nat) : Int := if negative then -n else n
      if exponent < 0 then some (signed significand, Nat.pow 2 exponent.natAbs)
      else some (signed (significand * Nat.pow 2 exponent.natAbs), 1)
  | _ => none

/-- The product of two numbers, rounded. -/
def mul (x y : Binary64) : Binary64 :=
  let negative := x.isNegative != y.isNegative
  match x.toRatio?, y.toRatio? with
  | some (a, b), some (c, d) => ofRatio negative (a.natAbs * c.natAbs) (b * d)
  | _, _ =>
      if x.shape = .nan || y.shape = .nan || x.isZero || y.isZero then nan
      else infinity negative

/-- The sum of two numbers, rounded. -/
def add (x y : Binary64) : Binary64 :=
  match x.shape, y.shape with
  | .nan, _ => nan
  | _, .nan => nan
  | .infinite p, .infinite q => if p = q then infinity p else nan
  | .infinite p, _ => infinity p
  | _, .infinite q => infinity q
  | _, _ =>
      match x.toRatio?, y.toRatio? with
      | some (a, b), some (c, d) =>
          let sum := a * d + c * b
          if sum = 0 then zero (x.isNegative && y.isNegative)
          else ofRatio (sum < 0) sum.natAbs (b * d)
      | _, _ => nan

example : add (ofDecimal false 1 (-1)) (ofDecimal false 2 (-1))
    = ofDecimal false 30000000000000004 (-17) := by decide +kernel
example : mul (infinity true) (ofDecimal false 60 0) = infinity true := by decide +kernel
example : ofDecimal false 1 (-1) = ⟨0x3FB999999999999A⟩ := by decide +kernel
example : ofDecimal true 5 (-324) = ⟨0x8000000000000001⟩ := by decide +kernel
example : ofDecimal false 1 309 = infinity false := by decide +kernel

end Binary64

end StyleAudit
