/-
Module: StyleAudit.Number.Limit
Purpose: How many digits a decimal integer may have.
Trusted boundary: none
Main exports: digitLimit, isWritable
-/

namespace StyleAudit.Number

/-!
### The limit

Changing between an integer and its decimal digits takes time that grows with the
square of their number, so both directions are refused beyond a limit.  Longer
integers still exist: digits in a base that is a power of two are read without one.
-/

/-- Decimal integers of more digits than this are neither read nor written. -/
def digitLimit : Nat := 4300

/-- The least natural number with too many digits. -/
def leastUnwritable : Nat := Nat.pow 10 digitLimit

/-- The integer may be written in decimal digits. -/
def isWritable (n : Int) : Bool :=
  n.natAbs < leastUnwritable

end StyleAudit.Number
