/-
Module: StyleAudit.Format.Fault
Purpose: Why a text in one of the data formats gives no value, and readings of its parts.
Trusted boundary: none
Main exports: Fault, Reading, naturalOfDigits, boundedInteger
-/
import StyleAudit.Number.Limit

namespace StyleAudit.Format

/-- Why a text gives no value.  A malformed text breaks the rules of its format, and an
unfinished one ends before they allow it; an unrepresentable one follows them, but a number
or date in it denotes nothing that this library can hold; and an undecodable one is no text,
since its bytes encode none. -/
inductive Fault where
  | malformed
  | unfinished
  | unrepresentable
  | undecodable
deriving DecidableEq, Repr

/-- What reading the start of a text gives: a result and the rest of the text. -/
abbrev Reading (α : Type) := Except Fault (α × List Char)

/-- The value of a digit in bases up to sixteen. -/
def digitValue? (c : Char) : Option Nat :=
  let n := c.toNat
  if 48 ≤ n && n ≤ 57 then some (n - 48)
  else if 97 ≤ n && n ≤ 102 then some (n - 87)
  else if 65 ≤ n && n ≤ 70 then some (n - 55)
  else none

/-- The character is a digit of the base. -/
def isDigitOf (base : Nat) (c : Char) : Bool :=
  match digitValue? c with
  | some d => d < base
  | none => false

/-- The natural number that digits denote; anything that is no digit is skipped. -/
def naturalOfDigits (base : Nat) (digits : List Char) : Nat :=
  digits.foldl (fun n c => match digitValue? c with
    | some d => n * base + d
    | none => n) 0

/-- A decimal integer, unless it has too many digits. -/
def boundedInteger (negative : Bool) (digits : List Char) : Except Fault Int :=
  if Number.digitLimit < digits.length then .error .unrepresentable
  else
    let n : Int := naturalOfDigits 10 digits
    .ok (if negative then -n else n)

/-- The longest start of a text with a property, and the rest. -/
def span (p : Char → Bool) (text : List Char) : List Char × List Char :=
  (text.takeWhile p, text.dropWhile p)

/-- Nothing is lost when a start is split off. -/
theorem span_append (p : Char → Bool) (text : List Char) :
    (span p text).1 ++ (span p text).2 = text :=
  List.takeWhile_append_dropWhile

end StyleAudit.Format
