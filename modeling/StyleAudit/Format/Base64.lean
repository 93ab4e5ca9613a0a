/-
Module: StyleAudit.Format.Base64
Purpose: The bytes that a text in base sixty-four spells.
Trusted boundary: none
Main exports: Base64.sextet?, Base64.decode?
-/

namespace StyleAudit.Format.Base64

/-!
### Base sixty-four

Four characters of six bits each spell three bytes.  A group at the end may have two
or three characters when padding marks fill it up; the text ends there, whatever
follows.  Characters that stand for no bits are passed over, and so is a padding
mark that completes no group.
-/

/-- The six bits that a character stands for. -/
def sextet? (c : Char) : Option Nat :=
  let n := c.toNat
  if 65 ≤ n && n ≤ 90 then some (n - 65)
  else if 97 ≤ n && n ≤ 122 then some (n - 71)
  else if 48 ≤ n && n ≤ 57 then some (n + 4)
  else if c = '+' then some 62
  else if c = '/' then some 63
  else none

/-- The bytes of a text, given how many characters of a group were seen, the bits of
the last one that belong to the next byte, and how many padding marks followed it. -/
def decodeFrom : Nat → Nat → Nat → List Char → Option (List UInt8)
  | seen, _, _, [] => if seen = 0 then some [] else none
  | seen, left, marks, c :: rest =>
      if c = '=' then
        if seen < 2 then decodeFrom seen left marks rest
        else if 4 ≤ seen + marks + 1 then some []
        else decodeFrom seen left (marks + 1) rest
      else
        match sextet? c with
        | none => decodeFrom seen left marks rest
        | some bits =>
            match seen with
            | 0 => decodeFrom 1 bits 0 rest
            | 1 => (decodeFrom 2 (bits % 16) 0 rest).map (UInt8.ofNat (left * 4 + bits / 16) :: ·)
            | 2 => (decodeFrom 3 (bits % 4) 0 rest).map (UInt8.ofNat (left * 16 + bits / 4) :: ·)
            | _ => (decodeFrom 0 0 0 rest).map (UInt8.ofNat (left * 64 + bits) :: ·)

/-- The bytes that a text spells, if its last group is complete.  Only ASCII texts
spell any. -/
def decode? (text : List Char) : Option (List UInt8) :=
  if text.all fun c => c.toNat < 128 then decodeFrom 0 0 0 text else none

example : decode? "aGk=".toList = some [104, 105] := by decide +kernel
example : decode? "aG\nk=!".toList = some [104, 105] := by decide +kernel
example : decode? "x".toList = none := by decide +kernel

end StyleAudit.Format.Base64
