/-
Module: StyleAudit.Value.SetOrder
Purpose: The order in which a set of numbers shows its members.
Trusted boundary: none
Main exports: Key.hash?, Slots, Slots.insert, Slots.ofMembers, Slots.copy, shownMembers
-/
import StyleAudit.Value.Basic

namespace StyleAudit

/-!
### Hashes

The hash of a number is its value modulo a prime, where a division by two is one modulo
that prime, and the sign is kept.  So numbers that are one key have one hash.  Minus one
is no hash.  Infinities have a hash of their own, and only numbers have hashes here.
-/

/-- The prime of the hashes. -/
def hashPrime : Nat := Nat.pow 2 61 - 1

/-- The hash of positive infinity. -/
def infinityHash : Int := 314159

/-- The hash of a ratio whose denominator is a power of two. -/
def ratioHash (num : Int) (den : Nat) : Int :=
  let halvings := Nat.log2 den % 61
  let size : Int := (num.natAbs % hashPrime * Nat.pow 2 (61 - halvings) % hashPrime : Nat)
  let signed := if num < 0 then -size else size
  if signed = -1 then -2 else signed

/-- The hash of a key that is a number, as a word of sixty-four bits. -/
def Key.hash? (k : Key) : Option Nat :=
  let word (hash : Int) : Nat := (hash % Nat.pow 2 64).toNat
  match k.identity with
  | .number n => some (word (ratioHash n 1))
  | .fraction x =>
      match x.toRatio?, x.shape with
      | some (num, den), _ => some (word (ratioHash num den))
      | none, .infinite negative => some (word (if negative then -infinityHash else infinityHash))
      | none, _ => none
  | _ => none

/-!
### Slots

A set keeps its members in slots, whose number is a power of two and grows with the set.
A member stands in the first free slot of those that its hash leads to, so the slots in
order give the members in an order of their own.
-/

/-- The slots of a set; each is free or holds a member with its hash. -/
abbrev Slots := Array (Option (Nat × Key))

namespace Slots

/-- Free slots. -/
def free (count : Nat) : Slots := Array.replicate count none

/-- How many slots a new set has. -/
def leastCount : Nat := 8

/-- How many neighbours of a slot are tried before the search goes elsewhere. -/
def neighbours : Nat := 9

/-- The first free slot that a hash leads to from one on, with the part of the hash that
still has a say.  The first argument bounds the number of moves. -/
def place? (slots : Slots) : Nat → Nat → Nat → Option Nat
  | 0, _, _ => none
  | moves + 1, start, hash =>
      let run := if start + neighbours < slots.size then neighbours + 1 else 1
      match (List.range run).find? fun i => slots[start + i]?.join.isNone with
      | some i => some (start + i)
      | none =>
          let hash := hash / 32
          place? slots moves ((start * 5 + 1 + hash) % slots.size) hash

/-- Puts a member with its hash into a slot. -/
def put (member : Nat × Key) (slots : Slots) : Slots :=
  match slots.place? (slots.size + 64) (member.1 % slots.size) member.1 with
  | some i => slots.set! i (some member)
  | none => slots

/-- What the slots hold, in order. -/
def held (slots : Slots) : List (Nat × Key) :=
  slots.toList.filterMap id

/-- The least number of slots above a number. -/
def countAbove (n : Nat) : Nat :=
  max leastCount (Nat.pow 2 (Nat.log2 n + 1))

/-- The slots are so full that their number has to grow. -/
def isFull (slots : Slots) (used : Nat) : Bool :=
  (slots.size - 1) * 3 ≤ used * 5

/-- The members moved to slots of another number, in order. -/
def resize (count : Nat) (slots : Slots) : Slots :=
  slots.held.foldl (fun slots member => slots.put member) (free count)

/-- Adds a member; full slots grow to more than four times the number of members. -/
def insert (slots : Slots) (member : Nat × Key) : Slots :=
  let slots := slots.put member
  let used := slots.held.length
  if slots.isFull used then slots.resize (countAbove (4 * used)) else slots

/-- The slots of a set that is made of a known number of members at once. -/
def ofMembers (members : List (Nat × Key)) : Slots :=
  let start := free leastCount
  let count := members.length
  members.foldl insert (if start.isFull count then free (countAbove (2 * count)) else start)

/-- The slots of a copy, to which the members are added one by one. -/
def copy (slots : Slots) : Slots :=
  slots.held.foldl insert (free leastCount)

end Slots

/-- The members of a set in the order in which it is shown.  A set is made at once, and
copied where it is taken over from a file and where it is made ready for use.  A set that
does not only hold numbers is shown as it was written. -/
def shownMembers (members : List Key) : List Key :=
  match members.mapM fun k => k.hash?.map fun hash => (hash, k) with
  | some hashed => (Slots.ofMembers hashed).copy.copy.held.map (·.2)
  | none => members

example : shownMembers [.int 8, .int 1] = [.int 8, .int 1] := by decide +kernel
example : shownMembers [.int (-1), .int 1, .int 0] = [.int 0, .int 1, .int (-1)] := by
  decide +kernel

end StyleAudit
