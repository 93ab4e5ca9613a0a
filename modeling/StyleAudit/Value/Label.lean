/-
Module: StyleAudit.Value.Label
Purpose: Keeping apart the floats that are no numbers and come from different readings.
Trusted boundary: none
Main exports: Key.label, Mapping.labels, Mapping.relabel, Table.relabelKeys
-/
import StyleAudit.Value.Basic

namespace StyleAudit

/-!
### Labels

A float that is no number is the same key as itself only, so a reading labels each one it
makes.  Labels of two readings may agree by chance.  Before values of two readings are put
together, the labels of one are moved behind those of the other.
-/

/-- The label of a float; zero when it has none. -/
def Binary64.label (x : Binary64) : Nat :=
  if x.shape = .nan then x.bits.toNat % Nat.pow 2 51 else 0

/-- The float with its label moved on, when it has one. -/
def Binary64.relabel (distance : Nat) (x : Binary64) : Binary64 :=
  if x.label = 0 then x else Binary64.labelledNan (x.label + distance)

/-- The label of a key; zero when it has none. -/
def Key.label : Key → Nat
  | .float x => x.label
  | _ => 0

/-- The key with its label moved on. -/
def Key.relabel (distance : Nat) : Key → Key
  | .float x => .float (x.relabel distance)
  | k => k

mutual

/-- The greatest label of the keys in a value. -/
def Value.labels : Value → Nat
  | .seq items => labelsOfItems items
  | .map entries => labelsOfEntries entries
  | _ => 0

/-- The greatest label of the keys in the items of a sequence. -/
def labelsOfItems : List Value → Nat
  | [] => 0
  | v :: rest => max v.labels (labelsOfItems rest)

/-- The greatest label of the keys of a mapping and in its values. -/
def labelsOfEntries : List (Key × Value) → Nat
  | [] => 0
  | (k, v) :: rest => max (max k.label v.labels) (labelsOfEntries rest)

end

mutual

/-- The value with the labels of all keys in it moved on. -/
def Value.relabel (distance : Nat) : Value → Value
  | .seq items => .seq (relabelItems distance items)
  | .map entries => .map (relabelEntries distance entries)
  | v => v

/-- The items of a sequence, their keys' labels moved on. -/
def relabelItems (distance : Nat) : List Value → List Value
  | [] => []
  | v :: rest => v.relabel distance :: relabelItems distance rest

/-- The entries of a mapping, their keys' labels moved on. -/
def relabelEntries (distance : Nat) : List (Key × Value) → List (Key × Value)
  | [] => []
  | (k, v) :: rest => (k.relabel distance, v.relabel distance) :: relabelEntries distance rest

end

/-- The greatest label of the keys in a mapping. -/
def Mapping.labels (entries : Mapping) : Nat := labelsOfEntries entries

/-- The mapping with the labels of all keys in it moved on. -/
def Mapping.relabel (distance : Nat) (entries : Mapping) : Mapping :=
  if distance = 0 then entries else relabelEntries distance entries

/-- The greatest label of some keys. -/
def labelsOfKeys (keys : List Key) : Nat :=
  keys.foldr (fun k greatest => max k.label greatest) 0

/-- A table with the labels of its own keys moved on. -/
def Table.relabelKeys {α : Type} (distance : Nat) (table : Table Key α) : Table Key α :=
  if distance = 0 then table else table.map fun (k, a) => (k.relabel distance, a)

/-- Labels stay where they are when there is nothing to move them behind. -/
@[simp] theorem Mapping.relabel_zero (entries : Mapping) : entries.relabel 0 = entries := rfl

end StyleAudit
