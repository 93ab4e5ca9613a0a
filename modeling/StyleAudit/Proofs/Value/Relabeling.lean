/-
Module: StyleAudit.Proofs.Value.Relabeling
Purpose: Moving the labels of a mapping's keys leaves its entries under texts where they are.
Trusted boundary: none
Main exports: same_relabel_str, get?_relabelEntries, relabelEntries_put, relabel_without
-/
import StyleAudit.Proofs.Table
import StyleAudit.Value.Label

namespace StyleAudit

/-- A key with a moved label is a text exactly when the key is, since no text has a label. -/
theorem same_relabel_str (distance : Nat) (key : Key) (name : Text) :
    Sameness.same (key.relabel distance) (Key.str name)
      = Sameness.same key (Key.str name) := by
  cases key with
  | float x =>
      have never : ∀ y : Binary64, Sameness.same (Key.float y) (Key.str name) = false := by
        intro y
        rw [Bool.eq_false_iff, ne_eq, Key.same_iff, Key.identity]
        cases y.toInt? <;> simp [Key.identity]
      rw [Key.relabel, never, never]
  | _ => rfl

section Entries

variable (distance : Nat) (name : Text)

theorem get?_relabelEntries (m : Mapping) :
    Table.get? (Key.str name) (relabelEntries distance m)
      = (Table.get? (Key.str name) m).map (Value.relabel distance) := by
  induction m with
  | nil => rfl
  | cons entry rest ih =>
      obtain ⟨k, v⟩ := entry
      rw [relabelEntries, Table.get?_cons, Table.get?_cons, same_relabel_str, ih]
      split <;> rfl

theorem relabelEntries_put (v : Value) (m : Mapping) :
    relabelEntries distance (Table.put (Key.str name) v m)
      = Table.put (Key.str name) (v.relabel distance) (relabelEntries distance m) := by
  induction m with
  | nil => rfl
  | cons entry rest ih =>
      obtain ⟨k, u⟩ := entry
      rw [Table.put, relabelEntries, Table.put, same_relabel_str]
      split
      · rfl
      · rw [relabelEntries, ih]

theorem relabelEntries_erase (m : Mapping) :
    relabelEntries distance (Table.erase (Key.str name) m)
      = Table.erase (Key.str name) (relabelEntries distance m) := by
  induction m with
  | nil => rfl
  | cons entry rest ih =>
      obtain ⟨k, u⟩ := entry
      rw [Table.erase, relabelEntries, Table.erase, same_relabel_str]
      split
      · rfl
      · rw [relabelEntries, ih]

end Entries

theorem relabelEntries_map (distance : Nat) {change : Value → Value}
    (commutes : ∀ v, (change v).relabel distance = change (v.relabel distance)) (m : Mapping) :
    relabelEntries distance (m.map fun (name, v) => (name, change v))
      = (relabelEntries distance m).map fun (name, v) => (name, change v) := by
  induction m with
  | nil => rfl
  | cons entry rest ih =>
      obtain ⟨k, v⟩ := entry
      rw [List.map_cons, relabelEntries, relabelEntries, List.map_cons, ih, commutes]

theorem relabel_without (distance : Nat) (name : Text) (m : Mapping) :
    (m.without name).relabel distance = (m.relabel distance).without name := by
  unfold Mapping.relabel
  split
  · rfl
  · exact relabelEntries_erase distance name m

end StyleAudit
