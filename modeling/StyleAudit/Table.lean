/-
Module: StyleAudit.Table
Purpose: Ordered tables: lists of entries in which a key keeps its first place.
Trusted boundary: none
Main exports: Sameness, Table.get?, Table.contains, Table.put, Table.erase, Table.keys
-/
import StyleAudit.Text.Basic

namespace StyleAudit

/-!
### Tables in insertion order

Configurations, registries and recorded severities all keep their entries in the
order in which the keys first came.  Writing to a key that is present replaces
the value and leaves both the key and its place alone; writing to a new key
appends.  Keys are told apart by a test that may be coarser than equality, so
the first of several spellings of one key is the one that stays.
-/

/-- When two keys denote one entry. -/
class Sameness (κ : Type) where
  /-- The two keys denote one entry. -/
  same : κ → κ → Bool

/-- Texts denote one entry when they are equal. -/
instance : Sameness Text where
  same a b := a == b

/-- Entries in the order in which their keys first came. -/
abbrev Table (κ α : Type) := List (κ × α)

namespace Table

variable {κ α : Type} [Sameness κ]

/-- The value at a key. -/
def get? (key : κ) : Table κ α → Option α
  | [] => none
  | (k, v) :: rest => if Sameness.same k key then some v else get? key rest

/-- The key has an entry. -/
def contains (key : κ) (table : Table κ α) : Bool :=
  (table.get? key).isSome

/-- Writes a value: in place when the key is present, at the end otherwise. -/
def put (key : κ) (value : α) : Table κ α → Table κ α
  | [] => [(key, value)]
  | (k, v) :: rest =>
      if Sameness.same k key then (k, value) :: rest else (k, v) :: put key value rest

/-- Writes a value only when the key is absent. -/
def putNew (key : κ) (value : α) (table : Table κ α) : Table κ α :=
  if table.contains key then table else table ++ [(key, value)]

/-- Drops the entry of a key. -/
def erase (key : κ) : Table κ α → Table κ α
  | [] => []
  | (k, v) :: rest => if Sameness.same k key then rest else (k, v) :: erase key rest

/-- Builds a table from entries; a later entry overwrites an earlier one. -/
def ofList (entries : List (κ × α)) : Table κ α :=
  entries.foldl (fun table entry => table.put entry.1 entry.2) []

/-- The keys in order. -/
def keys (table : Table κ α) : List κ :=
  table.map (·.1)

/-- The values in order. -/
def values (table : Table κ α) : List α :=
  table.map (·.2)

@[simp] theorem get?_nil (key : κ) : get? key ([] : Table κ α) = none := rfl

theorem get?_cons (key k : κ) (v : α) (rest : Table κ α) :
    get? key ((k, v) :: rest) = if Sameness.same k key then some v else get? key rest := rfl

/-- A written value is read back at every key the test cannot tell apart. -/
theorem get?_put_same (key : κ) (value : α) (table : Table κ α)
    (hkey : Sameness.same key key = true) : get? key (put key value table) = some value := by
  induction table with
  | nil => simp [put, get?, hkey]
  | cons entry rest ih =>
      obtain ⟨k, v⟩ := entry
      by_cases h : Sameness.same k key = true <;> simp [put, get?, h, ih]

end Table

end StyleAudit
