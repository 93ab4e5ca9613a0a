/-
Module: StyleAudit.Value.Basic
Purpose: The loosely typed values that configurations and serialized trees are made of.
Trusted boundary: none
Main exports: Key, Key.identity, Value, Mapping, Value.holds, Value.at?
-/
import StyleAudit.Table
import StyleAudit.Number.Binary64
import StyleAudit.Calendar.Moment

namespace StyleAudit

/-!
### Keys

Mappings are keyed by scalars.  Most formats only give texts; one gives every
scalar, bytes among them.  Numbers and booleans denote the same entry when their values agree, so
that one, true and 1.0 are one key.
-/

/-- A key of a mapping. -/
inductive Key where
  | null
  | bool (b : Bool)
  | int (n : Int)
  | float (x : Binary64)
  | str (s : Text)
  | moment (m : Moment)
  | bytes (data : List UInt8)
deriving DecidableEq, Repr, Inhabited

/-- What a key denotes: the spellings of one number fall together, and so do the
moments that name one point in time. -/
inductive KeyIdentity where
  | null
  | number (n : Int)
  | fraction (x : Binary64)
  | text (s : Text)
  | instant (microseconds : Int)
  | moment (m : Moment)
  | bytes (data : List UInt8)
deriving DecidableEq, Repr

/-- The entry that a key denotes. -/
def Key.identity : Key → KeyIdentity
  | .null => .null
  | .bool b => .number (if b then 1 else 0)
  | .int n => .number n
  | .float x =>
      match x.toInt? with
      | some n => .number n
      | none => .fraction x
  | .str s => .text s
  | .moment (.zoned d c offset) => .instant (Moment.instant d c offset)
  | .moment m => .moment m
  | .bytes data => .bytes data

instance : Sameness Key where
  same a b := a.identity = b.identity

/-- Two keys are the same entry exactly when they denote the same. -/
theorem Key.same_iff {a b : Key} : Sameness.same a b = true ↔ a.identity = b.identity := by
  simp [Sameness.same]

/-- Every key denotes its own entry. -/
@[simp] theorem Key.same_refl (a : Key) : Sameness.same a a = true := by
  simp [Sameness.same]

/-- Text keys are the same entry exactly when they are equal. -/
@[simp] theorem Key.same_str (a b : Text) :
    Sameness.same (Key.str a) (Key.str b) = true ↔ a = b := by
  simp [Sameness.same, Key.identity]

/-!
### Values

A value is a scalar, a set of scalars, a sequence or a mapping.  A mapping is a list
of entries in the order in which their keys first came; every reader and every
operation of this library keeps its keys distinct.  A set is replaced whole by a
later layer, as a scalar is.
-/

/-- A loosely typed value. -/
inductive Value where
  | null
  | bool (b : Bool)
  | int (n : Int)
  | float (x : Binary64)
  | str (s : Text)
  | moment (m : Moment)
  | bytes (data : List UInt8)
  | set (members : List Key)
  | seq (items : List Value)
  | map (entries : List (Key × Value))
deriving Repr, Inhabited

/-- The entries of a mapping. -/
abbrev Mapping := Table Key Value

namespace Value

/-- The value counts as present: neither null, false, zero, nor empty. -/
def holds : Value → Bool
  | .null => false
  | .bool b => b
  | .int n => n ≠ 0
  | .float x => !x.isZero
  | .str s => !s.isEmpty
  | .moment _ => true
  | .bytes data => !data.isEmpty
  | .set members => !members.isEmpty
  | .seq items => !items.isEmpty
  | .map entries => !entries.isEmpty

/-- The word for the kind of a value. -/
def kindName : Value → String
  | .null => "NoneType"
  | .bool _ => "bool"
  | .int _ => "int"
  | .float _ => "float"
  | .str _ => "str"
  | .moment m => m.kindName
  | .bytes _ => "bytes"
  | .set _ => "set"
  | .seq _ => "list"
  | .map _ => "dict"

/-- The entries, when the value is a mapping. -/
def entries? : Value → Option Mapping
  | .map entries => some entries
  | _ => none

/-- The value is a mapping. -/
def isMapping (v : Value) : Bool :=
  v.entries?.isSome

/-- The text, when the value is one. -/
def text? : Value → Option Text
  | .str s => some s
  | _ => none

/-- The value at a path of keys; the empty path leads to the value itself. -/
def at? : Value → List Key → Option Value
  | v, [] => some v
  | .map entries, key :: path =>
      match Table.get? key entries with
      | some inner => inner.at? path
      | none => none
  | _, _ :: _ => none

end Value

/-- A scalar value as a key. -/
def Value.toKey? : Value → Option Key
  | .null => some .null
  | .bool b => some (.bool b)
  | .int n => some (.int n)
  | .float x => some (.float x)
  | .str s => some (.str s)
  | .moment m => some (.moment m)
  | .bytes data => some (.bytes data)
  | .set _ => none
  | .seq _ => none
  | .map _ => none

/-- A key as a scalar value. -/
def Key.toValue : Key → Value
  | .null => .null
  | .bool b => .bool b
  | .int n => .int n
  | .float x => .float x
  | .str s => .str s
  | .moment m => .moment m
  | .bytes data => .bytes data

/-- Every key is read back from its value. -/
@[simp] theorem Key.toKey?_toValue (k : Key) : k.toValue.toKey? = some k := by
  cases k <;> rfl

namespace Mapping

/-- The value at a text key. -/
def find? (name : Text) (entries : Mapping) : Option Value :=
  Table.get? (Key.str name) entries

/-- The mapping without the entry of a text key. -/
def without (name : Text) (entries : Mapping) : Mapping :=
  Table.erase (Key.str name) entries

end Mapping

end StyleAudit
