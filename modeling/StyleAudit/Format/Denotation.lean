/-
Module: StyleAudit.Format.Denotation
Purpose: What a text in one of the data formats denotes.
Trusted boundary: none
Main exports: Denotation, Denotation.finite, Denotation.seq, Denotation.map
-/
import StyleAudit.Value.Basic

namespace StyleAudit.Format

/-!
### Finite and endless values

A text with references can denote a value that contains itself.  Such a value has no
end, so no operation can use it whole; but what kind of value it is can be told, and
so can the kinds of its parts.  It is given cut short: where a sequence or a mapping
is entered again inside itself, one of the same kind with a single null stands for it.
-/

/-- A value, and whether it is an endless one cut short. -/
structure Denotation where
  value : Value
  isEndless : Bool

namespace Denotation

/-- A value that ends. -/
def finite (v : Value) : Denotation := ⟨v, false⟩

/-- A sequence of what its items denote. -/
def seq (items : List Denotation) : Denotation :=
  ⟨.seq (items.map (·.value)), items.any (·.isEndless)⟩

/-- A mapping of what its values denote. -/
def map (entries : List (Key × Denotation)) : Denotation :=
  ⟨.map (entries.map fun (key, d) => (key, d.value)), entries.any (·.2.isEndless)⟩

/-- A sequence entered again inside itself. -/
def innerSeq : Denotation := ⟨.seq [.null], true⟩

/-- A mapping entered again inside itself. -/
def innerMap : Denotation := ⟨.map [(.null, .null)], true⟩

end Denotation

end StyleAudit.Format
