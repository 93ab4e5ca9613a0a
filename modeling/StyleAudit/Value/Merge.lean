/-
Module: StyleAudit.Value.Merge
Purpose: Laying one mapping over another, key by key.
Trusted boundary: none
Main exports: Mapping.merge, Value.overlay, Value.mergeLayers?
-/
import StyleAudit.Value.Basic

namespace StyleAudit

/-!
### Merging

A layer is laid over a base entry by entry.  Where both hold a mapping the
mappings are merged in turn; anywhere else the layer's value replaces the base's
value whole.  A key of the base keeps its place, and new keys are appended in
the layer's order.
-/

mutual

/-- A layer's value over what the base holds at the same key. -/
def Value.overlay (base : Option Value) : Value → Value
  | .map layer =>
      match base with
      | some (.map entries) => .map (mergeEntries entries layer)
      | _ => .map layer
  | v => v

/-- A layer's entries laid over a base, in the layer's order. -/
def mergeEntries (base : List (Key × Value)) : List (Key × Value) → List (Key × Value)
  | [] => base
  | (key, v) :: rest =>
      mergeEntries (Table.put key (v.overlay (Table.get? key base)) base) rest

end

/-- A layer laid over a base mapping; the layer's values win. -/
def Mapping.merge (base layer : Mapping) : Mapping :=
  mergeEntries base layer

/-- Layers laid over a base value in order.  A layer that is no mapping fits
nowhere, and a layer with entries fits only on a mapping. -/
def Value.mergeLayers? (base : Value) : List Value → Option Value
  | [] => some base
  | .map [] :: rest => base.mergeLayers? rest
  | .map layer :: rest =>
      match base with
      | .map entries => (Value.map (Mapping.merge entries layer)).mergeLayers? rest
      | _ => none
  | _ :: _ => none

@[simp] theorem Mapping.merge_nil (base : Mapping) : Mapping.merge base [] = base := by
  simp [Mapping.merge, mergeEntries]

theorem Mapping.merge_cons (base : Mapping) (key : Key) (v : Value) (rest : Mapping) :
    Mapping.merge base ((key, v) :: rest)
      = Mapping.merge (Table.put key (v.overlay (Table.get? key base)) base) rest := by
  simp [Mapping.merge, mergeEntries]

end StyleAudit
