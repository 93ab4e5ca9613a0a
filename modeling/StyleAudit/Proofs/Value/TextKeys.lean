/-
Module: StyleAudit.Proofs.Value.TextKeys
Purpose: Values whose mappings are keyed by texts, each text once; laying one over another
  gives such a value again, and labels do not matter in them.
Trusted boundary: none
Main exports: Value.hasTextKeys, entriesHaveTextKeys, entriesHaveTextKeys_merge,
  labelsOfEntries_eq_zero
-/
import StyleAudit.Proofs.Table
import StyleAudit.Value.Merge
import StyleAudit.Value.Label

namespace StyleAudit

/-- The key is a text. -/
def Key.isText : Key → Bool
  | .str _ => true
  | _ => false

mutual

/-- Every mapping in the value is keyed by texts, and no text stands twice in one mapping. -/
def Value.hasTextKeys : Value → Bool
  | .seq items => itemsHaveTextKeys items
  | .map entries => entriesHaveTextKeys entries
  | _ => true

/-- Every mapping in the items is keyed by texts. -/
def itemsHaveTextKeys : List Value → Bool
  | [] => true
  | v :: rest => v.hasTextKeys && itemsHaveTextKeys rest

/-- The entries are keyed by texts, each standing once, and so is every mapping in their
values. -/
def entriesHaveTextKeys : List (Key × Value) → Bool
  | [] => true
  | (key, v) :: rest =>
      key.isText && !Table.contains key rest && v.hasTextKeys && entriesHaveTextKeys rest

end

/-- The mapping and every mapping in its values are keyed by texts, each standing once. -/
def Mapping.hasTextKeys (entries : Mapping) : Bool := (Value.map entries).hasTextKeys

theorem hasTextKeys_map (entries : Mapping) :
    (Value.map entries).hasTextKeys = entriesHaveTextKeys entries := by
  rw [Value.hasTextKeys]

theorem Mapping.hasTextKeys_eq (entries : Mapping) :
    entries.hasTextKeys = entriesHaveTextKeys entries :=
  hasTextKeys_map entries

/-- What keying by texts says about the first entry and the rest. -/
theorem entriesHaveTextKeys_cons {key : Key} {v : Value} {rest : List (Key × Value)} :
    entriesHaveTextKeys ((key, v) :: rest) = true ↔
      key.isText = true ∧ Table.get? key rest = none ∧ v.hasTextKeys = true
        ∧ entriesHaveTextKeys rest = true := by
  simp [entriesHaveTextKeys, Table.contains, and_assoc]

/-- No key of a mapping keyed by texts stands twice. -/
theorem isDistinct_of_entriesHaveTextKeys {entries : List (Key × Value)}
    (keyed : entriesHaveTextKeys entries = true) : Table.isDistinct entries = true := by
  induction entries with
  | nil => rfl
  | cons entry rest ih =>
      obtain ⟨key, v⟩ := entry
      obtain ⟨_, fresh, _, keyedRest⟩ := entriesHaveTextKeys_cons.1 keyed
      exact Table.isDistinct_cons.2 ⟨fresh, ih keyedRest⟩

/-- What a mapping keyed by texts holds is keyed by texts. -/
theorem hasTextKeys_of_get? {entries : List (Key × Value)} {key : Key} {v : Value}
    (keyed : entriesHaveTextKeys entries = true) (found : Table.get? key entries = some v) :
    v.hasTextKeys = true := by
  induction entries with
  | nil => simp at found
  | cons entry rest ih =>
      obtain ⟨k, first⟩ := entry
      obtain ⟨_, _, keyedFirst, keyedRest⟩ := entriesHaveTextKeys_cons.1 keyed
      rw [Table.get?_cons] at found
      split at found
      · cases found
        exact keyedFirst
      · exact ih keyedRest found

/-!
### Operations that keep to texts
-/

theorem entriesHaveTextKeys_put {key : Key} {v : Value} {entries : List (Key × Value)}
    (text : key.isText = true) (keyedValue : v.hasTextKeys = true)
    (keyed : entriesHaveTextKeys entries = true) :
    entriesHaveTextKeys (Table.put key v entries) = true := by
  induction entries with
  | nil => simp [Table.put, entriesHaveTextKeys, Table.contains, text, keyedValue]
  | cons entry rest ih =>
      obtain ⟨k, first⟩ := entry
      obtain ⟨textKey, fresh, keyedFirst, keyedRest⟩ := entriesHaveTextKeys_cons.1 keyed
      by_cases same : Sameness.same k key = true
      · rw [Table.put, if_pos same]
        exact entriesHaveTextKeys_cons.2 ⟨textKey, fresh, keyedValue, keyedRest⟩
      · have other : ¬ Sameness.same key k = true := fun h => same (LawfulSameness.symm h)
        rw [Table.put, if_neg same]
        refine entriesHaveTextKeys_cons.2 ⟨textKey, ?_, keyedFirst, ih keyedRest⟩
        rw [Table.get?_put_of_not_same other, fresh]

theorem entriesHaveTextKeys_erase {key : Key} {entries : List (Key × Value)}
    (keyed : entriesHaveTextKeys entries = true) :
    entriesHaveTextKeys (Table.erase key entries) = true := by
  induction entries with
  | nil => rfl
  | cons entry rest ih =>
      obtain ⟨k, first⟩ := entry
      obtain ⟨textKey, fresh, keyedFirst, keyedRest⟩ := entriesHaveTextKeys_cons.1 keyed
      by_cases same : Sameness.same k key = true
      · rw [Table.erase, if_pos same]
        exact keyedRest
      · have other : ¬ Sameness.same key k = true := fun h => same (LawfulSameness.symm h)
        rw [Table.erase, if_neg same]
        refine entriesHaveTextKeys_cons.2 ⟨textKey, ?_, keyedFirst, ih keyedRest⟩
        rw [Table.get?_erase_of_not_same other, fresh]

/-- A value that is no mapping replaces whatever it is laid over. -/
theorem overlay_of_not_mapping {v : Value} (scalar : v.isMapping = false)
    (base : Option Value) : v.overlay base = v := by
  cases v with
  | map layer => simp [Value.isMapping, Value.entries?] at scalar
  | _ =>
      rw [Value.overlay]
      intro layer same
      cases same

/-- A mapping replaces whatever it is laid over, unless that is a mapping too. -/
theorem overlay_map_of_not_mapping (layer : Mapping) {base : Option Value}
    (scalar : ∀ entries, base ≠ some (.map entries)) :
    (Value.map layer).overlay base = .map layer := by
  rw [Value.overlay]
  exact scalar

mutual

/-- A value laid over another is keyed by texts when both are. -/
theorem hasTextKeys_overlay {base : Option Value}
    (keyedBase : ∀ u, base = some u → u.hasTextKeys = true) :
    ∀ {v : Value}, v.hasTextKeys = true → (v.overlay base).hasTextKeys = true
  | .map layer, keyed => by
      by_cases mapping : ∃ entries, base = some (.map entries)
      · obtain ⟨entries, rfl⟩ := mapping
        have keyedEntries := keyedBase _ rfl
        simp only [Value.overlay, Value.hasTextKeys] at keyed keyedEntries ⊢
        exact entriesHaveTextKeys_mergeEntries keyedEntries keyed
      · rw [overlay_map_of_not_mapping layer fun entries h => mapping ⟨entries, h⟩]
        exact keyed
  | .null, keyed | .bool _, keyed | .int _, keyed | .float _, keyed | .str _, keyed
  | .moment _, keyed | .bytes _, keyed | .set _, keyed | .seq _, keyed => by
      rw [overlay_of_not_mapping rfl]
      exact keyed

/-- A merge of two mappings keyed by texts is keyed by texts. -/
theorem entriesHaveTextKeys_mergeEntries :
    ∀ {base layer : List (Key × Value)}, entriesHaveTextKeys base = true →
      entriesHaveTextKeys layer = true → entriesHaveTextKeys (mergeEntries base layer) = true
  | base, [], keyedBase, _ => by
      simpa only [mergeEntries] using keyedBase
  | base, (key, v) :: rest, keyedBase, keyed => by
      obtain ⟨text, _, keyedValue, keyedRest⟩ := entriesHaveTextKeys_cons.1 keyed
      simp only [mergeEntries]
      have keyedOverlay : (v.overlay (Table.get? key base)).hasTextKeys = true :=
        hasTextKeys_overlay (fun u found => hasTextKeys_of_get? keyedBase found) keyedValue
      exact entriesHaveTextKeys_mergeEntries
        (entriesHaveTextKeys_put text keyedOverlay keyedBase) keyedRest

end

/-!
### Labels

Texts carry no labels, so moving labels on leaves such a mapping as it is.
-/

theorem label_of_isText {key : Key} (text : key.isText = true) : key.label = 0 := by
  cases key <;> simp_all [Key.isText, Key.label]

mutual

theorem labels_of_hasTextKeys : ∀ {v : Value}, v.hasTextKeys = true → v.labels = 0
  | .seq items, keyed => by
      simp only [Value.hasTextKeys, Value.labels] at keyed ⊢
      exact labelsOfItems_of_itemsHaveTextKeys keyed
  | .map entries, keyed => by
      simp only [Value.hasTextKeys, Value.labels] at keyed ⊢
      exact labelsOfEntries_of_entriesHaveTextKeys keyed
  | .null, _ | .bool _, _ | .int _, _ | .float _, _ | .str _, _
  | .moment _, _ | .bytes _, _ | .set _, _ => by
      simp only [Value.labels]

theorem labelsOfItems_of_itemsHaveTextKeys :
    ∀ {items : List Value}, itemsHaveTextKeys items = true → labelsOfItems items = 0
  | [], _ => rfl
  | v :: rest, keyed => by
      simp only [itemsHaveTextKeys, Bool.and_eq_true] at keyed
      rw [labelsOfItems, labels_of_hasTextKeys keyed.1,
        labelsOfItems_of_itemsHaveTextKeys keyed.2]
      rfl

theorem labelsOfEntries_of_entriesHaveTextKeys :
    ∀ {entries : List (Key × Value)}, entriesHaveTextKeys entries = true →
      labelsOfEntries entries = 0
  | [], _ => rfl
  | (key, v) :: rest, keyed => by
      obtain ⟨text, _, keyedValue, keyedRest⟩ := entriesHaveTextKeys_cons.1 keyed
      rw [labelsOfEntries, label_of_isText text, labels_of_hasTextKeys keyedValue,
        labelsOfEntries_of_entriesHaveTextKeys keyedRest]
      rfl

end

end StyleAudit
