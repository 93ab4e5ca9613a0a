/-
Module: StyleAudit.Proofs.Config.Fields
Purpose: What an inheritance tree comes to in one field that holds a mapping in every layer:
  the order of its keys, and which layer gives the value of a key.
Trusted boundary: none
Main exports: Mapping.field, Mapping.HasField, field_merge, Inheritance.fields, field_flatten,
  keys_flatten, get?_flatten, apartLayers, layers_apart, exists_tree_of_resolveConfig
-/
import StyleAudit.Proofs.Config.Precedence
import StyleAudit.Proofs.Value.KeyOrder

namespace StyleAudit

/-!
### Fields

Merging goes on inside a field that holds a mapping on both sides.  So, as long as a field never
holds anything else, to merge and then to look at the field is to look at the fields and then
to merge.
-/

namespace Mapping

/-- The entries of the mapping in a field; none when the field is absent. -/
def field (name : Text) (m : Mapping) : Mapping :=
  match m.find? name with
  | some (.map entries) => entries
  | _ => []

/-- The field is absent or holds a mapping; no key stands twice, here or there. -/
structure HasField (name : Text) (m : Mapping) : Prop where
  distinct : Table.isDistinct m = true
  shape : ∀ v, m.find? name = some v →
    ∃ entries, v = .map entries ∧ Table.isDistinct entries = true

variable {name : Text} {base layer m : Mapping}

theorem hasField_iff :
    m.HasField name ↔
      (Table.isDistinct m
        && (m.find? name).all fun v => v.entries?.any Table.isDistinct) = true := by
  rw [Bool.and_eq_true]
  constructor
  · rintro ⟨distinct, shape⟩
    refine ⟨distinct, ?_⟩
    rw [Option.all_eq_true]
    intro v held
    obtain ⟨entries, rfl, distinctEntries⟩ := shape v held
    exact distinctEntries
  · rintro ⟨distinct, holding⟩
    refine ⟨distinct, ?_⟩
    intro v held
    have whole := (Option.all_eq_true _ _).1 holding v held
    cases v with
    | map entries => exact ⟨entries, rfl, whole⟩
    | _ => cases whole

instance : Decidable (m.HasField name) := decidable_of_iff _ hasField_iff.symm

theorem field_of_absent (absent : m.find? name = none) : m.field name = [] := by
  rw [field, absent]

theorem field_of_map {entries : Mapping} (held : m.find? name = some (.map entries)) :
    m.field name = entries := by
  rw [field, held]

theorem HasField.isDistinct_field (has : m.HasField name) :
    Table.isDistinct (m.field name) = true := by
  cases held : m.find? name with
  | none =>
      rw [field_of_absent held]
      rfl
  | some v =>
      obtain ⟨entries, rfl, distinct⟩ := has.shape v held
      rw [field_of_map held]
      exact distinct

theorem find?_merge (distinct : Table.isDistinct layer = true) :
    (base.merge layer).find? name =
      match layer.find? name with
      | none => base.find? name
      | some v => some (v.overlay (base.find? name)) :=
  get?_mergeEntries distinct base (.str name)

theorem merge_of_empty (distinct : Table.isDistinct layer = true) :
    Mapping.merge [] layer = layer := by
  have fresh : Table.isDistinct (([] : Mapping) ++ layer) = true := distinct
  exact mergeEntries_of_fresh layer fresh

theorem HasField.merge (hasBase : base.HasField name) (has : layer.HasField name) :
    (base.merge layer).HasField name := by
  refine ⟨isDistinct_mergeEntries hasBase.distinct layer, ?_⟩
  intro v held
  rw [find?_merge has.distinct] at held
  cases inLayer : layer.find? name with
  | none =>
      rw [inLayer] at held
      exact hasBase.shape v held
  | some u =>
      obtain ⟨entries, rfl, distinct⟩ := has.shape u inLayer
      rw [inLayer] at held
      cases inBase : base.find? name with
      | none =>
          rw [inBase] at held
          simp only [overlay_none, Option.some.injEq] at held
          exact ⟨entries, held.symm, distinct⟩
      | some b =>
          obtain ⟨under, rfl, distinctUnder⟩ := hasBase.shape b inBase
          rw [inBase] at held
          simp only [Value.overlay, Option.some.injEq] at held
          exact ⟨_, held.symm, isDistinct_mergeEntries distinctUnder entries⟩

theorem field_merge (hasBase : base.HasField name) (has : layer.HasField name) :
    (base.merge layer).field name = (base.field name).merge (layer.field name) := by
  have found : (base.merge layer).find? name =
      match layer.find? name with
      | none => base.find? name
      | some v => some (v.overlay (base.find? name)) := find?_merge has.distinct
  cases inLayer : layer.find? name with
  | none =>
      rw [inLayer] at found
      rw [field_of_absent inLayer, merge_nil, field, found]
      rfl
  | some u =>
      obtain ⟨entries, rfl, distinct⟩ := has.shape u inLayer
      rw [inLayer] at found
      rw [field_of_map inLayer]
      cases inBase : base.find? name with
      | none =>
          rw [inBase] at found
          simp only [overlay_none] at found
          rw [field_of_map found, field_of_absent inBase, merge_of_empty distinct]
      | some b =>
          obtain ⟨under, rfl, _⟩ := hasBase.shape b inBase
          rw [inBase] at found
          simp only [Value.overlay] at found
          rw [field_of_map found, field_of_map inBase]
          rfl

end Mapping

/-!
### The tree of the fields
-/

namespace Inheritance

mutual

/-- The tree that holds one field of each layer in the layer's place. -/
def fields (name : Text) : Inheritance → Inheritance
  | .layer own parents => .layer (own.field name) (fieldsAll name parents)

/-- The trees that hold one field of each layer in the layer's place. -/
def fieldsAll (name : Text) : List Inheritance → List Inheritance
  | [] => []
  | tree :: rest => tree.fields name :: fieldsAll name rest

end

mutual

theorem layers_fields (name : Text) :
    ∀ tree : Inheritance, (tree.fields name).layers = tree.layers.map (Mapping.field name)
  | .layer own parents => by
      rw [fields, layers, layers, layersAll_fieldsAll name parents, List.map_cons]

theorem layersAll_fieldsAll (name : Text) :
    ∀ trees : List Inheritance,
      layersAll (fieldsAll name trees) = (layersAll trees).map (Mapping.field name)
  | [] => rfl
  | tree :: rest => by
      rw [fieldsAll, layersAll, layersAll, layers_fields name tree,
        layersAll_fieldsAll name rest, List.map_append]

end

mutual

/-- A tree comes to a mapping whose field is what the tree of the fields comes to. -/
theorem field_flatten {name : Text} :
    ∀ {tree : Inheritance}, (∀ layer ∈ tree.layers, layer.HasField name) →
      tree.flatten.HasField name ∧ tree.flatten.field name = (tree.fields name).flatten
  | .layer own parents, has => by
      simp only [layers, List.forall_mem_cons] at has
      rw [fields, flatten, flatten]
      exact field_flattenBelow has.1 has.2

theorem field_flattenBelow {name : Text} :
    ∀ {trees : List Inheritance} {above : Mapping}, above.HasField name →
      (∀ layer ∈ layersAll trees, layer.HasField name) →
        (flattenBelow above trees).HasField name
          ∧ (flattenBelow above trees).field name
              = flattenBelow (above.field name) (fieldsAll name trees)
  | [], _, hasAbove, _ => ⟨hasAbove, rfl⟩
  | tree :: rest, above, hasAbove, has => by
      simp only [layersAll, List.forall_mem_append] at has
      obtain ⟨hasTree, fieldTree⟩ := field_flatten has.1
      rw [flattenBelow, fieldsAll, flattenBelow, ← fieldTree,
        ← Mapping.field_merge hasTree hasAbove]
      exact field_flattenBelow (hasTree.merge hasAbove) has.2

end

/-!
### Keys and values of a tree
-/

open Table

mutual

/-- The keys of what a tree comes to are those of its layers, read from the last layer to the
first. -/
theorem keys_flatten :
    ∀ {tree : Inheritance}, (∀ layer ∈ tree.layers, isDistinct layer = true) →
      keys tree.flatten = firstKeys (tree.layers.reverse.flatMap keys)
  | .layer own parents, distinct => by
      simp only [layers, List.forall_mem_cons] at distinct
      have ownKeys := firstKeys_of_pairwise (isDistinct_iff_pairwise.1 distinct.1)
      rw [flatten, keys_flattenBelow ownKeys.symm distinct.2, layers, List.reverse_cons,
        List.flatMap_append, List.flatMap_singleton]

theorem keys_flattenBelow :
    ∀ {trees : List Inheritance} {above : Mapping} {names : List Key},
      keys above = firstKeys names → (∀ layer ∈ layersAll trees, isDistinct layer = true) →
        keys (flattenBelow above trees)
          = firstKeys ((layersAll trees).reverse.flatMap keys ++ names)
  | [], _, _, aboveKeys, _ => aboveKeys
  | tree :: rest, above, names, aboveKeys, distinct => by
      simp only [layersAll, List.forall_mem_append] at distinct
      -- The next tree goes below, so its names come before all names gathered so far.
      have mergedKeys : keys (Mapping.merge tree.flatten above)
          = firstKeys (tree.layers.reverse.flatMap keys ++ names) := by
        rw [Mapping.merge, keys_mergeEntries, keys_flatten distinct.1, aboveKeys,
          foldl_addKey_firstKeys, firstKeys_append]
      rw [flattenBelow, keys_flattenBelow mergedKeys distinct.2, layersAll, List.reverse_append,
        List.flatMap_append, List.append_assoc]

end

/-- No key stands twice, and none holds a mapping. -/
structure IsFlat (m : Mapping) : Prop where
  distinct : isDistinct m = true
  scalar : ∀ key v, get? key m = some v → v.isMapping = false

theorem get?_merge_of_isFlat {base layer : Mapping} (flat : IsFlat layer) (key : Key) :
    get? key (base.merge layer) = (get? key layer).or (get? key base) := by
  rw [Mapping.merge, get?_mergeEntries flat.distinct]
  cases held : get? key layer with
  | none => rfl
  | some v => simp [overlay_of_not_mapping (flat.scalar key v held)]

theorem IsFlat.merge {base layer : Mapping} (flatBase : IsFlat base) (flat : IsFlat layer) :
    IsFlat (base.merge layer) := by
  refine ⟨isDistinct_mergeEntries flatBase.distinct layer, ?_⟩
  intro key v held
  rw [get?_merge_of_isFlat flat, Option.or_eq_some_iff] at held
  rcases held with inLayer | ⟨_, inBase⟩
  · exact flat.scalar key v inLayer
  · exact flatBase.scalar key v inBase

mutual

/-- The first layer that has a key gives its value. -/
theorem get?_flatten {key : Key} :
    ∀ {tree : Inheritance}, (∀ layer ∈ tree.layers, IsFlat layer) →
      IsFlat tree.flatten ∧ get? key tree.flatten = tree.layers.findSome? (get? key)
  | .layer own parents, flat => by
      simp only [layers, List.forall_mem_cons] at flat
      rw [flatten, layers, List.findSome?_cons]
      obtain ⟨flatResult, found⟩ := get?_flattenBelow flat.1 flat.2
      refine ⟨flatResult, found.trans ?_⟩
      cases get? key own <;> rfl

theorem get?_flattenBelow {key : Key} :
    ∀ {trees : List Inheritance} {above : Mapping}, IsFlat above →
      (∀ layer ∈ layersAll trees, IsFlat layer) →
        IsFlat (flattenBelow above trees)
          ∧ get? key (flattenBelow above trees)
              = (get? key above).or ((layersAll trees).findSome? (get? key))
  | [], above, flatAbove, _ => ⟨flatAbove, (Option.or_none).symm⟩
  | tree :: rest, above, flatAbove, flat => by
      simp only [layersAll, List.forall_mem_append] at flat
      obtain ⟨flatTree, found⟩ := get?_flatten flat.1
      obtain ⟨flatResult, foundResult⟩ := get?_flattenBelow (flatTree.merge flatAbove) flat.2
      refine ⟨flatResult, ?_⟩
      rw [flattenBelow, foundResult, get?_merge_of_isFlat flatAbove, found, layersAll,
        List.findSome?_append, Option.or_assoc]

end

end Inheritance

/-!
### Layers whose labels are apart
-/

/-- Layers, each with its labels moved behind those of the layers before it. -/
def apartLayers (given : Nat) : List Mapping → List Mapping
  | [] => []
  | layer :: rest => layer.relabel given :: apartLayers (given + layer.labels) rest

/-- The greatest label that is given out for layers. -/
def labelsAfter (given : Nat) (layers : List Mapping) : Nat :=
  layers.foldl (fun given layer => given + layer.labels) given

theorem apartLayers_append (first second : List Mapping) :
    ∀ given, apartLayers given (first ++ second)
      = apartLayers given first ++ apartLayers (labelsAfter given first) second := by
  induction first with
  | nil =>
      intro given
      rfl
  | cons layer rest ih =>
      intro given
      rw [List.cons_append, apartLayers, apartLayers, ih, List.cons_append]
      rfl

namespace Inheritance

mutual

theorem apartFrom_eq :
    ∀ (given : Nat) (tree : Inheritance),
      (tree.apartFrom given).1.layers = apartLayers given tree.layers
        ∧ (tree.apartFrom given).2 = labelsAfter given tree.layers
  | given, .layer own parents => by
      obtain ⟨layersEq, afterEq⟩ := apartAll_eq (given + own.labels) parents
      rw [layers, apartLayers, ← layersEq]
      exact ⟨rfl, afterEq⟩

theorem apartAll_eq :
    ∀ (given : Nat) (trees : List Inheritance),
      layersAll (apartAll given trees).1 = apartLayers given (layersAll trees)
        ∧ (apartAll given trees).2 = labelsAfter given (layersAll trees)
  | given, [] => ⟨rfl, rfl⟩
  | given, tree :: rest => by
      obtain ⟨layersFirst, afterFirst⟩ := apartFrom_eq given tree
      obtain ⟨layersRest, afterRest⟩ := apartAll_eq (tree.apartFrom given).2 rest
      have opened : apartAll given (tree :: rest)
          = ((tree.apartFrom given).1 :: (apartAll (tree.apartFrom given).2 rest).1,
              (apartAll (tree.apartFrom given).2 rest).2) := rfl
      rw [opened, layersAll, layersAll, layersFirst, layersRest, afterRest, afterFirst,
        apartLayers_append, labelsAfter, labelsAfter, labelsAfter, List.foldl_append]
      exact ⟨rfl, rfl⟩

end

/-- To set the labels of a tree apart is to set those of its layers apart. -/
theorem layers_apart (tree : Inheritance) : tree.apart.layers = apartLayers 0 tree.layers :=
  (apartFrom_eq 0 tree).1

end Inheritance

/-- A resolved configuration is what a tree comes to whose layers are the configurations by
precedence, each without its list of lookups and with its labels apart. -/
theorem exists_tree_of_resolveConfig {w : World} {config result : Mapping} {base : Path}
    (resolved : (resolveConfig w config base).outcome = .ok result) :
    ∃ (tree : Inheritance) (sources : List Mapping), result = tree.flatten
      ∧ Precedence w config base sources
      ∧ tree.layers = apartLayers 0 (sources.map fun source => source.without extendsKey) := by
  rw [resolveConfig, Logged.outcome_bind, bind_eq_ok_iff] at resolved
  obtain ⟨tree, gathered, flattened⟩ := resolved
  cases flattened
  obtain ⟨sources, precedence, layersEq⟩ := precedence_of_gather gathered
  refine ⟨tree.apart, sources, rfl, precedence, ?_⟩
  rw [Inheritance.layers_apart, layersEq]

end StyleAudit
