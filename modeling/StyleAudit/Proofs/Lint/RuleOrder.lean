/-
Module: StyleAudit.Proofs.Lint.RuleOrder
Purpose: The order of the rules in a configuration that extends others and is overridden: that
  in which their names first occur, from the lowest layer to the highest.
Trusted boundary: none
Main exports: overrideLayer, readings, ListsRules, prepare_rule_order
-/
import StyleAudit.Proofs.Config.Fields
import StyleAudit.Proofs.Dispatch.Turns
import StyleAudit.Proofs.Lint.Preparation

namespace StyleAudit

/-!
### Overrides and the checked rules
-/

/-- The overrides of a run as a layer; empty when they hold nothing. -/
def overrideLayer (options : Mapping) : Mapping :=
  (overridesOf options).entries?.getD []

theorem applyOverrides?_eq_some {resolved : Mapping} {overrides merged : Value}
    (laid : applyOverrides? (.map resolved) overrides = some merged) :
    merged = .map (resolved.merge (overrides.entries?.getD [])) := by
  cases overrides with
  | map entries =>
      cases entries with
      | nil =>
          cases laid
          exact congrArg Value.map (Mapping.merge_nil resolved).symm
      | cons entry rest =>
          cases laid
          rfl
  | _ =>
      rw [applyOverrides?] at laid
      split at laid
      · cases laid
      · cases laid
        exact congrArg Value.map (Mapping.merge_nil resolved).symm

/-- The rules of a checked configuration are those in the field of the mapping. -/
theorem find?_rulesKey_of_ofValue {data : Mapping} {c : Configuration}
    (sound : Configuration.ofValue (.map data) = .ok c) :
    data.find? rulesKey = some (.map c.rules) :=
  (hasFields_of_ofValue sound).rules

/-!
### The order of the names
-/

open Table

/-- The names of the rules in layers, read one after another. -/
def namesIn (layers : List Mapping) : List Key :=
  layers.flatMap fun layer => keys (layer.field rulesKey)

/-- Rules are listed in the order in which their names first occur in layers: an upper layer
leaves the names of those below it in their places, and adds its new names behind them.  Every
name of a layer is listed once. -/
structure ListsRules (layers : List Mapping) (rules : Mapping) : Prop where
  listed : keys rules = firstKeys (namesIn layers)
  keeps : ∀ lower upper, layers = lower ++ upper →
    ∃ added, keys rules = firstKeys (namesIn lower) ++ added
      ∧ ∀ name ∈ added, name ∈ namesIn upper
          ∧ ∀ other ∈ namesIn lower, ¬ Sameness.same other name = true
  once : ∀ name ∈ namesIn layers,
    (keys rules).countP (fun other => Sameness.same other name) = 1

/-- Rules without repeats are listed by layers when their names come in the layers' order. -/
theorem listsRules_of_keys {layers : List Mapping} {rules : Mapping}
    (distinct : isDistinct rules = true) (listed : keys rules = firstKeys (namesIn layers)) :
    ListsRules layers rules where
  listed := listed
  keeps lower upper split := by
    have names : namesIn layers = namesIn lower ++ namesIn upper := by
      rw [split, namesIn, List.flatMap_append]
      rfl
    obtain ⟨added, placed, fresh⟩ :=
      foldl_addKey_eq_append (namesIn upper) (firstKeys (namesIn lower))
    refine ⟨added, by rw [listed, names, firstKeys_append, placed], ?_⟩
    intro name member
    obtain ⟨inUpper, new⟩ := fresh name member
    refine ⟨inUpper, ?_⟩
    intro other inLower same
    apply new
    rw [any_firstKeys]
    exact List.any_eq_true.2 ⟨other, inLower, same⟩
  once name member := by
    apply countP_same_eq_one (isDistinct_iff_pairwise.1 distinct)
    rw [listed, any_firstKeys]
    exact List.any_eq_true.2 ⟨name, member, Key.same_refl name⟩

/-- The rules of a tree with one more layer above it come in the order of the layers, read from
the last one to the first and then the one above. -/
theorem keys_field_flatten_merge {tree : Inheritance} {above : Mapping}
    (has : ∀ layer ∈ tree.layers, layer.HasField rulesKey) (hasAbove : above.HasField rulesKey) :
    keys ((tree.flatten.merge above).field rulesKey)
      = firstKeys (namesIn (tree.layers.reverse ++ [above])) := by
  obtain ⟨hasResult, fieldResult⟩ := Inheritance.field_flatten has
  have distinct : ∀ layer ∈ (tree.fields rulesKey).layers, isDistinct layer = true := by
    rw [Inheritance.layers_fields]
    intro layer member
    obtain ⟨source, memberSource, rfl⟩ := List.mem_map.1 member
    exact (has source memberSource).isDistinct_field
  have inTree : keys (tree.flatten.field rulesKey) = firstKeys (namesIn tree.layers.reverse) := by
    rw [fieldResult, Inheritance.keys_flatten distinct, Inheritance.layers_fields,
      ← List.map_reverse, List.flatMap_map]
    rfl
  have names : namesIn (tree.layers.reverse ++ [above])
      = namesIn tree.layers.reverse ++ keys (above.field rulesKey) := by
    rw [namesIn, List.flatMap_append, List.flatMap_singleton]
    rfl
  rw [Mapping.field_merge hasResult hasAbove, Mapping.merge, keys_mergeEntries, inTree, names,
    firstKeys_append]

/-- The layers that the rules of a run are read from, the lowest first: the configurations that
are extended, against their precedence and each with its labels apart from those of the others,
and then the overrides. -/
def readings (sources : List Mapping) (options : Mapping) : List Mapping :=
  (apartLayers 0 (sources.map fun source => source.without extendsKey)).reverse
    ++ [overrideLayer options]

/-- The rules of a prepared configuration come in the order in which their names first occur
in the configurations that it extends and the overrides, as long as the rules of each are a
mapping or absent; and dispatches bind and run the enabled ones in this order. -/
theorem prepare_rule_order {w : World} {options : Mapping} {c : Configuration} {base : Path}
    (prepared : (prepare w (.map options)).outcome = .ok (c, base)) :
    ∃ config sources, configOf options = .map config
      ∧ Precedence w config base sources
      ∧ (∀ others, Precedence w config base others → others = sources)
      ∧ ((∀ layer ∈ readings sources options, layer.HasField rulesKey) →
          ListsRules (readings sources options) c.rules)
      ∧ ∀ registry d r, (dispatch c.rules registry d r).Follows (enabledNames c.rules) := by
  obtain ⟨config, resolved, merged, held, _, resolution, laid, sound⟩ :=
    prepare_ok_iff.1 prepared
  obtain ⟨tree, sources, rfl, precedence, layersEq⟩ := exists_tree_of_resolveConfig resolution
  refine ⟨config, sources, held, precedence, fun others again => again.unique precedence, ?_,
    follows_dispatch c.rules⟩
  intro has
  simp only [readings, List.forall_mem_append, List.mem_reverse, List.forall_mem_singleton,
    ← layersEq] at has
  obtain ⟨hasLayers, hasOverrides⟩ := has
  have rulesEq : c.rules = (tree.flatten.merge (overrideLayer options)).field rulesKey := by
    rw [applyOverrides?_eq_some laid] at sound
    exact (Mapping.field_of_map (find?_rulesKey_of_ofValue sound)).symm
  have hasMerged := (Inheritance.field_flatten hasLayers).1.merge hasOverrides
  apply listsRules_of_keys
  · rw [rulesEq]
    exact hasMerged.isDistinct_field
  · rw [rulesEq, keys_field_flatten_merge hasLayers hasOverrides, layersEq, readings]

/-!
The configuration that extends two files, with overrides.  The lowest file lists `y` before
`z`, the file above it brings `x`, and the overrides change `x` in its place and bring `w`.
-/

/-- Options that override a rule and bring another one. -/
def overridingOptions : Mapping :=
  [(.str "config", .map sharingConfig),
   (.str "config_overrides", .map [(.str "rules", .map [(.str "x", .int 0), (.str "w", .int 1)])])]

theorem prepare_rule_order_overriding :
    ∃ c base, (prepare sharedFiles (.map overridingOptions)).outcome = .ok (c, base)
      ∧ keys c.rules = [.str "y", .str "z", .str "x", .str "w"]
      ∧ enabledNames c.rules = [.str "y", .str "w"]
      ∧ ListsRules (readings [sharingConfig, teamEntries, houseEntries, houseEntries]
          overridingOptions) c.rules := by
  let rules : Mapping :=
    [(.str "y", .int 1), (.str "z", .int 0), (.str "x", .int 0), (.str "w", .int 1)]
  have prepared : (prepare sharedFiles (.map overridingOptions)).outcome
      = .ok (⟨rules, [], true, none⟩, ⟨.root, []⟩) := by cbv
  obtain ⟨config, sources, held, _, unique, lists, _⟩ := prepare_rule_order prepared
  cases held
  have listed := unique _ precedence_sharing
  subst listed
  exact ⟨_, _, prepared, rfl, by cbv, lists (by decide)⟩

end StyleAudit
