/-
Module: StyleAudit.Proofs.Config.Stacking
Purpose: Where mappings only ever meet mappings, to lay each file that is extended below what was
  gathered before it is to merge all layers one after another, from the lowest on.
Trusted boundary: none
Main exports: flatten_eq_stackOver, resolveConfig_eq_stackOver, merge_laws
-/
import StyleAudit.Proofs.Config.Fields
import StyleAudit.Proofs.Value.MergeAlgebra
import Mathlib

namespace StyleAudit

/-!
### Trees

A tree is flattened from the top down, and layers are stacked from the bottom up.  Each step of
the induction over trees regroups one merge.
-/

section Trees

open Inheritance

/-- A tree laid below a mapping agrees, with that mapping, with the layers further down. -/
theorem agreeInKind_merge {own : List Mapping} {above : Mapping} {further : List Mapping}
    (keyedAbove : above.hasTextKeys = true) (keyed : ∀ layer ∈ own, layer.hasTextKeys = true)
    (agree : AgreeInKind (above :: (own ++ further))) :
    AgreeInKind ((stackOver [] own).merge above :: further) := by
  obtain ⟨agreesAbove, agreeOwn⟩ := List.pairwise_cons.1 agree
  obtain ⟨_, agreeFurther, between⟩ := List.pairwise_append.1 agreeOwn
  apply List.pairwise_cons.2
  refine ⟨?_, agreeFurther⟩
  intro layer member
  have withOwn : (Value.map layer).AgreesInKind (.map (stackOver [] own)) :=
    agreesInKind_stackOver keyed fun other listed => (between other listed layer member).symm
  have withAbove : (Value.map layer).AgreesInKind (.map above) :=
    (agreesAbove layer (List.mem_append_right own member)).symm
  exact (withOwn.merge keyedAbove withAbove).symm

mutual

/-- What a tree comes to is its layers stacked, where mappings only meet mappings. -/
theorem flatten_eq_stackOver :
    ∀ {tree : Inheritance}, (∀ layer ∈ tree.layers, layer.hasTextKeys = true) →
      AgreeInKind tree.layers → tree.flatten = stackOver [] tree.layers
  | .layer own parents, keyed, agree => by
      rw [layers] at agree ⊢
      simp only [layers, List.forall_mem_cons] at keyed
      rw [flatten]
      exact flattenBelow_eq_stackOver keyed.1 keyed.2 agree

theorem flattenBelow_eq_stackOver :
    ∀ {trees : List Inheritance} {above : Mapping}, above.hasTextKeys = true →
      (∀ layer ∈ layersAll trees, layer.hasTextKeys = true) →
        AgreeInKind (above :: layersAll trees) →
          flattenBelow above trees = stackOver [] (above :: layersAll trees)
  | [], above, keyedAbove, _, _ => (merge_nil_left keyedAbove).symm
  | tree :: rest, above, keyedAbove, keyed, agree => by
      rw [layersAll] at agree ⊢
      simp only [layersAll, List.forall_mem_append] at keyed
      obtain ⟨agreesAbove, agreeLayers⟩ := List.pairwise_cons.1 agree
      have agreeTree : AgreeInKind tree.layers := (List.pairwise_append.1 agreeLayers).1
      have stacked : tree.flatten = stackOver [] tree.layers :=
        flatten_eq_stackOver keyed.1 agreeTree
      have keyedTree := hasTextKeys_flatten keyed.1
      have keyedRest : (stackOver [] (layersAll rest)).hasTextKeys = true :=
        hasTextKeys_stackOver rfl keyed.2
      have belowAbove : (Value.map tree.flatten).AgreesInKind (.map above) := by
        rw [stacked]
        exact (agreesInKind_stackOver keyed.1 fun layer member =>
          agreesAbove layer (List.mem_append_left _ member)).symm
      have agreeMerge : AgreeInKind (tree.flatten.merge above :: layersAll rest) := by
        rw [stacked]
        exact agreeInKind_merge keyedAbove keyed.1 agree
      calc flattenBelow above (tree :: rest)
          = stackOver [] (tree.flatten.merge above :: layersAll rest) := by
            rw [flattenBelow]
            exact flattenBelow_eq_stackOver (hasTextKeys_merge keyedTree keyedAbove) keyed.2
              agreeMerge
        _ = ((stackOver [] (layersAll rest)).merge tree.flatten).merge above := by
            rw [stackOver_cons, merge_assoc keyedRest keyedTree keyedAbove belowAbove]
        _ = stackOver [] (above :: (tree.layers ++ layersAll rest)) := by
            rw [stacked, ← stackOver_eq_merge keyedRest keyed.1 agreeTree, ← stackOver_append,
              stackOver_cons]

end

/-- No label has to be moved in layers that are keyed by texts. -/
theorem apartLayers_of_keyed {layers : List Mapping}
    (keyed : ∀ layer ∈ layers, layer.hasTextKeys = true) : apartLayers 0 layers = layers := by
  induction layers with
  | nil => rfl
  | cons layer rest ih =>
      obtain ⟨keyedLayer, keyedRest⟩ := List.forall_mem_cons.1 keyed
      have unlabelled : layer.labels = 0 :=
        labelsOfEntries_of_entriesHaveTextKeys (layer.hasTextKeys_eq ▸ keyedLayer)
      rw [apartLayers, Mapping.relabel_zero, unlabelled, ih keyedRest]

end Trees

/-!
### Resolved configurations
-/

/-- A resolved configuration is one merge of the configurations that it comes to, each without its
list of lookups, from the one of lowest precedence on. -/
theorem resolveConfig_eq_stackOver {w : World} {config result : Mapping} {base : Path}
    (resolved : (resolveConfig w config base).outcome = .ok result) :
    ∃ sources, Precedence w config base sources
      ∧ ((∀ source ∈ sources, source.hasTextKeys = true) →
          AgreeInKind (sources.map fun source => source.without extendsKey) →
            result = stackOver [] (sources.map fun source => source.without extendsKey)) := by
  obtain ⟨tree, sources, rfl, precedence, layersEq⟩ := exists_tree_of_resolveConfig resolved
  refine ⟨sources, precedence, ?_⟩
  intro keyed agree
  have keyedLayers : ∀ layer ∈ sources.map fun source => source.without extendsKey,
      layer.hasTextKeys = true := by
    intro layer member
    obtain ⟨source, listed, rfl⟩ := List.mem_map.1 member
    exact hasTextKeys_without (keyed source listed)
  rw [apartLayers_of_keyed keyedLayers] at layersEq
  rw [← layersEq] at keyedLayers agree ⊢
  exact flatten_eq_stackOver keyedLayers agree

/-- The empty mapping changes nothing on either side.  A layer laid twice is a layer laid once, and
so are overrides.  Where of three mappings one never holds a mapping at a path at which another
holds something else, their merges may be grouped either way; and where that is so of all
configurations that a configuration comes to, it resolves to one merge of them, from the lowest
precedence to the highest. -/
theorem merge_laws {a b c : Mapping} (keyedA : a.hasTextKeys = true)
    (keyedB : b.hasTextKeys = true) (keyedC : c.hasTextKeys = true) :
    Mapping.merge [] a = a ∧ a.merge [] = a
      ∧ (a.merge b).merge b = a.merge b
      ∧ (applyOverrides? (.map a) (.map b)).bind (fun once => applyOverrides? once (.map b))
          = applyOverrides? (.map a) (.map b)
      ∧ (AgreeInKind [a, b, c] → a.merge (b.merge c) = (a.merge b).merge c)
      ∧ ∀ (w : World) (config result : Mapping) (base : Path),
          (resolveConfig w config base).outcome = .ok result →
            ∃ sources, Precedence w config base sources
              ∧ ((∀ source ∈ sources, source.hasTextKeys = true) →
                  AgreeInKind (sources.map fun source => source.without extendsKey) →
                    (Value.map []).mergeLayers?
                        ((sources.map fun source => source.without extendsKey).reverse.map
                          Value.map)
                      = some (.map result)) := by
  have again : (a.merge b).merge b = a.merge b := merge_merge_self keyedA keyedB
  refine ⟨merge_nil_left keyedA, Mapping.merge_nil a, again, ?_, ?_, ?_⟩
  · rw [applyOverrides?_maps, Option.bind_some, applyOverrides?_maps, again]
  · intro agree
    have agreesUpper := (List.pairwise_cons.1 (List.pairwise_cons.1 agree).2).1
    exact merge_assoc keyedA keyedB keyedC (agreesUpper c (List.mem_singleton.2 rfl))
  · intro w config result base resolved
    obtain ⟨sources, precedence, stacked⟩ := resolveConfig_eq_stackOver resolved
    refine ⟨sources, precedence, ?_⟩
    intro keyed agree
    rw [mergeLayers?_reverse, stacked keyed agree]

/-!
Three layers of which the uppermost covers an entry of the lowest, and the configuration that
reaches one file both directly and through another.
-/

/-- Two entries below one key. -/
def groundLayer : Mapping := [(.str "x", .map [(.str "p", .int 1), (.str "q", .null)])]

/-- A third entry, and a list. -/
def middleLayer : Mapping := [(.str "x", .map [(.str "r", .int 2)]), (.str "y", .seq [])]

/-- Another value for the first entry and for the list. -/
def topLayer : Mapping := [(.str "y", .int 3), (.str "x", .map [(.str "p", .bool true)])]

theorem merge_laws_sharing :
    groundLayer.merge (middleLayer.merge topLayer) = (groundLayer.merge middleLayer).merge topLayer
      ∧ (Value.map []).mergeLayers?
          (([sharingConfig, teamEntries, houseEntries, houseEntries].map fun source =>
            source.without extendsKey).reverse.map Value.map) = some (.map sharingResult) := by
  have keyedGround : groundLayer.hasTextKeys = true := by decide
  have keyedMiddle : middleLayer.hasTextKeys = true := by decide
  have keyedTop : topLayer.hasTextKeys = true := by decide
  obtain ⟨_, _, _, _, grouped, folded⟩ := merge_laws keyedGround keyedMiddle keyedTop
  have checked {layers : List Mapping} (agree : layers.Pairwise fun upper lower =>
      (Value.map upper).kindsAgree (.map lower) = true) : AgreeInKind layers :=
    agree.imp agreesInKind_of_kindsAgree
  have resolved : (resolveConfig sharedFiles sharingConfig ⟨.root, []⟩).outcome
      = .ok sharingResult := by cbv
  obtain ⟨sources, precedence, merged⟩ := folded _ _ _ _ resolved
  have listed := precedence.unique precedence_sharing
  subst listed
  exact ⟨grouped (checked (by decide)), merged (by decide) (checked (by decide))⟩

end StyleAudit
