/-
Module: StyleAudit.Proofs.Config.Precedence
Purpose: Which of the configurations in an inheritance tree has the say at a path of the
  resolved configuration.
Trusted boundary: none
Main exports: Precedence, Prevails, at?_flatten_of_prevails, at?_of_flatten,
  resolveConfig_precedence
-/
import StyleAudit.Proofs.Config.Gathering
import StyleAudit.Proofs.Value.MergePaths
import Mathlib

namespace StyleAudit

/-!
### The order of precedence

The order is told by lookups and files alone, without the chain, the tree and the merging
of the resolution.
-/

mutual

/-- The configurations that a configuration comes to, by precedence: itself, and then for
each of its lookups in turn what the file comes to that the lookup names. Plugins of a file
are seen from the file's directory. -/
inductive Precedence (w : World) : Mapping → Path → List Mapping → Prop where
  | own {config : Mapping} {base : Path} {lookups : List Text} {inherited : List Mapping}
      (named : lookupsOf config = .ok lookups)
      (below : PrecedenceAll w lookups base inherited) :
      Precedence w config base (config :: inherited)

/-- The configurations that the files named by lookups come to, by precedence. -/
inductive PrecedenceAll (w : World) : List Text → Path → List Mapping → Prop where
  | nil {base : Path} : PrecedenceAll w [] base []
  | cons {lookup : Text} {rest : List Text} {base : Path} {file : w.tree.File}
      {entries : Mapping} {first others : List Mapping}
      (looked : w.lookupFile lookup base = .ok (some file))
      (read : w.readConfig file.path = .ok entries)
      (head : Precedence w (anchorPlugins entries file.directory) file.directory first)
      (tail : PrecedenceAll w rest base others) :
      PrecedenceAll w (lookup :: rest) base (first ++ others)

end

mutual

/-- A configuration comes to one list of configurations only. -/
theorem Precedence.unique {w : World} {config : Mapping} {base : Path} :
    ∀ {first second : List Mapping}, Precedence w config base first →
      Precedence w config base second → first = second
  | _, _, .own named below, .own namedAgain belowAgain => by
      rw [named, Except.ok.injEq] at namedAgain
      subst namedAgain
      rw [PrecedenceAll.unique below belowAgain]

/-- Lookups come to one list of configurations only. -/
theorem PrecedenceAll.unique {w : World} {lookups : List Text} {base : Path} :
    ∀ {first second : List Mapping}, PrecedenceAll w lookups base first →
      PrecedenceAll w lookups base second → first = second
  | _, _, .nil, .nil => rfl
  | _, _, .cons looked read head tail, .cons lookedAgain readAgain headAgain tailAgain => by
      rw [looked, Except.ok.injEq, Option.some.injEq] at lookedAgain
      subst lookedAgain
      rw [read, Except.ok.injEq] at readAgain
      subst readAgain
      rw [Precedence.unique head headAgain, PrecedenceAll.unique tail tailAgain]

end

mutual

/-- The layers of a gathered tree are the configurations by precedence, each without its
list of lookups. -/
theorem precedence_of_gather {w : World} :
    ∀ {tree : Inheritance} {chain : List Location} {config : Mapping} {base : Path},
      (gather w chain config base).outcome = .ok tree →
        ∃ sources, Precedence w config base sources
          ∧ tree.layers = sources.map fun source => source.without extendsKey
  | .layer own parents, chain, config, base, gathered => by
      obtain ⟨lookups, trees, named, inner, same⟩ := gather_ok_iff.1 gathered
      cases same
      obtain ⟨inherited, below, layersEq⟩ := precedenceAll_of_gatherAll inner
      refine ⟨config :: inherited, .own named below, ?_⟩
      rw [Inheritance.layers, layersEq, List.map_cons]

/-- The layers of gathered trees are the configurations by precedence. -/
theorem precedenceAll_of_gatherAll {w : World} :
    ∀ {trees : List Inheritance} {chain : List Location} {lookups : List Text} {base : Path},
      (gatherAll w chain lookups base).outcome = .ok trees →
        ∃ sources, PrecedenceAll w lookups base sources
          ∧ Inheritance.layersAll trees = sources.map fun source => source.without extendsKey
  | trees, chain, [], base, gathered => by
      rw [outcome_gatherAll_nil, Except.ok.injEq] at gathered
      subst gathered
      exact ⟨[], .nil, rfl⟩
  | [], chain, lookup :: rest, base, gathered => by
      obtain ⟨_, _, _, _, _, _, _, _, _, same⟩ := gatherAll_cons_ok_iff.1 gathered
      cases same
  | tree :: trees, chain, lookup :: rest, base, gathered => by
      obtain ⟨file, entries, parent, others, looked, _, read, inner, outer, same⟩ :=
        gatherAll_cons_ok_iff.1 gathered
      cases same
      obtain ⟨first, head, layersFirst⟩ := precedence_of_gather inner
      obtain ⟨second, tail, layersSecond⟩ := precedenceAll_of_gatherAll outer
      refine ⟨first ++ second, .cons looked read head tail, ?_⟩
      rw [Inheritance.layersAll, layersFirst, layersSecond, List.map_append]

end

/-!
### What prevails among layers
-/

/-- The first layer that has a say at a path holds a value there. -/
def Prevails (path : List Key) (v : Value) : List Mapping → Prop
  | [] => False
  | layer :: rest =>
      (Value.map layer).at? path = some v
        ∨ ((Value.map layer).IsSilentAt path ∧ Prevails path v rest)

theorem prevails_append {path : List Key} {v : Value} {first second : List Mapping} :
    Prevails path v (first ++ second) ↔
      Prevails path v first
        ∨ ((∀ layer ∈ first, (Value.map layer).IsSilentAt path) ∧ Prevails path v second) := by
  induction first with
  | nil => simp [Prevails]
  | cons layer rest ih =>
      simp only [List.cons_append, Prevails, ih, List.forall_mem_cons]
      constructor
      · rintro (holds | ⟨silent, prevails | ⟨silentRest, prevails⟩⟩)
        · exact Or.inl (Or.inl holds)
        · exact Or.inl (Or.inr ⟨silent, prevails⟩)
        · exact Or.inr ⟨⟨silent, silentRest⟩, prevails⟩
      · rintro ((holds | ⟨silent, prevails⟩) | ⟨⟨silent, silentRest⟩, prevails⟩)
        · exact Or.inl holds
        · exact Or.inr ⟨silent, Or.inl prevails⟩
        · exact Or.inr ⟨silent, Or.inr ⟨silentRest, prevails⟩⟩

/-!
### What a tree comes to

Trees are laid one after another below what was gathered before, so each induction over
trees speaks about a mapping above them, which counts as one more layer in front.
-/

section Flatten

open Inheritance

mutual

theorem hasTextKeys_flatten :
    ∀ {tree : Inheritance}, (∀ layer ∈ tree.layers, layer.hasTextKeys = true) →
      tree.flatten.hasTextKeys = true
  | .layer own parents, keyed => by
      simp only [layers, List.forall_mem_cons] at keyed
      rw [flatten]
      exact hasTextKeys_flattenBelow keyed.1 keyed.2

theorem hasTextKeys_flattenBelow :
    ∀ {trees : List Inheritance} {above : Mapping}, above.hasTextKeys = true →
      (∀ layer ∈ layersAll trees, layer.hasTextKeys = true) →
        (flattenBelow above trees).hasTextKeys = true
  | [], _, keyedAbove, _ => keyedAbove
  | tree :: rest, above, keyedAbove, keyed => by
      simp only [layersAll, List.forall_mem_append] at keyed
      have keyedMerge := hasTextKeys_merge (hasTextKeys_flatten keyed.1) keyedAbove
      rw [flattenBelow]
      exact hasTextKeys_flattenBelow keyedMerge keyed.2

end

mutual

/-- Where no layer has a say, what the tree comes to has none. -/
theorem isSilentAt_flatten {path : List Key} :
    ∀ {tree : Inheritance}, (∀ layer ∈ tree.layers, layer.hasTextKeys = true) →
      (∀ layer ∈ tree.layers, (Value.map layer).IsSilentAt path) →
        (Value.map tree.flatten).IsSilentAt path
  | .layer own parents, keyed, silent => by
      simp only [layers, List.forall_mem_cons] at keyed silent
      rw [flatten]
      exact isSilentAt_flattenBelow keyed.1 keyed.2 silent.1 silent.2

theorem isSilentAt_flattenBelow {path : List Key} :
    ∀ {trees : List Inheritance} {above : Mapping}, above.hasTextKeys = true →
      (∀ layer ∈ layersAll trees, layer.hasTextKeys = true) →
        (Value.map above).IsSilentAt path →
          (∀ layer ∈ layersAll trees, (Value.map layer).IsSilentAt path) →
            (Value.map (flattenBelow above trees)).IsSilentAt path
  | [], _, _, _, silentAbove, _ => silentAbove
  | tree :: rest, above, keyedAbove, keyed, silentAbove, silent => by
      simp only [layersAll, List.forall_mem_append] at keyed silent
      have keyedMerge := hasTextKeys_merge (hasTextKeys_flatten keyed.1) keyedAbove
      have silentTree := isSilentAt_flatten keyed.1 silent.1
      rw [flattenBelow]
      exact isSilentAt_flattenBelow keyedMerge keyed.2
        (isSilentAt_merge keyedAbove silentTree silentAbove) silent.2

end

mutual

/-- The layer that prevails at a path decides what the tree comes to there. -/
theorem at?_flatten_of_prevails {path : List Key} {v : Value} (scalar : v.isMapping = false) :
    ∀ {tree : Inheritance}, (∀ layer ∈ tree.layers, layer.hasTextKeys = true) →
      Prevails path v tree.layers → (Value.map tree.flatten).at? path = some v
  | .layer own parents, keyed, prevails => by
      simp only [layers, List.forall_mem_cons] at keyed prevails
      rw [flatten]
      exact at?_flattenBelow_of_prevails scalar keyed.1 keyed.2 prevails

theorem at?_flattenBelow_of_prevails {path : List Key} {v : Value}
    (scalar : v.isMapping = false) :
    ∀ {trees : List Inheritance} {above : Mapping}, above.hasTextKeys = true →
      (∀ layer ∈ layersAll trees, layer.hasTextKeys = true) →
        Prevails path v (above :: layersAll trees) →
          (Value.map (flattenBelow above trees)).at? path = some v
  | [], above, _, _, prevails => by
      rcases prevails with holds | ⟨_, impossible⟩
      · exact holds
      · exact impossible.elim
  | tree :: rest, above, keyedAbove, keyed, prevails => by
      simp only [layersAll, List.forall_mem_append] at keyed
      have keyedMerge := hasTextKeys_merge (hasTextKeys_flatten keyed.1) keyedAbove
      rw [flattenBelow]
      refine at?_flattenBelow_of_prevails scalar keyedMerge keyed.2 ?_
      rcases prevails with holds | ⟨silentAbove, prevails⟩
      · exact Or.inl (at?_merge_of_scalar keyedAbove holds scalar)
      · rw [layersAll, prevails_append] at prevails
        rcases prevails with inTree | ⟨silentTree, inRest⟩
        · have holds := at?_flatten_of_prevails scalar keyed.1 inTree
          exact Or.inl (by rw [at?_merge_of_silent keyedAbove silentAbove, holds])
        · have silent := isSilentAt_flatten keyed.1 silentTree
          exact Or.inr ⟨isSilentAt_merge keyedAbove silent silentAbove, inRest⟩

end

mutual

/-- A value of what a tree comes to that is no mapping stands at the same path in a layer. -/
theorem at?_of_flatten {path : List Key} {v : Value} (scalar : v.isMapping = false) :
    ∀ {tree : Inheritance}, (∀ layer ∈ tree.layers, layer.hasTextKeys = true) →
      (Value.map tree.flatten).at? path = some v →
        ∃ layer ∈ tree.layers, (Value.map layer).at? path = some v
  | .layer own parents, keyed, holds => by
      simp only [layers, List.forall_mem_cons] at keyed
      rw [flatten] at holds
      exact at?_of_flattenBelow scalar keyed.1 keyed.2 holds

theorem at?_of_flattenBelow {path : List Key} {v : Value} (scalar : v.isMapping = false) :
    ∀ {trees : List Inheritance} {above : Mapping}, above.hasTextKeys = true →
      (∀ layer ∈ layersAll trees, layer.hasTextKeys = true) →
        (Value.map (flattenBelow above trees)).at? path = some v →
          ∃ layer ∈ above :: layersAll trees, (Value.map layer).at? path = some v
  | [], above, _, _, holds => ⟨above, by simp, holds⟩
  | tree :: rest, above, keyedAbove, keyed, holds => by
      simp only [layersAll, List.forall_mem_append] at keyed
      have keyedMerge := hasTextKeys_merge (hasTextKeys_flatten keyed.1) keyedAbove
      rw [flattenBelow] at holds
      obtain ⟨layer, member, holdsLayer⟩ := at?_of_flattenBelow scalar keyedMerge keyed.2 holds
      rcases List.mem_cons.mp member with same | inRest
      · subst same
        rcases at?_of_merge_of_scalar keyedAbove holdsLayer scalar with inAbove | inTree
        · exact ⟨above, by simp, inAbove⟩
        · obtain ⟨inner, memberTree, holdsInner⟩ := at?_of_flatten scalar keyed.1 inTree
          exact ⟨inner, by simp [layersAll, memberTree], holdsInner⟩
      · exact ⟨layer, by simp [layersAll, inRest], holdsLayer⟩

end

mutual

/-- Layers keyed by texts carry no labels, so none has to be moved. -/
theorem apartFrom_zero :
    ∀ {tree : Inheritance}, (∀ layer ∈ tree.layers, layer.hasTextKeys = true) →
      tree.apartFrom 0 = (tree, 0)
  | .layer own parents, keyed => by
      simp only [layers, List.forall_mem_cons] at keyed
      have unlabelled : own.labels = 0 :=
        labelsOfEntries_of_entriesHaveTextKeys (own.hasTextKeys_eq ▸ keyed.1)
      simp [apartFrom, unlabelled, apartAll_zero keyed.2]

theorem apartAll_zero :
    ∀ {trees : List Inheritance}, (∀ layer ∈ layersAll trees, layer.hasTextKeys = true) →
      apartAll 0 trees = (trees, 0)
  | [], _ => rfl
  | tree :: rest, keyed => by
      simp only [layersAll, List.forall_mem_append] at keyed
      simp [apartAll, apartFrom_zero keyed.1, apartAll_zero keyed.2]

end

end Flatten

/-!
### The resolved configuration
-/

/-- Layers, the first one first, govern a mapping.  At every path the first layer that holds
a value there decides, if that value is no mapping and the layers before it hold nothing but
mappings on the way to the path; and every value of the mapping that is no mapping stands at
the same path in a layer. -/
structure Governs (layers : List Mapping) (result : Mapping) : Prop where
  decides : ∀ before layer after path v, layers = before ++ layer :: after →
    (∀ other ∈ before, (Value.map other).IsSilentAt path) →
      (Value.map layer).at? path = some v → v.isMapping = false →
        (Value.map result).at? path = some v
  given : ∀ path v, (Value.map result).at? path = some v → v.isMapping = false →
    ∃ layer ∈ layers, (Value.map layer).at? path = some v

/-- The layers of a tree govern what it comes to. -/
theorem governs_flatten {tree : Inheritance}
    (keyed : ∀ layer ∈ tree.layers, layer.hasTextKeys = true) :
    Governs tree.layers tree.flatten where
  decides before layer after path v split silent holds scalar := by
    apply at?_flatten_of_prevails scalar keyed
    rw [split]
    exact prevails_append.2 (Or.inr ⟨silent, Or.inl holds⟩)
  given _ _ holds scalar := at?_of_flatten scalar keyed holds

theorem hasTextKeys_without {name : Text} {config : Mapping} (keyed : config.hasTextKeys = true) :
    (config.without name).hasTextKeys = true := by
  rw [Mapping.hasTextKeys_eq] at keyed ⊢
  exact entriesHaveTextKeys_erase keyed

theorem find?_without {name : Text} {config : Mapping} (keyed : config.hasTextKeys = true) :
    (config.without name).find? name = none := by
  rw [Mapping.hasTextKeys_eq] at keyed
  exact Table.get?_erase_of_same (Key.same_refl _) (isDistinct_of_entriesHaveTextKeys keyed)

/-- A name that no layer holds at the top is not held by what the tree comes to. -/
theorem find?_flatten_eq_none {name : Text} {tree : Inheritance}
    (keyed : ∀ layer ∈ tree.layers, layer.hasTextKeys = true)
    (absent : ∀ layer ∈ tree.layers, layer.find? name = none) :
    tree.flatten.find? name = none := by
  have silent : ∀ layer ∈ tree.layers, (Value.map layer).IsSilentAt [.str name] := by
    intro layer member
    have missing : Table.get? (.str name) layer = none := absent layer member
    exact isSilentAt_map_cons.2 (by simp [missing])
  have nothing := (isSilentAt_flatten keyed silent).1
  simpa [Mapping.find?] using nothing

/-- A resolved configuration is governed by the configurations that it comes to, taken by
precedence and without their lists of lookups, as long as all of them are keyed by texts; and
it holds no list of lookups itself. -/
theorem resolveConfig_precedence {w : World} {config result : Mapping} {base : Path}
    (resolved : (resolveConfig w config base).outcome = .ok result) :
    ∃ sources, Precedence w config base sources
      ∧ (∀ others, Precedence w config base others → others = sources)
      ∧ ((∀ source ∈ sources, source.hasTextKeys = true) →
          Governs (sources.map fun source => source.without extendsKey) result
            ∧ result.find? extendsKey = none) := by
  rw [resolveConfig, Logged.outcome_bind, bind_eq_ok_iff] at resolved
  obtain ⟨tree, gathered, flattened⟩ := resolved
  obtain ⟨sources, precedence, layersEq⟩ := precedence_of_gather gathered
  refine ⟨sources, precedence, fun others again => again.unique precedence, ?_⟩
  intro keyed
  have eachLayer : ∀ layer ∈ tree.layers,
      layer.hasTextKeys = true ∧ layer.find? extendsKey = none := by
    intro layer member
    rw [layersEq] at member
    obtain ⟨source, memberSource, rfl⟩ := List.mem_map.mp member
    have keyedSource := keyed source memberSource
    exact ⟨hasTextKeys_without keyedSource, find?_without keyedSource⟩
  have keyedLayers := fun layer member => (eachLayer layer member).1
  have same : tree.flatten = result := by
    rw [Logged.outcome_pure, Except.ok.injEq, Inheritance.apart, apartFrom_zero keyedLayers]
      at flattened
    exact flattened
  rw [← same, ← layersEq]
  exact ⟨governs_flatten keyedLayers,
    find?_flatten_eq_none keyedLayers fun layer member => (eachLayer layer member).2⟩

/-!
A configuration that reaches one file both directly and through another file.  The file
reached first has the say over the other, and the configuration over both.
-/

/-- The entries of a file that extends the next one. -/
def teamEntries : Mapping :=
  [(.str "extends", .str "./house.py"),
   (.str "rules", .map [(.str "x", .int 1), (.str "y", .int 1)])]

/-- The entries of a file that extends nothing. -/
def houseEntries : Mapping :=
  [(.str "rules", .map [(.str "y", .int 2), (.str "z", .int 2)]),
   (.str "quiet", .bool true)]

/-- The two files. -/
def sharedFiles : World where
  tree := ⟨[
    (["team.py"], .module (.exporting (some (.map teamEntries)) .absent)),
    (["house.py"], .module (.exporting (some (.map houseEntries)) .absent))]⟩
  workingDirectory := []
  searchPath := []

/-- A configuration that extends both files. -/
def sharingConfig : Mapping :=
  [(.str "extends", .seq [.str "./team.py", .str "./house.py"]),
   (.str "rules", .map [(.str "z", .int 0)])]

/-- What the configuration comes to. -/
def sharingResult : Mapping :=
  [(.str "rules", .map [(.str "y", .int 1), (.str "z", .int 0), (.str "x", .int 1)]),
   (.str "quiet", .bool true)]

theorem precedence_sharing :
    Precedence sharedFiles sharingConfig ⟨.root, []⟩
      [sharingConfig, teamEntries, houseEntries, houseEntries] := by
  let team : sharedFiles.tree.File := ⟨["team.py"], by decide⟩
  let house : sharedFiles.tree.File := ⟨["house.py"], by decide⟩
  have teamLooked : sharedFiles.lookupFile "./team.py" ⟨.root, []⟩ = .ok (some team) := rfl
  have houseLooked : sharedFiles.lookupFile "./house.py" ⟨.root, []⟩ = .ok (some house) := rfl
  have teamRead : sharedFiles.readConfig team.path = .ok teamEntries := by cbv
  have houseRead : sharedFiles.readConfig house.path = .ok houseEntries := by cbv
  have houseNames : lookupsOf houseEntries = .ok [] := rfl
  have teamNames : lookupsOf teamEntries = .ok ["./house.py"] := rfl
  have ownNames : lookupsOf sharingConfig = .ok ["./team.py", "./house.py"] := rfl
  have belowHouse : PrecedenceAll sharedFiles ["./house.py"] ⟨.root, []⟩ [houseEntries] :=
    .cons houseLooked houseRead (.own houseNames .nil) .nil
  exact .own ownNames (.cons teamLooked teamRead (.own teamNames belowHouse) belowHouse)

theorem resolveConfig_precedence_sharing :
    (resolveConfig sharedFiles sharingConfig ⟨.root, []⟩).outcome = .ok sharingResult
      ∧ Governs ([sharingConfig, teamEntries, houseEntries, houseEntries].map
          fun source => source.without extendsKey) sharingResult := by
  have resolved : (resolveConfig sharedFiles sharingConfig ⟨.root, []⟩).outcome
      = .ok sharingResult := by cbv
  obtain ⟨sources, _, unique, governs⟩ := resolveConfig_precedence resolved
  have listed := unique _ precedence_sharing
  subst listed
  exact ⟨resolved, (governs (by decide)).1⟩

end StyleAudit
