/-
Module: StyleAudit.Proofs.Config.Plugins
Purpose: A plugin that is inherited stays the plugin that the file which declares it names, from
  whatever directory it is looked up.
Trusted boundary: none
Main exports: Source, Lineage, lineage_of_precedence, apartSources, SameOutcome,
  resolveConfig_plugins
-/
import StyleAudit.Proofs.Config.ExtendsGraph
import StyleAudit.Proofs.Config.Fields
import StyleAudit.Proofs.FileSystem.PathText
import StyleAudit.Proofs.Value.Relabeling

namespace StyleAudit

/-!
### Where configurations come from
-/

/-- A configuration as it was declared, and the file that declares it; the configuration at the
top comes from no file. -/
structure Source (w : World) where
  declared : Mapping
  file : Option w.tree.File

namespace Source

variable {w : World}

/-- A declared lookup of a plugin as it is seen from anywhere. -/
def anchored (source : Source w) (v : Value) : Value :=
  match source.file with
  | none => v
  | some file => anchorLookup file.directory v

/-- The configuration with its plugins seen from anywhere. -/
def seen (source : Source w) : Mapping :=
  match source.file with
  | none => source.declared
  | some file => anchorPlugins source.declared file.directory

/-- What the configuration says by itself. -/
def layer (source : Source w) : Mapping :=
  source.seen.without extendsKey

end Source

mutual

/-- The configurations that a configuration comes to, by precedence, as they are declared. -/
inductive Lineage (w : World) : Source w → Path → List (Source w) → Prop where
  | own {source : Source w} {base : Path} {lookups : List Text} {inherited : List (Source w)}
      (named : lookupsOf source.declared = .ok lookups)
      (below : LineageAll w lookups base inherited) :
      Lineage w source base (source :: inherited)

/-- The configurations that the files named by lookups come to, as they are declared. -/
inductive LineageAll (w : World) : List Text → Path → List (Source w) → Prop where
  | nil {base : Path} : LineageAll w [] base []
  | cons {lookup : Text} {rest : List Text} {base : Path} {file : w.tree.File}
      {entries : Mapping} {first others : List (Source w)}
      (looked : w.lookupFile lookup base = .ok (some file))
      (read : w.readConfig file.path = .ok entries)
      (head : Lineage w ⟨entries, some file⟩ file.directory first)
      (tail : LineageAll w rest base others) :
      LineageAll w (lookup :: rest) base (first ++ others)

end

mutual

theorem Lineage.unique {w : World} {source : Source w} {base : Path} :
    ∀ {first second : List (Source w)}, Lineage w source base first →
      Lineage w source base second → first = second
  | _, _, .own named below, .own namedAgain belowAgain => by
      rw [named, Except.ok.injEq] at namedAgain
      subst namedAgain
      rw [LineageAll.unique below belowAgain]

theorem LineageAll.unique {w : World} {lookups : List Text} {base : Path} :
    ∀ {first second : List (Source w)}, LineageAll w lookups base first →
      LineageAll w lookups base second → first = second
  | _, _, .nil, .nil => rfl
  | _, _, .cons looked read head tail, .cons lookedAgain readAgain headAgain tailAgain => by
      rw [looked, Except.ok.injEq, Option.some.injEq] at lookedAgain
      subst lookedAgain
      rw [read, Except.ok.injEq] at readAgain
      subst readAgain
      rw [Lineage.unique head headAgain, LineageAll.unique tail tailAgain]

end

theorem Source.lookupsOf_seen {w : World} (source : Source w) :
    lookupsOf source.seen = lookupsOf source.declared := by
  unfold Source.seen
  cases source.file with
  | none => rfl
  | some file =>
      simp only [lookupsOf]
      rw [find?_anchorPlugins]

mutual

theorem lineage_of_precedence {w : World} :
    ∀ {config : Mapping} {base : Path} {mappings : List Mapping},
      Precedence w config base mappings → ∀ source : Source w, source.seen = config →
        ∃ sources, Lineage w source base sources ∧ mappings = sources.map Source.seen
  | _, _, _, .own named below, source, sees => by
      rw [← sees, source.lookupsOf_seen] at named
      obtain ⟨inherited, lineage, same⟩ := lineageAll_of_precedenceAll below
      exact ⟨source :: inherited, .own named lineage, by rw [List.map_cons, same, sees]⟩

theorem lineageAll_of_precedenceAll {w : World} :
    ∀ {lookups : List Text} {base : Path} {mappings : List Mapping},
      PrecedenceAll w lookups base mappings →
        ∃ sources, LineageAll w lookups base sources ∧ mappings = sources.map Source.seen
  | _, _, _, .nil => ⟨[], .nil, rfl⟩
  | _, _, _, .cons looked read head tail => by
      obtain ⟨first, lineage, sameFirst⟩ := lineage_of_precedence head ⟨_, some _⟩ rfl
      obtain ⟨others, lineageAll, sameOthers⟩ := lineageAll_of_precedenceAll tail
      exact ⟨first ++ others, .cons looked read lineage lineageAll,
        by rw [List.map_append, sameFirst, sameOthers]⟩

end

/-!
### Plugins of one configuration
-/

/-- The plugins are absent or a mapping to texts. -/
structure DeclaresPlugins (m : Mapping) : Prop where
  has : m.HasField pluginsKey
  texts : ∀ entry ∈ m.field pluginsKey, entry.2.text?.isSome = true

instance (m : Mapping) : Decidable (DeclaresPlugins m) :=
  decidable_of_iff
    (m.HasField pluginsKey ∧ ∀ entry ∈ m.field pluginsKey, entry.2.text?.isSome = true)
    ⟨fun ⟨has, texts⟩ => ⟨has, texts⟩, fun ⟨has, texts⟩ => ⟨has, texts⟩⟩

theorem DeclaresPlugins.lookup_of_get? {m : Mapping} (declares : DeclaresPlugins m) {name : Key}
    {v : Value} (found : Table.get? name (m.field pluginsKey) = some v) :
    ∃ lookup, v = .str lookup := by
  obtain ⟨k, member, _⟩ := Table.mem_of_get?_eq_some found
  have text := declares.texts (k, v) member
  cases v with
  | str lookup => exact ⟨lookup, rfl⟩
  | _ => cases text

namespace Source

variable {w : World} (source : Source w)

/-- The plugins that the configuration gives, seen from anywhere. -/
def plugins : Mapping :=
  (source.declared.field pluginsKey).map fun (name, v) => (name, source.anchored v)

theorem plugins_of_top (top : source.file = none) :
    source.plugins = source.declared.field pluginsKey := by
  have unchanged : source.anchored = id := by
    funext v
    simp only [anchored, top, id]
  rw [plugins, unchanged]
  exact List.map_id _

theorem isDistinct_seen (distinct : Table.isDistinct source.declared = true) :
    Table.isDistinct source.seen = true := by
  unfold seen
  cases source.file with
  | none => exact distinct
  | some file =>
      simp only [anchorPlugins]
      split
      · exact Table.isDistinct_put distinct _
      · exact distinct

variable {source}

theorem find?_seen_of_absent (absent : source.declared.find? pluginsKey = none) :
    source.seen.find? pluginsKey = none := by
  unfold seen
  cases source.file with
  | none => exact absent
  | some file =>
      simp only [anchorPlugins, absent]

theorem find?_seen_of_map {entries : Mapping}
    (held : source.declared.find? pluginsKey = some (.map entries)) :
    source.seen.find? pluginsKey = some (.map source.plugins) := by
  cases place : source.file with
  | none => rw [plugins_of_top source place, Mapping.field_of_map held, seen, place, held]
  | some file =>
      simp only [seen, place, anchorPlugins, held]
      rw [Mapping.find?, Table.get?_put_of_same (Key.same_refl _), plugins,
        Mapping.field_of_map held]
      simp only [anchored, place]

/-- The plugins of a configuration's layer are those that it gives. -/
theorem field_layer (declares : DeclaresPlugins source.declared) :
    source.layer.HasField pluginsKey ∧ source.layer.field pluginsKey = source.plugins := by
  have distinct : Table.isDistinct source.layer = true :=
    Table.isDistinct_erase (source.isDistinct_seen declares.has.distinct)
  have kept : source.layer.find? pluginsKey = source.seen.find? pluginsKey :=
    Table.get?_erase_of_not_same (by decide) _
  cases held : source.declared.find? pluginsKey with
  | none =>
      rw [find?_seen_of_absent held] at kept
      refine ⟨⟨distinct, ?_⟩, ?_⟩
      · intro v found
        rw [kept] at found
        cases found
      · rw [Mapping.field_of_absent kept, plugins, Mapping.field_of_absent held]
        rfl
  | some v =>
      obtain ⟨entries, rfl, distinctEntries⟩ := declares.has.shape v held
      rw [find?_seen_of_map held] at kept
      have distinctPlugins : Table.isDistinct source.plugins = true := by
        rw [plugins, Table.isDistinct_map_values, Mapping.field_of_map held]
        exact distinctEntries
      refine ⟨⟨distinct, ?_⟩, Mapping.field_of_map kept⟩
      intro u found
      rw [kept, Option.some.injEq] at found
      exact ⟨source.plugins, found.symm, distinctPlugins⟩

theorem get?_plugins (name : Key) :
    Table.get? name source.plugins
      = (Table.get? name (source.declared.field pluginsKey)).map source.anchored :=
  Table.get?_map_values source.anchored name _

theorem isFlat_plugins (declares : DeclaresPlugins source.declared) :
    Inheritance.IsFlat source.plugins where
  distinct := by
    rw [plugins, Table.isDistinct_map_values]
    exact declares.has.isDistinct_field
  scalar name v found := by
    rw [get?_plugins, Option.map_eq_some_iff] at found
    obtain ⟨u, declared, rfl⟩ := found
    obtain ⟨lookup, rfl⟩ := declares.lookup_of_get? declared
    unfold anchored anchorLookup
    cases source.file with
    | none => rfl
    | some file =>
        simp only
        split <;> rfl

end Source

/-!
### Configurations whose labels are apart
-/

theorem relabel_anchorLookup (distance : Nat) (directory : Path) (v : Value) :
    (anchorLookup directory v).relabel distance = anchorLookup directory (v.relabel distance) := by
  cases v with
  | str lookup =>
      simp only [anchorLookup, Value.relabel]
      split <;> simp only [Value.relabel]
  | seq items => simp only [anchorLookup, Value.relabel]
  | map entries => simp only [anchorLookup, Value.relabel]
  | _ => rfl

theorem relabel_anchorPlugins (distance : Nat) (m : Mapping) (directory : Path) :
    (anchorPlugins m directory).relabel distance
      = anchorPlugins (m.relabel distance) directory := by
  by_cases unmoved : distance = 0
  · subst unmoved
    rfl
  · rw [Mapping.relabel, if_neg unmoved, Mapping.relabel, if_neg unmoved, anchorPlugins,
      anchorPlugins, Mapping.find?, Mapping.find?, get?_relabelEntries]
    cases Table.get? (Key.str pluginsKey) m with
    | none => rfl
    | some v =>
        cases v with
        | map plugins =>
            simp only [Option.map_some, Value.relabel]
            rw [relabelEntries_put, Value.relabel,
              relabelEntries_map distance (relabel_anchorLookup distance directory)]
        | seq items => simp only [Option.map_some, Value.relabel]
        | _ => rfl

section Apart

variable {w : World}

/-- Configurations, each with its labels moved behind those of the ones before it. -/
def apartSources (given : Nat) : List (Source w) → List (Source w)
  | [] => []
  | source :: rest =>
      ⟨source.declared.relabel given, source.file⟩
        :: apartSources (given + source.layer.labels) rest

theorem layer_relabel (given : Nat) (source : Source w) :
    (⟨source.declared.relabel given, source.file⟩ : Source w).layer
      = source.layer.relabel given := by
  rw [Source.layer, Source.layer, relabel_without]
  congr 1
  unfold Source.seen
  cases source.file with
  | none => rfl
  | some file => exact (relabel_anchorPlugins given source.declared file.directory).symm

theorem map_layer_apartSources (sources : List (Source w)) :
    ∀ given, (apartSources given sources).map Source.layer
      = apartLayers given (sources.map Source.layer) := by
  induction sources with
  | nil =>
      intro given
      rfl
  | cons source rest ih =>
      intro given
      rw [apartSources, List.map_cons, List.map_cons, apartLayers, layer_relabel, ih]

end Apart

/-!
### What a lookup comes to
-/

/-- Two attempts to find something end alike: with the same thing, with a lookup that names
nothing, or with the same failure. -/
inductive SameOutcome {α : Type} : Except Failure α → Except Failure α → Prop where
  | found (a : α) : SameOutcome (.ok a) (.ok a)
  | missing (lookup other : Text) :
      SameOutcome (.error (.ofFault (.notFound lookup))) (.error (.ofFault (.notFound other)))
  | failed (failure : Failure) : SameOutcome (.error failure) (.error failure)

theorem sameOutcome_locate {w : World} {lookup other : Text} {base directory : Path}
    (same : w.lookupFile lookup base = w.lookupFile other directory) :
    SameOutcome (w.locate lookup base).outcome (w.locate other directory).outcome := by
  rw [outcome_locate, outcome_locate, same]
  cases w.lookupFile other directory with
  | error failure => exact .failed failure
  | ok found =>
      cases found with
      | none => exact .missing lookup other
      | some file => exact .found file

/-- The files of a tree stand under names that paths can have. -/
def FileTree.IsNamed (t : FileTree) : Prop :=
  ∀ place ∈ t.files, ∀ name ∈ place, Path.isName name = true

instance (t : FileTree) : Decidable t.IsNamed :=
  inferInstanceAs (Decidable (∀ place ∈ t.files, ∀ name ∈ place, Path.isName name = true))

theorem isProper_directory {t : FileTree} (named : t.IsNamed) (file : t.File) :
    file.directory.IsProper := by
  intro name member
  exact named file.place file.isFile name (List.mem_of_mem_dropLast member)

/-- What a resolved configuration holds for a plugin that a configuration declares with a lookup.
The lookup of a module, and any lookup of the configuration at the top, stays as it is; the
path of a file becomes a lookup that leads, from every base directory, to what the declared one
leads to from the directory of the declaring file. -/
def Source.Keeps {w : World} (source : Source w) (lookup : Text) (held : Value) : Prop :=
  match source.file with
  | none => held = .str lookup
  | some file =>
      if isPathLookup lookup then
        ∃ resulting, held = .str resulting ∧ ∀ base,
          SameOutcome (w.locate resulting base).outcome
            (w.locate lookup file.directory).outcome
      else held = .str lookup

theorem Source.keeps_anchored {w : World} (named : w.tree.IsNamed) (source : Source w)
    (lookup : Text) : source.Keeps lookup (source.anchored (.str lookup)) := by
  unfold Source.Keeps Source.anchored
  cases source.file with
  | none => rfl
  | some file =>
      simp only [anchorLookup]
      by_cases isPath : isPathLookup lookup = true
      · rw [if_pos isPath, if_pos isPath]
        refine ⟨_, rfl, ?_⟩
        intro base
        apply sameOutcome_locate
        exact lookupFile_anchored w (isProper_directory named file) rfl isPath base
      · rw [if_neg isPath, if_neg isPath]

/-- A plugin is the one that the first of some configurations to declare its name declares. -/
def InheritsPlugin {w : World} (sources : List (Source w)) (name : Key) (held : Value) : Prop :=
  ∃ before source after lookup, sources = before ++ source :: after
    ∧ (∀ other ∈ before, Table.get? name (other.declared.field pluginsKey) = none)
    ∧ Table.get? name (source.declared.field pluginsKey) = some (.str lookup)
    ∧ source.Keeps lookup held

theorem inheritsPlugin_of_findSome? {w : World} (named : w.tree.IsNamed)
    {sources : List (Source w)}
    (declares : ∀ source ∈ sources, DeclaresPlugins source.declared) {name : Key} {held : Value}
    (found : sources.findSome? (fun source => Table.get? name source.plugins) = some held) :
    InheritsPlugin sources name held := by
  obtain ⟨before, source, after, split, holds, silent⟩ := List.findSome?_eq_some_iff.1 found
  rw [Source.get?_plugins, Option.map_eq_some_iff] at holds
  obtain ⟨v, declared, rfl⟩ := holds
  have member : source ∈ sources := by
    rw [split]
    simp
  obtain ⟨lookup, rfl⟩ := (declares source member).lookup_of_get? declared
  refine ⟨before, source, after, lookup, split, ?_, declared,
    source.keeps_anchored named lookup⟩
  intro other earlier
  have nothing := silent other earlier
  rwa [Source.get?_plugins, Option.map_eq_none_iff] at nothing

theorem declares_none_of_findSome? {w : World} {sources : List (Source w)} {name : Key}
    (nothing : sources.findSome? (fun source => Table.get? name source.plugins) = none) :
    ∀ source ∈ sources, Table.get? name (source.declared.field pluginsKey) = none := by
  intro source member
  have absent := List.findSome?_eq_none_iff.1 nothing source member
  rwa [Source.get?_plugins, Option.map_eq_none_iff] at absent

/-- A plugin of a resolved configuration is the one that the configuration of highest precedence
to declare its name declares, as long as the plugins of each configuration are absent or a
mapping to texts; and no name that is declared is missing. -/
theorem resolveConfig_plugins {w : World} {config result : Mapping} {base : Path}
    (named : w.tree.IsNamed) (resolved : (resolveConfig w config base).outcome = .ok result) :
    ∃ sources : List (Source w), Lineage w ⟨config, none⟩ base sources
      ∧ (∀ others, Lineage w ⟨config, none⟩ base others → others = sources)
      ∧ ((∀ source ∈ apartSources 0 sources, DeclaresPlugins source.declared) →
          result.HasField pluginsKey
            ∧ ∀ name,
              (∀ held, Table.get? name (result.field pluginsKey) = some held →
                InheritsPlugin (apartSources 0 sources) name held)
              ∧ (Table.get? name (result.field pluginsKey) = none →
                ∀ source ∈ apartSources 0 sources,
                  Table.get? name (source.declared.field pluginsKey) = none)) := by
  obtain ⟨tree, mappings, rfl, precedence, layersEq⟩ := exists_tree_of_resolveConfig resolved
  obtain ⟨sources, lineage, rfl⟩ := lineage_of_precedence precedence ⟨config, none⟩ rfl
  refine ⟨sources, lineage, fun others again => again.unique lineage, ?_⟩
  intro declares
  -- The resolution sets the labels of the layers apart, so the declarations are read with
  -- their labels set apart in the same way.
  have layersApart : tree.layers = (apartSources 0 sources).map Source.layer := by
    rw [layersEq, map_layer_apartSources, List.map_map]
    rfl
  have has : ∀ layer ∈ tree.layers, layer.HasField pluginsKey := by
    rw [layersApart]
    intro layer member
    obtain ⟨source, listed, rfl⟩ := List.mem_map.1 member
    exact (Source.field_layer (declares source listed)).1
  obtain ⟨hasResult, fieldResult⟩ := Inheritance.field_flatten has
  have fieldsApart : (tree.fields pluginsKey).layers
      = (apartSources 0 sources).map Source.plugins := by
    rw [Inheritance.layers_fields, layersApart, List.map_map]
    apply List.map_congr_left
    intro source listed
    exact (Source.field_layer (declares source listed)).2
  have flat : ∀ layer ∈ (tree.fields pluginsKey).layers, Inheritance.IsFlat layer := by
    rw [fieldsApart]
    intro layer member
    obtain ⟨source, listed, rfl⟩ := List.mem_map.1 member
    exact Source.isFlat_plugins (declares source listed)
  refine ⟨hasResult, ?_⟩
  intro name
  rw [fieldResult, (Inheritance.get?_flatten flat).2, fieldsApart, List.findSome?_map]
  constructor
  · intro held found
    exact inheritsPlugin_of_findSome? named declares found
  · intro nothing
    exact declares_none_of_findSome? nothing

/-!
A configuration that extends a file in a directory.  The file declares a plugin beside it and
one that the configuration declares again.
-/

/-- The entries of the file. -/
def kitEntries : Mapping :=
  [(.str "plugins", .map [(.str "near", .str "./near.py"), (.str "far", .str "../far.py")])]

/-- The file and the plugin beside it. -/
def kitFiles : World where
  tree := ⟨[
    (["kit", "base.py"], .module (.exporting (some (.map kitEntries)) .absent)),
    (["kit", "near.py"], .module (.exporting none .absent))]⟩
  workingDirectory := []
  searchPath := []

/-- The configuration. -/
def kitConfig : Mapping :=
  [(.str "extends", .str "./kit/base.py"), (.str "plugins", .map [(.str "far", .str "far")])]

theorem resolveConfig_plugins_kit :
    ∃ result sources, (resolveConfig kitFiles kitConfig ⟨.root, []⟩).outcome = .ok result
      ∧ Lineage kitFiles ⟨kitConfig, none⟩ ⟨.root, []⟩ sources
      ∧ InheritsPlugin (apartSources 0 sources) (.str "near") (.str "/kit/near.py")
      ∧ InheritsPlugin (apartSources 0 sources) (.str "far") (.str "far") := by
  let held : Mapping := [(.str "near", .str "/kit/near.py"), (.str "far", .str "far")]
  have resolved : (resolveConfig kitFiles kitConfig ⟨.root, []⟩).outcome
      = .ok [(.str "plugins", .map held)] := by cbv
  let file : kitFiles.tree.File := ⟨["kit", "base.py"], by decide⟩
  have looked : kitFiles.lookupFile "./kit/base.py" ⟨.root, []⟩ = .ok (some file) := rfl
  have read : kitFiles.readConfig file.path = .ok kitEntries := by cbv
  have lineage : Lineage kitFiles ⟨kitConfig, none⟩ ⟨.root, []⟩
      [⟨kitConfig, none⟩, ⟨kitEntries, some file⟩] :=
    .own rfl (.cons looked read (.own rfl .nil) .nil)
  obtain ⟨sources, lineageAgain, unique, inherits⟩ :=
    resolveConfig_plugins (by decide) resolved
  have same := unique _ lineage
  subst same
  obtain ⟨_, plugins⟩ := inherits (by decide)
  exact ⟨_, _, resolved, lineageAgain, (plugins _).1 _ rfl, (plugins _).1 _ rfl⟩

end StyleAudit
