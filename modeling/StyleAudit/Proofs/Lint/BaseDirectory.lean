/-
Module: StyleAudit.Proofs.Lint.BaseDirectory
Purpose: The directory from which the lookups of a run start, the one that its configuration
  names, and when the two are the same.
Trusted boundary: none
Main exports: GivesDirectory, StartsFrom, NamesOneBase, ShowsBase, prepare_base_directory
-/
import StyleAudit.Proofs.Config.Entries
import StyleAudit.Proofs.Config.ShapeFaults
import StyleAudit.Proofs.Lint.RuleOrder

namespace StyleAudit

/-!
### Where lookups start
-/

/-- The base directory that a mapping gives: the path of a text that is not empty; none when
there is no entry, or one that holds nothing. -/
inductive GivesDirectory (data : Mapping) : Option Path → Prop where
  | absent (nothing : ∀ v, data.find? basedirKey = some v → v.holds = false) :
      GivesDirectory data none
  | text {t : Text} (held : data.find? basedirKey = some (.str t)) (filled : t ≠ "") :
      GivesDirectory data (some (Path.ofText t))

/-- The directory from which the lookups of a run start: the one that the options give, or else
the one that the configuration gives, or else the working directory. -/
inductive StartsFrom (w : World) (options config : Mapping) : Path → Prop where
  | options {base : Path} (given : GivesDirectory options (some base)) :
      StartsFrom w options config base
  | configuration {base : Path} (bare : GivesDirectory options none)
      (given : GivesDirectory config (some base)) : StartsFrom w options config base
  | here (bare : GivesDirectory options none) (bareConfig : GivesDirectory config none) :
      StartsFrom w options config w.here

section Start

variable {w : World} {data options config : Mapping} {base : Path}

theorem holds_str_eq_false_iff {t : Text} : (Value.str t).holds = false ↔ t = "" := by
  obtain ⟨points⟩ := t
  cases points with
  | nil => simp [Value.holds, Text.isEmpty, Text.ofString, Text.ofChars]
  | cons point rest => simp [Value.holds, Text.isEmpty, Text.ofString, Text.ofChars]

theorem basedirOf_ok_iff {found : Option Path} :
    basedirOf data = .ok found ↔ GivesDirectory data found := by
  constructor
  · intro given
    rw [basedirOf] at given
    cases held : data.find? basedirKey with
    | none =>
        rw [held] at given
        cases given
        exact .absent (by simp [held])
    | some v =>
        simp only [held] at given
        cases filled : v.holds with
        | false =>
            rw [filled] at given
            cases given
            exact .absent (by simp [held, filled])
        | true =>
            rw [filled] at given
            cases v with
            | str t =>
                cases given
                apply GivesDirectory.text held
                intro empty
                rw [holds_str_eq_false_iff.2 empty] at filled
                cases filled
            | _ => cases given
  · intro gives
    rw [basedirOf]
    cases gives with
    | absent nothing =>
        cases held : data.find? basedirKey with
        | none => rfl
        | some v => simp [nothing v held]
    | @text t held filled =>
        have holds : (Value.str t).holds = true := by
          rw [← Bool.not_eq_false, holds_str_eq_false_iff]
          exact filled
        simp [held, holds]

theorem baseDirectory_ok_iff :
    baseDirectory w options config = .ok base ↔ StartsFrom w options config base := by
  constructor
  · intro found
    simp only [baseDirectory, bind, Except.bind] at found
    cases first : basedirOf options with
    | error failure =>
        rw [first] at found
        cases found
    | ok given =>
        rw [first] at found
        cases given with
        | some path =>
            cases found
            exact .options (basedirOf_ok_iff.1 first)
        | none =>
            cases second : basedirOf config with
            | error failure =>
                simp only [second] at found
                cases found
            | ok givenConfig =>
                simp only [second] at found
                cases givenConfig with
                | some path =>
                    cases found
                    exact .configuration (basedirOf_ok_iff.1 first) (basedirOf_ok_iff.1 second)
                | none =>
                    cases found
                    exact .here (basedirOf_ok_iff.1 first) (basedirOf_ok_iff.1 second)
  · intro starts
    cases starts with
    | options given =>
        rw [baseDirectory, basedirOf_ok_iff.2 given]
        rfl
    | configuration bare given =>
        rw [baseDirectory, basedirOf_ok_iff.2 bare, basedirOf_ok_iff.2 given]
        rfl
    | here bare bareConfig =>
        rw [baseDirectory, basedirOf_ok_iff.2 bare, basedirOf_ok_iff.2 bareConfig]
        rfl

end Start

/-!
### What a configuration names
-/

/-- What an entry names does not depend on what it was laid over. -/
theorem isStable_basedirField : IsStable fun v => Configuration.basedirField (some v) := by
  intro v under
  cases v with
  | map entries =>
      obtain ⟨merged, same⟩ := isMapping_eq_true_iff.1 (isMapping_overlay (.map entries) under)
      simp only [same, Configuration.basedirField]
  | _ => rfl

theorem basedirField_relabel (distance : Nat) (v : Value) :
    Configuration.basedirField (some (v.relabel distance))
      = Configuration.basedirField (some v) := by
  cases v with
  | seq items => simp only [Value.relabel, Configuration.basedirField]
  | map entries => simp only [Value.relabel, Configuration.basedirField]
  | _ => rfl

theorem basedirField_congr {entry other : Option Value}
    (same : entry.map (fun v => Configuration.basedirField (some v))
      = other.map fun v => Configuration.basedirField (some v)) :
    Configuration.basedirField entry = Configuration.basedirField other := by
  cases entry with
  | none =>
      cases other with
      | none => rfl
      | some v => cases same
  | some u =>
      cases other with
      | none => cases same
      | some v => exact Option.some.inj same

/-- The base directory of a merged configuration is named by the first entry for it, the
overrides coming before the configurations by precedence. -/
theorem entryNames_of_layers {tree : Inheritance} {sources : List Mapping} {above : Mapping}
    {c : Configuration}
    (layersEq : tree.layers = apartLayers 0 (sources.map fun source => source.without extendsKey))
    (distinct : ∀ layer ∈ above :: sources, Table.isDistinct layer = true)
    (fields : HasFields (tree.flatten.merge above) c) :
    EntryNames ((above :: sources).findSome? (Mapping.find? basedirKey)) c.basedir := by
  rw [List.forall_mem_cons] at distinct
  have kept : (Mapping.find? basedirKey ∘ fun source : Mapping => source.without extendsKey)
      = Mapping.find? basedirKey := by
    funext source
    exact Table.get?_erase_of_not_same (by decide) source
  have onceLayers : ∀ layer ∈ tree.layers, layer.HasOnce basedirKey := by
    rw [layersEq]
    apply hasOnce_apartLayers
    rw [List.forall_mem_map]
    intro source member
    exact Mapping.hasOnce_of_isDistinct (Table.isDistinct_erase (distinct.2 source member))
  have onceAbove : above.HasOnce basedirKey := Mapping.hasOnce_of_isDistinct distinct.1
  have inTree := (map_find?_flatten isStable_basedirField onceLayers).2
  rw [layersEq, map_findSome?_apartLayers basedirField_relabel, List.findSome?_map, kept]
    at inTree
  have merged := @map_find?_merge _ _ _ isStable_basedirField tree.flatten above onceAbove
  rw [Option.map_or, inTree, ← Option.map_or, ← findSome?_cons_eq_or] at merged
  rw [← basedirField_eq_iff, ← basedirField_congr merged]
  exact fields.basedir

/-- Only one entry says where lookups start: the options around a configuration give no
directory and the overrides have no entry for one; the configuration's own entry is not the
empty text; and where it has none, what it extends has none either. -/
structure NamesOneBase (options config : Mapping) (sources : List Mapping) : Prop where
  around : options.find? configKey = none ∨ GivesDirectory options none
  overrides : (overrideLayer options).find? basedirKey = none
  own : config.find? basedirKey ≠ some (.str "")
  inherited : config.find? basedirKey = none →
    ∀ source ∈ sources, source.find? basedirKey = none

section OneBase

variable {w : World} {options config : Mapping} {sources : List Mapping} {base : Path}
  {c : Configuration}

/-- Options that are no wrapper are the configuration. -/
theorem eq_of_configOf (bare : options.find? configKey = none)
    (held : configOf options = .map config) : config = options := by
  simp only [configOf, bare, Option.getD_none] at held
  cases options with
  | nil =>
      cases held
      rfl
  | cons entry rest =>
      cases held
      rfl

theorem GivesDirectory.unique {data : Mapping} {found other : Option Path}
    (first : GivesDirectory data found) (second : GivesDirectory data other) : found = other := by
  rw [← basedirOf_ok_iff] at first second
  rw [first] at second
  exact Except.ok.inj second

/-- Where the options do not give a directory of their own, the configuration decides. -/
theorem StartsFrom.of_around (held : configOf options = .map config)
    (around : options.find? configKey = none ∨ GivesDirectory options none)
    (starts : StartsFrom w options config base) :
    GivesDirectory config (some base) ∨ GivesDirectory config none ∧ base = w.here := by
  cases starts with
  | options given =>
      rcases around with bare | silent
      · rw [eq_of_configOf bare held]
        exact .inl given
      · cases given.unique silent
  | configuration _ given => exact .inl given
  | here _ bareConfig => exact .inr ⟨bareConfig, rfl⟩

end OneBase

/-- A configuration and the line about its base directory name a directory, or else none while
the directory is the working directory. -/
inductive ShowsBase (w : World) (c : Configuration) (base : Path) : Prop where
  | named (same : c.basedir = some base)
      (line : ∀ settings, (c.lines settings)[3]? = some ("Base directory: " ++ base.display))
  | here (bare : c.basedir = none) (same : base = w.here)
      (line : ∀ settings, (c.lines settings)[3]? = some (Text.ofString "Base directory: (cwd)"))

section Prepare

variable {w : World} {options config : Mapping} {sources : List Mapping} {base : Path}
  {c : Configuration}

theorem showsBase_of_named (same : c.basedir = some base) : ShowsBase w c base := by
  refine .named same ?_
  intro settings
  rw [Configuration.lines, same]
  rfl

theorem showsBase_of_here (bare : c.basedir = none) (same : base = w.here) :
    ShowsBase w c base := by
  refine .here bare same ?_
  intro settings
  rw [Configuration.lines, bare]
  rfl

/-- Where only one entry says it, the configuration shows where lookups start. -/
theorem NamesOneBase.showsBase {inherited : List Mapping}
    (one : NamesOneBase options config (config :: inherited))
    (held : configOf options = .map config) (starts : StartsFrom w options config base)
    (names : EntryNames ((overrideLayer options :: config :: inherited).findSome?
      (Mapping.find? basedirKey)) c.basedir) : ShowsBase w c base := by
  rw [findSome?_cons_eq_or, one.overrides, Option.none_or, findSome?_cons_eq_or] at names
  generalize named : c.basedir = found at names
  rcases starts.of_around held one.around with given | ⟨bare, same⟩
  · cases given with
    | text entry filled =>
        rw [entry, Option.some_or] at names
        cases names with
        | text t => exact showsBase_of_named named
  · cases bare with
    | absent nothing =>
        cases entry : config.find? basedirKey with
        | none =>
            have silent : inherited.findSome? (Mapping.find? basedirKey) = none := by
              apply List.findSome?_eq_none_iff.2
              intro source member
              exact one.inherited entry source (List.mem_cons_of_mem _ member)
            rw [entry, silent] at names
            cases names with
            | missing => exact showsBase_of_here named same
        | some v =>
            rw [entry, Option.some_or] at names
            cases names with
            | null => exact showsBase_of_here named same
            | text t =>
                have empty := holds_str_eq_false_iff.1 (nothing _ entry)
                rw [empty] at entry
                exact absurd entry one.own

/-- Lookups start from the directory that the options give, or else from the one that the
configuration gives, or else from the working directory.  The base directory that the checked
configuration names is that of the first entry among the overrides and the configurations by
precedence.  So, where only one entry says where lookups start, the configuration and the line
about its base directory tell the truth. -/
theorem prepare_base_directory
    (prepared : (prepare w (.map options)).outcome = .ok (c, base)) :
    ∃ config sources, configOf options = .map config
      ∧ Precedence w config base sources
      ∧ (∀ others, Precedence w config base others → others = sources)
      ∧ StartsFrom w options config base
      ∧ ((∀ layer ∈ overrideLayer options :: sources, Table.isDistinct layer = true) →
          EntryNames ((overrideLayer options :: sources).findSome? (Mapping.find? basedirKey))
              c.basedir
            ∧ (NamesOneBase options config sources → ShowsBase w c base)) := by
  obtain ⟨config, resolved, merged, held, found, resolution, laid, sound⟩ :=
    prepare_ok_iff.1 prepared
  obtain ⟨tree, sources, rfl, precedence, layersEq⟩ := exists_tree_of_resolveConfig resolution
  have starts := baseDirectory_ok_iff.1 found
  refine ⟨config, sources, held, precedence, fun others again => again.unique precedence, starts,
    ?_⟩
  intro distinct
  rw [applyOverrides?_eq_some laid] at sound
  have names := entryNames_of_layers layersEq distinct (hasFields_of_ofValue sound)
  refine ⟨names, ?_⟩
  intro one
  cases precedence with
  | own _ _ => exact one.showsBase held starts names

end Prepare

/-!
A configuration with a base directory of its own, from which the file that it extends is found.
-/

/-- The entries of a file that is extended. -/
def sharedRules : Mapping := [(.str "rules", .map [(.str "block-no-empty", .int 2)])]

/-- One file in a directory, and one that names a base directory. -/
def shelfFiles : World where
  tree := ⟨[
    (["shelf", "base.py"], .module (.exporting (some (.map sharedRules)) .absent)),
    (["away.py"], .module (.exporting
      (some (.map [(.str "config_basedir", .str "/shelf")])) .absent))]⟩
  workingDirectory := []
  searchPath := []

/-- A configuration that starts from the directory. -/
def shelfConfig : Mapping :=
  [(.str "extends", .str "./base.py"), (.str "rules", .map []),
   (.str "config_basedir", .str "/shelf")]

theorem prepare_base_directory_shelf :
    ∃ c, (prepare shelfFiles (.map [(.str "config", .map shelfConfig)])).outcome
        = .ok (c, ⟨.root, ["shelf"]⟩)
      ∧ StartsFrom shelfFiles [(.str "config", .map shelfConfig)] shelfConfig ⟨.root, ["shelf"]⟩
      ∧ ShowsBase shelfFiles c ⟨.root, ["shelf"]⟩ := by
  have prepared : (prepare shelfFiles (.map [(.str "config", .map shelfConfig)])).outcome
      = .ok (⟨[(.str "block-no-empty", .int 2)], [], false, some ⟨.root, ["shelf"]⟩⟩,
          ⟨.root, ["shelf"]⟩) := by cbv
  let file : shelfFiles.tree.File := ⟨["shelf", "base.py"], by decide⟩
  have looked : shelfFiles.lookupFile "./base.py" ⟨.root, ["shelf"]⟩ = .ok (some file) := rfl
  have read : shelfFiles.readConfig file.path = .ok sharedRules := by cbv
  have precedence : Precedence shelfFiles shelfConfig ⟨.root, ["shelf"]⟩
      [shelfConfig, sharedRules] :=
    .own rfl (.cons looked read (.own rfl .nil) .nil)
  obtain ⟨config, sources, held, _, unique, starts, names⟩ := prepare_base_directory prepared
  cases held
  have same := unique _ precedence
  subst same
  refine ⟨_, prepared, starts, (names (by decide)).2 ?_⟩
  constructor
  · exact .inr (.absent (by decide))
  · rfl
  · intro empty
    exact absurd (Value.str.inj (Option.some.inj empty)) (by decide)
  · decide

/-!
Each of the conditions is needed: an option around the configuration, an override, a file that is
extended, and an empty text part the base directory of a configuration from that of its run.
-/

/-- The configuration of a run names another base directory than that of the run, or none while
it is not the working directory. -/
def Misleads (w : World) (options : Mapping) : Prop :=
  ∃ c base, (prepare w (.map options)).outcome = .ok (c, base)
    ∧ ¬ ((∀ named, c.basedir = some named → named = base) ∧ (c.basedir = none → base = w.here))

theorem prepare_misleads :
    Misleads shelfFiles
        [(.str "config", .map [(.str "rules", .map [])]), (.str "config_basedir", .str "/shelf")]
      ∧ Misleads shelfFiles
        [(.str "config", .map [(.str "rules", .map [])]),
         (.str "config_overrides", .map [(.str "config_basedir", .str "/shelf")])]
      ∧ Misleads shelfFiles [(.str "extends", .str "./away.py"), (.str "rules", .map [])]
      ∧ Misleads shelfFiles [(.str "rules", .map []), (.str "config_basedir", .str "")] := by
  refine ⟨⟨⟨[], [], false, none⟩, ⟨.root, ["shelf"]⟩, by cbv, by decide⟩,
    ⟨⟨[], [], false, some ⟨.root, ["shelf"]⟩⟩, ⟨.root, []⟩, by cbv, by simp⟩,
    ⟨⟨[], [], false, some ⟨.root, ["shelf"]⟩⟩, ⟨.root, []⟩, by cbv, by simp⟩,
    ⟨⟨[], [], false, some ⟨.relative, []⟩⟩, ⟨.root, []⟩, by cbv, by simp⟩⟩

end StyleAudit
