/-
Module: StyleAudit.Proofs.Plugin.Registration
Purpose: Loading plugins registers the rules of those before the first one that has none, each
  under its name: names that are taken keep their places, and new ones come behind.
Trusted boundary: none
Main exports: World.Exports, World.HasRule, World.ModuleFault, loadRule_eq_ok_iff,
  loadRule_eq_error_iff, HasPlugin, PluginFault, Registers, registers_registerAll,
  loadPlugins_registers_prefix
-/
import StyleAudit.Proofs.Plugin.Loading
import StyleAudit.Proofs.Value.KeyOrder

namespace StyleAudit

/-!
### Rules of module files
-/

namespace World

/-- Importing what stands at a place gives this under the name of the rule.  A blank file is a
module that has nothing under any name. -/
inductive Exports (w : World) (place : Location) : RuleExport → Prop where
  | module {config : Option Value} {exported : RuleExport}
      (stands : w.tree.entryAt? place = some (.module (.exporting config exported))) :
      Exports w place exported
  | blank {bytes : ByteArray} (stands : w.tree.entryAt? place = some (.file bytes))
      (isBlank : (bytes.toList.all fun b => Text.isBlank (Char.ofNat b.toNat)) = true) :
      Exports w place .absent

/-- Importing what stands at a place raises an error with these words. -/
def Raises (w : World) (place : Location) (message : Text) : Prop :=
  w.tree.entryAt? place = some (.module (.raising message))

/-- What stands at a place is no module. -/
structure IsNoModule (w : World) (place : Location) : Prop where
  silent : ∀ message, ¬ w.Raises place message
  bare : ∀ exported, ¬ w.Exports place exported

theorem Exports.importAt {w : World} {place : Location} {exported : RuleExport}
    (exports : w.Exports place exported) :
    ∃ config, w.importAt place = .ok ⟨config, exported⟩ := by
  cases exports with
  | @module config _ stands => exact ⟨config, by simp only [World.importAt, stands]⟩
  | blank stands isBlank => exact ⟨none, by simp only [World.importAt, stands, if_pos isBlank]⟩

theorem Raises.importAt {w : World} {place : Location} {message : Text}
    (raises : w.Raises place message) : w.importAt place = .error (.raised message) := by
  have stands : w.tree.entryAt? place = some (.module (.raising message)) := raises
  simp only [World.importAt, stands]

theorem IsNoModule.importAt {w : World} {place : Location} (noModule : w.IsNoModule place) :
    w.importAt place = .error .unusable := by
  cases stands : w.tree.entryAt? place with
  | none => simp only [World.importAt, stands]
  | some entry =>
      cases entry with
      | directory => simp only [World.importAt, stands]
      | link target => simp only [World.importAt, stands]
      | file bytes =>
          have written :
              ¬ (bytes.toList.all fun b => Text.isBlank (Char.ofNat b.toNat)) = true :=
            fun isBlank => noModule.bare _ (.blank stands isBlank)
          simp only [World.importAt, stands, if_neg written]
      | module content =>
          cases content with
          | raising message => exact absurd stands (noModule.silent message)
          | exporting config exported => exact absurd (.module stands) (noModule.bare exported)

/-- Importing raises an error, gives something or nothing as the rule, or is impossible. -/
theorem raises_or_exports (w : World) (place : Location) :
    (∃ message, w.Raises place message) ∨ (∃ exported, w.Exports place exported)
      ∨ w.IsNoModule place := by
  by_cases raises : ∃ message, w.Raises place message
  · exact .inl raises
  · by_cases exports : ∃ exported, w.Exports place exported
    · exact .inr (.inl exports)
    · exact .inr (.inr ⟨not_exists.1 raises, not_exists.1 exports⟩)

/-- The file can be imported as program text: its path is one of characters, and it has the
suffix of such modules. -/
structure IsSource (w : World) (file : w.tree.File) : Prop where
  plain : file.path.display.isPlain = true
  suffix : file.path.endsWith sourceSuffix = true

/-- The module in a file has a callable rule. -/
structure HasRule (w : World) (file : w.tree.File) (rule : Rule) : Prop where
  source : w.IsSource file
  exports : w.Exports file.place (.callable rule)

/-- Why a file gives no rule: its import raises an error, its module has no callable rule, or
the file has no suffix of modules.  Other files that hold no program text break the import. -/
inductive ModuleFault (w : World) (file : w.tree.File) : Failure → Prop where
  | raises {message : Text} (source : w.IsSource file) (raises : w.Raises file.place message) :
      ModuleFault w file (.raised message)
  | noRule {exported : RuleExport} (source : w.IsSource file)
      (exports : w.Exports file.place exported)
      (notCallable : ∀ rule, exported ≠ .callable rule) :
      ModuleFault w file (.configuration (.noRule file.path))
  | otherSuffix (plain : file.path.display.isPlain = true)
      (suffix : ∀ ending ∈ [sourceSuffix, compiledSuffix, nativeSuffix],
        file.path.endsWith ending = false) :
      ModuleFault w file (.configuration (.notImportable file.path))
  | noProgram (source : w.IsSource file) (noModule : w.IsNoModule file.place) :
      ModuleFault w file .unusable
  | binary {ending : Text} (notSource : file.path.endsWith sourceSuffix = false)
      (member : ending ∈ [compiledSuffix, nativeSuffix])
      (suffix : file.path.endsWith ending = true) : ModuleFault w file .unusable
  | unnameable (notPlain : file.path.display.isPlain = false) : ModuleFault w file .unusable

section Loading

variable {w : World} {file : w.tree.File}

theorem IsSource.loadRule (source : w.IsSource file) :
    w.loadRule file = (w.importAt file.place).bind fun imported =>
      match imported.rule with
      | .callable rule => .ok rule
      | _ => .error (.configuration (.noRule file.path)) := by
  rw [World.loadRule, source.plain, source.suffix]
  rfl

theorem HasRule.loadRule {rule : Rule} (has : w.HasRule file rule) :
    w.loadRule file = .ok rule := by
  obtain ⟨config, imported⟩ := has.exports.importAt
  rw [has.source.loadRule, imported]
  rfl

theorem ModuleFault.loadRule {failure : Failure} (fault : w.ModuleFault file failure) :
    w.loadRule file = .error failure := by
  cases fault with
  | raises source raises =>
      rw [source.loadRule, raises.importAt]
      rfl
  | @noRule exported source exports notCallable =>
      obtain ⟨config, imported⟩ := exports.importAt
      rw [source.loadRule, imported]
      cases exported with
      | absent => rfl
      | notCallable => rfl
      | callable rule => exact absurd rfl (notCallable rule)
  | otherSuffix plain suffix =>
      simp only [List.forall_mem_cons] at suffix
      obtain ⟨notSource, notCompiled, notNative, _⟩ := suffix
      simp [World.loadRule, plain, notSource, notCompiled, notNative]
  | noProgram source noModule =>
      rw [source.loadRule, noModule.importAt]
      rfl
  | binary notSource member suffix =>
      rw [List.mem_cons, List.mem_singleton] at member
      rcases member with rfl | rfl <;> simp [World.loadRule, notSource, suffix]
  | unnameable notPlain => simp [World.loadRule, notPlain]

/-- A file has a rule or a fault. -/
theorem hasRule_or_fault (w : World) (file : w.tree.File) :
    (∃ rule, w.HasRule file rule) ∨ ∃ failure, w.ModuleFault file failure := by
  cases plain : file.path.display.isPlain with
  | false => exact .inr ⟨_, .unnameable plain⟩
  | true =>
      cases suffix : file.path.endsWith sourceSuffix with
      | true =>
          have source : w.IsSource file := ⟨plain, suffix⟩
          rcases w.raises_or_exports file.place with ⟨message, raises⟩ | ⟨exported, exports⟩ |
            noModule
          · exact .inr ⟨_, .raises source raises⟩
          · cases exported with
            | callable rule => exact .inl ⟨rule, source, exports⟩
            | absent => exact .inr ⟨_, .noRule source exports (by simp)⟩
            | notCallable => exact .inr ⟨_, .noRule source exports (by simp)⟩
          · exact .inr ⟨_, .noProgram source noModule⟩
      | false =>
          by_cases binary : ∃ ending ∈ [compiledSuffix, nativeSuffix],
              file.path.endsWith ending = true
          · obtain ⟨ending, member, ends⟩ := binary
            exact .inr ⟨_, .binary suffix member ends⟩
          · have others : ∀ ending ∈ [compiledSuffix, nativeSuffix],
                file.path.endsWith ending = false := by simpa using binary
            exact .inr ⟨_, .otherSuffix plain (List.forall_mem_cons.2 ⟨suffix, others⟩)⟩

theorem loadRule_eq_ok_iff {rule : Rule} : w.loadRule file = .ok rule ↔ w.HasRule file rule := by
  constructor
  · intro loaded
    rcases w.hasRule_or_fault file with ⟨other, has⟩ | ⟨failure, fault⟩
    · rw [has.loadRule, Except.ok.injEq] at loaded
      exact loaded ▸ has
    · rw [fault.loadRule] at loaded
      cases loaded
  · exact HasRule.loadRule

theorem loadRule_eq_error_iff {failure : Failure} :
    w.loadRule file = .error failure ↔ w.ModuleFault file failure := by
  constructor
  · intro failed
    rcases w.hasRule_or_fault file with ⟨rule, has⟩ | ⟨other, fault⟩
    · rw [has.loadRule] at failed
      cases failed
    · rw [fault.loadRule, Except.error.injEq] at failed
      exact failed ▸ fault
  · exact ModuleFault.loadRule

end Loading

end World

/-!
### Plugins with and without rules
-/

/-- A plugin has a rule, told with its name: its lookup leads to a file whose module has the
rule. -/
structure HasPlugin (w : World) (base : Path) (plugin : Key × Text) (loaded : Key × Rule) :
    Prop where
  named : loaded.1 = plugin.1
  has : ∃ file, w.lookupFile plugin.2 base = .ok (some file) ∧ w.HasRule file loaded.2

/-- Why a plugin has no rule: its lookup leads to no file, or to one that gives no rule. -/
inductive PluginFault (w : World) (base : Path) (lookup : Text) : Failure → Prop where
  | unresolved (looked : w.lookupFile lookup base = .ok none) :
      PluginFault w base lookup (.configuration (.notFound lookup))
  | broken {failure : Failure} (looked : w.lookupFile lookup base = .error failure) :
      PluginFault w base lookup failure
  | module {file : w.tree.File} {failure : Failure}
      (looked : w.lookupFile lookup base = .ok (some file))
      (fault : w.ModuleFault file failure) : PluginFault w base lookup failure

section Plugins

variable {w : World} {base : Path} {plugin : Key × Text} {loaded : Key × Rule} {lookup : Text}
  {failure : Failure}

theorem givesRule_iff : GivesRule w base plugin loaded ↔ HasPlugin w base plugin loaded := by
  constructor
  · rintro ⟨named, file, looked, load⟩
    exact ⟨named, file, looked, World.loadRule_eq_ok_iff.1 load⟩
  · rintro ⟨named, file, looked, has⟩
    exact ⟨named, file, looked, has.loadRule⟩

theorem givesNoRule_iff :
    GivesNoRule w base lookup failure ↔ PluginFault w base lookup failure := by
  constructor
  · intro givesNone
    cases givesNone with
    | search looked => exact .broken looked
    | absent looked => exact .unresolved looked
    | module looked failed => exact .module looked (World.loadRule_eq_error_iff.1 failed)
  · intro fault
    cases fault with
    | unresolved looked => exact .absent looked
    | broken looked => exact .search looked
    | module looked fault => exact .module looked fault.loadRule

theorem loadsPlugins_iff {plugins : List (Key × Text)} {rules : List (Key × Rule)} :
    LoadsPlugins w base plugins rules ↔ List.Forall₂ (HasPlugin w base) plugins rules := by
  constructor
  · intro loads
    exact loads.imp fun _ _ gives => givesRule_iff.1 gives
  · intro each
    exact each.imp fun _ _ has => givesRule_iff.2 has

/-- The rules stand under the names of their plugins. -/
theorem keys_of_hasPlugins {plugins : List (Key × Text)} {rules : List (Key × Rule)}
    (each : List.Forall₂ (HasPlugin w base) plugins rules) :
    Table.keys rules = Table.keys plugins := by
  induction each with
  | nil => rfl
  | @cons plugin entry _ _ has _ ih =>
      rw [Table.keys, Table.keys, List.map_cons, List.map_cons, has.named]
      exact congrArg (plugin.1 :: ·) ih

end Plugins

/-!
### Registering
-/

/-- Registering rules changed a registry to another one: the names stand in their order, and
behind them those that are new; each rule is found under its name; and under a name of none of
the rules stands what stood there before. -/
structure Registers (registry : Registry) (rules : Table Key Rule) (result : Registry) :
    Prop where
  order : Table.keys result = Table.keys registry
    ++ (Table.keys rules).filter fun name => !Table.contains name registry
  registered : ∀ entry ∈ rules, Table.get? entry.1 result = some entry.2
  others : ∀ name, Table.get? name rules = none →
    Table.get? name result = Table.get? name registry

theorem keys_registerAll (rules : List (Key × Rule)) :
    ∀ registry : Registry, Table.keys (registry.registerAll rules)
      = (Table.keys rules).foldl Table.addKey (Table.keys registry) := by
  induction rules with
  | nil =>
      intro registry
      rfl
  | cons entry rest ih =>
      intro registry
      have step : Table.keys (registry.register entry.1 entry.2)
          = Table.addKey (Table.keys registry) entry.1 := Table.keys_put entry.1 entry.2 registry
      have whole := ih (registry.register entry.1 entry.2)
      rw [step] at whole
      exact whole

/-- Behind the registering, a name finds the rule that was registered under it, if there is
one. -/
theorem get?_registerAll (name : Key) {rules : Table Key Rule}
    (distinct : Table.isDistinct rules = true) : ∀ registry : Registry,
      Table.get? name (registry.registerAll rules)
        = (Table.get? name rules).or (Table.get? name registry) := by
  induction rules with
  | nil =>
      intro registry
      rfl
  | cons entry rest ih =>
      obtain ⟨key, rule⟩ := entry
      intro registry
      obtain ⟨fresh, distinctRest⟩ := Table.isDistinct_cons.1 distinct
      have whole : Table.get? name (registry.registerAll ((key, rule) :: rest))
          = (Table.get? name rest).or (Table.get? name (Table.put key rule registry)) :=
        ih distinctRest (registry.register key rule)
      rw [whole, Table.get?_put, Table.get?_cons]
      -- A rule is not replaced again: no later one has its name.
      by_cases same : Sameness.same key name = true
      · rw [if_pos same, if_pos same, ← Table.get?_congr same, fresh]
        rfl
      · rw [if_neg same, if_neg same]

theorem registers_registerAll {rules : Table Key Rule}
    (distinct : Table.isDistinct rules = true) (registry : Registry) :
    Registers registry rules (registry.registerAll rules) := by
  constructor
  · have present : ∀ name, (Table.keys registry).any (fun k => Sameness.same k name)
        = Table.contains name registry := by
      intro name
      rw [Bool.eq_iff_iff, List.any_eq_true, Table.contains, Option.isSome_iff_ne_none, ne_eq,
        Table.get?_eq_none_iff]
      simp
    rw [keys_registerAll, Table.foldl_addKey_eq_filter _ (Table.isDistinct_iff_pairwise.1 distinct)]
    simp only [present]
  · intro entry member
    rw [get?_registerAll entry.1 distinct,
      Table.get?_of_mem distinct member (LawfulSameness.refl entry.1)]
    rfl
  · intro name absent
    rw [get?_registerAll name distinct, absent]
    rfl

/-- What registering gives is told by it. -/
theorem Registers.unique {registry result other : Registry} {rules : Table Key Rule}
    (distinct : Table.isDistinct result = true) (first : Registers registry rules result)
    (second : Registers registry rules other) : result = other := by
  apply Table.eq_of_keys_eq (first.order.trans second.order.symm) distinct
  intro name _
  cases found : Table.get? name rules with
  | none => rw [first.others name found, second.others name found]
  | some rule =>
      obtain ⟨key, member, same⟩ := Table.mem_of_get?_eq_some found
      rw [← Table.get?_congr same, ← Table.get?_congr same, first.registered _ member,
        second.registered _ member]

/-!
### Loading
-/

section Loads

variable {w : World} {base : Path} {registry : Registry} {loaded : List (Key × Rule)}

theorem registers_of_hasPlugins {plugins : Table Key Text}
    (distinct : Table.isDistinct plugins = true)
    (each : List.Forall₂ (HasPlugin w base) plugins loaded) (registry : Registry) :
    (loadPlugins w base plugins registry).failure = none
      ∧ Registers registry loaded (loadPlugins w base plugins registry).registry := by
  obtain ⟨ended, registered⟩ := loadPlugins_of_loads (loadsPlugins_iff.2 each) registry
  have distinctLoaded : Table.isDistinct loaded = true := by
    rw [Table.isDistinct_iff_pairwise, keys_of_hasPlugins each,
      ← Table.isDistinct_iff_pairwise]
    exact distinct
  rw [registered]
  exact ⟨ended, registers_registerAll distinctLoaded registry⟩

/-- A plugin without a rule ends the loading with its failure.  The registry is the one that
the plugins before it alone leave, and under its name and those of later plugins stands what stood
there before. -/
theorem registers_of_pluginFault {before after : Table Key Text} {name : Key} {lookup : Text}
    {failure : Failure} (distinct : Table.isDistinct (before ++ (name, lookup) :: after) = true)
    (each : List.Forall₂ (HasPlugin w base) before loaded)
    (fault : PluginFault w base lookup failure) (registry : Registry) :
    (loadPlugins w base (before ++ (name, lookup) :: after) registry).failure = some failure
      ∧ (loadPlugins w base (before ++ (name, lookup) :: after) registry).registry
        = (loadPlugins w base before registry).registry
      ∧ Registers registry loaded
          (loadPlugins w base (before ++ (name, lookup) :: after) registry).registry
      ∧ ∀ later ∈ (name, lookup) :: after,
          Table.get? later.1
              (loadPlugins w base (before ++ (name, lookup) :: after) registry).registry
            = Table.get? later.1 registry := by
  have loads := loadsPlugins_iff.2 each
  obtain ⟨distinctBefore, behind⟩ := Table.isDistinct_of_append distinct
  obtain ⟨ended, left⟩ := @loadPlugins_of_givesNoRule w base before after loaded name lookup
    failure loads (givesNoRule_iff.2 fault) registry
  have alone := (loadPlugins_of_loads loads registry).2
  have registers := (registers_of_hasPlugins distinctBefore each registry).2
  rw [alone] at registers
  rw [left, alone]
  refine ⟨ended, rfl, registers, ?_⟩
  intro later member
  apply registers.others later.1
  rw [Table.get?_eq_none_iff, keys_of_hasPlugins each, ← Table.get?_eq_none_iff]
  exact behind later member

end Loads

/-- Plugins either all have rules, or there is a first one that has none.  If all have rules, they
are registered in order, each under its name.  If one is the first without a rule, loading fails
as this one does, those before it are registered as they alone would be, and nothing is changed
under its name or a later one. -/
theorem loadPlugins_registers_prefix (w : World) (base : Path) (registry : Registry)
    {plugins : Table Key Text} (distinct : Table.isDistinct plugins = true) :
    ((∃ loaded, List.Forall₂ (HasPlugin w base) plugins loaded)
        ∨ ∃ before name lookup after loaded failure, plugins = before ++ (name, lookup) :: after
          ∧ List.Forall₂ (HasPlugin w base) before loaded ∧ PluginFault w base lookup failure)
      ∧ (∀ loaded, List.Forall₂ (HasPlugin w base) plugins loaded →
          (loadPlugins w base plugins registry).failure = none
            ∧ Registers registry loaded (loadPlugins w base plugins registry).registry)
      ∧ ∀ before name lookup after loaded failure, plugins = before ++ (name, lookup) :: after →
          List.Forall₂ (HasPlugin w base) before loaded → PluginFault w base lookup failure →
          (loadPlugins w base plugins registry).failure = some failure
            ∧ (loadPlugins w base plugins registry).registry
              = (loadPlugins w base before registry).registry
            ∧ Registers registry loaded (loadPlugins w base plugins registry).registry
            ∧ ∀ later ∈ (name, lookup) :: after,
                Table.get? later.1 (loadPlugins w base plugins registry).registry
                  = Table.get? later.1 registry := by
  refine ⟨?_, fun loaded each => registers_of_hasPlugins distinct each registry, ?_⟩
  · rcases loads_or_stops w base plugins with ⟨loaded, loads⟩ | ⟨before, name, lookup, after,
      loaded, failure, split, loads, givesNone⟩
    · exact .inl ⟨loaded, loadsPlugins_iff.1 loads⟩
    · exact .inr ⟨before, name, lookup, after, loaded, failure, split, loadsPlugins_iff.1 loads,
        givesNoRule_iff.1 givesNone⟩
  · rintro before name lookup after loaded failure rfl each fault
    exact registers_of_pluginFault distinct each fault registry

/-!
Four plugins.  The first one has the name of a rule that comes with this library, the module of the
third one cannot be imported, and the last one has the name of another such rule.
-/

/-- A rule that finds nothing. -/
def Rule.labeled (label : Text) : Rule :=
  ⟨.custom label, fun _ _ => .ok fun _ => .found []⟩

/-- Two modules with rules, and one whose import raises an error. -/
def workshopFiles : World where
  tree := ⟨[
    (["strict.py"], .module (.exporting none (.callable (.labeled "strict")))),
    (["own.py"], .module (.exporting none (.callable (.labeled "own")))),
    (["torn.py"], .module (.raising "torn"))]⟩
  workingDirectory := []
  searchPath := []

/-- Plugins with these modules, the last one with a module of an earlier one. -/
def workshopPlugins : Table Key Text :=
  [(.str "block-no-empty", "./strict.py"), (.str "own", "./own.py"), (.str "torn", "./torn.py"),
   (.str "max-nesting-depth", "./own.py")]

/-- The workshop's plugins, loaded from the root into the rules that come with this library. -/
def workshopLoad : PluginLoad :=
  loadPlugins workshopFiles ⟨.root, []⟩ workshopPlugins .default

theorem loadPlugins_registers_prefix_workshop :
    workshopLoad.failure = some (.raised "torn")
      ∧ workshopLoad.registry.keys = Registry.default.keys ++ [.str "own"]
      ∧ Table.get? (.str "block-no-empty") workshopLoad.registry = some (.labeled "strict")
      ∧ Table.get? (.str "max-nesting-depth") workshopLoad.registry = some NestingDepth.rule := by
  let strict : workshopFiles.tree.File := ⟨["strict.py"], by decide⟩
  let own : workshopFiles.tree.File := ⟨["own.py"], by decide⟩
  let torn : workshopFiles.tree.File := ⟨["torn.py"], by decide⟩
  have hasStrict : HasPlugin workshopFiles ⟨.root, []⟩ (.str "block-no-empty", "./strict.py")
      (.str "block-no-empty", .labeled "strict") :=
    ⟨rfl, strict, rfl, ⟨by decide, by decide⟩, .module rfl⟩
  have hasOwn : HasPlugin workshopFiles ⟨.root, []⟩ (.str "own", "./own.py")
      (.str "own", .labeled "own") :=
    ⟨rfl, own, rfl, ⟨by decide, by decide⟩, .module rfl⟩
  have fault : PluginFault workshopFiles ⟨.root, []⟩ "./torn.py" (.raised "torn") := by
    have looked : workshopFiles.lookupFile "./torn.py" ⟨.root, []⟩ = .ok (some torn) := rfl
    exact .module looked (.raises ⟨by decide, by decide⟩ rfl)
  have loaded := loadPlugins_registers_prefix workshopFiles ⟨.root, []⟩ .default
    (by decide : Table.isDistinct workshopPlugins = true)
  obtain ⟨ended, _, registers, unchanged⟩ := loaded.2.2 _ _ _ _ _ _ rfl
    (.cons hasStrict (.cons hasOwn .nil)) fault
  refine ⟨ended, registers.order.trans rfl, registers.registered _ List.mem_cons_self, ?_⟩
  exact (unchanged (.str "max-nesting-depth", "./own.py") (by simp)).trans rfl

end StyleAudit
