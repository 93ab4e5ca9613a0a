/-
Module: StyleAudit.Proofs.Config.ShapeFaults
Purpose: The faults in the shape of a configuration's fields are reported together, each once and
  in order; where there is none, the configuration is what its fields say.
Trusted boundary: none
Main exports: IsShapeFault, ListsFaults, ListsFaults.unique, SaysFields, EntryNames,
  ofValue_eq_error_of_rules, ofValue_eq_ok_of_rules, ofValue_reports_together
-/
import StyleAudit.Proofs.Lint.Preparation

namespace StyleAudit

/-!
### What is at fault

Rules and plugins have to be mappings, and null is none.  The flag and the base directory may be
null, and are then as if they were not there.
-/

/-- A fault in the shape of the fields of a mapping. -/
inductive IsShapeFault (data : Mapping) : ShapeFault → Prop where
  | rules {v : Value} (given : data.find? rulesKey = some v) (other : v.isMapping = false) :
      IsShapeFault data (.rulesNotMapping v.kindName)
  | plugins {v : Value} (given : data.find? pluginsKey = some v) (other : v.isMapping = false) :
      IsShapeFault data (.pluginsNotMapping v.kindName)
  | plugin {plugins : Mapping} {name : Key} {v : Value}
      (given : data.find? pluginsKey = some (.map plugins)) (listed : (name, v) ∈ plugins)
      (other : ∀ lookup, v ≠ .str lookup) : IsShapeFault data (.pluginNotText name)
  | quiet {v : Value} (given : data.find? quietKey = some v) (present : v ≠ .null)
      (other : ∀ b, v ≠ .bool b) : IsShapeFault data .quietNotBool
  | basedir {v : Value} (given : data.find? basedirKey = some v) (present : v ≠ .null)
      (other : ∀ text, v ≠ .str text) : IsShapeFault data .basedirNotPath

namespace ShapeFault

/-- The place of the field of a fault in the order in which the fields are looked at. -/
def field : ShapeFault → Nat
  | .rulesNotMapping _ => 0
  | .pluginNotText _ => 1
  | .pluginsNotMapping _ => 1
  | .quietNotBool => 2
  | .basedirNotPath => 3

/-- The name of the plugin whose lookup is at fault. -/
def plugin? : ShapeFault → Option Key
  | .pluginNotText name => some name
  | _ => none

/-- A fault is listed before another one: its field comes earlier, or both are about plugins. -/
def Precedes (first second : ShapeFault) : Prop :=
  first.field < second.field ∨ first.plugin?.isSome = true ∧ second.plugin?.isSome = true

end ShapeFault

/-- The names of the plugins whose lookups are no texts, in their order. -/
def misfitPlugins (data : Mapping) : List Key :=
  match data.find? pluginsKey with
  | some (.map plugins) => Table.keys (plugins.filter fun plugin => plugin.2.text?.isNone)
  | _ => []

/-- A list of all faults in the shape of the fields of a mapping: each field has its place and at
most one fault, but for plugins, of which each has its own in the order of the plugins. -/
structure ListsFaults (data : Mapping) (faults : List ShapeFault) : Prop where
  each : ∀ fault, fault ∈ faults ↔ IsShapeFault data fault
  inOrder : faults.Pairwise ShapeFault.Precedes
  plugins : faults.filterMap ShapeFault.plugin? = misfitPlugins data

/-- Two faults, each of which is listed before the other, are about plugins. -/
theorem ShapeFault.Precedes.both {first second : ShapeFault} (forth : first.Precedes second)
    (back : second.Precedes first) :
    first.plugin?.isSome = true ∧ second.plugin?.isSome = true := by
  rcases forth with earlier | both
  · rcases back with later | ⟨second, first⟩
    · exact absurd later (Nat.lt_asymm earlier)
    · exact ⟨first, second⟩
  · exact both

theorem ShapeFault.eq_pluginNotText {fault : ShapeFault} (about : fault.plugin?.isSome = true) :
    ∃ name, fault = .pluginNotText name := by
  cases fault with
  | pluginNotText name => exact ⟨name, rfl⟩
  | _ => cases about

/-- A fault that comes again behind itself is about a plugin, whose name then comes again in every
list with the same plugins. -/
theorem mem_behind {first : ShapeFault} {here there : List ShapeFault}
    (behind : ∀ fault ∈ here, first.Precedes fault)
    (samePlugins : here.filterMap ShapeFault.plugin? = there.filterMap ShapeFault.plugin?)
    (within : ∀ fault, fault ∈ first :: here → fault ∈ first :: there) :
    ∀ fault ∈ here, fault ∈ there := by
  intro fault member
  rcases List.mem_cons.1 (within fault (List.mem_cons_of_mem _ member)) with rfl | found
  · obtain ⟨about, _⟩ := (behind fault member).both (behind fault member)
    obtain ⟨name, rfl⟩ := ShapeFault.eq_pluginNotText about
    have listed : name ∈ there.filterMap ShapeFault.plugin? := by
      rw [← samePlugins]
      exact List.mem_filterMap.2 ⟨_, member, rfl⟩
    obtain ⟨other, memberThere, named⟩ := List.mem_filterMap.1 listed
    obtain ⟨_, rfl⟩ := ShapeFault.eq_pluginNotText (Option.isSome_of_eq_some named)
    cases named
    exact memberThere
  · exact found

/-- What is at fault, its order and the plugins at fault leave no choice for a list of faults. -/
theorem eq_of_sameFaults {faults others : List ShapeFault}
    (same : ∀ fault, fault ∈ faults ↔ fault ∈ others)
    (inOrder : faults.Pairwise ShapeFault.Precedes)
    (othersInOrder : others.Pairwise ShapeFault.Precedes)
    (plugins : faults.filterMap ShapeFault.plugin? = others.filterMap ShapeFault.plugin?) :
    faults = others := by
  induction faults generalizing others with
  | nil => exact (List.eq_nil_iff_forall_not_mem.2 fun fault => by simp [← same fault]).symm
  | cons first rest ih =>
      cases others with
      | nil => exact absurd ((same first).1 List.mem_cons_self) List.not_mem_nil
      | cons second more =>
          obtain ⟨behindFirst, restInOrder⟩ := List.pairwise_cons.1 inOrder
          obtain ⟨behindSecond, moreInOrder⟩ := List.pairwise_cons.1 othersInOrder
          have heads : first = second := by
            by_cases heads : first = second
            · exact heads
            · have forth := behindFirst second
                ((List.mem_cons.1 ((same second).2 List.mem_cons_self)).resolve_left
                  (Ne.symm heads))
              have back := behindSecond first
                ((List.mem_cons.1 ((same first).1 List.mem_cons_self)).resolve_left heads)
              obtain ⟨aboutFirst, aboutSecond⟩ := forth.both back
              obtain ⟨name, rfl⟩ := ShapeFault.eq_pluginNotText aboutFirst
              obtain ⟨other, rfl⟩ := ShapeFault.eq_pluginNotText aboutSecond
              exact congrArg _ (List.cons.inj plugins).1
          subst heads
          have pluginsBehind :
              rest.filterMap ShapeFault.plugin? = more.filterMap ShapeFault.plugin? := by
            cases about : first.plugin? with
            | none =>
                rwa [List.filterMap_cons_none about, List.filterMap_cons_none about] at plugins
            | some name =>
                rw [List.filterMap_cons_some about, List.filterMap_cons_some about] at plugins
                exact (List.cons.inj plugins).2
          have sameBehind : ∀ fault, fault ∈ rest ↔ fault ∈ more := fun fault =>
            ⟨mem_behind behindFirst pluginsBehind (fun other => (same other).1) fault,
              mem_behind behindSecond pluginsBehind.symm (fun other => (same other).2) fault⟩
          rw [ih sameBehind restInOrder moreInOrder pluginsBehind]

theorem ListsFaults.unique {data : Mapping} {faults others : List ShapeFault}
    (lists : ListsFaults data faults) (listsToo : ListsFaults data others) : faults = others :=
  eq_of_sameFaults (fun fault => (lists.each fault).trans (listsToo.each fault).symm)
    lists.inOrder listsToo.inOrder (lists.plugins.trans listsToo.plugins.symm)

/-!
### What the fields say
-/

/-- The plugins in a field. -/
inductive SaysPlugins : Option Value → Table Key Text → Prop where
  | absent : SaysPlugins none []
  | given (plugins : Table Key Text) :
      SaysPlugins (some (.map (plugins.map fun plugin => (plugin.1, .str plugin.2)))) plugins

/-- The flag for errors only in a field. -/
inductive SaysQuiet : Option Value → Bool → Prop where
  | absent : SaysQuiet none false
  | null : SaysQuiet (some .null) false
  | given (b : Bool) : SaysQuiet (some (.bool b)) b

/-- What an entry for the base directory names: a text a path, and null or no entry none. -/
inductive EntryNames : Option Value → Option Path → Prop where
  | missing : EntryNames none none
  | null : EntryNames (some .null) none
  | text (t : Text) : EntryNames (some (.str t)) (some (Path.ofText t))

/-- The fields of a mapping say what is in a configuration. -/
structure SaysFields (data : Mapping) (c : Configuration) : Prop where
  rules : data.find? rulesKey = some (.map c.rules)
  plugins : SaysPlugins (data.find? pluginsKey) c.plugins
  quiet : SaysQuiet (data.find? quietKey) c.quiet
  basedir : EntryNames (data.find? basedirKey) c.basedir

/-!
### Reading the fields

Each field gives what it says, and the faults of the field.
-/

section Fields

variable {fault : ShapeFault} {held : Option Value} {v : Value}

theorem mem_rulesField :
    fault ∈ (Configuration.rulesField v).2 ↔
      v.isMapping = false ∧ fault = .rulesNotMapping v.kindName := by
  cases v <;> simp [Configuration.rulesField, Value.isMapping, Value.entries?]

theorem not_text_iff : v.text? = none ↔ ∀ text, v ≠ .str text := by
  cases v <;> simp [Value.text?]

theorem pluginFaults_cons_of_text {name : Key} {rest : Mapping} {lookup : Text}
    (read : v.text? = some lookup) :
    Configuration.pluginFaults ((name, v) :: rest) = Configuration.pluginFaults rest := by
  rw [Configuration.pluginFaults, List.filterMap_cons_none (by simp [read])]
  rfl

theorem pluginFaults_cons_of_not_text {name : Key} {rest : Mapping} (other : v.text? = none) :
    Configuration.pluginFaults ((name, v) :: rest)
      = .pluginNotText name :: Configuration.pluginFaults rest := by
  rw [Configuration.pluginFaults, List.filterMap_cons_some (by simp [other]; rfl)]
  rfl

/-- The faults of plugins are those of the lookups that are no texts, in their order. -/
theorem pluginFaults_eq (plugins : Mapping) :
    Configuration.pluginFaults plugins
      = (plugins.filter fun plugin => plugin.2.text?.isNone).map
        fun plugin => .pluginNotText plugin.1 := by
  induction plugins with
  | nil => rfl
  | cons plugin rest ih =>
      obtain ⟨name, v⟩ := plugin
      cases read : v.text? with
      | none =>
          rw [pluginFaults_cons_of_not_text read, List.filter_cons_of_pos (by simp [read]), ih]
          rfl
      | some lookup =>
          rw [pluginFaults_cons_of_text read, List.filter_cons_of_neg (by simp [read]), ih]

theorem mem_pluginFaults {plugins : Mapping} :
    fault ∈ Configuration.pluginFaults plugins ↔
      ∃ plugin ∈ plugins, (∀ lookup, plugin.2 ≠ .str lookup)
        ∧ fault = .pluginNotText plugin.1 := by
  simp only [pluginFaults_eq, List.mem_map, List.mem_filter, Option.isNone_iff_eq_none,
    not_text_iff, and_assoc]
  exact exists_congr fun _ => and_congr_right fun _ => and_congr_right fun _ => eq_comm

theorem filterMap_pluginFaults (plugins : Mapping) :
    (Configuration.pluginFaults plugins).filterMap ShapeFault.plugin?
      = Table.keys (plugins.filter fun plugin => plugin.2.text?.isNone) := by
  rw [pluginFaults_eq, List.filterMap_map]
  exact congrFun (List.filterMap_eq_map (f := Prod.fst)) _

/-- Plugins without faults are the texts of their entries. -/
theorem pluginEntries_of_faultless {plugins : Mapping}
    (faultless : Configuration.pluginFaults plugins = []) :
    plugins
      = (Configuration.pluginEntries plugins).map fun plugin => (plugin.1, .str plugin.2) := by
  induction plugins with
  | nil => rfl
  | cons plugin rest ih =>
      obtain ⟨name, v⟩ := plugin
      cases read : v.text? with
      | none =>
          rw [pluginFaults_cons_of_not_text read] at faultless
          cases faultless
      | some lookup =>
          rw [pluginFaults_cons_of_text read] at faultless
          have text : v = .str lookup := by
            cases v <;> cases read
            rfl
          subst text
          exact congrArg _ (ih faultless)

theorem pluginEntries_of_texts (plugins : Table Key Text) :
    Configuration.pluginEntries (plugins.map fun plugin => (plugin.1, .str plugin.2))
      = plugins := by
  rw [Configuration.pluginEntries, List.filterMap_map]
  exact List.filterMap_some

theorem mem_pluginsField :
    fault ∈ (Configuration.pluginsField held).2 ↔
      (∃ v, held = some v ∧ v.isMapping = false ∧ fault = .pluginsNotMapping v.kindName)
        ∨ ∃ plugins, held = some (.map plugins) ∧ fault ∈ Configuration.pluginFaults plugins := by
  cases held with
  | none => simp [Configuration.pluginsField]
  | some v => cases v <;> simp [Configuration.pluginsField, Value.isMapping, Value.entries?]

theorem mem_quietField :
    fault ∈ (Configuration.quietField held).2 ↔
      ∃ v, held = some v ∧ v ≠ .null ∧ (∀ b, v ≠ .bool b) ∧ fault = .quietNotBool := by
  cases held with
  | none => simp [Configuration.quietField]
  | some v => cases v <;> simp [Configuration.quietField]

theorem mem_basedirField :
    fault ∈ (Configuration.basedirField held).2 ↔
      ∃ v, held = some v ∧ v ≠ .null ∧ (∀ text, v ≠ .str text) ∧ fault = .basedirNotPath := by
  cases held with
  | none => simp [Configuration.basedirField]
  | some v => cases v <;> simp [Configuration.basedirField]

theorem pluginsField_eq_iff {plugins : Table Key Text} :
    Configuration.pluginsField held = (plugins, []) ↔ SaysPlugins held plugins := by
  constructor
  · intro read
    cases held with
    | none =>
        cases read
        exact .absent
    | some v =>
        cases v with
        | map entries =>
            obtain ⟨rfl, faultless⟩ := Prod.mk.inj read
            have said := SaysPlugins.given (Configuration.pluginEntries entries)
            rwa [← pluginEntries_of_faultless faultless] at said
        | _ => cases read
  · rintro (_ | plugins)
    · rfl
    · rw [Configuration.pluginsField, pluginEntries_of_texts, pluginFaults_eq]
      simp [List.filter_map, Value.text?]

theorem quietField_eq_iff {quiet : Bool} :
    Configuration.quietField held = (quiet, []) ↔ SaysQuiet held quiet := by
  constructor
  · intro read
    cases held with
    | none =>
        cases read
        exact .absent
    | some v =>
        cases v with
        | null =>
            cases read
            exact .null
        | bool b =>
            cases read
            exact .given _
        | _ => cases read
  · rintro (_ | _ | _) <;> rfl

theorem basedirField_eq_iff {entry : Option Value} {found : Option Path} :
    Configuration.basedirField entry = (found, []) ↔ EntryNames entry found := by
  constructor
  · intro named
    cases entry with
    | none =>
        cases named
        exact .missing
    | some v =>
        cases v with
        | null =>
            cases named
            exact .null
        | str t =>
            cases named
            exact .text t
        | _ => cases named
  · intro names
    cases names <;> rfl

end Fields

/-- The faults that reading the fields comes upon, field by field. -/
def faultsOf (rules : Value) (data : Mapping) : List ShapeFault :=
  (Configuration.rulesField rules).2
    ++ (Configuration.pluginsField (data.find? pluginsKey)).2
    ++ (Configuration.quietField (data.find? quietKey)).2
    ++ (Configuration.basedirField (data.find? basedirKey)).2

section Reading

variable {data : Mapping} {rules : Value} {c : Configuration}

theorem mem_faultsOf (given : data.find? rulesKey = some rules) {fault : ShapeFault} :
    fault ∈ faultsOf rules data ↔ IsShapeFault data fault := by
  simp only [faultsOf, List.mem_append, mem_rulesField, mem_pluginsField, mem_quietField,
    mem_basedirField, mem_pluginFaults]
  constructor
  · rintro (((⟨other, rfl⟩ | ⟨v, held, other, rfl⟩ | ⟨plugins, held, plugin, listed, other, rfl⟩)
      | ⟨v, held, present, other, rfl⟩) | ⟨v, held, present, other, rfl⟩)
    · exact .rules given other
    · exact .plugins held other
    · exact .plugin held listed other
    · exact .quiet held present other
    · exact .basedir held present other
  · intro isFault
    cases isFault with
    | rules held other =>
        rw [given, Option.some.injEq] at held
        subst held
        exact .inl (.inl (.inl ⟨other, rfl⟩))
    | plugins held other => exact .inl (.inl (.inr (.inl ⟨_, held, other, rfl⟩)))
    | plugin held listed other =>
        exact .inl (.inl (.inr (.inr ⟨_, held, _, listed, other, rfl⟩)))
    | quiet held present other => exact .inl (.inr ⟨_, held, present, other, rfl⟩)
    | basedir held present other => exact .inr ⟨_, held, present, other, rfl⟩

/-- Fields that come one after another list their faults in order. -/
theorem pairwise_append_of_field {faults others : List ShapeFault} {place : Nat}
    (first : faults.Pairwise ShapeFault.Precedes) (second : others.Pairwise ShapeFault.Precedes)
    (before : ∀ fault ∈ faults, fault.field < place)
    (behind : ∀ fault ∈ others, fault.field = place) :
    (faults ++ others).Pairwise ShapeFault.Precedes := by
  rw [List.pairwise_append]
  refine ⟨first, second, fun fault member other memberToo => .inl ?_⟩
  rw [behind other memberToo]
  exact before fault member

theorem pairwise_pluginsField (held : Option Value) :
    (Configuration.pluginsField held).2.Pairwise ShapeFault.Precedes := by
  cases held with
  | none => exact .nil
  | some v =>
      cases v with
      | map plugins =>
          apply List.pairwise_of_forall_mem_list
          intro fault member other memberToo
          obtain ⟨_, _, _, rfl⟩ := mem_pluginFaults.1 member
          obtain ⟨_, _, _, rfl⟩ := mem_pluginFaults.1 memberToo
          exact .inr ⟨rfl, rfl⟩
      | _ => exact List.pairwise_singleton _ _

theorem pairwise_faultsOf (rules : Value) (data : Mapping) :
    (faultsOf rules data).Pairwise ShapeFault.Precedes := by
  have rulesAt : ∀ fault ∈ (Configuration.rulesField rules).2, fault.field = 0 := by
    intro fault member
    rw [(mem_rulesField.1 member).2]
    rfl
  have pluginsAt : ∀ fault ∈ (Configuration.pluginsField (data.find? pluginsKey)).2,
      fault.field = 1 := by
    intro fault member
    rcases mem_pluginsField.1 member with ⟨_, _, _, rfl⟩ | ⟨_, _, among⟩
    · rfl
    · obtain ⟨_, _, _, rfl⟩ := mem_pluginFaults.1 among
      rfl
  have quietAt : ∀ fault ∈ (Configuration.quietField (data.find? quietKey)).2,
      fault.field = 2 := by
    intro fault member
    obtain ⟨_, _, _, _, rfl⟩ := mem_quietField.1 member
    rfl
  have basedirAt : ∀ fault ∈ (Configuration.basedirField (data.find? basedirKey)).2,
      fault.field = 3 := by
    intro fault member
    obtain ⟨_, _, _, _, rfl⟩ := mem_basedirField.1 member
    rfl
  have rulesInOrder : (Configuration.rulesField rules).2.Pairwise ShapeFault.Precedes := by
    cases rules <;> simp [Configuration.rulesField]
  have quietInOrder : (Configuration.quietField (data.find? quietKey)).2.Pairwise
      ShapeFault.Precedes := by
    unfold Configuration.quietField
    split <;> simp
  have basedirInOrder : (Configuration.basedirField (data.find? basedirKey)).2.Pairwise
      ShapeFault.Precedes := by
    unfold Configuration.basedirField
    split <;> simp
  have below : ∀ {faults : List ShapeFault} {place bound : Nat},
      (∀ fault ∈ faults, fault.field = place) → place < bound →
        ∀ fault ∈ faults, fault.field < bound :=
    fun placed less fault member => placed fault member ▸ less
  refine pairwise_append_of_field (pairwise_append_of_field (pairwise_append_of_field rulesInOrder
    (pairwise_pluginsField _) ?_ pluginsAt) quietInOrder ?_ quietAt) basedirInOrder ?_ basedirAt
  · exact below rulesAt (by decide)
  · exact List.forall_mem_append.2 ⟨below rulesAt (by decide), below pluginsAt (by decide)⟩
  · exact List.forall_mem_append.2 ⟨List.forall_mem_append.2 ⟨below rulesAt (by decide),
      below pluginsAt (by decide)⟩, below quietAt (by decide)⟩

theorem filterMap_pluginsField (data : Mapping) :
    (Configuration.pluginsField (data.find? pluginsKey)).2.filterMap ShapeFault.plugin?
      = misfitPlugins data := by
  rw [misfitPlugins]
  cases data.find? pluginsKey with
  | none => rfl
  | some v =>
      cases v with
      | map plugins => exact filterMap_pluginFaults plugins
      | _ => rfl

theorem filterMap_faultsOf (rules : Value) (data : Mapping) :
    (faultsOf rules data).filterMap ShapeFault.plugin? = misfitPlugins data := by
  have rulesNone : (Configuration.rulesField rules).2.filterMap ShapeFault.plugin? = [] := by
    cases rules <;> rfl
  have quietNone : (Configuration.quietField (data.find? quietKey)).2.filterMap
      ShapeFault.plugin? = [] := by
    unfold Configuration.quietField
    split <;> rfl
  have basedirNone : (Configuration.basedirField (data.find? basedirKey)).2.filterMap
      ShapeFault.plugin? = [] := by
    unfold Configuration.basedirField
    split <;> rfl
  simp only [faultsOf, List.filterMap_append, rulesNone, filterMap_pluginsField, quietNone,
    basedirNone, List.nil_append, List.append_nil]

theorem listsFaults_faultsOf (given : data.find? rulesKey = some rules) :
    ListsFaults data (faultsOf rules data) where
  each _ := mem_faultsOf given
  inOrder := pairwise_faultsOf rules data
  plugins := filterMap_faultsOf rules data

theorem ofFields_eq_error_iff {fault : ConfigFault} :
    Configuration.ofFields rules data = .error fault ↔
      faultsOf rules data ≠ [] ∧ fault = .shape (faultsOf rules data) := by
  have whole : (Configuration.rulesField rules).2
      ++ (Configuration.pluginsField (data.find? pluginsKey)).2
      ++ (Configuration.quietField (data.find? quietKey)).2
      ++ (Configuration.basedirField (data.find? basedirKey)).2 = faultsOf rules data := rfl
  simp only [Configuration.ofFields, whole]
  cases faultsOf rules data with
  | nil => simp
  | cons first rest => simp [eq_comm]

/-- Reading the fields succeeds with what they say. -/
theorem ofFields_eq_ok_iff (given : data.find? rulesKey = some rules) :
    Configuration.ofFields rules data = .ok c ↔ SaysFields data c := by
  constructor
  · intro read
    obtain ⟨fieldRules, fieldPlugins, fieldQuiet, fieldBasedir⟩ := fields_of_ofFields read
    exact ⟨by rw [given, eq_map_of_rulesField fieldRules], pluginsField_eq_iff.1 fieldPlugins,
      quietField_eq_iff.1 fieldQuiet, basedirField_eq_iff.1 fieldBasedir⟩
  · intro said
    have rulesGiven := said.rules
    rw [given, Option.some.injEq] at rulesGiven
    subst rulesGiven
    simp only [Configuration.ofFields, Configuration.rulesField,
      pluginsField_eq_iff.2 said.plugins, quietField_eq_iff.2 said.quiet,
      basedirField_eq_iff.2 said.basedir, List.append_nil]

/-- A mapping that gives rules is read field by field. -/
theorem ofValue_of_rules (given : data.find? rulesKey = some rules) (present : rules ≠ .null) :
    Configuration.ofValue (.map data) = (Configuration.ofFields rules data).mapError .ofFault := by
  have filled : data ≠ [] := by
    rintro rfl
    cases given
  have holds : (Value.map data).holds = true := by
    simpa [Value.holds] using filled
  have read : Configuration.ofMapping data = Configuration.ofFields rules data := by
    rw [Configuration.ofMapping, if_neg (by simpa using filled), given]
    cases rules with
    | null => exact absurd rfl present
    | _ => rfl
  rw [Configuration.ofValue, holds]
  change (Configuration.ofMapping data).mapError Failure.ofFault = _
  rw [read]

/-- A list of faults has no words only for want of the name of a plugin. -/
theorem isWritable_shape_iff {faults : List ShapeFault} (lists : ListsFaults data faults) :
    (ConfigFault.shape faults).isWritable = true ↔
      ∀ name ∈ misfitPlugins data, name.isWritable = true := by
  rw [ConfigFault.isWritable, List.all_eq_true, ← lists.plugins]
  constructor
  · intro writable name listed
    obtain ⟨fault, member, named⟩ := List.mem_filterMap.1 listed
    obtain ⟨other, rfl⟩ := ShapeFault.eq_pluginNotText (Option.isSome_of_eq_some named)
    cases named
    exact writable _ member
  · intro writable fault member
    cases fault with
    | pluginNotText name => exact writable name (List.mem_filterMap.2 ⟨_, member, rfl⟩)
    | _ => rfl

/-- Faults that are listed are reported, unless the name of a plugin has no text. -/
theorem eq_ofFault_shape_iff {faults : List ShapeFault} (lists : ListsFaults data faults)
    {failure : Failure} :
    failure = .ofFault (.shape faults) ↔
      (∀ name ∈ misfitPlugins data, name.isWritable = true)
          ∧ failure = .configuration (.shape faults)
        ∨ (∃ name ∈ misfitPlugins data, name.isWritable = false) ∧ failure = .unusable := by
  have wordless : (∃ name ∈ misfitPlugins data, name.isWritable = false) ↔
      ¬ ∀ name ∈ misfitPlugins data, name.isWritable = true := by
    simp
  rw [wordless, ← isWritable_shape_iff lists, Failure.ofFault]
  split
  · rename_i writable
    simp [writable]
  · rename_i wordless
    simp [wordless]

theorem ofValue_eq_error_of_rules (given : data.find? rulesKey = some rules)
    (present : rules ≠ .null) {failure : Failure} :
    Configuration.ofValue (.map data) = .error failure ↔
      faultsOf rules data ≠ [] ∧ failure = .ofFault (.shape (faultsOf rules data)) := by
  rw [ofValue_of_rules given present]
  cases read : Configuration.ofFields rules data with
  | ok c =>
      have faultless : ¬ faultsOf rules data ≠ [] := by
        intro faulty
        rw [ofFields_eq_error_iff.2 ⟨faulty, rfl⟩] at read
        cases read
      constructor
      · intro impossible
        cases impossible
      · rintro ⟨faulty, _⟩
        exact absurd faulty faultless
  | error fault =>
      obtain ⟨faulty, rfl⟩ := ofFields_eq_error_iff.1 read
      constructor
      · intro failed
        cases failed
        exact ⟨faulty, rfl⟩
      · rintro ⟨_, rfl⟩
        rfl

theorem ofValue_eq_ok_of_rules (given : data.find? rulesKey = some rules)
    (present : rules ≠ .null) :
    Configuration.ofValue (.map data) = .ok c ↔ SaysFields data c := by
  rw [ofValue_of_rules given present, ← ofFields_eq_ok_iff given]
  cases Configuration.ofFields rules data with
  | ok found =>
      constructor
      · intro read
        cases read
        rfl
      · intro read
        cases read
        rfl
  | error fault => constructor <;> intro impossible <;> cases impossible

theorem ofValue_of_no_rules (filled : data ≠ [])
    (missing : data.find? rulesKey = none ∨ data.find? rulesKey = some .null) :
    Configuration.ofValue (.map data) = .error (.configuration .noRules) := by
  have holds : (Value.map data).holds = true := by
    simpa [Value.holds] using filled
  have refused : Configuration.ofMapping data = .error .noRules := by
    rw [Configuration.ofMapping, if_neg (by simpa using filled)]
    rcases missing with absent | null
    · rw [absent]
    · rw [null]
  rw [Configuration.ofValue, holds]
  change (Configuration.ofMapping data).mapError Failure.ofFault = _
  rw [refused]
  rfl

end Reading

/-- A value that holds nothing gives no configuration, and neither does a mapping in which the
rules are missing or null.  Any other mapping gives one, as its fields say, exactly when nothing
in their shape is at fault.  Otherwise all faults are reported together, each once, in the order
of the fields and of the plugins, unless the name of a plugin among them cannot be written. -/
theorem ofValue_reports_together (data : Mapping) :
    Configuration.ofValue .null = .error (.configuration .empty)
      ∧ Configuration.ofValue (.map []) = .error (.configuration .empty)
      ∧ (data ≠ [] → data.find? rulesKey = none ∨ data.find? rulesKey = some .null →
          Configuration.ofValue (.map data) = .error (.configuration .noRules))
      ∧ ∀ rules, data.find? rulesKey = some rules → rules ≠ .null →
          ((∃ failure, Configuration.ofValue (.map data) = .error failure)
              ↔ ∃ fault, IsShapeFault data fault)
            ∧ (∀ failure, Configuration.ofValue (.map data) = .error failure ↔
                (∃ faults, faults ≠ [] ∧ ListsFaults data faults
                    ∧ (∀ name ∈ misfitPlugins data, name.isWritable = true)
                    ∧ failure = .configuration (.shape faults))
                  ∨ (∃ name ∈ misfitPlugins data, name.isWritable = false) ∧ failure = .unusable)
            ∧ ∀ c, Configuration.ofValue (.map data) = .ok c ↔
                (∀ fault, ¬ IsShapeFault data fault) ∧ SaysFields data c := by
  refine ⟨rfl, rfl, ofValue_of_no_rules, fun rules given present => ?_⟩
  have lists := listsFaults_faultsOf given
  have faulty : faultsOf rules data ≠ [] ↔ ∃ fault, IsShapeFault data fault := by
    rw [← exists_congr lists.each]
    exact ⟨List.exists_mem_of_ne_nil _, fun ⟨_, member⟩ => List.ne_nil_of_mem member⟩
  have fails : ∀ failure, Configuration.ofValue (.map data) = .error failure ↔
      faultsOf rules data ≠ [] ∧ failure = .ofFault (.shape (faultsOf rules data)) :=
    fun _ => ofValue_eq_error_of_rules given present
  refine ⟨?_, fun failure => ?_, fun c => ?_⟩
  · rw [← faulty]
    constructor
    · rintro ⟨failure, failed⟩
      exact ((fails failure).1 failed).1
    · intro atFault
      exact ⟨_, (fails _).2 ⟨atFault, rfl⟩⟩
  · rw [fails, eq_ofFault_shape_iff lists]
    constructor
    · rintro ⟨atFault, ⟨writable, rfl⟩ | wordless⟩
      · exact .inl ⟨_, atFault, lists, writable, rfl⟩
      · exact .inr wordless
    · rintro (⟨faults, atFault, listsToo, writable, rfl⟩ | ⟨⟨name, listed, wordless⟩, rfl⟩)
      · rw [lists.unique listsToo]
        exact ⟨atFault, .inl ⟨writable, rfl⟩⟩
      · refine ⟨?_, .inr ⟨⟨name, listed, wordless⟩, rfl⟩⟩
        intro faultless
        rw [← lists.plugins, faultless] at listed
        cases listed
  · rw [ofValue_eq_ok_of_rules given present]
    refine ⟨fun said => ⟨?_, said⟩, fun both => both.2⟩
    intro fault isFault
    have read := (ofValue_eq_ok_of_rules given present).2 said
    rw [(fails _).2 ⟨faulty.2 ⟨fault, isFault⟩, rfl⟩] at read
    cases read

/-!
Every field is at fault, and of the plugins the first and the third.  Where the name of such a
plugin has too many digits, the faults have no words.  A flag that is null is off.
-/

/-- Entries with a fault in every field. -/
def mixedEntries : Mapping :=
  [(.str "quiet", .str "yes"), (.str "rules", .seq [.str "a"]),
   (.str "plugins", .map [(.str "p", .int 3), (.str "q", .str "./q.py"), (.int 7, .null)]),
   (.str "config_basedir", .bool false)]

/-- Entries with a plugin whose name cannot be written. -/
def wordlessEntries : Mapping :=
  [(.str "rules", .map []), (.str "plugins", .map [(.int Number.leastUnwritable, .null)])]

/-- Entries without a fault. -/
def quietEntries : Mapping :=
  [(.str "rules", .map [(.str "a", .int 1)]), (.str "plugins", .map [(.str "q", .str "./q.py")]),
   (.str "quiet", .null), (.str "config_basedir", .str "a//b/./c")]

theorem ofValue_reports_together_mixed :
    Configuration.ofValue (.map mixedEntries) = .error (.configuration (.shape
        [.rulesNotMapping "list", .pluginNotText (.str "p"), .pluginNotText (.int 7),
          .quietNotBool, .basedirNotPath]))
      ∧ Configuration.ofValue (.map wordlessEntries) = .error .unusable
      ∧ Configuration.ofValue (.map quietEntries) = .ok
        ⟨[(.str "a", .int 1)], [(.str "q", "./q.py")], false, some ⟨.relative, ["a", "b", "c"]⟩⟩
      ∧ Configuration.ofValue (.map [(.str "quiet", .bool true)])
        = .error (.configuration .noRules) := by
  refine ⟨?_, ?_, ?_, ?_⟩
  · have reported := (ofValue_reports_together mixedEntries).2.2.2 _ rfl (by simp)
    have misfits : ∀ name ∈ misfitPlugins mixedEntries, name.isWritable = true := by
      decide +kernel
    have lists := @listsFaults_faultsOf mixedEntries (.seq [.str "a"]) rfl
    exact (reported.2.1 _).2 (.inl ⟨_, List.cons_ne_nil _ _, lists, misfits, rfl⟩)
  · have reported := (ofValue_reports_together wordlessEntries).2.2.2 _ rfl (by simp)
    have tooLong : Number.isWritable Number.leastUnwritable = false := by decide +kernel
    exact (reported.2.1 _).2 (.inr ⟨⟨_, List.mem_singleton_self _, tooLong⟩, rfl⟩)
  · have reported := (ofValue_reports_together quietEntries).2.2.2 _ rfl (by simp)
    have said : SaysFields quietEntries
        ⟨[(.str "a", .int 1)], [(.str "q", "./q.py")], false, some ⟨.relative, ["a", "b", "c"]⟩⟩ :=
      ⟨rfl, .given [(.str "q", "./q.py")], .null, .text "a//b/./c"⟩
    exact (reported.2.2 _).2 ⟨fun fault => by rw [← mem_faultsOf rfl]; exact List.not_mem_nil, said⟩
  · exact (ofValue_reports_together [(.str "quiet", .bool true)]).2.2.1 (by simp) (.inl rfl)

end StyleAudit
