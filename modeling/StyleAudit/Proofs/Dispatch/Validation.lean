/-
Module: StyleAudit.Proofs.Dispatch.Validation
Purpose: A dispatch looks for faults in a configuration before it does anything else: which fault
  counts, and that nothing has happened when one is found.
Trusted boundary: none
Main exports: FirstFault, checkedSettings_eq_error_iff, Registry.IsFaultless,
  exists_of_failure_runSettings, dispatch_eq_of_firstFault, dispatch_checks_first
-/
import StyleAudit.Proofs.Config.SettingFaults
import StyleAudit.Proofs.Dispatch.Recording

namespace StyleAudit

/-!
### The fault that counts

Names come before settings: a name that is not registered counts even where an earlier setting
is at fault.
-/

/-- The fault of a configuration's rules that counts. -/
inductive FirstFault (registry : Registry) (rules : Mapping) : ConfigFault → Prop where
  /-- The first name that is not registered. -/
  | name {before after : Mapping} {name : Key} {v : Value}
      (split : rules = before ++ (name, v) :: after)
      (known : ∀ entry ∈ before, Table.contains entry.1 registry = true)
      (unknown : Table.contains name registry = false) :
      FirstFault registry rules (.undefinedRule name)
  /-- The first setting that is not sound, where all names are registered. -/
  | setting {before after : Mapping} {name : Key} {v : Value} {fault : ConfigFault}
      (split : rules = before ++ (name, v) :: after)
      (known : ∀ entry ∈ rules, Table.contains entry.1 registry = true)
      (sound : ∀ entry ∈ before, entry.2.IsSetting)
      (faulty : SettingFault name v fault) :
      FirstFault registry rules fault

theorem checkNames_eq_error_iff {registry : Registry} {rules : Mapping} {fault : ConfigFault} :
    checkNames registry (Table.keys rules) = .error fault ↔
      HasFirst (fun entry => Table.contains entry.1 registry = true)
        (fun entry => Table.contains entry.1 registry = false ∧ fault = .undefinedRule entry.1)
        rules := by
  induction rules with
  | nil =>
      constructor
      · intro impossible
        cases impossible
      · intro impossible
        exact absurd impossible not_hasFirst_nil
  | cons entry rest ih =>
      obtain ⟨name, v⟩ := entry
      rw [Table.keys_cons, checkNames, hasFirst_cons, ← ih]
      by_cases known : Table.contains name registry = true
      · simp [known]
      · simp [known, eq_comm]

theorem forall_keys_iff {registry : Registry} {rules : Mapping} :
    checkNames registry (Table.keys rules) = .ok () ↔
      ∀ entry ∈ rules, Table.contains entry.1 registry = true := by
  rw [checkNames_ok_iff, Table.keys, List.forall_mem_map]

/-- Checking names and then settings finds the fault that counts. -/
theorem checkedSettings_eq_error_iff {registry : Registry} {rules : Mapping}
    {fault : ConfigFault} :
    checkedSettings rules registry = .error fault ↔ FirstFault registry rules fault := by
  have unfolded : checkedSettings rules registry
      = (checkNames registry (Table.keys rules)).bind fun _ => settingsOf rules := rfl
  rw [unfolded]
  constructor
  · intro failed
    cases checked : checkNames registry (Table.keys rules) with
    | error other =>
        rw [checked] at failed
        cases failed
        obtain ⟨before, ⟨name, v⟩, after, split, known, unknown, rfl⟩ :=
          checkNames_eq_error_iff.1 checked
        exact .name split known unknown
    | ok _ =>
        rw [checked] at failed
        obtain ⟨before, ⟨name, v⟩, after, split, sound, faulty⟩ :=
          settingsOf_eq_error_iff.1 failed
        exact .setting split (forall_keys_iff.1 checked) sound faulty
  · intro first
    cases first with
    | @name before after name v split known unknown =>
        have checked : checkNames registry (Table.keys rules) = .error (.undefinedRule name) :=
          checkNames_eq_error_iff.2 ⟨before, (name, v), after, split, known, unknown, rfl⟩
        rw [checked]
        rfl
    | @setting before after name v _ split known sound faulty =>
        rw [forall_keys_iff.2 known]
        exact settingsOf_eq_error_iff.2 ⟨before, (name, v), after, split, sound, faulty⟩

/-- Some fault counts exactly when some name is not registered or some setting is not sound. -/
theorem exists_firstFault_iff {registry : Registry} {rules : Mapping} :
    (∃ fault, FirstFault registry rules fault) ↔
      ∃ entry ∈ rules, Table.contains entry.1 registry = false ∨ ¬ entry.2.IsSetting := by
  constructor
  · rintro ⟨fault, first⟩
    cases first with
    | @name before after name v split _ unknown =>
        exact ⟨(name, v), by simp [split], .inl unknown⟩
    | @setting before after name v _ split _ _ faulty =>
        refine ⟨(name, v), by simp [split], .inr ?_⟩
        intro sound
        exact (isSetting_iff name).1 sound fault faulty
  · rintro ⟨entry, member, bad⟩
    cases checked : checkedSettings rules registry with
    | error fault => exact ⟨fault, checkedSettings_eq_error_iff.1 checked⟩
    | ok settings =>
        obtain ⟨_, named, read⟩ := bind_eq_ok_iff.1 checked
        rcases bad with unknown | unsound
        · rw [forall_keys_iff.1 named entry member] at unknown
          cases unknown
        · exact absurd (exists_settingsOf_iff.1 ⟨settings, read⟩ entry member) unsound

/-!
### Rules that raise no faults of their own

A failure of a dispatch that is a fault of the configuration need not come from the checks: a
rule may raise one when it is bound or run.  Rules that never do leave such failures to the
checks.
-/

/-- The failure is a fault of a configuration. -/
def Failure.IsFault (failure : Failure) : Prop :=
  ∃ fault, failure = .configuration fault

/-- A rule never raises a fault of the configuration, neither bound nor run. -/
structure Rule.IsFaultless (rule : Rule) : Prop where
  bound : ∀ primary secondary failure,
    rule.bind primary secondary = .error failure → ¬ failure.IsFault
  run : ∀ primary secondary examine d failure, rule.bind primary secondary = .ok examine →
    (examine d).failure = some failure → ¬ failure.IsFault

/-- No rule of the registry ever raises a fault of the configuration. -/
def Registry.IsFaultless (registry : Registry) : Prop :=
  ∀ entry ∈ registry, entry.2.IsFaultless

theorem not_isFault_examinationOf {registry : Registry} (faultless : registry.IsFaultless)
    {d : Document} {name : Key} {setting : Setting} {failure : Failure}
    (failed : (examinationOf registry d name setting).failure = some failure) :
    ¬ failure.IsFault := by
  unfold examinationOf at failed
  by_cases off : setting.severity = .off
  · rw [if_pos off] at failed
    cases failed
  · rw [if_neg off] at failed
    cases found : Table.get? name registry with
    | none =>
        rw [found] at failed
        cases failed
        rintro ⟨fault, impossible⟩
        cases impossible
    | some rule =>
        obtain ⟨key, member, _⟩ := Table.mem_of_get?_eq_some found
        have plain := faultless (key, rule) member
        simp only [found] at failed
        cases bound : rule.bind setting.primary setting.secondary with
        | error other =>
            simp only [bound, Option.some.injEq] at failed
            exact failed ▸ plain.bound _ _ other bound
        | ok examine =>
            simp only [bound] at failed
            exact plain.run _ _ examine d failure bound failed

/-- A run that fails does so in the examination of one of its entries. -/
theorem exists_of_failure_runSettings {registry : Registry} {d : Document} {failure : Failure} :
    ∀ {settings : List (Key × Setting)} {r : Recorder},
      (runSettings registry d settings r).failure = some failure →
        ∃ entry ∈ settings, (examinationOf registry d entry.1 entry.2).failure = some failure
  | [], r, failed => by cases failed
  | (name, setting) :: rest, r, failed => by
      rw [failure_runSettings_cons] at failed
      cases ended : (examinationOf registry d name setting).failure with
      | some other =>
          simp only [ended] at failed
          exact ⟨(name, setting), List.mem_cons_self, ended.trans failed⟩
      | none =>
          simp only [ended] at failed
          obtain ⟨entry, member, found⟩ := exists_of_failure_runSettings failed
          exact ⟨entry, List.mem_cons_of_mem _ member, found⟩

/-!
### Dispatches
-/

/-- A dispatch that finds a fault leaves the record as it was, and has neither bound nor run
any rule. -/
theorem dispatch_eq_of_firstFault {registry : Registry} {rules : Mapping} {fault : ConfigFault}
    (first : FirstFault registry rules fault) (d : Document) (r : Recorder) :
    dispatch rules registry d r = ⟨r, [], [], some (.ofFault fault)⟩ := by
  rw [dispatch, checkedSettings_eq_error_iff.2 first]

/-- With rules that raise no faults themselves, a dispatch fails with a fault exactly when that
is the one that counts and it can be put into words; some fault counts exactly when some name is
not registered, whether its rule is off or not, or some setting is not sound; and whenever one
counts, also when there are no words for it, nothing has happened. -/
theorem dispatch_checks_first {registry : Registry} (faultless : registry.IsFaultless)
    (rules : Mapping) (d : Document) (r : Recorder) :
    (∀ fault, (dispatch rules registry d r).failure = some (.configuration fault) ↔
        FirstFault registry rules fault ∧ fault.isWritable = true)
      ∧ ((∃ fault, FirstFault registry rules fault) ↔
          ∃ entry ∈ rules, Table.contains entry.1 registry = false ∨ ¬ entry.2.IsSetting)
      ∧ ∀ fault, FirstFault registry rules fault →
          dispatch rules registry d r = ⟨r, [], [], some (.ofFault fault)⟩ := by
  refine ⟨fun fault => ?_, exists_firstFault_iff, fun fault first =>
    dispatch_eq_of_firstFault first d r⟩
  constructor
  · intro failed
    rw [dispatch] at failed
    cases checked : checkedSettings rules registry with
    | error other =>
        simp only [checked, Option.some.injEq, Failure.ofFault] at failed
        split at failed
        · rename_i writable
          cases failed
          exact ⟨checkedSettings_eq_error_iff.1 checked, writable⟩
        · cases failed
    | ok settings =>
        simp only [checked] at failed
        obtain ⟨entry, _, ended⟩ := exists_of_failure_runSettings failed
        exact absurd ⟨fault, rfl⟩ (not_isFault_examinationOf faultless ended)
  · rintro ⟨first, writable⟩
    rw [dispatch_eq_of_firstFault first, Failure.ofFault, if_pos writable]

/-!
The first rule has a severity that is none, but the third rule is not known, and that counts
although it is off.  Where the third rule is left out the severity counts.  A severity of too
many digits counts as well, though there are no words for it.
-/

theorem isFaultless_speaking {findings : List Finding} {failure : Option Failure}
    (plain : ∀ raised, failure = some raised → ¬ raised.IsFault) :
    (Rule.speaking findings failure).IsFaultless where
  bound primary secondary raised impossible := by cases impossible
  run primary secondary examine d raised bound failed := by
    cases bound
    exact plain raised failed

theorem isFaultless_crossingRegistry : crossingRegistry.IsFaultless := by
  have stops : ∀ raised, some (Failure.raised "stop") = some raised → ¬ raised.IsFault := by
    rintro _ ⟨⟩ ⟨fault, impossible⟩
    cases impossible
  have ends : ∀ raised, none = some raised → ¬ Failure.IsFault raised := by
    rintro _ ⟨⟩
  simp only [Registry.IsFaultless, crossingRegistry, List.forall_mem_cons]
  exact ⟨isFaultless_speaking stops, isFaultless_speaking ends, isFaultless_speaking ends,
    List.forall_mem_nil _⟩

def loudRules : Mapping := [(.str "first", .str "loud"), (.str "silent", .seq [.str "Off"])]

def strangeRules : Mapping := loudRules ++ [(.str "third", .int 0)]

/-- Rules with a severity that cannot be written. -/
def unwritableRules : Mapping := [(.str "first", .seq [.int Number.leastUnwritable])]

def emptyDocument : Document := ⟨Position.origin, .null, []⟩

theorem dispatch_checks_first_strange :
    crossingRegistry.IsFaultless
      ∧ dispatch strangeRules crossingRegistry emptyDocument Recorder.empty
          = ⟨Recorder.empty, [], [], some (.configuration (.undefinedRule (.str "third")))⟩
      ∧ (dispatch loudRules crossingRegistry emptyDocument Recorder.empty).failure
          = some (.configuration (.invalidSeverity (.str "loud") (.str "first")))
      ∧ dispatch unwritableRules crossingRegistry emptyDocument Recorder.empty
          = ⟨Recorder.empty, [], [], some .unusable⟩ := by
  have checks := fun rules => dispatch_checks_first isFaultless_crossingRegistry rules
    emptyDocument Recorder.empty
  have strange : FirstFault crossingRegistry strangeRules (.undefinedRule (.str "third")) :=
    @FirstFault.name _ _ loudRules [] (.str "third") (.int 0) rfl (by decide) rfl
  have loud : FirstFault crossingRegistry loudRules
      (.invalidSeverity (.str "loud") (.str "first")) :=
    @FirstFault.setting _ _ [] [(.str "silent", .seq [.str "Off"])] _ _ _ rfl (by decide)
      (List.forall_mem_nil _) (.bare (by simp) (by decide))
  have unwritable : FirstFault crossingRegistry unwritableRules
      (.invalidSeverity (.int Number.leastUnwritable) (.str "first")) :=
    @FirstFault.setting _ _ [] [] _ _ _ rfl (by decide) (List.forall_mem_nil _)
      (.first (by decide +kernel))
  have wordless : Failure.ofFault
      (.invalidSeverity (.int Number.leastUnwritable) (.str "first")) = .unusable := by
    have tooLong : Number.isWritable Number.leastUnwritable = false := by decide +kernel
    rw [Failure.ofFault, ConfigFault.isWritable, Value.isWritable, tooLong]
    rfl
  refine ⟨isFaultless_crossingRegistry, ?_, ?_, ?_⟩
  · exact (checks strangeRules).2.2 _ strange
  · exact ((checks loudRules).1 _).2 ⟨loud, rfl⟩
  · rw [(checks unwritableRules).2.2 _ unwritable, wordless]

end StyleAudit
