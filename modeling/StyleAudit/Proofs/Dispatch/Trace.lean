/-
Module: StyleAudit.Proofs.Dispatch.Trace
Purpose: The events of a dispatch told one by one: what was planned for the rules that are not off,
  up to the first event that fails and with it.
Trusted boundary: none
Main exports: upTo, Value.settingItem, RuleStep, ruleSteps, planOf, attempted, Dispatch.Traces,
  dispatch_traces
-/
import StyleAudit.Proofs.Config.SettingFaults
import StyleAudit.Proofs.Dispatch.Validation

namespace StyleAudit

/-!
### The first marked item
-/

section UpTo

variable {α : Type}

/-- The items up to the first that is marked, and with it. -/
def upTo (marked : α → Bool) : List α → List α
  | [] => []
  | a :: rest => if marked a then [a] else a :: upTo marked rest

variable {marked : α → Bool} {items : List α}

/-- Nothing behind a marked item counts. -/
theorem upTo_append_of_any (stops : items.any marked = true) (rest : List α) :
    upTo marked (items ++ rest) = upTo marked items := by
  induction items with
  | nil => cases stops
  | cons a others ih =>
      rw [List.cons_append, upTo, upTo]
      by_cases here : marked a = true
      · rw [if_pos here, if_pos here]
      · rw [List.any_cons, Bool.or_eq_true] at stops
        rw [if_neg here, if_neg here, ih (stops.resolve_left here)]

/-- Items without a mark are passed. -/
theorem upTo_append_of_not_any (goes : items.any marked = false) (rest : List α) :
    upTo marked (items ++ rest) = items ++ upTo marked rest := by
  induction items with
  | nil => rfl
  | cons a others ih =>
      rw [List.any_cons, Bool.or_eq_false_iff] at goes
      rw [List.cons_append, upTo, goes.1, ih goes.2]
      rfl

theorem upTo_of_not_any (goes : items.any marked = false) : upTo marked items = items := by
  have whole := upTo_append_of_not_any goes []
  rwa [upTo, List.append_nil] at whole

theorem mem_of_mem_upTo {a : α} (member : a ∈ upTo marked items) : a ∈ items := by
  induction items with
  | nil => exact member
  | cons b others ih =>
      rw [upTo] at member
      split at member
      · rw [List.mem_singleton] at member
        rw [member]
        exact List.mem_cons_self
      · rw [List.mem_cons] at member
        rcases member with rfl | later
        · exact List.mem_cons_self
        · exact List.mem_cons_of_mem _ (ih later)

end UpTo

/-!
### Items of a setting

A setting is a list of a severity and two options.  A severity alone is a list of one item, and an
option that is not given is null.
-/

/-- The items of a setting. -/
def Value.settingItems : Value → List Value
  | .seq items => items
  | v => [v]

/-- One item of a setting. -/
def Value.settingItem (v : Value) (n : Nat) : Value :=
  v.settingItems[n]?.getD .null

/-- The severity of a setting is none or another than off. -/
def Value.isOn (v : Value) : Bool :=
  severityOfValue? (v.settingItem 0) != some .off

theorem severityOfValue_eq_ok_iff {name : Key} {v : Value} {severity : Severity} :
    severityOfValue name v = .ok severity ↔ severityOfValue? v = some severity := by
  rw [severityOfValue]
  cases severityOfValue? v <;> simp

/-- A setting is read item by item. -/
theorem ofValue_eq_ok_iff {name : Key} {v : Value} {setting : Setting} :
    Setting.ofValue name v = .ok setting ↔
      severityOfValue? (v.settingItem 0) = some setting.severity
        ∧ setting.primary = v.settingItem 1 ∧ setting.secondary = v.settingItem 2 := by
  have listed (first primary secondary : Value) :
      (do
        let severity ← severityOfValue name first
        return (⟨severity, primary, secondary⟩ : Setting)) = .ok setting
        ↔ severityOfValue? first = some setting.severity ∧ setting.primary = primary
          ∧ setting.secondary = secondary := by
    constructor
    · intro read
      obtain ⟨severity, told, done⟩ := bind_eq_ok_iff.1 read
      cases done
      exact ⟨severityOfValue_eq_ok_iff.1 told, rfl, rfl⟩
    · rintro ⟨told, rfl, rfl⟩
      exact bind_eq_ok_iff.2 ⟨_, severityOfValue_eq_ok_iff.2 told, rfl⟩
  cases v with
  | seq items =>
      cases items with
      | nil =>
          constructor
          · intro impossible
            cases impossible
          · rintro ⟨impossible, _⟩
            cases impossible
      | cons first options => exact listed first _ _
  | _ => exact listed _ .null .null

/-!
### What is planned
-/

/-- An event of a rule, and the failure that it raises, if it raises one. -/
structure RuleStep where
  event : RuleEvent
  failure : Option Failure

/-- The event raises a failure. -/
def RuleStep.raises (s : RuleStep) : Bool :=
  s.failure.isSome

/-- The failure to bind a rule to the options of a setting. -/
def Rule.bindingFailure? (rule : Rule) (v : Value) : Option Failure :=
  match rule.bind (v.settingItem 1) (v.settingItem 2) with
  | .error failure => some failure
  | .ok _ => none

/-- The failure to run a rule that was bound to the options of a setting. -/
def Rule.runningFailure? (rule : Rule) (v : Value) (d : Document) : Option Failure :=
  match rule.bind (v.settingItem 1) (v.settingItem 2) with
  | .error _ => none
  | .ok examine => (examine d).failure

/-- A rule is bound to the options of its setting, and then it is run. -/
def ruleSteps (d : Document) (name : Key) (v : Value) (rule : Rule) : List RuleStep :=
  [⟨.bound name rule.origin (v.settingItem 1) (v.settingItem 2), rule.bindingFailure? v⟩,
   ⟨.ran name rule.origin, rule.runningFailure? v d⟩]

/-- What is planned for one entry of a configuration. -/
def entrySteps (registry : Registry) (d : Document) (entry : Key × Value) : List RuleStep :=
  match Table.get? entry.1 registry with
  | some rule => ruleSteps d entry.1 entry.2 rule
  | none => []

/-- The entries whose rules are not off, in their order. -/
def entriesOn (rules : Mapping) : Mapping :=
  rules.filter fun entry => entry.2.isOn

/-- What is planned for a configuration. -/
def planOf (registry : Registry) (d : Document) (rules : Mapping) : List RuleStep :=
  (entriesOn rules).flatMap (entrySteps registry d)

/-- The entries that are come to: those whose rules are not off, up to the first for which an
event fails. -/
def attempted (registry : Registry) (d : Document) (rules : Mapping) : Mapping :=
  upTo (fun entry => (entrySteps registry d entry).any RuleStep.raises) (entriesOn rules)

/-- The severities after that of an entry was noted. -/
def noteSeverity (severities : Table Key Severity) (entry : Key × Value) : Table Key Severity :=
  Table.put entry.1 ((severityOfValue? (entry.2.settingItem 0)).getD .off) severities

/-- A dispatch went through its plan up to the first event that failed, and with it.  The failure
is the one of that event, and the severities are those of the entries that were come to. -/
structure Dispatch.Traces (done : Dispatch) (registry : Registry) (d : Document) (rules : Mapping)
    (before : Recorder) : Prop where
  events : done.events = (upTo RuleStep.raises (planOf registry d rules)).map RuleStep.event
  failure : done.failure = (planOf registry d rules).findSome? RuleStep.failure
  severities : done.recorder.severities
    = (attempted registry d rules).foldl noteSeverity before.severities

/-!
### One entry
-/

section Entry

variable {registry : Registry} {d : Document} {r : Recorder} {name : Key} {v : Value}

theorem severities_recordAll (findings : List Finding) (r : Recorder) :
    (recordAll findings r).severities = r.severities := by
  induction findings generalizing r with
  | nil => rfl
  | cons finding rest ih =>
      rw [recordAll, List.foldl_cons]
      apply (ih _).trans
      cases finding with
      | report rule message position =>
          rw [Finding.recordOn, Recorder.report]
          split <;> rfl
      | invalidOption rule option value => rfl

/-- A rule is bound, and run unless binding fails; its severity is noted in any case. -/
theorem traces_runRule (rule : Rule) (severity : Severity) :
    let setting : Setting := ⟨severity, v.settingItem 1, v.settingItem 2⟩
    (runRule name setting rule d r).events
        = (upTo RuleStep.raises (ruleSteps d name v rule)).map RuleStep.event
      ∧ (runRule name setting rule d r).failure
        = (ruleSteps d name v rule).findSome? RuleStep.failure
      ∧ (runRule name setting rule d r).recorder.severities
        = Table.put name severity r.severities := by
  simp only [runRule, ruleSteps, Rule.bindingFailure?, Rule.runningFailure?]
  cases rule.bind (v.settingItem 1) (v.settingItem 2) with
  | error failure => exact ⟨rfl, rfl, rfl⟩
  | ok examine =>
      simp only
      have noted := severities_recordAll (examine d).findings (r.activate name severity)
      cases (examine d).failure with
      | some failure => exact ⟨rfl, rfl, noted⟩
      | none => exact ⟨rfl, rfl, noted⟩

end Entry

/-!
### All entries

A run is traced entry by entry.  An entry that is off adds nothing to the plan.  Any other one adds
the steps of its rule in front, and if one of them fails, nothing behind them counts.
-/

section Entries

variable {registry : Registry} {d : Document} {r : Recorder} {name : Key} {v : Value}
  {rest : Mapping}

theorem entriesOn_cons_of_off (off : v.isOn = false) :
    entriesOn ((name, v) :: rest) = entriesOn rest :=
  List.filter_cons_of_neg (Bool.eq_false_iff.1 off)

theorem entriesOn_cons_of_on (on : v.isOn = true) :
    entriesOn ((name, v) :: rest) = (name, v) :: entriesOn rest :=
  List.filter_cons_of_pos on

theorem entrySteps_eq {rule : Rule} (held : Table.get? name registry = some rule) :
    entrySteps registry d (name, v) = ruleSteps d name v rule := by
  rw [entrySteps, held]

theorem planOf_cons_of_on (on : v.isOn = true) {rule : Rule}
    (held : Table.get? name registry = some rule) :
    planOf registry d ((name, v) :: rest)
      = ruleSteps d name v rule ++ planOf registry d rest := by
  rw [planOf, entriesOn_cons_of_on on, List.flatMap_cons, entrySteps_eq held]
  rfl

theorem any_raises_eq (steps : List RuleStep) :
    steps.any RuleStep.raises = (steps.findSome? RuleStep.failure).isSome := by
  rw [Bool.eq_iff_iff, List.any_eq_true, List.findSome?_isSome_iff]
  rfl

/-- Before an entry that is off, a run goes on with the others. -/
theorem Dispatch.Traces.skip {done : Dispatch} (traces : done.Traces registry d rest r)
    (off : v.isOn = false) (log : List LogRecord) :
    ({ done with log := log } : Dispatch).Traces registry d ((name, v) :: rest) r where
  events := by
    rw [planOf, entriesOn_cons_of_off off]
    exact traces.events
  failure := by
    rw [planOf, entriesOn_cons_of_off off]
    exact traces.failure
  severities := by
    rw [attempted, entriesOn_cons_of_off off]
    exact traces.severities

section On

variable (on : v.isOn = true) {rule : Rule} (held : Table.get? name registry = some rule)
  {first : Dispatch}
  (events : first.events = (upTo RuleStep.raises (ruleSteps d name v rule)).map RuleStep.event)
  (failure : first.failure = (ruleSteps d name v rule).findSome? RuleStep.failure)
  (severities : first.recorder.severities = noteSeverity r.severities (name, v))
include on held events failure severities

/-- An entry that fails ends the run. -/
theorem traces_of_failure (failed : first.failure.isSome = true) :
    first.Traces registry d ((name, v) :: rest) r := by
  have raises : (ruleSteps d name v rule).any RuleStep.raises = true := by
    rw [any_raises_eq, ← failure, failed]
  constructor
  · rw [events, planOf_cons_of_on on held, upTo_append_of_any raises]
  · rw [planOf_cons_of_on on held, List.findSome?_append, ← failure, Option.or_of_isSome failed]
  · rw [severities, attempted, entriesOn_cons_of_on on, upTo, entrySteps_eq held, if_pos raises]
    rfl

/-- After an entry that does not fail, a run goes on with the others. -/
theorem traces_of_success (well : first.failure = none) {others : Dispatch}
    (later : others.Traces registry d rest first.recorder) (log : List LogRecord) :
    ({ others with events := first.events ++ others.events, log := log } : Dispatch).Traces
      registry d ((name, v) :: rest) r := by
  have quiet : (ruleSteps d name v rule).any RuleStep.raises = false := by
    rw [any_raises_eq, ← failure, well]
    rfl
  constructor
  · rw [events, later.events, planOf_cons_of_on on held, upTo_append_of_not_any quiet,
      upTo_of_not_any quiet, List.map_append]
  · rw [planOf_cons_of_on on held, List.findSome?_append, ← failure, well, later.failure]
    rfl
  · rw [later.severities, severities, attempted, attempted, entriesOn_cons_of_on on, upTo,
      entrySteps_eq held, quiet]
    rfl

end On

/-- Running entries goes through their plan. -/
theorem traces_runSettings {rules : Mapping} {settings : List (Key × Setting)}
    (known : ∀ entry ∈ rules, Table.contains entry.1 registry = true)
    (read : settingsOf rules = .ok settings) (r : Recorder) :
    (runSettings registry d settings r).Traces registry d rules r := by
  have related := settingsOf_ok_iff.1 read
  clear read
  induction related generalizing r with
  | nil => exact ⟨rfl, rfl, rfl⟩
  | @cons entry given rest others head _ ih =>
      obtain ⟨name, v⟩ := entry
      obtain ⟨_, severity, primary, secondary⟩ := given
      obtain ⟨rfl, sound⟩ := head
      obtain ⟨told, rfl, rfl⟩ := ofValue_eq_ok_iff.1 sound
      obtain ⟨knownHere, knownLater⟩ := List.forall_mem_cons.1 known
      obtain ⟨rule, held⟩ := Option.isSome_iff_exists.1 knownHere
      simp only at told
      rw [runSettings, runSetting]
      by_cases off : severity = .off
      · have isOff : v.isOn = false := by
          rw [Value.isOn, told, off]
          rfl
        rw [if_pos off]
        exact (ih knownLater r).skip isOff _
      · have isOn : v.isOn = true := by
          rw [Value.isOn, told, bne_iff_ne, ne_eq, Option.some.injEq]
          exact off
        rw [if_neg off, held]
        have ran := @traces_runRule d r name v rule severity
        simp only at ran ⊢
        generalize runRule name ⟨severity, v.settingItem 1, v.settingItem 2⟩ rule d r = first
          at ran ⊢
        obtain ⟨events, failure, severities⟩ := ran
        have noted : first.recorder.severities = noteSeverity r.severities (name, v) := by
          rw [severities, noteSeverity, told]
          rfl
        cases ended : first.failure with
        | some raised =>
            exact traces_of_failure isOn held events failure noted (by rw [ended]; rfl)
        | none =>
            exact traces_of_success isOn held events failure noted ended
              (ih knownLater first.recorder) _

end Entries

/-!
### Rules that are off
-/

/-- The rule that an event tells of. -/
def RuleEvent.rule : RuleEvent → Key
  | .bound name _ _ _ => name
  | .ran name _ => name

section Off

variable {registry : Registry} {d : Document} {rules : Mapping} {entry : Key × Value}

/-- A rule that is off has no entry under which it is on. -/
theorem not_same_of_off (distinct : Table.isDistinct rules = true) (member : entry ∈ rules)
    (off : entry.2.isOn = false) : ∀ other ∈ entriesOn rules,
      ¬ Sameness.same other.1 entry.1 = true := by
  intro other listed same
  obtain ⟨memberOther, on⟩ := List.mem_filter.1 listed
  have first := Table.get?_of_mem distinct member (LawfulSameness.refl entry.1)
  have second := Table.get?_of_mem distinct memberOther same
  rw [Option.some.inj (first.symm.trans second), on] at off
  cases off

theorem exists_entry_of_mem_planOf {s : RuleStep} (planned : s ∈ planOf registry d rules) :
    ∃ other ∈ entriesOn rules, s.event.rule = other.1 := by
  obtain ⟨other, listed, inSteps⟩ := List.mem_flatMap.1 planned
  refine ⟨other, listed, ?_⟩
  rw [entrySteps] at inSteps
  split at inSteps
  · rw [ruleSteps, List.mem_cons, List.mem_singleton] at inSteps
    rcases inSteps with rfl | rfl
    · rfl
    · rfl
  · cases inSteps

theorem get?_foldl_noteSeverity {name : Key} {entries : Mapping}
    (others : ∀ other ∈ entries, ¬ Sameness.same other.1 name = true)
    (severities : Table Key Severity) :
    Table.get? name (entries.foldl noteSeverity severities) = Table.get? name severities := by
  induction entries generalizing severities with
  | nil => rfl
  | cons entry rest ih =>
      rcases List.forall_mem_cons.1 others with ⟨here, later⟩
      rw [List.foldl_cons, ih later, noteSeverity, Table.get?_put_of_not_same here]

/-- No event of a dispatch is about a rule that is off, and its severity is not noted. -/
theorem Dispatch.Traces.passes_off {done : Dispatch} {before : Recorder}
    (traces : done.Traces registry d rules before) (distinct : Table.isDistinct rules = true)
    (member : entry ∈ rules) (off : entry.2.isOn = false) :
    (∀ event ∈ done.events, ¬ Sameness.same event.rule entry.1 = true)
      ∧ Table.get? entry.1 done.recorder.severities = Table.get? entry.1 before.severities := by
  have apart := not_same_of_off distinct member off
  constructor
  · intro event happened
    rw [traces.events] at happened
    obtain ⟨s, traced, rfl⟩ := List.mem_map.1 happened
    obtain ⟨other, listed, named⟩ := exists_entry_of_mem_planOf (mem_of_mem_upTo traced)
    rw [named]
    exact apart other listed
  · rw [traces.severities]
    exact get?_foldl_noteSeverity (fun other come => apart other (mem_of_mem_upTo come)) _

end Off

/-- With known names and sound settings, the events of a dispatch are those of its plan up to the
first that fails, the failure is the one of that event, and the severities are those of the entries
that were come to.  Rules that are off are passed over. -/
theorem dispatch_traces {registry : Registry} {rules : Mapping}
    (known : ∀ entry ∈ rules, Table.contains entry.1 registry = true)
    (sound : ∀ entry ∈ rules, entry.2.IsSetting) (d : Document) (r : Recorder) :
    (dispatch rules registry d r).Traces registry d rules r
      ∧ (Table.isDistinct rules = true → ∀ entry ∈ rules, entry.2.isOn = false →
          (∀ event ∈ (dispatch rules registry d r).events,
              ¬ Sameness.same event.rule entry.1 = true)
            ∧ Table.get? entry.1 (dispatch rules registry d r).recorder.severities
              = Table.get? entry.1 r.severities) := by
  obtain ⟨settings, read⟩ := exists_settingsOf_iff.2 sound
  have traces : (dispatch rules registry d r).Traces registry d rules r := by
    rw [dispatch_eq_runSettings known read]
    exact traces_runSettings known read r
  refine ⟨traces, ?_⟩
  intro distinct entry member off
  exact traces.passes_off distinct member off

/-!
Four settings of every shape over three rules.  One of the rules fails while it runs, so nothing
behind it is bound.
-/

/-- The settings. -/
def shapedRules : Mapping :=
  [(.str "first", .seq [.str "warn", .int 7, .null, .int 8]), (.str "silent", .int 0),
   (.str "second", .str "Error"), (.str "third", .seq [.int 1, .str "late"])]

/-- The rules. -/
def shapedRegistry : Registry :=
  (.str "third", Rule.speaking [] none) :: crossingRegistry

theorem dispatch_traces_shaped :
    (∀ entry ∈ shapedRules, Table.contains entry.1 shapedRegistry = true)
      ∧ (∀ entry ∈ shapedRules, entry.2.IsSetting)
      ∧ (dispatch shapedRules shapedRegistry emptyDocument Recorder.empty).events
          = [.bound (.str "first") .plugin (.int 7) .null, .ran (.str "first") .plugin,
             .bound (.str "second") .plugin .null .null, .ran (.str "second") .plugin]
      ∧ (dispatch shapedRules shapedRegistry emptyDocument Recorder.empty).failure
          = some (.raised "stop")
      ∧ (dispatch shapedRules shapedRegistry emptyDocument Recorder.empty).recorder.severities
          = [(.str "first", .warning), (.str "second", .error)] := by
  have known : ∀ entry ∈ shapedRules, Table.contains entry.1 shapedRegistry = true := by decide
  have sound : ∀ entry ∈ shapedRules, entry.2.IsSetting := by
    simp only [shapedRules, List.forall_mem_cons]
    refine ⟨.listed (by decide), .bare (by decide), .bare (by decide), .listed (by decide),
      List.forall_mem_nil _⟩
  obtain ⟨events, failure, severities⟩ :=
    (dispatch_traces known sound emptyDocument Recorder.empty).1
  refine ⟨known, sound, events.trans ?_, failure.trans ?_, severities.trans ?_⟩
  · rfl
  · rfl
  · rfl

end StyleAudit
