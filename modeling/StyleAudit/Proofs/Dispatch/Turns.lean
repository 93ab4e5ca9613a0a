/-
Module: StyleAudit.Proofs.Dispatch.Turns
Purpose: The order in which a dispatch binds and runs rules: that of the entries of the
  configuration whose rules are not off.
Trusted boundary: none
Main exports: Turn, enabledNames, turnsOf, Dispatch.Follows, follows_runSettings,
  follows_dispatch
-/
import StyleAudit.Proofs.Dispatch.Examination

namespace StyleAudit

/-!
### Turns
-/

/-- What is done with a rule. -/
inductive Turn where
  | binding (name : Key)
  | running (name : Key)
deriving DecidableEq, Repr

/-- The turn that an event tells of. -/
def RuleEvent.turn : RuleEvent → Turn
  | .bound name _ _ _ => .binding name
  | .ran name _ => .running name

/-- The turns of rules that are bound and run one after another. -/
def turnsOf (names : List Key) : List Turn :=
  names.flatMap fun name => [.binding name, .running name]

/-- The entry of a configuration gives its rule a severity other than off. -/
def isEnabled (entry : Key × Value) : Bool :=
  match Setting.ofValue entry.1 entry.2 with
  | .ok setting => setting.severity != .off
  | .error _ => false

/-- The names of the rules that are not off, in the order of their entries. -/
def enabledNames (rules : Mapping) : List Key :=
  Table.keys (rules.filter isEnabled)

/-- A dispatch takes its turns in the order of the names: all of them if it ends well, and
otherwise those up to its failure. -/
structure Dispatch.Follows (done : Dispatch) (names : List Key) : Prop where
  until_failure : done.events.map RuleEvent.turn <+: turnsOf names
  all : done.failure = none → done.events.map RuleEvent.turn = turnsOf names

theorem Dispatch.follows_of_failure {done : Dispatch} {names : List Key} {failure : Failure}
    (failed : done.failure = some failure)
    (upTo : done.events.map RuleEvent.turn <+: turnsOf names) : done.Follows names where
  until_failure := upTo
  all ended := by
    rw [failed] at ended
    cases ended

theorem Dispatch.follows_of_eq {done : Dispatch} {names : List Key}
    (taken : done.events.map RuleEvent.turn = turnsOf names) : done.Follows names where
  until_failure := taken ▸ List.prefix_rfl
  all _ := taken

/-!
### One entry, and all entries
-/

theorem follows_runSetting (registry : Registry) (name : Key) (setting : Setting) (d : Document)
    (r : Recorder) :
    (runSetting registry name setting d r).Follows
      (if setting.severity = .off then [] else [name]) := by
  unfold runSetting
  by_cases off : setting.severity = .off
  · rw [if_pos off, if_pos off]
    exact Dispatch.follows_of_eq rfl
  · rw [if_neg off, if_neg off]
    cases Table.get? name registry with
    | none => exact Dispatch.follows_of_failure rfl List.nil_prefix
    | some rule =>
        simp only [runRule]
        cases rule.bind setting.primary setting.secondary with
        | error failure =>
            exact Dispatch.follows_of_failure rfl ⟨[.running name], rfl⟩
        | ok examine =>
            simp only
            cases (examine d).failure with
            | some failure => exact Dispatch.follows_of_eq rfl
            | none => exact Dispatch.follows_of_eq rfl

theorem turnsOf_enabledNames_cons {name : Key} {v : Value} {setting : Setting}
    (sound : Setting.ofValue name v = .ok setting) (rest : Mapping) :
    turnsOf (enabledNames ((name, v) :: rest))
      = turnsOf (if setting.severity = .off then [] else [name])
          ++ turnsOf (enabledNames rest) := by
  by_cases off : setting.severity = .off
  · simp [enabledNames, isEnabled, sound, off, turnsOf]
  · simp [enabledNames, isEnabled, sound, off, turnsOf, Table.keys]

/-- The turns of a run are those of its entries one after another, up to the first failure. -/
theorem follows_runSettings {registry : Registry} {d : Document} {rules : Mapping}
    {settings : List (Key × Setting)} (read : settingsOf rules = .ok settings) (r : Recorder) :
    (runSettings registry d settings r).Follows (enabledNames rules) := by
  have related := settingsOf_ok_iff.1 read
  clear read
  induction related generalizing r with
  | nil => exact Dispatch.follows_of_eq rfl
  | @cons entry given rest others head _ ih =>
      obtain ⟨name, v⟩ := entry
      obtain ⟨_, setting⟩ := given
      obtain ⟨rfl, sound⟩ := head
      have first := follows_runSetting registry name setting d r
      have later := ih (runSetting registry name setting d r).recorder
      have split := turnsOf_enabledNames_cons sound rest
      rw [runSettings]
      cases ended : (runSetting registry name setting d r).failure with
      | some failure =>
          apply Dispatch.follows_of_failure ended
          rw [split]
          exact first.until_failure.trans (List.prefix_append _ _)
      | none =>
          have whole := first.all ended
          constructor
          · rw [split, List.map_append, whole]
            exact (List.prefix_append_right_inj _).2 later.until_failure
          · intro well
            rw [split, List.map_append, whole, later.all well]

/-- A dispatch binds and runs the rules that are not off, one after another in the order of
their entries, and stops at the first failure. -/
theorem follows_dispatch (rules : Mapping) (registry : Registry) (d : Document) (r : Recorder) :
    (dispatch rules registry d r).Follows (enabledNames rules) := by
  rw [dispatch]
  cases checked : checkedSettings rules registry with
  | error fault => exact Dispatch.follows_of_failure rfl List.nil_prefix
  | ok settings =>
      obtain ⟨_, _, read⟩ := bind_eq_ok_iff.1 checked
      exact follows_runSettings read r

end StyleAudit
