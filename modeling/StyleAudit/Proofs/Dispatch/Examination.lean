/-
Module: StyleAudit.Proofs.Dispatch.Examination
Purpose: What running one entry of a configuration comes to: the severity that is noted, the
  findings that are offered to the record, and the failure that ends the dispatch.
Trusted boundary: none
Main exports: examinationOf, Recorder.noting, recorder_runSettings_cons,
  failure_runSettings_eq_none_iff, settingsOf_ok_iff, dispatch_eq_runSettings
-/
import StyleAudit.Dispatch
import StyleAudit.Proofs.Config.Gathering
import StyleAudit.Proofs.Table
import Mathlib.Data.List.Forall2

namespace StyleAudit

/-!
### One entry

Every proof about dispatches takes an entry for its examination, so none of them looks at the
registry and at how rules are bound.
-/

/-- What the rule of an entry finds in a document, and the failure to bind or to run it. -/
def examinationOf (registry : Registry) (d : Document) (name : Key) (setting : Setting) :
    Examination :=
  if setting.severity = .off then .found []
  else
    match Table.get? name registry with
    | none => ⟨[], some .unusable⟩
    | some rule =>
        match rule.bind setting.primary setting.secondary with
        | .error failure => ⟨[], some failure⟩
        | .ok examine => examine d

/-- The record in which the rule of an entry runs: it knows the rule's severity. -/
def Recorder.noting (name : Key) (setting : Setting) (r : Recorder) : Recorder :=
  { r with
    severities :=
      if setting.severity = .off then r.severities
      else Table.put name setting.severity r.severities }

section Entry

variable {registry : Registry} {name : Key} {setting : Setting} {d : Document} {r : Recorder}

theorem failure_runSetting_eq :
    (runSetting registry name setting d r).failure
      = (examinationOf registry d name setting).failure := by
  unfold runSetting examinationOf
  by_cases off : setting.severity = .off
  · rw [if_pos off, if_pos off]
    rfl
  · rw [if_neg off, if_neg off]
    cases Table.get? name registry with
    | none => rfl
    | some rule =>
        simp only [runRule]
        cases rule.bind setting.primary setting.secondary with
        | error failure => rfl
        | ok examine =>
            simp only
            cases (examine d).failure <;> rfl

theorem recorder_runSetting_eq :
    (runSetting registry name setting d r).recorder
      = recordAll (examinationOf registry d name setting).findings (r.noting name setting) := by
  unfold runSetting examinationOf Recorder.noting
  by_cases off : setting.severity = .off
  · rw [if_pos off, if_pos off, if_pos off]
    rfl
  · rw [if_neg off, if_neg off, if_neg off]
    cases Table.get? name registry with
    | none => rfl
    | some rule =>
        simp only [runRule]
        cases rule.bind setting.primary setting.secondary with
        | error failure => rfl
        | ok examine =>
            simp only
            cases (examine d).failure <;> rfl

end Entry

/-!
### All entries
-/

/-- A failure ends the run; until then each entry works on the record that those before it
leave. -/
theorem recorder_runSettings_cons {registry : Registry} {d : Document} {name : Key}
    {setting : Setting} {rest : List (Key × Setting)} {r : Recorder} :
    (runSettings registry d ((name, setting) :: rest) r).recorder =
      let examined := examinationOf registry d name setting
      let after := recordAll examined.findings (r.noting name setting)
      match examined.failure with
      | some _ => after
      | none => (runSettings registry d rest after).recorder := by
  rw [runSettings]
  simp only [failure_runSetting_eq, recorder_runSetting_eq]
  cases (examinationOf registry d name setting).failure with
  | some failure => exact recorder_runSetting_eq
  | none => rfl

theorem failure_runSettings_cons {registry : Registry} {d : Document} {name : Key}
    {setting : Setting} {rest : List (Key × Setting)} {r : Recorder} :
    (runSettings registry d ((name, setting) :: rest) r).failure =
      let examined := examinationOf registry d name setting
      match examined.failure with
      | some failure => some failure
      | none =>
          (runSettings registry d rest
            (recordAll examined.findings (r.noting name setting))).failure := by
  rw [runSettings]
  simp only [failure_runSetting_eq, recorder_runSetting_eq]
  cases failed : (examinationOf registry d name setting).failure with
  | some failure =>
      show (runSetting registry name setting d r).failure = some failure
      rw [failure_runSetting_eq, failed]
  | none => rfl

/-- A run ends well when no entry's examination fails, whatever is on record. -/
theorem failure_runSettings_eq_none_iff {registry : Registry} {d : Document} :
    ∀ {settings : List (Key × Setting)} {r : Recorder},
      (runSettings registry d settings r).failure = none ↔
        ∀ entry ∈ settings, (examinationOf registry d entry.1 entry.2).failure = none
  | [], r => by simp [runSettings]
  | (name, setting) :: rest, r => by
      rw [failure_runSettings_cons, List.forall_mem_cons]
      cases failed : (examinationOf registry d name setting).failure with
      | some failure => simp [failed]
      | none => simpa [failed] using failure_runSettings_eq_none_iff

/-!
### Names and settings
-/

theorem checkNames_ok_iff {registry : Registry} {names : List Key} :
    checkNames registry names = .ok () ↔
      ∀ name ∈ names, Table.contains name registry = true := by
  induction names with
  | nil => simp [checkNames]
  | cons name rest ih =>
      rw [checkNames, List.forall_mem_cons]
      by_cases known : Table.contains name registry = true
      · simp [known, ih]
      · simp [known]

theorem settingsOf_cons (name : Key) (v : Value) (rest : Mapping) :
    settingsOf ((name, v) :: rest) =
      (Setting.ofValue name v).bind fun setting =>
        (settingsOf rest).bind fun others => .ok ((name, setting) :: others) := by
  unfold settingsOf
  rw [List.mapM_cons]
  dsimp only
  cases Setting.ofValue name v with
  | error fault => rfl
  | ok setting => rfl

/-- Settings are read off entry by entry, in the order of the entries. -/
theorem settingsOf_ok_iff {rules : Mapping} {settings : List (Key × Setting)} :
    settingsOf rules = .ok settings ↔
      List.Forall₂ (fun entry read => entry.1 = read.1
        ∧ Setting.ofValue entry.1 entry.2 = .ok read.2) rules settings := by
  induction rules generalizing settings with
  | nil =>
      rw [List.forall₂_nil_left_iff]
      constructor
      · intro read
        cases read
        rfl
      · rintro rfl
        rfl
  | cons entry rest ih =>
      obtain ⟨name, v⟩ := entry
      rw [settingsOf_cons, bind_eq_ok_iff]
      constructor
      · rintro ⟨setting, first, read⟩
        obtain ⟨others, readOthers, same⟩ := bind_eq_ok_iff.1 read
        cases same
        exact .cons ⟨rfl, first⟩ (ih.1 readOthers)
      · rintro (_ | @⟨_, ⟨_, setting⟩, _, others, ⟨rfl, first⟩, tail⟩)
        exact ⟨setting, first, bind_eq_ok_iff.2 ⟨others, ih.2 tail, rfl⟩⟩

theorem keys_of_settingsOf {rules : Mapping} {settings : List (Key × Setting)}
    (read : settingsOf rules = .ok settings) : Table.keys settings = Table.keys rules := by
  have related := settingsOf_ok_iff.1 read
  clear read
  induction related with
  | nil => rfl
  | cons head _ ih => exact congrArg₂ List.cons head.1.symm ih

/-- Settings can be read off exactly when each entry has one. -/
theorem exists_settingsOf {rules : Mapping}
    (sound : ∀ entry ∈ rules, ∃ setting, Setting.ofValue entry.1 entry.2 = .ok setting) :
    ∃ settings, settingsOf rules = .ok settings := by
  induction rules with
  | nil => exact ⟨[], rfl⟩
  | cons entry rest ih =>
      obtain ⟨⟨setting, first⟩, others⟩ := List.forall_mem_cons.1 sound
      obtain ⟨settings, read⟩ := ih others
      exact ⟨(entry.1, setting) :: settings,
        settingsOf_ok_iff.2 (.cons ⟨rfl, first⟩ (settingsOf_ok_iff.1 read))⟩

/-- With known names and sound settings, a dispatch runs the entries. -/
theorem dispatch_eq_runSettings {registry : Registry} {rules : Mapping}
    {settings : List (Key × Setting)}
    (known : ∀ entry ∈ rules, Table.contains entry.1 registry = true)
    (read : settingsOf rules = .ok settings) (d : Document) (r : Recorder) :
    dispatch rules registry d r = runSettings registry d settings r := by
  have names : checkNames registry (Table.keys rules) = .ok () := by
    rw [checkNames_ok_iff]
    intro name listed
    obtain ⟨entry, member, rfl⟩ := List.mem_map.1 listed
    exact known entry member
  have checked : checkedSettings rules registry = .ok settings :=
    bind_eq_ok_iff.2 ⟨(), names, read⟩
  rw [dispatch, checked]

end StyleAudit
