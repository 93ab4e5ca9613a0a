/-
Module: StyleAudit.Proofs.Dispatch.Recording
Purpose: Which of the findings that rules offer during a dispatch are recorded, and under which
  severities, whatever the rules offer and wherever a failure ends the dispatch.
Trusted boundary: none
Main exports: Attempt, attemptsOf, Attempt.IsHeard, Recording, recording_runSettings,
  recording_dispatch
-/
import StyleAudit.Proofs.Dispatch.Examination

namespace StyleAudit

/-!
### Attempts

A rule may offer findings under any name, its own or that of another entry.  What becomes of
them is told here from the configuration, without a record: only the entry that runs and those
before it are known.
-/

/-- A finding that is offered while an entry runs, with the entries before that one. -/
structure Attempt where
  earlier : List (Key × Setting)
  running : Key × Setting
  finding : Finding

/-- What the entries offer in turn, up to the first failure. -/
def attemptsFrom (registry : Registry) (d : Document) :
    List (Key × Setting) → List (Key × Setting) → List Attempt
  | _, [] => []
  | earlier, (name, setting) :: rest =>
      let examined := examinationOf registry d name setting
      let offered := examined.findings.map (Attempt.mk earlier (name, setting))
      match examined.failure with
      | some _ => offered
      | none => offered ++ attemptsFrom registry d (earlier ++ [(name, setting)]) rest

/-- What the rules of a configuration offer; nothing when the configuration is at fault. -/
def attemptsOf (registry : Registry) (rules : Mapping) (d : Document) : List Attempt :=
  match checkedSettings rules registry with
  | .error _ => []
  | .ok settings => attemptsFrom registry d [] settings

/-- Some of the entries configures a rule with a severity. -/
def IsConfigured (entries : List (Key × Setting)) (rule : Text) (severity : Severity) : Prop :=
  ∃ key setting, (key, setting) ∈ entries ∧ Sameness.same key (Key.str rule) = true
    ∧ setting.severity = severity

/-- A report about a rule in a line is heard under a severity. -/
structure Attempt.IsHeard (quiet : Bool) (ranges : List DisableRange) (attempt : Attempt)
    (rule : Text) (line : Int) (severity : Severity) : Prop where
  configured : IsConfigured (attempt.earlier ++ [attempt.running]) rule severity
  on : severity ≠ .off
  loud : quiet = false ∨ severity = .error
  uncovered : ∀ range ∈ ranges, range.covers rule line = false

/-- The diagnostics that attempts leave: one for each report that is heard, and one for each
finding about options. -/
inductive Recording (quiet : Bool) (ranges : List DisableRange) :
    List Attempt → List Diagnostic → Prop where
  | nil : Recording quiet ranges [] []
  | heard {earlier : List (Key × Setting)} {running : Key × Setting} {rule message : Text}
      {position : Position} {severity : Severity} {rest : List Attempt}
      {diagnostics : List Diagnostic}
      (audible : Attempt.IsHeard quiet ranges ⟨earlier, running, .report rule message position⟩
        rule position.line severity)
      (tail : Recording quiet ranges rest diagnostics) :
      Recording quiet ranges (⟨earlier, running, .report rule message position⟩ :: rest)
        (⟨rule, severity, message, position⟩ :: diagnostics)
  | unheard {earlier : List (Key × Setting)} {running : Key × Setting} {rule message : Text}
      {position : Position} {rest : List Attempt} {diagnostics : List Diagnostic}
      (silent : ∀ severity, ¬ Attempt.IsHeard quiet ranges
        ⟨earlier, running, .report rule message position⟩ rule position.line severity)
      (tail : Recording quiet ranges rest diagnostics) :
      Recording quiet ranges (⟨earlier, running, .report rule message position⟩ :: rest)
        diagnostics
  | option {earlier : List (Key × Setting)} {running : Key × Setting} {rule option : Text}
      {value : Value} {rest : List Attempt} {diagnostics : List Diagnostic}
      (tail : Recording quiet ranges rest diagnostics) :
      Recording quiet ranges (⟨earlier, running, .invalidOption rule option value⟩ :: rest)
        (Recorder.invalidOption rule option value :: diagnostics)

/-!
### One finding
-/

/-- The verdict on a report asks for the severity of its rule, the wish for errors only, and
the ranges. -/
theorem verdict_eq_recorded_iff {r : Recorder} {rule : Text} {line : Int} {severity : Severity} :
    r.verdict rule line = .recorded severity ↔
      r.severityOf rule = severity ∧ severity ≠ .off
        ∧ (r.quiet = false ∨ severity = .error)
        ∧ ∀ range ∈ r.ranges, range.covers rule line = false := by
  have uncovered : (∀ range ∈ r.ranges, range.covers rule line = false) ↔
      r.isDisabled rule line = false := by
    simp [Recorder.isDisabled]
  rw [uncovered]
  unfold Recorder.verdict
  cases noted : r.severityOf rule with
  | off =>
      constructor
      · intro recorded
        cases recorded
      · rintro ⟨same, on, _⟩
        exact absurd same.symm on
  | warning =>
      cases r.quiet <;> cases r.isDisabled rule line <;> cases severity <;> simp
  | error => cases r.isDisabled rule line <;> cases severity <;> simp

namespace Recorder

/-- The record knows the severities of the entries, and no others. -/
def Notes (entries : List (Key × Setting)) (r : Recorder) : Prop :=
  ∀ rule severity, severity ≠ .off →
    (r.severityOf rule = severity ↔ IsConfigured entries rule severity)

theorem notes_nil (quiet : Bool) (ranges : List DisableRange) :
    Notes [] ⟨[], quiet, ranges, []⟩ := by
  intro rule severity on
  constructor
  · intro noted
    exact absurd noted.symm on
  · rintro ⟨_, _, none, _⟩
    cases none

end Recorder

theorem isConfigured_append {first second : List (Key × Setting)} {rule : Text}
    {severity : Severity} :
    IsConfigured (first ++ second) rule severity ↔
      IsConfigured first rule severity ∨ IsConfigured second rule severity := by
  simp only [IsConfigured, List.mem_append, or_and_right, exists_or]

theorem isConfigured_single {name : Key} {setting : Setting} {rule : Text} {severity : Severity} :
    IsConfigured [(name, setting)] rule severity ↔
      Sameness.same name (Key.str rule) = true ∧ setting.severity = severity := by
  simp [IsConfigured]

/-- An entry that begins is known from then on.  Its name has no entry before it, so what was
known about other rules stays. -/
theorem Recorder.Notes.noting {entries : List (Key × Setting)} {name : Key} {setting : Setting}
    {r : Recorder} (notes : r.Notes entries) (fresh : Table.get? name entries = none) :
    (r.noting name setting).Notes (entries ++ [(name, setting)]) := by
  intro rule severity on
  rw [isConfigured_append, isConfigured_single]
  unfold Recorder.noting
  by_cases off : setting.severity = .off
  · rw [if_pos off]
    refine (notes rule severity on).trans ⟨Or.inl, ?_⟩
    rintro (before | ⟨_, same⟩)
    · exact before
    · exact absurd (same.symm.trans off) on
  · rw [if_neg off]
    by_cases own : Sameness.same name (Key.str rule) = true
    · have noted : Recorder.severityOf
          { r with severities := Table.put name setting.severity r.severities } rule
            = setting.severity := by
        unfold Recorder.severityOf
        rw [Table.get?_put_of_same own]
        rfl
      rw [noted]
      constructor
      · intro same
        exact Or.inr ⟨own, same⟩
      · rintro (⟨key, other, member, same, _⟩ | ⟨_, same⟩)
        · have listed : key ∈ Table.keys entries := List.mem_map_of_mem (f := Prod.fst) member
          exact absurd (LawfulSameness.trans same (LawfulSameness.symm own))
            (Table.get?_eq_none_iff.1 fresh key listed)
        · exact same
    · have noted : Recorder.severityOf
          { r with severities := Table.put name setting.severity r.severities } rule
            = r.severityOf rule := by
        unfold Recorder.severityOf
        rw [Table.get?_put_of_not_same own]
      rw [noted, notes rule severity on]
      simp [own]

/-- A record that knows the entries begun takes a report up exactly when it is heard. -/
theorem isHeard_iff_verdict {r : Recorder} {attempt : Attempt} {rule : Text} {line : Int}
    {severity : Severity} (notes : r.Notes (attempt.earlier ++ [attempt.running])) :
    attempt.IsHeard r.quiet r.ranges rule line severity ↔
      r.verdict rule line = .recorded severity := by
  rw [verdict_eq_recorded_iff]
  constructor
  · rintro ⟨configured, on, loud, uncovered⟩
    exact ⟨(notes rule severity on).2 configured, on, loud, uncovered⟩
  · rintro ⟨noted, on, loud, uncovered⟩
    exact ⟨(notes rule severity on).1 noted, on, loud, uncovered⟩

/-- One finding: it adds at most one diagnostic to the record, and changes nothing else. -/
theorem recording_recordOn {r : Recorder} {earlier : List (Key × Setting)}
    {running : Key × Setting} (notes : r.Notes (earlier ++ [running])) (found : Finding) :
    ∃ added, found.recordOn r = { r with diagnostics := r.diagnostics ++ added }
      ∧ ∀ {rest more}, Recording r.quiet r.ranges rest more →
          Recording r.quiet r.ranges (⟨earlier, running, found⟩ :: rest) (added ++ more) := by
  cases found with
  | invalidOption rule option value =>
      exact ⟨[Recorder.invalidOption rule option value], rfl, fun tail => .option tail⟩
  | report rule message position =>
      have heard_iff : ∀ severity,
          Attempt.IsHeard r.quiet r.ranges ⟨earlier, running, .report rule message position⟩
              rule position.line severity
            ↔ r.verdict rule position.line = .recorded severity :=
        fun severity => isHeard_iff_verdict notes
      by_cases audible : ∃ severity, r.verdict rule position.line = .recorded severity
      · obtain ⟨severity, recorded⟩ := audible
        refine ⟨[⟨rule, severity, message, position⟩], ?_,
          fun tail => .heard ((heard_iff severity).2 recorded) tail⟩
        simp only [Finding.recordOn, Recorder.report, Recorder.diagnosticOf, recorded]
        rfl
      · refine ⟨[], ?_, fun tail => .unheard (fun severity heard => audible
          ⟨severity, (heard_iff severity).1 heard⟩) tail⟩
        have dropped : r.diagnosticOf rule message position = none := by
          unfold Recorder.diagnosticOf
          split
          · rename_i severity recorded
            exact absurd ⟨severity, recorded⟩ audible
          · rfl
        simp only [Finding.recordOn, Recorder.report, dropped, List.append_nil]

/-!
### One entry, and all entries
-/

theorem recording_recordAll {earlier : List (Key × Setting)} {running : Key × Setting}
    (findings : List Finding) :
    ∀ {r : Recorder}, r.Notes (earlier ++ [running]) →
      ∃ added, recordAll findings r = { r with diagnostics := r.diagnostics ++ added }
        ∧ ∀ {rest more}, Recording r.quiet r.ranges rest more →
            Recording r.quiet r.ranges
              (findings.map (Attempt.mk earlier running) ++ rest) (added ++ more) := by
  induction findings with
  | nil =>
      intro r _
      refine ⟨[], ?_, fun tail => tail⟩
      rw [List.append_nil]
      rfl
  | cons found others ih =>
      intro r notes
      obtain ⟨first, recorded, headHeard⟩ := recording_recordOn notes found
      have notesStill : (found.recordOn r).Notes (earlier ++ [running]) := by
        rw [recorded]
        exact notes
      obtain ⟨second, recordedOthers, tailHeard⟩ := ih notesStill
      refine ⟨first ++ second, ?_, ?_⟩
      · show recordAll others (found.recordOn r) = _
        rw [recordedOthers, recorded, List.append_assoc]
      · intro rest more tail
        rw [recorded] at tailHeard
        rw [List.append_assoc]
        exact headHeard (tailHeard tail)

/-- The entries still to run add to the record what becomes of their attempts. -/
theorem recording_runSettings (registry : Registry) (d : Document)
    (settings : List (Key × Setting)) :
    ∀ {earlier : List (Key × Setting)} {r : Recorder},
      Table.isDistinct (earlier ++ settings) = true → r.Notes earlier →
        ∃ added, (runSettings registry d settings r).recorder.diagnostics
            = r.diagnostics ++ added
          ∧ Recording r.quiet r.ranges (attemptsFrom registry d earlier settings) added := by
  induction settings with
  | nil =>
      intro earlier r _ _
      exact ⟨[], (List.append_nil _).symm, .nil⟩
  | cons entry rest ih =>
      obtain ⟨name, setting⟩ := entry
      intro earlier r distinct notes
      have fresh : Table.get? name earlier = none :=
        Table.get?_eq_none_of_isDistinct_append distinct
      have notesHere : (r.noting name setting).Notes (earlier ++ [(name, setting)]) :=
        notes.noting fresh
      obtain ⟨first, recorded, heard⟩ :=
        recording_recordAll (examinationOf registry d name setting).findings notesHere
      rw [recorder_runSettings_cons, attemptsFrom]
      simp only [recorded]
      cases (examinationOf registry d name setting).failure with
      | some failure =>
          have heardAll := heard .nil
          rw [List.append_nil, List.append_nil] at heardAll
          exact ⟨first, rfl, heardAll⟩
      | none =>
          have distinctStill :
              Table.isDistinct ((earlier ++ [(name, setting)]) ++ rest) = true := by
            rw [List.append_assoc]
            exact distinct
          have notesStill : Recorder.Notes (earlier ++ [(name, setting)])
              { r.noting name setting with diagnostics := r.diagnostics ++ first } := notesHere
          obtain ⟨second, recordedRest, heardRest⟩ := ih distinctStill notesStill
          refine ⟨first ++ second, ?_, heard heardRest⟩
          rw [← List.append_assoc]
          exact recordedRest

/-!
### Dispatches
-/

/-- Whatever the rules of a registry offer, a dispatch that starts without severities and
diagnostics leaves one diagnostic for each report that is heard and for each finding about
options, in the order of the attempts, also when a failure ends it. -/
theorem recording_dispatch {rules : Mapping} (distinct : Table.isDistinct rules = true)
    (registry : Registry) (d : Document) (quiet : Bool) (ranges : List DisableRange) :
    Recording quiet ranges (attemptsOf registry rules d)
      (dispatch rules registry d ⟨[], quiet, ranges, []⟩).recorder.diagnostics := by
  unfold dispatch attemptsOf
  cases checked : checkedSettings rules registry with
  | error fault => exact .nil
  | ok settings =>
      obtain ⟨_, _, read⟩ := bind_eq_ok_iff.1 checked
      have distinctSettings : Table.isDistinct settings = true := by
        rw [Table.isDistinct_iff_pairwise, keys_of_settingsOf read]
        exact Table.isDistinct_iff_pairwise.1 distinct
      obtain ⟨added, left, heard⟩ := recording_runSettings registry d settings
        (List.nil_append settings ▸ distinctSettings) (Recorder.notes_nil quiet ranges)
      simp only [left, List.nil_append]
      exact heard

/-!
Two rules that report under each other's names and a third one that is off.  The first rule
speaks for the second before that one has begun; the second speaks for the first, for the one
that is off and in a line that is covered, and then fails.
-/

/-- A rule that offers the same findings in every document and may fail after them. -/
def Rule.speaking (findings : List Finding) (failure : Option Failure) : Rule :=
  ⟨.plugin, fun _ _ => .ok fun _ => ⟨findings, failure⟩⟩

def crossingRules : Mapping :=
  [(.str "first", .str "warning"), (.str "silent", .int 0), (.str "second", .seq [.int 2])]

def crossingRegistry : Registry :=
  [(.str "second", .speaking
      [.report "first" "late" ⟨3, 1⟩, .report "silent" "never" ⟨3, 2⟩,
        .report "second" "covered" ⟨4, 1⟩, .invalidOption "second" "primary" .null]
      (some (.raised "stop"))),
   (.str "first", .speaking
      [.report "second" "early" ⟨1, 1⟩, .report "first" "own" ⟨2, 1⟩] none),
   (.str "silent", .speaking [.report "first" "off" ⟨2, 2⟩] none)]

theorem recording_dispatch_crossing :
    Table.isDistinct crossingRules = true
      ∧ Recording false [⟨"*", 4, none⟩]
          (attemptsOf crossingRegistry crossingRules ⟨Position.origin, .null, []⟩)
          [⟨"first", .warning, "own", ⟨2, 1⟩⟩, ⟨"first", .warning, "late", ⟨3, 1⟩⟩,
            Recorder.invalidOption "second" "primary" .null] := by
  have distinct : Table.isDistinct crossingRules = true := by decide
  exact ⟨distinct, recording_dispatch distinct crossingRegistry ⟨Position.origin, .null, []⟩
    false [⟨"*", 4, none⟩]⟩

end StyleAudit
