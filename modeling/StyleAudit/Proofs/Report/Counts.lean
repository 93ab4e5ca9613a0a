/-
Module: StyleAudit.Proofs.Report.Counts
Purpose: What is counted of the diagnostics on record, and what the summary says of them, agrees
  after any steps.
Trusted boundary: none
Main exports: Recorder.stepAll, Recorder.Reaches, Recorder.diagnostics_step,
  Diagnostic.CountsAgree, Recorder.IsConsistent, Recorder.isConsistent_stepAll, reaches_dispatch
-/
import StyleAudit.Report
import StyleAudit.Proofs.Dispatch.Recording

namespace StyleAudit

namespace Recorder

/-!
### Steps

A finding about the options of a rule whose value has no text fails before it is recorded.  It
leaves the record as it is, and so is no step.
-/

section Steps

variable {r : Recorder} {d : Diagnostic} {s : Step}

/-- The record after steps in turn. -/
def stepAll (steps : List Step) (r : Recorder) : Recorder :=
  steps.foldl step r

/-- Steps lead from a record to another. -/
def Reaches (r after : Recorder) : Prop := ∃ steps, after = r.stepAll steps

theorem Reaches.refl (r : Recorder) : r.Reaches r := ⟨[], rfl⟩

theorem Reaches.trans {middle after : Recorder} (first : r.Reaches middle)
    (second : middle.Reaches after) : r.Reaches after := by
  obtain ⟨steps, rfl⟩ := first
  obtain ⟨more, rfl⟩ := second
  exact ⟨steps ++ more, List.foldl_append.symm⟩

theorem reaches_step (r : Recorder) (s : Step) : r.Reaches (r.step s) := ⟨[s], rfl⟩

/-- A step puts the diagnostic that it records, if it records one, behind those that there are. -/
theorem diagnostics_step (r : Recorder) (s : Step) :
    (r.step s).diagnostics = r.diagnostics ++ (r.stepDiagnostic s).toList := by
  cases s with
  | report rule message position =>
      show (r.report rule message position).diagnostics = _
      rw [report, stepDiagnostic]
      cases r.diagnosticOf rule message position with
      | none => exact (List.append_nil _).symm
      | some d => rfl
  | invalidOption _ _ _ => rfl
  | activate _ _ => exact (List.append_nil _).symm
  | setQuiet _ => exact (List.append_nil _).symm
  | addRange _ => exact (List.append_nil _).symm

/-- Nothing that is on record is taken away or changed. -/
theorem diagnostics_prefix_stepAll (steps : List Step) (r : Recorder) :
    r.diagnostics <+: (r.stepAll steps).diagnostics := by
  induction steps generalizing r with
  | nil => exact List.prefix_rfl
  | cons s rest ih =>
      have first : r.diagnostics <+: (r.step s).diagnostics := by
        rw [diagnostics_step]
        exact List.prefix_append _ _
      exact first.trans (ih (r.step s))

/-- A report is recorded under a severity that is not off, and other findings are errors. -/
theorem severity_ne_off_of_stepDiagnostic (recorded : r.stepDiagnostic s = some d) :
    d.severity ≠ .off := by
  cases s with
  | report rule message position =>
      rw [stepDiagnostic, diagnosticOf] at recorded
      cases verdict : r.verdict rule position.line with
      | recorded severity =>
          rw [verdict] at recorded
          cases recorded
          exact (verdict_eq_recorded_iff.1 verdict).2.1
      | _ =>
          rw [verdict] at recorded
          cases recorded
  | invalidOption rule option value =>
      cases recorded
      exact Severity.noConfusion
  | _ => cases recorded

end Steps

end Recorder

/-!
### Counts
-/

namespace Diagnostic

/-- No diagnostic is off, and so every diagnostic is counted once, as an error or as a warning;
there are errors when some are counted, and the summary finds nothing when there is nothing. -/
structure CountsAgree (diagnostics : List Diagnostic) : Prop where
  noneOff : ∀ d ∈ diagnostics, d.severity ≠ .off
  total : diagnostics.length = countOf .error diagnostics + countOf .warning diagnostics
  errors : hasErrors diagnostics = true ↔ 0 < countOf .error diagnostics
  summary : Report.summary diagnostics = "No issues found." ↔ diagnostics.length = 0

section Counts

variable {diagnostics : List Diagnostic}

theorem length_eq_counts (noneOff : ∀ d ∈ diagnostics, d.severity ≠ .off) :
    diagnostics.length = countOf .error diagnostics + countOf .warning diagnostics := by
  have others : diagnostics.countP (fun d => ¬ (d.severity == .error) = true)
      = countOf .warning diagnostics := by
    apply List.countP_congr
    intro d member
    have on := noneOff d member
    cases severity : d.severity with
    | off => exact absurd severity on
    | warning => simp
    | error => simp
  rw [← others]
  exact List.length_eq_countP_add_countP _

theorem hasErrors_iff :
    hasErrors diagnostics = true ↔ ∃ d ∈ diagnostics, d.severity = .error := by
  simp [hasErrors]

theorem hasErrors_iff_countOf : hasErrors diagnostics = true ↔ 0 < countOf .error diagnostics := by
  rw [hasErrors, List.any_eq_true, countOf, List.countP_pos_iff]

/-- A summary of parts starts otherwise than the one without any. -/
theorem summary_eq_iff : Report.summary diagnostics = "No issues found." ↔
    countOf .error diagnostics = 0 ∧ countOf .warning diagnostics = 0 := by
  have parts : Report.summaryParts diagnostics = [] ↔
      countOf .error diagnostics = 0 ∧ countOf .warning diagnostics = 0 := by
    simp [Report.summaryParts]
  rw [← parts, Report.summary]
  cases Report.summaryParts diagnostics with
  | nil => simp
  | cons part others =>
      constructor
      · intro same
        have letters := congrArg String.toList same
        simp at letters
      · intro none
        cases none

/-- Where no diagnostic is off, all counts agree. -/
theorem countsAgree_of_noneOff (noneOff : ∀ d ∈ diagnostics, d.severity ≠ .off) :
    CountsAgree diagnostics where
  noneOff := noneOff
  total := length_eq_counts noneOff
  errors := hasErrors_iff_countOf
  summary := by
    rw [summary_eq_iff, length_eq_counts noneOff]
    omega

end Counts

end Diagnostic

/-!
### Runs of steps
-/

namespace Recorder

/-- The counts of a record agree.  Each step puts just the diagnostic that it answers with behind
those on record, and no steps take any away. -/
structure IsConsistent (r : Recorder) : Prop where
  counts : Diagnostic.CountsAgree r.diagnostics
  appends : ∀ s : Step, (r.step s).diagnostics = r.diagnostics ++ (r.stepDiagnostic s).toList
  keeps : ∀ later : List Step, r.diagnostics <+: (r.stepAll later).diagnostics

theorem noneOff_step {r : Recorder} (noneOff : ∀ d ∈ r.diagnostics, d.severity ≠ .off)
    (s : Step) : ∀ d ∈ (r.step s).diagnostics, d.severity ≠ .off := by
  rw [diagnostics_step, List.forall_mem_append]
  refine ⟨noneOff, ?_⟩
  intro d added
  exact severity_ne_off_of_stepDiagnostic (Option.mem_toList.1 added)

theorem noneOff_stepAll (steps : List Step) {r : Recorder}
    (noneOff : ∀ d ∈ r.diagnostics, d.severity ≠ .off) :
    ∀ d ∈ (r.stepAll steps).diagnostics, d.severity ≠ .off := by
  induction steps generalizing r with
  | nil => exact noneOff
  | cons s rest ih => exact ih (noneOff_step noneOff s)

/-- From a record without diagnostics, steps only lead to records whose counts agree. -/
theorem isConsistent_stepAll {start : Recorder} (fresh : start.diagnostics = [])
    (steps : List Step) : (start.stepAll steps).IsConsistent where
  counts := by
    apply Diagnostic.countsAgree_of_noneOff
    apply noneOff_stepAll
    rw [fresh]
    exact List.forall_mem_nil _
  appends := diagnostics_step _
  keeps later := diagnostics_prefix_stepAll later _

end Recorder

/-!
### Dispatches

Running rules does nothing to a record but such steps: it notes severities and takes up findings.
-/

section Dispatches

variable {registry : Registry} {d : Document} {rules : Mapping}

theorem reaches_recordOn (found : Finding) (r : Recorder) : r.Reaches (found.recordOn r) := by
  cases found with
  | report rule message position => exact r.reaches_step (.report rule message position)
  | invalidOption rule option value => exact r.reaches_step (.invalidOption rule option value)

theorem reaches_recordAll (findings : List Finding) (r : Recorder) :
    r.Reaches (recordAll findings r) := by
  induction findings generalizing r with
  | nil => exact .refl r
  | cons found rest ih => exact (reaches_recordOn found r).trans (ih (found.recordOn r))

theorem reaches_noting (name : Key) (setting : Setting) (r : Recorder) :
    r.Reaches (r.noting name setting) := by
  rw [Recorder.noting]
  by_cases off : setting.severity = .off
  · rw [if_pos off]
    exact .refl r
  · rw [if_neg off]
    exact r.reaches_step (.activate name setting.severity)

theorem reaches_runSettings (settings : List (Key × Setting)) (r : Recorder) :
    r.Reaches (runSettings registry d settings r).recorder := by
  induction settings generalizing r with
  | nil => exact .refl r
  | cons entry rest ih =>
      obtain ⟨name, setting⟩ := entry
      have ran : r.Reaches
          (recordAll (examinationOf registry d name setting).findings (r.noting name setting)) :=
        (reaches_noting name setting r).trans (reaches_recordAll _ _)
      rw [recorder_runSettings_cons]
      simp only
      cases (examinationOf registry d name setting).failure with
      | some failure => exact ran
      | none => exact ran.trans (ih _)

/-- A dispatch, whether it fails or not, leaves a record to which steps lead. -/
theorem reaches_dispatch (r : Recorder) : r.Reaches (dispatch rules registry d r).recorder := by
  rw [dispatch]
  cases checkedSettings rules registry with
  | error fault => exact .refl r
  | ok settings => exact reaches_runSettings settings r

end Dispatches

end StyleAudit
