/-
Module: StyleAudit.Proofs.Rule.Reports
Purpose: What a rule adds to a record that takes up everything that it reports.
Trusted boundary: none
Main exports: Recorder.Hears, Rule.Records, records_of_own
-/
import StyleAudit.Proofs.Lint.Filter

namespace StyleAudit

/-- A record takes up all that a rule reports: the rule runs under a severity, which matters
enough to be recorded, and no range suppresses the rule in any line. -/
structure Recorder.Hears (r : Recorder) (rule : Text) (severity : Severity) : Prop where
  active : r.severityOf rule = severity
  on : severity ≠ .off
  matters : r.quiet = true → severity = .error
  unsuppressed : ∀ line, r.isDisabled rule line = false

/-- Bound to its options, a rule examines a document without a failure, and a record gets these
diagnostics behind those that it has. -/
def Rule.Records (rule : Rule) (primary secondary : Value) (d : Document) (r : Recorder)
    (diagnostics : List Diagnostic) : Prop :=
  ∃ examine, rule.bind primary secondary = .ok examine
    ∧ (examine d).failure = none
    ∧ recordAll (examine d).findings r = { r with diagnostics := r.diagnostics ++ diagnostics }

/-- What a rule reports under its own name is kept by a record that hears the rule. -/
theorem Recorder.Hears.isKept {r : Recorder} {name : Text} {severity : Severity}
    (hears : r.Hears name severity) {found : Finding} (own : found.rule = name) :
    Offer.isKept r.ranges r.quiet ⟨severity, found⟩ = true := by
  cases found with
  | invalidOption _ _ _ => rfl
  | report rule message position =>
      obtain rfl : rule = name := own
      have free := hears.unsuppressed position.line
      unfold Recorder.isDisabled at free
      simp only [Offer.isKept, free, Bool.not_false, Bool.true_and]
      cases quiet : r.quiet with
      | false => rfl
      | true =>
          rw [hears.matters quiet]
          rfl

/-- A rule that speaks under its own name adds a diagnostic for each of its findings. -/
theorem records_of_own {rule : Rule} {primary secondary : Value} {d : Document} {r : Recorder}
    {name : Text} {severity : Severity} {examine : Document → Examination}
    {findings : List Finding} (bound : rule.bind primary secondary = .ok examine)
    (examined : examine d = .found findings) (own : ∀ found ∈ findings, found.rule = name)
    (hears : r.Hears name severity) :
    rule.Records primary secondary d r
      (findings.map fun found => Offer.diagnostic ⟨severity, found⟩) := by
  refine ⟨examine, bound, by rw [examined]; rfl, ?_⟩
  have kept : (findings.map (Offer.mk severity)).filter (Offer.isKept r.ranges r.quiet)
      = findings.map (Offer.mk severity) := by
    rw [List.filter_eq_self, List.forall_mem_map]
    exact fun found member => hears.isKept (own found member)
  rw [examined]
  show recordAll findings r = _
  rw [recordAll_eq_take hears.on own hears.active, Recorder.take, kept, List.map_map]
  rfl

end StyleAudit
