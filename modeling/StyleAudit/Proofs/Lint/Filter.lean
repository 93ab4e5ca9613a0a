/-
Module: StyleAudit.Proofs.Lint.Filter
Purpose: What a lint run records of what the rules of this library find: directives and the
  wish for errors only take diagnostics away, and do nothing else.
Trusted boundary: none
Main exports: Offer, Offer.isKept, offers, recordAll_eq_take, recorder_runSettings,
  lint_ok_iff, lint_filters
-/
import StyleAudit.Lint
import StyleAudit.Proofs.Config.Gathering
import StyleAudit.Proofs.Rule.Builtin
import Mathlib

namespace StyleAudit

/-!
### Offers

What the rules find is told here by the settings and the document alone, without a record.
-/

/-- A finding that is offered to a record, and the severity under which its rule runs. -/
structure Offer where
  severity : Severity
  finding : Finding

namespace Offer

/-- The diagnostic that the finding is recorded as. -/
def diagnostic (offer : Offer) : Diagnostic :=
  match offer.finding with
  | .report rule message position => ⟨rule, offer.severity, message, position⟩
  | .invalidOption rule option value => Recorder.invalidOption rule option value

/-- The finding is recorded: it is about options, or else no range covers its rule in its
line, and it is no warning where only errors are wanted. -/
def isKept (ranges : List DisableRange) (quiet : Bool) (offer : Offer) : Bool :=
  match offer.finding with
  | .report rule _ position =>
      !(ranges.any fun range => range.covers rule position.line)
        && !(quiet && offer.severity == .warning)
  | .invalidOption _ _ _ => true

/-- Without ranges, and when warnings are wanted too, every finding is recorded. -/
theorem isKept_nil (offer : Offer) : offer.isKept [] false = true := by
  unfold isKept
  cases offer.finding <;> rfl

end Offer

/-- What the rule of one entry finds in a document, when it runs. -/
def entryOffers (registry : Registry) (d : Document) (entry : Key × Setting) : List Offer :=
  if entry.2.severity = .off then []
  else
    match Table.get? entry.1 registry with
    | none => []
    | some rule =>
        match rule.bind entry.2.primary entry.2.secondary with
        | .error _ => []
        | .ok examine => (examine d).findings.map (Offer.mk entry.2.severity)

/-- What the rules of a configuration find in a document, in their order. -/
def offers (registry : Registry) (rules : Mapping) (d : Document) : List Offer :=
  match settingsOf rules with
  | .error _ => []
  | .ok settings => settings.flatMap (entryOffers registry d)

/-!
### What a record takes up
-/

namespace Recorder

/-- The record with the diagnostics of the findings that it keeps behind those it has. -/
def take (offers : List Offer) (r : Recorder) : Recorder :=
  { r with
    diagnostics := r.diagnostics
      ++ (offers.filter (Offer.isKept r.ranges r.quiet)).map Offer.diagnostic }

theorem take_nil (r : Recorder) : r.take [] = r := by
  simp [take]

theorem take_append (first second : List Offer) (r : Recorder) :
    r.take (first ++ second) = (r.take first).take second := by
  simp [take]

end Recorder

/-- What a rule that runs reports is recorded when it is kept. -/
theorem diagnosticOf_eq {r : Recorder} {rule : Text} {severity : Severity}
    (active : r.severityOf rule = severity) (on : severity ≠ .off) (message : Text)
    (position : Position) :
    r.diagnosticOf rule message position =
      if Offer.isKept r.ranges r.quiet ⟨severity, .report rule message position⟩ then
        some ⟨rule, severity, message, position⟩
      else none := by
  unfold Recorder.diagnosticOf Recorder.verdict Offer.isKept Recorder.isDisabled
  rw [active]
  cases severity with
  | off => exact absurd rfl on
  | warning =>
      cases r.quiet <;> cases covered : r.ranges.any (·.covers rule position.line) <;>
        simp [covered]
  | error => cases covered : r.ranges.any (·.covers rule position.line) <;> simp [covered]

/-- A finding of a rule that runs is taken up under the severity of the rule. -/
theorem recordOn_eq_take {r : Recorder} {found : Finding} {severity : Severity}
    (active : r.severityOf found.rule = severity) (on : severity ≠ .off) :
    found.recordOn r = r.take [⟨severity, found⟩] := by
  cases found with
  | invalidOption rule option value => rfl
  | report rule message position =>
      have named : r.severityOf rule = severity := active
      show r.report rule message position = _
      unfold Recorder.report Recorder.take
      rw [diagnosticOf_eq named on]
      by_cases kept : Offer.isKept r.ranges r.quiet ⟨severity, .report rule message position⟩
      · rw [if_pos kept, List.filter_cons_of_pos kept]
        rfl
      · rw [if_neg kept, List.filter_cons_of_neg kept]
        simp

theorem recordAll_eq_take {name : Text} {severity : Severity} (on : severity ≠ .off) :
    ∀ {findings : List Finding} {r : Recorder}, (∀ found ∈ findings, found.rule = name) →
      r.severityOf name = severity →
        recordAll findings r = r.take (findings.map (Offer.mk severity))
  | [], r, _, _ => r.take_nil.symm
  | found :: rest, r, own, active => by
      obtain ⟨same, others⟩ := List.forall_mem_cons.1 own
      have first : found.recordOn r = r.take [⟨severity, found⟩] :=
        recordOn_eq_take (same ▸ active) on
      have activeStill : (r.take [⟨severity, found⟩]).severityOf name = severity := active
      show recordAll rest (found.recordOn r) = _
      rw [first, recordAll_eq_take on others activeStill, ← Recorder.take_append]
      rfl

/-!
### What one entry leaves
-/

/-- The severities after the entries of a configuration: those of the rules that run. -/
def severitiesAfter (settings : List (Key × Setting)) (severities : Table Key Severity) :
    Table Key Severity :=
  settings.foldl (fun severities entry =>
    if entry.2.severity = .off then severities
    else Table.put entry.1 entry.2.severity severities) severities

theorem severityOf_activate {name : Text} {key : Key}
    (same : Sameness.same (Key.str name) key = true) (severity : Severity) (r : Recorder) :
    (r.activate key severity).severityOf name = severity := by
  unfold Recorder.severityOf Recorder.activate
  simp only
  rw [Table.get?_put_of_same (LawfulSameness.symm same)]
  rfl

theorem recorder_runRule {name : Key} {setting : Setting} {rule : Rule} {d : Document}
    {r : Recorder} {examine : Document → Examination}
    (bound : rule.bind setting.primary setting.secondary = .ok examine) :
    (runRule name setting rule d r).recorder
      = recordAll (examine d).findings (r.activate name setting.severity) := by
  unfold runRule
  simp only [bound]
  cases (examine d).failure <;> rfl

theorem failure_runRule {name : Key} {setting : Setting} {rule : Rule} {d : Document}
    {r : Recorder} {examine : Document → Examination}
    (bound : rule.bind setting.primary setting.secondary = .ok examine) :
    (runRule name setting rule d r).failure = (examine d).failure := by
  unfold runRule
  simp only [bound]
  cases (examine d).failure <;> rfl

/-- An entry notes the severity of its rule, and the record takes up what the rule finds. -/
theorem recorder_runSetting {entry : Key × Setting} {d : Document} {r : Recorder}
    (ended : (runSetting Registry.default entry.1 entry.2 d r).failure = none) :
    (runSetting Registry.default entry.1 entry.2 d r).recorder
      = Recorder.take (entryOffers Registry.default d entry)
          { r with severities := severitiesAfter [entry] r.severities } := by
  obtain ⟨name, setting⟩ := entry
  simp only [runSetting, entryOffers, severitiesAfter, List.foldl_cons, List.foldl_nil] at ended ⊢
  by_cases off : setting.severity = .off
  · simp only [off, if_true]
    exact (Recorder.take_nil r).symm
  · simp only [off, if_false] at ended ⊢
    cases found : Table.get? name Registry.default with
    | none => simp [found] at ended
    | some rule =>
        obtain ⟨own, same, plain⟩ := isPlain_of_get?_default found
        obtain ⟨examine, bound, speaks, _⟩ := plain setting.primary setting.secondary
        simp only [bound]
        rw [recorder_runRule bound]
        exact recordAll_eq_take off (speaks d) (severityOf_activate same setting.severity r)

/-- Whether an entry fails depends neither on the record nor on what comments say. -/
theorem failure_runSetting (change : Text → Text) (name : Key) (setting : Setting) (d : Document)
    (r other : Recorder) :
    (runSetting Registry.default name setting (d.mapComments change) other).failure
      = (runSetting Registry.default name setting d r).failure := by
  unfold runSetting
  by_cases off : setting.severity = .off
  · simp only [off, if_true]
  · simp only [off, if_false]
    cases found : Table.get? name Registry.default with
    | none => rfl
    | some rule =>
        obtain ⟨_, _, plain⟩ := isPlain_of_get?_default found
        obtain ⟨examine, bound, _, blind⟩ := plain setting.primary setting.secondary
        simp only [failure_runRule bound, blind change d]

/-- What an entry's rule finds does not depend on what comments say. -/
theorem entryOffers_mapComments (change : Text → Text) (d : Document) (entry : Key × Setting) :
    entryOffers Registry.default (d.mapComments change) entry
      = entryOffers Registry.default d entry := by
  unfold entryOffers
  cases found : Table.get? entry.1 Registry.default with
  | none => rfl
  | some rule =>
      obtain ⟨_, _, plain⟩ := isPlain_of_get?_default found
      obtain ⟨examine, bound, _, blind⟩ := plain entry.2.primary entry.2.secondary
      simp only [bound, blind change d]

/-!
### What all entries leave
-/

/-- Entries note the severities of their rules, and the record takes up in turn what the
rules find. -/
theorem recorder_runSettings {d : Document} :
    ∀ {settings : List (Key × Setting)} {r : Recorder},
      (runSettings Registry.default d settings r).failure = none →
        (runSettings Registry.default d settings r).recorder
          = Recorder.take (settings.flatMap (entryOffers Registry.default d))
              { r with severities := severitiesAfter settings r.severities }
  | [], r, _ => r.take_nil.symm
  | entry :: rest, r, ended => by
      rw [runSettings] at ended ⊢
      cases first : (runSetting Registry.default entry.1 entry.2 d r).failure with
      | some failure =>
          simp only [first] at ended
          cases ended
      | none =>
          simp only [first] at ended ⊢
          have noted := recorder_runSetting first
          rw [recorder_runSettings ended, noted, List.flatMap_cons, Recorder.take_append]
          rfl

theorem failure_runSettings (change : Text → Text) (d : Document) :
    ∀ {settings : List (Key × Setting)} {r other : Recorder},
      (runSettings Registry.default (d.mapComments change) settings other).failure
        = (runSettings Registry.default d settings r).failure
  | [], _, _ => rfl
  | (name, setting) :: rest, r, other => by
      have same := failure_runSetting change name setting d r other
      rw [runSettings, runSettings, same]
      cases first : (runSetting Registry.default name setting d r).failure with
      | some failure => exact same
      | none => exact failure_runSettings change d

/-- A dispatch without a failure records what the rules find, and the severities of those
that run. -/
theorem recorder_dispatch {rules : Mapping} {d : Document} {r : Recorder}
    (ended : (dispatch rules Registry.default d r).failure = none) :
    ∃ settings, settingsOf rules = .ok settings
      ∧ (dispatch rules Registry.default d r).recorder
          = Recorder.take (offers Registry.default rules d)
              { r with severities := severitiesAfter settings r.severities } := by
  unfold dispatch at ended ⊢
  cases checked : checkedSettings rules Registry.default with
  | error fault => simp [checked] at ended
  | ok settings =>
      have read : settingsOf rules = .ok settings := by
        obtain ⟨_, _, read⟩ := bind_eq_ok_iff.1 checked
        exact read
      simp only [checked] at ended
      refine ⟨settings, read, ?_⟩
      simp only [offers, read]
      exact recorder_runSettings ended

theorem failure_dispatch (change : Text → Text) (rules : Mapping) (d : Document)
    (r other : Recorder) :
    (dispatch rules Registry.default (d.mapComments change) other).failure
      = (dispatch rules Registry.default d r).failure := by
  unfold dispatch
  cases checkedSettings rules Registry.default with
  | error fault => rfl
  | ok settings => exact failure_runSettings change d

theorem offers_mapComments (change : Text → Text) (rules : Mapping) (d : Document) :
    offers Registry.default rules (d.mapComments change) = offers Registry.default rules d := by
  unfold offers
  cases settingsOf rules with
  | error fault => rfl
  | ok settings =>
      have same : entryOffers Registry.default (d.mapComments change)
          = entryOffers Registry.default d := funext (entryOffers_mapComments change d)
      simp only [same]

/-!
### Two runs
-/

/-- Without plugins, a run over the rules of this library is a dispatch of its rules. -/
theorem lint_ok_iff {w : World} {d : Document} {options : Value} {c : Configuration} {base : Path}
    {r : Recorder} (prepared : (prepare w options).outcome = .ok (c, base))
    (noPlugins : c.plugins = []) :
    (lint w d options Registry.default).outcome = .ok r ↔
      (dispatch c.rules Registry.default d (startRecord c.quiet d)).failure = none
        ∧ (dispatch c.rules Registry.default d (startRecord c.quiet d)).recorder = r := by
  have apart : c.apart Registry.default = c := rfl
  simp only [lint, prepared, apart, noPlugins, loadPlugins, finishRun]
  cases (dispatch c.rules Registry.default d (startRecord c.quiet d)).failure with
  | some failure => simp
  | none => simp

/-- Two runs over the rules of this library, one as configured and one without the
directives and with warnings: both are offered the same findings.  The second records all of
them, in their order; the first leaves out those in the ranges of the directives and, where
only errors are wanted, the warnings, and never one about options. -/
theorem lint_filters {w : World} {d : Document} {options audible : Value}
    {c plain : Configuration} {base plainBase : Path} {r : Recorder}
    (prepared : (prepare w options).outcome = .ok (c, base)) (noPlugins : c.plugins = [])
    (preparedPlain : (prepare w audible).outcome = .ok (plain, plainBase))
    (sameRules : plain.rules = c.rules) (plainPlugins : plain.plugins = [])
    (warns : plain.quiet = false)
    (linted : (lint w d options Registry.default).outcome = .ok r) :
    ∃ all, (lint w d.withoutDirectives audible Registry.default).outcome = .ok all
      ∧ offers Registry.default c.rules d.withoutDirectives = offers Registry.default c.rules d
      ∧ all.diagnostics = (offers Registry.default c.rules d).map Offer.diagnostic
      ∧ r.diagnostics = ((offers Registry.default c.rules d).filter
          (Offer.isKept (disableRanges d) c.quiet)).map Offer.diagnostic
      ∧ r.severities = all.severities := by
  obtain ⟨ended, recorded⟩ := (lint_ok_iff prepared noPlugins).1 linted
  obtain ⟨settings, read, taken⟩ := recorder_dispatch ended
  have endedPlain : (dispatch plain.rules Registry.default d.withoutDirectives
      (startRecord plain.quiet d.withoutDirectives)).failure = none := by
    rw [sameRules]
    exact (failure_dispatch _ _ _ _ _).trans ended
  obtain ⟨again, readAgain, takenPlain⟩ := recorder_dispatch endedPlain
  have sameOffers := offers_mapComments Directive.emptied c.rules d
  have sameSettings : again = settings := by
    rw [sameRules, read, Except.ok.injEq] at readAgain
    exact readAgain.symm
  have keepsAll : (offers Registry.default c.rules d).filter
      (Offer.isKept (disableRanges d.withoutDirectives) plain.quiet)
        = offers Registry.default c.rules d := by
    rw [disableRanges_withoutDirectives, warns]
    exact List.filter_eq_self.2 fun offer _ => offer.isKept_nil
  refine ⟨_, (lint_ok_iff preparedPlain plainPlugins).2 ⟨endedPlain, rfl⟩, sameOffers, ?_⟩
  rw [takenPlain, ← recorded, taken, sameRules, Document.withoutDirectives, sameOffers,
    sameSettings]
  refine ⟨?_, rfl, rfl⟩
  exact congrArg (List.map Offer.diagnostic) keepsAll

/-!
Of the four findings in a document, the two that its directives cover or that are warnings
are left out; the one about options stays, though its line is covered.
-/

/-- A run that sees no files. -/
def noFiles : World where
  tree := ⟨[]⟩
  workingDirectory := []
  searchPath := []

/-- Three rules, the last one with a limit that it cannot use. -/
def filteredRules : Mapping :=
  [(.str "block-no-empty", .str "warning"), (.str "color-no-invalid-hex", .int 2),
   (.str "max-nesting-depth", .seq [.str "error", .int (-1)])]

def quietOptions : Mapping := [(.str "rules", .map filteredRules), (.str "quiet", .bool true)]

def audibleOptions : Mapping := [(.str "rules", .map filteredRules)]

/-- A document that switches all rules off in its first two lines. -/
def filteredDocument : Document :=
  ⟨Position.origin, .null,
    [.comment ⟨1, 1⟩ "sheetlint-disable",
      .rule ⟨2, 1⟩ "a" [.declaration ⟨2, 5⟩ "color" "#12345" false,
        .comment ⟨2, 30⟩ "sheetlint-enable"],
      .rule ⟨3, 1⟩ "b" [.declaration ⟨3, 5⟩ "color" "#ab" false],
      .rule ⟨4, 1⟩ "c" []]⟩

theorem lint_filters_partly :
    ∃ r all, (lint noFiles filteredDocument (.map quietOptions) Registry.default).outcome = .ok r
      ∧ (lint noFiles filteredDocument.withoutDirectives (.map audibleOptions)
          Registry.default).outcome = .ok all
      ∧ all.diagnostics.map (·.position.line) = [4, 2, 3, 1]
      ∧ r.diagnostics.map (·.position.line) = [3, 1]
      ∧ r.severities = all.severities := by
  have prepared : (prepare noFiles (.map quietOptions)).outcome
      = .ok (⟨filteredRules, [], true, none⟩, noFiles.here) := by cbv
  have preparedPlain : (prepare noFiles (.map audibleOptions)).outcome
      = .ok (⟨filteredRules, [], false, none⟩, noFiles.here) := by cbv
  have ended : (dispatch filteredRules Registry.default filteredDocument
      (startRecord true filteredDocument)).failure = none :=
    Option.isNone_iff_eq_none.1 (by decide +kernel)
  have linted := (lint_ok_iff prepared rfl).2 ⟨ended, rfl⟩
  obtain ⟨all, lintedPlain, _, allTold, told, severities⟩ :=
    lint_filters prepared rfl preparedPlain rfl rfl rfl linted
  refine ⟨_, all, linted, lintedPlain, ?_, ?_, severities⟩
  · rw [allTold]
    decide +kernel
  · rw [told]
    decide +kernel

end StyleAudit
