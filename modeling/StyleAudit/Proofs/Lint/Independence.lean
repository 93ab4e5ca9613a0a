/-
Module: StyleAudit.Proofs.Lint.Independence
Purpose: The rules of this library do not influence each other: a lint run records what the runs
  with one entry each record, one after another.
Trusted boundary: none
Main exports: Configures, lintAlone, blockOf, lint_of_settings, diagnostics_of_lint, lint_blocks
-/
import StyleAudit.Proofs.Dispatch.Examination
import StyleAudit.Proofs.Lint.Filter
import StyleAudit.Proofs.Lint.Preparation
import Mathlib

namespace StyleAudit

/-!
### Runs over the rules of this library
-/

/-- Options come to a configuration of rules of this library with sound settings, and without
plugins. -/
structure Configures (w : World) (options : Value) (c : Configuration) : Prop where
  prepared : ∃ base, (prepare w options).outcome = .ok (c, base)
  noPlugins : c.plugins = []
  known : ∀ entry ∈ c.rules, Table.contains entry.1 Registry.default = true
  sound : ∀ entry ∈ c.rules, ∃ setting, Setting.ofValue entry.1 entry.2 = .ok setting

theorem configures_rulesAlone (w : World) (quiet : Bool) {rules : Mapping}
    (known : ∀ entry ∈ rules, Table.contains entry.1 Registry.default = true)
    (sound : ∀ entry ∈ rules, ∃ setting, Setting.ofValue entry.1 entry.2 = .ok setting) :
    Configures w (.map (rulesAlone rules quiet)) ⟨rules, [], quiet, none⟩ :=
  ⟨⟨w.here, prepare_rulesAlone w rules quiet⟩, rfl, known, sound⟩

/-- The run in which a single entry is configured. -/
def lintAlone (w : World) (d : Document) (quiet : Bool) (entry : Key × Value) : LintRun :=
  lint w d (.map (rulesAlone [entry] quiet)) Registry.default

/-- What the run with a single entry records. -/
def blockOf (w : World) (d : Document) (quiet : Bool) (entry : Key × Value) : List Diagnostic :=
  match (lintAlone w d quiet entry).outcome with
  | .ok r => r.diagnostics
  | .error _ => []

theorem blockOf_of_ok {w : World} {d : Document} {quiet : Bool} {entry : Key × Value}
    {r : Recorder} (linted : (lintAlone w d quiet entry).outcome = .ok r) :
    blockOf w d quiet entry = r.diagnostics := by
  rw [blockOf, linted]

/-- What a record without severities takes up of the findings of one entry. -/
def keptOf (d : Document) (quiet : Bool) (entry : Key × Setting) : List Diagnostic :=
  ((entryOffers Registry.default d entry).filter
    (Offer.isKept (disableRanges d) quiet)).map Offer.diagnostic

section Run

variable {w : World} {d : Document} {options : Value} {c : Configuration}

/-- A run over sound settings succeeds when no entry's examination fails, and then records what
is kept of the findings of each entry in turn. -/
theorem lint_of_settings (configures : Configures w options c) {settings : List (Key × Setting)}
    (read : settingsOf c.rules = .ok settings) :
    ((∃ r, (lint w d options Registry.default).outcome = .ok r) ↔
        ∀ entry ∈ settings,
          (examinationOf Registry.default d entry.1 entry.2).failure = none)
      ∧ ∀ r, (lint w d options Registry.default).outcome = .ok r →
          r.diagnostics = settings.flatMap (keptOf d c.quiet) := by
  obtain ⟨base, prepared⟩ := configures.prepared
  have ran := dispatch_eq_runSettings configures.known read d (startRecord c.quiet d)
  constructor
  · rw [← failure_runSettings_eq_none_iff (r := startRecord c.quiet d), ← ran]
    constructor
    · rintro ⟨r, linted⟩
      exact ((lint_ok_iff prepared configures.noPlugins).1 linted).1
    · intro ended
      exact ⟨_, (lint_ok_iff prepared configures.noPlugins).2 ⟨ended, rfl⟩⟩
  · intro r linted
    obtain ⟨ended, recorded⟩ := (lint_ok_iff prepared configures.noPlugins).1 linted
    rw [ran] at ended recorded
    rw [← recorded, recorder_runSettings ended]
    show [] ++ _ = _
    rw [List.nil_append, List.filter_flatMap, List.map_flatMap]
    rfl

/-- Each entry can be run by itself. -/
theorem Configures.alone (configures : Configures w options c) {entry : Key × Value}
    (member : entry ∈ c.rules) :
    Configures w (.map (rulesAlone [entry] c.quiet)) ⟨[entry], [], c.quiet, none⟩ :=
  configures_rulesAlone w c.quiet (List.forall_mem_singleton.2 (configures.known entry member))
    (List.forall_mem_singleton.2 (configures.sound entry member))

/-- The run with a single entry, told from the setting of the entry. -/
theorem lintAlone_of_setting (configures : Configures w options c) {name : Key} {v : Value}
    {setting : Setting} (member : (name, v) ∈ c.rules)
    (read : Setting.ofValue name v = .ok setting) :
    ((∃ r, (lintAlone w d c.quiet (name, v)).outcome = .ok r) ↔
        (examinationOf Registry.default d name setting).failure = none)
      ∧ ∀ r, (lintAlone w d c.quiet (name, v)).outcome = .ok r →
          r.diagnostics = keptOf d c.quiet (name, setting) := by
  have single : settingsOf [(name, v)] = .ok [(name, setting)] :=
    settingsOf_ok_iff.2 (.cons ⟨rfl, read⟩ .nil)
  obtain ⟨succeeds, records⟩ := lint_of_settings (d := d) (configures.alone member) single
  constructor
  · rw [List.forall_mem_singleton] at succeeds
    exact succeeds
  · intro r linted
    have recorded := records r linted
    rwa [List.flatMap_singleton] at recorded

theorem alone_of_settings (configures : Configures w options c)
    {settings : List (Key × Setting)} (read : settingsOf c.rules = .ok settings) :
    List.Forall₂ (fun entry reading =>
      ((∃ r, (lintAlone w d c.quiet entry).outcome = .ok r) ↔
          (examinationOf Registry.default d reading.1 reading.2).failure = none)
        ∧ ∀ r, (lintAlone w d c.quiet entry).outcome = .ok r →
            r.diagnostics = keptOf d c.quiet reading) c.rules settings := by
  have related := (List.forall₂_and_left c.rules settings).2
    ⟨fun _ member => member, settingsOf_ok_iff.1 read⟩
  refine related.imp ?_
  rintro ⟨name, v⟩ ⟨_, setting⟩ ⟨member, rfl, one⟩
  exact lintAlone_of_setting configures member one

/-- A run succeeds exactly when the run with each of its entries alone does. -/
theorem lint_ok_iff_alone (configures : Configures w options c) :
    (∃ r, (lint w d options Registry.default).outcome = .ok r) ↔
      ∀ entry ∈ c.rules, ∃ r, (lintAlone w d c.quiet entry).outcome = .ok r := by
  obtain ⟨settings, read⟩ := exists_settingsOf configures.sound
  rw [(lint_of_settings configures read).1]
  have alone := alone_of_settings (d := d) configures read
  generalize c.rules = rules at alone ⊢
  clear read
  induction alone with
  | nil => simp
  | cons head _ ih =>
      rw [List.forall_mem_cons, List.forall_mem_cons]
      exact and_congr head.1.symm ih

/-- A run records the blocks of its entries one after another. -/
theorem diagnostics_of_lint (configures : Configures w options c) {r : Recorder}
    (linted : (lint w d options Registry.default).outcome = .ok r) :
    r.diagnostics = c.rules.flatMap (blockOf w d c.quiet) := by
  obtain ⟨settings, read⟩ := exists_settingsOf configures.sound
  have each := (lint_ok_iff_alone configures).1 ⟨r, linted⟩
  rw [(lint_of_settings configures read).2 r linted]
  have alone := alone_of_settings (d := d) configures read
  generalize c.rules = rules at each alone ⊢
  clear read
  induction alone with
  | nil => rfl
  | cons head _ ih =>
      obtain ⟨⟨first, succeeded⟩, others⟩ := List.forall_mem_cons.1 each
      rw [List.flatMap_cons, List.flatMap_cons, blockOf_of_ok succeeded,
        head.2 first succeeded, ih others]

/-- An entry that is off has a run without a failure, and an empty block. -/
theorem alone_of_off (configures : Configures w options c) {name : Key} {v : Value}
    {setting : Setting} (member : (name, v) ∈ c.rules)
    (read : Setting.ofValue name v = .ok setting) (off : setting.severity = .off) :
    (∃ r, (lintAlone w d c.quiet (name, v)).outcome = .ok r)
      ∧ blockOf w d c.quiet (name, v) = [] := by
  obtain ⟨succeeds, records⟩ := lintAlone_of_setting (d := d) configures member read
  have ended : (examinationOf Registry.default d name setting).failure = none := by
    rw [examinationOf, if_pos off]
    rfl
  obtain ⟨r, linted⟩ := succeeds.2 ended
  refine ⟨⟨r, linted⟩, ?_⟩
  rw [blockOf_of_ok linted, records r linted, keptOf, entryOffers, if_pos off]
  rfl

/-- The entries in another order leave the same blocks in that order. -/
theorem lint_of_perm (configures : Configures w options c) {r : Recorder}
    (linted : (lint w d options Registry.default).outcome = .ok r) {permuted : Value}
    {p : Configuration} (configuresToo : Configures w permuted p) (sameQuiet : p.quiet = c.quiet)
    (perm : p.rules.Perm c.rules) :
    ∃ s, (lint w d permuted Registry.default).outcome = .ok s
      ∧ s.diagnostics = p.rules.flatMap (blockOf w d c.quiet)
      ∧ s.diagnostics.Perm r.diagnostics := by
  have each := (lint_ok_iff_alone configures).1 ⟨r, linted⟩
  have eachToo : ∀ entry ∈ p.rules, ∃ s, (lintAlone w d p.quiet entry).outcome = .ok s := by
    intro entry member
    rw [sameQuiet]
    exact each entry (perm.mem_iff.1 member)
  obtain ⟨s, lintedToo⟩ := (lint_ok_iff_alone configuresToo).2 eachToo
  have blocksToo := diagnostics_of_lint configuresToo lintedToo
  rw [sameQuiet] at blocksToo
  refine ⟨s, lintedToo, blocksToo, ?_⟩
  rw [blocksToo, diagnostics_of_lint configures linted]
  exact perm.flatMap_right _

/-- An entry that is switched off takes its block out, and leaves the others as they are. -/
theorem lint_of_off (configures : Configures w options c) {r : Recorder}
    (linted : (lint w d options Registry.default).outcome = .ok r) {without : Value}
    {o : Configuration} (configuresToo : Configures w without o) (sameQuiet : o.quiet = c.quiet)
    {before after : Mapping} {name : Key} {v off : Value} {setting : Setting}
    (split : c.rules = before ++ (name, v) :: after)
    (splitToo : o.rules = before ++ (name, off) :: after)
    (read : Setting.ofValue name off = .ok setting) (isOff : setting.severity = .off) :
    ∃ s, (lint w d without Registry.default).outcome = .ok s
      ∧ r.diagnostics = before.flatMap (blockOf w d c.quiet)
          ++ blockOf w d c.quiet (name, v) ++ after.flatMap (blockOf w d c.quiet)
      ∧ s.diagnostics = before.flatMap (blockOf w d c.quiet)
          ++ after.flatMap (blockOf w d c.quiet) := by
  have each := (lint_ok_iff_alone configures).1 ⟨r, linted⟩
  have member : (name, off) ∈ o.rules := by simp [splitToo]
  obtain ⟨succeeds, empty⟩ := alone_of_off (d := d) configuresToo member read isOff
  have eachToo : ∀ entry ∈ o.rules, ∃ s, (lintAlone w d o.quiet entry).outcome = .ok s := by
    intro entry memberToo
    rw [splitToo, List.mem_append, List.mem_cons] at memberToo
    rw [split] at each
    rcases memberToo with inBefore | rfl | inAfter
    · rw [sameQuiet]
      exact each entry (by simp [inBefore])
    · exact succeeds
    · rw [sameQuiet]
      exact each entry (by simp [inAfter])
  obtain ⟨s, lintedToo⟩ := (lint_ok_iff_alone configuresToo).2 eachToo
  have blocksToo := diagnostics_of_lint configuresToo lintedToo
  rw [sameQuiet] at blocksToo empty
  refine ⟨s, lintedToo, ?_, ?_⟩
  · rw [diagnostics_of_lint configures linted, split, List.flatMap_append, List.flatMap_cons,
      List.append_assoc]
  · rw [blocksToo, splitToo, List.flatMap_append, List.flatMap_cons, empty, List.nil_append]

end Run

/-!
### Blocks
-/

/-- A run over the rules of this library records one block for each entry, in their order: what
the run with this entry alone records.  It fails only if one of those runs does.  Entries in
another order give the same blocks in that order, and to switch one off takes its block out. -/
theorem lint_blocks {w : World} {d : Document} {options : Value} {c : Configuration}
    (configures : Configures w options c) :
    ((∃ r, (lint w d options Registry.default).outcome = .ok r) ↔
        ∀ entry ∈ c.rules, ∃ r, (lintAlone w d c.quiet entry).outcome = .ok r)
      ∧ ∀ r, (lint w d options Registry.default).outcome = .ok r →
          r.diagnostics = c.rules.flatMap (blockOf w d c.quiet)
          ∧ (∀ permuted p, Configures w permuted p → p.quiet = c.quiet → p.rules.Perm c.rules →
              ∃ s, (lint w d permuted Registry.default).outcome = .ok s
                ∧ s.diagnostics = p.rules.flatMap (blockOf w d c.quiet)
                ∧ s.diagnostics.Perm r.diagnostics)
          ∧ ∀ without o before name v off after setting, Configures w without o →
              o.quiet = c.quiet → c.rules = before ++ (name, v) :: after →
              o.rules = before ++ (name, off) :: after →
              Setting.ofValue name off = .ok setting → setting.severity = .off →
                ∃ s, (lint w d without Registry.default).outcome = .ok s
                  ∧ r.diagnostics = before.flatMap (blockOf w d c.quiet)
                      ++ blockOf w d c.quiet (name, v) ++ after.flatMap (blockOf w d c.quiet)
                  ∧ s.diagnostics = before.flatMap (blockOf w d c.quiet)
                      ++ after.flatMap (blockOf w d c.quiet) := by
  refine ⟨lint_ok_iff_alone configures, fun r linted => ?_⟩
  refine ⟨diagnostics_of_lint configures linted, ?_, ?_⟩
  · intro permuted p configuresToo sameQuiet perm
    exact lint_of_perm configures linted configuresToo sameQuiet perm
  · intro without o before name v off after setting configuresToo sameQuiet split splitToo read
      isOff
    exact lint_of_off configures linted configuresToo sameQuiet split splitToo read isOff

/-!
Three rules, one of them with a limit that it cannot use.  Turned round they leave their blocks
the other way round, and without the second rule its one diagnostic is gone.
-/

def mixedRules : Mapping :=
  [(.str "max-nesting-depth", .seq [.str "error", .int (-1)]),
   (.str "block-no-empty", .str "warning"), (.str "declaration-no-important", .int 2)]

def mixedRulesWithout : Mapping :=
  [(.str "max-nesting-depth", .seq [.str "error", .int (-1)]),
   (.str "block-no-empty", .str "off"), (.str "declaration-no-important", .int 2)]

def mixedDocument : Document :=
  ⟨Position.origin, .null,
    [.rule ⟨2, 1⟩ "a" [],
      .rule ⟨3, 1⟩ "b" [.declaration ⟨4, 5⟩ "color" "red" true]]⟩

theorem configures_mixed :
    Configures noFiles (.map (rulesAlone mixedRules false)) ⟨mixedRules, [], false, none⟩ := by
  refine configures_rulesAlone noFiles false (by decide) ?_
  simp only [mixedRules, List.forall_mem_cons]
  exact ⟨⟨_, rfl⟩, ⟨_, rfl⟩, ⟨_, rfl⟩, List.forall_mem_nil _⟩

theorem lint_blocks_mixed :
    ∃ r turned without,
      (lint noFiles mixedDocument (.map (rulesAlone mixedRules false)) Registry.default).outcome
          = .ok r
        ∧ (lint noFiles mixedDocument (.map (rulesAlone mixedRules.reverse false))
            Registry.default).outcome = .ok turned
        ∧ (lint noFiles mixedDocument (.map (rulesAlone mixedRulesWithout false))
            Registry.default).outcome = .ok without
        ∧ r.diagnostics.map (·.position.line) = [1, 2, 4]
        ∧ turned.diagnostics.Perm r.diagnostics
        ∧ without.diagnostics = blockOf noFiles mixedDocument false mixedRules[0]
            ++ blockOf noFiles mixedDocument false mixedRules[2] := by
  have ended : (dispatch mixedRules Registry.default mixedDocument
      (startRecord false mixedDocument)).failure = none :=
    Option.isNone_iff_eq_none.1 (by decide +kernel)
  have linted := (lint_ok_iff (prepare_rulesAlone noFiles mixedRules false) rfl).2 ⟨ended, rfl⟩
  obtain ⟨_, permutes, removes⟩ := (lint_blocks configures_mixed).2 _ linted
  have perm : mixedRules.reverse.Perm mixedRules := List.reverse_perm _
  have configuresTurned := configures_rulesAlone noFiles false
    (fun entry member => configures_mixed.known entry (perm.mem_iff.1 member))
    (fun entry member => configures_mixed.sound entry (perm.mem_iff.1 member))
  have configuresWithout : Configures noFiles (.map (rulesAlone mixedRulesWithout false))
      ⟨mixedRulesWithout, [], false, none⟩ := by
    refine configures_rulesAlone noFiles false (by decide) ?_
    simp only [mixedRulesWithout, List.forall_mem_cons]
    exact ⟨⟨_, rfl⟩, ⟨_, rfl⟩, ⟨_, rfl⟩, List.forall_mem_nil _⟩
  obtain ⟨turned, lintedTurned, _, samePerm⟩ := permutes _ _ configuresTurned rfl perm
  obtain ⟨without, lintedWithout, _, left⟩ := removes _ _ [mixedRules[0]] _ _ _ [mixedRules[2]] _
    configuresWithout rfl rfl rfl rfl rfl
  refine ⟨_, turned, without, linted, lintedTurned, lintedWithout, ?_, samePerm, ?_⟩
  · decide +kernel
  · rw [left, List.flatMap_singleton, List.flatMap_singleton]

end StyleAudit
