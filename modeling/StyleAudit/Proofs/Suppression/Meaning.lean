/-
Module: StyleAudit.Proofs.Suppression.Meaning
Purpose: In which lines the directives of a document suppress a rule, told without the scan
  that opens and closes ranges.
Trusted boundary: none
Main exports: SwitchedOff, Ranges.suppresses_foldl, isDisabled_iff
-/
import StyleAudit.Proofs.Suppression.Reading
import StyleAudit.Recorder

namespace StyleAudit

/-- No directive switches the rule on again before the line. -/
def StaysOff (directives : List PlacedDirective) (rule : Text) (line : Int) : Prop :=
  ∀ closer ∈ directives, closer.Closes rule → ¬ closer.line < line

/-- Some directive covers the rule in the line by itself. -/
def CoveredAlone (directives : List PlacedDirective) (rule : Text) (line : Int) : Prop :=
  ∃ d ∈ directives, d.Covers rule line

/-- Some directive switches the rule off no later than the line, and none of the directives
behind it switches the rule on again before the line. -/
def SwitchedOff (directives : List PlacedDirective) (rule : Text) (line : Int) : Prop :=
  ∃ before opener after, directives = before ++ opener :: after
    ∧ opener.Opens rule ∧ opener.line ≤ line ∧ StaysOff after rule line

theorem staysOff_cons {d : PlacedDirective} {rest : List PlacedDirective} {rule : Text}
    {line : Int} :
    StaysOff (d :: rest) rule line ↔
      (d.Closes rule → ¬ d.line < line) ∧ StaysOff rest rule line :=
  List.forall_mem_cons

theorem coveredAlone_cons {d : PlacedDirective} {rest : List PlacedDirective} {rule : Text}
    {line : Int} :
    CoveredAlone (d :: rest) rule line ↔ d.Covers rule line ∨ CoveredAlone rest rule line := by
  simp only [CoveredAlone, List.mem_cons, exists_eq_or_imp]

theorem not_coveredAlone_nil (rule : Text) (line : Int) : ¬ CoveredAlone [] rule line := by
  rintro ⟨d, member, _⟩
  cases member

theorem not_switchedOff_nil (rule : Text) (line : Int) : ¬ SwitchedOff [] rule line := by
  rintro ⟨before, opener, after, split, _⟩
  simp at split

/-- A rule is switched off by the first directive or by one behind it. -/
theorem switchedOff_cons {d : PlacedDirective} {rest : List PlacedDirective} {rule : Text}
    {line : Int} :
    SwitchedOff (d :: rest) rule line ↔
      (d.Opens rule ∧ d.line ≤ line ∧ StaysOff rest rule line) ∨ SwitchedOff rest rule line := by
  constructor
  · rintro ⟨before, opener, after, split, opens, early, kept⟩
    cases before with
    | nil =>
        cases split
        exact Or.inl ⟨opens, early, kept⟩
    | cons first others =>
        rw [List.cons_append, List.cons.injEq] at split
        exact Or.inr ⟨others, opener, after, split.2, opens, early, kept⟩
  · rintro (⟨opens, early, kept⟩ | ⟨before, opener, after, rfl, opens, early, kept⟩)
    · exact ⟨[], d, rest, rfl, opens, early, kept⟩
    · exact ⟨d :: before, opener, after, rfl, opens, early, kept⟩

theorem PlacedDirective.Opens.not_closes {d : PlacedDirective} {rule : Text}
    (opens : d.Opens rule) : ¬ d.Closes rule := by
  intro closes
  have same := opens.1.symm.trans closes.1
  cases same

namespace Ranges

/-- The rule has an open range that starts no later than the line. -/
def IsOpenAt (s : Ranges) (rule : Text) (line : Int) : Prop :=
  ∃ start, Table.get? rule s.opened = some start ∧ start ≤ line

/-- The rule has a closed range around the line. -/
def IsClosedAt (s : Ranges) (rule : Text) (line : Int) : Prop :=
  ∃ range ∈ s.closed, range.rule = rule ∧ range.start ≤ line
    ∧ ∀ stop, range.stop = some stop → line ≤ stop

/-!
### One directive
-/

/-- A directive closes a range around the line when it names the line itself, or when it ends
an open range and does not stand before the line. -/
theorem isClosedAt_apply {s : Ranges} {d : PlacedDirective} {rule : Text} {line : Int}
    (distinct : Table.isDistinct s.opened = true) :
    (s.apply d).IsClosedAt rule line ↔
      s.IsClosedAt rule line ∨ d.Covers rule line
        ∨ (d.Closes rule ∧ s.IsOpenAt rule line ∧ ¬ d.line < line) := by
  constructor
  · rintro ⟨range, member, rfl, early, late⟩
    rcases (mem_closed_apply distinct).1 member with old | ⟨covers, stop⟩ | ⟨closes, found, stop⟩
    · exact Or.inl ⟨range, old, rfl, early, late⟩
    · have same : range.start = line := Int.le_antisymm early (late _ stop)
      exact Or.inr (Or.inl (same ▸ covers))
    · have notAfter := late _ stop
      exact Or.inr (Or.inr ⟨closes, ⟨range.start, found, early⟩, by omega⟩)
  · rintro (⟨range, old, rfl, early, late⟩ | covers | ⟨closes, ⟨start, found, early⟩, late⟩)
    · exact ⟨range, (mem_closed_apply distinct).2 (Or.inl old), rfl, early, late⟩
    · refine ⟨⟨rule, line, some line⟩, ?_, rfl, Int.le_refl line, ?_⟩
      · exact (mem_closed_apply distinct).2 (Or.inr (Or.inl ⟨covers, rfl⟩))
      · intro stop same
        cases same
        exact Int.le_refl line
    · refine ⟨⟨rule, start, some d.line⟩, ?_, rfl, early, ?_⟩
      · exact (mem_closed_apply distinct).2 (Or.inr (Or.inr ⟨closes, found, rfl⟩))
      · intro stop same
        cases same
        omega

/-- A directive that switches a rule off opens a range at its line, unless one that starts no
later is open already. -/
theorem isOpenAt_apply_of_opens {s : Ranges} {d : PlacedDirective} {rule : Text} {line : Int}
    (early : ∀ start, Table.get? rule s.opened = some start → start ≤ d.line)
    (opens : d.Opens rule) :
    (s.apply d).IsOpenAt rule line ↔ s.IsOpenAt rule line ∨ d.line ≤ line := by
  simp only [IsOpenAt, get?_opened_apply_of_opens opens]
  cases found : Table.get? rule s.opened with
  | none => simp
  | some start =>
      have notLater := early start found
      simp only [Option.getD_some, Option.some.injEq, exists_eq_left']
      omega

theorem not_isOpenAt_apply_of_closes {s : Ranges} {d : PlacedDirective} {rule : Text}
    {line : Int} (distinct : Table.isDistinct s.opened = true) (closes : d.Closes rule) :
    ¬ (s.apply d).IsOpenAt rule line := by
  simp [IsOpenAt, get?_opened_apply_of_closes distinct closes]

theorem isOpenAt_apply_of_neither {s : Ranges} {d : PlacedDirective} {rule : Text} {line : Int}
    (distinct : Table.isDistinct s.opened = true) (opens : ¬ d.Opens rule)
    (closes : ¬ d.Closes rule) :
    (s.apply d).IsOpenAt rule line ↔ s.IsOpenAt rule line := by
  simp only [IsOpenAt, get?_opened_apply_of_neither distinct opens closes]

/-- Open ranges start no later than what is still to be read. -/
def StartsBefore (s : Ranges) (directives : List PlacedDirective) : Prop :=
  ∀ rule start, Table.get? rule s.opened = some start → ∀ d ∈ directives, start ≤ d.line

theorem startsBefore_apply {s : Ranges} {d : PlacedDirective} {rest : List PlacedDirective}
    (distinct : Table.isDistinct s.opened = true) (early : s.StartsBefore (d :: rest))
    (ordered : ∀ later ∈ rest, d.line ≤ later.line) : (s.apply d).StartsBefore rest := by
  intro rule start found later member
  by_cases opens : d.Opens rule
  · rw [get?_opened_apply_of_opens opens, Option.some.injEq] at found
    cases before : Table.get? rule s.opened with
    | none =>
        rw [before, Option.getD_none] at found
        exact found ▸ ordered later member
    | some first =>
        rw [before, Option.getD_some] at found
        exact found ▸ early rule first before later (List.mem_cons_of_mem d member)
  · by_cases closes : d.Closes rule
    · rw [get?_opened_apply_of_closes distinct closes] at found
      cases found
    · rw [get?_opened_apply_of_neither distinct opens closes] at found
      exact early rule start found later (List.mem_cons_of_mem d member)

/-!
### All directives

The induction is on the directives still to be read, for every state of the scan.  What the
state holds counts like directives before them: a closed range around the line suppresses the
rule for good, and an open one as long as nothing closes it before the line.
-/

theorem suppresses_foldl {directives : List PlacedDirective} {rule : Text} {line : Int}
    (ordered : directives.Pairwise fun d later => d.line ≤ later.line) {s : Ranges}
    (distinct : Table.isDistinct s.opened = true) (early : s.StartsBefore directives) :
    (directives.foldl apply s).IsOpenAt rule line
        ∨ (directives.foldl apply s).IsClosedAt rule line ↔
      s.IsClosedAt rule line
        ∨ (s.IsOpenAt rule line ∧ StaysOff directives rule line)
        ∨ CoveredAlone directives rule line
        ∨ SwitchedOff directives rule line := by
  induction directives generalizing s with
  | nil =>
      have stays : StaysOff [] rule line := by
        intro closer member
        cases member
      simp only [List.foldl_nil, stays, not_coveredAlone_nil, not_switchedOff_nil, and_true,
        or_false]
      exact Or.comm
  | cons d rest ih =>
      obtain ⟨later, orderedRest⟩ := List.pairwise_cons.1 ordered
      have earlyRest := startsBefore_apply distinct early later
      rw [List.foldl_cons, ih orderedRest (isDistinct_opened_apply d distinct) earlyRest,
        isClosedAt_apply distinct, switchedOff_cons, staysOff_cons, coveredAlone_cons]
      by_cases opens : d.Opens rule
      · have nowOpen : (s.apply d).IsOpenAt rule line ↔ s.IsOpenAt rule line ∨ d.line ≤ line :=
          isOpenAt_apply_of_opens
            (fun start found => early rule start found d List.mem_cons_self) opens
        simp only [opens, opens.not_closes, nowOpen, false_and, or_false, true_and,
          false_implies, or_and_right]
        grind
      · by_cases closes : d.Closes rule
        · -- Behind a closer that does not stand before the line, none does.
          have kept : ¬ d.line < line → StaysOff rest rule line := by
            intro notBefore closer member _
            have order := later closer member
            omega
          have notOpen : ¬ (s.apply d).IsOpenAt rule line :=
            not_isOpenAt_apply_of_closes distinct closes
          simp only [opens, closes, notOpen, false_and, false_or, true_and, true_implies]
          grind
        · have same : (s.apply d).IsOpenAt rule line ↔ s.IsOpenAt rule line :=
            isOpenAt_apply_of_neither distinct opens closes
          simp only [opens, closes, same, false_and, false_or, or_false, true_and,
            false_implies]
          grind

theorem isDistinct_opened_foldl {directives : List PlacedDirective} {s : Ranges}
    (distinct : Table.isDistinct s.opened = true) :
    Table.isDistinct (directives.foldl apply s).opened = true := by
  induction directives generalizing s with
  | nil => exact distinct
  | cons d rest ih => exact ih (isDistinct_opened_apply d distinct)

/-!
### Ranges around a line
-/

theorem covers_iff {range : DisableRange} {rule : Text} {line : Int} :
    range.covers rule line = true ↔
      (range.rule = rule ∨ range.rule = Directive.allRules) ∧ range.start ≤ line
        ∧ ∀ stop, range.stop = some stop → line ≤ stop := by
  unfold DisableRange.covers
  cases range.stop with
  | none => simp [Or.comm]
  | some stop => simp [Or.comm, and_assoc]

/-- Some range covers the rule in the line when the rule, or the name for all rules, has a
closed range around the line or an open one that starts no later. -/
theorem exists_covers_iff {s : Ranges} {rule : Text} {line : Int}
    (distinct : Table.isDistinct s.opened = true) :
    (∃ range ∈ s.all, range.covers rule line = true) ↔
      ∃ key, (key = rule ∨ key = Directive.allRules)
        ∧ (s.IsOpenAt key line ∨ s.IsClosedAt key line) := by
  constructor
  · rintro ⟨range, member, covers⟩
    obtain ⟨named, early, late⟩ := covers_iff.1 covers
    refine ⟨range.rule, named, ?_⟩
    rcases List.mem_append.1 member with closed | opened
    · exact Or.inr ⟨range, closed, rfl, early, late⟩
    · obtain ⟨⟨key, start⟩, entry, rfl⟩ := List.mem_map.1 opened
      exact Or.inl ⟨start, (Table.get?_eq_some_iff_mem distinct).2 entry, early⟩
  · rintro ⟨key, named, ⟨start, found, early⟩ | ⟨range, closed, rfl, early, late⟩⟩
    · have entry := (Table.get?_eq_some_iff_mem distinct).1 found
      refine ⟨⟨key, start, none⟩, List.mem_append_right _ (List.mem_map.2 ⟨_, entry, rfl⟩), ?_⟩
      refine covers_iff.2 ⟨named, early, ?_⟩
      intro stop same
      cases same
    · exact ⟨range, List.mem_append_left _ closed, covers_iff.2 ⟨named, early, late⟩⟩

end Ranges

/-!
### Documents
-/

/-- The directive lists the rule, or the name for all rules, or nothing. -/
def Directive.IsAbout (d : Directive) (rule : Text) : Prop :=
  rule ∈ d.rules ∨ Directive.allRules ∈ d.rules ∨ d.rules = []

theorem Directive.isAbout_iff {d : Directive} {rule : Text} :
    d.IsAbout rule ↔ ∃ key, (key = rule ∨ key = Directive.allRules) ∧ key ∈ d.targets := by
  unfold IsAbout targets
  cases d.rules with
  | nil => simp
  | cons first rest => simp

/-- The ranges of an ordered document cover a rule in a line exactly when a directive names
the line or has switched the rule, or all rules, off. -/
theorem exists_covers_disableRanges_iff {d : Document} {rule : Text} {line : Int}
    (ordered : d.directives.Pairwise fun first later => first.line ≤ later.line) :
    (∃ range ∈ disableRanges d, range.covers rule line = true) ↔
      ∃ key, (key = rule ∨ key = Directive.allRules)
        ∧ (CoveredAlone d.directives key line ∨ SwitchedOff d.directives key line) := by
  have distinct : Table.isDistinct (rangesOf d.directives).opened = true :=
    Ranges.isDistinct_opened_foldl rfl
  have early : Ranges.empty.StartsBefore d.directives := by
    intro _ _ found
    cases found
  refine (Ranges.exists_covers_iff distinct).trans (exists_congr fun key => and_congr_right ?_)
  intro _
  have notOpen : ¬ Ranges.empty.IsOpenAt key line := by
    rintro ⟨_, found, _⟩
    cases found
  have notClosed : ¬ Ranges.empty.IsClosedAt key line := by
    rintro ⟨_, member, _⟩
    cases member
  refine (Ranges.suppresses_foldl ordered rfl early).trans ?_
  simp only [notOpen, notClosed, false_and, false_or]

theorem directives_ordered {d : Document}
    (ordered : d.comments.Pairwise fun c later => c.position.line ≤ later.position.line) :
    d.directives.Pairwise fun first later => first.line ≤ later.line := by
  refine List.Pairwise.filterMap Comment.directive? ?_ ordered
  intro c later notAfter first read second readLater
  obtain ⟨_, _, rfl⟩ := Option.map_eq_some_iff.1 read
  obtain ⟨_, _, rfl⟩ := Option.map_eq_some_iff.1 readLater
  exact notAfter

/-- What a document's directives mean for a rule in a line: one names the line, or the one
before, or the rule, or all rules, were switched off no later and not on again before it. -/
def Document.Suppresses (d : Document) (rule : Text) (line : Int) : Prop :=
  (∃ p ∈ d.directives, p.directive.kind = .disableLine ∧ p.line = line
      ∧ p.directive.IsAbout rule)
    ∨ (∃ p ∈ d.directives, p.directive.kind = .disableNextLine ∧ p.line = line - 1
      ∧ p.directive.IsAbout rule)
    ∨ ∃ key, (key = rule ∨ key = Directive.allRules) ∧ SwitchedOff d.directives key line

/-- A record that holds the ranges of a document suppresses what the directives of the
document say. -/
theorem isDisabled_iff {d : Document}
    (ordered : d.comments.Pairwise fun c later => c.position.line ≤ later.position.line)
    {record : Recorder} (holds : record.ranges = disableRanges d) (rule : Text) (line : Int) :
    record.isDisabled rule line = true ↔ d.Suppresses rule line := by
  have covered : record.isDisabled rule line = true ↔
      ∃ range ∈ disableRanges d, range.covers rule line = true := by
    rw [Recorder.isDisabled, holds, List.any_eq_true]
  rw [covered, exists_covers_disableRanges_iff (directives_ordered ordered)]
  simp only [Document.Suppresses, Directive.isAbout_iff]
  constructor
  · rintro ⟨key, named, ⟨p, member, listed, ⟨kind, same⟩ | ⟨kind, same⟩⟩ | off⟩
    · exact Or.inl ⟨p, member, kind, same.symm, key, named, listed⟩
    · exact Or.inr (Or.inl ⟨p, member, kind, by omega, key, named, listed⟩)
    · exact Or.inr (Or.inr ⟨key, named, off⟩)
  · rintro (⟨p, member, kind, same, key, named, listed⟩
      | ⟨p, member, kind, same, key, named, listed⟩ | ⟨key, named, off⟩)
    · exact ⟨key, named, Or.inl ⟨p, member, listed, Or.inl ⟨kind, same.symm⟩⟩⟩
    · exact ⟨key, named, Or.inl ⟨p, member, listed, Or.inr ⟨kind, by omega⟩⟩⟩
    · exact ⟨key, named, Or.inr off⟩

/-- A document that switches all rules off, one of them on again, and that one off for a
line. -/
def reopeningDocument : Document :=
  ⟨Position.origin, .null,
    [.comment ⟨1, 1⟩ "sheetlint-disable",
      .rule ⟨2, 1⟩ "a" [.comment ⟨3, 3⟩ "sheetlint-enable hex, depth",
        .comment ⟨3, 40⟩ "sheetlint-disable hex"],
      .comment ⟨6, 1⟩ "sheetlint-enable",
      .comment ⟨7, 1⟩ "sheetlint-disable-next-line hex"]⟩

/-- Switching a rule on by name does not undo that all rules are off (line 5); switching
all on ends both ranges (line 7). -/
theorem isDisabled_iff_reopening :
    (reopeningDocument.comments.Pairwise fun c later => c.position.line ≤ later.position.line)
      ∧ reopeningDocument.Suppresses "depth" 5
      ∧ ¬ reopeningDocument.Suppresses "hex" 7
      ∧ reopeningDocument.Suppresses "hex" 8 := by
  have ordered : reopeningDocument.comments.Pairwise
      fun c later => c.position.line ≤ later.position.line := by decide
  let record : Recorder := ⟨[], false, disableRanges reopeningDocument, []⟩
  have holds : record.ranges = disableRanges reopeningDocument := rfl
  have off : record.isDisabled "depth" 5 = true := by decide +kernel
  have on : ¬ record.isDisabled "hex" 7 = true := by decide +kernel
  have alone : record.isDisabled "hex" 8 = true := by decide +kernel
  refine ⟨ordered, ?_, ?_, ?_⟩
  · exact (isDisabled_iff ordered holds "depth" 5).1 off
  · exact fun suppressed => on ((isDisabled_iff ordered holds "hex" 7).2 suppressed)
  · exact (isDisabled_iff ordered holds "hex" 8).1 alone

end StyleAudit
