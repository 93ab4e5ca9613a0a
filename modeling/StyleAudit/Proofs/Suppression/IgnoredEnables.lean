/-
Module: StyleAudit.Proofs.Suppression.IgnoredEnables
Purpose: What an enable does while all rules are off and stay off: of the rules that it lists,
  those without a range of their own are logged and left alone, the others lose it.
Trusted boundary: none
Main exports: Ranges.log_closeAll_of_allOff, Ranges.log_prefix_foldl, Ranges.mem_closed_foldl,
  enable_while_allOff
-/
import StyleAudit.Proofs.Suppression.Spans

namespace StyleAudit

namespace Ranges

/-!
### One enable
-/

/-- Closing a rule that has a range logs nothing. -/
theorem log_closeOne_of_some {s : Ranges} {rule : Text} {line start : Int}
    (found : Table.get? rule s.opened = some start) : (s.closeOne rule line).log = s.log := by
  simp only [closeOne, found]

/-- Closing a rule that has no range is ignored, with a warning, while all rules are off. -/
theorem log_closeOne_of_none {s : Ranges} {rule : Text} {line : Int}
    (missing : Table.get? rule s.opened = none)
    (allOff : Table.get? Directive.allRules s.opened ≠ none) :
    (s.closeOne rule line).log = s.log ++ [LogRecord.enableIgnored rule line] := by
  have stands : s.opened.contains Directive.allRules = true := Option.isSome_iff_ne_none.2 allOff
  simp only [closeOne, missing, stands, if_true]

/-- Of the rules in a list those are ignored that have no range when their turn comes: every
mention of a rule without a range, and every mention but the first of a rule with one. -/
theorem log_closeAll_of_allOff (line : Int) {rules : List Text} {s : Ranges}
    (distinct : Table.isDistinct s.opened = true)
    (allOff : Table.get? Directive.allRules s.opened ≠ none)
    (unlisted : Directive.allRules ∉ rules) :
    ∃ ignored : List Text, ignored.Sublist rules
      ∧ (s.closeAll rules line).log
          = s.log ++ ignored.map (LogRecord.enableIgnored · line)
      ∧ ∀ rule,
        (Table.get? rule s.opened = none → ignored.count rule = rules.count rule)
          ∧ (Table.get? rule s.opened ≠ none → rule ∈ rules →
              ignored.count rule + 1 = rules.count rule) := by
  unfold closeAll
  induction rules generalizing s with
  | nil => exact ⟨[], List.Sublist.refl [], by simp, by simp⟩
  | cons first rest ih =>
      obtain ⟨notFirst, notRest⟩ := not_or.1 (mt List.mem_cons.2 unlisted)
      have reads : ∀ rule, Table.get? rule (s.closeOne first line).opened
          = if rule = first then none else Table.get? rule s.opened :=
        fun rule => get?_opened_closeOne distinct
      have stillOff : Table.get? Directive.allRules (s.closeOne first line).opened ≠ none := by
        rw [reads, if_neg notFirst]
        exact allOff
      obtain ⟨ignored, sub, logged, counts⟩ :=
        ih (isDistinct_opened_closeOne distinct) stillOff notRest
      -- Behind its first mention the rule has no range, so all that follow are ignored.
      have again : ignored.count first = rest.count first :=
        (counts first).1 (by rw [reads, if_pos rfl])
      cases found : Table.get? first s.opened with
      | some start =>
          refine ⟨ignored, sub.cons first, ?_, ?_⟩
          · rw [List.foldl_cons, logged, log_closeOne_of_some found]
          · intro rule
            by_cases same : rule = first
            · subst same
              simp [found, again]
            · simpa [reads, same, Ne.symm same] using counts rule
      | none =>
          refine ⟨first :: ignored, sub.cons_cons first, ?_, ?_⟩
          · rw [List.foldl_cons, logged, log_closeOne_of_none found allOff, List.append_assoc]
            rfl
          · intro rule
            by_cases same : rule = first
            · subst same
              simp [found, again]
            · simpa [reads, same, Ne.symm same] using counts rule

/-!
### The directives behind it
-/

theorem log_prefix_closeAll (rules : List Text) (line : Int) (s : Ranges) :
    s.log <+: (s.closeAll rules line).log := by
  unfold closeAll
  induction rules generalizing s with
  | nil => exact List.prefix_refl s.log
  | cons first rest ih =>
      refine List.IsPrefix.trans ?_ (ih (s.closeOne first line))
      unfold closeOne
      split
      · exact List.prefix_refl s.log
      · exact List.prefix_append s.log _

theorem log_prefix_apply (s : Ranges) (d : PlacedDirective) : s.log <+: (s.apply d).log := by
  have logged : s.log <+: (s.noted d).log := List.prefix_append s.log [LogRecord.directive d]
  cases kind : d.directive.kind with
  | disableLine => simpa only [apply, kind, single, noted] using logged
  | disableNextLine => simpa only [apply, kind, single, noted] using logged
  | disable => simpa only [apply, kind, openAll, noted] using logged
  | enable =>
      rw [apply_of_enable s kind]
      exact logged.trans (log_prefix_closeAll _ _ _)

/-- What is logged stays logged. -/
theorem log_prefix_foldl (directives : List PlacedDirective) (s : Ranges) :
    s.log <+: (directives.foldl apply s).log := by
  induction directives generalizing s with
  | nil => exact List.prefix_refl s.log
  | cons d rest ih => exact (log_prefix_apply s d).trans (ih (s.apply d))

/-- What is closed stays closed. -/
theorem mem_closed_foldl {directives : List PlacedDirective} {s : Ranges}
    (distinct : Table.isDistinct s.opened = true) {range : DisableRange}
    (member : range ∈ s.closed) : range ∈ (directives.foldl apply s).closed := by
  induction directives generalizing s with
  | nil => exact member
  | cons d rest ih =>
      exact ih (isDistinct_opened_apply d distinct) ((mem_closed_apply distinct).2 (Or.inl member))

end Ranges

/-!
### Documents
-/

/-- A directive that lists nothing, or the name for all rules, switches all rules on. -/
theorem unlisted_of_stillOff {before : List PlacedDirective} {p : PlacedDirective}
    (enables : p.directive.kind = .enable)
    (stillOff : Table.get? Directive.allRules (rangesOf (before ++ [p])).opened ≠ none) :
    p.directive.rules ≠ [] ∧ Directive.allRules ∉ p.directive.rules := by
  have distinct := isDistinct_opened_rangesOf before
  have notCloses : ¬ p.Closes Directive.allRules := by
    intro closes
    rw [rangesOf_concat, Ranges.get?_opened_apply_of_closes distinct closes] at stillOff
    exact stillOff rfl
  exact ⟨fun nothing => notCloses ⟨enables, Or.inr nothing⟩,
    fun listed => notCloses ⟨enables, Or.inl listed⟩⟩

/-- An enable that finds all rules off and leaves them off is logged, and then a warning for
each mention of a rule that finds no range of that rule's own.  A rule without a range of its
own is therefore warned about as often as it is listed, and has none afterwards; for a rule with
one the range ends, without a warning for its first mention. -/
theorem enable_while_allOff {d : Document} {before after : List PlacedDirective}
    {p : PlacedDirective} (split : d.directives = before ++ p :: after)
    (enables : p.directive.kind = .enable)
    (allOff : Table.get? Directive.allRules (rangesOf before).opened ≠ none)
    (stillOff : Table.get? Directive.allRules (rangesOf (before ++ [p])).opened ≠ none) :
    ∃ ignored : List Text, ignored.Sublist p.directive.rules
      ∧ (rangesOf (before ++ [p])).log
          = (rangesOf before).log
            ++ LogRecord.directive p :: ignored.map (LogRecord.enableIgnored · p.line)
      ∧ (rangesOf (before ++ [p])).log <+: disableRangesLog d
      ∧ (∀ rule ∈ p.directive.rules,
        (Table.get? rule (rangesOf before).opened = none →
            ignored.count rule = p.directive.rules.count rule
              ∧ Table.get? rule (rangesOf (before ++ [p])).opened = none)
          ∧ ∀ start, Table.get? rule (rangesOf before).opened = some start →
            ignored.count rule + 1 = p.directive.rules.count rule
              ∧ Table.get? rule (rangesOf (before ++ [p])).opened = none
              ∧ ⟨rule, start, some p.line⟩ ∈ disableRanges d)
      ∧ ∀ rule, (LogRecord.enableIgnored rule p.line).level = .warning
        ∧ ∀ elapsed, (LogRecord.enableIgnored rule p.line).message elapsed
          = "Ignoring sheetlint-enable for " ++ Text.quoted rule ++ " at line "
            ++ toString p.line ++ ": all rules are disabled" := by
  have distinct := isDistinct_opened_rangesOf before
  obtain ⟨named, unlisted⟩ := unlisted_of_stillOff enables stillOff
  have whole : rangesOf d.directives = after.foldl Ranges.apply (rangesOf (before ++ [p])) := by
    rw [split, rangesOf_concat, rangesOf, List.foldl_append, List.foldl_cons]
    rfl
  have distinctNoted : Table.isDistinct ((rangesOf before).noted p).opened = true := distinct
  obtain ⟨ignored, sub, logged, counts⟩ :=
    Ranges.log_closeAll_of_allOff p.line distinctNoted allOff unlisted
  have closing : (rangesOf before).closedBy p = p.directive.rules := by
    rw [Ranges.closedBy, if_neg (by simpa using named)]
  refine ⟨ignored, sub, ?_, ?_, ?_, fun _ => ⟨rfl, fun _ => rfl⟩⟩
  · rw [rangesOf_concat, Ranges.apply_of_enable _ enables, closing, logged, Ranges.noted,
      List.append_assoc]
    rfl
  · rw [disableRangesLog, whole]
    exact Ranges.log_prefix_foldl after _
  · intro rule listed
    have closes : p.Closes rule := ⟨enables, Or.inl listed⟩
    have gone : Table.get? rule (rangesOf (before ++ [p])).opened = none := by
      rw [rangesOf_concat, Ranges.get?_opened_apply_of_closes distinct closes]
    constructor
    · intro missing
      exact ⟨(counts rule).1 missing, gone⟩
    · intro start found
      have own : Table.get? rule ((rangesOf before).noted p).opened ≠ none := by
        rw [Ranges.noted, found]
        exact Option.some_ne_none start
      refine ⟨(counts rule).2 own listed, gone, ?_⟩
      have ended : (⟨rule, start, some p.line⟩ : DisableRange)
          ∈ (rangesOf (before ++ [p])).closed := by
        rw [rangesOf_concat]
        exact (Ranges.mem_closed_apply distinct).2 (Or.inr (Or.inr ⟨closes, found, rfl⟩))
      rw [disableRanges, whole]
      exact List.mem_append_left _
        (Ranges.mem_closed_foldl (isDistinct_opened_rangesOf _) ended)

/-- A document that switches all rules off, one of them once more, and then that one and another
on. -/
def twiceOffDocument : Document :=
  ⟨Position.origin, .null,
    [.comment ⟨1, 1⟩ "sheetlint-disable",
      .rule ⟨2, 1⟩ "a" [.comment ⟨2, 3⟩ "sheetlint-disable hex"],
      .comment ⟨5, 1⟩ "sheetlint-enable hex, depth"]⟩

/-- The rule that was switched off by name loses its range without a word; only the other one is
worth a warning. -/
theorem enable_while_allOff_twice :
    ∃ ignored : List Text,
      (rangesOf twiceOffDocument.directives).log
          = [LogRecord.directive ⟨⟨.disable, []⟩, 1⟩, .directive ⟨⟨.disable, ["hex"]⟩, 2⟩]
            ++ LogRecord.directive ⟨⟨.enable, ["hex", "depth"]⟩, 5⟩
              :: ignored.map (LogRecord.enableIgnored · 5)
        ∧ ignored.count ("hex" : Text) = 0 ∧ ignored.count ("depth" : Text) = 1
        ∧ ⟨"hex", 2, some 5⟩ ∈ disableRanges twiceOffDocument := by
  let before : List PlacedDirective := [⟨⟨.disable, []⟩, 1⟩, ⟨⟨.disable, ["hex"]⟩, 2⟩]
  let p : PlacedDirective := ⟨⟨.enable, ["hex", "depth"]⟩, 5⟩
  have split : twiceOffDocument.directives = before ++ p :: [] := by decide
  have allOff : Table.get? Directive.allRules (rangesOf before).opened ≠ none := by decide
  have stillOff : Table.get? Directive.allRules (rangesOf (before ++ [p])).opened ≠ none := by
    decide
  obtain ⟨ignored, _, logged, _, counts, _⟩ := enable_while_allOff split rfl allOff stillOff
  have hex := (counts "hex" (by decide)).2 2 (by decide)
  have depth := (counts "depth" (by decide)).1 (by decide)
  refine ⟨ignored, ?_, ?_, depth.1, hex.2.2⟩
  · rw [split]
    exact logged
  · exact Nat.succ.inj hex.1

end StyleAudit
