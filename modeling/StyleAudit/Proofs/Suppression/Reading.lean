/-
Module: StyleAudit.Proofs.Suppression.Reading
Purpose: What reading one directive does to the open ranges and to the closed ones, told rule
  by rule.
Trusted boundary: none
Main exports: PlacedDirective.Opens, PlacedDirective.Closes, Ranges.get?_opened_apply,
  Ranges.mem_closed_apply, Ranges.isDistinct_opened_apply
-/
import StyleAudit.Proofs.Table
import StyleAudit.Suppression.Range

namespace StyleAudit

namespace PlacedDirective

/-- The directive switches a rule off until further notice. -/
def Opens (d : PlacedDirective) (rule : Text) : Prop :=
  d.directive.kind = .disable ∧ rule ∈ d.directive.targets

/-- The directive switches a rule on again: it lists the rule, or nothing. -/
def Closes (d : PlacedDirective) (rule : Text) : Prop :=
  d.directive.kind = .enable ∧ (rule ∈ d.directive.rules ∨ d.directive.rules = [])

/-- The directive switches a rule off in one line, its own or the next. -/
def Covers (d : PlacedDirective) (rule : Text) (line : Int) : Prop :=
  rule ∈ d.directive.targets ∧
    ((d.directive.kind = .disableLine ∧ line = d.line)
      ∨ (d.directive.kind = .disableNextLine ∧ line = d.line + 1))

end PlacedDirective

namespace Ranges

/-!
### Opening and closing
-/

theorem get?_opened_openAll (rules : List Text) (line : Int) (s : Ranges) (rule : Text) :
    Table.get? rule (s.openAll rules line).opened =
      if rule ∈ rules then some ((Table.get? rule s.opened).getD line)
      else Table.get? rule s.opened := by
  unfold openAll
  simp only
  generalize s.opened = opened
  induction rules generalizing opened with
  | nil => simp
  | cons first rest ih =>
      rw [List.foldl_cons, ih, Table.get?_putNew]
      by_cases same : first = rule
      · subst same
        simp
      · simp [same, Ne.symm same]

theorem isDistinct_opened_openAll {rules : List Text} {line : Int} {s : Ranges}
    (distinct : Table.isDistinct s.opened = true) :
    Table.isDistinct (s.openAll rules line).opened = true := by
  unfold openAll
  simp only
  generalize s.opened = opened at distinct ⊢
  induction rules generalizing opened with
  | nil => exact distinct
  | cons first rest ih => exact ih _ (Table.isDistinct_putNew distinct)

theorem isDistinct_opened_closeOne {rule : Text} {line : Int} {s : Ranges}
    (distinct : Table.isDistinct s.opened = true) :
    Table.isDistinct (s.closeOne rule line).opened = true := by
  unfold closeOne
  split
  · exact Table.isDistinct_erase distinct
  · exact distinct

theorem get?_opened_closeOne {rule other : Text} {line : Int} {s : Ranges}
    (distinct : Table.isDistinct s.opened = true) :
    Table.get? other (s.closeOne rule line).opened =
      if other = rule then none else Table.get? other s.opened := by
  unfold closeOne
  by_cases same : other = rule
  · subst same
    rw [if_pos rfl]
    split
    · exact Table.get?_erase_of_same (LawfulSameness.refl other) distinct
    · assumption
  · have apart : ¬ Sameness.same rule other = true := by
      rw [Text.same_iff]
      exact Ne.symm same
    rw [if_neg same]
    split
    · exact Table.get?_erase_of_not_same apart s.opened
    · rfl

theorem mem_closed_closeOne {rule : Text} {line : Int} {s : Ranges} {range : DisableRange} :
    range ∈ (s.closeOne rule line).closed ↔
      range ∈ s.closed ∨
        (range.rule = rule ∧ Table.get? rule s.opened = some range.start
          ∧ range.stop = some line) := by
  unfold closeOne
  split
  · rename_i start found
    rw [List.mem_append, List.mem_singleton]
    constructor
    · rintro (old | rfl)
      · exact Or.inl old
      · exact Or.inr ⟨rfl, found, rfl⟩
    · rintro (old | ⟨sameRule, sameStart, sameStop⟩)
      · exact Or.inl old
      · rw [found, Option.some.injEq] at sameStart
        subst sameRule sameStart
        exact Or.inr (by rw [← sameStop])
  · rename_i missing
    simp [missing]

theorem isDistinct_opened_closeAll {rules : List Text} {line : Int} {s : Ranges}
    (distinct : Table.isDistinct s.opened = true) :
    Table.isDistinct (s.closeAll rules line).opened = true := by
  unfold closeAll
  induction rules generalizing s with
  | nil => exact distinct
  | cons first rest ih => exact ih (isDistinct_opened_closeOne distinct)

theorem get?_opened_closeAll {rules : List Text} {rule : Text} {line : Int} {s : Ranges}
    (distinct : Table.isDistinct s.opened = true) :
    Table.get? rule (s.closeAll rules line).opened =
      if rule ∈ rules then none else Table.get? rule s.opened := by
  unfold closeAll
  induction rules generalizing s with
  | nil => simp
  | cons first rest ih =>
      rw [List.foldl_cons, ih (isDistinct_opened_closeOne distinct),
        get?_opened_closeOne distinct]
      by_cases same : rule = first <;> simp [same]

theorem mem_closed_closeAll {rules : List Text} {line : Int} {s : Ranges} {range : DisableRange}
    (distinct : Table.isDistinct s.opened = true) :
    range ∈ (s.closeAll rules line).closed ↔
      range ∈ s.closed ∨
        (range.rule ∈ rules ∧ Table.get? range.rule s.opened = some range.start
          ∧ range.stop = some line) := by
  unfold closeAll
  induction rules generalizing s with
  | nil => simp
  | cons first rest ih =>
      rw [List.foldl_cons, ih (isDistinct_opened_closeOne distinct), mem_closed_closeOne,
        get?_opened_closeOne distinct, List.mem_cons]
      by_cases same : range.rule = first
      · simp [same]
      · simp [same]

/-!
### Reading one directive
-/

/-- The rules whose ranges an enable closes: those it lists, or all that have one. -/
def closedBy (s : Ranges) (d : PlacedDirective) : List Text :=
  if d.directive.rules.isEmpty then s.opened.keys else d.directive.rules

/-- A rule with an open range is among those that an enable closes when the enable lists the
rule, or nothing. -/
theorem mem_closedBy_iff {s : Ranges} {d : PlacedDirective} {rule : Text} {start : Int}
    (found : Table.get? rule s.opened = some start) :
    rule ∈ s.closedBy d ↔ rule ∈ d.directive.rules ∨ d.directive.rules = [] := by
  unfold closedBy
  cases named : d.directive.rules with
  | nil => simpa using Table.mem_keys_of_get?_eq_some found
  | cons first rest => simp

/-- The directive is logged before anything else is done with it. -/
def noted (s : Ranges) (d : PlacedDirective) : Ranges :=
  { s with log := s.log ++ [LogRecord.directive d] }

theorem apply_of_enable (s : Ranges) {d : PlacedDirective} (kind : d.directive.kind = .enable) :
    s.apply d = (s.noted d).closeAll (s.closedBy d) d.line := by
  simp only [apply, kind, noted, closedBy]

theorem apply_of_disable (s : Ranges) {d : PlacedDirective} (kind : d.directive.kind = .disable) :
    s.apply d = (s.noted d).openAll d.directive.targets d.line := by
  simp only [apply, kind, noted]

/-- No rule has two open ranges, whatever is read. -/
theorem isDistinct_opened_apply {s : Ranges} (d : PlacedDirective)
    (distinct : Table.isDistinct s.opened = true) :
    Table.isDistinct (s.apply d).opened = true := by
  unfold apply
  cases d.directive.kind with
  | disableLine => exact distinct
  | disableNextLine => exact distinct
  | disable => exact isDistinct_opened_openAll distinct
  | enable => exact isDistinct_opened_closeAll distinct

theorem get?_opened_apply_of_opens {s : Ranges} {d : PlacedDirective} {rule : Text}
    (opens : d.Opens rule) :
    Table.get? rule (s.apply d).opened = some ((Table.get? rule s.opened).getD d.line) := by
  rw [apply_of_disable s opens.1, get?_opened_openAll, if_pos opens.2]
  rfl

theorem get?_opened_apply_of_closes {s : Ranges} {d : PlacedDirective} {rule : Text}
    (distinct : Table.isDistinct s.opened = true) (closes : d.Closes rule) :
    Table.get? rule (s.apply d).opened = none := by
  have distinctNoted : Table.isDistinct (s.noted d).opened = true := distinct
  rw [apply_of_enable s closes.1, get?_opened_closeAll distinctNoted]
  cases found : Table.get? rule s.opened with
  | none => simp [noted, found]
  | some start => rw [if_pos ((mem_closedBy_iff found).2 closes.2)]

/-- A directive that neither opens nor closes a rule's range leaves it as it is. -/
theorem get?_opened_apply_of_neither {s : Ranges} {d : PlacedDirective} {rule : Text}
    (distinct : Table.isDistinct s.opened = true) (opens : ¬ d.Opens rule)
    (closes : ¬ d.Closes rule) :
    Table.get? rule (s.apply d).opened = Table.get? rule s.opened := by
  cases kind : d.directive.kind with
  | disableLine => simp only [apply, kind, single]
  | disableNextLine => simp only [apply, kind, single]
  | disable =>
      have unlisted : rule ∉ d.directive.targets := fun listed => opens ⟨kind, listed⟩
      rw [apply_of_disable s kind, get?_opened_openAll, if_neg unlisted]
      rfl
  | enable =>
      have distinctNoted : Table.isDistinct (s.noted d).opened = true := distinct
      rw [apply_of_enable s kind, get?_opened_closeAll distinctNoted]
      cases found : Table.get? rule s.opened with
      | none => simp [noted, found]
      | some start =>
          have unlisted : rule ∉ s.closedBy d := fun listed =>
            closes ⟨kind, (mem_closedBy_iff found).1 listed⟩
          rw [if_neg unlisted]
          exact found

theorem mem_closed_single {rules : List Text} {line : Int} {s : Ranges} {range : DisableRange} :
    range ∈ (s.single rules line).closed ↔
      range ∈ s.closed
        ∨ (range.rule ∈ rules ∧ range.start = line ∧ range.stop = some line) := by
  obtain ⟨rule, start, stop⟩ := range
  simp only [single, List.mem_append, List.mem_map, DisableRange.mk.injEq]
  constructor
  · rintro (old | ⟨other, listed, rfl, rfl, rfl⟩)
    · exact Or.inl old
    · exact Or.inr ⟨listed, rfl, rfl⟩
  · rintro (old | ⟨listed, rfl, rfl⟩)
    · exact Or.inl old
    · exact Or.inr ⟨rule, listed, rfl, rfl, rfl⟩

/-- The closed ranges after a directive are those before it, the one-line ranges that it
names itself, and the open ranges that it closes. -/
theorem mem_closed_apply {s : Ranges} {d : PlacedDirective} {range : DisableRange}
    (distinct : Table.isDistinct s.opened = true) :
    range ∈ (s.apply d).closed ↔
      range ∈ s.closed
        ∨ (d.Covers range.rule range.start ∧ range.stop = some range.start)
        ∨ (d.Closes range.rule ∧ Table.get? range.rule s.opened = some range.start
            ∧ range.stop = some d.line) := by
  cases kind : d.directive.kind with
  | disableLine =>
      simp only [apply, kind, mem_closed_single, PlacedDirective.Covers, PlacedDirective.Closes]
      grind
  | disableNextLine =>
      simp only [apply, kind, mem_closed_single, PlacedDirective.Covers, PlacedDirective.Closes]
      grind
  | disable =>
      rw [apply_of_disable s kind]
      simp [openAll, noted, PlacedDirective.Covers, PlacedDirective.Closes, kind]
  | enable =>
      have distinctNoted : Table.isDistinct (s.noted d).opened = true := distinct
      rw [apply_of_enable s kind, mem_closed_closeAll distinctNoted]
      have named : ∀ start, Table.get? range.rule s.opened = some start →
          (range.rule ∈ s.closedBy d ↔ d.Closes range.rule) := by
        intro start found
        simp [mem_closedBy_iff found, PlacedDirective.Closes, kind]
      simp only [PlacedDirective.Covers, kind, noted]
      grind

end Ranges

end StyleAudit
