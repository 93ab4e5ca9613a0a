/-
Module: StyleAudit.Proofs.Suppression.Spans
Purpose: The exact list of a document's ranges: the scan holds the openings that stand and the
  ranges that are complete.
Trusted boundary: none
Main exports: Ranges.opened_apply, Ranges.closed_apply, rangesOf_eq, disableRanges_exact
-/
import Mathlib.Data.List.Induction
import StyleAudit.Proofs.Suppression.Meaning
import StyleAudit.Proofs.Suppression.Openings

namespace StyleAudit

namespace Ranges

/-!
### Reading one directive, in order
-/

/-- Opening adds the rules that have no range yet, each once, in their order. -/
theorem opened_openAll (rules : List Text) (line : Int) (s : Ranges) :
    (s.openAll rules line).opened
      = s.opened ++ (rules.eraseDups.filter fun rule => Table.get? rule s.opened = none).map
          fun rule => (rule, line) := by
  unfold openAll
  simp only
  generalize s.opened = opened
  induction rules generalizing opened with
  | nil => simp
  | cons first rest ih =>
      rw [List.foldl_cons, ih, List.eraseDups_cons, filter_eraseDups]
      cases found : Table.get? first opened with
      | some start =>
          have kept : Table.putNew first line opened = opened := by
            simp [Table.putNew, Table.contains, found]
          rw [kept, List.filter_cons_of_neg (by simp [found]), List.filter_filter]
          refine congrArg _ (congrArg _ (List.filter_congr ?_))
          intro rule _
          by_cases same : rule = first
          · subst same
            simp [found]
          · simp [same]
      | none =>
          have added : Table.putNew first line opened = opened ++ [(first, line)] := by
            simp [Table.putNew, Table.contains, found]
          rw [added, List.filter_cons_of_pos (by simp [found]), List.filter_filter,
            List.map_cons, List.append_assoc, List.singleton_append]
          refine congrArg _ (congrArg _ (congrArg _ (List.filter_congr ?_)))
          intro rule _
          rw [Table.get?_append, Table.get?_cons]
          by_cases same : rule = first
          · subst same
            simp
          · simp [same, Ne.symm same]

theorem opened_closeOne {rule : Text} {line : Int} {s : Ranges}
    (distinct : Table.isDistinct s.opened = true) :
    (s.closeOne rule line).opened = s.opened.filter fun entry => entry.1 ≠ rule := by
  unfold closeOne
  cases found : Table.get? rule s.opened with
  | some start => exact Table.erase_eq_filter distinct
  | none =>
      refine (List.filter_eq_self.2 ?_).symm
      intro entry member
      have apart := List.filter_eq_nil_iff.1 (Table.filter_key_eq_nil_iff.2 found) entry member
      simpa using apart

theorem closed_closeOne {rule : Text} {line : Int} {s : Ranges}
    (distinct : Table.isDistinct s.opened = true) :
    (s.closeOne rule line).closed
      = s.closed ++ (s.opened.filter fun entry => entry.1 = rule).map
          fun entry => ⟨entry.1, entry.2, some line⟩ := by
  unfold closeOne
  cases found : Table.get? rule s.opened with
  | some start => rw [Table.filter_key_of_get?_eq_some distinct found, List.map_singleton]
  | none => rw [Table.filter_key_eq_nil_iff.2 found, List.map_nil, List.append_nil]

theorem opened_closeAll {rules : List Text} {line : Int} {s : Ranges}
    (distinct : Table.isDistinct s.opened = true) :
    (s.closeAll rules line).opened = s.opened.filter fun entry => entry.1 ∉ rules := by
  unfold closeAll
  induction rules generalizing s with
  | nil => simp
  | cons first rest ih =>
      rw [List.foldl_cons, ih (isDistinct_opened_closeOne distinct), opened_closeOne distinct,
        List.filter_filter]
      refine List.filter_congr ?_
      intro entry _
      by_cases same : entry.1 = first <;> simp [same]

/-- Closing ends the ranges of the rules in the order of their list; a rule that is listed
again has none left. -/
theorem closed_closeAll {rules : List Text} {line : Int} {s : Ranges}
    (distinct : Table.isDistinct s.opened = true) :
    (s.closeAll rules line).closed
      = s.closed ++ (rules.eraseDups.flatMap fun rule =>
            s.opened.filter fun entry => entry.1 = rule).map
          fun entry => ⟨entry.1, entry.2, some line⟩ := by
  unfold closeAll
  induction rules generalizing s with
  | nil => simp
  | cons first rest ih =>
      rw [List.foldl_cons, ih (isDistinct_opened_closeOne distinct), opened_closeOne distinct,
        closed_closeOne distinct, flatMap_filter_ne, List.eraseDups_cons, List.flatMap_cons,
        List.map_append, List.append_assoc, filter_eraseDups]

/-- The rules that a directive switches off and that have no range yet. -/
def newTargets (s : Ranges) (d : PlacedDirective) : List Text :=
  d.directive.targets.eraseDups.filter fun rule => d.Opens rule ∧ Table.get? rule s.opened = none

theorem opened_apply {s : Ranges} (d : PlacedDirective)
    (distinct : Table.isDistinct s.opened = true) :
    (s.apply d).opened
      = (s.opened.filter fun entry => ¬ d.Closes entry.1)
        ++ (s.newTargets d).map fun rule => (rule, d.line) := by
  cases kind : d.directive.kind with
  | disableLine =>
      simp [apply, kind, single, newTargets, PlacedDirective.Opens, PlacedDirective.Closes]
  | disableNextLine =>
      simp [apply, kind, single, newTargets, PlacedDirective.Opens, PlacedDirective.Closes]
  | disable =>
      have kept : (s.opened.filter fun entry => ¬ d.Closes entry.1) = s.opened := by
        simp [PlacedDirective.Closes, kind]
      rw [apply_of_disable s kind, opened_openAll, kept]
      refine congrArg _ (congrArg _ (List.filter_congr ?_))
      intro rule listed
      rw [List.mem_eraseDups] at listed
      exact decide_eq_decide.2 (by simp [noted, PlacedDirective.Opens, kind, listed])
  | enable =>
      have none : s.newTargets d = [] := by
        simp [newTargets, PlacedDirective.Opens, kind]
      have distinctNoted : Table.isDistinct (s.noted d).opened = true := distinct
      rw [apply_of_enable s kind, opened_closeAll distinctNoted, none, List.map_nil,
        List.append_nil]
      refine List.filter_congr ?_
      intro entry member
      have found := Table.get?_of_mem distinct member (LawfulSameness.refl entry.1)
      simp [mem_closedBy_iff found, PlacedDirective.Closes, kind]

theorem closed_apply {s : Ranges} (d : PlacedDirective)
    (distinct : Table.isDistinct s.opened = true) :
    (s.apply d).closed
      = s.closed
        ++ (d.lineRanges
          ++ (inListOrder (·.1) d.directive.rules
              (s.opened.filter fun entry => d.Closes entry.1)).map
            fun entry => ⟨entry.1, entry.2, some d.line⟩) := by
  cases kind : d.directive.kind with
  | disableLine =>
      simp [apply, kind, single, PlacedDirective.lineRanges, PlacedDirective.Closes]
  | disableNextLine =>
      simp [apply, kind, single, PlacedDirective.lineRanges, PlacedDirective.Closes]
  | disable =>
      simp [apply, kind, openAll, PlacedDirective.lineRanges, PlacedDirective.Closes]
  | enable =>
      have distinctNoted : Table.isDistinct (s.noted d).opened = true := distinct
      have line : d.lineRanges = [] := by
        simp [PlacedDirective.lineRanges, kind]
      rw [apply_of_enable s kind, closed_closeAll distinctNoted, line, List.nil_append]
      refine congrArg _ (congrArg _ ?_)
      cases listed : d.directive.rules with
      | nil =>
          have all : (s.opened.filter fun entry => d.Closes entry.1) = s.opened := by
            simp [PlacedDirective.Closes, kind, listed]
          have closing : s.closedBy d = s.opened.map (·.1) := by
            rw [closedBy, listed]
            rfl
          rw [all, closing, inListOrder_nil_names]
          exact flatMap_filter_keys (Table.nodup_keys distinct)
      | cons first rest =>
          have closing : s.closedBy d = first :: rest := by
            rw [closedBy, listed]
            rfl
          rw [closing, inListOrder_of_ne_nil (List.cons_ne_nil first rest)]
          refine List.flatMap_congr ?_
          intro rule named
          rw [List.mem_eraseDups] at named
          rw [List.filter_filter]
          refine List.filter_congr ?_
          intro entry _
          by_cases same : entry.1 = rule
          · simp [same, PlacedDirective.Closes, kind, listed, List.mem_cons.1 named]
          · simp [same]

end Ranges

/-!
### The whole list
-/

theorem rangesOf_concat (directives : List PlacedDirective) (d : PlacedDirective) :
    rangesOf (directives ++ [d]) = (rangesOf directives).apply d :=
  List.foldl_concat ..

theorem isDistinct_opened_rangesOf (directives : List PlacedDirective) :
    Table.isDistinct (rangesOf directives).opened = true :=
  Ranges.isDistinct_opened_foldl rfl

/-- A rule has no open range exactly when all that switched it off are followed by one that
switched it on. -/
theorem get?_opened_rangesOf_eq_none_iff {directives : List PlacedDirective} {rule : Text} :
    Table.get? rule (rangesOf directives).opened = none ↔ AllClosed directives rule := by
  induction directives using List.reverseRecOn with
  | nil => exact iff_of_true rfl (allClosed_nil rule)
  | append_singleton before d ih =>
      have distinct := isDistinct_opened_rangesOf before
      rw [rangesOf_concat, allClosed_concat]
      by_cases opens : d.Opens rule
      · simp [Ranges.get?_opened_apply_of_opens opens, opens]
      · by_cases closes : d.Closes rule
        · simp [Ranges.get?_opened_apply_of_closes distinct closes, opens, closes]
        · simp [Ranges.get?_opened_apply_of_neither distinct opens closes, opens, closes, ih]

theorem newTargets_rangesOf (directives : List PlacedDirective) (d : PlacedDirective) :
    (rangesOf directives).newTargets d = newlyOff directives d := by
  refine List.filter_congr ?_
  intro rule _
  exact decide_eq_decide.2 (and_congr_right fun _ => get?_opened_rangesOf_eq_none_iff)

/-- What the scan holds: the openings that stand, and the complete ranges, both in order. -/
theorem rangesOf_eq (directives : List PlacedDirective) :
    (rangesOf directives).opened = (standing directives).map (fun o => (o.rule, o.opener.line))
      ∧ (rangesOf directives).closed = completed directives := by
  induction directives using List.reverseRecOn with
  | nil => exact ⟨rfl, rfl⟩
  | append_singleton before d ih =>
      obtain ⟨opened, closed⟩ := ih
      have distinct := isDistinct_opened_rangesOf before
      rw [rangesOf_concat]
      constructor
      · rw [Ranges.opened_apply d distinct, newTargets_rangesOf, opened, standing_concat,
          List.map_append, List.filter_map, List.map_map]
        rfl
      · rw [Ranges.closed_apply d distinct, closed, opened, completed_concat, List.filter_map,
          inListOrder_map (fun o : Opening => (o.rule, o.opener.line)) (·.1) (fun _ => rfl),
          List.map_map]
        rfl

/-- An opening that stands is open to the end. -/
theorem range_of_mem_standing {directives : List PlacedDirective} {o : Opening}
    (member : o ∈ standing directives) :
    o.range directives = ⟨o.rule, o.opener.line, none⟩ := by
  have unclosed := of_decide_eq_true (List.mem_filter.1 member).2
  rw [Opening.range, unclosed]
  rfl

theorem disableRanges_eq (d : Document) :
    disableRanges d
      = completed d.directives ++ (standing d.directives).map (·.range d.directives) := by
  obtain ⟨opened, closed⟩ := rangesOf_eq d.directives
  rw [disableRanges, Ranges.all, opened, closed, List.map_map]
  refine congrArg _ (List.map_congr_left ?_)
  intro o member
  exact (range_of_mem_standing member).symm

/-!
### What the list holds
-/

theorem closes_of_mem_closedAt {directives : List PlacedDirective}
    {placed : PlacedDirective × Nat} {o : Opening} (member : o ∈ closedAt directives placed) :
    placed.1.Closes o.rule := by
  have found := of_decide_eq_true (List.mem_filter.1 member).2
  exact (closer?_spec found).2.2

/-- Every opening that has a closer is closed at one place. -/
theorem flatMap_closedAt_perm (directives : List PlacedDirective) :
    (directives.zipIdx.flatMap (closedAt directives)).Perm
      ((openings directives).filter fun o => ¬ o.closer? directives = none) := by
  have distinct : (directives.zipIdx.map some).Nodup := by
    refine List.Nodup.map (fun _ _ => Option.some.inj) ((places_apart directives).imp ?_)
    rintro first second apart rfl
    exact apart rfl
  have covered : ∀ o ∈ (openings directives).filter fun o => ¬ o.closer? directives = none,
      o.closer? directives ∈ directives.zipIdx.map some := by
    intro o member
    obtain ⟨placed, found⟩ :=
      Option.ne_none_iff_exists'.1 (of_decide_eq_true (List.mem_filter.1 member).2)
    rw [found]
    exact List.mem_map_of_mem (closer?_spec found).1
  refine (List.Perm.of_eq ?_).trans
    (flatMap_filter_perm (Opening.closer? directives) distinct covered)
  rw [List.flatMap_map]
  refine List.flatMap_congr ?_
  intro placed _
  rw [closedAt, List.filter_filter]
  refine List.filter_congr ?_
  intro o _
  cases o.closer? directives <;> simp

theorem completed_perm (directives : List PlacedDirective) :
    (completed directives).Perm
      (directives.flatMap PlacedDirective.lineRanges
        ++ ((openings directives).filter fun o => ¬ o.closer? directives = none).map
          (·.range directives)) := by
  have single : (directives.zipIdx.flatMap fun placed => placed.1.lineRanges)
      = directives.flatMap PlacedDirective.lineRanges := by
    rw [← List.flatMap_map Prod.fst, List.zipIdx_map_fst]
  have ordered : ∀ placed ∈ directives.zipIdx,
      ((inListOrder (·.rule) placed.1.directive.rules (closedAt directives placed)).map
          (·.range directives)).Perm
        ((closedAt directives placed).map (·.range directives)) := by
    intro placed _
    refine (inListOrder_perm ?_).map _
    by_cases listed : placed.1.directive.rules = []
    · exact Or.inl listed
    · exact Or.inr fun o member => (closes_of_mem_closedAt member).2.resolve_right listed
  refine (List.flatMap_append_perm _ _ _).symm.trans ?_
  rw [single]
  refine List.Perm.append_left _ ((List.Perm.flatMap_left _ ordered).trans ?_)
  rw [← List.map_flatMap]
  exact (flatMap_closedAt_perm directives).map _

theorem stop_of_mem_completed {directives : List PlacedDirective} {range : DisableRange}
    (member : range ∈ completed directives) : range.stop ≠ none := by
  have known := (completed_perm directives).mem_iff.1 member
  rcases List.mem_append.1 known with single | ended
  · obtain ⟨d, _, listed⟩ := List.mem_flatMap.1 single
    unfold PlacedDirective.lineRanges at listed
    cases kind : d.directive.kind with
    | disableLine =>
        rw [kind] at listed
        obtain ⟨_, _, rfl⟩ := List.mem_map.1 listed
        exact Option.some_ne_none _
    | disableNextLine =>
        rw [kind] at listed
        obtain ⟨_, _, rfl⟩ := List.mem_map.1 listed
        exact Option.some_ne_none _
    | disable =>
        rw [kind] at listed
        cases listed
    | enable =>
        rw [kind] at listed
        cases listed
  · obtain ⟨o, kept, rfl⟩ := List.mem_map.1 ended
    have closed := of_decide_eq_true (List.mem_filter.1 kept).2
    simpa [Opening.range] using closed

/-- The open ranges of a document are those of the openings that stand. -/
theorem filter_stop_disableRanges (d : Document) :
    ((disableRanges d).filter fun range => range.stop = none)
      = (standing d.directives).map (·.range d.directives) := by
  have closed : ((completed d.directives).filter fun range => range.stop = none) = [] := by
    refine List.filter_eq_nil_iff.2 ?_
    intro range member
    simpa using stop_of_mem_completed member
  rw [disableRanges_eq, List.filter_append, closed, List.nil_append, List.filter_eq_self]
  intro range member
  obtain ⟨o, stands, rfl⟩ := List.mem_map.1 member
  rw [range_of_mem_standing stands]
  rfl

/-- The ranges of a document, whatever the lines of its comments.  They come in the order of
the directives that complete them, and the open ones last, as they were opened; together they
are the one-line ranges and one range for each opening, which runs to the line of its closer.
No rule has two open ranges. -/
theorem disableRanges_exact (d : Document) :
    disableRanges d
        = completed d.directives ++ (standing d.directives).map (·.range d.directives)
      ∧ (disableRanges d).Perm
          (d.directives.flatMap PlacedDirective.lineRanges
            ++ (openings d.directives).map (·.range d.directives))
      ∧ (openings d.directives).Nodup
      ∧ (∀ o, o ∈ openings d.directives ↔ o.IsIn d.directives)
      ∧ (((disableRanges d).filter fun range => range.stop = none).map (·.rule)).Nodup := by
  refine ⟨disableRanges_eq d, ?_, nodup_openings d.directives, fun _ => mem_openings_iff, ?_⟩
  · rw [disableRanges_eq]
    refine ((completed_perm d.directives).append_right _).trans ?_
    rw [List.append_assoc, ← List.map_append]
    refine List.Perm.append_left _ (List.Perm.map _ ?_)
    unfold standing
    simp only [decide_not]
    exact List.perm_append_comm.trans
      (List.filter_append_perm (fun o : Opening => o.closer? d.directives = none) _)
  · have distinct := Table.nodup_keys (isDistinct_opened_rangesOf d.directives)
    rw [Table.keys, (rangesOf_eq d.directives).1, List.map_map] at distinct
    rw [filter_stop_disableRanges, List.map_map]
    exact distinct

end StyleAudit
