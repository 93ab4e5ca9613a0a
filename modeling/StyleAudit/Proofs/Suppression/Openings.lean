/-
Module: StyleAudit.Proofs.Suppression.Openings
Purpose: Which directives begin a range, which ones end it, and in which order the ranges are
  complete; and what one more directive changes in that.
Trusted boundary: none
Main exports: AllClosed, Opening, Opening.IsIn, Opening.closer?, Opening.range, openings,
  standing, completed, mem_openings_iff, standing_concat, completed_concat
-/
import Mathlib.Data.List.Nodup
import StyleAudit.Proofs.Sequence
import StyleAudit.Proofs.Suppression.Reading

namespace StyleAudit

namespace PlacedDirective

instance (d : PlacedDirective) (rule : Text) : Decidable (d.Opens rule) :=
  inferInstanceAs (Decidable (_ ∧ _))

instance (d : PlacedDirective) (rule : Text) : Decidable (d.Closes rule) :=
  inferInstanceAs (Decidable (_ ∧ _))

/-- The one-line ranges that a directive gives by itself, one for each of its targets. -/
def lineRanges (d : PlacedDirective) : List DisableRange :=
  match d.directive.kind with
  | .disableLine => d.directive.targets.map fun rule => ⟨rule, d.line, some d.line⟩
  | .disableNextLine =>
      d.directive.targets.map fun rule => ⟨rule, d.line + 1, some (d.line + 1)⟩
  | .disable => []
  | .enable => []

end PlacedDirective

/-!
### Openings

A directive begins a range for a rule when it switches the rule off and no directive before it
has done so without being undone.  Directives are told apart by their places, since one may
stand twice in a document, on one line.
-/

/-- Every directive that switches the rule off is followed by one that switches it on. -/
def AllClosed (directives : List PlacedDirective) (rule : Text) : Prop :=
  ∀ before opener after, directives = before ++ opener :: after → opener.Opens rule →
    ∃ closer ∈ after, closer.Closes rule

/-- A directive that begins a range, its place among the directives, and the rule. -/
structure Opening where
  opener : PlacedDirective
  place : Nat
  rule : Text
deriving DecidableEq, Repr

/-- The opener stands at the place and switches the rule off, and of the directives before it
every one that does so too is followed by one that switches the rule on. -/
def Opening.IsIn (o : Opening) (directives : List PlacedDirective) : Prop :=
  ∃ before after, directives = before ++ o.opener :: after ∧ before.length = o.place
    ∧ o.opener.Opens o.rule ∧ AllClosed before o.rule

/-- The first directive behind the opener, with its place, that switches the rule on. -/
def Opening.closer? (directives : List PlacedDirective) (o : Opening) :
    Option (PlacedDirective × Nat) :=
  directives.zipIdx.find? fun later => o.place < later.2 ∧ later.1.Closes o.rule

/-- The range that an opening begins: to the line of its closer, or open when it has none. -/
def Opening.range (directives : List PlacedDirective) (o : Opening) : DisableRange :=
  ⟨o.rule, o.opener.line, (o.closer? directives).map (·.1.line)⟩

theorem allClosed_nil (rule : Text) : AllClosed [] rule := by
  intro before opener after split
  simp at split

theorem allClosed_cons {d : PlacedDirective} {rest : List PlacedDirective} {rule : Text} :
    AllClosed (d :: rest) rule ↔
      (d.Opens rule → ∃ closer ∈ rest, closer.Closes rule) ∧ AllClosed rest rule := by
  constructor
  · intro closed
    refine ⟨closed [] d rest rfl, ?_⟩
    intro before opener after split
    exact closed (d :: before) opener after (by rw [split, List.cons_append])
  · rintro ⟨first, closed⟩ before opener after split opens
    cases before with
    | nil =>
        cases split
        exact first opens
    | cons _ others =>
        rw [List.cons_append, List.cons.injEq] at split
        exact closed others opener after split.2 opens

/-- Behind one more directive all are closed when it does not switch the rule off, and either
switches it on or finds all closed. -/
theorem allClosed_concat {before : List PlacedDirective} {d : PlacedDirective} {rule : Text} :
    AllClosed (before ++ [d]) rule ↔
      ¬ d.Opens rule ∧ (d.Closes rule ∨ AllClosed before rule) := by
  induction before with
  | nil =>
      rw [List.nil_append, allClosed_cons]
      simp [allClosed_nil]
  | cons first rest ih =>
      rw [List.cons_append, allClosed_cons, allClosed_cons, ih]
      simp only [List.mem_append, List.mem_singleton]
      grind

instance decidableAllClosed (rule : Text) :
    ∀ directives : List PlacedDirective, Decidable (AllClosed directives rule)
  | [] => isTrue (allClosed_nil rule)
  | _ :: rest =>
      let _ := decidableAllClosed rule rest
      decidable_of_iff _ allClosed_cons.symm

/-- The rules for which a directive behind others begins a range, in the order of its list. -/
def newlyOff (before : List PlacedDirective) (d : PlacedDirective) : List Text :=
  d.directive.targets.eraseDups.filter fun rule => d.Opens rule ∧ AllClosed before rule

/-- The openings of a list of directives: in its order, those of one directive in the order of
its own list. -/
def openings (directives : List PlacedDirective) : List Opening :=
  directives.zipIdx.flatMap fun placed =>
    (newlyOff (directives.take placed.2) placed.1).map fun rule => ⟨placed.1, placed.2, rule⟩

/-- The openings that no later directive closes. -/
def standing (directives : List PlacedDirective) : List Opening :=
  (openings directives).filter fun o => o.closer? directives = none

/-- The openings that the directive at a place closes. -/
def closedAt (directives : List PlacedDirective) (placed : PlacedDirective × Nat) :
    List Opening :=
  (openings directives).filter fun o => o.closer? directives = some placed

/-- The ranges that are complete with the directive at a place: its one-line ranges, and those
that it closes, in the order of its list, or as they were opened when it lists nothing. -/
def completedAt (directives : List PlacedDirective) (placed : PlacedDirective × Nat) :
    List DisableRange :=
  placed.1.lineRanges
    ++ (inListOrder (·.rule) placed.1.directive.rules (closedAt directives placed)).map
      (·.range directives)

/-- The ranges that are complete, in the order of the directives that complete them. -/
def completed (directives : List PlacedDirective) : List DisableRange :=
  directives.zipIdx.flatMap (completedAt directives)

/-!
### Which openings there are
-/

theorem mem_newlyOff_iff {before : List PlacedDirective} {d : PlacedDirective} {rule : Text} :
    rule ∈ newlyOff before d ↔ d.Opens rule ∧ AllClosed before rule := by
  unfold newlyOff
  rw [List.mem_filter, List.mem_eraseDups, decide_eq_true_eq, and_iff_right_iff_imp]
  rintro ⟨opens, _⟩
  exact opens.2

theorem mem_openings_iff {directives : List PlacedDirective} {o : Opening} :
    o ∈ openings directives ↔ o.IsIn directives := by
  obtain ⟨opener, place, rule⟩ := o
  unfold openings
  rw [List.mem_flatMap]
  constructor
  · rintro ⟨⟨d, i⟩, member, listed⟩
    obtain ⟨_, named, same⟩ := List.mem_map.1 listed
    cases same
    obtain ⟨inside, stands⟩ := List.mem_zipIdx' member
    obtain ⟨opens, closed⟩ := mem_newlyOff_iff.1 named
    refine ⟨directives.take i, directives.drop (i + 1), ?_, ?_, opens, closed⟩
    · rw [stands, ← List.drop_eq_getElem_cons inside, List.take_append_drop]
    · exact List.length_take_of_le (Nat.le_of_lt inside)
  · rintro ⟨before, after, split, rfl, opens, closed⟩
    subst split
    refine ⟨(opener, before.length), ?_, ?_⟩
    · simp [List.mem_zipIdx_iff_getElem?]
    · simpa using mem_newlyOff_iff.2 ⟨opens, closed⟩

theorem places_apart (directives : List PlacedDirective) :
    directives.zipIdx.Pairwise fun first second => first.2 ≠ second.2 := by
  have distinct : (directives.zipIdx.map Prod.snd).Nodup := by
    rw [List.zipIdx_map_snd]
    exact List.nodup_range'
  exact List.pairwise_map.1 distinct

theorem nodup_openings (directives : List PlacedDirective) : (openings directives).Nodup := by
  unfold openings
  rw [List.nodup_flatMap]
  constructor
  · intro placed _
    have distinct := (nodup_eraseDups placed.1.directive.targets).filter
      fun rule => decide (placed.1.Opens rule ∧ AllClosed (directives.take placed.2) rule)
    refine distinct.map ?_
    intro first second same
    exact congrArg Opening.rule same
  · refine (places_apart directives).imp ?_
    intro first second apart o inFirst inSecond
    obtain ⟨_, _, rfl⟩ := List.mem_map.1 inFirst
    obtain ⟨_, _, same⟩ := List.mem_map.1 inSecond
    exact apart (congrArg Opening.place same).symm

/-!
### One more directive
-/

section Concat

variable {directives : List PlacedDirective} {d : PlacedDirective}

theorem place_lt_of_mem_openings {o : Opening} (member : o ∈ openings directives) :
    o.place < directives.length := by
  obtain ⟨before, after, split, same, _⟩ := mem_openings_iff.1 member
  rw [split, ← same, List.length_append, List.length_cons]
  omega

theorem openings_concat :
    openings (directives ++ [d])
      = openings directives
        ++ (newlyOff directives d).map fun rule => ⟨d, directives.length, rule⟩ := by
  unfold openings
  rw [List.zipIdx_append, List.flatMap_append]
  refine congr (congrArg _ (List.flatMap_congr ?_)) ?_
  · rintro ⟨p, i⟩ member
    have inside := (List.mem_zipIdx' member).1
    rw [List.take_append_of_le_length (Nat.le_of_lt inside)]
  · simp

theorem closer?_concat {o : Opening} (member : o ∈ openings directives) :
    o.closer? (directives ++ [d])
      = (o.closer? directives).or
          (if d.Closes o.rule then some (d, directives.length) else none) := by
  have inside := place_lt_of_mem_openings member
  unfold Opening.closer?
  rw [List.zipIdx_append, List.find?_append]
  refine congrArg _ ?_
  by_cases closes : d.Closes o.rule
  · simp [closes, inside]
  · simp [closes]

/-- What closes an opening stands among the directives, behind the opener, and switches the
rule on. -/
theorem closer?_spec {o : Opening} {placed : PlacedDirective × Nat}
    (closed : o.closer? directives = some placed) :
    placed ∈ directives.zipIdx ∧ o.place < placed.2 ∧ placed.1.Closes o.rule := by
  unfold Opening.closer? at closed
  have met := List.find?_some closed
  exact ⟨List.mem_of_find?_eq_some closed, of_decide_eq_true met⟩

/-- Nothing closes an opening of the last directive. -/
theorem closer?_concat_last (rule : Text) :
    Opening.closer? (directives ++ [d]) ⟨d, directives.length, rule⟩ = none := by
  refine List.find?_eq_none.2 ?_
  rintro ⟨later, i⟩ member
  have inside := (List.mem_zipIdx' member).1
  rw [List.length_append, List.length_singleton] at inside
  simp only [decide_eq_true_eq]
  omega

/-- Openings are picked by their closers; those of the last directive have none. -/
theorem filter_openings_concat (keep : Option (PlacedDirective × Nat) → Bool) :
    (openings (directives ++ [d])).filter (fun o => keep (o.closer? (directives ++ [d])))
      = (openings directives).filter (fun o =>
            keep ((o.closer? directives).or
              (if d.Closes o.rule then some (d, directives.length) else none)))
        ++ if keep none then (newlyOff directives d).map fun rule => ⟨d, directives.length, rule⟩
          else [] := by
  rw [openings_concat, List.filter_append]
  refine congr (congrArg _ (List.filter_congr ?_)) ?_
  · intro o member
    rw [closer?_concat member]
  · rw [List.filter_map, Function.comp_def]
    simp only [closer?_concat_last]
    cases keep none <;> simp

theorem standing_concat :
    standing (directives ++ [d])
      = (standing directives).filter (fun o => ¬ d.Closes o.rule)
        ++ (newlyOff directives d).map fun rule => ⟨d, directives.length, rule⟩ := by
  unfold standing
  rw [filter_openings_concat fun closer => decide (closer = none), List.filter_filter]
  refine congr (congrArg _ (List.filter_congr ?_)) rfl
  intro o _
  by_cases closes : d.Closes o.rule <;> simp [closes]

/-- One more directive does not change what those before it close. -/
theorem closedAt_concat {placed : PlacedDirective × Nat}
    (earlier : placed.2 < directives.length) :
    closedAt (directives ++ [d]) placed = closedAt directives placed := by
  have apart : (d, directives.length) ≠ placed := by
    rintro rfl
    exact Nat.lt_irrefl _ earlier
  unfold closedAt
  rw [filter_openings_concat fun closer => decide (closer = some placed)]
  refine (List.append_nil _).trans (List.filter_congr ?_)
  intro o _
  cases o.closer? directives with
  | some closer => simp
  | none => by_cases closes : d.Closes o.rule <;> simp [closes, apart]

/-- The last directive closes, of the openings that stand, those of its rules. -/
theorem closedAt_concat_last :
    closedAt (directives ++ [d]) (d, directives.length)
      = (standing directives).filter fun o => d.Closes o.rule := by
  unfold closedAt standing
  rw [filter_openings_concat fun closer => decide (closer = some (d, directives.length)),
    List.filter_filter]
  refine (List.append_nil _).trans (List.filter_congr ?_)
  intro o _
  cases found : o.closer? directives with
  | some placed =>
      have apart : placed ≠ (d, directives.length) := by
        rintro rfl
        exact Nat.lt_irrefl _ (List.mem_zipIdx' (closer?_spec found).1).1
      simp [apart]
  | none => by_cases closes : d.Closes o.rule <;> simp [closes]

/-- The range of an opening that is closed does not change with what follows. -/
theorem range_concat_of_mem_closedAt {o : Opening} {placed : PlacedDirective × Nat}
    (member : o ∈ closedAt directives placed) :
    o.range (directives ++ [d]) = o.range directives := by
  obtain ⟨inside, closed⟩ := List.mem_filter.1 member
  have found := of_decide_eq_true closed
  unfold Opening.range
  rw [closer?_concat inside, found]
  rfl

/-- The ranges that one more directive completes. -/
theorem completed_concat :
    completed (directives ++ [d])
      = completed directives
        ++ (d.lineRanges
          ++ (inListOrder (·.rule) d.directive.rules
              ((standing directives).filter fun o => d.Closes o.rule)).map
            fun o => ⟨o.rule, o.opener.line, some d.line⟩) := by
  unfold completed
  rw [List.zipIdx_append, List.flatMap_append]
  refine congr (congrArg _ (List.flatMap_congr ?_)) ?_
  · intro placed member
    have inside : placed.2 < directives.length := (List.mem_zipIdx' member).1
    unfold completedAt
    rw [closedAt_concat inside]
    refine congrArg _ (List.map_congr_left ?_)
    intro o listed
    exact range_concat_of_mem_closedAt (mem_of_mem_inListOrder listed)
  · rw [List.zipIdx_singleton, List.flatMap_singleton, Nat.zero_add]
    unfold completedAt
    rw [closedAt_concat_last]
    refine congrArg _ (List.map_congr_left ?_)
    intro o listed
    obtain ⟨stands, closes⟩ := List.mem_filter.1 (mem_of_mem_inListOrder listed)
    obtain ⟨inside, unclosed⟩ := List.mem_filter.1 stands
    unfold Opening.range
    rw [closer?_concat inside, of_decide_eq_true unclosed, if_pos (of_decide_eq_true closes)]
    rfl

end Concat

end StyleAudit
