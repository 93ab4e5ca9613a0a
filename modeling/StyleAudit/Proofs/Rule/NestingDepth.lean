/-
Module: StyleAudit.Proofs.Rule.NestingDepth
Purpose: What the rule against deep nesting reports: the levels with more levels around them than
  the limit allows, or else the option that it cannot use.
Trusted boundary: none
Main exports: NestingDepth.IsStripped, NestingDepth.CountsAsLevel, Occurrence.IsTooDeep,
  NestingDepth.ListsAtRules, NestingDepth.IsUnusable, nesting_reports
-/
import StyleAudit.Proofs.Rule.BlockVisits
import StyleAudit.Proofs.Rule.Reports
import Mathlib

namespace StyleAudit

/-- No root stands below the top of the document. -/
def Document.HasNoInnerRoot (d : Document) : Prop :=
  ∀ inner ∈ d.walk, inner.isRoot = false

theorem Document.HasNoInnerRoot.hidesNoBlock {d : Document} (noRoot : d.HasNoInnerRoot) :
    d.HidesNoBlock := by
  intro inner walked root
  rw [noRoot inner walked] at root
  cases root

namespace NestingDepth

/-!
### Levels

A level is a rule, or an at-rule that is not ignored.  An at-rule is ignored when its name is
listed, and a listed name may be written with at-signs before it.
-/

/-- A listed name is written with some at-signs, perhaps none, before the name. -/
def IsStripped (written atName : Text) : Prop :=
  ∃ signs, written.points = List.replicate signs (.char '@') ++ atName.points
    ∧ atName.points.head? ≠ some (.char '@')

/-- The node is a level where these names are listed. -/
inductive CountsAsLevel (listed : List Text) : Node → Prop where
  | rule {p : Position} {selector : Text} {children : List Node} :
      CountsAsLevel listed (.rule p selector children)
  | atRule {p : Position} {atName params : Text} {children : List Node}
      (unlisted : ∀ written ∈ listed, ¬ IsStripped written atName) :
      CountsAsLevel listed (.atRule p atName params children)

theorem withoutAtSigns_eq_iff {written atName : Text} :
    withoutAtSigns written = atName ↔ IsStripped written atName := by
  obtain ⟨points⟩ := written
  obtain ⟨behind⟩ := atName
  rw [withoutAtSigns, Text.mk.injEq, IsStripped]
  constructor
  · rintro rfl
    refine ⟨(points.takeWhile (· == .char '@')).length, ?_, ?_⟩
    · have signs : points.takeWhile (· == .char '@')
          = List.replicate (points.takeWhile (· == .char '@')).length (.char '@') :=
        List.eq_replicate_iff.2 ⟨rfl, fun point member => by
          simpa using List.mem_takeWhile_imp member⟩
      rw [← signs, List.takeWhile_append_dropWhile]
    · intro first
      have passed := List.head?_dropWhile_not (· == CodePoint.char '@') points
      rw [first] at passed
      cases passed
  · rintro ⟨signs, rfl, bare⟩
    have all : ∀ point ∈ List.replicate signs (CodePoint.char '@'), (point == .char '@') = true :=
      fun point member => beq_iff_eq.2 (List.eq_of_mem_replicate member)
    rw [List.dropWhile_append_of_pos all]
    cases behind with
    | nil => rfl
    | cons point rest =>
        refine List.dropWhile_cons_of_neg ?_
        rw [List.head?_cons, ne_eq, Option.some.injEq] at bare
        rwa [beq_iff_eq]

/-- The levels that the search counts are those where the names are listed as given. -/
theorem isLevel_iff {listed : List Text} {node : Node} :
    isLevel (listed.map withoutAtSigns) node = true ↔ CountsAsLevel listed node := by
  cases node with
  | rule p selector children => exact iff_of_true rfl .rule
  | atRule p atName params children =>
      have isListed :
          isIgnored (listed.map withoutAtSigns) (.atRule p atName params children) = true
            ↔ ∃ written ∈ listed, IsStripped written atName := by
        simp only [isIgnored, List.contains_iff_mem, List.mem_map, withoutAtSigns_eq_iff]
      rw [isLevel, Bool.and_eq_true, Bool.not_eq_true', ← Bool.not_eq_true, isListed]
      push Not
      constructor
      · rintro ⟨_, unlisted⟩
        exact .atRule unlisted
      · intro level
        cases level with
        | atRule unlisted => exact ⟨rfl, unlisted⟩
  | _ => exact iff_of_false Bool.false_ne_true (by rintro ⟨⟩)

instance (listed : List Text) (node : Node) : Decidable (CountsAsLevel listed node) :=
  decidable_of_iff _ isLevel_iff

end NestingDepth

open NestingDepth in
/-- The node is a level that stands in more levels than the limit allows. -/
structure Occurrence.IsTooDeep (limit : Nat) (listed : List Text) (occurrence : Occurrence) :
    Prop where
  level : CountsAsLevel listed occurrence.node
  deeper : limit < occurrence.around.countP fun inner => CountsAsLevel listed inner

namespace NestingDepth

theorem isTooDeep_iff {limit : Nat} {listed : List Text} {occurrence : Occurrence} :
    occurrence.IsTooDeep limit listed
      ↔ CountsAsLevel listed occurrence.node
        ∧ limit < levelsAround (listed.map withoutAtSigns) occurrence := by
  have counted : levelsAround (listed.map withoutAtSigns) occurrence
      = occurrence.around.countP fun inner => CountsAsLevel listed inner :=
    List.countP_congr fun inner _ => by rw [isLevel_iff, decide_eq_true_iff]
  rw [counted]
  constructor
  · rintro ⟨level, deeper⟩
    exact ⟨level, deeper⟩
  · rintro ⟨level, deeper⟩
    exact ⟨level, deeper⟩

instance (limit : Nat) (listed : List Text) (occurrence : Occurrence) :
    Decidable (occurrence.IsTooDeep limit listed) :=
  decidable_of_iff _ isTooDeep_iff.symm

/-!
### Options
-/

/-- The second option lists these values: it is absent, or a mapping whose list is absent or
given. -/
inductive ListsAtRules : Value → List Value → Prop where
  | null : ListsAtRules .null []
  | absent {fields : Mapping} (missing : fields.find? "ignore_at_rules" = none) :
      ListsAtRules (.map fields) []
  | given {fields : Mapping} {items : List Value}
      (found : fields.find? "ignore_at_rules" = some (.seq items)) :
      ListsAtRules (.map fields) items

/-- Two options cannot be used: the name of the option that is to blame, and the value that is
shown for it. -/
inductive IsUnusable : Value → Value → String → Value → Prop where
  | limit {primary secondary : Value} (other : ∀ limit : Nat, primary ≠ .int limit) :
      IsUnusable primary secondary "primary" primary
  | noMapping {limit : Nat} {secondary : Value} (given : secondary ≠ .null)
      (other : ∀ fields, secondary ≠ .map fields) :
      IsUnusable (.int limit) secondary "ignore_at_rules" .null
  | noList {limit : Nat} {fields : Mapping} {v : Value}
      (found : fields.find? "ignore_at_rules" = some v) (other : ∀ items, v ≠ .seq items) :
      IsUnusable (.int limit) (.map fields) "ignore_at_rules" v

theorem options_of_list {secondary : Value} (given : secondary ≠ .null) {items : List Value}
    (field : ignoredField secondary = .seq items) (limit : Nat) :
    options (.int limit) secondary
      = .ok ⟨limit, (items.map Value.display).map withoutAtSigns⟩ := by
  have notNegative : ¬ (limit : Int) < 0 := by omega
  rw [options, if_neg notNegative]
  · rw [field, List.map_map]
    rfl
  · exact given

theorem options_of_no_list {secondary : Value} (given : secondary ≠ .null)
    (other : ∀ items, ignoredField secondary ≠ .seq items) (limit : Nat) :
    options (.int limit) secondary
      = .error (.invalidOption name ignoreOption (ignoredField secondary)) := by
  have notNegative : ¬ (limit : Int) < 0 := by omega
  rw [options, if_neg notNegative]
  · cases field : ignoredField secondary with
    | seq items => exact absurd field (other items)
    | _ => rfl
  · exact given

theorem ignoredField_of_lists {secondary : Value} {items : List Value}
    (lists : ListsAtRules secondary items) (given : secondary ≠ .null) :
    ignoredField secondary = .seq items := by
  cases lists with
  | null => exact absurd rfl given
  | absent missing =>
      rw [ignoredField, ignoreOption, missing]
      rfl
  | given found =>
      rw [ignoredField, ignoreOption, found]
      rfl

theorem options_of_lists {secondary : Value} {items : List Value}
    (lists : ListsAtRules secondary items) (limit : Nat) :
    options (.int limit) secondary
      = .ok ⟨limit, (items.map Value.display).map withoutAtSigns⟩ := by
  by_cases given : secondary = .null
  · subst given
    cases lists
    rfl
  · exact options_of_list given (ignoredField_of_lists lists given) limit

theorem areWritable_seq (items : List Value) :
    (Value.seq items).isWritable = items.all Value.isWritable := by
  rw [Value.isWritable]
  induction items with
  | nil => rfl
  | cons v rest ih => rw [StyleAudit.areWritable, ih, List.all_cons]

/-- Usable options can be written when the listed values can. -/
theorem areWritable_of_lists {secondary : Value} {items : List Value}
    (lists : ListsAtRules secondary items) (limit : Nat)
    (writable : ∀ item ∈ items, item.isWritable = true) :
    areWritable (.int limit) secondary = true := by
  simp only [areWritable, options_of_lists lists limit]
  by_cases given : secondary = .null
  · rw [given]
    rfl
  · rw [ignoredField_of_lists lists given, areWritable_seq]
    exact List.all_eq_true.2 writable

theorem options_of_unusable {primary secondary v : Value} {option : String}
    (unusable : IsUnusable primary secondary option v) :
    options primary secondary = .error (.invalidOption name option v) := by
  cases unusable with
  | limit other =>
      unfold options
      split
      · rename_i limit
        rw [if_pos]
        by_contra notNegative
        exact other limit.toNat (by rw [Int.toNat_of_nonneg (by omega)])
      · rfl
  | @noMapping limit secondary given other =>
      have field : ignoredField secondary = .null := by
        cases secondary with
        | map fields => exact absurd rfl (other fields)
        | _ => rfl
      rw [options_of_no_list given (by rw [field]; rintro _ ⟨⟩), field]
      rfl
  | @noList limit fields v found other =>
      have field : ignoredField (.map fields) = v := by
        rw [ignoredField, ignoreOption, found]
        rfl
      rw [options_of_no_list (by rintro ⟨⟩) (by rwa [field]), field]
      rfl

/-!
### Reports
-/

/-- The diagnostic about a node that is too deep. -/
def tooDeep (severity : Severity) (limit : Nat) (node : Node) : Diagnostic :=
  ⟨name, severity,
    "Expected nesting depth to be no more than " ++ toString limit ++ " (" ++ name ++ ")",
    node.position⟩

theorem flatMap_ite_singleton {α β : Type} (p : α → Prop) [DecidablePred p] (f : α → β)
    (items : List α) :
    (items.flatMap fun a => if p a then [f a] else []) = (items.filter p).map f := by
  induction items with
  | nil => rfl
  | cons a rest ih =>
      rw [List.flatMap_cons, ih]
      by_cases holds : p a <;> simp [holds]

/-- What the search finds at a block: the block, if it is too deep. -/
theorem findingAt_eq {occurrence : Occurrence} (block : occurrence.node.isBlock = true)
    (limit : Nat) (listed : List Text) :
    findingAt ⟨limit, listed.map withoutAtSigns⟩
        (levelsAround (listed.map withoutAtSigns) occurrence) occurrence.node
      = if occurrence.IsTooDeep limit listed then [finding limit occurrence.node] else [] := by
  have level : (!isIgnored (listed.map withoutAtSigns) occurrence.node) = true
      ↔ CountsAsLevel listed occurrence.node := by
    rw [← isLevel_iff, isLevel, block, Bool.true_and]
  simp only [findingAt, isTooDeep_iff, ← level, Bool.and_eq_true, decide_eq_true_eq, Nat.cast_lt]

theorem CountsAsLevel.isBlock {listed : List Text} {node : Node}
    (level : CountsAsLevel listed node) : node.isBlock = true := by
  cases level <;> rfl

/-- Where no root stands below the top, the search finds the levels that are too deep. -/
theorem findingsAmong_eq_filter {d : Document} (noRoot : d.HasNoInnerRoot) (limit : Nat)
    (listed : List Text) :
    findingsAmong ⟨limit, listed.map withoutAtSigns⟩ 0 d.children
      = (d.occurrences.filter (·.IsTooDeep limit listed)).map fun occurrence =>
          finding limit occurrence.node := by
  have amongBlocks := Document.hidesNoBlock_iff.1 noRoot.hidesNoBlock
  rw [findingsAmong_eq_flatMap]
  show (visits _ d).flatMap _ = _
  rw [visits_eq, List.flatMap_map]
  calc _ = (d.occurrences.filter Occurrence.isAmongBlocks).flatMap fun occurrence =>
          if occurrence.IsTooDeep limit listed then [finding limit occurrence.node] else [] :=
        List.flatMap_congr fun occurrence member =>
          findingAt_eq (isBlock_of_isAmongBlocks (List.mem_filter.1 member).2) limit listed
    _ = _ := ?_
  rw [flatMap_ite_singleton, List.filter_filter]
  refine congrArg _ (List.filter_congr fun occurrence member => ?_)
  by_cases deep : occurrence.IsTooDeep limit listed
  · rw [decide_eq_true deep, Bool.true_and]
    exact amongBlocks occurrence member deep.level.isBlock
  · rw [decide_eq_false deep, Bool.false_and]

section Records

variable {d : Document} {r : Recorder} {primary secondary v : Value} {option : String}

theorem records_of_lists {limit : Nat} {items : List Value} {severity : Severity}
    (lists : ListsAtRules secondary items) (writable : ∀ item ∈ items, item.isWritable = true)
    (noRoot : d.HasNoInnerRoot) (hears : r.Hears name severity) :
    rule.Records (.int limit) secondary d r
      ((d.occurrences.filter (·.IsTooDeep limit (items.map Value.display))).map
        fun occurrence => tooDeep severity limit occurrence.node) := by
  have examined : findings (.int limit) secondary d
      = (d.occurrences.filter (·.IsTooDeep limit (items.map Value.display))).map
          fun occurrence => finding limit occurrence.node := by
    rw [findings, options_of_lists lists limit]
    exact findingsAmong_eq_filter noRoot limit _
  have own : ∀ found ∈ findings (.int limit) secondary d, found.rule = name :=
    fun found member => rule_of_mem_findings member
  rw [examined] at own
  have bound : rule.bind (.int limit) secondary = .ok fun d =>
      if areWritable (.int limit) secondary then .found (findings (.int limit) secondary d)
      else ⟨[], some .unusable⟩ := rfl
  have records := records_of_own bound
    (by rw [if_pos (areWritable_of_lists lists limit writable), examined]) own hears
  rw [List.map_map] at records
  exact records

theorem areWritable_of_unusable (unusable : IsUnusable primary secondary option v) :
    areWritable primary secondary = v.isWritable := by
  rw [areWritable, options_of_unusable unusable]

theorem records_of_unusable (unusable : IsUnusable primary secondary option v)
    (writable : v.isWritable = true) :
    rule.Records primary secondary d r [Recorder.invalidOption name option v] := by
  have told : areWritable primary secondary = true :=
    (areWritable_of_unusable unusable).trans writable
  have examined : findings primary secondary d = [.invalidOption name option v] := by
    rw [findings, options_of_unusable unusable]
  refine ⟨_, rfl, ?_, ?_⟩
  · rw [if_pos told]
    rfl
  · rw [if_pos told, examined]
    rfl

theorem examine_of_unwritable (unusable : IsUnusable primary secondary option v)
    (unwritable : v.isWritable = false) :
    ∃ examine, rule.bind primary secondary = .ok examine ∧ examine d = ⟨[], some .unusable⟩ := by
  refine ⟨_, rfl, if_neg ?_⟩
  rw [areWritable_of_unusable unusable, unwritable]
  exact Bool.false_ne_true

end Records

/-- Under a limit and a list of at-rules, the rule reports in source order the levels of a
document with more levels around them than the limit allows, as far as no root stands below its
top.  Options that cannot be used are told in a single diagnostic about the option to blame, and
nothing else is; where the value to be told has no text, the rule fails instead. -/
theorem nesting_reports (d : Document) (r : Recorder) :
    d.occurrences.map Occurrence.node = d.walk
      ∧ (∀ (limit : Nat) (secondary : Value) (items : List Value) (severity : Severity),
          ListsAtRules secondary items → (∀ item ∈ items, item.isWritable = true) →
          d.HasNoInnerRoot → r.Hears name severity →
            rule.Records (.int limit) secondary d r
              ((d.occurrences.filter (·.IsTooDeep limit (items.map Value.display))).map
                fun occurrence => tooDeep severity limit occurrence.node))
      ∧ ∀ (primary secondary v : Value) (option : String),
          IsUnusable primary secondary option v →
            (v.isWritable = true →
              rule.Records primary secondary d r [Recorder.invalidOption name option v])
            ∧ (v.isWritable = false →
              ∃ examine, rule.bind primary secondary = .ok examine
                ∧ examine d = ⟨[], some .unusable⟩) := by
  refine ⟨d.map_node_occurrences, ?_, ?_⟩
  · intro limit secondary items severity lists writable noRoot hears
    exact records_of_lists lists writable noRoot hears
  · intro primary secondary v option unusable
    exact ⟨records_of_unusable unusable, examine_of_unwritable unusable⟩

/-!
Of three blocks in each other the outermost is an ignored at-rule, so with a limit of zero only
the innermost is too deep.  A limit that is no number is told, and one with too many digits to be
told makes the rule fail.
-/

/-- Two rules in each other in an at-rule. -/
def mediaDocument : Document :=
  ⟨Position.origin, .null, [.atRule ⟨1, 1⟩ "media" "print"
    [.rule ⟨2, 1⟩ "a" [.rule ⟨3, 1⟩ "b" []]]]⟩

/-- A second option that lists the at-rule. -/
def mediaOption : Value := .map [(.str "ignore_at_rules", .seq [.str "@media"])]

/-- A record of a run in which the rule reports errors. -/
def nestingRecord : Recorder := ⟨[(.str name, .error)], false, [], []⟩

theorem hears_nestingRecord : nestingRecord.Hears name .error where
  active := rfl
  on := by decide
  matters := by rintro ⟨⟩
  unsuppressed _ := rfl

theorem nesting_reports_media :
    rule.Records (.int 0) mediaOption mediaDocument nestingRecord
        [tooDeep .error 0 (.rule ⟨3, 1⟩ "b" [])]
      ∧ rule.Records (.bool true) .null mediaDocument nestingRecord
        [Recorder.invalidOption name "primary" (.bool true)]
      ∧ ∃ examine, rule.bind (.int (-Number.leastUnwritable)) .null = .ok examine
        ∧ examine mediaDocument = ⟨[], some .unusable⟩ := by
  obtain ⟨_, reports, refuses⟩ := nesting_reports mediaDocument nestingRecord
  have lists : ListsAtRules mediaOption [.str "@media"] := .given rfl
  have writable : ∀ item ∈ [Value.str "@media"], item.isWritable = true := by
    simp [Value.isWritable]
  have noRoot : mediaDocument.HasNoInnerRoot := by
    intro inner walked
    fin_cases walked <;> rfl
  have negative : IsUnusable (.int (-Number.leastUnwritable)) .null "primary"
      (.int (-Number.leastUnwritable)) := by
    refine .limit fun limit same => ?_
    have positive : 0 < Number.leastUnwritable := by decide +kernel
    have equal := Value.int.inj same
    omega
  have tooLong : (Value.int (-Number.leastUnwritable)).isWritable = false := by
    rw [Value.isWritable]
    decide +kernel
  exact ⟨reports 0 mediaOption _ .error lists writable noRoot hears_nestingRecord,
    (refuses _ .null _ _ (.limit (by rintro _ ⟨⟩))).1 rfl,
    (refuses _ .null _ _ negative).2 tooLong⟩

end NestingDepth

end StyleAudit
