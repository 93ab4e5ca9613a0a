/-
Module: StyleAudit.Proofs.Rule.Builtin
Purpose: What the rules that come with this library have in common: they take any options,
  speak under their own names, and do not read comments.
Trusted boundary: none
Main exports: Finding.rule, Rule.IsPlain, isPlain_of_get?_default
-/
import StyleAudit.Proofs.Document.CommentText
import StyleAudit.Proofs.Table
import StyleAudit.Rule.Registry

namespace StyleAudit

/-- The name under which a finding is reported. -/
def Finding.rule : Finding → Text
  | .report rule _ _ => rule
  | .invalidOption rule _ _ => rule

/-- A rule that can be bound to any options, speaks under one name only, and finds the same
in two documents that differ in what their comments say. -/
def Rule.IsPlain (name : Text) (rule : Rule) : Prop :=
  ∀ primary secondary, ∃ examine, rule.bind primary secondary = .ok examine
    ∧ (∀ d, ∀ finding ∈ (examine d).findings, finding.rule = name)
    ∧ ∀ change d, examine (Document.mapComments change d) = examine d

/-!
### Empty blocks
-/

namespace EmptyBlock

theorem flags_mapComments (change : Text → Text) (node : Node) :
    flags (node.mapComments change) = flags node := by
  have comments : ∀ nodes : List Node, (Node.mapCommentsAll change nodes).all Node.isComment
      = nodes.all Node.isComment := by
    intro nodes
    rw [Node.mapCommentsAll_eq_map, List.all_map]
    congr 1
    funext node
    exact node.isComment_mapComments change
  have empty : ∀ nodes : List Node, (Node.mapCommentsAll change nodes).isEmpty = nodes.isEmpty := by
    intro nodes
    rw [Node.mapCommentsAll_eq_map, List.isEmpty_map]
  cases node with
  | rule p selector nodes => exact comments nodes
  | atRule p name params nodes => simp only [Node.mapComments, flags, comments, empty]
  | _ => rfl

theorem findings_mapComments (change : Text → Text) (d : Document) :
    findings (d.mapComments change) = findings d := by
  have flagged : flags ∘ Node.mapComments change = flags :=
    funext fun node => flags_mapComments change node
  have told : finding ∘ Node.mapComments change = finding :=
    funext fun node => by simp [finding]
  rw [findings, findings, Document.walk_mapComments, List.filter_map, List.map_map, flagged, told]

theorem isPlain : rule.IsPlain name := by
  intro primary secondary
  refine ⟨_, rfl, fun d found member => ?_, fun change d => ?_⟩
  · obtain ⟨node, _, rfl⟩ := List.mem_map.1 member
    rfl
  · rw [findings_mapComments]

end EmptyBlock

/-!
### Declarations
-/

theorem HexColor.isPlain : HexColor.rule.IsPlain HexColor.name := by
  intro primary secondary
  refine ⟨_, rfl, fun d found member => ?_, fun change d => ?_⟩
  · obtain ⟨declaration, _, inside⟩ := List.mem_flatMap.1 member
    obtain ⟨token, _, rfl⟩ := List.mem_map.1 inside
    rfl
  · rw [findings, findings, Document.declarations_mapComments]

theorem Important.isPlain : Important.rule.IsPlain Important.name := by
  intro primary secondary
  refine ⟨_, rfl, fun d found member => ?_, fun change d => ?_⟩
  · obtain ⟨declaration, _, rfl⟩ := List.mem_map.1 member
    rfl
  · rw [findings, findings, Document.declarations_mapComments]

/-!
### Nesting
-/

namespace NestingDepth

theorem isIgnored_mapComments (change : Text → Text) (ignored : List Text) (node : Node) :
    isIgnored ignored (node.mapComments change) = isIgnored ignored node := by
  cases node <;> rfl

theorem findingAt_mapComments (change : Text → Text) (o : Options) (depth : Nat) (node : Node) :
    findingAt o depth (node.mapComments change) = findingAt o depth node := by
  simp [findingAt, isIgnored_mapComments, finding]

theorem depthInside_mapComments (change : Text → Text) (o : Options) (depth : Nat) (node : Node) :
    depthInside o depth (node.mapComments change) = depthInside o depth node := by
  simp [depthInside, isIgnored_mapComments]

mutual

theorem findingsFrom_mapComments (change : Text → Text) (o : Options) (depth : Nat) :
    ∀ node : Node, findingsFrom o depth (node.mapComments change) = findingsFrom o depth node
  | .rule p selector nodes => by
      have here := findingAt_mapComments change o depth (.rule p selector nodes)
      have inside := depthInside_mapComments change o depth (.rule p selector nodes)
      rw [Node.mapComments] at here inside
      rw [Node.mapComments, findingsFrom, findingsFrom, here, inside,
        findingsAmong_mapCommentsAll change o _ nodes]
  | .atRule p atName params nodes => by
      have here := findingAt_mapComments change o depth (.atRule p atName params nodes)
      have inside := depthInside_mapComments change o depth (.atRule p atName params nodes)
      rw [Node.mapComments] at here inside
      rw [Node.mapComments, findingsFrom, findingsFrom, here, inside,
        findingsAmong_mapCommentsAll change o _ nodes]
  | .root _ _ _ => rfl
  | .declaration _ _ _ _ => rfl
  | .comment _ _ => rfl

theorem findingsAmong_mapCommentsAll (change : Text → Text) (o : Options) (depth : Nat) :
    ∀ nodes : List Node,
      findingsAmong o depth (Node.mapCommentsAll change nodes) = findingsAmong o depth nodes
  | [] => rfl
  | node :: rest => by
      rw [Node.mapCommentsAll, findingsAmong, findingsAmong,
        findingsFrom_mapComments change o depth node,
        findingsAmong_mapCommentsAll change o depth rest]

end

theorem rule_of_mem_findingAt {o : Options} {depth : Nat} {node : Node} {found : Finding}
    (member : found ∈ findingAt o depth node) : found.rule = name := by
  unfold findingAt at member
  split at member
  · rw [List.mem_singleton.1 member]
    rfl
  · cases member

mutual

theorem rule_of_mem_findingsFrom {o : Options} {depth : Nat} {found : Finding} :
    ∀ {node : Node}, found ∈ findingsFrom o depth node → found.rule = name
  | .rule p selector nodes, member => by
      rw [findingsFrom, List.mem_append] at member
      rcases member with here | inside
      · exact rule_of_mem_findingAt here
      · exact rule_of_mem_findingsAmong inside
  | .atRule p atName params nodes, member => by
      rw [findingsFrom, List.mem_append] at member
      rcases member with here | inside
      · exact rule_of_mem_findingAt here
      · exact rule_of_mem_findingsAmong inside
  | .root _ _ _, member => by cases member
  | .declaration _ _ _ _, member => by cases member
  | .comment _ _, member => by cases member

theorem rule_of_mem_findingsAmong {o : Options} {depth : Nat} {found : Finding} :
    ∀ {nodes : List Node}, found ∈ findingsAmong o depth nodes → found.rule = name
  | [], member => by cases member
  | node :: rest, member => by
      rw [findingsAmong, List.mem_append] at member
      rcases member with first | others
      · exact rule_of_mem_findingsFrom first
      · exact rule_of_mem_findingsAmong others

end

theorem rule_of_options_error {primary secondary : Value} {found : Finding}
    (unusable : options primary secondary = .error found) : found.rule = name := by
  unfold options at unusable
  split at unusable
  · split at unusable
    · cases unusable
      rfl
    · split at unusable
      · cases unusable
      · split at unusable <;> cases unusable
        rfl
  · cases unusable
    rfl

theorem rule_of_mem_findings {primary secondary : Value} {d : Document} {found : Finding}
    (member : found ∈ findings primary secondary d) : found.rule = name := by
  unfold findings at member
  cases read : options primary secondary with
  | ok o =>
      rw [read] at member
      exact rule_of_mem_findingsAmong member
  | error unusable =>
      rw [read] at member
      rw [List.mem_singleton.1 member]
      exact rule_of_options_error read

theorem findings_mapComments (change : Text → Text) (primary secondary : Value) (d : Document) :
    findings primary secondary (d.mapComments change) = findings primary secondary d := by
  unfold findings
  cases options primary secondary with
  | ok o => exact findingsAmong_mapCommentsAll change o 0 d.children
  | error unusable => rfl

theorem isPlain : rule.IsPlain name := by
  intro primary secondary
  refine ⟨_, rfl, fun d found member => ?_, fun change d => ?_⟩
  · split at member
    · exact rule_of_mem_findings member
    · cases member
  · rw [findings_mapComments]

end NestingDepth

/-!
### The registry
-/

/-- What a name finds among the rules of this library is plain, under that name. -/
theorem isPlain_of_get?_default {key : Key} {rule : Rule}
    (found : Table.get? key Registry.default = some rule) :
    ∃ name : Text, Sameness.same (Key.str name) key = true ∧ rule.IsPlain name := by
  obtain ⟨k, member, same⟩ := Table.mem_of_get?_eq_some found
  obtain ⟨⟨name, builtin⟩, listed, entry⟩ := List.mem_map.1 member
  cases entry
  refine ⟨name, same, ?_⟩
  simp only [Registry.builtins, List.mem_cons, List.not_mem_nil, or_false, Prod.mk.injEq] at listed
  rcases listed with ⟨rfl, rfl⟩ | ⟨rfl, rfl⟩ | ⟨rfl, rfl⟩ | ⟨rfl, rfl⟩
  · exact EmptyBlock.isPlain
  · exact HexColor.isPlain
  · exact Important.isPlain
  · exact NestingDepth.isPlain

end StyleAudit
