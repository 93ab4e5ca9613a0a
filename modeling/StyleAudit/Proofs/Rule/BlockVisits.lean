/-
Module: StyleAudit.Proofs.Rule.BlockVisits
Purpose: Which blocks of a document the search for deep nesting comes to, and at which depth it
  does: those that stand in blocks only, each at the number of levels around it.
Trusted boundary: none
Main exports: NestingDepth.Visit, NestingDepth.visits, findingsAmong_eq_flatMap, visits_eq,
  Document.HidesNoBlock, visits_eq_blocks_iff
-/
import StyleAudit.Document.Reader
import StyleAudit.Proofs.Document.Occurrences
import StyleAudit.Rule.EmptyBlock
import StyleAudit.Rule.NestingDepth

namespace StyleAudit

/-- The node is a block, and so is every node that it stands in below the top. -/
def Occurrence.isAmongBlocks (occurrence : Occurrence) : Bool :=
  (occurrence.node :: occurrence.around).all Node.isBlock

/-- No root below the top of the document has a block below it. -/
def Document.HidesNoBlock (d : Document) : Prop :=
  ∀ inner ∈ d.walk, inner.isRoot = true → ∀ node ∈ inner.descendants, node.isBlock = false

/-- In a document that hides no block, every block stands in blocks only. -/
theorem Document.hidesNoBlock_iff {d : Document} :
    d.HidesNoBlock ↔
      ∀ occurrence ∈ d.occurrences, occurrence.node.isBlock = true →
        occurrence.isAmongBlocks = true := by
  constructor
  · intro hidesNone occurrence member block
    rw [Occurrence.isAmongBlocks, List.all_cons, block, Bool.true_and, List.all_eq_true]
    intro inner stands
    obtain ⟨walked, below⟩ := exists_occurrence_iff.1 ⟨occurrence, member, rfl, stands⟩
    refine (Node.isRoot_or_isBlock_of_mem_descendants below).resolve_left fun root => ?_
    rw [hidesNone inner walked root occurrence.node below] at block
    cases block
  · intro each inner walked root node below
    obtain ⟨occurrence, member, rfl, stands⟩ := exists_occurrence_iff.2 ⟨walked, below⟩
    rw [← Bool.not_eq_true]
    intro block
    have blocks := each occurrence member block
    rw [Occurrence.isAmongBlocks, List.all_cons, Bool.and_eq_true, List.all_eq_true] at blocks
    have innerBlock := blocks.2 inner stands
    cases inner <;> simp_all [Node.isRoot, Node.isBlock]

namespace NestingDepth

/-!
### Visits

The search goes down from block to block.  A visit is a block that it comes to, with the depth
that it has reached there.
-/

/-- A block that the search comes to, and the depth there. -/
structure Visit where
  depth : Nat
  node : Node

mutual

/-- The visits to a node at a depth and below it. -/
def visitsFrom (o : Options) (depth : Nat) : Node → List Visit
  | .rule p selector children =>
      ⟨depth, .rule p selector children⟩
        :: visitsAmong o (depthInside o depth (.rule p selector children)) children
  | .atRule p atName params children =>
      ⟨depth, .atRule p atName params children⟩
        :: visitsAmong o (depthInside o depth (.atRule p atName params children)) children
  | _ => []

/-- The visits to sibling nodes at a depth and below them. -/
def visitsAmong (o : Options) (depth : Nat) : List Node → List Visit
  | [] => []
  | node :: rest => visitsFrom o depth node ++ visitsAmong o depth rest

end

/-- The visits in a document. -/
def visits (o : Options) (d : Document) : List Visit :=
  visitsAmong o 0 d.children

section Siblings

variable {o : Options} {depth : Nat} {node : Node} {rest : List Node}

theorem visitsAmong_cons_of_block (block : node.isBlock = true) :
    visitsAmong o depth (node :: rest)
      = ⟨depth, node⟩ ::
          (visitsAmong o (depthInside o depth node) node.children ++ visitsAmong o depth rest) := by
  rw [visitsAmong]
  cases node with
  | rule _ _ _ => rfl
  | atRule _ _ _ _ => rfl
  | _ => cases block

theorem visitsAmong_cons_of_not_block (other : node.isBlock = false) :
    visitsAmong o depth (node :: rest) = visitsAmong o depth rest := by
  rw [visitsAmong]
  cases node with
  | rule _ _ _ => cases other
  | atRule _ _ _ _ => cases other
  | _ => rfl

theorem findingsAmong_cons_of_block (block : node.isBlock = true) :
    findingsAmong o depth (node :: rest)
      = findingAt o depth node
          ++ (findingsAmong o (depthInside o depth node) node.children
            ++ findingsAmong o depth rest) := by
  rw [findingsAmong, ← List.append_assoc]
  cases node with
  | rule _ _ _ => rfl
  | atRule _ _ _ _ => rfl
  | _ => cases block

theorem findingsAmong_cons_of_not_block (other : node.isBlock = false) :
    findingsAmong o depth (node :: rest) = findingsAmong o depth rest := by
  rw [findingsAmong]
  cases node with
  | rule _ _ _ => cases other
  | atRule _ _ _ _ => cases other
  | _ => rfl

end Siblings

/-- What the search finds is what it finds at its visits, one after another. -/
theorem findingsAmong_eq_flatMap (o : Options) (nodes : List Node) :
    ∀ depth, findingsAmong o depth nodes
      = (visitsAmong o depth nodes).flatMap fun visit => findingAt o visit.depth visit.node := by
  induction nodes using Node.trees_induction with
  | nil => exact fun _ => rfl
  | cons node rest inside others =>
      intro depth
      by_cases block : node.isBlock = true
      · rw [findingsAmong_cons_of_block block, visitsAmong_cons_of_block block, List.flatMap_cons,
          List.flatMap_append, inside, others]
      · rw [Bool.not_eq_true] at block
        rw [findingsAmong_cons_of_not_block block, visitsAmong_cons_of_not_block block, others]

/-!
### Depths
-/

/-- The node is a block that counts: it is no ignored at-rule. -/
def isLevel (ignored : List Text) (node : Node) : Bool :=
  node.isBlock && !isIgnored ignored node

/-- The levels that a node stands in. -/
def levelsAround (ignored : List Text) (occurrence : Occurrence) : Nat :=
  occurrence.around.countP (isLevel ignored)

theorem depthInside_of_block {node : Node} (block : node.isBlock = true) (o : Options)
    (around : List Node) :
    depthInside o (around.countP (isLevel o.ignored)) node
      = (node :: around).countP (isLevel o.ignored) := by
  rw [depthInside, List.countP_cons, isLevel, block, Bool.true_and]
  cases isIgnored o.ignored node <;> rfl

/-- Nothing below a node that is no block is among blocks. -/
theorem filter_isAmongBlocks_of_not_block {node : Node} (other : node.isBlock = false)
    (around nodes : List Node) :
    (Node.occurrencesAmong (node :: around) nodes).filter Occurrence.isAmongBlocks = [] := by
  rw [List.filter_eq_nil_iff]
  intro occurrence member amongBlocks
  have stands := (Node.suffix_around member).subset (List.mem_cons_self (a := node))
  rw [Occurrence.isAmongBlocks, List.all_eq_true] at amongBlocks
  rw [amongBlocks node (List.mem_cons_of_mem _ stands)] at other
  cases other

/-- Among blocks only, the search comes to the blocks below that stand in blocks only, in source
order, each at the number of levels around it. -/
theorem visitsAmong_eq (o : Options) (nodes : List Node) :
    ∀ around : List Node, around.all Node.isBlock = true →
      visitsAmong o (around.countP (isLevel o.ignored)) nodes
        = ((Node.occurrencesAmong around nodes).filter Occurrence.isAmongBlocks).map
            fun occurrence => ⟨levelsAround o.ignored occurrence, occurrence.node⟩ := by
  induction nodes using Node.trees_induction with
  | nil => exact fun _ _ => rfl
  | cons node rest inside others =>
      intro around blocks
      rw [Node.occurrencesAmong_cons]
      by_cases block : node.isBlock = true
      · have blocksHere : (node :: around).all Node.isBlock = true := by
          rw [List.all_cons, block, blocks, Bool.true_and]
        have amongBlocks : Occurrence.isAmongBlocks ⟨node, around⟩ = true := blocksHere
        rw [visitsAmong_cons_of_block block, depthInside_of_block block,
          inside (node :: around) blocksHere, others around blocks,
          List.filter_cons_of_pos amongBlocks, List.filter_append, List.map_cons, List.map_append]
        rfl
      · rw [Bool.not_eq_true] at block
        have amongOthers : ¬ Occurrence.isAmongBlocks ⟨node, around⟩ = true := by
          rw [Occurrence.isAmongBlocks, List.all_cons, block, Bool.false_and]
          exact Bool.false_ne_true
        rw [visitsAmong_cons_of_not_block block, others around blocks,
          List.filter_cons_of_neg amongOthers, List.filter_append,
          filter_isAmongBlocks_of_not_block block, List.nil_append]

theorem visits_eq (o : Options) (d : Document) :
    visits o d
      = (d.occurrences.filter Occurrence.isAmongBlocks).map
          fun occurrence => ⟨levelsAround o.ignored occurrence, occurrence.node⟩ :=
  visitsAmong_eq o d.children [] rfl

/-!
### Two walks
-/

theorem map_node_visits (o : Options) (d : Document) :
    (visits o d).map Visit.node
      = (d.occurrences.filter Occurrence.isAmongBlocks).map Occurrence.node := by
  rw [visits_eq, List.map_map]
  rfl

/-- The blocks of a document in the order of its walk. -/
theorem filter_isBlock_walk (d : Document) :
    d.walk.filter Node.isBlock
      = (d.occurrences.filter fun occurrence => occurrence.node.isBlock).map Occurrence.node := by
  rw [← d.map_node_occurrences, List.filter_map]
  rfl

theorem isBlock_of_isAmongBlocks {occurrence : Occurrence}
    (amongBlocks : occurrence.isAmongBlocks = true) : occurrence.node.isBlock = true := by
  rw [Occurrence.isAmongBlocks, List.all_cons, Bool.and_eq_true] at amongBlocks
  exact amongBlocks.1

/-- The search comes to all blocks that the walk yields when every block is among blocks. -/
theorem map_node_visits_eq_iff (o : Options) (d : Document) :
    (visits o d).map Visit.node = d.walk.filter Node.isBlock ↔ d.HidesNoBlock := by
  rw [map_node_visits, filter_isBlock_walk, Document.hidesNoBlock_iff]
  constructor
  · intro same occurrence member block
    -- The blocks among blocks are some of the blocks, so equally many are all of them.
    have fewer : d.occurrences.filter Occurrence.isAmongBlocks
        = (d.occurrences.filter fun found => found.node.isBlock).filter
            Occurrence.isAmongBlocks := by
      rw [List.filter_filter]
      refine List.filter_congr fun found _ => ?_
      cases amongBlocks : found.isAmongBlocks with
      | false => rfl
      | true => rw [isBlock_of_isAmongBlocks amongBlocks, Bool.and_self]
    have counted := congrArg List.length same
    rw [List.length_map, List.length_map, fewer, List.length_filter_eq_length_iff] at counted
    exact counted occurrence (List.mem_filter.2 ⟨member, block⟩)
  · intro each
    refine congrArg _ (List.filter_congr fun occurrence member => ?_)
    cases block : occurrence.node.isBlock with
    | true => exact each occurrence member block
    | false => rw [Occurrence.isAmongBlocks, List.all_cons, block, Bool.false_and]

/-- Empty blocks are looked for among the blocks of the walk. -/
theorem emptyBlock_findings_eq (d : Document) :
    EmptyBlock.findings d
      = ((d.walk.filter Node.isBlock).filter EmptyBlock.flags).map EmptyBlock.finding := by
  rw [EmptyBlock.findings, List.filter_filter]
  refine congrArg _ (List.filter_congr fun node _ => ?_)
  cases node <;> simp [EmptyBlock.flags, Node.isBlock]

/-- The search for deep nesting finds what it does at its visits.  It visits the blocks that
stand in blocks only, in the order of the walk.  These are all blocks of the walk exactly when no
root below the top hides one, and then no block that is looked at for being empty escapes. -/
theorem visits_eq_blocks_iff (o : Options) (d : Document) :
    findingsAmong o 0 d.children
        = ((visits o d).flatMap fun visit => findingAt o visit.depth visit.node)
      ∧ (visits o d).map Visit.node
          = (d.occurrences.filter Occurrence.isAmongBlocks).map Occurrence.node
      ∧ ((visits o d).map Visit.node = d.walk.filter Node.isBlock ↔ d.HidesNoBlock)
      ∧ (d.HidesNoBlock →
          EmptyBlock.findings d
            = (((visits o d).map Visit.node).filter EmptyBlock.flags).map EmptyBlock.finding) := by
  refine ⟨findingsAmong_eq_flatMap o d.children 0, map_node_visits o d,
    map_node_visits_eq_iff o d, fun hidesNone => ?_⟩
  rw [(map_node_visits_eq_iff o d).2 hidesNone]
  exact emptyBlock_findings_eq d

/-!
A root may stand below the top.  The blocks in it are walked, and one of them is found empty, but
the search for deep nesting does not come to them.
-/

/-- The serialized form of a root with a root in it, which holds a block in a block. -/
def nestedRootValue : Value :=
  .map [(.str "type", .str "root"), (.str "nodes", .seq
    [.map [(.str "type", .str "root"), (.str "nodes", .seq
      [.map [(.str "type", .str "rule"), (.str "nodes", .seq
        [.map [(.str "type", .str "rule"), (.str "line", .int 2)]])]])]])]

def nestedRootDocument : Document :=
  ⟨Position.origin, .null, [.root Position.origin .null
    [.rule Position.origin "" [.rule ⟨2, 1⟩ "" []]]]⟩

theorem visits_eq_blocks_iff_nestedRoot :
    Document.ofValue nestedRootValue = .ok nestedRootDocument
      ∧ (nestedRootDocument.walk.filter Node.isBlock).length = 2
      ∧ visits ⟨0, []⟩ nestedRootDocument = []
      ∧ findingsAmong ⟨0, []⟩ 0 nestedRootDocument.children = []
      ∧ ¬ nestedRootDocument.HidesNoBlock
      ∧ (EmptyBlock.findings nestedRootDocument).length = 1 := by
  obtain ⟨found, _, visitsAll, _⟩ := visits_eq_blocks_iff ⟨0, []⟩ nestedRootDocument
  refine ⟨rfl, rfl, rfl, found, ?_, rfl⟩
  rw [← visitsAll]
  intro same
  have counted := congrArg List.length same
  exact absurd counted (by decide)

end NestingDepth

end StyleAudit
