/-
Module: StyleAudit.Proofs.Document.Occurrences
Purpose: The nodes of a document in source order, each with the nodes that it stands in.
Trusted boundary: none
Main exports: Node.trees_induction, Occurrence, Document.occurrences,
  Document.map_node_occurrences, Document.exists_occurrence_iff
-/
import StyleAudit.Document.Basic

namespace StyleAudit

namespace Node

/-- The node is a root. -/
def isRoot : Node → Bool
  | .root _ _ _ => true
  | _ => false

/-!
### Trees

A list of trees is walked from its first node to the children of that node, and on to the rest
of the list.  Declarations and comments count as nodes with an empty list of children.
-/

mutual

/-- What holds of the empty list, and of a list when it holds of the children of its first node
and of the rest, holds of every list of trees. -/
theorem trees_induction {motive : List Node → Prop} (nil : motive [])
    (cons : ∀ node rest, motive node.children → motive rest → motive (node :: rest)) :
    ∀ nodes, motive nodes
  | [] => nil
  | node :: rest =>
      cons node rest (trees_induction_children nil cons node) (trees_induction nil cons rest)

theorem trees_induction_children {motive : List Node → Prop} (nil : motive [])
    (cons : ∀ node rest, motive node.children → motive rest → motive (node :: rest)) :
    ∀ node : Node, motive node.children
  | .root _ _ nodes => trees_induction nil cons nodes
  | .rule _ _ nodes => trees_induction nil cons nodes
  | .atRule _ _ _ nodes => trees_induction nil cons nodes
  | .declaration _ _ _ _ => nil
  | .comment _ _ => nil

end

theorem descendants_eq (node : Node) : node.descendants = walkAll node.children := by
  cases node <;> rfl

theorem walkAll_cons (node : Node) (rest : List Node) :
    walkAll (node :: rest) = node :: (walkAll node.children ++ walkAll rest) := by
  rw [walkAll, descendants_eq]

/-- Only roots and blocks have nodes below them. -/
theorem isRoot_or_isBlock_of_mem_descendants {inner node : Node}
    (below : node ∈ inner.descendants) : inner.isRoot = true ∨ inner.isBlock = true := by
  cases inner with
  | root _ _ _ => exact .inl rfl
  | rule _ _ _ => exact .inr rfl
  | atRule _ _ _ _ => exact .inr rfl
  | declaration _ _ _ _ => cases below
  | comment _ _ => cases below

end Node

/-!
### Occurrences
-/

/-- A node of a document, and the nodes that it stands in below the top, from the innermost one
to the outermost one. -/
structure Occurrence where
  node : Node
  around : List Node

namespace Node

mutual

/-- The occurrences below a node that stands in others. -/
def occurrencesBelow (around : List Node) : Node → List Occurrence
  | .root p source nodes => occurrencesAmong (.root p source nodes :: around) nodes
  | .rule p selector nodes => occurrencesAmong (.rule p selector nodes :: around) nodes
  | .atRule p name params nodes => occurrencesAmong (.atRule p name params nodes :: around) nodes
  | .declaration _ _ _ _ => []
  | .comment _ _ => []

/-- The occurrences in a list of trees that stand in others, in source order. -/
def occurrencesAmong (around : List Node) : List Node → List Occurrence
  | [] => []
  | node :: rest => ⟨node, around⟩ :: (occurrencesBelow around node ++ occurrencesAmong around rest)

end

theorem occurrencesAmong_cons (around : List Node) (node : Node) (rest : List Node) :
    occurrencesAmong around (node :: rest)
      = ⟨node, around⟩ ::
          (occurrencesAmong (node :: around) node.children ++ occurrencesAmong around rest) := by
  rw [occurrencesAmong]
  cases node <;> rfl

theorem map_node_occurrencesAmong (nodes : List Node) :
    ∀ around, (occurrencesAmong around nodes).map Occurrence.node = walkAll nodes := by
  induction nodes using trees_induction with
  | nil => exact fun _ => rfl
  | cons node rest inside others =>
      intro around
      rw [occurrencesAmong_cons, walkAll_cons, List.map_cons, List.map_append, inside, others]

/-- Whatever stands around a list of trees stands around each of its nodes. -/
theorem suffix_around {nodes : List Node} : ∀ {around : List Node} {occurrence : Occurrence},
    occurrence ∈ occurrencesAmong around nodes → around <:+ occurrence.around := by
  induction nodes using trees_induction with
  | nil => rintro _ _ ⟨⟩
  | cons node rest inside others =>
      intro around occurrence member
      rw [occurrencesAmong_cons, List.mem_cons, List.mem_append] at member
      rcases member with rfl | below | behind
      · exact List.suffix_rfl
      · exact (List.suffix_cons node around).trans (inside below)
      · exact others behind

/-- What stands around the occurrences of a node is what stands around all of the trees, or else
the nodes among them that the node is below. -/
theorem exists_mem_occurrencesAmong_iff {inner found : Node} (nodes : List Node) :
    ∀ around : List Node,
      (∃ occurrence ∈ occurrencesAmong around nodes,
          occurrence.node = found ∧ inner ∈ occurrence.around)
        ↔ (inner ∈ around ∧ found ∈ walkAll nodes)
          ∨ (inner ∈ walkAll nodes ∧ found ∈ inner.descendants) := by
  induction nodes using trees_induction with
  | nil => simp [occurrencesAmong, walkAll]
  | cons node rest inside others =>
      intro around
      have here : (node = found ∧ inner ∈ around) ↔ (inner ∈ around ∧ found = node) := by
        rw [and_comm, eq_comm]
      have below : (inner = node ∧ found ∈ walkAll node.children)
          ↔ (inner = node ∧ found ∈ inner.descendants) :=
        and_congr_right fun same => by rw [same, descendants_eq]
      simp only [occurrencesAmong_cons, walkAll_cons, List.mem_cons, List.mem_append, or_and_right,
        exists_or, exists_eq_left, inside, others, here, below]
      grind

end Node

namespace Document

/-- The nodes of a document below its top, each with the nodes that it stands in. -/
def occurrences (d : Document) : List Occurrence :=
  Node.occurrencesAmong [] d.children

/-- The occurrences are those of the nodes of the document, in source order. -/
theorem map_node_occurrences (d : Document) : d.occurrences.map Occurrence.node = d.walk :=
  Node.map_node_occurrencesAmong d.children []

/-- A node stands in those nodes of the document that it is below. -/
theorem exists_occurrence_iff {d : Document} {inner found : Node} :
    (∃ occurrence ∈ d.occurrences, occurrence.node = found ∧ inner ∈ occurrence.around)
      ↔ inner ∈ d.walk ∧ found ∈ inner.descendants := by
  unfold occurrences walk
  rw [Node.exists_mem_occurrencesAmong_iff]
  simp

end Document

end StyleAudit
