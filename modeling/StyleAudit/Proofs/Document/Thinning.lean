/-
Module: StyleAudit.Proofs.Document.Thinning
Purpose: Documents without some of their ordinary comments, and what is left as it was in them.
Trusted boundary: none
Main exports: Node.ThinsTo, Node.ThinsTo.filterMap_walkAll, Document.ThinsTo,
  Document.ThinsTo.directives, Document.ThinsTo.declarations
-/
import StyleAudit.Proofs.Document.Occurrences
import StyleAudit.Suppression.Directive

namespace StyleAudit

namespace Node

/-!
### Fewer comments
-/

/-- The node is an at-rule that is a statement, which has no block when it has no children. -/
inductive IsStatement : Node → Prop where
  | mk {p : Position} {name params : Text} {nodes : List Node}
      (listed : name ∈ (["import", "charset", "namespace", "use", "forward"] : List Text)) :
      IsStatement (.atRule p name params nodes)

/-- The node with other children, as far as it can have any. -/
def withChildren (below : List Node) : Node → Node
  | .root p source _ => .root p source below
  | .rule p selector _ => .rule p selector below
  | .atRule p name params _ => .atRule p name params below
  | .declaration p property value important => .declaration p property value important
  | .comment p text => .comment p text

/-- The second list is left of the first one when comments are deleted at any depth.  None of
them is a directive, and a statement that has children keeps one of them. -/
inductive ThinsTo : List Node → List Node → Prop where
  | nil : ThinsTo [] []
  | drop {p : Position} {text : Text} {rest left : List Node}
      (ordinary : Directive.parse? text = none) (others : ThinsTo rest left) :
      ThinsTo (.comment p text :: rest) left
  | keep {node : Node} {below rest left : List Node} (inside : ThinsTo node.children below)
      (statement : node.IsStatement → below = [] → node.children = [])
      (others : ThinsTo rest left) :
      ThinsTo (node :: rest) (node.withChildren below :: left)

@[simp] theorem position_withChildren (below : List Node) (node : Node) :
    (node.withChildren below).position = node.position := by
  cases node <;> rfl

@[simp] theorem isComment_withChildren (below : List Node) (node : Node) :
    (node.withChildren below).isComment = node.isComment := by
  cases node <;> rfl

theorem ThinsTo.eq_nil {left : List Node} (thins : ThinsTo [] left) : left = [] := by
  cases thins
  rfl

theorem children_withChildren {node : Node} {below : List Node}
    (inside : ThinsTo node.children below) : (node.withChildren below).children = below := by
  cases node with
  | declaration _ _ _ _ => exact inside.eq_nil.symm
  | comment _ _ => exact inside.eq_nil.symm
  | _ => rfl

/-- What is read off every node of a walk stays the same, if ordinary comments give nothing and
no other node depends on the comments below it. -/
theorem ThinsTo.filterMap_walkAll {α : Type} {read : Node → Option α}
    (silent : ∀ p text, Directive.parse? text = none → read (.comment p text) = none)
    (agrees : ∀ {node : Node} {below : List Node}, ThinsTo node.children below →
      (node.IsStatement → below = [] → node.children = []) →
        read (node.withChildren below) = read node)
    {nodes left : List Node} (thins : ThinsTo nodes left) :
    (walkAll left).filterMap read = (walkAll nodes).filterMap read := by
  induction thins with
  | nil => rfl
  | drop ordinary _ others =>
      rw [others, walkAll, List.filterMap_cons_none (silent _ _ ordinary)]
      rfl
  | keep inside statement _ below others =>
      rw [walkAll_cons, walkAll_cons, children_withChildren inside, List.filterMap_cons,
        List.filterMap_cons, agrees inside statement, List.filterMap_append,
        List.filterMap_append, below, others]

end Node

namespace Document

/-- The second document is left of the first one when ordinary comments are deleted in it. -/
def ThinsTo (d thinned : Document) : Prop :=
  ∃ left, Node.ThinsTo d.children left ∧ thinned = { d with children := left }

variable {d thinned : Document}

theorem ThinsTo.declarations (thins : d.ThinsTo thinned) :
    thinned.declarations = d.declarations := by
  obtain ⟨left, nodes, rfl⟩ := thins
  refine nodes.filterMap_walkAll (fun _ _ _ => rfl) fun {node} _ _ _ => ?_
  cases node <;> rfl

theorem ThinsTo.directives (thins : d.ThinsTo thinned) : thinned.directives = d.directives := by
  obtain ⟨left, nodes, rfl⟩ := thins
  unfold directives comments
  rw [List.filterMap_filterMap, List.filterMap_filterMap]
  refine nodes.filterMap_walkAll (fun p text ordinary => ?_) fun {node} _ _ _ => ?_
  · simp only [Node.comment?, Option.bind_some, Comment.directive?, ordinary, Option.map_none]
  · cases node <;> rfl

end Document

end StyleAudit
