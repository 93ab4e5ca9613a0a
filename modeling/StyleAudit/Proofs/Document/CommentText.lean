/-
Module: StyleAudit.Proofs.Document.CommentText
Purpose: Documents whose comments say something else, and what stays as it is in them.
Trusted boundary: none
Main exports: Node.mapComments, Document.mapComments, Document.walk_mapComments,
  Document.withoutDirectives, Document.disableRanges_withoutDirectives
-/
import StyleAudit.Suppression.Range

namespace StyleAudit

namespace Node

mutual

/-- The tree with the text of every comment changed. -/
def mapComments (change : Text → Text) : Node → Node
  | .root p source nodes => .root p source (mapCommentsAll change nodes)
  | .rule p selector nodes => .rule p selector (mapCommentsAll change nodes)
  | .atRule p name params nodes => .atRule p name params (mapCommentsAll change nodes)
  | .declaration p property value important => .declaration p property value important
  | .comment p text => .comment p (change text)

/-- The trees with the text of every comment changed. -/
def mapCommentsAll (change : Text → Text) : List Node → List Node
  | [] => []
  | node :: rest => node.mapComments change :: mapCommentsAll change rest

end

variable (change : Text → Text)

/-!
### One node
-/

theorem mapCommentsAll_eq_map (nodes : List Node) :
    mapCommentsAll change nodes = nodes.map (mapComments change) := by
  induction nodes with
  | nil => rfl
  | cons node rest ih => rw [mapCommentsAll, ih, List.map_cons]

@[simp] theorem position_mapComments (node : Node) :
    (node.mapComments change).position = node.position := by
  cases node <;> rfl

@[simp] theorem isComment_mapComments (node : Node) :
    (node.mapComments change).isComment = node.isComment := by
  cases node <;> rfl

@[simp] theorem declaration?_mapComments (node : Node) :
    (node.mapComments change).declaration? = node.declaration? := by
  cases node <;> rfl

theorem comment?_mapComments (node : Node) :
    (node.mapComments change).comment?
      = node.comment?.map fun c => ⟨c.position, change c.text⟩ := by
  cases node <;> rfl

/-!
### All nodes below
-/

mutual

/-- The nodes below a changed tree are those below the tree, each changed. -/
theorem descendants_mapComments :
    ∀ node : Node, (node.mapComments change).descendants
      = node.descendants.map (mapComments change)
  | .root _ _ nodes => walkAll_mapCommentsAll nodes
  | .rule _ _ nodes => walkAll_mapCommentsAll nodes
  | .atRule _ _ _ nodes => walkAll_mapCommentsAll nodes
  | .declaration _ _ _ _ => rfl
  | .comment _ _ => rfl

theorem walkAll_mapCommentsAll :
    ∀ nodes : List Node, walkAll (mapCommentsAll change nodes)
      = (walkAll nodes).map (mapComments change)
  | [] => rfl
  | node :: rest => by
      rw [mapCommentsAll, walkAll, walkAll, descendants_mapComments node,
        walkAll_mapCommentsAll rest, List.map_cons, List.map_append]

end

end Node

namespace Document

/-- The document with the text of every comment changed. -/
def mapComments (change : Text → Text) (d : Document) : Document :=
  { d with children := Node.mapCommentsAll change d.children }

theorem walk_mapComments (change : Text → Text) (d : Document) :
    (d.mapComments change).walk = d.walk.map (Node.mapComments change) :=
  Node.walkAll_mapCommentsAll change d.children

/-- Declarations do not depend on what comments say. -/
theorem declarations_mapComments (change : Text → Text) (d : Document) :
    (d.mapComments change).declarations = d.declarations := by
  rw [declarations, walk_mapComments, List.filterMap_map]
  congr 1
  funext node
  exact node.declaration?_mapComments change

theorem comments_mapComments (change : Text → Text) (d : Document) :
    (d.mapComments change).comments
      = d.comments.map fun c => ⟨c.position, change c.text⟩ := by
  rw [comments, comments, walk_mapComments, List.filterMap_map, List.map_filterMap]
  congr 1
  funext node
  exact node.comment?_mapComments change

end Document

/-!
### Documents without directives
-/

/-- The text, or the empty one in place of a directive. -/
def Directive.emptied (text : Text) : Text :=
  if (Directive.parse? text).isSome then "" else text

theorem Directive.parse?_empty : Directive.parse? "" = none := by decide

theorem Directive.parse?_emptied (text : Text) : Directive.parse? (emptied text) = none := by
  unfold emptied
  cases parsed : parse? text with
  | none => simpa using parsed
  | some directive => exact parse?_empty

/-- The document with the empty text in every comment that is a directive. -/
def Document.withoutDirectives (d : Document) : Document :=
  d.mapComments Directive.emptied

theorem Document.directives_withoutDirectives (d : Document) :
    d.withoutDirectives.directives = [] := by
  rw [directives, withoutDirectives, comments_mapComments, List.filterMap_map,
    List.filterMap_eq_nil_iff]
  intro c _
  simp [Comment.directive?, Directive.parse?_emptied]

/-- Without directives, nothing is suppressed. -/
theorem disableRanges_withoutDirectives (d : Document) :
    disableRanges d.withoutDirectives = [] := by
  rw [disableRanges, Document.directives_withoutDirectives]
  rfl

end StyleAudit
