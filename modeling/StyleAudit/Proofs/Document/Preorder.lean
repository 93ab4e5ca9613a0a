/-
Module: StyleAudit.Proofs.Document.Preorder
Purpose: The walk over a document is the enumeration of its places in preorder.
Trusted boundary: none
Main exports: TreePlace, TreePlace.Precedes, Node.at?, Node.size, Node.IsPreorder, Node.places,
  Node.isPreorder_places, Document.walk_preorder
-/
import Mathlib.Data.List.Basic
import Mathlib.Data.List.Perm.Basic
import StyleAudit.Proofs.Document.Occurrences

namespace StyleAudit

/-!
### Places

Two nodes of a tree may be equal, so an enumeration of nodes is told by the places at which they
stand.
-/

/-- A place in a tree: which child to go to at each level, counted from zero. -/
abbrev TreePlace := List Nat

namespace TreePlace

/-- A place comes before another one in preorder: the node there stands around the other one, or
the two part at some level, where the first one goes to an earlier child. -/
inductive Precedes : TreePlace → TreePlace → Prop where
  | around {outer inner : TreePlace} (inside : inner ≠ []) : Precedes outer (outer ++ inner)
  | beside {shared first second : TreePlace} {i j : Nat} (earlier : i < j) :
      Precedes (shared ++ i :: first) (shared ++ j :: second)

section Precedes

variable {first second : TreePlace} {i j : Nat}

theorem not_precedes_nil : ¬ Precedes first [] := by
  intro precedes
  generalize empty : ([] : TreePlace) = behind at precedes
  cases precedes with
  | around inside => exact inside (List.append_eq_nil_iff.1 empty.symm).2
  | beside _ => simp at empty

theorem precedes_cons_self_iff : Precedes (i :: first) (i :: second) ↔ Precedes first second := by
  constructor
  · intro precedes
    generalize front : i :: first = one at precedes
    generalize back : i :: second = two at precedes
    cases precedes with
    | around inside =>
        subst front
        rw [List.cons_append, List.cons.injEq] at back
        rw [back.2]
        exact .around inside
    | @beside shared _ _ k l earlier =>
        cases shared with
        | nil =>
            obtain ⟨rfl, rfl⟩ := List.cons.inj front
            obtain ⟨rfl, rfl⟩ := List.cons.inj back
            exact absurd earlier (Nat.lt_irrefl i)
        | cons _ others =>
            obtain ⟨_, rfl⟩ := List.cons.inj front
            obtain ⟨_, rfl⟩ := List.cons.inj back
            exact .beside earlier
  · intro precedes
    cases precedes with
    | around inside => exact @Precedes.around (i :: first) _ inside
    | @beside shared _ _ _ _ earlier => exact @Precedes.beside (i :: shared) _ _ _ _ earlier

theorem precedes_cons_of_lt (earlier : i < j) : Precedes (i :: first) (j :: second) :=
  @Precedes.beside [] _ _ _ _ earlier

theorem le_of_precedes_cons (precedes : Precedes (i :: first) (j :: second)) : i ≤ j := by
  generalize front : i :: first = one at precedes
  generalize back : j :: second = two at precedes
  cases precedes with
  | around _ =>
      subst front
      rw [List.cons_append, List.cons.injEq] at back
      exact Nat.le_of_eq back.1.symm
  | @beside shared _ _ _ _ earlier =>
      cases shared with
      | nil =>
          obtain ⟨rfl, _⟩ := List.cons.inj front
          obtain ⟨rfl, _⟩ := List.cons.inj back
          exact Nat.le_of_lt earlier
      | cons _ _ =>
          obtain ⟨rfl, _⟩ := List.cons.inj front
          obtain ⟨rfl, _⟩ := List.cons.inj back
          exact Nat.le_refl _

/-- Of two places at most one precedes the other, and none precedes itself. -/
theorem Precedes.asymm (forth : Precedes first second) : ¬ Precedes second first := by
  induction first generalizing second with
  | nil => exact not_precedes_nil
  | cons i rest ih =>
      intro back
      cases second with
      | nil => exact not_precedes_nil forth
      | cons j others =>
          have same : i = j :=
            Nat.le_antisymm (le_of_precedes_cons forth) (le_of_precedes_cons back)
          subst same
          exact ih (precedes_cons_self_iff.1 forth) (precedes_cons_self_iff.1 back)

theorem not_precedes_self (place : TreePlace) : ¬ Precedes place place :=
  fun precedes => precedes.asymm precedes

end Precedes

end TreePlace

namespace Node

/-- The node at a place; a node itself stands at the empty place. -/
def at? : Node → TreePlace → Option Node
  | node, [] => some node
  | node, i :: path =>
      match node.children[i]? with
      | some child => child.at? path
      | none => none

mutual

/-- How many nodes a tree has, the one at its top among them. -/
def size : Node → Nat
  | .root _ _ nodes => sizes nodes + 1
  | .rule _ _ nodes => sizes nodes + 1
  | .atRule _ _ _ nodes => sizes nodes + 1
  | .declaration _ _ _ _ => 1
  | .comment _ _ => 1

/-- How many nodes a list of trees has. -/
def sizes : List Node → Nat
  | [] => 0
  | node :: rest => node.size + sizes rest

end

/-- Places list all nodes below the top of a tree, and in preorder: each node comes before those
that stand in it, and all of these come before what is beside it further on. -/
structure IsPreorder (top : Node) (places : List TreePlace) : Prop where
  complete : ∀ place, place ∈ places ↔ place ≠ [] ∧ (top.at? place).isSome
  ordered : places.Pairwise TreePlace.Precedes

theorem IsPreorder.nodup {top : Node} {places : List TreePlace} (preorder : top.IsPreorder places) :
    places.Nodup := by
  apply preorder.ordered.imp
  rintro first second precedes rfl
  exact TreePlace.not_precedes_self first precedes

/-- A tree has only one preorder. -/
theorem IsPreorder.unique {top : Node} {places others : List TreePlace}
    (one : top.IsPreorder places) (two : top.IsPreorder others) : others = places := by
  have same : others.Perm places := by
    rw [List.perm_ext_iff_of_nodup two.nodup one.nodup]
    intro place
    rw [two.complete, one.complete]
  refine same.eq_of_pairwise ?_ two.ordered one.ordered
  intro first second _ _ forth back
  exact absurd back forth.asymm

/-!
### The places of a tree
-/

mutual

/-- The places below a node, as the walk comes to them. -/
def places : Node → List TreePlace
  | .root _ _ nodes => placesFrom 0 nodes
  | .rule _ _ nodes => placesFrom 0 nodes
  | .atRule _ _ _ nodes => placesFrom 0 nodes
  | .declaration _ _ _ _ => []
  | .comment _ _ => []

/-- The places in a list of trees, the first of which has a number among its siblings. -/
def placesFrom : Nat → List Node → List TreePlace
  | _, [] => []
  | i, node :: rest => [i] :: (node.places.map (i :: ·) ++ placesFrom (i + 1) rest)

end

theorem places_eq (node : Node) : node.places = placesFrom 0 node.children := by
  cases node <;> rfl

theorem placesFrom_cons (i : Nat) (node : Node) (rest : List Node) :
    placesFrom i (node :: rest)
      = [i] :: ((placesFrom 0 node.children).map (i :: ·) ++ placesFrom (i + 1) rest) := by
  rw [placesFrom, places_eq]

theorem size_eq (node : Node) : node.size = sizes node.children + 1 := by
  cases node <;> rfl

theorem at?_cons_of_some {node child : Node} {i : Nat} (found : node.children[i]? = some child)
    (path : TreePlace) : node.at? (i :: path) = child.at? path := by
  rw [at?, found]

/-- Below a node stands what stands at one of its children or below it. -/
theorem exists_child_iff {node : Node} {place : TreePlace} :
    (∃ k child path, node.children[k]? = some child ∧ place = (0 + k) :: path
        ∧ (child.at? path).isSome)
      ↔ place ≠ [] ∧ (node.at? place).isSome := by
  cases place with
  | nil => simp
  | cons i path =>
      cases found : node.children[i]? with
      | none => simp [at?, found]
      | some child => simp [at?, found]

/-- The places in a list of trees are those of the trees and of what is below them. -/
theorem mem_placesFrom_iff {nodes : List Node} {place : TreePlace} :
    ∀ {i : Nat}, place ∈ placesFrom i nodes ↔
      ∃ k node path, nodes[k]? = some node ∧ place = (i + k) :: path ∧ (node.at? path).isSome := by
  induction nodes using trees_induction generalizing place with
  | nil => simp [placesFrom]
  | cons node rest inside others =>
      intro i
      have below : ∀ path, path ∈ placesFrom 0 node.children
          ↔ path ≠ [] ∧ (node.at? path).isSome :=
        fun path => inside.trans exists_child_iff
      rw [placesFrom_cons, List.mem_cons, List.mem_append, List.mem_map, others]
      constructor
      · rintro (rfl | ⟨path, inner, rfl⟩ | ⟨k, other, path, found, rfl, stands⟩)
        · exact ⟨0, node, [], rfl, rfl, rfl⟩
        · exact ⟨0, node, path, rfl, rfl, ((below path).1 inner).2⟩
        · exact ⟨k + 1, other, path, found, by rw [Nat.add_assoc, Nat.add_comm 1 k], stands⟩
      · rintro ⟨k, other, path, found, rfl, stands⟩
        cases k with
        | zero =>
            obtain rfl : node = other := by simpa using found
            by_cases empty : path = []
            · exact .inl (by rw [empty, Nat.add_zero])
            · exact .inr (.inl ⟨path, (below path).2 ⟨empty, stands⟩, rfl⟩)
        | succ k =>
            refine .inr (.inr ⟨k, other, path, by simpa using found, ?_, stands⟩)
            rw [Nat.add_assoc, Nat.add_comm 1 k]

theorem ordered_placesFrom (nodes : List Node) :
    ∀ i, (placesFrom i nodes).Pairwise TreePlace.Precedes := by
  induction nodes using trees_induction with
  | nil => exact fun _ => List.Pairwise.nil
  | cons node rest inside others =>
      intro i
      -- What the rest of the list has goes to a child behind this one.
      have behind : ∀ path, ∀ place ∈ placesFrom (i + 1) rest,
          TreePlace.Precedes (i :: path) place := by
        intro path place member
        obtain ⟨k, _, _, _, rfl, _⟩ := mem_placesFrom_iff.1 member
        exact TreePlace.precedes_cons_of_lt (by omega)
      rw [placesFrom_cons, List.pairwise_cons, List.pairwise_append, List.pairwise_map]
      refine ⟨?_, ?_, others (i + 1), ?_⟩
      · intro place member
        rcases List.mem_append.1 member with inner | later
        · obtain ⟨path, listed, rfl⟩ := List.mem_map.1 inner
          obtain ⟨k, _, _, _, rfl, _⟩ := mem_placesFrom_iff.1 listed
          exact @TreePlace.Precedes.around [i] _ (List.cons_ne_nil _ _)
        · exact behind [] place later
      · exact (inside 0).imp TreePlace.precedes_cons_self_iff.2
      · intro first inner second later
        obtain ⟨path, _, rfl⟩ := List.mem_map.1 inner
        exact behind path second later

/-- The places below a node are all of them, in preorder. -/
theorem isPreorder_places (top : Node) : top.IsPreorder top.places where
  complete := by
    intro place
    rw [places_eq, mem_placesFrom_iff, exists_child_iff]
  ordered := places_eq top ▸ ordered_placesFrom top.children 0

/-- A comment in a block comes before the comment beside the block. -/
example : (Node.root .origin .null
    [.rule .origin "a" [.comment .origin ""], .comment .origin ""]).places
      = [[0], [0, 0], [1]] := by decide +kernel

/-!
### The walk
-/

/-- The walk over the children of a node from some child on meets the nodes at their places. -/
theorem map_at?_placesFrom {nodes : List Node} :
    ∀ {top : Node} {before : List Node}, top.children = before ++ nodes →
      (placesFrom before.length nodes).map top.at? = (walkAll nodes).map some := by
  induction nodes using trees_induction with
  | nil => exact fun _ => rfl
  | cons node rest inside others =>
      intro top before split
      have here : top.children[before.length]? = some node := by simp [split]
      have within : top.at? ∘ (before.length :: ·) = node.at? := by
        funext path
        exact at?_cons_of_some here path
      have first : top.at? [before.length] = some node := at?_cons_of_some here []
      have below := @inside node [] rfl
      have behind := @others top (before ++ [node]) (by simp [split])
      rw [List.length_nil] at below
      rw [List.length_append, List.length_singleton] at behind
      rw [placesFrom_cons, walkAll_cons, List.map_cons, List.map_append, List.map_map, first,
        within, below, behind, List.map_cons, List.map_append]

theorem map_at?_places (top : Node) : top.places.map top.at? = top.descendants.map some := by
  rw [places_eq, descendants_eq]
  exact @map_at?_placesFrom top.children top [] rfl

theorem length_walkAll (nodes : List Node) : (walkAll nodes).length = sizes nodes := by
  induction nodes using trees_induction with
  | nil => rfl
  | cons node rest inside others =>
      rw [walkAll_cons, List.length_cons, List.length_append, inside, others, sizes, size_eq]
      omega

end Node

/-- A comment as a node. -/
def Comment.toNode (c : Comment) : Node := .comment c.position c.text

/-- A declaration as a node. -/
def Declaration.toNode (d : Declaration) : Node :=
  .declaration d.position d.property d.value d.important

/-- The node is a declaration. -/
def Node.isDeclaration : Node → Bool
  | .declaration _ _ _ _ => true
  | _ => false

theorem map_toNode_comments (nodes : List Node) :
    (nodes.filterMap Node.comment?).map Comment.toNode = nodes.filter Node.isComment := by
  induction nodes with
  | nil => rfl
  | cons node rest ih =>
      cases node with
      | comment p text => exact congrArg (Node.comment p text :: ·) ih
      | _ => exact ih

theorem map_toNode_declarations (nodes : List Node) :
    (nodes.filterMap Node.declaration?).map Declaration.toNode
      = nodes.filter Node.isDeclaration := by
  induction nodes with
  | nil => rfl
  | cons node rest ih =>
      cases node with
      | declaration p property value important =>
          exact congrArg (Node.declaration p property value important :: ·) ih
      | _ => exact ih

/-- The walk over a document meets the node at each place below the top exactly once, in the only
order in which every node comes before those that stand in it and these before what follows beside
it; so it meets as many nodes as the document has below its top.  The comments and the declarations
are those of the walk, in its order. -/
theorem Document.walk_preorder (d : Document) :
    (∃ places : List TreePlace, d.top.IsPreorder places ∧ places.Nodup
      ∧ (∀ others, d.top.IsPreorder others → others = places)
      ∧ places.map d.top.at? = d.walk.map some)
    ∧ d.walk.length + 1 = d.top.size
    ∧ d.comments.map Comment.toNode = d.walk.filter Node.isComment
    ∧ d.declarations.map Declaration.toNode = d.walk.filter Node.isDeclaration := by
  have preorder := d.top.isPreorder_places
  refine ⟨⟨d.top.places, preorder, preorder.nodup, fun _ => preorder.unique, ?_⟩, ?_, ?_, ?_⟩
  · exact d.top.map_at?_places
  · rw [Node.size_eq, walk, Node.length_walkAll]
    rfl
  · exact map_toNode_comments d.walk
  · exact map_toNode_declarations d.walk

end StyleAudit
