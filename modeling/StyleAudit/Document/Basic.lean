/-
Module: StyleAudit.Document.Basic
Purpose: Documents: the trees of blocks, declarations and comments that rules examine.
Trusted boundary: none
Main exports: Node, Document, Document.walk, Document.comments, Document.declarations
-/
import StyleAudit.Diagnostic
import StyleAudit.Value.Basic

namespace StyleAudit

/-!
### Documents

A document is a tree.  Roots, rules and at-rules hold children; declarations and
comments do not.  A root may also stand below the top.  The source of a root is
whatever the serialized form says, and usually a file name.
-/

/-- A node of a document. -/
inductive Node where
  | root (position : Position) (source : Value) (children : List Node)
  | rule (position : Position) (selector : Text) (children : List Node)
  | atRule (position : Position) (name params : Text) (children : List Node)
  | declaration (position : Position) (property value : Text) (important : Bool)
  | comment (position : Position) (text : Text)
deriving Repr

/-- A whole document: the root at the top. -/
structure Document where
  position : Position
  source : Value
  children : List Node
deriving Repr

namespace Node

/-- Where a node stands. -/
def position : Node → Position
  | .root p _ _ => p
  | .rule p _ _ => p
  | .atRule p _ _ _ => p
  | .declaration p _ _ _ => p
  | .comment p _ => p

/-- The word for a node's type. -/
def typeName : Node → String
  | .root _ _ _ => "root"
  | .rule _ _ _ => "rule"
  | .atRule _ _ _ _ => "atrule"
  | .declaration _ _ _ _ => "decl"
  | .comment _ _ => "comment"

/-- The nodes directly below. -/
def children : Node → List Node
  | .root _ _ nodes => nodes
  | .rule _ _ nodes => nodes
  | .atRule _ _ _ nodes => nodes
  | .declaration _ _ _ _ => []
  | .comment _ _ => []

/-- The node is a comment. -/
def isComment : Node → Bool
  | .comment _ _ => true
  | _ => false

/-- The node is a block: a rule or an at-rule. -/
def isBlock : Node → Bool
  | .rule _ _ _ => true
  | .atRule _ _ _ _ => true
  | _ => false

mutual

/-- Every node below this one, each before its own descendants. -/
def descendants : Node → List Node
  | .root _ _ nodes => walkAll nodes
  | .rule _ _ nodes => walkAll nodes
  | .atRule _ _ _ nodes => walkAll nodes
  | .declaration _ _ _ _ => []
  | .comment _ _ => []

/-- Every node of a list of trees, in source order. -/
def walkAll : List Node → List Node
  | [] => []
  | node :: rest => node :: (node.descendants ++ walkAll rest)

end

end Node

/-- A comment with its text. -/
structure Comment where
  position : Position
  text : Text
deriving DecidableEq, Repr

/-- A declaration with its property and value. -/
structure Declaration where
  position : Position
  property : Text
  value : Text
  important : Bool
deriving DecidableEq, Repr

/-- The comment that a node is, if it is one. -/
def Node.comment? : Node → Option Comment
  | .comment p text => some ⟨p, text⟩
  | _ => none

/-- The declaration that a node is, if it is one. -/
def Node.declaration? : Node → Option Declaration
  | .declaration p property value important => some ⟨p, property, value, important⟩
  | _ => none

namespace Document

/-- The top node of a document. -/
def top (d : Document) : Node :=
  .root d.position d.source d.children

/-- Every node below the top, in source order. -/
def walk (d : Document) : List Node :=
  Node.walkAll d.children

/-- The comments of a document, in source order. -/
def comments (d : Document) : List Comment :=
  d.walk.filterMap Node.comment?

/-- The declarations of a document, in source order. -/
def declarations (d : Document) : List Declaration :=
  d.walk.filterMap Node.declaration?

end Document

end StyleAudit
