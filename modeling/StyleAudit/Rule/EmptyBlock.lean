/-
Module: StyleAudit.Rule.EmptyBlock
Purpose: The rule against blocks that hold nothing but comments.
Trusted boundary: none
Main exports: EmptyBlock.name, EmptyBlock.flags, EmptyBlock.rule
-/
import StyleAudit.Rule.Basic

namespace StyleAudit.EmptyBlock

/-!
### Empty blocks

A rule or an at-rule is empty when all its children are comments.  At-rules that
are statements have no block at all, so they are not empty as long as they have no
children.
-/

/-- The rule's name in configurations. -/
def name : String := "block-no-empty"

/-- The names of at-rules that are statements. -/
def statements : List Text := ["import", "charset", "namespace", "use", "forward"]

/-- The node is an empty block. -/
def flags : Node → Bool
  | .rule _ _ children => children.all Node.isComment
  | .atRule _ atName _ children =>
      children.all Node.isComment && !(children.isEmpty && statements.contains atName)
  | _ => false

/-- The finding about an empty block. -/
def finding (node : Node) : Finding :=
  .report name ("Unexpected empty block (" ++ name ++ ")") node.position

/-- The findings in a document. -/
def findings (d : Document) : List Finding :=
  (d.walk.filter flags).map finding

/-- The rule; it has no options. -/
def rule : Rule :=
  ⟨.builtin name, fun _ _ => .ok fun d => .found (findings d)⟩

end StyleAudit.EmptyBlock
