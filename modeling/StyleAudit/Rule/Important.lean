/-
Module: StyleAudit.Rule.Important
Purpose: The rule against important declarations.
Trusted boundary: none
Main exports: Important.name, Important.rule
-/
import StyleAudit.Rule.Basic

namespace StyleAudit.Important

/-!
### Important declarations
-/

/-- The rule's name in configurations. -/
def name : String := "declaration-no-important"

/-- The finding about an important declaration. -/
def finding (d : Declaration) : Finding :=
  .report name ("Unexpected !important on \"" ++ d.property ++ "\" (" ++ name ++ ")") d.position

/-- The findings in a document. -/
def findings (d : Document) : List Finding :=
  (d.declarations.filter (·.important)).map finding

/-- The rule; it has no options. -/
def rule : Rule :=
  ⟨.builtin name, fun _ _ => .ok fun d => .found (findings d)⟩

end StyleAudit.Important
