/-
Module: StyleAudit.Document.Reader
Purpose: Building documents from their serialized form, and refusing anything else.
Trusted boundary: none
Main exports: Node.ofValue, Document.ofValue
-/
import StyleAudit.Document.Basic
import StyleAudit.Failure

namespace StyleAudit

/-!
### Reading a document

A serialized node is a mapping with a type, perhaps a line and a column, and
perhaps a list of children.  Its checks come in a fixed order: that it is a
mapping, its line, its column, its children one by one, and last its type.
Children of declarations and comments are checked and then dropped.
-/

/-- The text of a field; a field that is absent is empty. -/
def textField (name : String) (fields : Mapping) : Text :=
  match fields.find? name with
  | some v => v.display
  | none => ""

/-- A line or a column; one when it is absent. -/
def coordinateField (name : String) (fields : Mapping) : Except DocumentFault Int :=
  match fields.find? name with
  | none => .ok 1
  | some (.int n) => .ok n
  | some v => .error (.badCoordinate name v)

/-- The node of a type, with its position and its children. -/
def nodeOfType (position : Position) (fields : Mapping) (children : List Node) :
    Except DocumentFault Node :=
  let type := (fields.find? "type").getD .null
  match type.text?.map Text.shown with
  | some "root" => .ok (.root position ((fields.find? "source").getD .null) children)
  | some "rule" => .ok (.rule position (textField "selector" fields) children)
  | some "atrule" =>
      .ok (.atRule position (textField "name" fields) (textField "params" fields) children)
  | some "decl" =>
      let important := ((fields.find? "important").getD (.bool false)).holds
      .ok (.declaration position (textField "prop" fields) (textField "value" fields) important)
  | some "comment" => .ok (.comment position (textField "text" fields))
  | _ => .error (.unknownType type)

mutual

/-- The node that a value is the serialized form of. -/
def Node.ofValue : Value → Except DocumentFault Node
  | .map fields => do
      let line ← coordinateField "line" fields
      let column ← coordinateField "column" fields
      let children ← childrenOfFields fields
      nodeOfType ⟨line, column⟩ fields children
  | v => .error (.notObject v.kindName)

/-- The children in the first field of that name. -/
def childrenOfFields : List (Key × Value) → Except DocumentFault (List Node)
  | [] => .ok []
  | (key, v) :: rest =>
      if Sameness.same key (Key.str "nodes") then childrenOfValue v
      else childrenOfFields rest

/-- The children in a field. -/
def childrenOfValue : Value → Except DocumentFault (List Node)
  | .seq items => nodesOfValues items
  | v => .error (.childrenNotList v.kindName)

/-- The nodes of a list of serialized forms, up to the first fault. -/
def nodesOfValues : List Value → Except DocumentFault (List Node)
  | [] => .ok []
  | v :: rest => do
      let node ← Node.ofValue v
      let nodes ← nodesOfValues rest
      return node :: nodes

end

/-- The document that a value is the serialized form of; its top must be a root. -/
def Document.ofValue (v : Value) : Except DocumentFault Document := do
  match ← Node.ofValue v with
  | .root position source children => .ok ⟨position, source, children⟩
  | node => .error (.notRoot node.typeName)

end StyleAudit
