/-
Module: StyleAudit.Proofs.Document.Form
Purpose: Which values are the serialized form of a node, when a node mirrors a value, and which
  fault of a value is the first; told without reading the value.
Trusted boundary: none
Main exports: HasType, HasCoordinate, HasChildren, Value.IsNodeForm, Node.Mirrors,
  Value.FirstFault, Value.node_induction, Node.exists_mirrors_iff
-/
import StyleAudit.Document.Reader
import StyleAudit.Proofs.Sequence
import StyleAudit.Proofs.Table

namespace StyleAudit

/-!
### The serialized form

A node is a mapping with one of five types, with a line and a column that are integers where
they are given, and with a list of nodes where children are given.  The children of every node
must have this form, also where they are not kept.
-/

/-- The fields name a type. -/
def HasType (fields : Mapping) (name : String) : Prop :=
  fields.find? "type" = some (.str name)

/-- The value is a mapping whose fields name a type. -/
def Value.IsOfType (v : Value) (name : String) : Prop :=
  ∃ fields, v = .map fields ∧ HasType fields name

/-- The words for the types of nodes. -/
def nodeTypes : List String := ["root", "rule", "atrule", "decl", "comment"]

/-- The fields give a line or a column, or leave it out and mean one. -/
def HasCoordinate (name : String) (fields : Mapping) (n : Int) : Prop :=
  fields.find? name = some (.int n) ∨ (fields.find? name = none ∧ n = 1)

/-- The fields give a list of children, or leave it out and mean none. -/
def HasChildren (fields : Mapping) (items : List Value) : Prop :=
  fields.find? "nodes" = some (.seq items) ∨ (fields.find? "nodes" = none ∧ items = [])

/-- The value is the serialized form of a node. -/
inductive Value.IsNodeForm : Value → Prop where
  | node {fields : Mapping} {name : String} {line column : Int} {items : List Value}
      (known : name ∈ nodeTypes) (typed : HasType fields name)
      (lineGiven : HasCoordinate "line" fields line)
      (columnGiven : HasCoordinate "column" fields column)
      (listed : HasChildren fields items) (below : ∀ item ∈ items, item.IsNodeForm) :
      Value.IsNodeForm (.map fields)

/-- What a node of each type takes from the fields, and whether it keeps the nodes below. -/
def Node.Holds (fields : Mapping) (nodes : List Node) : Node → Prop
  | .root _ source children =>
      HasType fields "root" ∧ source = (fields.find? "source").getD .null ∧ children = nodes
  | .rule _ selector children =>
      HasType fields "rule" ∧ selector = textField "selector" fields ∧ children = nodes
  | .atRule _ name params children =>
      HasType fields "atrule" ∧ name = textField "name" fields
        ∧ params = textField "params" fields ∧ children = nodes
  | .declaration _ property value important =>
      HasType fields "decl" ∧ property = textField "prop" fields
        ∧ value = textField "value" fields
        ∧ important = ((fields.find? "important").getD (.bool false)).holds
  | .comment _ text => HasType fields "comment" ∧ text = textField "text" fields

/-- The node mirrors the value: they agree in type, position and fields, and the nodes below
mirror the children one by one. -/
inductive Node.Mirrors : Node → Value → Prop where
  | node {node : Node} {fields : Mapping} {items : List Value} {nodes : List Node}
      (line : HasCoordinate "line" fields node.position.line)
      (column : HasCoordinate "column" fields node.position.column)
      (listed : HasChildren fields items) (below : List.Forall₂ Node.Mirrors nodes items)
      (holds : node.Holds fields nodes) :
      Node.Mirrors node (.map fields)

/-- The fault is the first one that is met in a value: that it is no mapping, its line, its
column, that its children are no list, the first fault of a child behind children without any,
and last its type. -/
inductive Value.FirstFault : Value → DocumentFault → Prop where
  | notObject {v : Value} (other : ∀ fields, v ≠ .map fields) :
      Value.FirstFault v (.notObject v.kindName)
  | line {fields : Mapping} {v : Value} (found : fields.find? "line" = some v)
      (other : ∀ n, v ≠ .int n) :
      Value.FirstFault (.map fields) (.badCoordinate "line" v)
  | column {fields : Mapping} {line : Int} {v : Value}
      (lineGiven : HasCoordinate "line" fields line)
      (found : fields.find? "column" = some v) (other : ∀ n, v ≠ .int n) :
      Value.FirstFault (.map fields) (.badCoordinate "column" v)
  | childrenNotList {fields : Mapping} {line column : Int} {v : Value}
      (lineGiven : HasCoordinate "line" fields line)
      (columnGiven : HasCoordinate "column" fields column)
      (found : fields.find? "nodes" = some v) (other : ∀ items, v ≠ .seq items) :
      Value.FirstFault (.map fields) (.childrenNotList v.kindName)
  | child {fields : Mapping} {line column : Int} {before after : List Value} {item : Value}
      {fault : DocumentFault}
      (lineGiven : HasCoordinate "line" fields line)
      (columnGiven : HasCoordinate "column" fields column)
      (found : fields.find? "nodes" = some (.seq (before ++ item :: after)))
      (passed : ∀ other ∈ before, other.IsNodeForm) (first : Value.FirstFault item fault) :
      Value.FirstFault (.map fields) fault
  | unknownType {fields : Mapping} {line column : Int} {items : List Value}
      (lineGiven : HasCoordinate "line" fields line)
      (columnGiven : HasCoordinate "column" fields column)
      (listed : HasChildren fields items) (below : ∀ item ∈ items, item.IsNodeForm)
      (unknown : ∀ name ∈ nodeTypes, ¬ HasType fields name) :
      Value.FirstFault (.map fields) (.unknownType ((fields.find? "type").getD .null))

/-- What holds of a mapping when it holds of the children that it lists, and holds of all that
is no mapping, holds of every value. -/
theorem Value.node_induction {motive : Value → Prop}
    (leaf : ∀ v, (∀ fields, v ≠ .map fields) → motive v)
    (node : ∀ fields : Mapping,
      (∀ items, fields.find? "nodes" = some (.seq items) → ∀ item ∈ items, motive item) →
        motive (.map fields))
    (v : Value) : motive v := by
  induction size : sizeOf v using Nat.strongRecOn generalizing v with
  | _ bound ih =>
      cases v with
      | map fields =>
          refine node fields ?_
          intro items found item member
          obtain ⟨key, entry, _⟩ := Table.mem_of_get?_eq_some found
          have inItems := List.sizeOf_lt_of_mem member
          have inFields := List.sizeOf_lt_of_mem entry
          simp only [Prod.mk.sizeOf_spec, Value.seq.sizeOf_spec] at inFields
          rw [Value.map.sizeOf_spec] at size
          exact ih (sizeOf item) (by omega) item rfl
      | _ => exact leaf _ (by rintro _ ⟨⟩)

/-!
### Types and children
-/

theorem HasType.unique {fields : Mapping} {name other : String} (typed : HasType fields name)
    (typedOther : HasType fields other) : name = other := by
  have same := typed.symm.trans typedOther
  rw [Option.some.injEq, Value.str.injEq] at same
  exact Text.ofString_inj.1 same

theorem Node.Holds.hasType {fields : Mapping} {nodes : List Node} {node : Node}
    (holds : node.Holds fields nodes) : HasType fields node.typeName := by
  cases node <;> exact holds.1

theorem Node.typeName_mem (node : Node) : node.typeName ∈ nodeTypes := by
  cases node <;> simp [typeName, nodeTypes]

/-- Fields of each of the types hold what a node takes from them. -/
theorem exists_holds {fields : Mapping} {name : String} (known : name ∈ nodeTypes)
    (typed : HasType fields name) (position : Position) (nodes : List Node) :
    ∃ node : Node, node.position = position ∧ node.Holds fields nodes := by
  simp only [nodeTypes, List.mem_cons, List.not_mem_nil, or_false] at known
  rcases known with rfl | rfl | rfl | rfl | rfl
  · exact ⟨.root position _ nodes, rfl, typed, rfl, rfl⟩
  · exact ⟨.rule position _ nodes, rfl, typed, rfl, rfl⟩
  · exact ⟨.atRule position _ _ nodes, rfl, typed, rfl, rfl, rfl⟩
  · exact ⟨.declaration position _ _ _, rfl, typed, rfl, rfl, rfl⟩
  · exact ⟨.comment position _, rfl, typed, rfl⟩

/-- The type of a value that a node mirrors is the node's. -/
theorem Node.Mirrors.isOfType_iff {node : Node} {v : Value} (mirrors : node.Mirrors v)
    {name : String} : v.IsOfType name ↔ node.typeName = name := by
  obtain ⟨_, _, _, _, holds⟩ := mirrors
  constructor
  · rintro ⟨_, ⟨⟩, typed⟩
    exact holds.hasType.unique typed
  · rintro rfl
    exact ⟨_, rfl, holds.hasType⟩

/-- What holds of the values in a field of children holds of all that are listed. -/
theorem HasChildren.forall_mem {fields : Mapping} {items : List Value}
    (listed : HasChildren fields items) {motive : Value → Prop}
    (each : ∀ items, fields.find? "nodes" = some (.seq items) → ∀ item ∈ items, motive item) :
    ∀ item ∈ items, motive item := by
  rcases listed with found | ⟨_, rfl⟩
  · exact each items found
  · exact List.forall_mem_nil motive

/-- The values that some node mirrors are the serialized forms of nodes. -/
theorem Node.exists_mirrors_iff (v : Value) : (∃ node : Node, node.Mirrors v) ↔ v.IsNodeForm := by
  induction v using Value.node_induction with
  | leaf v other =>
      refine iff_of_false ?_ ?_
      · rintro ⟨_, ⟨⟩⟩
        exact other _ rfl
      · rintro ⟨⟩
        exact other _ rfl
  | node fields ih =>
      constructor
      · rintro ⟨node, line, column, listed, below, holds⟩
        refine .node node.typeName_mem holds.hasType line column listed ?_
        intro item member
        have mirrored := exists_forall₂_iff.1 ⟨_, below⟩ item member
        exact (listed.forall_mem ih item member).1 mirrored
      · rintro ⟨known, typed, line, column, listed, below⟩
        obtain ⟨nodes, mirrored⟩ := exists_forall₂_iff.2 fun item member =>
          (listed.forall_mem ih item member).2 (below item member)
        obtain ⟨node, placed, holds⟩ := exists_holds known typed ⟨_, _⟩ nodes
        refine ⟨node, .node ?_ ?_ listed mirrored holds⟩
        · rw [placed]
          exact line
        · rw [placed]
          exact column

end StyleAudit
