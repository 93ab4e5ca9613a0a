/-
Module: StyleAudit.Proofs.Document.Reading
Purpose: The reader of documents accepts exactly the serialized forms, gives the node that
  mirrors its value, and refuses all others with the first fault.
Trusted boundary: none
Main exports: Node.ofValue_eq_ok_iff, Node.exists_ofValue_iff, Node.ofValue_eq_error_iff,
  Document.ofValue_exact
-/
import StyleAudit.Proofs.Config.Gathering
import StyleAudit.Proofs.Document.Form

namespace StyleAudit

/-!
### Single fields
-/

theorem coordinateField_eq_ok_iff {name : String} {fields : Mapping} {n : Int} :
    coordinateField name fields = .ok n ↔ HasCoordinate name fields n := by
  unfold coordinateField HasCoordinate
  cases found : fields.find? name with
  | none => simp [eq_comm]
  | some v => cases v <;> simp

theorem coordinateField_eq_error_iff {name : String} {fields : Mapping} {fault : DocumentFault} :
    coordinateField name fields = .error fault ↔
      ∃ v, fields.find? name = some v ∧ (∀ n, v ≠ .int n) ∧ fault = .badCoordinate name v := by
  unfold coordinateField
  cases found : fields.find? name with
  | none => simp
  | some v => cases v <;> simp [eq_comm]

/-- The children are those in the first field of that name. -/
theorem childrenOfFields_eq (fields : Mapping) :
    childrenOfFields fields
      = match fields.find? "nodes" with
        | none => .ok []
        | some v => childrenOfValue v := by
  induction fields with
  | nil => rfl
  | cons entry rest ih =>
      obtain ⟨key, v⟩ := entry
      unfold Mapping.find? at ih ⊢
      rw [childrenOfFields, ih, Table.get?_cons]
      by_cases here : Sameness.same key (Key.str "nodes") = true
      · rw [if_pos here, if_pos here]
      · rw [if_neg here, if_neg here]

theorem childrenOfFields_eq_of_hasChildren {fields : Mapping} {items : List Value}
    (listed : HasChildren fields items) : childrenOfFields fields = nodesOfValues items := by
  rw [childrenOfFields_eq]
  rcases listed with found | ⟨missing, rfl⟩
  · rw [found]
    rfl
  · rw [missing]
    rfl

/-!
### The type of a node
-/

/-- A text that is shown without a replacement character is a text of characters. -/
theorem shown_eq_iff {t : Text} {s : String} (plain : '\ufffd' ∉ s.toList) :
    t.shown = s ↔ t = s := by
  have points : ∀ (points : List CodePoint) (letters : List Char), '\ufffd' ∉ letters →
      points.map CodePoint.shown = letters → points = letters.map .char := by
    intro points
    induction points with
    | nil =>
        rintro _ _ rfl
        rfl
    | cons point rest ih =>
        rintro _ plain rfl
        obtain ⟨first, others⟩ := not_or.1 (mt List.mem_cons.2 plain)
        rw [List.map_cons, List.map_cons, ← ih _ others rfl]
        cases point with
        | char c => rfl
        | surrogate _ => exact absurd rfl first
  constructor
  · rintro rfl
    refine Text.ext (points t.points _ plain ?_)
    simp [Text.shown, Text.characters]
  · rintro rfl
    exact Text.shown_ofString s

theorem shownType_eq_some_iff {fields : Mapping} {name : String}
    (plain : '\ufffd' ∉ name.toList) :
    (((fields.find? "type").getD .null).text?.map Text.shown) = some name
      ↔ HasType fields name := by
  unfold HasType
  cases found : fields.find? "type" with
  | none => simp [Value.text?]
  | some v => cases v <;> simp [Value.text?, shown_eq_iff plain]

theorem nodeOfType_eq_ok_iff {position : Position} {fields : Mapping} {nodes : List Node}
    {node : Node} :
    nodeOfType position fields nodes = .ok node
      ↔ node.position = position ∧ node.Holds fields nodes := by
  constructor
  · intro read
    unfold nodeOfType at read
    simp only at read
    split at read
    · rename_i typed
      cases read
      exact ⟨rfl, (shownType_eq_some_iff (by decide)).1 typed, rfl, rfl⟩
    · rename_i typed
      cases read
      exact ⟨rfl, (shownType_eq_some_iff (by decide)).1 typed, rfl, rfl⟩
    · rename_i typed
      cases read
      exact ⟨rfl, (shownType_eq_some_iff (by decide)).1 typed, rfl, rfl, rfl⟩
    · rename_i typed
      cases read
      exact ⟨rfl, (shownType_eq_some_iff (by decide)).1 typed, rfl, rfl, rfl⟩
    · rename_i typed
      cases read
      exact ⟨rfl, (shownType_eq_some_iff (by decide)).1 typed, rfl⟩
    · cases read
  · rintro ⟨rfl, holds⟩
    unfold nodeOfType
    cases node with
    | root p source children =>
        obtain ⟨typed, rfl, rfl⟩ := holds
        simp only [(shownType_eq_some_iff (by decide)).2 typed, Node.position]
    | rule p selector children =>
        obtain ⟨typed, rfl, rfl⟩ := holds
        simp only [(shownType_eq_some_iff (by decide)).2 typed, Node.position]
    | atRule p name params children =>
        obtain ⟨typed, rfl, rfl, rfl⟩ := holds
        simp only [(shownType_eq_some_iff (by decide)).2 typed, Node.position]
    | declaration p property value important =>
        obtain ⟨typed, rfl, rfl, rfl⟩ := holds
        simp only [(shownType_eq_some_iff (by decide)).2 typed, Node.position]
    | comment p text =>
        obtain ⟨typed, rfl⟩ := holds
        simp only [(shownType_eq_some_iff (by decide)).2 typed, Node.position]

theorem nodeOfType_eq_error_iff {position : Position} {fields : Mapping} {nodes : List Node}
    {fault : DocumentFault} :
    nodeOfType position fields nodes = .error fault
      ↔ (∀ name ∈ nodeTypes, ¬ HasType fields name)
        ∧ fault = .unknownType ((fields.find? "type").getD .null) := by
  have only : ∀ other, nodeOfType position fields nodes = .error other →
      other = .unknownType ((fields.find? "type").getD .null) := by
    intro other refused
    unfold nodeOfType at refused
    simp only at refused
    split at refused
    all_goals cases refused
    rfl
  constructor
  · intro refused
    refine ⟨?_, only fault refused⟩
    intro name known typed
    obtain ⟨node, placed, holds⟩ := exists_holds known typed position nodes
    rw [nodeOfType_eq_ok_iff.2 ⟨placed, holds⟩] at refused
    cases refused
  · rintro ⟨unknown, rfl⟩
    cases read : nodeOfType position fields nodes with
    | ok node =>
        have typed := (nodeOfType_eq_ok_iff.1 read).2.hasType
        exact absurd typed (unknown node.typeName node.typeName_mem)
    | error other => rw [only other read]

/-!
### Children
-/

theorem childrenOfFields_eq_ok_iff {fields : Mapping} {nodes : List Node} :
    childrenOfFields fields = .ok nodes ↔
      ∃ items, HasChildren fields items ∧ nodesOfValues items = .ok nodes := by
  constructor
  · intro read
    rw [childrenOfFields_eq] at read
    cases found : fields.find? "nodes" with
    | none =>
        rw [found] at read
        exact ⟨[], Or.inr ⟨found, rfl⟩, read⟩
    | some v =>
        rw [found] at read
        cases v with
        | seq items => exact ⟨items, Or.inl found, read⟩
        | _ => cases read
  · rintro ⟨items, listed, read⟩
    rw [childrenOfFields_eq_of_hasChildren listed, read]

theorem childrenOfFields_eq_error_iff {fields : Mapping} {fault : DocumentFault} :
    childrenOfFields fields = .error fault ↔
      (∃ v, fields.find? "nodes" = some v ∧ (∀ items, v ≠ .seq items)
          ∧ fault = .childrenNotList v.kindName)
        ∨ ∃ items, fields.find? "nodes" = some (.seq items)
          ∧ nodesOfValues items = .error fault := by
  rw [childrenOfFields_eq]
  cases found : fields.find? "nodes" with
  | none => simp
  | some v => cases v <;> simp [childrenOfValue, Value.kindName, eq_comm]

/-!
### Reading values
-/

theorem nodesOfValues_cons (v : Value) (rest : List Value) :
    nodesOfValues (v :: rest)
      = (Node.ofValue v).bind fun node => (nodesOfValues rest).bind fun nodes =>
          .ok (node :: nodes) := by
  rw [nodesOfValues]
  rfl

/-- A mapping is read in steps, of which the first that fails decides. -/
theorem ofValue_map (fields : Mapping) :
    Node.ofValue (.map fields)
      = (coordinateField "line" fields).bind fun line =>
          (coordinateField "column" fields).bind fun column =>
            (childrenOfFields fields).bind fun nodes =>
              nodeOfType ⟨line, column⟩ fields nodes := by
  rw [Node.ofValue]
  rfl

theorem ofValue_map_of_coordinates {fields : Mapping} {line column : Int}
    (lineGiven : HasCoordinate "line" fields line)
    (columnGiven : HasCoordinate "column" fields column) :
    Node.ofValue (.map fields)
      = (childrenOfFields fields).bind fun nodes => nodeOfType ⟨line, column⟩ fields nodes := by
  rw [ofValue_map, coordinateField_eq_ok_iff.2 lineGiven, coordinateField_eq_ok_iff.2 columnGiven]
  rfl

theorem ofValue_of_not_map {v : Value} (other : ∀ fields, v ≠ .map fields) :
    Node.ofValue v = .error (.notObject v.kindName) := by
  rw [Node.ofValue]
  exact other

theorem nodesOfValues_eq_ok_iff {items : List Value}
    (each : ∀ item ∈ items, ∀ node, Node.ofValue item = .ok node ↔ node.Mirrors item)
    {nodes : List Node} :
    nodesOfValues items = .ok nodes ↔ List.Forall₂ Node.Mirrors nodes items := by
  induction items generalizing nodes with
  | nil =>
      rw [nodesOfValues, List.forall₂_nil_right_iff, Except.ok.injEq]
      exact eq_comm
  | cons item rest ih =>
      obtain ⟨first, others⟩ := List.forall_mem_cons.1 each
      rw [nodesOfValues_cons, bind_eq_ok_iff, List.forall₂_cons_right_iff]
      constructor
      · rintro ⟨node, read, follows⟩
        obtain ⟨below, readRest, same⟩ := bind_eq_ok_iff.1 follows
        cases same
        exact ⟨node, below, (first node).1 read, (ih others).1 readRest, rfl⟩
      · rintro ⟨node, below, mirrors, mirrorsRest, rfl⟩
        refine ⟨node, (first node).2 mirrors, ?_⟩
        rw [(ih others).2 mirrorsRest]
        rfl

/-- A value is read as the node that mirrors it. -/
theorem Node.ofValue_eq_ok_iff (v : Value) :
    ∀ node : Node, Node.ofValue v = .ok node ↔ node.Mirrors v := by
  induction v using Value.node_induction with
  | leaf v other =>
      intro node
      rw [ofValue_of_not_map other]
      refine iff_of_false (by rintro ⟨⟩) ?_
      rintro ⟨⟩
      exact other _ rfl
  | node fields ih =>
      intro node
      constructor
      · intro read
        rw [ofValue_map] at read
        obtain ⟨line, readLine, read⟩ := bind_eq_ok_iff.1 read
        obtain ⟨column, readColumn, read⟩ := bind_eq_ok_iff.1 read
        obtain ⟨nodes, readNodes, read⟩ := bind_eq_ok_iff.1 read
        obtain ⟨placed, holds⟩ := nodeOfType_eq_ok_iff.1 read
        obtain ⟨items, listed, readItems⟩ := childrenOfFields_eq_ok_iff.1 readNodes
        refine .node ?_ ?_ listed ?_ holds
        · rw [placed]
          exact coordinateField_eq_ok_iff.1 readLine
        · rw [placed]
          exact coordinateField_eq_ok_iff.1 readColumn
        · exact (nodesOfValues_eq_ok_iff (listed.forall_mem ih)).1 readItems
      · rintro ⟨line, column, listed, below, holds⟩
        rw [ofValue_map_of_coordinates line column, childrenOfFields_eq_of_hasChildren listed,
          (nodesOfValues_eq_ok_iff (listed.forall_mem ih)).2 below]
        exact nodeOfType_eq_ok_iff.2 ⟨rfl, holds⟩

theorem Node.exists_ofValue_iff (v : Value) :
    (∃ node, Node.ofValue v = .ok node) ↔ v.IsNodeForm := by
  rw [← Node.exists_mirrors_iff]
  exact exists_congr (Node.ofValue_eq_ok_iff v)

theorem exists_nodesOfValues_iff {items : List Value} :
    (∃ nodes, nodesOfValues items = .ok nodes) ↔ ∀ item ∈ items, item.IsNodeForm := by
  simp only [nodesOfValues_eq_ok_iff fun item _ => Node.ofValue_eq_ok_iff item,
    exists_forall₂_iff, Node.exists_mirrors_iff]

/-!
### The first fault
-/

theorem nodesOfValues_eq_error_iff {items : List Value} {fault : DocumentFault} :
    nodesOfValues items = .error fault ↔
      HasFirst Value.IsNodeForm (fun item => Node.ofValue item = .error fault) items := by
  induction items with
  | nil =>
      refine iff_of_false ?_ not_hasFirst_nil
      rw [nodesOfValues]
      rintro ⟨⟩
  | cons item rest ih =>
      rw [nodesOfValues_cons, bind_eq_error_iff, hasFirst_cons, ← ih, ← Node.exists_ofValue_iff]
      refine or_congr_right ?_
      constructor
      · rintro ⟨node, read, follows⟩
        rcases bind_eq_error_iff.1 follows with refused | ⟨_, _, impossible⟩
        · exact ⟨⟨node, read⟩, refused⟩
        · cases impossible
      · rintro ⟨⟨node, read⟩, refused⟩
        exact ⟨node, read, bind_eq_error_iff.2 (Or.inl refused)⟩

/-- A value is refused with the fault that is met first. -/
theorem Node.ofValue_eq_error_iff (v : Value) (fault : DocumentFault) :
    Node.ofValue v = .error fault ↔ v.FirstFault fault := by
  constructor
  · induction v using Value.node_induction with
    | leaf v other =>
        rw [ofValue_of_not_map other]
        rintro ⟨⟩
        exact .notObject other
    | node fields ih =>
        intro refused
        rw [ofValue_map] at refused
        rcases bind_eq_error_iff.1 refused with badLine | ⟨line, readLine, refused⟩
        · obtain ⟨v, found, other, rfl⟩ := coordinateField_eq_error_iff.1 badLine
          exact .line found other
        have lineGiven := coordinateField_eq_ok_iff.1 readLine
        rcases bind_eq_error_iff.1 refused with badColumn | ⟨column, readColumn, refused⟩
        · obtain ⟨v, found, other, rfl⟩ := coordinateField_eq_error_iff.1 badColumn
          exact .column lineGiven found other
        have columnGiven := coordinateField_eq_ok_iff.1 readColumn
        rcases bind_eq_error_iff.1 refused with badChildren | ⟨nodes, readNodes, refused⟩
        · rcases childrenOfFields_eq_error_iff.1 badChildren with
            ⟨v, found, other, rfl⟩ | ⟨items, found, badItems⟩
          · exact .childrenNotList lineGiven columnGiven found other
          · obtain ⟨before, item, after, rfl, passed, badItem⟩ :=
              nodesOfValues_eq_error_iff.1 badItems
            have first := ih _ found item (by simp) badItem
            exact .child lineGiven columnGiven found passed first
        obtain ⟨items, listed, readItems⟩ := childrenOfFields_eq_ok_iff.1 readNodes
        obtain ⟨unknown, rfl⟩ := nodeOfType_eq_error_iff.1 refused
        exact .unknownType lineGiven columnGiven listed
          (exists_nodesOfValues_iff.1 ⟨nodes, readItems⟩) unknown
  · intro first
    induction first with
    | notObject other => exact ofValue_of_not_map other
    | line found other =>
        rw [ofValue_map, coordinateField_eq_error_iff.2 ⟨_, found, other, rfl⟩]
        rfl
    | column lineGiven found other =>
        rw [ofValue_map, coordinateField_eq_ok_iff.2 lineGiven]
        refine bind_eq_error_iff.2 (Or.inr ⟨_, rfl, ?_⟩)
        rw [coordinateField_eq_error_iff.2 ⟨_, found, other, rfl⟩]
        rfl
    | childrenNotList lineGiven columnGiven found other =>
        rw [ofValue_map_of_coordinates lineGiven columnGiven]
        have refused := childrenOfFields_eq_error_iff.2 (Or.inl ⟨_, found, other, rfl⟩)
        exact bind_eq_error_iff.2 (Or.inl refused)
    | child lineGiven columnGiven found passed _ ih =>
        rw [ofValue_map_of_coordinates lineGiven columnGiven]
        refine bind_eq_error_iff.2 (Or.inl ?_)
        refine childrenOfFields_eq_error_iff.2 (Or.inr ⟨_, found, ?_⟩)
        exact nodesOfValues_eq_error_iff.2 ⟨_, _, _, rfl, passed, ih⟩
    | unknownType lineGiven columnGiven listed below unknown =>
        obtain ⟨nodes, readItems⟩ := exists_nodesOfValues_iff.2 below
        rw [ofValue_map_of_coordinates lineGiven columnGiven,
          childrenOfFields_eq_of_hasChildren listed, readItems]
        exact nodeOfType_eq_error_iff.2 ⟨unknown, rfl⟩

/-!
### Documents
-/

/-- A document is what is read as a node of type root. -/
theorem documentOfValue_eq_ok_iff {v : Value} {d : Document} :
    Document.ofValue v = .ok d ↔ Node.ofValue v = .ok d.top := by
  unfold Document.ofValue
  cases Node.ofValue v with
  | error fault => exact iff_of_false (by rintro ⟨⟩) (by rintro ⟨⟩)
  | ok node =>
      constructor
      · intro read
        cases node with
        | root position source children =>
            cases read
            rfl
        | _ => cases read
      · intro same
        cases same
        rfl

theorem documentOfValue_eq_error_iff {v : Value} {fault : DocumentFault} :
    Document.ofValue v = .error fault ↔
      Node.ofValue v = .error fault
        ∨ ∃ node, Node.ofValue v = .ok node ∧ node.typeName ≠ "root"
          ∧ fault = .notRoot node.typeName := by
  unfold Document.ofValue
  cases Node.ofValue v with
  | error other =>
      constructor
      · rintro ⟨⟩
        exact Or.inl rfl
      · rintro (⟨⟨⟩⟩ | ⟨_, ⟨⟩, _⟩)
        rfl
  | ok node =>
      constructor
      · intro refused
        cases node with
        | root _ _ _ => cases refused
        | _ =>
            cases refused
            exact Or.inr ⟨_, rfl, by simp [Node.typeName], rfl⟩
      · rintro (⟨⟨⟩⟩ | ⟨_, ⟨⟩, apart, rfl⟩)
        cases node with
        | root _ _ _ => exact absurd rfl apart
        | _ => rfl

/-- The fault of a child comes before the unknown type of its parent. -/
example : Document.ofValue (.map [(.str "type", .str "sheet"), (.str "nodes", .seq [.null])])
    = .error (.notObject "NoneType") := by
  rfl

end StyleAudit
