/-
Module: StyleAudit.Yaml.Object
Purpose: What the nodes of a YAML document denote, node by node.
Trusted boundary: none
Main exports: Object, Objects, Objects.ofGraph, Objects.denotation
-/
import StyleAudit.Format.Denotation
import StyleAudit.Yaml.MergeKey
import StyleAudit.Yaml.Scalar

namespace StyleAudit.Yaml

open Format

/-!
### Objects

A node denotes one object, however many references lead to it.  A scalar's object is
its value.  A collection's object is begun empty when a reference to it is first met,
and filled later, in the order in which collections were begun.  So what stands nearer
to the outermost node is read first, and of several faults the one nearest to it counts.
-/

/-- What a node denotes; parts that are nodes are given by number. -/
inductive Object where
  | scalar (v : Value)
  | list (items : List NodeId)
  | pairs (items : List (NodeId × NodeId))
  | mapping (entries : Table Key NodeId)
  | set (members : List Key)

/-- The objects of nodes by number, as far as they are begun. -/
abbrev Objects := Array (Option Object)

/-- The object of a node, if it is begun. -/
def Objects.object? (objects : Objects) (id : NodeId) : Option Object :=
  objects[id]?.join

/-- The nodes, their objects so far, the collections in the order in which they were
begun, and how many merge keys there were. -/
structure Building where
  graph : Graph
  objects : Objects
  begun : Array NodeId
  mergeKeys : Nat

/-- Building the objects of nodes. -/
abbrev Build := StateT Building (Except Fault)

namespace Build

/-- Gives a node its object. -/
def put (id : NodeId) (o : Object) : Build Unit :=
  modify fun s => { s with objects := s.objects.set! id (some o) }

/-- Begins the object of a collection. -/
def begin_ (id : NodeId) (o : Object) : Build Unit := do
  put id o
  modify fun s => { s with begun := s.begun.push id }

end Build

/-- The text of a node that is tagged as a scalar.  A mapping has the text of the value
at its key that is tagged as a default value.  The first argument bounds how many
mappings are entered; only mappings inside themselves exceed the number of nodes. -/
def Graph.text (g : Graph) : Nat → NodeId → Except Fault Text
  | 0, _ => .error .unrepresentable
  | depth + 1, id =>
      match (g.node id).content with
      | .scalar text => .ok text
      | .sequence _ => .error .malformed
      | .mapping pairs =>
          match pairs.find? fun pair => (g.node pair.1).tag = .value with
          | some (_, item) => g.text depth item
          | none => .error .malformed

/-- The value of a node that is tagged as a scalar.  A time must be written as a scalar.
A float that is no number is labelled with its node, since it is the same as itself only. -/
def Graph.scalarValue (g : Graph) (id : NodeId) : Except Fault Value := do
  let node := g.node id
  let text ← g.text (g.size + 1) id
  match node.tag, node.content with
  | .timestamp, .scalar text => Yaml.scalarValue (id + 1) .timestamp text
  | .timestamp, _ => .error .unrepresentable
  | tag, _ => Yaml.scalarValue (id + 1) tag text

namespace Build

/-- Builds the object of a node, or begins it, unless that was done before. -/
def construct (id : NodeId) : Build Unit := do
  let s ← get
  if (s.objects.object? id).isNone then
    match (s.graph.node id).tag with
    | .seq => begin_ id (.list [])
    | .pairs => begin_ id (.pairs [])
    | .map => begin_ id (.mapping [])
    | .set => begin_ id (.set [])
    | .merge | .value | .unknown => throw .malformed
    | _ => put id (.scalar (← s.graph.scalarValue id))

/-- The key that a node's object is; collections are no keys. -/
def key (id : NodeId) : Build Key := do
  match (← get).objects.object? id with
  | some (.scalar v) =>
      match v.toKey? with
      | some k => return k
      | none => throw .malformed
  | _ => throw .malformed

/-- The entries that the pairs of a mapping give.  Of several pairs with one key the
last value counts, at the first one's place. -/
def entries : List (NodeId × NodeId) → Table Key NodeId → Build (Table Key NodeId)
  | [], table => return table
  | (keyNode, item) :: rest, table => do
      construct keyNode
      let k ← key keyNode
      construct item
      entries rest (Table.put k item table)

/-- The entries of a node, its merge keys replaced; it must be a mapping. -/
def entriesOf (id : NodeId) : Build (Table Key NodeId) := do
  let s ← get
  match (s.graph.node id).content with
  | .mapping _ => do
      let (_, graph) ← (bringPairs (s.mergeKeys + 1) id).run s.graph
      modify fun s => { s with graph := graph }
      entries (graph.pairs id) []
  | _ => throw .malformed

/-- The pair that an item of a list of pairs gives: it is a mapping with one pair. -/
def pairOf (id : NodeId) : Build (NodeId × NodeId) := do
  match ((← get).graph.node id).content with
  | .mapping [(keyNode, item)] =>
      construct keyNode
      construct item
      return (keyNode, item)
  | _ => throw .malformed

/-- The items of a node, which must be a sequence. -/
def itemsOf (id : NodeId) : Build (List NodeId) := do
  match ((← get).graph.node id).content with
  | .sequence items => return items
  | _ => throw .malformed

/-- Fills the object of a collection. -/
def fill (id : NodeId) : Build Unit := do
  match (← get).objects.object? id with
  | some (.list _) =>
      let items ← itemsOf id
      items.forM construct
      put id (.list items)
  | some (.pairs _) =>
      let pairs ← (← itemsOf id).mapM pairOf
      put id (.pairs pairs)
  | some (.mapping _) => put id (.mapping (← entriesOf id))
  | some (.set _) => put id (.set (← entriesOf id).keys)
  | _ => return

/-- Fills the collections from one of those begun on, each in its turn.  A collection is
begun only once, so the number of nodes bounds their number. -/
def fillFrom : Nat → Nat → Build Unit
  | 0, _ => return
  | fuel + 1, place => do
      match (← get).begun[place]? with
      | some id =>
          fill id
          fillFrom fuel (place + 1)
      | none => return

end Build

/-- The objects of all nodes that the outermost node refers to. -/
def Objects.ofGraph (root : NodeId) (g : Graph) : Except Fault Objects :=
  let start : Building := ⟨g, Array.replicate g.size none, #[], g.mergeKeys⟩
  let building : Build Unit := do
    Build.construct root
    Build.fillFrom (g.size + 1) 0
  (building.run start).map (·.2.objects)

/-!
### Values
-/

/-- What a node denotes inside the collections around it, which are given by number.
Collections around a node differ, so the number of nodes bounds the depth. -/
def Objects.denotationIn (objects : Objects) : Nat → List NodeId → NodeId → Denotation
  | 0, _, _ => .finite .null
  | depth + 1, around, id =>
      let entered := around.contains id
      let inside := objects.denotationIn depth (id :: around)
      match objects.object? id with
      | some (.scalar v) => .finite v
      | some (.set members) => .finite (.set members)
      | some (.list items) =>
          if entered then .innerSeq else .seq (items.map inside)
      | some (.pairs items) =>
          if entered then .innerSeq
          else .seq (items.map fun (first, second) => .seq [inside first, inside second])
      | some (.mapping entries) =>
          if entered then .innerMap
          else .map (entries.map fun (k, item) => (k, inside item))
      | none => .finite .null

/-- What a node denotes. -/
def Objects.denotation (objects : Objects) (id : NodeId) : Denotation :=
  objects.denotationIn (objects.size + 1) [] id

end StyleAudit.Yaml
