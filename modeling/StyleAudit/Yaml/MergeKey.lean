/-
Module: StyleAudit.Yaml.MergeKey
Purpose: Replacing the merge keys of YAML mappings by the pairs that they bring.
Trusted boundary: none
Main exports: Graph.pairs, Graph.mergeKeys, bringPairs
-/
import StyleAudit.Yaml.Node

namespace StyleAudit.Yaml

open Format

/-!
### Merge keys

A pair whose key is tagged as a merge key brings the pairs of another mapping, or of
the mappings in a list.  What is brought stands before the mapping's own pairs, so that
its own pairs win; of several mappings in a list the first one wins.  The mapping itself
is changed, and so is every mapping whose pairs are brought, because other references
lead to the same nodes.  A key tagged as a default value is a mere text from then on.
-/

/-- Changing the nodes of a document. -/
abbrev Rewrite := StateT Graph (Except Fault)

/-- The pairs of a mapping; none of any other node. -/
def Graph.pairs (g : Graph) (id : NodeId) : List (NodeId × NodeId) :=
  match (g.node id).content with
  | .mapping pairs => pairs
  | _ => []

/-- Gives a mapping other pairs. -/
def Graph.setPairs (g : Graph) (id : NodeId) (pairs : List (NodeId × NodeId)) : Graph :=
  g.modify id fun node => { node with content := .mapping pairs }

/-- The number of pairs with a merge key in all mappings. -/
def Graph.mergeKeys (g : Graph) : Nat :=
  let inNode (node : Node) : Nat :=
    match node.content with
    | .mapping pairs => pairs.countP fun pair => (g.node pair.1).tag = .merge
    | _ => 0
  (g.toList.map inNode).foldl (· + ·) 0

/-- The pairs before the first merge key, what its value is, and the pairs behind it. -/
def splitAtMerge? (g : Graph) : List (NodeId × NodeId) →
    Option (List (NodeId × NodeId) × NodeId × List (NodeId × NodeId))
  | [] => none
  | (key, source) :: rest =>
      if (g.node key).tag = .merge then some ([], source, rest)
      else
        (splitAtMerge? g rest).map fun (before, found, behind) =>
          ((key, source) :: before, found, behind)

/-- Makes a key that is tagged as a default value a text. -/
def settleKey (g : Graph) (key : NodeId) : Graph :=
  if (g.node key).tag = .value then g.modify key fun node => { node with tag := .str } else g

/-- Makes the keys of pairs texts where they are tagged as default values. -/
def settleKeys (g : Graph) (pairs : List (NodeId × NodeId)) : Graph :=
  pairs.foldl (fun g pair => settleKey g pair.1) g

/-- Replaces the merge keys of a mapping.  Every call on a mapping with a merge key takes
one away and none is ever copied, so their number bounds the depth of the calls. -/
def bringPairs : Nat → NodeId → Rewrite Unit
  | 0, _ => return
  | depth + 1, id => do
      let pairs := (← get).pairs id
      match splitAtMerge? (← get) pairs with
      | none => modify fun g => settleKeys g pairs
      | some (before, source, behind) => do
          modify fun g => (settleKeys g before).setPairs id (before ++ behind)
          let bring (mapping : NodeId) : Rewrite (List (NodeId × NodeId)) := do
            match ((← get).node mapping).content with
            | .mapping _ =>
                bringPairs depth mapping
                return (← get).pairs mapping
            | _ => throw .malformed
          let brought ←
            match ((← get).node source).content with
            | .sequence mappings => do
                let lists ← mappings.mapM bring
                pure lists.reverse.flatten
            | _ => bring source
          bringPairs depth id
          modify fun g => g.setPairs id (brought ++ g.pairs id)

end StyleAudit.Yaml
