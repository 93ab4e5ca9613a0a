/-
Module: StyleAudit.Config.Inheritance
Purpose: The tree of files that a configuration extends, and the mapping it comes to.
Trusted boundary: none
Main exports: Inheritance, Inheritance.layers, Inheritance.flatten, Inheritance.apart, gather,
  resolveConfig
-/
import StyleAudit.Config.Source
import StyleAudit.Value.Label

namespace StyleAudit

/-!
### Inheritance

A configuration may extend files, and each of them others.  The tree holds at each
node what one configuration says by itself, without its list of lookups, and below
it what it extends, in the order of the lookups.
-/

/-- A configuration with everything that it extends. -/
inductive Inheritance where
  | layer (own : Mapping) (parents : List Inheritance)
deriving Repr

namespace Inheritance

/-- What the configuration at the top says by itself. -/
def own : Inheritance → Mapping
  | .layer own _ => own

/-- What the configuration at the top extends. -/
def parents : Inheritance → List Inheritance
  | .layer _ parents => parents

mutual

/-- The layers of a tree, each before what it extends. -/
def layers : Inheritance → List Mapping
  | .layer own parents => own :: layersAll parents

/-- The layers of several trees. -/
def layersAll : List Inheritance → List Mapping
  | [] => []
  | tree :: rest => tree.layers ++ layersAll rest

end

mutual

/-- The mapping that a tree comes to: each tree that is extended is laid below
everything gathered before it. -/
def flatten : Inheritance → Mapping
  | .layer own parents => flattenBelow own parents

/-- Trees laid one after another below a mapping. -/
def flattenBelow (above : Mapping) : List Inheritance → Mapping
  | [] => above
  | tree :: rest => flattenBelow (Mapping.merge tree.flatten above) rest

end

mutual

/-- A tree whose labels are moved behind those given out so far, and the greatest label
after that. -/
def apartFrom (given : Nat) : Inheritance → Inheritance × Nat
  | .layer own parents =>
      let (apart, after) := apartAll (given + own.labels) parents
      (.layer (own.relabel given) apart, after)

/-- Trees whose labels are moved behind those given out so far. -/
def apartAll (given : Nat) : List Inheritance → List Inheritance × Nat
  | [] => ([], given)
  | tree :: rest =>
      let (first, given) := tree.apartFrom given
      let (others, given) := apartAll given rest
      (first :: others, given)

end

/-- The tree with the labels of each layer apart from those of the others, since each layer
was read by itself. -/
def apart (tree : Inheritance) : Inheritance :=
  (tree.apartFrom 0).1

end Inheritance

/-!
### Anchors
-/

/-- A plugin's lookup as seen from anywhere, when it is a path. -/
def anchorLookup (directory : Path) : Value → Value
  | .str lookup =>
      if isPathLookup lookup then .str (directory.join (Path.ofText lookup)).display
      else .str lookup
  | v => v

/-- A configuration whose plugins that are paths are seen from its file's directory. -/
def anchorPlugins (config : Mapping) (directory : Path) : Mapping :=
  match config.find? pluginsKey with
  | some (.map plugins) =>
      Table.put (Key.str pluginsKey)
        (.map (plugins.map fun (name, v) => (name, anchorLookup directory v))) config
  | _ => config

/-!
### Gathering the tree

The files on the way from the top to a node are its chain.  A file that is on the
chain already would extend itself.  Every step down puts one more file of the tree
of files on the chain, so the gathering ends.
-/

/-- How many files are not on a chain. -/
def filesLeft (w : World) (chain : List Location) : Nat :=
  (w.tree.files.filter fun place => !chain.contains place).length

/-- One more file on the chain leaves fewer. -/
theorem filesLeft_lt {w : World} {chain : List Location} (file : w.tree.File)
    (fresh : ¬ file.place ∈ chain) :
    filesLeft w (chain ++ [file.place]) < filesLeft w chain := by
  unfold filesLeft
  have general : ∀ files : List Location, file.place ∈ files →
      (files.filter fun place => !(chain ++ [file.place]).contains place).length
        < (files.filter fun place => !chain.contains place).length := by
    intro files
    induction files with
    | nil => intro h; cases h
    | cons place rest ih =>
        intro hmem
        have weak : (rest.filter fun place => !(chain ++ [file.place]).contains place).length
            ≤ (rest.filter fun place => !chain.contains place).length := by
          rw [← List.countP_eq_length_filter, ← List.countP_eq_length_filter]
          apply List.countP_mono_left
          intro x _ hx
          simp only [List.contains_eq_mem, List.mem_append, Bool.not_eq_true',
            decide_eq_false_iff_not, not_or] at hx ⊢
          exact hx.1
        by_cases heq : place = file.place
        · subst heq
          simp [fresh]
          simp at weak
          omega
        · have hrest : file.place ∈ rest := by
            cases hmem with
            | head => exact absurd rfl heq
            | tail _ h => exact h
          have := ih hrest
          by_cases hc : place ∈ chain
          · simp [hc] at this ⊢
            exact this
          · simp [hc, heq] at this ⊢
            exact this
  exact general _ file.isFile

mutual

/-- The tree of a configuration seen from a base directory, below a chain. -/
def gather (w : World) (chain : List Location) (config : Mapping) (base : Path) :
    Logged Inheritance :=
  match lookupsOf config with
  | .error fault => Logged.refuse fault
  | .ok lookups => do
      let parents ← gatherAll w chain lookups base
      return .layer (config.without extendsKey) parents
termination_by (filesLeft w chain, 1, 0)

/-- The trees of the files that lookups name. -/
def gatherAll (w : World) (chain : List Location) :
    List Text → Path → Logged (List Inheritance)
  | [], _ => pure []
  | lookup :: rest, base => do
      let file ← w.locate lookup base
      if _fresh : file.place ∈ chain then
        Logged.refuse (.circular (chain.map fun place => ⟨.root, place⟩) file.path)
      else
        Logged.note (.extending file.path)
        let entries ← Logged.ofExcept (w.readConfig file.path)
        let parent ← gather w (chain ++ [file.place]) (anchorPlugins entries file.directory)
          file.directory
        let parents ← gatherAll w chain rest base
        return parent :: parents
termination_by lookups _ => (filesLeft w chain, 0, lookups.length)
decreasing_by
  · exact Prod.Lex.left _ _ (filesLeft_lt file _fresh)
  · exact Prod.Lex.right _ (Prod.Lex.right _ (by simp))

end

/-- The mapping that a configuration comes to, seen from a base directory. -/
def resolveConfig (w : World) (config : Mapping) (base : Path) : Logged Mapping := do
  let tree ← gather w [] config base
  return tree.apart.flatten

end StyleAudit
