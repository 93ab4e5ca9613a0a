/-
Module: StyleAudit.Yaml.Node
Purpose: The graph of nodes that YAML tokens spell.
Trusted boundary: none
Main exports: Node, Graph, Node.ofTokens
-/
import StyleAudit.Yaml.Token
import StyleAudit.Yaml.Tag

namespace StyleAudit.Yaml

open Format

/-!
### Nodes

An alias stands for the very node that its anchor marks, which may be a node that the
alias stands in.  So nodes are numbered in the order in which they begin, and refer to
each other by number.
-/

/-- The number of a node. -/
abbrev NodeId := Nat

/-- What a node holds: a text, or other nodes. -/
inductive Content where
  | scalar (text : Text)
  | sequence (items : List NodeId)
  | mapping (pairs : List (NodeId × NodeId))
deriving Repr, Inhabited

/-- A node of a document. -/
structure Node where
  tag : Tag
  content : Content
deriving Repr

/-- The nodes of a document by number. -/
abbrev Graph := Array Node

/-- A number that no node has leads to an empty scalar. -/
def Graph.node (g : Graph) (id : NodeId) : Node :=
  g[id]?.getD ⟨.unknown, .scalar ""⟩

/-- The tokens still to be read and what stands behind them, the nodes that anchors
have marked, the handles that directives explain, and the nodes so far. -/
structure Composing where
  tokens : List Token
  fault : Option Fault
  anchors : List (String × NodeId)
  handles : List (String × String)
  graph : Graph

/-- Reading nodes off the tokens. -/
abbrev Compose := StateT Composing (Except Fault)

namespace Compose

/-- The text breaks the grammar. -/
def malformed {α : Type} : Compose α := throw .malformed

/-- The next token.  Behind the last one comes the fault that ended the scanning, or
else the end of the stream. -/
def peek : Compose Token := do
  let s ← get
  match s.tokens, s.fault with
  | token :: _, _ => return token
  | [], some fault => throw fault
  | [], none => return .streamEnd

/-- Takes the next token. -/
def skip : Compose Unit :=
  modify fun s => { s with tokens := s.tokens.tail }

/-- Takes the next token if it is the given one; says whether it was. -/
def accept (t : Token) : Compose Bool := do
  if (← peek) = t then
    skip
    return true
  else return false

/-- Takes the next token, which must be the given one. -/
def require (t : Token) : Compose Unit := do
  if !(← accept t) then malformed

/-- Begins a node, and marks it by an anchor when there is one. -/
def begin_ (anchor : Option String) (tag : Tag) (content : Content) : Compose NodeId := do
  let id := (← get).graph.size
  modify fun s => { s with
    graph := s.graph.push ⟨tag, content⟩
    anchors := match anchor with
      | some name => (name, id) :: s.anchors
      | none => s.anchors }
  return id

/-- Completes a node that holds other nodes. -/
def complete (id : NodeId) (content : Content) : Compose NodeId := do
  modify fun s => { s with graph := s.graph.modify id fun node => { node with content := content } }
  return id

/-- The anchor at this place, when there is one. -/
def takeAnchor : Compose (Option String) := do
  match ← peek with
  | .anchor name =>
      skip
      return some name
  | _ => return none

/-- The tag at this place as it is written, when there is one. -/
def takeTag : Compose (Option TagText) := do
  match ← peek with
  | .tag text =>
      skip
      return some text
  | _ => return none

/-- The name of a tag; its handle must be known. -/
def tagName : Option TagText → Compose (Option String)
  | none => return none
  | some text =>
      match text.handle with
      | none => return some text.suffix
      | some handle => do
          match (← get).handles.lookup handle with
          | some meaning => return some (meaning ++ text.suffix)
          | none => malformed

/-- The anchor and the tag of a node, in either order. -/
def takeProperties : Compose (Option String × Option String) := do
  match ← takeAnchor with
  | some anchor => return (some anchor, ← tagName (← takeTag))
  | none =>
      match ← takeTag with
      | some tag =>
          let anchor ← takeAnchor
          return (anchor, ← tagName (some tag))
      | none => return (none, none)

/-- An anchor may be used only once. -/
def checkAnchor : Option String → Compose Unit
  | none => return
  | some name => do
      if (← get).anchors.any (·.1 == name) then malformed

/-- The tag of a scalar: the one written, or the one its text gives it. -/
def scalarTag (written : Option String) (plain : Bool) (text : Text) : Tag :=
  match written with
  | none => if plain then Tag.ofPlain text else .str
  | some "!" => Tag.ofPlain text
  | some name => Tag.ofName name

/-- The tag of a collection: the one written, or the given one. -/
def collectionTag (written : Option String) (given : Tag) : Tag :=
  match written with
  | none => given
  | some "!" => given
  | some name => Tag.ofName name

/-- A node where the grammar allows one and none is written. -/
def empty : Compose NodeId :=
  begin_ none (Tag.ofPlain "") (.scalar "")

/-- A token that cannot start a node inside a block mapping. -/
def endsMappingPart : Token → Bool
  | .key => true
  | .value => true
  | .blockEnd => true
  | _ => false

mutual

/-- A node.  Blocks are allowed or not, and so is a sequence whose hyphens stand
at the column of the mapping around it.  The first argument bounds the
number of tokens that are read. -/
def node : Nat → Bool → Bool → Compose NodeId
  | 0, _, _ => malformed
  | fuel + 1, blocks, hyphens => do
      match ← peek with
      | .alias name =>
          skip
          match (← get).anchors.lookup name with
          | some named => return named
          | none => malformed
      | _ =>
          let (anchor, written) ← takeProperties
          let _ ← peek
          checkAnchor anchor
          content fuel blocks hyphens anchor written

/-- What stands behind a node's anchor and tag. -/
def content : Nat → Bool → Bool → Option String → Option String → Compose NodeId
  | 0, _, _, _, _ => malformed
  | fuel + 1, blocks, hyphens, anchor, written => do
      let sequence := begin_ anchor (collectionTag written .seq) (.sequence [])
      let mapping := begin_ anchor (collectionTag written .map) (.mapping [])
      let nothing :=
        if anchor.isSome || written.isSome then
          begin_ anchor (scalarTag written true "") (.scalar "")
        else malformed
      match ← peek with
      | .blockEntry =>
          if hyphens then
            let id ← sequence
            complete id (.sequence (← hyphenItems fuel))
          else nothing
      | .scalar text plain =>
          skip
          begin_ anchor (scalarTag written plain text) (.scalar text)
      | .flowSequenceStart =>
          skip
          let id ← sequence
          complete id (.sequence (← flowItems fuel true))
      | .flowMappingStart =>
          skip
          let id ← mapping
          complete id (.mapping (← flowPairs fuel true))
      | .blockSequenceStart =>
          if blocks then
            skip
            let id ← sequence
            complete id (.sequence (← blockItems fuel))
          else nothing
      | .blockMappingStart =>
          if blocks then
            skip
            let id ← mapping
            complete id (.mapping (← blockPairs fuel))
          else nothing
      | _ => nothing

/-- The items of a block sequence up to its end. -/
def blockItems : Nat → Compose (List NodeId)
  | 0 => malformed
  | fuel + 1 => do
      if ← accept .blockEntry then
        let item ←
          match ← peek with
          | .blockEntry => empty
          | .blockEnd => empty
          | _ => node fuel true false
        return item :: (← blockItems fuel)
      else
        require .blockEnd
        return []

/-- The items of a sequence whose hyphens stand at its mapping's column. -/
def hyphenItems : Nat → Compose (List NodeId)
  | 0 => malformed
  | fuel + 1 => do
      if ← accept .blockEntry then
        let next ← peek
        let item ←
          if next = .blockEntry || endsMappingPart next then empty
          else node fuel true false
        return item :: (← hyphenItems fuel)
      else return []

/-- The key or the value of a pair in a block mapping. -/
def blockPart : Nat → Compose NodeId
  | 0 => malformed
  | fuel + 1 => do
      if endsMappingPart (← peek) then empty else node fuel true true

/-- The pairs of a block mapping up to its end. -/
def blockPairs : Nat → Compose (List (NodeId × NodeId))
  | 0 => malformed
  | fuel + 1 => do
      if ← accept .key then
        let key ← blockPart fuel
        let v ← if ← accept .value then blockPart fuel else empty
        return (key, v) :: (← blockPairs fuel)
      else
        require .blockEnd
        return []

/-- The items of a sequence in brackets, behind the first bracket or an item. -/
def flowItems : Nat → Bool → Compose (List NodeId)
  | 0, _ => malformed
  | fuel + 1, first => do
      if ← accept .flowSequenceEnd then return []
      else
        if !first then require .flowEntry
        if ← accept .flowSequenceEnd then return []
        else if ← accept .key then
          let id ← begin_ none .map (.mapping [])
          let pair ← flowPair fuel .flowSequenceEnd
          let id ← complete id (.mapping [pair])
          return id :: (← flowItems fuel false)
        else
          let item ← node fuel false false
          return item :: (← flowItems fuel false)

/-- A pair in brackets or braces, behind its key mark. -/
def flowPair : Nat → Token → Compose (NodeId × NodeId)
  | 0, _ => malformed
  | fuel + 1, closing => do
      let next ← peek
      let key ←
        if next = .value || next = .flowEntry || next = closing then empty
        else node fuel false false
      if ← accept .value then
        let next ← peek
        let v ← if next = .flowEntry || next = closing then empty
          else node fuel false false
        return (key, v)
      else return (key, ← empty)

/-- The pairs of a mapping in braces, behind the first brace or a pair. -/
def flowPairs : Nat → Bool → Compose (List (NodeId × NodeId))
  | 0, _ => malformed
  | fuel + 1, first => do
      if ← accept .flowMappingEnd then return []
      else
        if !first then require .flowEntry
        if ← accept .flowMappingEnd then return []
        else if ← accept .key then
          let pair ← flowPair fuel .flowMappingEnd
          return pair :: (← flowPairs fuel false)
        else
          let key ← node fuel false false
          let v ← empty
          return (key, v) :: (← flowPairs fuel false)

end

/-!
### Documents

A text holds at most one document.  Directives may precede it, and then a marker
must; markers of its end may follow it.
-/

/-- The handles that are known without directives. -/
def standardHandles : List (String × String) :=
  [("!", "!"), ("!!", standardRepository)]

/-- The directives before a document: the handles that they explain. -/
def directives : Nat → Bool → List (String × String) → Compose (List (String × String))
  | 0, _, _ => malformed
  | fuel + 1, versioned, handles => do
      match ← peek with
      | .versionDirective major =>
          skip
          if versioned || major ≠ 1 then malformed else directives fuel true handles
      | .tagDirective handle meaning =>
          skip
          if handles.any (·.1 == handle) then malformed
          else directives fuel versioned ((handle, meaning) :: handles)
      | .otherDirective =>
          skip
          directives fuel versioned handles
      | _ => return handles

/-- Takes the markers of a document's end. -/
def skipEnds : Nat → Compose Unit
  | 0 => return
  | fuel + 1 => do
      if ← accept .documentEnd then skipEnds fuel

/-- The end of the stream behind a document.  A further document is refused once its
own start has been read. -/
def streamEnd (fuel : Nat) : Compose Unit := do
  skipEnds fuel
  if (← peek) ≠ .streamEnd then
    let _ ← directives fuel false []
    let _ ← peek
    malformed

/-- The document of a text, when there is one. -/
def document (fuel : Nat) : Compose (Option NodeId) := do
  match ← peek with
  | .streamEnd => return none
  | .versionDirective _ | .tagDirective _ _ | .otherDirective | .documentStart =>
      let handles ← directives fuel false []
      require .documentStart
      modify fun s => { s with handles := handles ++ standardHandles }
      let root ←
        match ← peek with
        | .versionDirective _ | .tagDirective _ _ | .otherDirective | .documentStart
        | .documentEnd | .streamEnd => empty
        | _ => node fuel true false
      streamEnd fuel
      return some root
  | _ =>
      let root ← node fuel true false
      streamEnd fuel
      return some root

end Compose

/-- The nodes that the tokens of a whole text spell, and the number of the outermost
one; no number for a text without a document. -/
def Node.ofTokens (scanned : Scanned) : Except Fault (Option NodeId × Graph) :=
  let start : Composing := ⟨scanned.tokens, scanned.fault, [], Compose.standardHandles, #[]⟩
  ((Compose.document (4 * scanned.tokens.length + 4)).run start).map
    fun (root, done) => (root, done.graph)

end StyleAudit.Yaml
