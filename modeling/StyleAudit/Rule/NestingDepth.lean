/-
Module: StyleAudit.Rule.NestingDepth
Purpose: The rule against blocks that nest too deeply.
Trusted boundary: none
Main exports: NestingDepth.name, NestingDepth.Options, NestingDepth.options, NestingDepth.rule
-/
import StyleAudit.Rule.Basic

namespace StyleAudit.NestingDepth

/-!
### Nesting

A block's depth is the number of blocks around it.  At-rules that are ignored do
not count, neither for themselves nor for what they hold.  The search goes from
block to block, and so does not look below a root that stands inside a document.
-/

/-- The rule's name in configurations. -/
def name : String := "max-nesting-depth"

/-- The option that lists the ignored at-rules. -/
def ignoreOption : String := "ignore_at_rules"

/-- The depth allowed, and the names of ignored at-rules. -/
structure Options where
  limit : Int
  ignored : List Text
deriving DecidableEq, Repr

/-- The node is an ignored at-rule. -/
def isIgnored (ignored : List Text) : Node → Bool
  | .atRule _ atName _ _ => ignored.contains atName
  | _ => false

/-- The finding about a block that is too deep. -/
def finding (limit : Int) (node : Node) : Finding :=
  .report name
    ("Expected nesting depth to be no more than " ++ toString limit ++ " (" ++ name ++ ")")
    node.position

/-- The finding about a block at a depth, if it is too deep. -/
def findingAt (o : Options) (depth : Nat) (node : Node) : List Finding :=
  if !isIgnored o.ignored node && o.limit < depth then [finding o.limit node] else []

/-- The depth inside a block at a depth. -/
def depthInside (o : Options) (depth : Nat) (node : Node) : Nat :=
  if isIgnored o.ignored node then depth else depth + 1

mutual

/-- The findings in a block at a depth and below it. -/
def findingsFrom (o : Options) (depth : Nat) : Node → List Finding
  | .rule p selector children =>
      findingAt o depth (.rule p selector children)
        ++ findingsAmong o (depthInside o depth (.rule p selector children)) children
  | .atRule p atName params children =>
      findingAt o depth (.atRule p atName params children)
        ++ findingsAmong o (depthInside o depth (.atRule p atName params children)) children
  | _ => []

/-- The findings in sibling nodes at a depth and below them. -/
def findingsAmong (o : Options) (depth : Nat) : List Node → List Finding
  | [] => []
  | node :: rest => findingsFrom o depth node ++ findingsAmong o depth rest

end

/-!
### Options

The first option is the limit, an integer that is not negative.  The second is a
mapping that may list at-rules, whose names are taken without leading at-signs.
-/

/-- A name without leading at-signs. -/
def withoutAtSigns (atName : Text) : Text :=
  ⟨atName.points.dropWhile (· == .char '@')⟩

/-- The value of the option that lists at-rules; absent means an empty list. -/
def ignoredField : Value → Value
  | .map fields => (Mapping.find? ignoreOption fields).getD (.seq [])
  | _ => .null

/-- The options that two values give, or the finding about the unusable one. -/
def options (primary secondary : Value) : Except Finding Options :=
  match primary with
  | .int limit =>
      if limit < 0 then .error (.invalidOption name "primary" primary)
      else
        match secondary with
        | .null => .ok ⟨limit, []⟩
        | given =>
            match ignoredField given with
            | .seq names => .ok ⟨limit, names.map fun v => withoutAtSigns v.display⟩
            | v => .error (.invalidOption name ignoreOption v)
  | v => .error (.invalidOption name "primary" v)

/-- The findings in a document under two option values. -/
def findings (primary secondary : Value) (d : Document) : List Finding :=
  match options primary secondary with
  | .ok o => findingsAmong o 0 d.children
  | .error finding => [finding]

/-- The names of ignored at-rules, or the value of an unusable option, can be written. -/
def areWritable (primary secondary : Value) : Bool :=
  match options primary secondary with
  | .ok _ => (ignoredField secondary).isWritable
  | .error (.invalidOption _ _ v) => v.isWritable
  | .error _ => true

/-- The rule.  Options that cannot be written end it. -/
def rule : Rule :=
  ⟨.builtin name, fun primary secondary => .ok fun d =>
    if areWritable primary secondary then .found (findings primary secondary d)
    else ⟨[], some .unusable⟩⟩

end StyleAudit.NestingDepth
