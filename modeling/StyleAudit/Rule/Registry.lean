/-
Module: StyleAudit.Rule.Registry
Purpose: The rules that configurations can name.
Trusted boundary: none
Main exports: Registry, Registry.default, Registry.register, Registry.names
-/
import StyleAudit.Rule.EmptyBlock
import StyleAudit.Rule.HexColor
import StyleAudit.Rule.Important
import StyleAudit.Rule.NestingDepth

namespace StyleAudit

/-!
### Registries

A registry is a table of rules by name.  Registering a rule under a name that is
taken replaces the rule and keeps the name's place.
-/

/-- Rules by name. -/
abbrev Registry := Table Key Rule

namespace Registry

/-- The rules that come with this library. -/
def builtins : List (String × Rule) :=
  [(EmptyBlock.name, EmptyBlock.rule), (HexColor.name, HexColor.rule),
   (Important.name, Important.rule), (NestingDepth.name, NestingDepth.rule)]

/-- A registry of the rules that come with this library. -/
def default : Registry :=
  builtins.map fun (name, rule) => (Key.str name, rule)

/-- Registers a rule under a name. -/
def register (name : Key) (rule : Rule) (registry : Registry) : Registry :=
  Table.put name rule registry

/-- The names that are texts, by code point. -/
def names (registry : Registry) : List Text :=
  (registry.keys.filterMap fun key => key.toValue.text?).mergeSort Text.le

end Registry

end StyleAudit
