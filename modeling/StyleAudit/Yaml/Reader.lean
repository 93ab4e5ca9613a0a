/-
Module: StyleAudit.Yaml.Reader
Purpose: Reading YAML files into values.
Trusted boundary: none
Main exports: Yaml.read
-/
import StyleAudit.Yaml.Object

namespace StyleAudit.Yaml

open Format

/-- What a whole file denotes; a file without a document denotes null. -/
def read (source : Source) : Except Fault Denotation := do
  match ← Node.ofTokens (Token.scan source) with
  | (some root, graph) => do
      let objects ← Objects.ofGraph root graph
      return objects.denotation root
  | (none, _) => return .finite .null

end StyleAudit.Yaml
