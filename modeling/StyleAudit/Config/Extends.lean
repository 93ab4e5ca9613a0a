/-
Module: StyleAudit.Config.Extends
Purpose: Which files a configuration says it extends.
Trusted boundary: none
Main exports: extendsKey, lookupsOf
-/
import StyleAudit.Failure

namespace StyleAudit

/-- The key of the lookups of extended files. -/
def extendsKey : String := "extends"

/-- The lookups that a configuration extends.  A value that holds nothing means
none; otherwise it must be a text or a list of texts. -/
def lookupsOf (config : Mapping) : Except ConfigFault (List Text) :=
  match config.find? extendsKey with
  | none => .ok []
  | some v =>
      if !v.holds then .ok []
      else
        match v with
        | .str lookup => .ok [lookup]
        | .seq items =>
            match items.mapM Value.text? with
            | some lookups => .ok lookups
            | none => .error (.extendsShape v.kindName)
        | _ => .error (.extendsShape v.kindName)

end StyleAudit
