/-
Module: StyleAudit.Proofs.Config.RoundTrip
Purpose: A checked configuration that is written as a mapping of its fields is read back as it
  was, and nothing is left in the mapping to be resolved.
Trusted boundary: none
Main exports: EntryNames.isProper, saysFields_toMapping, configuration_roundTrip
-/
import StyleAudit.Proofs.Config.ShapeFaults
import StyleAudit.Proofs.FileSystem.PathText

namespace StyleAudit

/-!
### Writing the fields

What an entry for the base directory names is a path whose names are names, so its text is read
back, however the entry spelled it.  Of the fields that may be absent or null, a mapping that was
written has the plugins and the flag.
-/

theorem EntryNames.isProper {entry : Option Value} {p : Path} (names : EntryNames entry (some p)) :
    p.IsProper := by
  cases names with
  | text t => exact Path.isProper_ofText t

/-- The mapping that a configuration is written as says the configuration. -/
theorem saysFields_toMapping {c : Configuration}
    (proper : ∀ p, c.basedir = some p → p.IsProper) : SaysFields c.toMapping c where
  rules := rfl
  plugins := .given c.plugins
  quiet := .given c.quiet
  basedir := by
    have written : c.toMapping.find? basedirKey
        = some ((c.basedir.map fun p => Value.str p.display).getD .null) := by
      cases held : c.basedir <;> simp only [Configuration.toMapping, held] <;> rfl
    rw [written]
    cases held : c.basedir with
    | none => exact .null
    | some p =>
        have names := EntryNames.text p.display
        rwa [Path.ofText_display (proper p held)] at names

/-- A configuration that was read from a mapping is read back from the mapping that it is
written as.  Wherever that is resolved, it comes to itself, and nothing is looked up. -/
theorem configuration_roundTrip {data : Mapping} {c : Configuration}
    (read : Configuration.ofValue (.map data) = .ok c) :
    Configuration.ofValue (.map c.toMapping) = .ok c
      ∧ ∀ w base, resolveConfig w c.toMapping base = pure c.toMapping := by
  have fields := hasFields_of_ofValue read
  have proper : ∀ p, c.basedir = some p → p.IsProper := by
    intro p held
    have names := basedirField_eq_iff.1 fields.basedir
    rw [held] at names
    exact names.isProper
  have said := saysFields_toMapping proper
  have readBack := (ofValue_eq_ok_of_rules said.rules (by simp)).2 said
  exact ⟨readBack, resolveConfig_of_lookups_absent rfl⟩

/-!
The flag is null, the plugins are missing, and the base directory has two slashes at its start
and several ways to stay where it is.
-/

/-- Entries of which none is written as it was read. -/
def looseEntries : Mapping :=
  [(.str "quiet", .null), (.str "config_basedir", .str "//srv/./web//../.")
    , (.str "extends", .str "./other"), (.str "rules", .map [(.int 1, .seq [.null])])]

theorem configuration_roundTrip_loose :
    ∃ c, Configuration.ofValue (.map looseEntries) = .ok c
      ∧ c.toMapping = [(.str "rules", .map [(.int 1, .seq [.null])]), (.str "plugins", .map []),
        (.str "quiet", .bool false), (.str "config_basedir", .str "//srv/web/..")]
      ∧ Configuration.ofValue (.map c.toMapping) = .ok c
      ∧ ∀ w base, resolveConfig w c.toMapping base = pure c.toMapping := by
  have read : Configuration.ofValue (.map looseEntries)
      = .ok ⟨[(.int 1, .seq [.null])], [], false, some ⟨.doubleRoot, ["srv", "web", ".."]⟩⟩ := by
    rfl
  exact ⟨_, read, rfl, configuration_roundTrip read⟩

end StyleAudit
