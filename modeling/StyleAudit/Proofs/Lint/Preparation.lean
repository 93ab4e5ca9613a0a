/-
Module: StyleAudit.Proofs.Lint.Preparation
Purpose: What it takes for options to come to a configuration, step by step and without the
  records that are logged.
Trusted boundary: none
Main exports: prepare_ok_iff, HasFields, hasFields_of_ofValue, rulesAlone, prepare_rulesAlone
-/
import StyleAudit.Lint
import StyleAudit.Proofs.Config.Gathering

namespace StyleAudit

/-- Options come to a configuration when they hold one, its base directory is found, it can be
resolved, the overrides fit on it, and the fields of the result are sound. -/
theorem prepare_ok_iff {w : World} {options : Mapping} {c : Configuration} {base : Path} :
    (prepare w (.map options)).outcome = .ok (c, base) ↔
      ∃ config resolved merged, configOf options = .map config
        ∧ baseDirectory w options config = .ok base
        ∧ (resolveConfig w config base).outcome = .ok resolved
        ∧ applyOverrides? (.map resolved) (overridesOf options) = some merged
        ∧ Configuration.ofValue merged = .ok c := by
  simp only [prepare]
  cases held : configOf options with
  | map config =>
      simp only [Logged.outcome_bind, bind_eq_ok_iff, outcome_ofExcept]
      constructor
      · rintro ⟨start, found, resolved, resolution, finished⟩
        cases laid : applyOverrides? (.map resolved) (overridesOf options) with
        | none =>
            rw [laid] at finished
            cases finished
        | some merged =>
            rw [laid] at finished
            simp only [Logged.outcome_bind, bind_eq_ok_iff, outcome_ofExcept, outcome_note,
              Logged.outcome_pure, Except.ok.injEq, Prod.mk.injEq] at finished
            obtain ⟨checked, sound, _, _, rfl, rfl⟩ := finished
            exact ⟨config, resolved, merged, rfl, found, resolution, laid, sound⟩
      · rintro ⟨_, resolved, merged, same, found, resolution, laid, sound⟩
        cases same
        refine ⟨base, found, resolved, resolution, ?_⟩
        rw [laid]
        simp only [Logged.outcome_bind, bind_eq_ok_iff, outcome_ofExcept, outcome_note,
          Logged.outcome_pure]
        exact ⟨c, sound, (), trivial, rfl⟩
  | _ =>
      constructor
      · intro prepared
        cases prepared
      · rintro ⟨_, _, _, same, _⟩
        cases same

/-- The fields of a checked configuration are those of the mapping, none of which is at fault. -/
structure HasFields (data : Mapping) (c : Configuration) : Prop where
  rules : data.find? rulesKey = some (.map c.rules)
  plugins : Configuration.pluginsField (data.find? pluginsKey) = (c.plugins, [])
  quiet : Configuration.quietField (data.find? quietKey) = (c.quiet, [])
  basedir : Configuration.basedirField (data.find? basedirKey) = (c.basedir, [])

theorem fields_of_ofFields {rules : Value} {data : Mapping} {c : Configuration}
    (sound : Configuration.ofFields rules data = .ok c) :
    Configuration.rulesField rules = (c.rules, [])
      ∧ Configuration.pluginsField (data.find? pluginsKey) = (c.plugins, [])
      ∧ Configuration.quietField (data.find? quietKey) = (c.quiet, [])
      ∧ Configuration.basedirField (data.find? basedirKey) = (c.basedir, []) := by
  unfold Configuration.ofFields at sound
  generalize Configuration.rulesField rules = first at sound ⊢
  generalize Configuration.pluginsField (data.find? pluginsKey) = second at sound ⊢
  generalize Configuration.quietField (data.find? quietKey) = third at sound ⊢
  generalize Configuration.basedirField (data.find? basedirKey) = fourth at sound ⊢
  obtain ⟨rules, ruleFaults⟩ := first
  obtain ⟨plugins, pluginFaults⟩ := second
  obtain ⟨quiet, quietFaults⟩ := third
  obtain ⟨basedir, basedirFaults⟩ := fourth
  simp only at sound
  split at sound
  · rename_i faultless
    simp only [List.append_eq_nil_iff] at faultless
    obtain ⟨⟨⟨rfl, rfl⟩, rfl⟩, rfl⟩ := faultless
    cases sound
    exact ⟨rfl, rfl, rfl, rfl⟩
  · cases sound

theorem eq_map_of_rulesField {v : Value} {rules : Mapping}
    (sound : Configuration.rulesField v = (rules, [])) : v = .map rules := by
  cases v with
  | map entries =>
      cases sound
      rfl
  | _ => cases sound

/-- A mapping that is checked with success gives the fields of the configuration. -/
theorem hasFields_of_ofValue {data : Mapping} {c : Configuration}
    (sound : Configuration.ofValue (.map data) = .ok c) : HasFields data c := by
  have checked : Configuration.ofMapping data = .ok c := by
    rw [Configuration.ofValue] at sound
    split at sound
    · cases sound
    · cases made : Configuration.ofMapping data with
      | error fault =>
          rw [made] at sound
          cases sound
      | ok other =>
          rw [made] at sound
          cases sound
          rfl
  rw [Configuration.ofMapping] at checked
  split at checked
  · cases checked
  · split at checked
    · cases checked
    · cases checked
    · rename_i rules _ held
      obtain ⟨fieldRules, fieldPlugins, fieldQuiet, fieldBasedir⟩ := fields_of_ofFields checked
      exact ⟨by rw [held, eq_map_of_rulesField fieldRules], fieldPlugins, fieldQuiet, fieldBasedir⟩

/-- Options that give rules and the wish for errors only, and nothing else. -/
def rulesAlone (rules : Mapping) (quiet : Bool) : Mapping :=
  [(.str rulesKey, .map rules), (.str quietKey, .bool quiet)]

theorem prepare_rulesAlone (w : World) (rules : Mapping) (quiet : Bool) :
    (prepare w (.map (rulesAlone rules quiet))).outcome
      = .ok (⟨rules, [], quiet, none⟩, w.here) := by
  have resolved : (resolveConfig w (rulesAlone rules quiet) w.here).outcome
      = .ok (rulesAlone rules quiet) := by
    rw [resolveConfig_of_lookups_absent rfl]
    rfl
  exact prepare_ok_iff.2 ⟨rulesAlone rules quiet, rulesAlone rules quiet,
    .map (rulesAlone rules quiet), rfl, rfl, resolved, rfl, rfl⟩

end StyleAudit
