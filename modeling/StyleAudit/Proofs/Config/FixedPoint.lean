/-
Module: StyleAudit.Proofs.Config.FixedPoint
Purpose: A resolved configuration names no other files any more, not even with a list of lookups
  that holds nothing.
Trusted boundary: none
Main exports: World.HasDistinctModules, isDistinct_readConfig, isDistinct_of_precedence,
  find?_extends_of_resolveConfig
-/
import StyleAudit.Proofs.Config.Entries
import StyleAudit.Proofs.FileSystem.Following
import StyleAudit.Proofs.Format.DistinctKeys

namespace StyleAudit

/-!
### Configuration files

What a text denotes has its keys apart.  What a module gives is not read from a text, so for
modules it is asked of the file tree.
-/

/-- No module of the file tree gives a configuration in which a key stands twice. -/
def World.HasDistinctModules (w : World) : Prop :=
  ∀ entry ∈ w.tree.entries, ∀ config rule,
    entry.2 = .module (.exporting (some config) rule) → config.HasDistinctKeys

section Files

variable {w : World}

theorem hasDistinctKeys_moduleConfig (modules : w.HasDistinctModules) {file : w.tree.File}
    {found : Format.Denotation} (given : moduleConfig w file = .ok found) :
    found.value.HasDistinctKeys := by
  obtain ⟨imported, importing, done⟩ := bind_eq_ok_iff.1 given
  cases done
  have nothing : Value.null.HasDistinctKeys := Value.hasDistinctKeys_of_not_mapping rfl
  unfold World.importAt at importing
  split at importing
  · cases importing
  · rename_i config rule stands
    cases importing
    cases config with
    | none => exact nothing
    | some v => exact modules _ (mem_entries_of_entryAt? stands) v rule rfl
  · split at importing
    · cases importing
      exact nothing
    · cases importing
  · cases importing

theorem hasDistinctKeys_read {format : TextFormat} {bytes : ByteArray}
    {found : Format.Denotation} (read : format.read bytes = .ok found) :
    found.value.HasDistinctKeys := by
  cases format with
  | json =>
      obtain ⟨_, _, read⟩ := bind_eq_ok_iff.1 read
      obtain ⟨v, whole, done⟩ := bind_eq_ok_iff.1 read
      cases done
      exact Json.hasDistinctKeys_read whole
  | yaml => exact Yaml.hasDistinctKeys_read read
  | toml =>
      obtain ⟨_, _, read⟩ := bind_eq_ok_iff.1 read
      obtain ⟨table, whole, done⟩ := bind_eq_ok_iff.1 read
      cases done
      rintro _ ⟨⟩
      exact Toml.isDistinct_read whole

theorem mapError_eq_ok_iff {ε δ α : Type} {found : Except ε α} {f : ε → δ} {a : α} :
    found.mapError f = .ok a ↔ found = .ok a := by
  cases found <;> simp [Except.mapError]

theorem hasDistinctKeys_readValue (modules : w.HasDistinctModules) {path : Path}
    {found : Format.Denotation} (read : w.readValue path = .ok found) :
    found.value.HasDistinctKeys := by
  unfold World.readValue at read
  split at read
  · cases read
  · split at read
    · cases read
    · split at read
      · exact hasDistinctKeys_moduleConfig modules read
      · split at read
        · exact hasDistinctKeys_read (mapError_eq_ok_iff.1 read)
        · cases read

/-- No key stands twice in the mapping that a configuration file holds. -/
theorem isDistinct_readConfig (modules : w.HasDistinctModules) {path : Path} {entries : Mapping}
    (read : w.readConfig path = .ok entries) : Table.isDistinct entries = true := by
  obtain ⟨file, held, read⟩ := bind_eq_ok_iff.1 read
  split at read
  · cases read
  · cases read
    obtain ⟨found, value, held⟩ := bind_eq_ok_iff.1 held
    have distinct := hasDistinctKeys_readValue modules value
    split at held
    · cases held
      exact distinct _ rfl
    · cases held

theorem isDistinct_anchorPlugins {entries : Mapping} {directory : Path}
    (distinct : Table.isDistinct entries = true) :
    Table.isDistinct (anchorPlugins entries directory) = true := by
  unfold anchorPlugins
  split
  · exact Table.isDistinct_put distinct _
  · exact distinct

mutual

/-- No key stands twice in any configuration that has a say. -/
theorem isDistinct_of_precedence (modules : w.HasDistinctModules) :
    ∀ {config : Mapping} {base : Path} {sources : List Mapping}, Precedence w config base sources →
      Table.isDistinct config = true → ∀ source ∈ sources, Table.isDistinct source = true
  | _, _, _, .own _ below, distinct =>
      List.forall_mem_cons.2 ⟨distinct, isDistinct_of_precedenceAll modules below⟩

theorem isDistinct_of_precedenceAll (modules : w.HasDistinctModules) :
    ∀ {lookups : List Text} {base : Path} {sources : List Mapping},
      PrecedenceAll w lookups base sources → ∀ source ∈ sources, Table.isDistinct source = true
  | _, _, _, .nil => List.forall_mem_nil _
  | _, _, _, .cons _ read head tail => by
      have distinct := isDistinct_readConfig modules read
      rw [List.forall_mem_append]
      exact ⟨isDistinct_of_precedence modules head (isDistinct_anchorPlugins distinct),
        isDistinct_of_precedenceAll modules tail⟩

end

end Files

/-!
### The list of lookups is gone

Each layer of the tree is a configuration without its list of lookups, and merging brings no name
that is in no layer.
-/

section Resolved

variable {w : World} {config resolved : Mapping} {base : Path}

/-- A name that no layer has is not in what the tree comes to. -/
theorem find?_flatten_of_absent {tree : Inheritance} {name : Text}
    (absent : tree.layers.findSome? (Mapping.find? name) = none) :
    tree.flatten.find? name = none := by
  have stable : IsStable fun _ : Value => () := fun _ _ => rfl
  have once : ∀ layer ∈ tree.layers, layer.HasOnce name := fun layer member =>
    Mapping.hasOnce_of_absent (List.findSome?_eq_none_iff.1 absent layer member)
  have found := (map_find?_flatten stable once).2
  rw [absent, Option.map_none, Option.map_eq_none_iff] at found
  exact found

/-- What a configuration comes to has no list of lookups, not even one that holds nothing. -/
theorem find?_extends_of_resolveConfig (modules : w.HasDistinctModules)
    (distinct : Table.isDistinct config = true)
    (outcome : (resolveConfig w config base).outcome = .ok resolved) :
    resolved.find? extendsKey = none := by
  obtain ⟨tree, sources, rfl, precedence, layersEq⟩ := exists_tree_of_resolveConfig outcome
  have absent : (sources.map fun source => source.without extendsKey).findSome?
      (Mapping.find? extendsKey) = none := by
    rw [List.findSome?_eq_none_iff, List.forall_mem_map]
    intro source member
    exact Mapping.hasOnce_of_isDistinct
      (isDistinct_of_precedence modules precedence distinct source member)
  have found := @map_findSome?_apartLayers Unit (fun _ => ()) extendsKey (fun _ _ => rfl)
    (sources.map fun source => source.without extendsKey) 0
  rw [absent, Option.map_none, Option.map_eq_none_iff, ← layersEq] at found
  exact find?_flatten_of_absent found

end Resolved

end StyleAudit
