/-
Module: StyleAudit.Proofs.Config.ExtendsGraph
Purpose: The graph in which configurations and files extend each other, told by what they name
  and by the files that there are.
Trusted boundary: none
Main exports: Mapping.Names, Mapping.ExtendsTexts, Leads, Extends, Reaches, HasCycle,
  WellLinked, wellLinked_of_closed, transGen_of_reaches, reaches_of_transGen
-/
import StyleAudit.Config.Inheritance
import StyleAudit.Proofs.Table
import Mathlib.Logic.Relation

namespace StyleAudit

/-!
### The lookups of a configuration
-/

namespace Mapping

/-- The configuration names a lookup as what it extends, alone or in a list. -/
def Names (config : Mapping) (lookup : Text) : Prop :=
  ∃ v, config.find? extendsKey = some v ∧ v.holds = true
    ∧ (v = .str lookup ∨ ∃ items, v = .seq items ∧ .str lookup ∈ items)

/-- What the configuration extends is a text, a list of texts, or nothing that counts. -/
def ExtendsTexts (config : Mapping) : Prop :=
  ∀ v, config.find? extendsKey = some v →
    v.holds = false ∨ (∃ lookup, v = .str lookup)
      ∨ ∃ lookups : List Text, v = .seq (lookups.map .str)

end Mapping

theorem mapM_text?_eq_some_iff {items : List Value} {lookups : List Text} :
    items.mapM Value.text? = some lookups ↔ items = lookups.map Value.str := by
  induction items generalizing lookups with
  | nil => cases lookups <;> simp
  | cons item rest ih =>
      cases item with
      | str text =>
          simp only [List.mapM_cons, Value.text?, Option.bind_eq_bind, Option.bind_some,
            Option.bind_eq_some_iff, ih, Option.pure_def, Option.some.injEq]
          constructor
          · rintro ⟨others, rfl, rfl⟩
            rfl
          · intro same
            cases lookups with
            | nil => cases same
            | cons first others =>
                rw [List.map_cons, List.cons.injEq, Value.str.injEq] at same
                exact ⟨others, same.2, by rw [same.1]⟩
      | _ => cases lookups <;> simp [List.mapM_cons, Value.text?]

/-- The lookups that are read off a configuration are those that it names. -/
theorem mem_lookupsOf_iff {config : Mapping} {lookups : List Text}
    (named : lookupsOf config = .ok lookups) (lookup : Text) :
    lookup ∈ lookups ↔ config.Names lookup := by
  unfold lookupsOf at named
  unfold Mapping.Names
  cases found : config.find? extendsKey with
  | none =>
      simp only [found, Except.ok.injEq] at named
      simp [← named]
  | some v =>
      simp only [found, Option.some.injEq, exists_eq_left'] at named ⊢
      cases holds : v.holds with
      | false =>
          simp only [holds, Bool.not_false, if_true, Except.ok.injEq] at named
          simp [← named]
      | true =>
          simp only [holds, Bool.not_true, if_false, Bool.false_eq_true] at named
          cases v with
          | str only =>
              simp only [Except.ok.injEq] at named
              simp [← named, eq_comm]
          | seq items =>
              cases texts : items.mapM Value.text? with
              | none => simp [texts] at named
              | some all =>
                  simp only [texts, Except.ok.injEq] at named
                  simp [mapM_text?_eq_some_iff.1 texts, named]
          | _ => cases named

/-- Lookups can be read off a configuration exactly when it extends texts. -/
theorem lookupsOf_ok_iff {config : Mapping} :
    (∃ lookups, lookupsOf config = .ok lookups) ↔ config.ExtendsTexts := by
  unfold lookupsOf Mapping.ExtendsTexts
  cases found : config.find? extendsKey with
  | none => simp
  | some v =>
      simp only [Option.some.injEq, forall_eq']
      cases holds : v.holds with
      | false => simp
      | true =>
          cases v with
          | seq items =>
              simp only [Bool.not_true, Bool.false_eq_true, if_false, false_or, Value.seq.injEq,
                reduceCtorEq, exists_false, ← mapM_text?_eq_some_iff]
              cases items.mapM Value.text? <;> simp
          | _ => simp

/-!
### The graph of extended files

Its nodes are the places that paths reach, so one file has one node however it is named.
-/

/-- A configuration seen from a base directory extends the file at a place. -/
def Leads (w : World) (config : Mapping) (base : Path) (place : Location) : Prop :=
  ∃ lookup file, config.Names lookup ∧ w.lookupFile lookup base = .ok (some file)
    ∧ file.place = place

/-- The file at a place extends the file at another one. -/
def Extends (w : World) (place next : Location) : Prop :=
  ∃ entries, w.readConfig ⟨.root, place⟩ = .ok entries
    ∧ Leads w entries (⟨.root, place⟩ : Path).parent next

/-- A configuration extends the file at a place, directly or through other files. -/
def Reaches (w : World) (config : Mapping) (base : Path) (place : Location) : Prop :=
  ∃ first, Leads w config base first ∧ Relation.ReflTransGen (Extends w) first place

/-- Among the files that a configuration reaches, one extends itself. -/
def HasCycle (w : World) (config : Mapping) (base : Path) : Prop :=
  ∃ place, Reaches w config base place ∧ Relation.TransGen (Extends w) place place

/-- A configuration extends texts, and each of them names a file. -/
def Linked (w : World) (config : Mapping) (base : Path) : Prop :=
  config.ExtendsTexts
    ∧ ∀ lookup, config.Names lookup → ∃ file, w.lookupFile lookup base = .ok (some file)

/-- All that a configuration reaches can be read, and extends texts that name files. -/
structure WellLinked (w : World) (config : Mapping) (base : Path) : Prop where
  own : Linked w config base
  reached : ∀ place, Reaches w config base place →
    ∃ entries, w.readConfig ⟨.root, place⟩ = .ok entries
      ∧ Linked w entries (⟨.root, place⟩ : Path).parent

/-- The configuration extends texts, and each of them names a file at one of the places. -/
def LinkedWithin (w : World) (places : List Location) (config : Mapping) (base : Path) : Prop :=
  ∃ lookups, lookupsOf config = .ok lookups
    ∧ ∀ lookup ∈ lookups, ∃ file, w.lookupFile lookup base = .ok (some file) ∧ file.place ∈ places

theorem LinkedWithin.linked {w : World} {places : List Location} {config : Mapping} {base : Path}
    (within : LinkedWithin w places config base) : Linked w config base := by
  obtain ⟨lookups, named, each⟩ := within
  refine ⟨lookupsOf_ok_iff.1 ⟨lookups, named⟩, fun lookup names => ?_⟩
  obtain ⟨file, looked, _⟩ := each lookup ((mem_lookupsOf_iff named lookup).2 names)
  exact ⟨file, looked⟩

theorem LinkedWithin.mem_of_leads {w : World} {places : List Location} {config : Mapping}
    {base : Path} (within : LinkedWithin w places config base) {place : Location}
    (leads : Leads w config base place) : place ∈ places := by
  obtain ⟨lookups, named, each⟩ := within
  obtain ⟨lookup, other, names, looked, rfl⟩ := leads
  obtain ⟨file, lookedAgain, member⟩ := each lookup ((mem_lookupsOf_iff named lookup).2 names)
  have same : file = other := Option.some.inj (Except.ok.inj (lookedAgain.symm.trans looked))
  exact same ▸ member

/-- To see that all that a configuration reaches is linked, it is enough to look at places
that no lookup leads out of. -/
theorem wellLinked_of_closed {w : World} {places : List Location} {config : Mapping}
    {base : Path} (own : LinkedWithin w places config base)
    (closed : ∀ place ∈ places, ∃ entries, w.readConfig ⟨.root, place⟩ = .ok entries
      ∧ LinkedWithin w places entries (⟨.root, place⟩ : Path).parent) :
    WellLinked w config base where
  own := own.linked
  reached place reaches := by
    obtain ⟨first, leads, walk⟩ := reaches
    have member : place ∈ places := by
      induction walk with
      | refl => exact own.mem_of_leads leads
      | tail _ step ih =>
          obtain ⟨entries, read, within⟩ := closed _ ih
          obtain ⟨others, readAgain, onward⟩ := step
          have same : others = entries := Except.ok.inj (readAgain.symm.trans read)
          exact within.mem_of_leads (same ▸ onward)
    obtain ⟨entries, read, within⟩ := closed place member
    exact ⟨entries, read, within.linked⟩

/-!
Anchoring the plugins of a file changes nothing in what the file extends.
-/

theorem find?_anchorPlugins (config : Mapping) (directory : Path) :
    (anchorPlugins config directory).find? extendsKey = config.find? extendsKey := by
  have apart : ¬ Sameness.same (Key.str pluginsKey) (Key.str extendsKey) = true := by decide
  unfold anchorPlugins
  split
  · exact Table.get?_put_of_not_same apart _ _
  · rfl

theorem names_anchorPlugins {config : Mapping} {directory : Path} {lookup : Text} :
    (anchorPlugins config directory).Names lookup ↔ config.Names lookup := by
  simp only [Mapping.Names, find?_anchorPlugins]

theorem leads_anchorPlugins {w : World} {config : Mapping} {directory base : Path}
    {place : Location} :
    Leads w (anchorPlugins config directory) base place ↔ Leads w config base place := by
  simp only [Leads, names_anchorPlugins]

theorem linked_anchorPlugins {w : World} {config : Mapping} {directory base : Path} :
    Linked w (anchorPlugins config directory) base ↔ Linked w config base := by
  simp only [Linked, Mapping.ExtendsTexts, find?_anchorPlugins, names_anchorPlugins]

/-!
### From a configuration to a file that it extends
-/

section Child

variable {w : World} {config entries : Mapping} {base : Path} {file : w.tree.File}

theorem extends_of_leads (read : w.readConfig file.path = .ok entries) {place : Location}
    (leads : Leads w (anchorPlugins entries file.directory) file.directory place) :
    Extends w file.place place :=
  ⟨entries, read, leads_anchorPlugins.1 leads⟩

/-- What a file's configuration reaches, the file reaches in the graph. -/
theorem transGen_of_reaches (read : w.readConfig file.path = .ok entries) {place : Location}
    (reaches : Reaches w (anchorPlugins entries file.directory) file.directory place) :
    Relation.TransGen (Extends w) file.place place := by
  obtain ⟨first, leads, walk⟩ := reaches
  exact Relation.TransGen.head' (extends_of_leads read leads) walk

/-- What the file reaches in the graph, its configuration reaches. -/
theorem reaches_of_transGen (read : w.readConfig file.path = .ok entries) {place : Location}
    (walk : Relation.TransGen (Extends w) file.place place) :
    Reaches w (anchorPlugins entries file.directory) file.directory place := by
  obtain ⟨next, step, rest⟩ := Relation.TransGen.head'_iff.1 walk
  obtain ⟨others, readAgain, leads⟩ := step
  have same : others = entries := Except.ok.inj (readAgain.symm.trans read)
  subst same
  exact ⟨next, leads_anchorPlugins.2 leads, rest⟩

theorem reaches_of_reaches (leads : Leads w config base file.place)
    (read : w.readConfig file.path = .ok entries) {place : Location}
    (reaches : Reaches w (anchorPlugins entries file.directory) file.directory place) :
    Reaches w config base place :=
  ⟨file.place, leads, (transGen_of_reaches read reaches).to_reflTransGen⟩

theorem WellLinked.child (linked : WellLinked w config base)
    (leads : Leads w config base file.place) (read : w.readConfig file.path = .ok entries) :
    WellLinked w (anchorPlugins entries file.directory) file.directory where
  own := by
    obtain ⟨others, readAgain, own⟩ := linked.reached file.place ⟨file.place, leads, .refl⟩
    have same : others = entries := Except.ok.inj (readAgain.symm.trans read)
    exact linked_anchorPlugins.2 (same ▸ own)
  reached place reaches := linked.reached place (reaches_of_reaches leads read reaches)

end Child

end StyleAudit
