/-
Module: StyleAudit.Proofs.Config.Entries
Purpose: Which layer of an inheritance tree gives the entry under one name, whatever the layers
  hold under other names.
Trusted boundary: none
Main exports: Mapping.HasOnce, find?_merge_of_hasOnce, map_find?_flatten,
  map_findSome?_apartLayers
-/
import StyleAudit.Proofs.Config.Fields
import StyleAudit.Proofs.Value.Relabeling

namespace StyleAudit

/-!
### A name that stands once
-/

namespace Mapping

/-- A name has one entry at most: dropping its first entry leaves none. -/
def HasOnce (name : Text) (m : Mapping) : Prop :=
  (m.without name).find? name = none

variable {name : Text} {key : Key} {v : Value} {base layer m rest : Mapping}

theorem hasOnce_of_isDistinct (distinct : Table.isDistinct m = true) : m.HasOnce name :=
  Table.get?_erase_of_same (Key.same_refl _) distinct

theorem hasOnce_cons_of_same (same : Sameness.same key (Key.str name) = true) :
    HasOnce name ((key, v) :: rest) ↔ rest.find? name = none := by
  rw [HasOnce, without, Table.erase, if_pos same]

theorem hasOnce_cons_of_not_same (other : ¬ Sameness.same key (Key.str name) = true) :
    HasOnce name ((key, v) :: rest) ↔ rest.HasOnce name := by
  rw [HasOnce, without, Table.erase, if_neg other, find?, Table.get?_cons, if_neg other]
  exact Iff.rfl

theorem hasOnce_of_absent (absent : m.find? name = none) : m.HasOnce name := by
  induction m with
  | nil => rfl
  | cons entry rest ih =>
      obtain ⟨k, u⟩ := entry
      rw [find?, Table.get?_cons] at absent
      by_cases same : Sameness.same k (Key.str name) = true
      · rw [if_pos same] at absent
        cases absent
      · rw [if_neg same] at absent
        exact (hasOnce_cons_of_not_same same).2 (ih absent)

/-- Writing under a name does not bring a second entry. -/
theorem HasOnce.put (once : m.HasOnce name) : HasOnce name (Table.put key v m) := by
  induction m with
  | nil =>
      rw [Table.put]
      by_cases same : Sameness.same key (Key.str name) = true
      · exact (hasOnce_cons_of_same same).2 rfl
      · exact (hasOnce_cons_of_not_same same).2 rfl
  | cons entry rest ih =>
      obtain ⟨k, u⟩ := entry
      rw [Table.put]
      by_cases here : Sameness.same k (Key.str name) = true
      · rw [hasOnce_cons_of_same here] at once
        split
        · exact (hasOnce_cons_of_same here).2 once
        · rename_i apart
          have elsewhere : ¬ Sameness.same key (Key.str name) = true := by
            intro same
            exact apart (LawfulSameness.trans here (LawfulSameness.symm same))
          apply (hasOnce_cons_of_same here).2
          rw [find?, Table.get?_put_of_not_same elsewhere]
          exact once
      · rw [hasOnce_cons_of_not_same here] at once
        split
        · exact (hasOnce_cons_of_not_same here).2 once
        · exact (hasOnce_cons_of_not_same here).2 (ih once)

theorem HasOnce.merge (once : base.HasOnce name) : (base.merge layer).HasOnce name := by
  induction layer generalizing base with
  | nil =>
      rw [merge_nil]
      exact once
  | cons entry rest ih =>
      rw [merge_cons]
      exact ih once.put

/-- Moving labels changes nothing that does not depend on labels. -/
theorem map_find?_relabel {β : Type} {view : Value → β} (distance : Nat)
    (unlabelled : ∀ v, view (v.relabel distance) = view v) (name : Text) (m : Mapping) :
    ((m.relabel distance).find? name).map view = (m.find? name).map view := by
  unfold Mapping.relabel
  split
  · rfl
  · have moved : find? name (relabelEntries distance m)
        = (m.find? name).map (Value.relabel distance) := get?_relabelEntries distance name m
    rw [moved, Option.map_map]
    exact congrArg (fun seen => (m.find? name).map seen) (funext unlabelled)

theorem HasOnce.relabel (distance : Nat) (once : m.HasOnce name) :
    (m.relabel distance).HasOnce name := by
  have absent := @map_find?_relabel Unit (fun _ => ()) distance (fun _ => rfl) name
    (m.without name)
  rw [once, Option.map_none, Option.map_eq_none_iff, relabel_without] at absent
  exact absent

/-- What a layer holds once lies over what the base holds. -/
theorem find?_merge_of_hasOnce (once : layer.HasOnce name) :
    (base.merge layer).find? name =
      match layer.find? name with
      | none => base.find? name
      | some v => some (v.overlay (base.find? name)) := by
  induction layer generalizing base with
  | nil =>
      rw [merge_nil]
      rfl
  | cons entry rest ih =>
      obtain ⟨k, v⟩ := entry
      rw [merge_cons]
      by_cases same : Sameness.same k (Key.str name) = true
      · have alone := (hasOnce_cons_of_same same).1 once
        rw [ih (hasOnce_of_absent alone), alone, find?, find?, Table.get?_cons, if_pos same,
          Table.get?_put_of_same same, Table.get?_congr same]
        rfl
      · have onceRest := (hasOnce_cons_of_not_same same).1 once
        rw [ih onceRest, find?, find?, find?, Table.get?_cons, if_neg same,
          Table.get?_put_of_not_same same]
        rfl

end Mapping

/-!
### The first layer that has the name

Mappings are merged with what lies below them, and so the first layer does not decide what is
in a mapping under the name.  It decides as much of the value as is the same whatever the value
lies over, and as it does not depend on labels.
-/

theorem findSome?_cons_eq_or {α β : Type} (f : α → Option β) (a : α) (rest : List α) :
    (a :: rest).findSome? f = (f a).or (rest.findSome? f) := by
  rw [List.findSome?_cons]
  cases f a <;> rfl

/-- A view of values that is the same whatever a value is laid over. -/
def IsStable {β : Type} (view : Value → β) : Prop :=
  ∀ v under, view (v.overlay under) = view v

section View

variable {β : Type} {view : Value → β} {name : Text}

theorem map_find?_merge (stable : IsStable view) {base layer : Mapping}
    (once : layer.HasOnce name) :
    ((base.merge layer).find? name).map view
      = ((layer.find? name).or (base.find? name)).map view := by
  rw [Mapping.find?_merge_of_hasOnce once]
  cases layer.find? name with
  | none => rfl
  | some v => exact congrArg some (stable v _)

open Inheritance

mutual

/-- What a tree holds under a name is, as far as a stable view tells, what the first layer holds
that has the name. -/
theorem map_find?_flatten (stable : IsStable view) :
    ∀ {tree : Inheritance}, (∀ layer ∈ tree.layers, layer.HasOnce name) →
      tree.flatten.HasOnce name
        ∧ (tree.flatten.find? name).map view
            = (tree.layers.findSome? (Mapping.find? name)).map view
  | .layer own parents, once => by
      simp only [layers, List.forall_mem_cons] at once
      rw [flatten, layers, findSome?_cons_eq_or]
      exact map_find?_flattenBelow stable once.1 once.2

theorem map_find?_flattenBelow (stable : IsStable view) :
    ∀ {trees : List Inheritance} {above : Mapping}, above.HasOnce name →
      (∀ layer ∈ layersAll trees, layer.HasOnce name) →
        (flattenBelow above trees).HasOnce name
          ∧ ((flattenBelow above trees).find? name).map view
              = ((above.find? name).or
                  ((layersAll trees).findSome? (Mapping.find? name))).map view
  | [], above, onceAbove, _ => by
      refine ⟨onceAbove, ?_⟩
      rw [flattenBelow, layersAll, List.findSome?_nil, Option.or_none]
  | tree :: rest, above, onceAbove, once => by
      simp only [layersAll, List.forall_mem_append] at once
      obtain ⟨onceTree, found⟩ := map_find?_flatten stable once.1
      obtain ⟨onceResult, foundResult⟩ :=
        map_find?_flattenBelow stable onceTree.merge once.2
      refine ⟨onceResult, ?_⟩
      rw [flattenBelow, foundResult, Option.map_or, map_find?_merge stable onceAbove,
        Option.map_or, found, ← Option.map_or, ← Option.map_or, layersAll, List.findSome?_append,
        Option.or_assoc]

end

/-- Setting labels apart is not seen by a view that does not depend on them. -/
theorem map_findSome?_apartLayers
    (unlabelled : ∀ distance v, view (v.relabel distance) = view v) (layers : List Mapping) :
    ∀ given, ((apartLayers given layers).findSome? (Mapping.find? name)).map view
      = (layers.findSome? (Mapping.find? name)).map view := by
  induction layers with
  | nil =>
      intro given
      rfl
  | cons layer rest ih =>
      intro given
      rw [apartLayers, findSome?_cons_eq_or, findSome?_cons_eq_or, Option.map_or, Option.map_or,
        Mapping.map_find?_relabel given (unlabelled given), ih]

theorem hasOnce_apartLayers {layers : List Mapping}
    (once : ∀ layer ∈ layers, layer.HasOnce name) :
    ∀ given, ∀ layer ∈ apartLayers given layers, layer.HasOnce name := by
  induction layers with
  | nil =>
      intro given layer member
      cases member
  | cons layer rest ih =>
      rw [List.forall_mem_cons] at once
      intro given
      rw [apartLayers, List.forall_mem_cons]
      exact ⟨once.1.relabel given, ih once.2 _⟩

end View

end StyleAudit
