/-
Module: StyleAudit.Proofs.Sequence
Purpose: Lists: their first occurrences, the first item of a kind, and items put in the order of
  a list of their keys.
Trusted boundary: none
Main exports: nodup_eraseDups, filter_eraseDups, HasFirst, hasFirst_cons, exists_forall₂_iff,
  flatMap_filter_perm, inListOrder, inListOrder_perm
-/
import Mathlib.Data.List.Basic
import Mathlib.Data.List.Forall2
import Mathlib.Data.List.Perm.Basic
import StyleAudit.Text.Basic

namespace StyleAudit

/-!
### First occurrences
-/

section FirstOccurrences

variable {α : Type} [BEq α] [LawfulBEq α]

theorem nodup_eraseDups : ∀ items : List α, items.eraseDups.Nodup
  | [] => by simp
  | first :: rest => by
      rw [List.eraseDups_cons, List.nodup_cons]
      constructor
      · intro again
        rw [List.mem_eraseDups] at again
        simp at again
      · exact nodup_eraseDups (rest.filter fun item => !item == first)
termination_by items => items.length
decreasing_by exact Nat.lt_succ_of_le (List.length_filter_le _ rest)

/-- Dropping items and dropping repetitions can be done in either order. -/
theorem filter_eraseDups (keep : α → Bool) :
    ∀ items : List α, (items.filter keep).eraseDups = items.eraseDups.filter keep
  | [] => by simp
  | first :: rest => by
      have smaller := filter_eraseDups keep (rest.filter fun item => !item == first)
      rw [List.eraseDups_cons]
      by_cases kept : keep first = true
      · rw [List.filter_cons_of_pos kept, List.filter_cons_of_pos kept, List.eraseDups_cons,
          ← smaller, List.filter_comm]
      · rw [List.filter_cons_of_neg kept, List.filter_cons_of_neg kept, ← smaller,
          List.filter_filter]
        refine congrArg List.eraseDups (List.filter_congr ?_)
        intro item _
        by_cases same : item = first
        · subst same
          simp [kept]
        · simp [same]
termination_by items => items.length
decreasing_by exact Nat.lt_succ_of_le (List.length_filter_le _ rest)

end FirstOccurrences

/-!
### The first item of a kind
-/

/-- An item of a list is found, and all items before it are passed. -/
def HasFirst {α : Type} (passed found : α → Prop) (items : List α) : Prop :=
  ∃ before item after, items = before ++ item :: after ∧ (∀ other ∈ before, passed other)
    ∧ found item

section HasFirst

variable {α : Type} {passed found : α → Prop}

theorem not_hasFirst_nil : ¬ HasFirst passed found [] := by
  rintro ⟨before, item, after, split, _⟩
  cases before <;> cases split

theorem hasFirst_cons {item : α} {rest : List α} :
    HasFirst passed found (item :: rest) ↔
      found item ∨ passed item ∧ HasFirst passed found rest := by
  constructor
  · rintro ⟨before, other, after, split, passes, finds⟩
    cases before with
    | nil =>
        cases split
        exact .inl finds
    | cons first others =>
        cases split
        obtain ⟨passesFirst, passesOthers⟩ := List.forall_mem_cons.1 passes
        exact .inr ⟨passesFirst, others, other, after, rfl, passesOthers, finds⟩
  · rintro (finds | ⟨passes, before, other, after, rfl, passesBefore, finds⟩)
    · exact ⟨[], item, rest, rfl, List.forall_mem_nil _, finds⟩
    · exact ⟨item :: before, other, after, rfl, List.forall_mem_cons.2 ⟨passes, passesBefore⟩,
        finds⟩

end HasFirst

/-!
### Lists item by item
-/

/-- A list stands in a relation with some other list when each of its items does with some
item. -/
theorem exists_forall₂_iff {α β : Type} {relates : α → β → Prop} {items : List β} :
    (∃ others, List.Forall₂ relates others items) ↔ ∀ item ∈ items, ∃ other, relates other item := by
  induction items with
  | nil => exact iff_of_true ⟨[], .nil⟩ (by simp)
  | cons item rest ih =>
      rw [List.forall_mem_cons, ← ih]
      constructor
      · rintro ⟨_, here | ⟨here, below⟩⟩
        exact ⟨⟨_, here⟩, ⟨_, below⟩⟩
      · rintro ⟨⟨other, here⟩, ⟨others, below⟩⟩
        exact ⟨other :: others, .cons here below⟩

/-!
### Items by key
-/

section Keys

variable {α κ : Type} [DecidableEq κ]

/-- Items grouped by keys that cover them are the items, in another order. -/
theorem flatMap_filter_perm (key : α → κ) {keys : List κ} (distinct : keys.Nodup)
    {items : List α} (covered : ∀ item ∈ items, key item ∈ keys) :
    (keys.flatMap fun k => items.filter fun item => key item = k).Perm items := by
  induction keys generalizing items with
  | nil =>
      have none : items = [] := List.eq_nil_iff_forall_not_mem.2 fun item member =>
        List.not_mem_nil (covered item member)
      rw [none]
      exact List.Perm.nil
  | cons first rest ih =>
      obtain ⟨fresh, distinctRest⟩ := List.nodup_cons.1 distinct
      have coveredRest : ∀ item ∈ items.filter (fun item => !decide (key item = first)),
          key item ∈ rest := by
        intro item member
        rw [List.mem_filter] at member
        have apart : key item ≠ first := by simpa using member.2
        exact (List.mem_cons.1 (covered item member.1)).resolve_left apart
      -- The groups of the other keys are not touched when the first group is taken out.
      have others : (rest.flatMap fun k => items.filter fun item => key item = k)
          = rest.flatMap fun k =>
            (items.filter fun item => !decide (key item = first)).filter fun item => key item = k := by
        refine List.flatMap_congr ?_
        intro k listed
        have apart : k ≠ first := fun same => fresh (same ▸ listed)
        rw [List.filter_filter]
        refine List.filter_congr ?_
        intro item _
        by_cases same : key item = k
        · simp [same, apart]
        · simp [same]
      rw [List.flatMap_cons, others]
      exact ((ih distinctRest coveredRest).append_left _).trans
        (List.filter_append_perm (fun item => decide (key item = first)) items)

/-- Without the items of one key, the group of that key is empty and no other group changes. -/
theorem flatMap_filter_ne (key : α → κ) (first : κ) (keys : List κ) (items : List α) :
    (keys.flatMap fun k =>
        (items.filter fun item => key item ≠ first).filter fun item => key item = k)
      = (keys.filter fun k => !k == first).flatMap fun k =>
          items.filter fun item => key item = k := by
  induction keys with
  | nil => rfl
  | cons k rest ih =>
      rw [List.flatMap_cons, ih, List.filter_filter]
      by_cases same : k = first
      · subst same
        have none : (items.filter fun item =>
            decide (key item = k) && decide (key item ≠ k)) = [] := by
          simp
        rw [none, List.filter_cons_of_neg (by simp), List.nil_append]
      · rw [List.filter_cons_of_pos (by simpa using same), List.flatMap_cons]
        refine congrArg (· ++ _) (List.filter_congr ?_)
        intro item _
        by_cases here : key item = k
        · simp [here, same]
        · simp [here]

/-- Where no two items have one key, putting them in the order of their keys changes nothing. -/
theorem flatMap_filter_keys {key : α → κ} {items : List α} (distinct : (items.map key).Nodup) :
    ((items.map key).eraseDups.flatMap fun k => items.filter fun item => key item = k) = items := by
  induction items with
  | nil => rfl
  | cons first rest ih =>
      obtain ⟨fresh, distinctRest⟩ := List.nodup_cons.1 distinct
      have apart : ∀ item ∈ rest, key item ≠ key first := fun item member same =>
        fresh (List.mem_map.2 ⟨item, member, same⟩)
      have alone : (rest.filter fun item => key item = key first) = [] :=
        List.filter_eq_nil_iff.2 (by simpa using apart)
      have others : ((rest.map key).filter fun k => !k == key first) = rest.map key :=
        List.filter_eq_self.2 (by simpa using apart)
      have behind : ((rest.map key).eraseDups.flatMap fun k =>
            (first :: rest).filter fun item => key item = k) = rest := by
        refine Eq.trans (List.flatMap_congr ?_) (ih distinctRest)
        intro k listed
        rw [List.mem_eraseDups] at listed
        have skipped : ¬ key first = k := fun same => fresh (same ▸ listed)
        rw [List.filter_cons_of_neg (by simpa using skipped)]
      rw [List.map_cons, List.eraseDups_cons, others, List.flatMap_cons, behind,
        List.filter_cons_of_pos (by simp), alone]
      rfl

end Keys

/-- Items in the order in which a list names their keys; an empty list leaves them as they
are. -/
def inListOrder {α : Type} (key : α → Text) (names : List Text) (items : List α) : List α :=
  if names.isEmpty then items
  else names.eraseDups.flatMap fun name => items.filter fun item => key item = name

section InListOrder

variable {α β : Type} {key : α → Text} {names : List Text} {items : List α}

@[simp] theorem inListOrder_nil_names : inListOrder key [] items = items := rfl

theorem inListOrder_of_ne_nil (named : names ≠ []) :
    inListOrder key names items
      = names.eraseDups.flatMap fun name => items.filter fun item => key item = name := by
  rw [inListOrder, if_neg (by simpa using named)]

@[simp] theorem inListOrder_nil : inListOrder key names [] = [] := by
  simp [inListOrder]

theorem inListOrder_map (change : α → β) (other : β → Text)
    (same : ∀ item, other (change item) = key item) :
    inListOrder other names (items.map change) = (inListOrder key names items).map change := by
  unfold inListOrder
  split
  · rfl
  · simp only [List.map_flatMap, List.filter_map, Function.comp_def, same]

theorem mem_of_mem_inListOrder {item : α} (member : item ∈ inListOrder key names items) :
    item ∈ items := by
  unfold inListOrder at member
  split at member
  · exact member
  · obtain ⟨_, _, kept⟩ := List.mem_flatMap.1 member
    exact List.mem_of_mem_filter kept

theorem inListOrder_perm (named : names = [] ∨ ∀ item ∈ items, key item ∈ names) :
    (inListOrder key names items).Perm items := by
  unfold inListOrder
  split
  · exact List.Perm.refl items
  · rename_i some
    have covered := named.resolve_left (by simpa using some)
    exact flatMap_filter_perm key (nodup_eraseDups names)
      (fun item member => List.mem_eraseDups.2 (covered item member))

end InListOrder

end StyleAudit
