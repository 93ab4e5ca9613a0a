/-
Module: StyleAudit.Proofs.Value.KeyOrder
Purpose: The order of the keys in a merge: those of the base, and behind them those that only
  the layer has; read one after another, each key stays where it first occurs.
Trusted boundary: none
Main exports: Table.addKey, Table.firstKeys, Table.keys_put, Table.firstKeys_of_pairwise,
  Table.foldl_addKey_foldl, Table.foldl_addKey_eq_filter, keys_mergeEntries,
  isDistinct_mergeEntries, mergeEntries_of_fresh
-/
import StyleAudit.Proofs.Value.MergePaths

namespace StyleAudit

namespace Table

variable {κ α : Type} [Sameness κ]

/-!
### First occurrences
-/

/-- Keys with one more behind them, unless it denotes the entry of one that is there. -/
def addKey (listed : List κ) (key : κ) : List κ :=
  if listed.any fun k => Sameness.same k key then listed else listed ++ [key]

/-- Keys without those that denote the entry of an earlier one. -/
def firstKeys (keys : List κ) : List κ :=
  keys.foldl addKey []

theorem firstKeys_append (first second : List κ) :
    firstKeys (first ++ second) = second.foldl addKey (firstKeys first) := by
  rw [firstKeys, firstKeys, List.foldl_append]

/-- Writing to a table puts the key behind the others, unless it is there. -/
theorem keys_put (key : κ) (value : α) (table : Table κ α) :
    keys (put key value table) = addKey (keys table) key := by
  induction table with
  | nil => rfl
  | cons entry rest ih =>
      obtain ⟨k, v⟩ := entry
      by_cases same : Sameness.same k key = true
      · rw [put, if_pos same, keys_cons, keys_cons, addKey, if_pos (by simp [same])]
      · rw [put, if_neg same, keys_cons, keys_cons, ih]
        simp only [addKey, List.any_cons, same, Bool.false_or]
        by_cases present : (keys rest).any (fun k => Sameness.same k key) = true
        · rw [if_pos present, if_pos present]
        · rw [if_neg present, if_neg present, List.cons_append]

theorem put_of_fresh {key : κ} {table : Table κ α} (fresh : get? key table = none) (value : α) :
    put key value table = table ++ [(key, value)] := by
  induction table with
  | nil => rfl
  | cons entry rest ih =>
      obtain ⟨k, v⟩ := entry
      rw [get?_cons] at fresh
      by_cases same : Sameness.same k key = true
      · simp [same] at fresh
      · rw [if_neg same] at fresh
        rw [put, if_neg same, ih fresh, List.cons_append]

variable [LawfulSameness κ]

theorem any_addKey (listed : List κ) (key other : κ) :
    (addKey listed key).any (fun k => Sameness.same k other)
      = (listed.any (fun k => Sameness.same k other) || Sameness.same key other) := by
  unfold addKey
  split
  · rename_i present
    cases same : Sameness.same key other with
    | false => rw [Bool.or_false]
    | true =>
        obtain ⟨k, member, sameKey⟩ := List.any_eq_true.1 present
        rw [Bool.or_true]
        exact List.any_eq_true.2 ⟨k, member, LawfulSameness.trans sameKey same⟩
  · simp

theorem any_foldl_addKey (keys : List κ) (other : κ) :
    ∀ listed : List κ, (keys.foldl addKey listed).any (fun k => Sameness.same k other)
      = (listed.any (fun k => Sameness.same k other)
          || keys.any fun k => Sameness.same k other) := by
  induction keys with
  | nil =>
      intro listed
      simp
  | cons key rest ih =>
      intro listed
      rw [List.foldl_cons, ih, any_addKey, List.any_cons, Bool.or_assoc]

/-- No two keys that are kept denote one entry. -/
theorem pairwise_foldl_addKey (keys : List κ) :
    ∀ {listed : List κ}, listed.Pairwise (fun a b => ¬ Sameness.same b a = true) →
      (keys.foldl addKey listed).Pairwise fun a b => ¬ Sameness.same b a = true := by
  induction keys with
  | nil =>
      intro listed distinct
      exact distinct
  | cons key rest ih =>
      intro listed distinct
      apply ih
      unfold addKey
      split
      · exact distinct
      · rename_i fresh
        rw [List.pairwise_append]
        refine ⟨distinct, List.pairwise_singleton _ _, ?_⟩
        intro k member other single same
        rw [List.mem_singleton] at single
        subst single
        exact fresh (List.any_eq_true.2 ⟨k, member, LawfulSameness.symm same⟩)

theorem isDistinct_put {key : κ} {table : Table κ α} (distinct : isDistinct table = true)
    (value : α) : isDistinct (put key value table) = true := by
  rw [isDistinct_iff_pairwise] at distinct ⊢
  rw [keys_put]
  exact pairwise_foldl_addKey [key] distinct

theorem foldl_addKey_of_pairwise (keys : List κ) :
    ∀ {listed : List κ},
      (listed ++ keys).Pairwise (fun a b => ¬ Sameness.same b a = true) →
        keys.foldl addKey listed = listed ++ keys := by
  induction keys with
  | nil =>
      intro listed _
      exact (List.append_nil listed).symm
  | cons key rest ih =>
      intro listed distinct
      have fresh : ¬ listed.any (fun k => Sameness.same k key) = true := by
        intro present
        obtain ⟨k, member, same⟩ := List.any_eq_true.1 present
        exact (List.pairwise_append.1 distinct).2.2 k member key (by simp)
          (LawfulSameness.symm same)
      have added : addKey listed key = listed ++ [key] := if_neg fresh
      have regrouped : listed ++ key :: rest = (listed ++ [key]) ++ rest := by simp
      rw [List.foldl_cons, added, regrouped]
      apply ih
      rw [← regrouped]
      exact distinct

/-- Keys among which none denotes the entry of another are all kept. -/
theorem firstKeys_of_pairwise {keys : List κ}
    (distinct : keys.Pairwise fun a b => ¬ Sameness.same b a = true) : firstKeys keys = keys :=
  foldl_addKey_of_pairwise keys distinct

/-- Keys that were added to others are all added, in their order, with those. -/
theorem foldl_addKey_foldl (keys kept listed : List κ) :
    (keys.foldl addKey kept).foldl addKey listed = keys.foldl addKey (kept.foldl addKey listed) := by
  induction keys generalizing kept with
  | nil => rfl
  | cons key rest ih =>
      rw [List.foldl_cons, ih, List.foldl_cons]
      congr 1
      by_cases present : kept.any (fun k => Sameness.same k key) = true
      · have inAll : (kept.foldl addKey listed).any (fun k => Sameness.same k key) = true := by
          rw [any_foldl_addKey, present, Bool.or_true]
        rw [addKey, if_pos present, addKey, if_pos inAll]
      · rw [addKey, if_neg present, List.foldl_append]
        rfl

/-- To add what is kept of some keys is to add all of them. -/
theorem foldl_addKey_firstKeys (keys listed : List κ) :
    (firstKeys keys).foldl addKey listed = keys.foldl addKey listed :=
  foldl_addKey_foldl keys [] listed

/-- Of keys none of which denotes the entry of another, those are added whose entries are not
denoted yet. -/
theorem foldl_addKey_eq_filter (keys : List κ) :
    ∀ {listed : List κ}, keys.Pairwise (fun a b => ¬ Sameness.same b a = true) →
      keys.foldl addKey listed
        = listed ++ keys.filter fun key => !listed.any fun k => Sameness.same k key := by
  induction keys with
  | nil =>
      intro listed _
      exact (List.append_nil listed).symm
  | cons key rest ih =>
      intro listed distinct
      obtain ⟨apart, distinctRest⟩ := List.pairwise_cons.1 distinct
      rw [List.foldl_cons, ih distinctRest]
      by_cases present : listed.any (fun k => Sameness.same k key) = true
      · rw [addKey, if_pos present, List.filter_cons_of_neg (by simp [present])]
      · have others : rest.filter (fun other =>
              !(listed ++ [key]).any fun k => Sameness.same k other)
            = rest.filter fun other => !listed.any fun k => Sameness.same k other := by
          apply List.filter_congr
          intro other member
          have different : Sameness.same key other = false :=
            Bool.eq_false_iff.2 fun same => apart other member (LawfulSameness.symm same)
          simp [different]
        rw [addKey, if_neg present, List.filter_cons_of_pos (by simpa using present), others,
          List.append_assoc, List.singleton_append]

theorem any_firstKeys (keys : List κ) (other : κ) :
    (firstKeys keys).any (fun k => Sameness.same k other)
      = keys.any fun k => Sameness.same k other := by
  rw [firstKeys, any_foldl_addKey, List.any_nil, Bool.false_or]

/-- Keys that are added stand behind those that are there, and denote entries that none of
those denotes. -/
theorem foldl_addKey_eq_append (keys : List κ) :
    ∀ listed : List κ, ∃ added, keys.foldl addKey listed = listed ++ added
      ∧ ∀ key ∈ added, key ∈ keys ∧ ¬ listed.any (fun k => Sameness.same k key) = true := by
  induction keys with
  | nil =>
      intro listed
      exact ⟨[], (List.append_nil listed).symm, by simp⟩
  | cons key rest ih =>
      intro listed
      rw [List.foldl_cons]
      obtain ⟨added, placed, fresh⟩ := ih (addKey listed key)
      by_cases present : listed.any (fun k => Sameness.same k key) = true
      · have unchanged : addKey listed key = listed := if_pos present
        rw [unchanged] at placed fresh ⊢
        refine ⟨added, placed, ?_⟩
        intro other member
        obtain ⟨inRest, new⟩ := fresh other member
        exact ⟨List.mem_cons_of_mem key inRest, new⟩
      · have behind : addKey listed key = listed ++ [key] := if_neg present
        refine ⟨key :: added, by rw [placed, behind, List.append_assoc, List.singleton_append], ?_⟩
        rw [List.forall_mem_cons]
        refine ⟨⟨List.mem_cons_self, present⟩, ?_⟩
        intro other member
        obtain ⟨inRest, new⟩ := fresh other member
        rw [any_addKey, Bool.or_eq_true, not_or] at new
        exact ⟨List.mem_cons_of_mem key inRest, new.1⟩

/-- Among keys none of which denotes the entry of another, an entry is denoted once. -/
theorem countP_same_eq_one {keys : List κ} {key : κ}
    (distinct : keys.Pairwise fun a b => ¬ Sameness.same b a = true)
    (present : keys.any (fun k => Sameness.same k key) = true) :
    keys.countP (fun k => Sameness.same k key) = 1 := by
  induction keys with
  | nil => cases present
  | cons k rest ih =>
      obtain ⟨apart, distinctRest⟩ := List.pairwise_cons.1 distinct
      rw [List.any_cons, Bool.or_eq_true] at present
      by_cases same : Sameness.same k key = true
      · have absent : rest.countP (fun k => Sameness.same k key) = 0 := by
          rw [List.countP_eq_zero]
          intro other member sameOther
          exact apart other member
            (LawfulSameness.trans sameOther (LawfulSameness.symm same))
        rw [List.countP_cons, absent, if_pos same]
      · rw [List.countP_cons, if_neg same]
        exact ih distinctRest (present.resolve_left same)

end Table

/-!
### Merging
-/

open Table

theorem keys_mergeEntries (base layer : List (Key × Value)) :
    keys (mergeEntries base layer) = (keys layer).foldl addKey (keys base) := by
  induction layer generalizing base with
  | nil =>
      rw [mergeEntries]
      rfl
  | cons entry rest ih =>
      obtain ⟨key, v⟩ := entry
      rw [mergeEntries, ih, keys_put]
      rfl

theorem isDistinct_mergeEntries {base : List (Key × Value)} (distinct : isDistinct base = true)
    (layer : List (Key × Value)) : isDistinct (mergeEntries base layer) = true := by
  rw [isDistinct_iff_pairwise, keys_mergeEntries]
  exact pairwise_foldl_addKey _ (isDistinct_iff_pairwise.1 distinct)

/-- A layer whose keys are all new is put behind the base as it stands. -/
theorem mergeEntries_of_fresh (layer : List (Key × Value)) :
    ∀ {base : List (Key × Value)}, isDistinct (base ++ layer) = true →
      mergeEntries base layer = base ++ layer := by
  induction layer with
  | nil =>
      intro base _
      rw [mergeEntries, List.append_nil]
  | cons entry rest ih =>
      obtain ⟨key, v⟩ := entry
      intro base distinct
      have fresh : get? key base = none := get?_eq_none_of_isDistinct_append distinct
      have regrouped : base ++ (key, v) :: rest = (base ++ [(key, v)]) ++ rest := by simp
      rw [mergeEntries, fresh, overlay_none, put_of_fresh fresh, regrouped]
      apply ih
      rw [← regrouped]
      exact distinct

end StyleAudit
