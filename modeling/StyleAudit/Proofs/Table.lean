/-
Module: StyleAudit.Proofs.Table
Purpose: What reading a table gives after entries were written, dropped or changed, for
  tests of keys that are equivalences.
Trusted boundary: none
Main exports: LawfulSameness, Table.isDistinct, Table.get?_put, Table.get?_putNew,
  Table.get?_erase_of_same, Table.get?_eq_some_iff_mem, Table.eq_of_keys_eq
-/
import StyleAudit.Value.Basic

namespace StyleAudit

/-- The test of keys is an equivalence, so that "the entry of a key" makes sense. -/
class LawfulSameness (κ : Type) [Sameness κ] : Prop where
  refl : ∀ a : κ, Sameness.same a a = true
  symm : ∀ {a b : κ}, Sameness.same a b = true → Sameness.same b a = true
  trans : ∀ {a b c : κ},
    Sameness.same a b = true → Sameness.same b c = true → Sameness.same a c = true

instance : LawfulSameness Text where
  refl a := by simp [Sameness.same]
  symm h := by simp_all [Sameness.same]
  trans h k := by simp_all [Sameness.same]

instance : LawfulSameness Key where
  refl a := Key.same_refl a
  symm h := Key.same_iff.2 (Key.same_iff.1 h).symm
  trans h k := Key.same_iff.2 ((Key.same_iff.1 h).trans (Key.same_iff.1 k))

/-- Texts denote one entry exactly when they are equal. -/
@[simp] theorem Text.same_iff (a b : Text) : Sameness.same a b = true ↔ a = b := by
  simp [Sameness.same]

namespace Table

variable {κ α : Type} [Sameness κ]

/-- No key stands twice. -/
def isDistinct : Table κ α → Bool
  | [] => true
  | (key, _) :: rest => !contains key rest && isDistinct rest

theorem isDistinct_cons {key : κ} {value : α} {rest : Table κ α} :
    isDistinct ((key, value) :: rest) = true ↔
      get? key rest = none ∧ isDistinct rest = true := by
  simp [isDistinct, contains]

theorem get?_append (key : κ) (first second : Table κ α) :
    get? key (first ++ second) = (get? key first).or (get? key second) := by
  induction first with
  | nil => rfl
  | cons entry rest ih =>
      obtain ⟨k, v⟩ := entry
      simp only [List.cons_append, get?_cons]
      split
      · rfl
      · exact ih

/-- What is read stands in the table, under a key that denotes the same entry. -/
theorem mem_of_get?_eq_some {key : κ} {value : α} {table : Table κ α}
    (h : get? key table = some value) :
    ∃ k, (k, value) ∈ table ∧ Sameness.same k key = true := by
  induction table with
  | nil => simp at h
  | cons entry rest ih =>
      obtain ⟨k, v⟩ := entry
      rw [get?_cons] at h
      split at h
      · rename_i hsame
        cases h
        exact ⟨k, by simp, hsame⟩
      · obtain ⟨other, hmem, hsame⟩ := ih h
        exact ⟨other, by simp [hmem], hsame⟩

omit [Sameness κ] in
theorem keys_cons (key : κ) (value : α) (rest : Table κ α) :
    keys ((key, value) :: rest) = key :: keys rest := rfl

theorem get?_eq_none_iff {key : κ} {table : Table κ α} :
    get? key table = none ↔ ∀ k ∈ table.keys, ¬ Sameness.same k key = true := by
  induction table with
  | nil => simp [keys]
  | cons entry rest ih =>
      obtain ⟨k, v⟩ := entry
      rw [get?_cons, keys_cons, List.forall_mem_cons, ← ih]
      by_cases same : Sameness.same k key = true <;> simp [same]

/-- Whether a key stands twice can be told from the keys alone. -/
theorem isDistinct_iff_pairwise {table : Table κ α} :
    isDistinct table = true ↔
      table.keys.Pairwise fun a b => ¬ Sameness.same b a = true := by
  induction table with
  | nil => simp [isDistinct, keys]
  | cons entry rest ih =>
      obtain ⟨k, v⟩ := entry
      rw [isDistinct_cons, keys_cons, List.pairwise_cons, get?_eq_none_iff, ih]

section Values

variable {β : Type} (change : α → β)

omit [Sameness κ] in
theorem keys_map_values (table : Table κ α) :
    keys (table.map fun (key, value) => (key, change value)) = keys table := by
  rw [keys, keys, List.map_map]
  rfl

theorem get?_map_values (key : κ) (table : Table κ α) :
    get? key (table.map fun (key, value) => (key, change value))
      = (get? key table).map change := by
  induction table with
  | nil => rfl
  | cons entry rest ih =>
      obtain ⟨k, v⟩ := entry
      rw [List.map_cons, get?_cons, get?_cons, ih]
      split <;> rfl

theorem isDistinct_map_values (table : Table κ α) :
    isDistinct (table.map fun (key, value) => (key, change value)) = isDistinct table := by
  rw [Bool.eq_iff_iff, isDistinct_iff_pairwise, isDistinct_iff_pairwise, keys_map_values]

end Values

/-- A text that finds something is a key. -/
theorem mem_keys_of_get?_eq_some {key : Text} {value : α} {table : Table Text α}
    (found : get? key table = some value) : key ∈ table.keys := by
  obtain ⟨k, member, same⟩ := mem_of_get?_eq_some found
  rw [Text.same_iff] at same
  subst same
  exact List.mem_map.mpr ⟨_, member, rfl⟩

variable [LawfulSameness κ]

/-- Keys that denote one entry read the same. -/
theorem get?_congr {a b : κ} (h : Sameness.same a b = true) (table : Table κ α) :
    get? a table = get? b table := by
  induction table with
  | nil => rfl
  | cons entry rest ih =>
      obtain ⟨k, v⟩ := entry
      have step : Sameness.same k a = true ↔ Sameness.same k b = true :=
        ⟨fun hk => LawfulSameness.trans hk h,
          fun hk => LawfulSameness.trans hk (LawfulSameness.symm h)⟩
      simp only [get?_cons, step, ih]

/-- With one entry for each text, an entry is what its key finds. -/
theorem get?_eq_some_iff_mem {key : Text} {value : α} {table : Table Text α}
    (distinct : isDistinct table = true) : get? key table = some value ↔ (key, value) ∈ table := by
  constructor
  · intro found
    obtain ⟨k, member, same⟩ := mem_of_get?_eq_some found
    rw [Text.same_iff] at same
    exact same ▸ member
  · intro member
    induction table with
    | nil => cases member
    | cons entry rest ih =>
        obtain ⟨k, v⟩ := entry
        obtain ⟨fresh, distinctRest⟩ := isDistinct_cons.1 distinct
        rw [get?_cons]
        cases member with
        | head => rw [if_pos (LawfulSameness.refl key)]
        | tail _ behind =>
            have found := ih distinctRest behind
            have apart : ¬ Sameness.same k key = true := by
              intro same
              rw [get?_congr same, found] at fresh
              cases fresh
            rw [if_neg apart, found]

/-- The first part of a table in which no key stands twice is such a table, and holds no key of
the second part. -/
theorem isDistinct_of_append {first second : Table κ α}
    (distinct : isDistinct (first ++ second) = true) :
    isDistinct first = true ∧ ∀ entry ∈ second, get? entry.1 first = none := by
  rw [isDistinct_iff_pairwise, keys, List.map_append, List.pairwise_append] at distinct
  refine ⟨isDistinct_iff_pairwise.2 distinct.1, ?_⟩
  intro entry member
  apply get?_eq_none_iff.2
  intro k inFirst same
  have behind : entry.1 ∈ second.map (·.1) := List.mem_map.2 ⟨entry, member, rfl⟩
  exact distinct.2.2 k inFirst entry.1 behind (LawfulSameness.symm same)

/-- In a table in which no key stands twice, a key is not found before its entry. -/
theorem get?_eq_none_of_isDistinct_append {first rest : Table κ α} {key : κ} {value : α}
    (distinct : isDistinct (first ++ (key, value) :: rest) = true) : get? key first = none :=
  (isDistinct_of_append distinct).2 _ List.mem_cons_self

/-- In a table in which no key stands twice, every entry is found. -/
theorem get?_of_mem {table : Table κ α} (distinct : isDistinct table = true) {k key : κ}
    {value : α} (member : (k, value) ∈ table) (same : Sameness.same k key = true) :
    get? key table = some value := by
  obtain ⟨before, after, split⟩ := List.append_of_mem member
  rw [split] at distinct ⊢
  have absent := get?_eq_none_of_isDistinct_append distinct
  rw [get?_congr same] at absent
  rw [get?_append, absent, get?_cons, if_pos same]
  rfl

/-- Tables with the same keys in the same order that hold the same at each of them are the same. -/
theorem eq_of_keys_eq {first second : Table κ α} (sameKeys : keys first = keys second)
    (distinct : isDistinct first = true)
    (each : ∀ key ∈ keys first, get? key first = get? key second) : first = second := by
  induction first generalizing second with
  | nil => exact (List.map_eq_nil_iff.1 sameKeys.symm).symm
  | cons entry rest ih =>
      obtain ⟨k, v⟩ := entry
      cases second with
      | nil => cases sameKeys
      | cons other others =>
          obtain ⟨_, u⟩ := other
          obtain ⟨rfl, sameRest⟩ := List.cons.inj sameKeys
          obtain ⟨fresh, distinctRest⟩ := isDistinct_cons.1 distinct
          have here := each k List.mem_cons_self
          rw [get?_cons, get?_cons, if_pos (LawfulSameness.refl k),
            if_pos (LawfulSameness.refl k)] at here
          have eachRest : ∀ key ∈ keys rest, get? key rest = get? key others := by
            intro key member
            have apart : ¬ Sameness.same k key = true := fun same =>
              get?_eq_none_iff.1 fresh key member (LawfulSameness.symm same)
            have there := each key (List.mem_cons_of_mem _ member)
            rwa [get?_cons, get?_cons, if_neg apart, if_neg apart] at there
          rw [Option.some.inj here, ih sameRest distinctRest eachRest]

/-- Reading behind a write: the written value at the key's entry, and elsewhere what stood
there. -/
theorem get?_put (key other : κ) (value : α) (table : Table κ α) :
    get? other (put key value table)
      = if Sameness.same key other = true then some value else get? other table := by
  by_cases hother : Sameness.same key other = true
  · have written : get? key (put key value table) = some value :=
      get?_put_same key value table (LawfulSameness.refl key)
    rw [if_pos hother, ← get?_congr hother, written]
  · rw [if_neg hother]
    induction table with
    | nil => simp [put, get?_cons, hother]
    | cons entry rest ih =>
        obtain ⟨k, v⟩ := entry
        by_cases hkey : Sameness.same k key = true
        · have hk : ¬ Sameness.same k other = true := fun h =>
            hother (LawfulSameness.trans (LawfulSameness.symm hkey) h)
          simp [put, get?_cons, hkey, hk]
        · simp only [put, hkey, if_false, Bool.false_eq_true, get?_cons, ih]

theorem get?_put_of_same {key other : κ} (h : Sameness.same key other = true) (value : α)
    (table : Table κ α) : get? other (put key value table) = some value := by
  rw [get?_put, if_pos h]

theorem get?_put_of_not_same {key other : κ} (h : ¬ Sameness.same key other = true) (value : α)
    (table : Table κ α) : get? other (put key value table) = get? other table := by
  rw [get?_put, if_neg h]

/-- Reading behind a write that only fills a gap. -/
theorem get?_putNew (key other : κ) (value : α) (table : Table κ α) :
    get? other (putNew key value table)
      = if Sameness.same key other = true then some ((get? key table).getD value)
        else get? other table := by
  unfold putNew contains
  by_cases hother : Sameness.same key other = true
  · rw [if_pos hother, ← get?_congr hother]
    cases hfound : get? key table with
    | none => simp [get?_append, hfound, get?_cons, LawfulSameness.refl]
    | some old => simp [hfound]
  · rw [if_neg hother]
    split
    · rfl
    · simp [get?_append, get?_cons, hother]

/-- Reading behind a removal finds nothing at the removed key. -/
theorem get?_erase_of_same {key other : κ} (h : Sameness.same key other = true)
    {table : Table κ α} (distinct : isDistinct table = true) :
    get? other (erase key table) = none := by
  induction table with
  | nil => rfl
  | cons entry rest ih =>
      obtain ⟨k, v⟩ := entry
      obtain ⟨hfresh, hrest⟩ := isDistinct_cons.1 distinct
      by_cases hkey : Sameness.same k key = true
      · rw [erase, if_pos hkey, ← get?_congr (LawfulSameness.trans hkey h)]
        exact hfresh
      · have hk : ¬ Sameness.same k other = true := fun hk =>
          hkey (LawfulSameness.trans hk (LawfulSameness.symm h))
        rw [erase, if_neg hkey, get?_cons, if_neg hk]
        exact ih hrest

/-- Reading behind a removal finds what stood at every other key. -/
theorem get?_erase_of_not_same {key other : κ} (h : ¬ Sameness.same key other = true)
    (table : Table κ α) : get? other (erase key table) = get? other table := by
  induction table with
  | nil => rfl
  | cons entry rest ih =>
      obtain ⟨k, v⟩ := entry
      by_cases hkey : Sameness.same k key = true
      · have hk : ¬ Sameness.same k other = true := fun hk =>
          h (LawfulSameness.trans (LawfulSameness.symm hkey) hk)
        rw [erase, if_pos hkey, get?_cons, if_neg hk]
      · rw [erase, if_neg hkey, get?_cons, get?_cons, ih]

theorem isDistinct_append_single {key : κ} {value : α} {table : Table κ α}
    (distinct : isDistinct table = true) (fresh : get? key table = none) :
    isDistinct (table ++ [(key, value)]) = true := by
  induction table with
  | nil => simp [isDistinct, contains]
  | cons entry rest ih =>
      obtain ⟨k, v⟩ := entry
      obtain ⟨hfresh, hrest⟩ := isDistinct_cons.1 distinct
      rw [get?_cons] at fresh
      split at fresh
      · cases fresh
      · rename_i hkey
        have hk : ¬ Sameness.same key k = true := fun h => hkey (LawfulSameness.symm h)
        have hkeep : get? k (rest ++ [(key, value)]) = none := by
          rw [get?_append, hfresh, get?_cons, if_neg hk]
          rfl
        exact isDistinct_cons.2 ⟨hkeep, ih hrest fresh⟩

theorem isDistinct_putNew {key : κ} {value : α} {table : Table κ α}
    (distinct : isDistinct table = true) : isDistinct (putNew key value table) = true := by
  unfold putNew contains
  cases hfound : get? key table with
  | none => simpa using isDistinct_append_single distinct hfound
  | some old => simpa using distinct

theorem isDistinct_erase {key : κ} {table : Table κ α} (distinct : isDistinct table = true) :
    isDistinct (erase key table) = true := by
  induction table with
  | nil => rfl
  | cons entry rest ih =>
      obtain ⟨k, v⟩ := entry
      obtain ⟨hfresh, hrest⟩ := isDistinct_cons.1 distinct
      by_cases hkey : Sameness.same k key = true
      · rw [erase, if_pos hkey]
        exact hrest
      · have hk : ¬ Sameness.same key k = true := fun h => hkey (LawfulSameness.symm h)
        rw [erase, if_neg hkey]
        exact isDistinct_cons.2 ⟨by rw [get?_erase_of_not_same hk, hfresh], ih hrest⟩

/-!
### The entries of one text
-/

section Entries

variable {table : Table Text α} {key : Text}

theorem nodup_keys (distinct : isDistinct table = true) : table.keys.Nodup := by
  refine (isDistinct_iff_pairwise.1 distinct).imp ?_
  intro first second apart same
  exact apart ((Text.same_iff second first).2 same.symm)

theorem filter_key_eq_nil_iff :
    (table.filter fun entry => entry.1 = key) = [] ↔ get? key table = none := by
  rw [List.filter_eq_nil_iff, get?_eq_none_iff, keys, List.forall_mem_map]
  simp only [decide_eq_true_eq, Text.same_iff]

theorem filter_key_of_get?_eq_some (distinct : isDistinct table = true) {value : α}
    (found : get? key table = some value) :
    (table.filter fun entry => entry.1 = key) = [(key, value)] := by
  induction table with
  | nil => cases found
  | cons entry rest ih =>
      obtain ⟨k, v⟩ := entry
      obtain ⟨fresh, distinctRest⟩ := isDistinct_cons.1 distinct
      by_cases same : k = key
      · subst same
        rw [get?_cons, if_pos (LawfulSameness.refl k), Option.some.injEq] at found
        subst found
        rw [List.filter_cons_of_pos (by simp), filter_key_eq_nil_iff.2 fresh]
      · rw [get?_cons, if_neg (by simpa using same)] at found
        rw [List.filter_cons_of_neg (by simpa using same), ih distinctRest found]

theorem erase_eq_filter (distinct : isDistinct table = true) :
    erase key table = table.filter fun entry => entry.1 ≠ key := by
  induction table with
  | nil => rfl
  | cons entry rest ih =>
      obtain ⟨k, v⟩ := entry
      obtain ⟨fresh, distinctRest⟩ := isDistinct_cons.1 distinct
      by_cases same : k = key
      · subst same
        have others : (rest.filter fun entry => entry.1 ≠ k) = rest := by
          refine List.filter_eq_self.2 ?_
          intro other member
          have apart := get?_eq_none_iff.1 fresh other.1 (List.mem_map.2 ⟨other, member, rfl⟩)
          simpa using apart
        rw [erase, if_pos (LawfulSameness.refl k), List.filter_cons_of_neg (by simp), others]
      · rw [erase, if_neg (by simpa using same), List.filter_cons_of_pos (by simpa using same),
          ih distinctRest]

end Entries

end Table

end StyleAudit
