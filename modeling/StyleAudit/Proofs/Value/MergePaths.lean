/-
Module: StyleAudit.Proofs.Value.MergePaths
Purpose: What a merge of two mappings holds at a path, told from what each of them holds
  there.
Trusted boundary: none
Main exports: Value.IsSilentAt, at?_overlay_of_some, at?_overlay_of_silent,
  at?_overlay_of_blocked, at?_merge_of_silent, at?_merge_of_scalar, isSilentAt_merge
-/
import StyleAudit.Proofs.Value.TextKeys

namespace StyleAudit

/-!
### Reading at a path
-/

@[simp] theorem at?_nil (v : Value) : v.at? [] = some v := by
  cases v <;> rfl

@[simp] theorem at?_map_cons (entries : Mapping) (key : Key) (path : List Key) :
    (Value.map entries).at? (key :: path)
      = (Table.get? key entries).bind fun inner => inner.at? path := by
  rw [Value.at?]
  cases Table.get? key entries <;> rfl

/-- Nothing stands below a value that is no mapping. -/
theorem at?_cons_of_not_mapping {v : Value} (scalar : v.isMapping = false) (key : Key)
    (path : List Key) : v.at? (key :: path) = none := by
  cases v with
  | map entries => simp [Value.isMapping, Value.entries?] at scalar
  | _ => rfl

theorem isMapping_eq_true_iff {v : Value} : v.isMapping = true ↔ ∃ entries, v = .map entries := by
  cases v <;> simp [Value.isMapping, Value.entries?]

/-- A value has no say at a path: it holds nothing there, and nothing but mappings on the
way there. -/
def Value.IsSilentAt (v : Value) (path : List Key) : Prop :=
  v.at? path = none ∧
    ∀ start, start <+: path → start ≠ path → ∀ u, v.at? start = some u → u.isMapping = true

/-- Every value has a say about itself. -/
theorem not_isSilentAt_nil (v : Value) : ¬ v.IsSilentAt [] := by
  intro silent
  simpa using silent.1

/-- A value that has no say below itself is a mapping. -/
theorem Value.IsSilentAt.isMapping {v : Value} {path : List Key} (silent : v.IsSilentAt path) :
    v.isMapping = true := by
  have proper : ([] : List Key) ≠ path := by
    intro same
    subst same
    exact not_isSilentAt_nil v silent
  exact silent.2 [] List.nil_prefix proper v (at?_nil v)

/-- A mapping has no say below a key exactly when what it holds at the key has none. -/
theorem isSilentAt_map_cons {entries : Mapping} {key : Key} {path : List Key} :
    (Value.map entries).IsSilentAt (key :: path) ↔
      ∀ inner, Table.get? key entries = some inner → inner.IsSilentAt path := by
  constructor
  · intro silent inner found
    refine ⟨by simpa [found] using silent.1, ?_⟩
    intro start isStart proper u holds
    have longer : key :: start <+: key :: path := List.cons_prefix_cons.2 ⟨rfl, isStart⟩
    exact silent.2 (key :: start) longer (by simpa using proper) u (by simpa [found] using holds)
  · intro silent
    constructor
    · cases found : Table.get? key entries with
      | none => simp [found]
      | some inner => simpa [found] using (silent inner found).1
    · intro start isStart proper u holds
      cases start with
      | nil =>
          simp only [at?_nil, Option.some.injEq] at holds
          subst holds
          rfl
      | cons first rest =>
          obtain ⟨rfl, restStart⟩ := List.cons_prefix_cons.1 isStart
          rw [at?_map_cons, Option.bind_eq_some_iff] at holds
          obtain ⟨inner, found, holdsInner⟩ := holds
          exact (silent inner found).2 rest restStart (by simpa using proper) u holdsInner

/-- A value that has no say at a path has none at a start of the path at which it holds
nothing. -/
theorem Value.IsSilentAt.of_prefix {v : Value} {start path : List Key} (silent : v.IsSilentAt path)
    (isStart : start <+: path) (nothing : v.at? start = none) : v.IsSilentAt start := by
  refine ⟨nothing, ?_⟩
  intro shorter isShorter proper u holds
  refine silent.2 shorter (isShorter.trans isStart) ?_ u holds
  intro same
  subst same
  exact proper (List.IsPrefix.eq_of_length isShorter
    (Nat.le_antisymm isShorter.length_le isStart.length_le))

/-!
### Merging, path by path

The induction is on the path, over every value and everything that it may be laid over:
one key further down, both have become what they hold at the key.
-/

/-- Reading a merged table: what the layer holds laid over what the base holds, or else what
the base holds. -/
theorem get?_mergeEntries {layer : List (Key × Value)} (distinct : Table.isDistinct layer = true)
    (base : List (Key × Value)) (key : Key) :
    Table.get? key (mergeEntries base layer) =
      match Table.get? key layer with
      | none => Table.get? key base
      | some v => some (v.overlay (Table.get? key base)) := by
  induction layer generalizing base with
  | nil => simp [mergeEntries]
  | cons entry rest ih =>
      obtain ⟨k, v⟩ := entry
      obtain ⟨fresh, distinctRest⟩ := Table.isDistinct_cons.1 distinct
      rw [mergeEntries, ih distinctRest, Table.get?_cons]
      by_cases same : Sameness.same k key = true
      · rw [if_pos same, ← Table.get?_congr same rest, fresh, Table.get?_congr same base]
        exact Table.get?_put_of_same same _ base
      · rw [if_neg same, Table.get?_put_of_not_same same]

theorem overlay_none (v : Value) : v.overlay none = v := by
  cases v with
  | map layer => exact overlay_map_of_not_mapping layer (by simp)
  | _ => exact overlay_of_not_mapping rfl none

/-- Whatever it is laid over, a mapping gives a mapping and anything else does not. -/
theorem isMapping_overlay (v : Value) (base : Option Value) :
    (v.overlay base).isMapping = v.isMapping := by
  cases hv : v.isMapping with
  | false => rw [overlay_of_not_mapping hv, hv]
  | true =>
      obtain ⟨layer, rfl⟩ := isMapping_eq_true_iff.1 hv
      by_cases mapping : ∃ entries, base = some (.map entries)
      · obtain ⟨entries, rfl⟩ := mapping
        rw [Value.overlay]
        rfl
      · rw [overlay_map_of_not_mapping layer fun entries same => mapping ⟨entries, same⟩]
        rfl

/-- What may stand at a longer path is found in two steps. -/
theorem bind_at?_cons (base : Option Value) (key : Key) (path : List Key) :
    (base.bind fun b => b.at? (key :: path))
      = (base.bind fun b => b.at? [key]).bind fun inner => inner.at? path := by
  cases base with
  | none => rfl
  | some b =>
      cases hb : b.isMapping with
      | false => simp [at?_cons_of_not_mapping hb]
      | true =>
          obtain ⟨entries, rfl⟩ := isMapping_eq_true_iff.1 hb
          simp

/-- One key further down, what a mapping holds there is laid over what the base holds there. -/
theorem at?_overlay_map_cons {layer : Mapping} (keyed : (Value.map layer).hasTextKeys = true)
    (base : Option Value) (key : Key) (path : List Key) :
    ((Value.map layer).overlay base).at? (key :: path) =
      match Table.get? key layer with
      | none => base.bind fun b => b.at? (key :: path)
      | some v => (v.overlay (base.bind fun b => b.at? [key])).at? path := by
  have distinct : Table.isDistinct layer = true :=
    isDistinct_of_entriesHaveTextKeys (hasTextKeys_map layer ▸ keyed)
  by_cases mapping : ∃ entries, base = some (.map entries)
  · obtain ⟨entries, rfl⟩ := mapping
    rw [Value.overlay, at?_map_cons, get?_mergeEntries distinct]
    cases Table.get? key layer <;> simp
  · have below : ∀ rest, (base.bind fun b => b.at? (key :: rest)) = none := by
      intro rest
      cases base with
      | none => rfl
      | some b =>
          cases hb : b.isMapping with
          | false => exact at?_cons_of_not_mapping hb key rest
          | true =>
              obtain ⟨entries, rfl⟩ := isMapping_eq_true_iff.1 hb
              exact absurd ⟨entries, rfl⟩ mapping
    rw [overlay_map_of_not_mapping layer fun entries same => mapping ⟨entries, same⟩,
      at?_map_cons, below, below]
    cases Table.get? key layer <;> simp [overlay_none]

/-- Where a value holds something, that is laid over what the base holds. -/
theorem at?_overlay_of_some {v u : Value} {path : List Key} (base : Option Value)
    (keyed : v.hasTextKeys = true) (holds : v.at? path = some u) :
    (v.overlay base).at? path = some (u.overlay (base.bind fun b => b.at? path)) := by
  induction path generalizing v base with
  | nil =>
      simp only [at?_nil, Option.some.injEq] at holds
      simp [holds]
  | cons key path ih =>
      cases hv : v.isMapping with
      | false => simp [at?_cons_of_not_mapping hv] at holds
      | true =>
          obtain ⟨layer, rfl⟩ := isMapping_eq_true_iff.1 hv
          rw [at?_map_cons, Option.bind_eq_some_iff] at holds
          obtain ⟨inner, found, holdsInner⟩ := holds
          have keyedInner : inner.hasTextKeys = true :=
            hasTextKeys_of_get? (hasTextKeys_map layer ▸ keyed) found
          rw [at?_overlay_map_cons keyed, found, bind_at?_cons]
          exact ih _ keyedInner holdsInner

/-- Where a value has no say, the base stays as it is. -/
theorem at?_overlay_of_silent {v : Value} {path : List Key} (base : Option Value)
    (keyed : v.hasTextKeys = true) (silent : v.IsSilentAt path) :
    (v.overlay base).at? path = base.bind fun b => b.at? path := by
  induction path generalizing v base with
  | nil => exact absurd silent (not_isSilentAt_nil v)
  | cons key path ih =>
      obtain ⟨layer, rfl⟩ := isMapping_eq_true_iff.1 silent.isMapping
      rw [at?_overlay_map_cons keyed]
      cases found : Table.get? key layer with
      | none => rfl
      | some inner =>
          have keyedInner : inner.hasTextKeys = true :=
            hasTextKeys_of_get? (hasTextKeys_map layer ▸ keyed) found
          rw [bind_at?_cons]
          exact ih _ keyedInner (isSilentAt_map_cons.1 silent inner found)

/-- Where a value holds nothing but something that is no mapping on the way, nothing is left. -/
theorem at?_overlay_of_blocked {v : Value} {path : List Key} (base : Option Value)
    (keyed : v.hasTextKeys = true) (nothing : v.at? path = none)
    (blocked : ¬ v.IsSilentAt path) : (v.overlay base).at? path = none := by
  induction path generalizing v base with
  | nil => simp at nothing
  | cons key path ih =>
      cases hv : v.isMapping with
      | false =>
          rw [overlay_of_not_mapping hv]
          exact nothing
      | true =>
          obtain ⟨layer, rfl⟩ := isMapping_eq_true_iff.1 hv
          rw [at?_overlay_map_cons keyed]
          cases found : Table.get? key layer with
          | none => exact absurd (isSilentAt_map_cons.2 (by simp [found])) blocked
          | some inner =>
              have keyedInner : inner.hasTextKeys = true :=
                hasTextKeys_of_get? (hasTextKeys_map layer ▸ keyed) found
              refine ih _ keyedInner (by simpa [found] using nothing) ?_
              intro silent
              refine blocked (isSilentAt_map_cons.2 ?_)
              intro other foundOther
              rw [found, Option.some.injEq] at foundOther
              exact foundOther ▸ silent

/-!
### Two mappings
-/

section Merge

variable {base layer : Mapping} {path : List Key}

/-- A merge is the layer, as a value, laid over the base. -/
theorem map_merge (base layer : Mapping) :
    Value.map (base.merge layer) = (Value.map layer).overlay (some (.map base)) := by
  rw [Value.overlay, Mapping.merge]

/-- The layer's value wins where it is no mapping. -/
theorem at?_merge_of_scalar {v : Value} (keyed : layer.hasTextKeys = true)
    (holds : (Value.map layer).at? path = some v) (scalar : v.isMapping = false) :
    (Value.map (base.merge layer)).at? path = some v := by
  rw [map_merge, at?_overlay_of_some _ keyed holds, overlay_of_not_mapping scalar]

/-- Where the layer has no say, the base's value stays. -/
theorem at?_merge_of_silent (keyed : layer.hasTextKeys = true)
    (silent : (Value.map layer).IsSilentAt path) :
    (Value.map (base.merge layer)).at? path = (Value.map base).at? path := by
  rw [map_merge, at?_overlay_of_silent _ keyed silent, Option.bind_some]

/-- Where neither has a say, the merge has none. -/
theorem isSilentAt_merge (keyed : layer.hasTextKeys = true)
    (silentBase : (Value.map base).IsSilentAt path)
    (silentLayer : (Value.map layer).IsSilentAt path) :
    (Value.map (base.merge layer)).IsSilentAt path := by
  constructor
  · rw [at?_merge_of_silent keyed silentLayer, silentBase.1]
  · intro start isStart proper u holds
    cases inLayer : (Value.map layer).at? start with
    | some v =>
        rw [map_merge, at?_overlay_of_some _ keyed inLayer, Option.some.injEq] at holds
        rw [← holds, isMapping_overlay]
        exact silentLayer.2 start isStart proper v inLayer
    | none =>
        rw [at?_merge_of_silent keyed (silentLayer.of_prefix isStart inLayer)] at holds
        exact silentBase.2 start isStart proper u holds

/-- A value of a merge that is no mapping stands at the same path in one of the two. -/
theorem at?_of_merge_of_scalar {v : Value} (keyed : layer.hasTextKeys = true)
    (holds : (Value.map (base.merge layer)).at? path = some v) (scalar : v.isMapping = false) :
    (Value.map layer).at? path = some v ∨ (Value.map base).at? path = some v := by
  cases inLayer : (Value.map layer).at? path with
  | some u =>
      rw [map_merge, at?_overlay_of_some _ keyed inLayer, Option.some.injEq] at holds
      have scalarLayer : u.isMapping = false := by
        rw [← isMapping_overlay, holds, scalar]
      rw [overlay_of_not_mapping scalarLayer] at holds
      exact Or.inl (congrArg some holds)
  | none =>
      by_cases silent : (Value.map layer).IsSilentAt path
      · rw [at?_merge_of_silent keyed silent] at holds
        exact Or.inr holds
      · rw [map_merge, at?_overlay_of_blocked _ keyed inLayer silent] at holds
        cases holds

/-- A merge of mappings keyed by texts is keyed by texts. -/
theorem hasTextKeys_merge (keyedBase : base.hasTextKeys = true)
    (keyed : layer.hasTextKeys = true) : (base.merge layer).hasTextKeys = true := by
  rw [Mapping.hasTextKeys_eq] at keyedBase keyed ⊢
  exact entriesHaveTextKeys_mergeEntries keyedBase keyed

end Merge

end StyleAudit
