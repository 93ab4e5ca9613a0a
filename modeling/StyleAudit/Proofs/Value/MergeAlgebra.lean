/-
Module: StyleAudit.Proofs.Value.MergeAlgebra
Purpose: The laws of merging: the empty mapping changes nothing, a layer laid twice is a layer laid
  once, and where mappings only ever meet mappings it does not matter how merges are grouped.
Trusted boundary: none
Main exports: Value.AgreesInKind, AgreeInKind, merge_nil_left, merge_self, merge_assoc,
  merge_merge_self, applyOverrides?_maps, stackOver, stackOver_eq_merge
-/
import StyleAudit.Config.Basic
import StyleAudit.Proofs.Value.Layering

namespace StyleAudit

/-!
### Kinds
-/

/-- At no path one of the values holds a mapping and the other something else. -/
def Value.AgreesInKind (v u : Value) : Prop :=
  ∀ path x y, v.at? path = some x → u.at? path = some y → x.isMapping = y.isMapping

/-- At no path one of several mappings holds a mapping and another one something else. -/
def AgreeInKind (layers : List Mapping) : Prop :=
  layers.Pairwise fun upper lower => (Value.map upper).AgreesInKind (.map lower)

section Kinds

variable {v u : Value} {upper lower : Mapping}

theorem agreesInKind_refl (v : Value) : v.AgreesInKind v := by
  intro path x y holds again
  rw [holds, Option.some.injEq] at again
  rw [again]

theorem Value.AgreesInKind.symm (agrees : v.AgreesInKind u) : u.AgreesInKind v :=
  fun path x y holds holdsOther => (agrees path y x holdsOther holds).symm

theorem Value.AgreesInKind.isMapping_eq (agrees : v.AgreesInKind u) : v.isMapping = u.isMapping :=
  agrees [] v u (at?_nil v) (at?_nil u)

/-- Values that are no mappings agree, since nothing stands below them. -/
theorem agreesInKind_of_not_mapping (scalar : v.isMapping = false)
    (scalarOther : u.isMapping = false) : v.AgreesInKind u := by
  intro path x y holds holdsOther
  cases path with
  | nil =>
      rw [at?_nil, Option.some.injEq] at holds holdsOther
      rw [← holds, ← holdsOther, scalar, scalarOther]
  | cons key path =>
      rw [at?_cons_of_not_mapping scalar] at holds
      cases holds

/-- Two mappings agree exactly when they agree in what they hold at each key. -/
theorem agreesInKind_map_iff :
    (Value.map upper).AgreesInKind (.map lower) ↔
      ∀ key x y, Table.get? key upper = some x → Table.get? key lower = some y →
        x.AgreesInKind y := by
  constructor
  · intro agrees key x y found foundOther path inner other holds holdsOther
    apply agrees (key :: path)
    · simpa [found] using holds
    · simpa [foundOther] using holdsOther
  · intro each path x y holds holdsOther
    cases path with
    | nil =>
        rw [at?_nil, Option.some.injEq] at holds holdsOther
        rw [← holds, ← holdsOther]
        rfl
    | cons key path =>
        rw [at?_map_cons, Option.bind_eq_some_iff] at holds holdsOther
        obtain ⟨inner, found, holdsInner⟩ := holds
        obtain ⟨other, foundOther, holdsOther⟩ := holdsOther
        exact each key inner other found foundOther path x y holdsInner holdsOther

theorem agreesInKind_nil (layer : Mapping) : (Value.map []).AgreesInKind (.map layer) := by
  rw [agreesInKind_map_iff]
  intro _ _ _ impossible
  cases impossible

/-- A merge agrees with whatever both of its sides agree with. -/
theorem Value.AgreesInKind.merge {base layer : Mapping} (keyed : layer.hasTextKeys = true)
    (agreesBase : v.AgreesInKind (.map base)) (agrees : v.AgreesInKind (.map layer)) :
    v.AgreesInKind (.map (base.merge layer)) := by
  intro path x y holds merged
  rcases at?_merge_cases keyed base path with ⟨w, inLayer, there⟩ | ⟨_, there⟩ | ⟨_, _, there⟩
  · rw [there, Option.some.injEq] at merged
    rw [← merged, isMapping_overlay]
    exact agrees path x w holds inLayer
  · rw [there] at merged
    exact agreesBase path x y holds merged
  · rw [there] at merged
    cases merged

end Kinds

/-!
Whether two values agree can be found out entry by entry.
-/

mutual

/-- The two values are mappings whose entries agree, or neither is a mapping. -/
def Value.kindsAgree : Value → Value → Bool
  | .map entries, .map others => entriesAgree entries others
  | v, u => !v.isMapping && !u.isMapping

/-- Each of the entries agrees with what others hold at its key. -/
def entriesAgree : List (Key × Value) → List (Key × Value) → Bool
  | [], _ => true
  | (key, v) :: rest, others =>
      (match Table.get? key others with
        | some u => v.kindsAgree u
        | none => true)
      && entriesAgree rest others

end

mutual

theorem agreesInKind_of_kindsAgree :
    ∀ {v u : Value}, v.kindsAgree u = true → v.AgreesInKind u
  | .map entries, u, agree => by
      cases u with
      | map others =>
          rw [Value.kindsAgree] at agree
          rw [agreesInKind_map_iff]
          intro key x y found foundOther
          exact agreesInKind_of_entriesAgree agree found foundOther
      | _ => cases agree
  | .null, u, agree | .bool _, u, agree | .int _, u, agree | .float _, u, agree
  | .str _, u, agree | .moment _, u, agree | .bytes _, u, agree | .set _, u, agree
  | .seq _, u, agree => by
      apply agreesInKind_of_not_mapping rfl
      rw [Value.kindsAgree] at agree
      · simpa [Value.isMapping, Value.entries?] using agree
      · rintro _ _ ⟨⟩

theorem agreesInKind_of_entriesAgree :
    ∀ {entries others : List (Key × Value)} {key : Key} {x y : Value},
      entriesAgree entries others = true → Table.get? key entries = some x →
        Table.get? key others = some y → x.AgreesInKind y
  | [], _, _, _, _, _, found, _ => by cases found
  | (k, first) :: rest, others, key, x, y, agree, found, foundOther => by
      rw [entriesAgree, Bool.and_eq_true] at agree
      rw [Table.get?_cons] at found
      split at found
      · rename_i same
        cases found
        have here := agree.1
        rw [Table.get?_congr same, foundOther] at here
        exact agreesInKind_of_kindsAgree here
      · exact agreesInKind_of_entriesAgree agree.2 found foundOther

end

/-!
### Grouping

What is laid over something that is laid over a base may be put on the lower one first, unless a
mapping would cover something else there that it then no longer covers in the base.  The induction
is on the uppermost value.
-/

section Entries

variable {base lower upper : List (Key × Value)}

/-- The merges of entries may be grouped either way when the values at each key may. -/
theorem mergeEntries_assoc_of_each (distinctBase : Table.isDistinct base = true)
    (distinctLower : Table.isDistinct lower = true)
    (distinctUpper : Table.isDistinct upper = true)
    (each : ∀ key v u, Table.get? key upper = some v → Table.get? key lower = some u →
      (v.overlay (some u)).overlay (Table.get? key base)
        = v.overlay (some (u.overlay (Table.get? key base)))) :
    mergeEntries base (mergeEntries lower upper)
      = mergeEntries (mergeEntries base lower) upper := by
  have distinctMerge := isDistinct_mergeEntries distinctLower upper
  apply Table.eq_of_keys_eq
  · rw [keys_mergeEntries, keys_mergeEntries, keys_mergeEntries, keys_mergeEntries,
      Table.foldl_addKey_foldl]
  · exact isDistinct_mergeEntries distinctBase _
  · intro key _
    rw [get?_mergeEntries distinctMerge, get?_mergeEntries distinctUpper,
      get?_mergeEntries distinctUpper, get?_mergeEntries distinctLower]
    cases inUpper : Table.get? key upper with
    | none => rfl
    | some v =>
        cases inLower : Table.get? key lower with
        | none => simp only [overlay_none]
        | some u => exact congrArg some (each key v u inUpper inLower)

end Entries

mutual

theorem overlay_overlay :
    ∀ {upper lower : Value} {base : Option Value}, upper.hasTextKeys = true →
      lower.hasTextKeys = true → (∀ b, base = some b → b.hasTextKeys = true) →
        lower.AgreesInKind upper →
          (upper.overlay (some lower)).overlay base = upper.overlay (some (lower.overlay base))
  | .map upper, lower, base, keyed, keyedLower, keyedBase, agrees => by
      obtain ⟨middle, rfl⟩ := isMapping_eq_true_iff.1 agrees.isMapping_eq
      by_cases mapping : ∃ entries, base = some (.map entries)
      · obtain ⟨entries, rfl⟩ := mapping
        have keyedEntries := keyedBase _ rfl
        rw [hasTextKeys_map] at keyed keyedLower keyedEntries
        rw [Value.overlay, Value.overlay, Value.overlay, Value.overlay]
        apply congrArg Value.map
        apply mergeEntries_assoc_of_each (isDistinct_of_entriesHaveTextKeys keyedEntries)
          (isDistinct_of_entriesHaveTextKeys keyedLower) (isDistinct_of_entriesHaveTextKeys keyed)
        intro key v u found foundLower
        exact overlay_overlay_of_get? keyed found (hasTextKeys_of_get? keyedLower foundLower)
          (fun b foundBase => hasTextKeys_of_get? keyedEntries foundBase)
          (agreesInKind_map_iff.1 agrees key u v foundLower found)
      · have other : ∀ entries, base ≠ some (.map entries) := fun entries same =>
          mapping ⟨entries, same⟩
        rw [overlay_map_of_not_mapping middle other, Value.overlay,
          overlay_map_of_not_mapping _ other]
  | .null, _, _, _, _, _, _ | .bool _, _, _, _, _, _, _ | .int _, _, _, _, _, _, _
  | .float _, _, _, _, _, _, _ | .str _, _, _, _, _, _, _ | .moment _, _, _, _, _, _, _
  | .bytes _, _, _, _, _, _, _ | .set _, _, _, _, _, _, _ | .seq _, _, _, _, _, _, _ => by
      rw [overlay_of_not_mapping rfl, overlay_of_not_mapping rfl, overlay_of_not_mapping rfl]

theorem overlay_overlay_of_get? :
    ∀ {entries : List (Key × Value)} {key : Key} {upper lower : Value} {base : Option Value},
      entriesHaveTextKeys entries = true → Table.get? key entries = some upper →
        lower.hasTextKeys = true → (∀ b, base = some b → b.hasTextKeys = true) →
          lower.AgreesInKind upper →
            (upper.overlay (some lower)).overlay base = upper.overlay (some (lower.overlay base))
  | [], _, _, _, _, _, found, _, _, _ => by cases found
  | (k, first) :: rest, key, upper, lower, base, keyed, found, keyedLower, keyedBase, agrees => by
      obtain ⟨_, _, keyedFirst, keyedRest⟩ := entriesHaveTextKeys_cons.1 keyed
      rw [Table.get?_cons] at found
      split at found
      · cases found
        exact overlay_overlay keyedFirst keyedLower keyedBase agrees
      · exact overlay_overlay_of_get? keyedRest found keyedLower keyedBase agrees

end

/-!
### A value over itself
-/

mutual

theorem overlay_self : ∀ {v : Value}, v.hasTextKeys = true → v.overlay (some v) = v
  | .map entries, keyed => by
      rw [hasTextKeys_map] at keyed
      have distinct := isDistinct_of_entriesHaveTextKeys keyed
      have sameKeys : Table.keys (mergeEntries entries entries) = Table.keys entries := by
        rw [keys_mergeEntries_of_texts keyed keyed,
          List.filter_eq_nil_iff.2 fun key member => by simp [member], List.append_nil]
      rw [Value.overlay]
      apply congrArg Value.map
      apply Table.eq_of_keys_eq sameKeys (isDistinct_mergeEntries distinct _)
      intro key _
      rw [get?_mergeEntries distinct]
      cases found : Table.get? key entries with
      | none => rfl
      | some v => exact congrArg some (overlay_self_of_get? keyed found)
  | .null, _ | .bool _, _ | .int _, _ | .float _, _ | .str _, _ | .moment _, _ | .bytes _, _
  | .set _, _ | .seq _, _ => overlay_of_not_mapping rfl _

theorem overlay_self_of_get? :
    ∀ {entries : List (Key × Value)} {key : Key} {v : Value},
      entriesHaveTextKeys entries = true → Table.get? key entries = some v →
        v.overlay (some v) = v
  | [], _, _, _, found => by cases found
  | (k, first) :: rest, key, v, keyed, found => by
      obtain ⟨_, _, keyedFirst, keyedRest⟩ := entriesHaveTextKeys_cons.1 keyed
      rw [Table.get?_cons] at found
      split at found
      · cases found
        exact overlay_self keyedFirst
      · exact overlay_self_of_get? keyedRest found

end

/-!
### Mappings
-/

section Laws

variable {base lower upper layer : Mapping}

theorem merge_nil_left (keyed : layer.hasTextKeys = true) : Mapping.merge [] layer = layer := by
  rw [Mapping.hasTextKeys_eq] at keyed
  exact mergeEntries_of_fresh layer (isDistinct_of_entriesHaveTextKeys keyed)

theorem merge_self (keyed : layer.hasTextKeys = true) : layer.merge layer = layer := by
  have same := overlay_self (v := .map layer) keyed
  rw [← map_merge] at same
  exact Value.map.inj same

/-- Merges may be grouped either way when mappings of the two upper layers only meet mappings. -/
theorem merge_assoc (keyedBase : base.hasTextKeys = true) (keyedLower : lower.hasTextKeys = true)
    (keyed : upper.hasTextKeys = true)
    (agrees : (Value.map lower).AgreesInKind (.map upper)) :
    base.merge (lower.merge upper) = (base.merge lower).merge upper := by
  have grouped : ((Value.map upper).overlay (some (.map lower))).overlay (some (.map base))
      = (Value.map upper).overlay (some ((Value.map lower).overlay (some (.map base)))) := by
    apply overlay_overlay keyed keyedLower _ agrees
    rintro _ ⟨⟩
    exact keyedBase
  rw [← map_merge, ← map_merge, ← map_merge, ← map_merge] at grouped
  exact Value.map.inj grouped

/-- A layer that is laid over a mapping a second time changes nothing. -/
theorem merge_merge_self (keyedBase : base.hasTextKeys = true) (keyed : layer.hasTextKeys = true) :
    (base.merge layer).merge layer = base.merge layer := by
  rw [← merge_assoc keyedBase keyed keyed (agreesInKind_refl _), merge_self keyed]

/-- Overrides that are a mapping are merged over a configuration. -/
theorem applyOverrides?_maps (config overrides : Mapping) :
    applyOverrides? (.map config) (.map overrides) = some (.map (config.merge overrides)) := by
  cases overrides with
  | nil =>
      rw [Mapping.merge_nil]
      rfl
  | cons entry rest => rfl

end Laws

/-!
### Many layers
-/

/-- Layers, the uppermost first, merged over a base from the lowest one on. -/
def stackOver (base : Mapping) (layers : List Mapping) : Mapping :=
  layers.foldr (fun layer below => Mapping.merge below layer) base

theorem stackOver_cons (base layer : Mapping) (rest : List Mapping) :
    stackOver base (layer :: rest) = (stackOver base rest).merge layer := rfl

theorem stackOver_append (base : Mapping) (upper lower : List Mapping) :
    stackOver base (upper ++ lower) = stackOver (stackOver base lower) upper :=
  List.foldr_append

/-- Stacked layers are what merging them one after another comes to. -/
theorem mergeLayers?_reverse (base : Mapping) (layers : List Mapping) :
    (Value.map base).mergeLayers? (layers.reverse.map Value.map)
      = some (.map (stackOver base layers)) := by
  rw [mergeLayers?_maps, List.foldl_reverse]
  rfl

section Layers

variable {layers : List Mapping} {base top : Mapping}

theorem hasTextKeys_stackOver (keyedBase : base.hasTextKeys = true)
    (keyed : ∀ layer ∈ layers, layer.hasTextKeys = true) :
    (stackOver base layers).hasTextKeys = true := by
  induction layers with
  | nil => exact keyedBase
  | cons layer rest ih =>
      obtain ⟨keyedLayer, keyedRest⟩ := List.forall_mem_cons.1 keyed
      exact hasTextKeys_merge (ih keyedRest) keyedLayer

/-- What some layers come to agrees with whatever each of them agrees with. -/
theorem agreesInKind_stackOver (keyed : ∀ layer ∈ layers, layer.hasTextKeys = true)
    (agrees : ∀ layer ∈ layers, (Value.map top).AgreesInKind (.map layer)) :
    (Value.map top).AgreesInKind (.map (stackOver [] layers)) := by
  induction layers with
  | nil => exact (agreesInKind_nil top).symm
  | cons layer rest ih =>
      obtain ⟨keyedLayer, keyedRest⟩ := List.forall_mem_cons.1 keyed
      obtain ⟨agreesLayer, agreesRest⟩ := List.forall_mem_cons.1 agrees
      exact (ih keyedRest agreesRest).merge keyedLayer agreesLayer

/-- To stack layers over a base is to merge over it what they come to by themselves. -/
theorem stackOver_eq_merge (keyedBase : base.hasTextKeys = true)
    (keyed : ∀ layer ∈ layers, layer.hasTextKeys = true) (agree : AgreeInKind layers) :
    stackOver base layers = base.merge (stackOver [] layers) := by
  induction layers with
  | nil => exact (Mapping.merge_nil base).symm
  | cons layer rest ih =>
      obtain ⟨keyedLayer, keyedRest⟩ := List.forall_mem_cons.1 keyed
      obtain ⟨agreesTop, agreeRest⟩ := List.pairwise_cons.1 agree
      have keyedBelow : (stackOver [] rest).hasTextKeys = true :=
        hasTextKeys_stackOver rfl keyedRest
      have below := (agreesInKind_stackOver keyedRest agreesTop).symm
      rw [stackOver_cons, stackOver_cons, ih keyedRest agreeRest,
        merge_assoc keyedBase keyedBelow keyedLayer below]

end Layers

end StyleAudit
