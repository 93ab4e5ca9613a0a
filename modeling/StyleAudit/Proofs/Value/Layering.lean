/-
Module: StyleAudit.Proofs.Value.Layering
Purpose: What layers laid one after another over a mapping come to, told path by path: which
  values, which mappings, and the keys of these in their order.
Trusted boundary: none
Main exports: Value.HoldsMappingAt, Value.keysAt, LaidOver, laidOver_merge, LaidOver.unique,
  LaidInTurn, mergeLayers?_maps, mergeLayers?_laidInTurn
-/
import StyleAudit.Proofs.Value.KeyOrder

namespace StyleAudit

/-!
### Mappings at a path
-/

/-- A mapping stands at the path. -/
def Value.HoldsMappingAt (v : Value) (path : List Key) : Prop :=
  ∃ entries, v.at? path = some (.map entries)

/-- The keys of the mapping at a path, in order; none where no mapping stands. -/
def Value.keysAt (v : Value) (path : List Key) : List Key :=
  match v.at? path with
  | some (.map entries) => Table.keys entries
  | _ => []

section Paths

variable {v : Value} {path : List Key}

theorem keysAt_of_map {entries : List (Key × Value)} (holds : v.at? path = some (.map entries)) :
    v.keysAt path = Table.keys entries := by
  rw [Value.keysAt, holds]

theorem keysAt_of_not_holds (nothing : ¬ v.HoldsMappingAt path) : v.keysAt path = [] := by
  unfold Value.keysAt
  split
  · rename_i entries holds
    exact absurd ⟨entries, holds⟩ nothing
  · rfl

theorem not_holdsMappingAt_of_none (nothing : v.at? path = none) : ¬ v.HoldsMappingAt path := by
  rintro ⟨entries, holds⟩
  rw [nothing] at holds
  cases holds

theorem holdsMappingAt_iff :
    v.HoldsMappingAt path ↔ ∃ u, v.at? path = some u ∧ u.isMapping = true := by
  constructor
  · rintro ⟨entries, holds⟩
    exact ⟨_, holds, rfl⟩
  · rintro ⟨u, holds, mapping⟩
    obtain ⟨entries, rfl⟩ := isMapping_eq_true_iff.1 mapping
    exact ⟨entries, holds⟩

/-- What stands in a value that is keyed by texts is keyed by texts. -/
theorem hasTextKeys_of_at? {u : Value} (keyed : v.hasTextKeys = true)
    (holds : v.at? path = some u) : u.hasTextKeys = true := by
  induction path generalizing v with
  | nil =>
      rw [at?_nil, Option.some.injEq] at holds
      exact holds ▸ keyed
  | cons key path ih =>
      cases hv : v.isMapping with
      | false =>
          rw [at?_cons_of_not_mapping hv] at holds
          cases holds
      | true =>
          obtain ⟨entries, rfl⟩ := isMapping_eq_true_iff.1 hv
          rw [at?_map_cons, Option.bind_eq_some_iff] at holds
          obtain ⟨inner, found, holdsInner⟩ := holds
          exact ih (hasTextKeys_of_get? (hasTextKeys_map entries ▸ keyed) found) holdsInner

/-- The keys of entries that are keyed by texts are texts. -/
theorem isText_of_mem_keys {entries : List (Key × Value)} {key : Key}
    (keyed : entriesHaveTextKeys entries = true) (member : key ∈ Table.keys entries) :
    key.isText = true := by
  induction entries with
  | nil => cases member
  | cons entry rest ih =>
      obtain ⟨k, u⟩ := entry
      obtain ⟨text, _, _, keyedRest⟩ := entriesHaveTextKeys_cons.1 keyed
      rcases List.mem_cons.1 member with rfl | behind
      · exact text
      · exact ih keyedRest behind

/-- A text denotes the entry of one of some texts exactly when it is one of them. -/
theorem any_same_iff_mem {keys : List Key} {key : Key} (texts : ∀ k ∈ keys, k.isText = true)
    (text : key.isText = true) :
    keys.any (fun k => Sameness.same k key) = true ↔ key ∈ keys := by
  have same_iff : ∀ k ∈ keys, (Sameness.same k key = true ↔ k = key) := by
    intro k member
    have textKey := texts k member
    cases k with
    | str s =>
        cases key with
        | str t => rw [Key.same_str, Key.str.injEq]
        | _ => cases text
    | _ => cases textKey
  rw [List.any_eq_true]
  constructor
  · rintro ⟨k, member, same⟩
    exact (same_iff k member).1 same ▸ member
  · intro member
    exact ⟨key, member, Key.same_refl key⟩

end Paths

/-!
### One layer

A layer laid over a base decides at every path at which it holds something.  Where it is silent,
the base stays.  Where it holds something that is no mapping on the way to the path, nothing is
left there.
-/

/-- What a layer over a base comes to, path by path: the values that are no mappings, where
mappings stand, and their keys, the base's before those that only the layer has. -/
structure LaidOver (base layer result : Value) : Prop where
  values : ∀ path v, v.isMapping = false →
    (result.at? path = some v ↔
      layer.at? path = some v ∨ layer.IsSilentAt path ∧ base.at? path = some v)
  mappings : ∀ path, result.HoldsMappingAt path ↔
    layer.HoldsMappingAt path ∨ layer.IsSilentAt path ∧ base.HoldsMappingAt path
  keys : ∀ path, result.HoldsMappingAt path →
    result.keysAt path
      = base.keysAt path ++ (layer.keysAt path).filter fun key => key ∉ base.keysAt path

section OneLayer

variable {base layer : Mapping} {path : List Key}

/-- What a merge holds at a path at which the layer holds something. -/
theorem at?_merge_of_some {u : Value} (keyed : layer.hasTextKeys = true)
    (holds : (Value.map layer).at? path = some u) :
    (Value.map (base.merge layer)).at? path = some (u.overlay ((Value.map base).at? path)) := by
  rw [map_merge, at?_overlay_of_some _ keyed holds, Option.bind_some]

/-- At a path, a merge holds what the layer holds laid over what the base holds, what the base
holds where the layer is silent, or nothing. -/
theorem at?_merge_cases (keyed : layer.hasTextKeys = true) (base : Mapping) (path : List Key) :
    (∃ u, (Value.map layer).at? path = some u
        ∧ (Value.map (base.merge layer)).at? path
          = some (u.overlay ((Value.map base).at? path)))
      ∨ ((Value.map layer).IsSilentAt path
        ∧ (Value.map (base.merge layer)).at? path = (Value.map base).at? path)
      ∨ ((Value.map layer).at? path = none ∧ ¬ (Value.map layer).IsSilentAt path
        ∧ (Value.map (base.merge layer)).at? path = none) := by
  cases inLayer : (Value.map layer).at? path with
  | some u => exact .inl ⟨u, rfl, at?_merge_of_some keyed inLayer⟩
  | none =>
      by_cases silent : (Value.map layer).IsSilentAt path
      · exact .inr (.inl ⟨silent, at?_merge_of_silent keyed silent⟩)
      · refine .inr (.inr ⟨rfl, silent, ?_⟩)
        rw [map_merge]
        exact at?_overlay_of_blocked _ keyed inLayer silent

/-- The keys of a merge of two mappings that are keyed by texts. -/
theorem keys_mergeEntries_of_texts {lower upper : List (Key × Value)}
    (keyedLower : entriesHaveTextKeys lower = true)
    (keyedUpper : entriesHaveTextKeys upper = true) :
    Table.keys (mergeEntries lower upper)
      = Table.keys lower ++ (Table.keys upper).filter fun key => key ∉ Table.keys lower := by
  have distinct := Table.isDistinct_iff_pairwise.1 (isDistinct_of_entriesHaveTextKeys keyedUpper)
  rw [keys_mergeEntries, Table.foldl_addKey_eq_filter _ distinct]
  congr 1
  apply List.filter_congr
  intro key member
  have present := any_same_iff_mem (fun k => isText_of_mem_keys keyedLower)
    (isText_of_mem_keys keyedUpper member)
  rw [Bool.eq_iff_iff, Bool.not_eq_true', ← Bool.not_eq_true, present, decide_eq_true_iff]

theorem keysAt_merge (keyedBase : base.hasTextKeys = true) (keyed : layer.hasTextKeys = true)
    (holds : (Value.map (base.merge layer)).HoldsMappingAt path) :
    (Value.map (base.merge layer)).keysAt path
      = (Value.map base).keysAt path ++ ((Value.map layer).keysAt path).filter
          fun key => key ∉ (Value.map base).keysAt path := by
  rcases at?_merge_cases keyed base path with ⟨u, inLayer, merged⟩ | ⟨silent, merged⟩
    | ⟨_, _, merged⟩
  · obtain ⟨entries, there⟩ := holds
    rw [merged, Option.some.injEq] at there
    have mapping : u.isMapping = true := by
      rw [← isMapping_overlay, there]
      rfl
    obtain ⟨upper, rfl⟩ := isMapping_eq_true_iff.1 mapping
    rw [keysAt_of_map inLayer]
    by_cases both : (Value.map base).HoldsMappingAt path
    · obtain ⟨lower, inBase⟩ := both
      have keyedLower := hasTextKeys_of_at? keyedBase inBase
      have keyedUpper := hasTextKeys_of_at? keyed inLayer
      rw [hasTextKeys_map] at keyedLower keyedUpper
      rw [inBase, Value.overlay] at merged
      rw [keysAt_of_map merged, keysAt_of_map inBase,
        keys_mergeEntries_of_texts keyedLower keyedUpper]
    · have replaces : (Value.map upper).overlay ((Value.map base).at? path) = .map upper :=
        overlay_map_of_not_mapping upper fun lower inBase => both ⟨lower, inBase⟩
      have allNew : (Table.keys upper).filter (fun key => key ∉ ([] : List Key))
          = Table.keys upper := List.filter_eq_self.2 (by simp)
      rw [replaces] at merged
      rw [keysAt_of_map merged, keysAt_of_not_holds both, allNew, List.nil_append]
  · have none := keysAt_of_not_holds (not_holdsMappingAt_of_none silent.1)
    have same : (Value.map (base.merge layer)).keysAt path = (Value.map base).keysAt path := by
      rw [Value.keysAt, Value.keysAt, merged]
    rw [same, none, List.filter_nil, List.append_nil]
  · exact absurd holds (not_holdsMappingAt_of_none merged)

/-- A merge is the layer laid over the base. -/
theorem laidOver_merge (keyedBase : base.hasTextKeys = true) (keyed : layer.hasTextKeys = true) :
    LaidOver (.map base) (.map layer) (.map (base.merge layer)) where
  values path v scalar := by
    constructor
    · intro holds
      rcases at?_merge_cases keyed base path with ⟨u, inLayer, merged⟩ | ⟨silent, merged⟩
        | ⟨_, _, merged⟩
      · rw [merged, Option.some.injEq] at holds
        have scalarLayer : u.isMapping = false := by
          rw [← isMapping_overlay, holds, scalar]
        rw [overlay_of_not_mapping scalarLayer] at holds
        exact .inl (holds ▸ inLayer)
      · exact .inr ⟨silent, merged ▸ holds⟩
      · rw [merged] at holds
        cases holds
    · rintro (inLayer | ⟨silent, inBase⟩)
      · exact at?_merge_of_scalar keyed inLayer scalar
      · rw [at?_merge_of_silent keyed silent, inBase]
  mappings path := by
    rcases at?_merge_cases keyed base path with ⟨u, inLayer, merged⟩ | ⟨silent, merged⟩
      | ⟨nothing, blocked, merged⟩
    · have loud : ¬ (Value.map layer).IsSilentAt path := by
        intro silent
        rw [silent.1] at inLayer
        cases inLayer
      simp [holdsMappingAt_iff, merged, inLayer, isMapping_overlay, loud]
    · have absent := not_holdsMappingAt_of_none silent.1
      have stays : (Value.map (base.merge layer)).HoldsMappingAt path
          ↔ (Value.map base).HoldsMappingAt path := by
        rw [Value.HoldsMappingAt, merged, Value.HoldsMappingAt]
      simp only [stays, absent, false_or, silent, true_and]
    · have absent := not_holdsMappingAt_of_none nothing
      have absentMerge := not_holdsMappingAt_of_none merged
      simp only [absent, absentMerge, blocked, false_and, or_self]
  keys _ holds := keysAt_merge keyedBase keyed holds

end OneLayer

/-!
### The paths tell everything

Two values keyed by texts that hold the same at every path, with the keys of their mappings in the
same order, are the same.  So there is only one way to lay a layer over a base.
-/

/-- Two values hold the same at every path, told as for a layer. -/
structure SameAtPaths (v u : Value) : Prop where
  values : ∀ path w, w.isMapping = false → (v.at? path = some w ↔ u.at? path = some w)
  mappings : ∀ path, v.HoldsMappingAt path ↔ u.HoldsMappingAt path
  keys : ∀ path, v.keysAt path = u.keysAt path

section Same

variable {entries others : Mapping}

theorem SameAtPaths.keys_eq (same : SameAtPaths (.map entries) (.map others)) :
    Table.keys entries = Table.keys others := by
  have root := same.keys []
  rwa [keysAt_of_map (at?_nil _), keysAt_of_map (at?_nil _)] at root

/-- Below a key, the two hold the same at every path. -/
theorem SameAtPaths.child (same : SameAtPaths (.map entries) (.map others)) {key : Key}
    {v u : Value} (found : Table.get? key entries = some v)
    (foundOther : Table.get? key others = some u) : SameAtPaths v u := by
  have below (path : List Key) : (Value.map entries).at? (key :: path) = v.at? path
      ∧ (Value.map others).at? (key :: path) = u.at? path := by
    rw [at?_map_cons, at?_map_cons, found, foundOther]
    exact ⟨rfl, rfl⟩
  constructor
  · intro path w scalar
    rw [← (below path).1, ← (below path).2]
    exact same.values (key :: path) w scalar
  · intro path
    have there := same.mappings (key :: path)
    unfold Value.HoldsMappingAt at there ⊢
    rwa [(below path).1, (below path).2] at there
  · intro path
    have there := same.keys (key :: path)
    unfold Value.keysAt at there ⊢
    rwa [(below path).1, (below path).2] at there

theorem exists_get?_of_mem_keys {table : Mapping} {key : Key} (member : key ∈ Table.keys table) :
    ∃ v, Table.get? key table = some v := by
  cases found : Table.get? key table with
  | some v => exact ⟨v, rfl⟩
  | none => exact absurd (Key.same_refl key) (Table.get?_eq_none_iff.1 found key member)

end Same

mutual

theorem eq_of_sameAtPaths :
    ∀ {v u : Value}, v.hasTextKeys = true → SameAtPaths v u → v = u
  | .map entries, u, keyed, same => by
      rw [hasTextKeys_map] at keyed
      obtain ⟨others, root⟩ := (same.mappings []).1 ⟨entries, at?_nil _⟩
      rw [at?_nil, Option.some.injEq] at root
      subst root
      have equal : entries = others := by
        apply Table.eq_of_keys_eq same.keys_eq (isDistinct_of_entriesHaveTextKeys keyed)
        intro key member
        obtain ⟨w, found⟩ := exists_get?_of_mem_keys member
        obtain ⟨x, foundOther⟩ := exists_get?_of_mem_keys (same.keys_eq ▸ member)
        rw [found, foundOther,
          eq_of_sameAtPaths_of_get? keyed found (same.child found foundOther)]
      rw [equal]
  | .null, u, _, same | .bool _, u, _, same | .int _, u, _, same | .float _, u, _, same
  | .str _, u, _, same | .moment _, u, _, same | .bytes _, u, _, same | .set _, u, _, same
  | .seq _, u, _, same => by
      have root := (same.values [] _ rfl).1 (at?_nil _)
      rw [at?_nil, Option.some.injEq] at root
      exact root.symm

theorem eq_of_sameAtPaths_of_get? :
    ∀ {entries : List (Key × Value)} {key : Key} {v u : Value},
      entriesHaveTextKeys entries = true → Table.get? key entries = some v →
        SameAtPaths v u → v = u
  | [], _, _, _, _, found, _ => by cases found
  | (k, first) :: rest, key, v, u, keyed, found, same => by
      obtain ⟨_, _, keyedFirst, keyedRest⟩ := entriesHaveTextKeys_cons.1 keyed
      rw [Table.get?_cons] at found
      split at found
      · cases found
        exact eq_of_sameAtPaths keyedFirst same
      · exact eq_of_sameAtPaths_of_get? keyedRest found same

end

/-- A layer over a base comes to one value only. -/
theorem LaidOver.unique {base layer : Mapping} {other : Value}
    (keyedBase : base.hasTextKeys = true) (keyed : layer.hasTextKeys = true)
    (laid : LaidOver (.map base) (.map layer) other) : other = .map (base.merge layer) := by
  have merged := laidOver_merge keyedBase keyed
  have mappings (path : List Key) :
      (Value.map (base.merge layer)).HoldsMappingAt path ↔ other.HoldsMappingAt path :=
    (merged.mappings path).trans (laid.mappings path).symm
  have same : SameAtPaths (.map (base.merge layer)) other := by
    constructor
    · intro path w scalar
      exact (merged.values path w scalar).trans (laid.values path w scalar).symm
    · exact mappings
    · intro path
      by_cases holds : (Value.map (base.merge layer)).HoldsMappingAt path
      · rw [merged.keys path holds, laid.keys path ((mappings path).1 holds)]
      · rw [keysAt_of_not_holds holds, keysAt_of_not_holds (mt (mappings path).2 holds)]
  exact (eq_of_sameAtPaths (hasTextKeys_merge keyedBase keyed) same).symm

/-!
### Several layers
-/

/-- Layers laid over a base one after another, each over what the ones before it came to. -/
inductive LaidInTurn : Value → List Value → Value → Prop where
  | nil {base : Value} : LaidInTurn base [] base
  | cons {base layer between result : Value} {rest : List Value}
      (first : LaidOver base layer between) (others : LaidInTurn between rest result) :
      LaidInTurn base (layer :: rest) result

/-- Layers that are mappings are merged from the left to the right. -/
theorem mergeLayers?_maps (base : Mapping) (layers : List Mapping) :
    (Value.map base).mergeLayers? (layers.map Value.map)
      = some (.map (layers.foldl Mapping.merge base)) := by
  induction layers generalizing base with
  | nil => rfl
  | cons layer rest ih =>
      cases layer with
      | nil =>
          rw [List.map_cons, Value.mergeLayers?, ih, List.foldl_cons, Mapping.merge_nil]
      | cons entry more =>
          rw [List.map_cons, Value.mergeLayers?]
          · exact ih _
          · rintro ⟨⟩

section Layers

variable {base : Mapping} {layers : List Mapping}

theorem laidInTurn_foldl (keyedBase : base.hasTextKeys = true)
    (keyed : ∀ layer ∈ layers, layer.hasTextKeys = true) :
    LaidInTurn (.map base) (layers.map Value.map) (.map (layers.foldl Mapping.merge base)) := by
  induction layers generalizing base with
  | nil => exact .nil
  | cons layer rest ih =>
      obtain ⟨keyedLayer, keyedRest⟩ := List.forall_mem_cons.1 keyed
      exact .cons (laidOver_merge keyedBase keyedLayer)
        (ih (hasTextKeys_merge keyedBase keyedLayer) keyedRest)

theorem LaidInTurn.unique {other : Value} (keyedBase : base.hasTextKeys = true)
    (keyed : ∀ layer ∈ layers, layer.hasTextKeys = true)
    (laid : LaidInTurn (.map base) (layers.map Value.map) other) :
    other = .map (layers.foldl Mapping.merge base) := by
  induction layers generalizing base with
  | nil =>
      cases laid
      rfl
  | cons layer rest ih =>
      obtain ⟨keyedLayer, keyedRest⟩ := List.forall_mem_cons.1 keyed
      cases laid with
      | cons first others =>
          rw [first.unique keyedBase keyedLayer] at others
          exact ih (hasTextKeys_merge keyedBase keyedLayer) keyedRest others

/-- Layers merged over a mapping come to what they come to when each is laid, path by path, over
what the ones before it came to; and that is one value only. -/
theorem mergeLayers?_laidInTurn (keyedBase : base.hasTextKeys = true)
    (keyed : ∀ layer ∈ layers, layer.hasTextKeys = true) :
    ∃ result, (Value.map base).mergeLayers? (layers.map Value.map) = some result
      ∧ LaidInTurn (.map base) (layers.map Value.map) result
      ∧ ∀ other, LaidInTurn (.map base) (layers.map Value.map) other → other = result :=
  ⟨_, mergeLayers?_maps base layers, laidInTurn_foldl keyedBase keyed,
    fun _ laid => laid.unique keyedBase keyed⟩

end Layers

/-!
A base, and two layers in which mappings, a list and a null meet mappings and values that are none.
-/

/-- Two entries below one key, and a number. -/
def layeredBase : Mapping :=
  [(.str "x", .map [(.str "p", .int 1), (.str "q", .int 2)]), (.str "y", .int 0)]

/-- A mapping over a number, a null, and a list. -/
def firstLayer : Mapping :=
  [(.str "x", .map [(.str "q", .map [(.str "r", .int 3)]), (.str "s", .null)]),
    (.str "z", .seq [.int 1])]

/-- A mapping over the list, an empty one over the other number, and a list over the first. -/
def secondLayer : Mapping :=
  [(.str "z", .map [(.str "t", .bool true)]), (.str "y", .map []),
    (.str "x", .map [(.str "p", .seq [])])]

/-- What the two layers come to over the base. -/
def layeredResult : Mapping :=
  [(.str "x", .map [(.str "p", .seq []), (.str "q", .map [(.str "r", .int 3)]), (.str "s", .null)]),
    (.str "y", .map []), (.str "z", .map [(.str "t", .bool true)])]

theorem mergeLayers?_laidInTurn_two :
    layeredBase.hasTextKeys = true
      ∧ (∀ layer ∈ [firstLayer, secondLayer], layer.hasTextKeys = true)
      ∧ (Value.map layeredBase).mergeLayers? [.map firstLayer, .map secondLayer]
        = some (.map layeredResult)
      ∧ LaidInTurn (.map layeredBase) [.map firstLayer, .map secondLayer]
          (.map layeredResult) := by
  have keyedBase : layeredBase.hasTextKeys = true := by decide
  have keyed : ∀ layer ∈ [firstLayer, secondLayer], layer.hasTextKeys = true := by decide
  have merged : (Value.map layeredBase).mergeLayers? [.map firstLayer, .map secondLayer]
      = some (.map layeredResult) := by rfl
  obtain ⟨result, settles, laid, -⟩ := mergeLayers?_laidInTurn keyedBase keyed
  rw [List.map_cons, List.map_cons, List.map_nil, merged, Option.some.injEq] at settles
  exact ⟨keyedBase, keyed, merged, settles ▸ laid⟩

end StyleAudit
