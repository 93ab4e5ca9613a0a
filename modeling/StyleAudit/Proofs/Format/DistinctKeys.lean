/-
Module: StyleAudit.Proofs.Format.DistinctKeys
Purpose: No key stands twice in a mapping that a text of one of the data formats denotes.
Trusted boundary: none
Main exports: Value.HasDistinctKeys, Json.hasDistinctKeys_read, Toml.isDistinct_read,
  Yaml.hasDistinctKeys_read
-/
import StyleAudit.Proofs.Config.Gathering
import StyleAudit.Proofs.Value.KeyOrder
import StyleAudit.Config.Source
import Mathlib

namespace StyleAudit

open Format

theorem map_eq_ok_iff {ε α β : Type} {first : Except ε α} {f : α → β} {b : β} :
    first.map f = .ok b ↔ ∃ a, first = .ok a ∧ f a = b := by
  cases first <;> simp [Except.map]

/-- No key stands twice in a value that is a mapping. -/
def Value.HasDistinctKeys (v : Value) : Prop :=
  ∀ entries, v = .map entries → Table.isDistinct entries = true

theorem Value.hasDistinctKeys_of_not_mapping {v : Value} (single : v.isMapping = false) :
    v.HasDistinctKeys := by
  rintro entries rfl
  cases single

theorem isDistinct_ofList (entries : List (Key × Value)) :
    Table.isDistinct (Table.ofList entries) = true := by
  have general : ∀ table : Mapping, Table.isDistinct table = true →
      Table.isDistinct (entries.foldl (fun table entry => table.put entry.1 entry.2) table)
        = true := by
    induction entries with
    | nil => exact fun table distinct => distinct
    | cons entry rest ih => exact fun table distinct => ih _ (Table.isDistinct_put distinct _)
  exact general [] rfl

/-!
### JSON

An object is a table of all its members, so each name stands in it once.
-/

namespace Json

theorem isMapping_of_number {number : Except Fault Int} {after rest : List Char} {v : Value}
    (read : number.map (fun n => (Value.int n, after)) = .ok (v, rest)) :
    v.isMapping = false := by
  obtain ⟨n, _, same⟩ := map_eq_ok_iff.1 read
  cases same
  rfl

theorem isMapping_readMagnitude {negative : Bool} {text rest : List Char} {v : Value}
    (read : readMagnitude negative text = .ok (v, rest)) : v.isMapping = false := by
  simp only [readMagnitude] at read
  split at read
  · simp only [List.isEmpty_cons, Bool.false_eq_true, if_false] at read
    split at read
    · exact isMapping_of_number read
    · cases read
      rfl
  · split at read
    · cases read
    · split at read
      · exact isMapping_of_number read
      · cases read
        rfl

theorem isMapping_readScalar {text rest : List Char} {v : Value}
    (read : readScalar text = .ok (v, rest)) : v.isMapping = false := by
  unfold readScalar at read
  split at read
  case h_7 => exact isMapping_readMagnitude read
  case h_8 => exact isMapping_readMagnitude read
  all_goals
    cases read
    rfl

theorem hasDistinctKeys_readValue {fuel : Nat} {text rest : List Char} {v : Value}
    (read : readValue fuel text = .ok (v, rest)) : v.HasDistinctKeys := by
  cases fuel with
  | zero => cases read
  | succ fuel =>
      unfold readValue at read
      split at read
      · obtain ⟨_, _, same⟩ := map_eq_ok_iff.1 read
        cases same
        exact Value.hasDistinctKeys_of_not_mapping rfl
      · split at read
        · cases read
          exact Value.hasDistinctKeys_of_not_mapping rfl
        · obtain ⟨_, _, same⟩ := map_eq_ok_iff.1 read
          cases same
          exact Value.hasDistinctKeys_of_not_mapping rfl
      · split at read
        · cases read
          rintro entries ⟨⟩
          rfl
        · obtain ⟨members, _, same⟩ := map_eq_ok_iff.1 read
          cases same
          rintro entries ⟨⟩
          exact isDistinct_ofList members.1
      · exact Value.hasDistinctKeys_of_not_mapping (isMapping_readScalar read)

theorem hasDistinctKeys_read {text : List Char} {v : Value} (whole : read text = .ok v) :
    v.HasDistinctKeys := by
  obtain ⟨⟨found, rest⟩, start, finished⟩ := bind_eq_ok_iff.1 whole
  simp only at finished
  split at finished
  · cases finished
    exact hasDistinctKeys_readValue start
  · cases finished

end Json

/-!
### TOML

The table of a document starts without keys, and all that is done to it is to write entries.
-/

namespace Toml

/-- Below the top only the value of an entry changes. -/
theorem isDistinct_updateAt? {arrays : Bool} {change : Mapping → Option Mapping}
    (keeps : ∀ {before after : Mapping}, change before = some after →
      Table.isDistinct before = true → Table.isDistinct after = true)
    {path : KeyPath} {table result : Mapping}
    (changed : updateAt? arrays change path table = some result)
    (distinct : Table.isDistinct table = true) : Table.isDistinct result = true := by
  cases path with
  | nil => exact keeps changed distinct
  | cons name path =>
      unfold updateAt? at changed
      split at changed
      · obtain ⟨inner, _, rfl⟩ := Option.map_eq_some_iff.1 changed
        exact Table.isDistinct_put distinct _
      · obtain ⟨inner, _, rfl⟩ := Option.map_eq_some_iff.1 changed
        exact Table.isDistinct_put distinct _
      · split at changed
        · obtain ⟨inner, _, rfl⟩ := Option.map_eq_some_iff.1 changed
          exact Table.isDistinct_put distinct _
        · cases changed
      · cases changed

theorem isDistinct_appendItem? {name : String} {before after : Mapping}
    (changed : appendItem? name before = some after) (distinct : Table.isDistinct before = true) :
    Table.isDistinct after = true := by
  unfold appendItem? at changed
  split at changed
  · cases changed
    exact Table.isDistinct_put distinct _
  · cases changed
    exact Table.isDistinct_put distinct _
  · cases changed

theorem isDistinct_assignNew? {name : String} {v : Value} {before after : Mapping}
    (changed : assignNew? name v before = some after) (distinct : Table.isDistinct before = true) :
    Table.isDistinct after = true := by
  unfold assignNew? at changed
  split at changed
  · cases changed
    exact Table.isDistinct_put distinct _
  · cases changed

variable {d after : Document} {path : KeyPath}

theorem isDistinct_openTable? (opened : d.openTable? path = some after)
    (distinct : Table.isDistinct d.table = true) : Table.isDistinct after.table = true := by
  unfold Document.openTable? at opened
  split at opened
  · cases opened
  · obtain ⟨table, changed, rfl⟩ := Option.map_eq_some_iff.1 opened
    refine isDistinct_updateAt? ?_ changed distinct
    rintro before _ ⟨⟩ kept
    exact kept

theorem isDistinct_openItem? (opened : d.openItem? path = some after)
    (distinct : Table.isDistinct d.table = true) : Table.isDistinct after.table = true := by
  unfold Document.openItem? at opened
  split at opened
  · cases opened
  · obtain ⟨last, _, opened⟩ := Option.bind_eq_some_iff.1 opened
    obtain ⟨table, changed, made⟩ := Option.bind_eq_some_iff.1 opened
    cases made
    exact isDistinct_updateAt? isDistinct_appendItem? changed distinct

theorem isDistinct_assign? {v : Value} (assigned : d.assign? path v = some after)
    (distinct : Table.isDistinct d.table = true) : Table.isDistinct after.table = true := by
  obtain ⟨name, _, assigned⟩ := Option.bind_eq_some_iff.1 assigned
  simp only at assigned
  split at assigned
  · cases assigned
  · split at assigned
    · cases assigned
    · obtain ⟨table, changed, made⟩ := Option.bind_eq_some_iff.1 assigned
      cases made
      exact isDistinct_updateAt? isDistinct_assignNew? changed distinct

theorem orMalformed_eq_ok_iff {α : Type} {found : Option α} {a : α} :
    orMalformed found = .ok a ↔ found = some a := by
  cases found <;> simp [orMalformed]

theorem isDistinct_readStatement {text rest : List Char}
    (read : readStatement d text = .ok (after, rest)) (distinct : Table.isDistinct d.table = true) :
    Table.isDistinct after.table = true := by
  unfold readStatement at read
  split at read
  · obtain ⟨⟨path, behind⟩, _, read⟩ := bind_eq_ok_iff.1 read
    obtain ⟨opened, changed, read⟩ := bind_eq_ok_iff.1 read
    split at read
    · cases read
      exact isDistinct_openItem? (orMalformed_eq_ok_iff.1 changed) distinct
    · cases read
  · obtain ⟨⟨path, behind⟩, _, read⟩ := bind_eq_ok_iff.1 read
    obtain ⟨opened, changed, read⟩ := bind_eq_ok_iff.1 read
    split at read
    · cases read
      exact isDistinct_openTable? (orMalformed_eq_ok_iff.1 changed) distinct
    · cases read
  · split at read
    · obtain ⟨⟨path, behind⟩, _, read⟩ := bind_eq_ok_iff.1 read
      simp only at read
      split at read
      · obtain ⟨⟨v, behindValue⟩, _, read⟩ := bind_eq_ok_iff.1 read
        obtain ⟨assigned, changed, read⟩ := bind_eq_ok_iff.1 read
        cases read
        exact isDistinct_assign? (orMalformed_eq_ok_iff.1 changed) distinct
      · cases read
    · split at read
      · cases read
        exact distinct
      · cases read
  · cases read
    exact distinct

theorem isDistinct_readLines :
    ∀ {fuel : Nat} {d after : Document} {text : List Char}, readLines fuel d text = .ok after →
      Table.isDistinct d.table = true → Table.isDistinct after.table = true
  | 0, d, after, text, read, distinct => by
      unfold readLines at read
      split at read
      · cases read
        exact distinct
      · cases read
  | fuel + 1, d, after, text, read, distinct => by
      unfold readLines at read
      split at read
      · cases read
        exact distinct
      · exact isDistinct_readLines read distinct
      · obtain ⟨⟨next, behind⟩, line, read⟩ := bind_eq_ok_iff.1 read
        obtain ⟨rest, _, read⟩ := bind_eq_ok_iff.1 read
        have kept := isDistinct_readStatement line distinct
        split at read
        · cases read
          exact kept
        · exact isDistinct_readLines read kept
        · cases read

theorem isDistinct_read {text : List Char} {table : Mapping} (whole : read text = .ok table) :
    Table.isDistinct table = true := by
  obtain ⟨d, lines, done⟩ := bind_eq_ok_iff.1 whole
  cases done
  exact isDistinct_readLines lines rfl

end Toml
/-!
### YAML

The objects of a document's nodes are built by steps that change nodes and objects.  What is kept
by each of them holds of the objects when all are built.
-/

namespace Yaml

theorem isMapping_scalarValue {label : Nat} {tag : Tag} {text : Text} {v : Value}
    (read : scalarValue label tag text = .ok v) : v.isMapping = false := by
  cases tag with
  | null | str =>
      cases read
      rfl
  | bool | int | float | timestamp | binary =>
      obtain ⟨_, _, rfl⟩ := map_eq_ok_iff.1 read
      rfl
  | _ => cases read

theorem isMapping_graph_scalarValue {g : Graph} {id : NodeId} {v : Value}
    (read : g.scalarValue id = .ok v) : v.isMapping = false := by
  obtain ⟨text, _, read⟩ := bind_eq_ok_iff.1 read
  split at read
  · exact isMapping_scalarValue read
  · cases read
  · exact isMapping_scalarValue read

/-- No key stands twice in an object that is a mapping, and no scalar is one. -/
def Object.HasDistinctKeys : Object → Prop
  | .scalar v => v.isMapping = false
  | .mapping entries => Table.isDistinct entries = true
  | _ => True

/-- No key stands twice in any object that is begun. -/
def Objects.HaveDistinctKeys (objects : Objects) : Prop :=
  ∀ id o, objects.object? id = some o → o.HasDistinctKeys

/-- A step of building keeps the keys of all objects apart, and gives something with a property. -/
def Build.Gives {α : Type} (step : Build α) (property : α → Prop) : Prop :=
  ∀ s a after, s.objects.HaveDistinctKeys → step.run s = .ok (a, after) →
    after.objects.HaveDistinctKeys ∧ property a

namespace Build

variable {α β : Type} {step : Build α} {property : α → Prop}

theorem Gives.bind {next : α → Build β} {wanted : β → Prop} (first : step.Gives property)
    (second : ∀ a, property a → (next a).Gives wanted) : Gives (step >>= next) wanted := by
  intro s b after distinct ran
  obtain ⟨⟨a, between⟩, ranFirst, ranSecond⟩ := bind_eq_ok_iff.1 ran
  obtain ⟨kept, holds⟩ := first s a between distinct ranFirst
  exact second a holds between b after kept ranSecond

theorem Gives.pure {a : α} (holds : property a) : Gives (pure a) property := by
  rintro s _ _ distinct ⟨⟩
  exact ⟨distinct, holds⟩

theorem Gives.lift {found : Except Fault α} (holds : ∀ a, found = .ok a → property a) :
    Gives (liftM found) property := by
  intro s a after distinct ran
  cases found with
  | error fault => cases ran
  | ok b =>
      cases ran
      exact ⟨distinct, holds _ rfl⟩

theorem Gives.throw {fault : Fault} : Gives (throw fault : Build α) property := by
  rintro s _ _ distinct ⟨⟩

theorem Gives.get : Gives (get : Build Building) fun _ => True := by
  rintro s _ _ distinct ⟨⟩
  exact ⟨distinct, trivial⟩

/-- Whatever leaves the objects alone keeps their keys apart. -/
theorem Gives.modify {change : Building → Building} (same : ∀ s, (change s).objects = s.objects) :
    Gives (modify change : Build PUnit) fun _ => True := by
  rintro s _ _ distinct ⟨⟩
  exact ⟨(same s).symm ▸ distinct, trivial⟩

theorem gives_put {id : NodeId} {o : Object} (distinct : o.HasDistinctKeys) :
    Gives (put id o) fun _ => True := by
  rintro s _ _ kept ⟨⟩
  refine ⟨?_, trivial⟩
  intro other found held
  simp only [Objects.object?, Array.set!_eq_setIfInBounds, Array.getElem?_setIfInBounds] at held
  split at held
  · split at held
    · cases held
      exact distinct
    · cases held
  · exact kept other found held

theorem gives_begin {id : NodeId} {o : Object} (distinct : o.HasDistinctKeys) :
    Gives (begin_ id o) fun _ => True :=
  (gives_put distinct).bind fun _ _ => .modify fun _ => rfl

theorem gives_construct (id : NodeId) : Gives (construct id) fun _ => True := by
  refine Gives.get.bind fun s _ => ?_
  split
  · split
    · exact gives_begin trivial
    · exact gives_begin trivial
    · exact gives_begin rfl
    · exact gives_begin trivial
    · exact .throw
    · exact .throw
    · exact .throw
    · refine (Gives.lift ?_).bind fun v single => gives_put single
      intro v read
      exact isMapping_graph_scalarValue read
  · exact .pure trivial

theorem gives_key (id : NodeId) : Gives (key id) fun _ => True := by
  refine Gives.get.bind fun s _ => ?_
  split
  · split
    · exact .pure trivial
    · exact .throw
  · exact .throw

theorem gives_entries (pairs : List (NodeId × NodeId)) :
    ∀ {table : Table Key NodeId}, Table.isDistinct table = true →
      Gives (entries pairs table) fun result => Table.isDistinct result = true := by
  induction pairs with
  | nil => exact fun distinct => .pure distinct
  | cons pair rest ih =>
      intro table distinct
      exact (gives_construct _).bind fun _ _ => (gives_key _).bind fun k _ =>
        (gives_construct _).bind fun _ _ => ih (Table.isDistinct_put distinct _)

theorem gives_entriesOf (id : NodeId) :
    Gives (entriesOf id) fun result => Table.isDistinct result = true := by
  refine Gives.get.bind fun s _ => ?_
  split
  · have brought : ∀ found : Except Fault (Unit × Graph),
        Gives (liftM found) fun _ => True := fun _ => .lift fun _ _ => trivial
    have nothing : Table.isDistinct ([] : Table Key NodeId) = true := rfl
    refine (brought _).bind ?_
    rintro ⟨_, graph⟩ _
    refine Gives.bind (.modify ?_) fun _ _ => gives_entries _ nothing
    intro s
    rfl
  · exact .throw

theorem gives_pairOf (id : NodeId) : Gives (pairOf id) fun _ => True := by
  refine Gives.get.bind fun s _ => ?_
  split
  · exact (gives_construct _).bind fun _ _ => (gives_construct _).bind fun _ _ => .pure trivial
  · exact .throw

theorem gives_itemsOf (id : NodeId) : Gives (itemsOf id) fun _ => True := by
  refine Gives.get.bind fun s _ => ?_
  split
  · exact .pure trivial
  · exact .throw

theorem gives_forM {items : List α} {each : α → Build PUnit}
    (keeps : ∀ a, (each a).Gives fun _ => True) : Gives (items.forM each) fun _ => True := by
  induction items with
  | nil => exact .pure trivial
  | cons item rest ih => exact (keeps item).bind fun _ _ => ih

theorem gives_mapM {items : List α} {each : α → Build β}
    (keeps : ∀ a, (each a).Gives fun _ => True) : Gives (items.mapM each) fun _ => True := by
  induction items with
  | nil => exact .pure trivial
  | cons item rest ih =>
      rw [List.mapM_cons]
      exact (keeps item).bind fun _ _ => ih.bind fun _ _ => .pure trivial

theorem gives_fill (id : NodeId) : Gives (fill id) fun _ => True := by
  refine Gives.get.bind fun s _ => ?_
  split
  · exact (gives_itemsOf id).bind fun _ _ =>
      (gives_forM gives_construct).bind fun _ _ => gives_put trivial
  · exact (gives_itemsOf id).bind fun _ _ =>
      (gives_mapM gives_pairOf).bind fun _ _ => gives_put trivial
  · exact (gives_entriesOf id).bind fun _ distinct => gives_put distinct
  · exact (gives_entriesOf id).bind fun _ _ => gives_put trivial
  · exact .pure trivial

theorem gives_fillFrom :
    ∀ fuel place : Nat, Gives (fillFrom fuel place) fun _ => True
  | 0, _ => .pure trivial
  | fuel + 1, place => by
      refine Gives.get.bind fun s _ => ?_
      split
      · exact (gives_fill _).bind fun _ _ => gives_fillFrom fuel (place + 1)
      · exact .pure trivial

end Build

theorem haveDistinctKeys_ofGraph {root : NodeId} {g : Graph} {objects : Objects}
    (built : Objects.ofGraph root g = .ok objects) : objects.HaveDistinctKeys := by
  obtain ⟨⟨_, after⟩, ran, rfl⟩ := map_eq_ok_iff.1 built
  have gives := (Build.gives_construct root).bind fun _ _ => Build.gives_fillFrom (g.size + 1) 0
  refine (gives _ _ after ?_ ran).1
  intro id o held
  rw [Objects.object?, Array.getElem?_replicate] at held
  split at held
  · cases held
  · cases held

theorem hasDistinctKeys_denotationIn {objects : Objects} (distinct : objects.HaveDistinctKeys)
    (depth : Nat) (around : List NodeId) (id : NodeId) :
    (objects.denotationIn depth around id).value.HasDistinctKeys := by
  cases depth with
  | zero => exact Value.hasDistinctKeys_of_not_mapping rfl
  | succ depth =>
      unfold Objects.denotationIn
      simp only
      split
      · rename_i held
        exact Value.hasDistinctKeys_of_not_mapping (distinct id _ held)
      · exact Value.hasDistinctKeys_of_not_mapping rfl
      · split
        · exact Value.hasDistinctKeys_of_not_mapping rfl
        · exact Value.hasDistinctKeys_of_not_mapping rfl
      · split
        · exact Value.hasDistinctKeys_of_not_mapping rfl
        · exact Value.hasDistinctKeys_of_not_mapping rfl
      · rename_i entries held
        split
        · rintro _ ⟨⟩
          rfl
        · rintro _ ⟨⟩
          rw [Table.isDistinct_map_values, Table.isDistinct_map_values]
          exact distinct id _ held
      · exact Value.hasDistinctKeys_of_not_mapping rfl

theorem hasDistinctKeys_read {source : Source} {found : Denotation}
    (whole : read source = .ok found) : found.value.HasDistinctKeys := by
  obtain ⟨⟨root, graph⟩, _, whole⟩ := bind_eq_ok_iff.1 whole
  cases root with
  | none =>
      cases whole
      exact Value.hasDistinctKeys_of_not_mapping rfl
  | some root =>
      obtain ⟨objects, built, denoted⟩ := bind_eq_ok_iff.1 whole
      cases denoted
      exact hasDistinctKeys_denotationIn (haveDistinctKeys_ofGraph built) _ _ _

end Yaml
end StyleAudit
