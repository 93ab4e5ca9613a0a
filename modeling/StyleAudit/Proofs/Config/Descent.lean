/-
Module: StyleAudit.Proofs.Config.Descent
Purpose: How far down the gathering of an inheritance tree goes: no file stands twice on a
  chain, so there are no more levels below the top than there are files.
Trusted boundary: none
Main exports: Call, Call.Opens, gatherLevel, gatherLevel_gather, isFresh_of_opened,
  iterate_gatherLevel, resolveWithin_eq
-/
import StyleAudit.Proofs.Config.Gathering
import Mathlib.Data.List.Dedup
import Mathlib.Data.List.Perm.Subperm
import Mathlib.Logic.Function.Iterate
import Mathlib.Logic.Relation

namespace StyleAudit

/-!
### One level

The gathering is taken apart into levels.  A level does what is done for one configuration
and leaves the files that it extends to calls of the next level.
-/

/-- What the gathering is called with: the chain, a configuration, and its base directory. -/
structure Call where
  chain : List Location
  config : Mapping
  base : Path

/-- A call opens another one for a file that one of its lookups names, that is not on its
chain and can be read. -/
inductive Call.Opens (w : World) (call : Call) : Call → Prop where
  | file {lookups : List Text} {lookup : Text} {file : w.tree.File} {entries : Mapping}
      (named : lookupsOf call.config = .ok lookups) (listed : lookup ∈ lookups)
      (looked : w.lookupFile lookup call.base = .ok (some file))
      (fresh : file.place ∉ call.chain)
      (read : w.readConfig file.path = .ok entries) :
      call.Opens w ⟨call.chain ++ [file.place], anchorPlugins entries file.directory,
        file.directory⟩

/-- The trees of the files that lookups name, as far as `below` tells them. -/
def gatherLevelAll (w : World) (below : Call → Logged Inheritance) (chain : List Location) :
    List Text → Path → Logged (List Inheritance)
  | [], _ => pure []
  | lookup :: rest, base => do
      let file ← w.locate lookup base
      if chain.contains file.place then
        Logged.refuse (.circular (chain.map fun place => ⟨.root, place⟩) file.path)
      else
        Logged.note (.extending file.path)
        let entries ← Logged.ofExcept (w.readConfig file.path)
        let parent ← below ⟨chain ++ [file.place], anchorPlugins entries file.directory,
          file.directory⟩
        let parents ← gatherLevelAll w below chain rest base
        return parent :: parents

/-- One level of gathering; `below` stands for the levels below it. -/
def gatherLevel (w : World) (below : Call → Logged Inheritance) (call : Call) :
    Logged Inheritance :=
  match lookupsOf call.config with
  | .error fault => Logged.refuse fault
  | .ok lookups => do
      let parents ← gatherLevelAll w below call.chain lookups call.base
      return .layer (call.config.without extendsKey) parents

/-- The gathering that a call asks for. -/
def Call.gather (w : World) (call : Call) : Logged Inheritance :=
  StyleAudit.gather w call.chain call.config call.base

/-- What follows a step is asked only for the result of the step. -/
theorem Logged.bind_congr {α β : Type} {first : Logged α} {next other : α → Logged β}
    (agree : ∀ a, first.outcome = .ok a → next a = other a) :
    first >>= next = first >>= other := by
  show Logged.bind first next = Logged.bind first other
  unfold Logged.bind
  cases outcome : first.outcome with
  | error failure => rfl
  | ok a => simp only [agree a outcome]

theorem gatherLevelAll_gather (w : World) (chain : List Location) (lookups : List Text)
    (base : Path) :
    gatherLevelAll w (Call.gather w) chain lookups base = gatherAll w chain lookups base := by
  induction lookups with
  | nil =>
      rw [gatherAll]
      rfl
  | cons lookup rest ih =>
      rw [gatherAll, gatherLevelAll, ih]
      refine Logged.bind_congr fun file _ => ?_
      by_cases seen : file.place ∈ chain
      · rw [if_pos (List.contains_iff_mem.2 seen), dif_pos seen]
      · rw [if_neg (mt List.contains_iff_mem.1 seen), dif_neg seen]
        rfl

/-- The gathering is a level above itself. -/
theorem gatherLevel_gather (w : World) : gatherLevel w (Call.gather w) = Call.gather w := by
  funext call
  rw [Call.gather, gather, gatherLevel]
  cases lookupsOf call.config with
  | error fault => rfl
  | ok lookups => simp only [gatherLevelAll_gather]

/-!
### What a level asks for
-/

theorem gatherLevelAll_congr {w : World} {below other : Call → Logged Inheritance} {call : Call}
    {lookups : List Text} (named : lookupsOf call.config = .ok lookups)
    (agree : ∀ next, call.Opens w next → below next = other next) :
    ∀ rest : List Text, rest ⊆ lookups →
      gatherLevelAll w below call.chain rest call.base
        = gatherLevelAll w other call.chain rest call.base := by
  intro rest listed
  induction rest with
  | nil => rfl
  | cons lookup rest ih =>
      obtain ⟨head, tail⟩ := List.cons_subset.1 listed
      rw [gatherLevelAll, gatherLevelAll, ih tail]
      refine Logged.bind_congr fun file located => ?_
      by_cases seen : call.chain.contains file.place
      · rw [if_pos seen, if_pos seen]
      · rw [if_neg seen, if_neg seen]
        refine Logged.bind_congr fun _ _ => Logged.bind_congr fun entries read => ?_
        have fresh : file.place ∉ call.chain := mt List.contains_iff_mem.2 seen
        have opened := Call.Opens.file named head (locate_ok_iff.1 located) fresh read
        rw [agree _ opened]

/-- A level asks those below it for nothing but the calls that it opens. -/
theorem gatherLevel_congr {w : World} {below other : Call → Logged Inheritance} {call : Call}
    (agree : ∀ next, call.Opens w next → below next = other next) :
    gatherLevel w below call = gatherLevel w other call := by
  rw [gatherLevel, gatherLevel]
  cases named : lookupsOf call.config with
  | error fault => rfl
  | ok lookups =>
      have same := gatherLevelAll_congr named agree lookups (List.Subset.refl lookups)
      simp only [same]

/-!
### Chains

Every call puts a file on the chain that is not on it yet.
-/

/-- A chain on which each file stands once. -/
def Call.IsFresh (w : World) (call : Call) : Prop :=
  call.chain.Nodup ∧ call.chain ⊆ w.tree.files

theorem Call.IsFresh.length_le {w : World} {call : Call} (fresh : call.IsFresh w) :
    call.chain.length ≤ w.tree.files.dedup.length := by
  have listed : call.chain ⊆ w.tree.files.dedup := fun place member =>
    List.mem_dedup.2 (fresh.2 member)
  exact (fresh.1.subperm listed).length_le

theorem Call.IsFresh.opens {w : World} {call next : Call} (fresh : call.IsFresh w)
    (opens : call.Opens w next) :
    next.IsFresh w ∧ next.chain.length = call.chain.length + 1 := by
  obtain ⟨_, _, _, unseen, _⟩ := opens
  rename_i file _ _ _ _ _
  refine ⟨⟨fresh.1.append (List.nodup_singleton _) ?_, ?_⟩, List.length_append⟩
  · simpa using unseen
  · exact List.append_subset.2 ⟨fresh.2, by simpa using file.isFile⟩

/-- A call that is opened below an empty chain has each file on its chain once. -/
theorem isFresh_of_opened {w : World} {config : Mapping} {base : Path} {call : Call}
    (opened : Relation.ReflTransGen (Call.Opens w) ⟨[], config, base⟩ call) :
    call.IsFresh w := by
  induction opened with
  | refl => exact ⟨List.nodup_nil, List.nil_subset _⟩
  | tail _ opens ih => exact (ih.opens opens).1

/-- Levels as many as files are left, and one more, come to the gathering, whatever is put in
the place of the levels below them. -/
theorem iterate_gatherLevel {w : World} (bottom : Call → Logged Inheritance) :
    ∀ (levels : Nat) (call : Call), call.IsFresh w →
      w.tree.files.dedup.length ≤ call.chain.length + levels →
        (gatherLevel w)^[levels + 1] bottom call = call.gather w := by
  intro levels
  induction levels with
  | zero =>
      intro call fresh enough
      rw [Function.iterate_one, ← gatherLevel_gather w]
      refine gatherLevel_congr fun next opens => ?_
      -- All files are on the chain, so no call can be opened.
      obtain ⟨freshNext, longer⟩ := fresh.opens opens
      have bound := freshNext.length_le
      omega
  | succ levels ih =>
      intro call fresh enough
      rw [Function.iterate_succ_apply', ← gatherLevel_gather w]
      refine gatherLevel_congr fun next opens => ?_
      obtain ⟨freshNext, longer⟩ := fresh.opens opens
      exact ih next freshNext (by omega)

/-- The resolution with so many levels of gathering, and `bottom` in the place of those below
them. -/
def resolveWithin (w : World) (levels : Nat) (bottom : Call → Logged Inheritance)
    (config : Mapping) (base : Path) : Logged Mapping := do
  let tree ← (gatherLevel w)^[levels] bottom ⟨[], config, base⟩
  return tree.apart.flatten

/-- A resolution needs no more levels below the top than there are files. -/
theorem resolveWithin_eq (w : World) (bottom : Call → Logged Inheritance) (config : Mapping)
    (base : Path) :
    resolveWithin w (w.tree.files.dedup.length + 1) bottom config base
      = resolveConfig w config base := by
  have fresh : Call.IsFresh w ⟨[], config, base⟩ := ⟨List.nodup_nil, List.nil_subset _⟩
  have enough := iterate_gatherLevel bottom w.tree.files.dedup.length ⟨[], config, base⟩ fresh
    (Nat.le_add_left _ _)
  rw [resolveWithin, enough]
  rfl

end StyleAudit
