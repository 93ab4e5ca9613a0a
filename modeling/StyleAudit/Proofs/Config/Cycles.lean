/-
Module: StyleAudit.Proofs.Config.Cycles
Purpose: Resolving a configuration ends, and fails for a circular chain exactly when a file
  that the configuration reaches extends itself.
Trusted boundary: none
Main exports: Settles, gather_settles, fresh_of_gather, resolveConfig_circular_iff
-/
import StyleAudit.Proofs.Config.Descent
import StyleAudit.Proofs.Config.ExtendsGraph
import Mathlib

namespace StyleAudit

/-!
### A cycle is all that can go wrong
-/

/-- An operation succeeds, or fails for a circular chain; the latter only under a condition. -/
def Settles {α : Type} (outcome : Except Failure α) (cycle : Prop) : Prop :=
  (∃ a, outcome = .ok a)
    ∨ ((∃ chain again, outcome = .error (.configuration (.circular chain again))) ∧ cycle)

theorem Settles.bind {α β : Type} {first : Except Failure α} {next : α → Except Failure β}
    {cycle : Prop} (start : Settles first cycle)
    (follow : ∀ a, first = .ok a → Settles (next a) cycle) : Settles (first.bind next) cycle := by
  rcases start with ⟨a, same⟩ | ⟨⟨chain, again, same⟩, cyclic⟩
  · rw [same]
    exact follow a same
  · exact Or.inr ⟨⟨chain, again, by rw [same]; rfl⟩, cyclic⟩

/-- Every file on the chain extends whatever the configuration extends. -/
def ChainLeads (w : World) (chain : List Location) (config : Mapping) (base : Path) : Prop :=
  ∀ place ∈ chain, ∀ next, Leads w config base next →
    Relation.TransGen (Extends w) place next

theorem ChainLeads.child {w : World} {chain : List Location} {config entries : Mapping}
    {base : Path} {file : w.tree.File} (above : ChainLeads w chain config base)
    (leads : Leads w config base file.place) (read : w.readConfig file.path = .ok entries) :
    ChainLeads w (chain ++ [file.place]) (anchorPlugins entries file.directory)
      file.directory := by
  intro place member next further
  have step : Extends w file.place next := extends_of_leads read further
  rcases List.mem_append.1 member with old | new
  · exact (above place old file.place leads).tail step
  · rw [List.mem_singleton.1 new]
    exact .single step

/-- The trees of linked lookups are gathered, unless a file on the chain lies on a cycle. -/
theorem gatherAll_settles {w : World} {chain : List Location} {base : Path} {cycle : Prop} :
    ∀ {lookups : List Text},
      (∀ lookup ∈ lookups, ∃ file, w.lookupFile lookup base = .ok (some file)
        ∧ (file.place ∈ chain → cycle)
        ∧ (file.place ∉ chain → ∃ entries, w.readConfig file.path = .ok entries
          ∧ Settles (gather w (chain ++ [file.place]) (anchorPlugins entries file.directory)
              file.directory).outcome cycle)) →
      Settles (gatherAll w chain lookups base).outcome cycle
  | [], _ => Or.inl ⟨[], outcome_gatherAll_nil w chain base⟩
  | lookup :: rest, each => by
      obtain ⟨⟨file, looked, seen, unseen⟩, others⟩ := List.forall_mem_cons.1 each
      rw [outcome_gatherAll_cons, locate_ok_iff.2 looked]
      show Settles (if file.place ∈ chain then _ else _) cycle
      by_cases member : file.place ∈ chain
      · rw [if_pos member]
        exact Or.inr ⟨⟨_, _, rfl⟩, seen member⟩
      · obtain ⟨entries, read, settles⟩ := unseen member
        rw [if_neg member, read]
        refine settles.bind fun parent _ => ?_
        refine (gatherAll_settles others).bind fun parents _ => ?_
        exact Or.inl ⟨parent :: parents, rfl⟩

/-- A configuration that is linked all the way down is gathered, unless it reaches a
cycle. -/
theorem gather_settles {w : World} (chain : List Location) {config : Mapping} {base : Path}
    (linked : WellLinked w config base) (above : ChainLeads w chain config base) :
    Settles (gather w chain config base).outcome (HasCycle w config base) := by
  obtain ⟨lookups, named⟩ := lookupsOf_ok_iff.2 linked.own.1
  rw [outcome_gather, named]
  refine (gatherAll_settles fun lookup member => ?_).bind fun parents _ => Or.inl ⟨_, rfl⟩
  have names := (mem_lookupsOf_iff named lookup).1 member
  obtain ⟨file, looked⟩ := linked.own.2 lookup names
  have leads : Leads w config base file.place := ⟨lookup, file, names, looked, rfl⟩
  have reaches : Reaches w config base file.place := ⟨file.place, leads, .refl⟩
  refine ⟨file, looked, fun seen => ?_, fun fresh => ?_⟩
  · exact ⟨file.place, reaches, above file.place seen file.place leads⟩
  · obtain ⟨entries, read, _⟩ := linked.reached file.place reaches
    refine ⟨entries, read, ?_⟩
    have smaller := filesLeft_lt file fresh
    rcases gather_settles (chain ++ [file.place]) (linked.child leads read)
        (above.child leads read) with settled | ⟨circular, place, inside, cycle⟩
    · exact Or.inl settled
    · exact Or.inr ⟨circular, place, reaches_of_reaches leads read inside, cycle⟩
termination_by filesLeft w chain

/-!
### A cycle always goes wrong

The chain holds the files above a configuration.  When the gathering succeeds, no file that
the configuration reaches stands on the chain, so a file cannot reach itself: it stands on
the chain of whatever it reaches.
-/

/-- The tree of each file that lookups name was gathered, if all were. -/
theorem gather_of_gatherAll {w : World} {chain : List Location} {base : Path} :
    ∀ {lookups : List Text} {trees : List Inheritance},
      (gatherAll w chain lookups base).outcome = .ok trees → ∀ lookup ∈ lookups,
        ∃ file entries tree, w.lookupFile lookup base = .ok (some file)
          ∧ file.place ∉ chain ∧ w.readConfig file.path = .ok entries
          ∧ (gather w (chain ++ [file.place]) (anchorPlugins entries file.directory)
              file.directory).outcome = .ok tree
  | [], _, _, _, member => by cases member
  | first :: rest, _, gathered, lookup, member => by
      obtain ⟨file, entries, parent, others, looked, fresh, read, inner, outer, _⟩ :=
        gatherAll_cons_ok_iff.1 gathered
      rcases List.mem_cons.1 member with same | behind
      · subst same
        exact ⟨file, entries, parent, looked, fresh, read, inner⟩
      · exact gather_of_gatherAll outer lookup behind

/-- What a gathered configuration reaches is not on the chain and on no cycle. -/
theorem fresh_of_gather {w : World} {chain : List Location} {config : Mapping} {base : Path}
    {tree : Inheritance} (gathered : (gather w chain config base).outcome = .ok tree)
    {place : Location} (reaches : Reaches w config base place) :
    place ∉ chain ∧ ¬ Relation.TransGen (Extends w) place place := by
  obtain ⟨lookups, parents, named, inner, _⟩ := gather_ok_iff.1 gathered
  obtain ⟨first, ⟨lookup, file, names, looked, rfl⟩, walk⟩ := reaches
  obtain ⟨other, entries, parent, lookedAgain, fresh, read, below⟩ :=
    gather_of_gatherAll inner lookup ((mem_lookupsOf_iff named lookup).2 names)
  have same : other = file := by
    rw [looked, Except.ok.injEq, Option.some.injEq] at lookedAgain
    exact lookedAgain.symm
  subst same
  have smaller := filesLeft_lt other fresh
  have further : ∀ {next}, Relation.TransGen (Extends w) other.place next →
      next ∉ chain ++ [other.place] ∧ ¬ Relation.TransGen (Extends w) next next :=
    fun onward => fresh_of_gather below (reaches_of_transGen read onward)
  rcases Relation.reflTransGen_iff_eq_or_transGen.1 walk with rfl | onward
  · refine ⟨fresh, fun cycle => ?_⟩
    exact (further cycle).1 (List.mem_append_right chain (List.mem_singleton.2 rfl))
  · obtain ⟨notBelow, notCyclic⟩ := further onward
    exact ⟨fun member => notBelow (List.mem_append_left _ member), notCyclic⟩
termination_by filesLeft w chain

/-!
### The resolution
-/

/-- The resolution ends: it opens no more levels below the top than there are files, since no
file stands twice on a chain.  As long as all that a configuration reaches can be read and
linked, it fails, and then for a circular chain, exactly when one of the files that it
reaches extends itself, directly or through others. -/
theorem resolveConfig_circular_iff (w : World) (config : Mapping) (base : Path) :
    (∀ bottom, resolveWithin w (w.tree.files.dedup.length + 1) bottom config base
        = resolveConfig w config base)
      ∧ (∀ call, Relation.ReflTransGen (Call.Opens w) ⟨[], config, base⟩ call →
          call.chain.Nodup ∧ call.chain.length ≤ w.tree.files.dedup.length)
      ∧ (WellLinked w config base →
          ((∃ chain again, (resolveConfig w config base).outcome
              = .error (.configuration (.circular chain again))) ↔ HasCycle w config base)
            ∧ (¬ HasCycle w config base →
              ∃ result, (resolveConfig w config base).outcome = .ok result)) := by
  refine ⟨fun bottom => resolveWithin_eq w bottom config base, fun call opened => ?_,
    fun linked => ?_⟩
  · have fresh := isFresh_of_opened opened
    exact ⟨fresh.1, fresh.length_le⟩
  have outcome : (resolveConfig w config base).outcome
      = (gather w [] config base).outcome.bind fun tree => .ok tree.apart.flatten := by
    rw [resolveConfig, Logged.outcome_bind]
    rfl
  have above : ChainLeads w [] config base := by
    intro place member
    cases member
  rw [outcome]
  rcases gather_settles [] linked above with ⟨tree, gathered⟩ | ⟨⟨chain, again, failed⟩, cycle⟩
  · have acyclic : ¬ HasCycle w config base := by
      rintro ⟨_, reaches, cycle⟩
      exact (fresh_of_gather gathered reaches).2 cycle
    rw [gathered]
    refine ⟨⟨?_, fun cycle => (acyclic cycle).elim⟩, fun _ => ⟨_, rfl⟩⟩
    rintro ⟨_, _, wrong⟩
    cases wrong
  · rw [failed]
    exact ⟨⟨fun _ => cycle, fun _ => ⟨chain, again, rfl⟩⟩, fun acyclic => (acyclic cycle).elim⟩

/-!
Two files that extend a third one make no cycle.  A file that extends itself by the name of a
link does.
-/

def leftEntries : Mapping := [(.str "extends", .str "./base.py")]

def rightEntries : Mapping := [(.str "extends", .str "./base")]

def loopEntries : Mapping := [(.str "extends", .seq [.str "./base.py", .str "./again.py"])]

/-- The files, and the link. -/
def meetingFiles : World where
  tree := ⟨[
    (["left.py"], .module (.exporting (some (.map leftEntries)) .absent)),
    (["right.py"], .module (.exporting (some (.map rightEntries)) .absent)),
    (["base.py"], .module (.exporting (some (.map [])) .absent)),
    (["loop.py"], .module (.exporting (some (.map loopEntries)) .absent)),
    (["again.py"], .link ⟨.relative, ["loop.py"]⟩)]⟩
  workingDirectory := []
  searchPath := []

/-- A configuration that reaches one file on two ways. -/
def meetingConfig : Mapping := [(.str "extends", .seq [.str "./left.py", .str "./right.py"])]

/-- A configuration that reaches the file on a cycle. -/
def loopConfig : Mapping := [(.str "extends", .str "./loop.py")]

theorem meetingFiles_closed {config : Mapping}
    (own : LinkedWithin meetingFiles [["left.py"], ["right.py"], ["base.py"], ["loop.py"]] config
      ⟨.root, []⟩) :
    WellLinked meetingFiles config ⟨.root, []⟩ := by
  let base : meetingFiles.tree.File := ⟨["base.py"], by decide⟩
  let loop : meetingFiles.tree.File := ⟨["loop.py"], by decide⟩
  have baseLooked : meetingFiles.lookupFile "./base.py" ⟨.root, []⟩ = .ok (some base) := rfl
  have nameLooked : meetingFiles.lookupFile "./base" ⟨.root, []⟩ = .ok (some base) := by cbv
  have linkLooked : meetingFiles.lookupFile "./again.py" ⟨.root, []⟩ = .ok (some loop) := rfl
  apply wellLinked_of_closed own
  simp only [List.forall_mem_cons]
  refine ⟨⟨leftEntries, rfl, ["./base.py"], rfl, ?_⟩,
    ⟨rightEntries, rfl, ["./base"], rfl, ?_⟩, ⟨[], rfl, [], rfl, ?_⟩,
    ⟨loopEntries, rfl, ["./base.py", "./again.py"], rfl, ?_⟩, ?_⟩
  · simpa using ⟨base, baseLooked, by decide⟩
  · simpa using ⟨base, nameLooked, by decide⟩
  · simp
  · simpa using ⟨⟨base, baseLooked, by decide⟩, ⟨loop, linkLooked, by decide⟩⟩
  · simp

theorem resolveConfig_circular_iff_meeting :
    (WellLinked meetingFiles meetingConfig ⟨.root, []⟩
        ∧ ¬ HasCycle meetingFiles meetingConfig ⟨.root, []⟩)
      ∧ WellLinked meetingFiles loopConfig ⟨.root, []⟩
      ∧ ∃ chain again, (resolveConfig meetingFiles loopConfig ⟨.root, []⟩).outcome
          = .error (.configuration (.circular chain again)) := by
  let left : meetingFiles.tree.File := ⟨["left.py"], by decide⟩
  let right : meetingFiles.tree.File := ⟨["right.py"], by decide⟩
  let loop : meetingFiles.tree.File := ⟨["loop.py"], by decide⟩
  have leftLooked : meetingFiles.lookupFile "./left.py" ⟨.root, []⟩ = .ok (some left) := rfl
  have rightLooked : meetingFiles.lookupFile "./right.py" ⟨.root, []⟩ = .ok (some right) := rfl
  have loopLooked : meetingFiles.lookupFile "./loop.py" ⟨.root, []⟩ = .ok (some loop) := rfl
  have linkLooked : meetingFiles.lookupFile "./again.py" ⟨.root, []⟩ = .ok (some loop) := rfl
  have meeting : WellLinked meetingFiles meetingConfig ⟨.root, []⟩ := by
    apply meetingFiles_closed
    refine ⟨["./left.py", "./right.py"], rfl, ?_⟩
    simpa using ⟨⟨left, leftLooked, by decide⟩, ⟨right, rightLooked, by decide⟩⟩
  have looping : WellLinked meetingFiles loopConfig ⟨.root, []⟩ := by
    apply meetingFiles_closed
    refine ⟨["./loop.py"], rfl, ?_⟩
    simpa using ⟨loop, loopLooked, by decide⟩
  refine ⟨⟨meeting, fun cycle => ?_⟩, looping, ?_⟩
  · obtain ⟨_, _, failed⟩ :=
      ((resolveConfig_circular_iff meetingFiles meetingConfig ⟨.root, []⟩).2.2 meeting).1.2 cycle
    have resolved : (resolveWithin meetingFiles (meetingFiles.tree.files.dedup.length + 1)
        (fun _ => Logged.fail .unusable) meetingConfig ⟨.root, []⟩).outcome.toOption.isSome := by
      decide +kernel
    rw [resolveWithin_eq, failed] at resolved
    cases resolved
  · have names : loopConfig.Names "./loop.py" := ⟨.str "./loop.py", rfl, rfl, Or.inl rfl⟩
    have again : loopEntries.Names "./again.py" :=
      ⟨.seq [.str "./base.py", .str "./again.py"], rfl, rfl, Or.inr ⟨_, rfl, by simp⟩⟩
    have leads : Leads meetingFiles loopConfig ⟨.root, []⟩ ["loop.py"] :=
      ⟨_, loop, names, loopLooked, rfl⟩
    have step : Extends meetingFiles ["loop.py"] ["loop.py"] :=
      ⟨loopEntries, rfl, _, loop, again, linkLooked, rfl⟩
    exact ((resolveConfig_circular_iff meetingFiles loopConfig ⟨.root, []⟩).2.2 looping).1.2
      ⟨["loop.py"], ⟨["loop.py"], leads, .refl⟩, .single step⟩

/-!
A file can also be read and still be of no use: a list in it that holds itself has no end.
That is no cycle of files, and the resolution fails all the same.
-/

/-- A file whose list holds itself. -/
def endlessFiles : World where
  tree := ⟨[(["a.yaml"], .file "b: &x [*x]\n".toUTF8)]⟩
  workingDirectory := []
  searchPath := []

/-- A configuration that extends the file. -/
def endlessConfig : Mapping := [(.str "extends", .str "./a.yaml"), (.str "b", .int 1)]

/-- All that the configuration reaches holds a mapping, which extends nothing; yet the
resolution neither succeeds nor finds a circular chain. -/
theorem resolveConfig_of_endless :
    (∃ lookups, lookupsOf endlessConfig = .ok lookups ∧ ∀ lookup ∈ lookups, ∃ file loaded,
        endlessFiles.lookupFile lookup ⟨.root, []⟩ = .ok (some file)
          ∧ endlessFiles.readEntries file.path = .ok loaded ∧ lookupsOf loaded.entries = .ok [])
      ∧ ¬ HasCycle endlessFiles endlessConfig ⟨.root, []⟩
      ∧ ¬ ((∃ chain again, (resolveConfig endlessFiles endlessConfig ⟨.root, []⟩).outcome
              = .error (.configuration (.circular chain again)))
            ∨ ∃ result, (resolveConfig endlessFiles endlessConfig ⟨.root, []⟩).outcome
              = .ok result) := by
  let file : endlessFiles.tree.File := ⟨["a.yaml"], by decide⟩
  have named : lookupsOf endlessConfig = .ok ["./a.yaml"] := rfl
  have looked : endlessFiles.lookupFile "./a.yaml" ⟨.root, []⟩ = .ok (some file) := rfl
  have holding : (endlessFiles.readEntries file.path).toOption.map
      (fun loaded => (loaded.isEndless, (loaded.entries.find? extendsKey).isNone))
        = some (true, true) := by decide +kernel
  obtain ⟨loaded, held, endless, bare⟩ : ∃ loaded, endlessFiles.readEntries file.path = .ok loaded
      ∧ loaded.isEndless = true ∧ lookupsOf loaded.entries = .ok [] := by
    cases entries : endlessFiles.readEntries file.path with
    | error failure =>
        rw [entries] at holding
        cases holding
    | ok loaded =>
        rw [entries] at holding
        obtain ⟨endless, bare⟩ := Prod.mk.inj (Option.some.inj holding)
        exact ⟨loaded, rfl, endless, by simp [lookupsOf, Option.isNone_iff_eq_none.1 bare]⟩
  have read : endlessFiles.readConfig file.path = .error .unusable := by
    rw [World.readConfig, held]
    show (if loaded.isEndless then _ else _) = _
    rw [if_pos endless, endlessFailure, bare]
  have outcome : (resolveConfig endlessFiles endlessConfig ⟨.root, []⟩).outcome
      = .error .unusable := by
    rw [resolveConfig, Logged.outcome_bind, outcome_gather, named]
    simp only [outcome_gatherAll_cons, locate_ok_iff.2 looked, Except.bind, List.not_mem_nil,
      if_false, read]
  refine ⟨⟨["./a.yaml"], named, ?_⟩, ?_, ?_⟩
  · simpa using ⟨file, looked, loaded, held, bare⟩
  · rintro ⟨place, ⟨first, leads, walk⟩, cycle⟩
    have stays : ∀ next, ¬ Extends endlessFiles ["a.yaml"] next := by
      rintro next ⟨entries, readAgain, _⟩
      cases read.symm.trans readAgain
    have within : LinkedWithin endlessFiles [["a.yaml"]] endlessConfig ⟨.root, []⟩ :=
      ⟨_, named, by simpa using ⟨file, looked, by decide⟩⟩
    have start : first = ["a.yaml"] := List.mem_singleton.1 (within.mem_of_leads leads)
    subst start
    have onward := Relation.TransGen.trans_right walk cycle
    obtain ⟨next, step, _⟩ := Relation.TransGen.head'_iff.1 onward
    exact stays next step
  · rw [outcome]
    rintro (⟨_, _, circular⟩ | ⟨_, resolved⟩)
    · cases circular
    · cases resolved

end StyleAudit
