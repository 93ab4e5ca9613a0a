/-
Module: StyleAudit.Proofs.Config.Gathering
Purpose: What one step of gathering an inheritance tree comes to, with the records that it
  logs left out, and what a gathering that succeeded has read.
Trusted boundary: none
Main exports: outcome_locate, outcome_gather, outcome_gatherAll_cons, gather_ok_iff,
  gatherAll_cons_ok_iff, resolveConfig_of_lookups_absent
-/
import StyleAudit.Config.Inheritance

namespace StyleAudit

/-!
### Outcomes

Every later proof about gathering goes through these equations, so none of them opens the
definitions again.
-/

/-- Two steps succeed exactly when both do. -/
theorem bind_eq_ok_iff {ε α β : Type} {first : Except ε α} {next : α → Except ε β} {b : β} :
    first.bind next = .ok b ↔ ∃ a, first = .ok a ∧ next a = .ok b := by
  cases first <;> simp [Except.bind]

/-- Two steps fail exactly when the first does, or the second behind it. -/
theorem bind_eq_error_iff {ε α β : Type} {first : Except ε α} {next : α → Except ε β} {e : ε} :
    first.bind next = .error e ↔
      first = .error e ∨ ∃ a, first = .ok a ∧ next a = .error e := by
  cases first <;> simp [Except.bind]

@[simp] theorem outcome_note (r : LogRecord) : (Logged.note r).outcome = .ok () := rfl

@[simp] theorem outcome_refuse {α : Type} (fault : ConfigFault) :
    (Logged.refuse fault : Logged α).outcome = .error (.ofFault fault) := rfl

@[simp] theorem outcome_ofExcept {α : Type} (outcome : Except Failure α) :
    (Logged.ofExcept outcome).outcome = outcome := rfl

/-- A lookup comes to the file that it names, or to a fault that tells the lookup. -/
theorem outcome_locate (w : World) (lookup : Text) (base : Path) :
    (w.locate lookup base).outcome =
      (w.lookupFile lookup base).bind fun found =>
        match found with
        | none => .error (.ofFault (.notFound lookup))
        | some file => .ok file := by
  unfold World.locate
  rw [Logged.outcome_bind, outcome_ofExcept]
  congr 1
  funext found
  cases found with
  | none => rfl
  | some file => rfl

theorem outcome_gather (w : World) (chain : List Location) (config : Mapping) (base : Path) :
    (gather w chain config base).outcome =
      match lookupsOf config with
      | .error fault => .error (.ofFault fault)
      | .ok lookups => (gatherAll w chain lookups base).outcome.bind fun parents =>
          .ok (.layer (config.without extendsKey) parents) := by
  rw [gather]
  cases lookupsOf config with
  | error fault => rfl
  | ok lookups => exact Logged.outcome_bind _ _

@[simp] theorem outcome_gatherAll_nil (w : World) (chain : List Location) (base : Path) :
    (gatherAll w chain [] base).outcome = .ok [] := by
  rw [gatherAll]
  rfl

theorem outcome_gatherAll_cons (w : World) (chain : List Location) (lookup : Text)
    (rest : List Text) (base : Path) :
    (gatherAll w chain (lookup :: rest) base).outcome =
      (w.locate lookup base).outcome.bind fun file =>
        if file.place ∈ chain then
          .error (.ofFault (.circular (chain.map fun place => ⟨.root, place⟩) file.path))
        else
          (w.readConfig file.path).bind fun entries =>
            (gather w (chain ++ [file.place]) (anchorPlugins entries file.directory)
              file.directory).outcome.bind fun parent =>
                (gatherAll w chain rest base).outcome.bind fun parents =>
                  .ok (parent :: parents) := by
  rw [gatherAll, Logged.outcome_bind]
  congr 1
  funext file
  by_cases seen : file.place ∈ chain
  · simp [seen]
  · simp only [seen, dite_false, if_false, Logged.outcome_bind, outcome_note, outcome_ofExcept]
    rfl

/-!
### What success says
-/

/-- A lookup is located at a file exactly when it names the file. -/
theorem locate_ok_iff {w : World} {lookup : Text} {base : Path} {file : w.tree.File} :
    (w.locate lookup base).outcome = .ok file ↔ w.lookupFile lookup base = .ok (some file) := by
  rw [outcome_locate, bind_eq_ok_iff]
  constructor
  · rintro ⟨found, looked, located⟩
    cases found with
    | none => cases located
    | some other =>
        cases located
        exact looked
  · intro looked
    exact ⟨some file, looked, rfl⟩

/-- A configuration is gathered when its lookups can be read off and all their trees are
gathered. -/
theorem gather_ok_iff {w : World} {chain : List Location} {config : Mapping} {base : Path}
    {tree : Inheritance} :
    (gather w chain config base).outcome = .ok tree ↔
      ∃ lookups parents, lookupsOf config = .ok lookups
        ∧ (gatherAll w chain lookups base).outcome = .ok parents
        ∧ tree = .layer (config.without extendsKey) parents := by
  rw [outcome_gather]
  cases lookupsOf config with
  | error fault => simp
  | ok lookups =>
      simp only [bind_eq_ok_iff, Except.ok.injEq]
      constructor
      · rintro ⟨parents, gathered, same⟩
        exact ⟨lookups, parents, rfl, gathered, same.symm⟩
      · rintro ⟨_, parents, rfl, gathered, same⟩
        exact ⟨parents, gathered, same.symm⟩

/-- A list of lookups is gathered when the first names a file that is not on the chain and
whose tree is gathered, and the others are gathered too. -/
theorem gatherAll_cons_ok_iff {w : World} {chain : List Location} {lookup : Text}
    {rest : List Text} {base : Path} {trees : List Inheritance} :
    (gatherAll w chain (lookup :: rest) base).outcome = .ok trees ↔
      ∃ file entries parent others, w.lookupFile lookup base = .ok (some file)
        ∧ file.place ∉ chain
        ∧ w.readConfig file.path = .ok entries
        ∧ (gather w (chain ++ [file.place]) (anchorPlugins entries file.directory)
            file.directory).outcome = .ok parent
        ∧ (gatherAll w chain rest base).outcome = .ok others
        ∧ trees = parent :: others := by
  rw [outcome_gatherAll_cons]
  simp only [bind_eq_ok_iff, locate_ok_iff]
  constructor
  · rintro ⟨file, looked, gathered⟩
    by_cases seen : file.place ∈ chain
    · simp [seen] at gathered
    · simp only [seen, if_false, bind_eq_ok_iff] at gathered
      obtain ⟨entries, read, parent, inner, others, outer, same⟩ := gathered
      exact ⟨file, entries, parent, others, looked, seen, read, inner, outer,
        (Except.ok.inj same).symm⟩
  · rintro ⟨file, entries, parent, others, looked, fresh, read, inner, outer, rfl⟩
    refine ⟨file, looked, ?_⟩
    simp only [fresh, if_false, bind_eq_ok_iff]
    exact ⟨entries, read, parent, inner, others, outer, rfl⟩

/-!
### Configurations that name no other
-/

theorem without_of_absent {m : Mapping} {name : Text} (absent : m.find? name = none) :
    m.without name = m := by
  induction m with
  | nil => rfl
  | cons entry rest ih =>
      obtain ⟨key, v⟩ := entry
      rw [Mapping.find?, Table.get?_cons] at absent
      split at absent
      · cases absent
      · rename_i other
        rw [Mapping.without, Table.erase, if_neg other]
        exact congrArg (List.cons _) (ih absent)

/-- A configuration without a list of lookups comes to itself wherever it is resolved, and
nothing is looked up. -/
theorem resolveConfig_of_lookups_absent {config : Mapping}
    (absent : config.find? extendsKey = none) (w : World) (base : Path) :
    resolveConfig w config base = pure config := by
  have named : lookupsOf config = .ok [] := by
    rw [lookupsOf, absent]
  have gathered : gather w [] config base = pure (.layer config []) := by
    rw [gather, named]
    simp only [gatherAll]
    rw [without_of_absent absent]
    rfl
  rw [resolveConfig, gathered]
  rfl

end StyleAudit
