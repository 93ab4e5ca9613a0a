/-
Module: StyleAudit.Proofs.Lint.WorkingDirectory
Purpose: What a lookup names, what a configuration comes to and how a run ends do not depend on the
  working directory, as long as everything starts from absolute directories.
Trusted boundary: none
Main exports: World.SearchesAbsolutely, lookupFile_movedTo, resolveConfig_movedTo, FixesBase,
  prepare_movedTo, lint_movedTo
-/
import StyleAudit.Proofs.Config.Descent
import StyleAudit.Proofs.FileSystem.Following
import StyleAudit.Proofs.FileSystem.Search
import StyleAudit.Proofs.Lint.BaseDirectory

namespace StyleAudit

/-!
### Lookups

From an absolute directory a lookup leads to absolute candidates only, and the search path is
asked of absolute directories.
-/

section Candidates

variable {w : World} {directory : Location} {p : Path}

theorem isAbsolute_child (absolute : p.isAbsolute = true) (name : Text) :
    (p.child name).isAbsolute = true := absolute

theorem isAbsolute_of_addSuffix? (absolute : p.isAbsolute = true) {suffix : Text} {q : Path}
    (added : p.addSuffix? suffix = some q) : q.isAbsolute = true := by
  obtain ⟨last, _, rfl⟩ := Option.map_eq_some_iff.1 added
  exact absolute

theorem candidateFile_movedTo (absolute : p.isAbsolute = true) :
    (w.movedTo directory).candidateFile p = w.candidateFile p := by
  unfold World.candidateFile
  rw [reach_movedTo absolute]
  rfl

theorem firstFile_movedTo {candidates : List Path}
    (absolute : ∀ candidate ∈ candidates, candidate.isAbsolute = true) :
    (w.movedTo directory).firstFile candidates = w.firstFile candidates := by
  induction candidates with
  | nil => rfl
  | cons candidate rest ih =>
      obtain ⟨first, others⟩ := List.forall_mem_cons.1 absolute
      rw [World.firstFile, World.firstFile, candidateFile_movedTo first, ih others]
      cases w.candidateFile candidate with
      | error failure => rfl
      | ok found => cases found <;> rfl

theorem matchFile_movedTo (absolute : p.isAbsolute = true) :
    (w.movedTo directory).matchFile p = w.matchFile p := by
  have tried : ∀ candidate ∈ configSuffixes.filterMap p.addSuffix?
      ++ [p.child (initialModule ++ sourceSuffix)], candidate.isAbsolute = true := by
    intro candidate member
    rw [List.mem_append, List.mem_filterMap, List.mem_singleton] at member
    obtain ⟨suffix, _, added⟩ | rfl := member
    · exact isAbsolute_of_addSuffix? absolute added
    · exact absolute
  rw [World.matchFile, World.matchFile, candidateFile_movedTo absolute, firstFile_movedTo tried]
  cases w.candidateFile p with
  | error failure => rfl
  | ok found => cases found <;> rfl

end Candidates

/-- Where a module was found, there are absolute directories only. -/
def World.Found.IsAbsolute {t : FileTree} : World.Found t → Prop
  | .module _ => True
  | .package _ directory => directory.isAbsolute = true
  | .directories paths => ∀ p ∈ paths, p.isAbsolute = true

section Modules

variable {w : World} {directory : Location}

theorem moduleIn?_movedTo {p : Path} (absolute : p.isAbsolute = true) (name : Text) :
    (w.movedTo directory).moduleIn? name p = w.moduleIn? name p := by
  unfold World.moduleIn?
  congr 1
  funext suffix
  exact fileAt?_movedTo absolute

theorem findIn?_movedTo {p : Path} (absolute : p.isAbsolute = true) (name : Text) :
    (w.movedTo directory).findIn? name p = w.findIn? name p := by
  have inside := isAbsolute_child absolute name
  simp only [World.findIn?]
  rw [moduleIn?_movedTo absolute, moduleIn?_movedTo inside, isDirectory_movedTo inside]
  cases World.canBeListed name with
  | false => rfl
  | true =>
      cases name.isEmpty with
      | true => cases w.moduleIn? name p <;> rfl
      | false =>
          cases w.moduleIn? initialModule (p.child name) with
          | some file => rfl
          | none =>
              cases w.moduleIn? name p with
              | some file => rfl
              | none => cases w.isDirectory (p.child name) <;> rfl

theorem findAmong?_movedTo {name : Text} {directories : List Path}
    (absolute : ∀ p ∈ directories, p.isAbsolute = true) :
    (w.movedTo directory).findAmong? name directories = w.findAmong? name directories := by
  induction directories with
  | nil => rfl
  | cons p rest ih =>
      obtain ⟨first, others⟩ := List.forall_mem_cons.1 absolute
      rw [World.findAmong?, World.findAmong?, findIn?_movedTo first, ih others]
      cases w.findIn? name p with
      | none => rfl
      | some found =>
          cases w.findAmong? name rest with
          | none => cases found <;> rfl
          | some other => cases found <;> cases other <;> rfl

theorem isAbsolute_of_findAmong? {name : Text} {directories : List Path}
    (absolute : ∀ p ∈ directories, p.isAbsolute = true) {found : World.Found w.tree}
    (looked : w.findAmong? name directories = some found) : found.IsAbsolute := by
  apply findAmong?_of_each _ _ looked
  · intro p member here inDirectory
    have inside := isAbsolute_child (absolute p member) name
    rcases findIn?_cases inDirectory with ⟨_, _, rfl⟩ | ⟨_, _, rfl⟩ | rfl
    · exact inside
    · trivial
    · exact List.forall_mem_singleton.2 inside
  · intro paths more absolutePaths absoluteMore
    exact List.forall_mem_append.2 ⟨absolutePaths, absoluteMore⟩

theorem searchNames_movedTo {names : List Text} {directories : List Path}
    (absolute : ∀ p ∈ directories, p.isAbsolute = true) :
    (w.movedTo directory).searchNames names directories = w.searchNames names directories := by
  induction names generalizing directories with
  | nil => rfl
  | cons name rest ih =>
      cases rest with
      | nil =>
          rw [World.searchNames, World.searchNames, findAmong?_movedTo absolute]
          cases w.findAmong? name directories with
          | none => rfl
          | some found => cases found <;> rfl
      | cons second others =>
          simp only [World.searchNames]
          rw [findAmong?_movedTo absolute]
          cases looked : w.findAmong? name directories with
          | none => rfl
          | some found =>
              have foundAbsolute := isAbsolute_of_findAmong? absolute looked
              cases found with
              | module file => rfl
              | package file inside =>
                  have inner := ih (List.forall_mem_singleton.2 foundAbsolute)
                  simp only [inner]
                  rfl
              | directories paths => exact ih foundAbsolute

end Modules

/-- All directories of the search path are absolute. -/
def World.SearchesAbsolutely (w : World) : Prop :=
  ∀ p ∈ w.searchPath, p.isAbsolute = true

section Lookups

variable {w : World} {directory : Location} (search : w.SearchesAbsolutely)
include search

theorem searchModule_movedTo (name : Text) :
    (w.movedTo directory).searchModule name = w.searchModule name := by
  have same : w.searchPath.filter (w.movedTo directory).isDirectory
      = w.searchPath.filter w.isDirectory :=
    List.filter_congr fun p member => isDirectory_movedTo (search p member)
  have kept : ∀ p ∈ w.searchPath.filter w.isDirectory, p.isAbsolute = true :=
    fun p member => search p (List.mem_of_mem_filter member)
  rw [World.searchModule, World.searchModule]
  show (if _ then _ else (w.movedTo directory).searchNames _
    (w.searchPath.filter (w.movedTo directory).isDirectory)) = _
  rw [same, searchNames_movedTo kept]

/-- A lookup names the same file from an absolute directory. -/
theorem lookupFile_movedTo (lookup : Text) {base : Path} (absolute : base.isAbsolute = true) :
    (w.movedTo directory).lookupFile lookup base = w.lookupFile lookup base := by
  rw [World.lookupFile, World.lookupFile,
    matchFile_movedTo (isAbsolute_join absolute (Path.ofText lookup)),
    matchFile_movedTo (isAbsolute_join absolute (modulePath lookup)), searchModule_movedTo search]
  cases isPathLookup lookup with
  | true => rfl
  | false =>
      cases w.matchFile (base.join (modulePath lookup)) with
      | error failure => rfl
      | ok found => cases found <;> rfl

theorem locate_movedTo (lookup : Text) {base : Path} (absolute : base.isAbsolute = true) :
    (w.movedTo directory).locate lookup base = w.locate lookup base := by
  rw [World.locate, World.locate, lookupFile_movedTo search lookup absolute]
  cases w.lookupFile lookup base with
  | error failure => rfl
  | ok found => cases found <;> rfl

end Lookups

/-!
### Configurations

Every file stands at an absolute path, so from the second level on everything is seen from an
absolute directory.
-/

section Files

variable {w : World} {directory : Location}

theorem readValue_movedTo {p : Path} (absolute : p.isAbsolute = true) :
    (w.movedTo directory).readValue p = w.readValue p := by
  rw [World.readValue, World.readValue, fileAt?_movedTo absolute]
  cases w.fileAt? p with
  | none => rfl
  | some file => cases FileFormat.ofPath p <;> rfl

theorem readEntries_movedTo {p : Path} (absolute : p.isAbsolute = true) :
    (w.movedTo directory).readEntries p = w.readEntries p := by
  rw [World.readEntries, World.readEntries, readValue_movedTo absolute]

theorem readConfig_movedTo {p : Path} (absolute : p.isAbsolute = true) :
    (w.movedTo directory).readConfig p = w.readConfig p := by
  rw [World.readConfig, World.readConfig, readEntries_movedTo absolute]

theorem readConfigFile_movedTo {p : Path} (absolute : p.isAbsolute = true) :
    (w.movedTo directory).readConfigFile p = w.readConfigFile p := by
  rw [World.readConfigFile, World.readConfigFile, absolute_movedTo absolute]
  cases made : w.absolute p with
  | error failure => rfl
  | ok resolved =>
      have resolvedAbsolute := isAbsolute_of_absolute made
      simp only [bind, Except.bind, readEntries_movedTo resolvedAbsolute]

end Files

section Gathering

variable {w : World} {directory : Location} (search : w.SearchesAbsolutely)
include search

/-- A level of gathering below an absolute directory does the same, when the levels below it
do. -/
theorem gatherLevel_movedTo {below other : Call → Logged Inheritance}
    (agree : ∀ call : Call, call.base.isAbsolute = true → other call = below call) (call : Call)
    (absolute : call.base.isAbsolute = true) :
    gatherLevel (w.movedTo directory) other call = gatherLevel w below call := by
  have all : ∀ lookups : List Text,
      gatherLevelAll (w.movedTo directory) other call.chain lookups call.base
        = gatherLevelAll w below call.chain lookups call.base := by
    intro lookups
    induction lookups with
    | nil => rfl
    | cons lookup rest ih =>
        rw [gatherLevelAll, gatherLevelAll, ih, locate_movedTo search lookup absolute]
        refine Logged.bind_congr fun file _ => ?_
        by_cases seen : call.chain.contains file.place
        · rw [if_pos seen, if_pos seen]
        · rw [if_neg seen, if_neg seen, readConfig_movedTo rfl]
          refine Logged.bind_congr fun _ _ => Logged.bind_congr fun entries _ => ?_
          rw [agree _ rfl]
  rw [gatherLevel, gatherLevel]
  cases lookupsOf call.config with
  | error fault => rfl
  | ok lookups => simp only [all]

theorem iterate_gatherLevel_movedTo (bottom : Call → Logged Inheritance) (levels : Nat)
    (call : Call) (absolute : call.base.isAbsolute = true) :
    (gatherLevel (w.movedTo directory))^[levels] bottom call
      = (gatherLevel w)^[levels] bottom call := by
  induction levels generalizing call with
  | zero => rfl
  | succ levels ih =>
      rw [Function.iterate_succ_apply', Function.iterate_succ_apply']
      exact gatherLevel_movedTo search ih call absolute

/-- A configuration comes to the same from an absolute directory. -/
theorem resolveConfig_movedTo (config : Mapping) {base : Path}
    (absolute : base.isAbsolute = true) :
    resolveConfig (w.movedTo directory) config base = resolveConfig w config base := by
  have bottom : Call → Logged Inheritance := fun _ => Logged.fail .unusable
  rw [← resolveWithin_eq _ bottom, ← resolveWithin_eq _ bottom, resolveWithin, resolveWithin,
    iterate_gatherLevel_movedTo search bottom _ _ absolute]

theorem loadPlugins_movedTo {base : Path} (absolute : base.isAbsolute = true)
    (plugins : List (Key × Text)) (registry : Registry) :
    loadPlugins (w.movedTo directory) base plugins registry
      = loadPlugins w base plugins registry := by
  have each (lookup : Text) :
      loadPlugin (w.movedTo directory) lookup base = loadPlugin w lookup base := by
    rw [loadPlugin, loadPlugin, locate_movedTo search lookup absolute]
    rfl
  induction plugins generalizing registry with
  | nil => rfl
  | cons plugin rest ih =>
      rw [loadPlugins, loadPlugins, each]
      simp only [ih]

end Gathering

/-!
### Runs

The working directory is where lookups start when nothing else says so.  A configuration that
names an absolute directory leaves it no say.
-/

/-- The mapping names an absolute base directory. -/
def StartsAbsolutely (data : Mapping) : Prop :=
  ∃ t : Text, data.find? basedirKey = some (.str t) ∧ (Path.ofText t).isAbsolute = true

/-- The options start the lookups of their run from one absolute directory, whatever the world of
the run is. -/
def FixesBase (options : Mapping) : Prop :=
  ∃ (config : Mapping) (base : Path), configOf options = .map config
    ∧ base.isAbsolute = true ∧ ∀ w, baseDirectory w options config = .ok base

section Runs

variable {w : World} {directory : Location}

theorem StartsAbsolutely.givesDirectory {data : Mapping} (starts : StartsAbsolutely data) :
    ∃ base : Path, GivesDirectory data (some base) ∧ base.isAbsolute = true := by
  obtain ⟨t, held, absolute⟩ := starts
  refine ⟨Path.ofText t, .text held ?_, absolute⟩
  rintro rfl
  cases absolute

variable {options : Mapping}

theorem prepare_movedTo (search : w.SearchesAbsolutely) (fixes : FixesBase options) :
    prepare (w.movedTo directory) (.map options) = prepare w (.map options) := by
  obtain ⟨config, base, held, absolute, starts⟩ := fixes
  simp only [prepare, held, starts]
  show Logged.bind _ _ = Logged.bind _ _
  simp only [Logged.bind, Logged.ofExcept, resolveConfig_movedTo search config absolute]

/-- A run under options that fix its base directory is the same from every working directory. -/
theorem lint_movedTo (search : w.SearchesAbsolutely) (fixes : FixesBase options) (d : Document)
    (registry : Registry) :
    lint (w.movedTo directory) d (.map options) registry = lint w d (.map options) registry := by
  have same : prepare (w.movedTo directory) (.map options) = prepare w (.map options) :=
    prepare_movedTo search fixes
  obtain ⟨config, base, held, absolute, starts⟩ := fixes
  rw [lint, lint, same]
  cases prepared : (prepare w (.map options)).outcome with
  | error failure => rfl
  | ok found =>
      obtain ⟨c, start⟩ := found
      obtain ⟨other, _, _, heldOther, found, _⟩ := prepare_ok_iff.1 prepared
      cases held.symm.trans heldOther
      cases (starts w).symm.trans found
      simp only [loadPlugins_movedTo search absolute]

end Runs

end StyleAudit
