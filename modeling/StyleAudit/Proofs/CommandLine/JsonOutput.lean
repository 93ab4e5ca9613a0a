/-
Module: StyleAudit.Proofs.CommandLine.JsonOutput
Purpose: When a configuration that is accepted can be printed as JSON, and when what is printed
  is a JSON text.
Trusted boundary: none
Main exports: output?_of_isShown, CommandOutcome.Succeeds, Configuration.LacksJson,
  succeeds_configCommand_iff, runCommand_json_iff
-/
import StyleAudit.Proofs.CommandLine.Agreement
import StyleAudit.Proofs.Json.Written

namespace StyleAudit

/-!
### Printing
-/

/-- Without the character that starts control sequences, nothing is taken out. -/
theorem dropSequences_of_unmarked {points : List CodePoint}
    (unmarked : ∀ point ∈ points, point ≠ .char Console.escapeCharacter) :
    Console.dropSequences 0 points = points := by
  induction points with
  | nil => rfl
  | cons point rest ih =>
      rw [List.forall_mem_cons] at unmarked
      rw [Console.dropSequences, if_neg unmarked.1, ih unmarked.2]

/-- A string without controls but white space is printed as it is. -/
theorem output?_of_isShown {s : String} (shown : ∀ c ∈ s.toList, Json.IsShown c) :
    Console.output? s = some s := by
  have unmarked : ∀ point ∈ (Text.ofString s).points,
      point ≠ .char Console.escapeCharacter := by
    intro point member
    obtain ⟨c, inside, rfl⟩ := List.mem_map.1 member
    intro same
    have hidden : ¬ Json.IsShown Console.escapeCharacter := by
      rintro (large | space)
      · exact absurd large (by decide)
      · exact absurd space (by decide)
    exact hidden (CodePoint.char.inj same ▸ shown c inside)
  have whole : Console.withoutSequences s = s := Text.ext (dropSequences_of_unmarked unmarked)
  simp only [Console.output?, whole, Text.isPlain_ofString, if_true, Text.shown_ofString]

theorem ended_single (s : String) : ended [(s : Text)] = (s ++ "\n" : String) := by
  apply Text.ext
  simp [ended, Text.join, Text.ofString, Text.ofChars]

/-!
### Exit codes
-/

/-- A command finishes with the exit code zero. -/
def CommandOutcome.Succeeds (outcome : CommandOutcome) : Prop :=
  ∃ output errors, outcome = .finished 0 output errors

/-- Failures are reported with another exit code, or not at all. -/
theorem not_succeeds_reportFailure (failure : Failure) : ¬ (reportFailure failure).Succeeds := by
  rintro ⟨output, errors, finished⟩
  cases failure with
  | configuration fault =>
      rw [reportFailure, reportFault, CommandOutcome.printing] at finished
      split at finished <;> cases finished
  | _ => cases finished

theorem not_succeeds_refusal (refusal : Refusal) : ¬ refusal.outcome.Succeeds := by
  rintro ⟨output, errors, finished⟩
  cases refusal <;> cases finished

/-!
### Configurations

A configuration is printed as a mapping of its fields.  What the fields are by themselves always
has a JSON form, so only the rules and the names of plugins count.
-/

/-- Something in the rules of the configuration has no JSON form, or the name of a plugin has
none. -/
def Configuration.LacksJson (c : Configuration) : Prop :=
  (Value.map c.rules).LacksJson ∨ ∃ plugin ∈ c.plugins, plugin.1.IsFormless

/-- The properties spare what the fields of a configuration are by themselves: texts, truth values,
nothing, and sequences and mappings whatever they hold. -/
structure SparesFields (property : Value → Prop) (keyProperty : Key → Prop) : Prop where
  str : ∀ s, ¬ property (.str s)
  bool : ∀ b, ¬ property (.bool b)
  null : ¬ property .null
  seq : ∀ items, ¬ property (.seq items)
  map : ∀ entries, ¬ property (.map entries)
  key : ∀ s, ¬ keyProperty (.str s)

theorem sparesFields_isFormless : SparesFields Value.IsFormless Key.IsFormless where
  str _ formless := by cases formless
  bool _ formless := by cases formless
  null formless := by cases formless
  seq _ formless := by cases formless
  map _ formless := by cases formless
  key _ formless := by cases formless

theorem sparesFields_isNotFinite : SparesFields Value.IsNotFinite fun _ => False where
  str _ notFinite := by cases notFinite
  bool _ notFinite := by cases notFinite
  null notFinite := by cases notFinite
  seq _ notFinite := by cases notFinite
  map _ notFinite := by cases notFinite
  key _ impossible := impossible

section Configurations

variable {c : Configuration} {property : Value → Prop} {keyProperty : Key → Prop}

/-- Of a configuration only the rules and the names of the plugins can have such a property. -/
theorem somewhere_toMapping_iff (spares : SparesFields property keyProperty) :
    (Value.map c.toMapping).Somewhere property keyProperty ↔
      (Value.map c.rules).Somewhere property keyProperty
        ∨ ∃ plugin ∈ c.plugins, keyProperty plugin.1 := by
  have text : ∀ s, ¬ (Value.str s).Somewhere property keyProperty := by
    rintro s ⟨has⟩
    exact spares.str s has
  constructor
  · intro inside
    cases inside with
    | here has => exact absurd has (spares.map _)
    | key member has =>
        simp only [Configuration.toMapping, List.mem_cons, List.not_mem_nil, or_false] at member
        rcases member with rfl | rfl | rfl | rfl <;> exact absurd has (spares.key _)
    | value member inner =>
        simp only [Configuration.toMapping, List.mem_cons, List.not_mem_nil, or_false] at member
        rcases member with rfl | rfl | rfl | rfl
        · exact .inl inner
        · cases inner with
          | here has => exact absurd has (spares.map _)
          | key among has =>
              obtain ⟨plugin, declared, rfl⟩ := List.mem_map.1 among
              exact .inr ⟨plugin, declared, has⟩
          | value among lookup =>
              obtain ⟨plugin, _, rfl⟩ := List.mem_map.1 among
              exact absurd lookup (text _)
        · cases inner with
          | here has => exact absurd has (spares.bool _)
        · cases named : c.basedir with
          | none =>
              rw [named] at inner
              cases inner with
              | here has => exact absurd has spares.null
          | some p =>
              rw [named] at inner
              exact absurd inner (text _)
  · rintro (inside | ⟨plugin, declared, has⟩)
    · exact .value List.mem_cons_self inside
    · have among := List.mem_map_of_mem (f := fun p : Key × Text => (p.1, Value.str p.2)) declared
      exact .value (List.mem_cons_of_mem _ List.mem_cons_self) (.key among has)

end Configurations

/-!
### The command that shows the configuration
-/

section Commands

variable {w : World} {options : ProgramOptions} {asJson : Bool}

/-- The command that checks the configuration succeeds only when one is prepared and its settings
are sound. -/
theorem prepares_of_succeeds
    (succeeds : (configCommand w options true asJson).outcome.Succeeds) :
    ∃ described c base settings, runOptions w options = .ok described
      ∧ (prepare w described).outcome = .ok (c, base) ∧ settingsOf c.rules = .ok settings := by
  rw [outcome_configCommand] at succeeds
  cases named : runOptions w options with
  | error failure =>
      rw [named] at succeeds
      exact absurd succeeds (not_succeeds_reportFailure failure)
  | ok described =>
      rw [named] at succeeds
      cases prepared : (prepare w described).outcome with
      | error failure =>
          simp only [prepared] at succeeds
          exact absurd succeeds (not_succeeds_reportFailure failure)
      | ok found =>
          obtain ⟨c, base⟩ := found
          simp only [prepared] at succeeds
          cases read : settingsOf c.rules with
          | error fault =>
              simp only [showConfiguration, read] at succeeds
              exact absurd succeeds (not_succeeds_reportFailure _)
          | ok settings => exact ⟨described, c, base, settings, rfl, prepared, read⟩

/-- What the command that shows the configuration prints as JSON, if it can. -/
theorem showConfiguration_json {c : Configuration} {settings : List (Key × Setting)}
    (read : settingsOf c.rules = .ok settings) :
    (c.LacksJson ∧ showConfiguration options false true c = .failed .unusable)
      ∨ ¬ c.LacksJson ∧ ∃ text, Json.write? .indented (.map c.toMapping) = some text
        ∧ showConfiguration options false true c = .finished 0 (text ++ "\n") ""
        ∧ (Json.IsJson (text ++ "\n").toList ↔ ¬ (Value.map c.rules).HoldsNotFinite) := by
  have lacks : (Value.map c.toMapping).LacksJson ↔ c.LacksJson :=
    somewhere_toMapping_iff sparesFields_isFormless
  have notFinite : (Value.map c.toMapping).HoldsNotFinite
      ↔ (Value.map c.rules).HoldsNotFinite := by
    rw [Value.HoldsNotFinite, somewhere_toMapping_iff sparesFields_isNotFinite]
    simp
  cases written : Json.writeValue? .indented 0 (.map c.toMapping) with
  | none =>
      refine .inl ⟨lacks.1 (Json.writeValue?_eq_none_iff.1 written), ?_⟩
      simp only [showConfiguration, read, printConfiguration, Json.write?, written,
        Option.map_none, Bool.false_eq_true, if_false, if_true]
      rfl
  | some chars =>
      have present : ¬ c.LacksJson := by
        intro missing
        rw [Json.writeValue?_eq_none_iff.2 (lacks.2 missing)] at written
        cases written
      have printed : Console.output? (ended [(String.ofList chars : Text)])
          = some (String.ofList chars ++ "\n") := by
        rw [ended_single]
        apply output?_of_isShown
        rw [String.toList_append, String.toList_ofList, List.forall_mem_append]
        exact ⟨Json.isShown_of_written written, by simp [Json.IsShown, Json.spaces]⟩
      refine .inr ⟨present, String.ofList chars, ?_, ?_, ?_⟩
      · rw [Json.write?, written]
        rfl
      · simp only [showConfiguration, read, printConfiguration, Json.write?, written,
          Option.map_some, Bool.false_eq_true, if_false, if_true, CommandOutcome.printing,
          printed]
        rfl
      · rw [← notFinite, String.toList_append, String.toList_ofList]
        exact Json.isJson_written_iff written (by simp [Json.IsSpace, Json.spaces])

end Commands

/-- With the same options of the program, a configuration that the check accepts is printed as
JSON exactly when nothing in its rules, and no name of a plugin, lacks a JSON form.  Otherwise the
command fails and prints nothing.  What is printed is a JSON text exactly when all numbers in the
rules are finite. -/
theorem runCommand_json_iff {w : World} {validating printing : List Text}
    {options : ProgramOptions} {asJson : Bool}
    (validates : NamesCommand w validating options (.config true asJson))
    (prints : NamesCommand w printing options (.config false true))
    (valid : (runCommand w validating).outcome.Succeeds) :
    ∃ described c base, runOptions w options = .ok described
      ∧ (prepare w described).outcome = .ok (c, base)
      ∧ ((runCommand w printing).outcome.Succeeds ↔ ¬ c.LacksJson)
      ∧ (c.LacksJson → (runCommand w printing).outcome = .failed .unusable)
      ∧ (¬ c.LacksJson → ∃ text, Json.write? .indented (.map c.toMapping) = some text
          ∧ (runCommand w printing).outcome = .finished 0 (text ++ "\n") ""
          ∧ (Json.IsJson (text ++ "\n").toList ↔ ¬ (Value.map c.rules).HoldsNotFinite)) := by
  rw [outcome_runCommand validates] at valid
  rw [outcome_runCommand prints]
  cases checked : w.checkOptions options with
  | error refusal =>
      rw [checked] at valid
      exact absurd valid (not_succeeds_refusal refusal)
  | ok _ =>
      rw [checked] at valid
      obtain ⟨described, c, base, settings, named, prepared, read⟩ := prepares_of_succeeds valid
      refine ⟨described, c, base, named, prepared, ?_⟩
      simp only [runParsed, outcome_configCommand, named, prepared]
      rcases showConfiguration_json read with ⟨lacks, failed⟩ | ⟨present, text, written, finished,
        isJson⟩
      · rw [failed]
        refine ⟨⟨?_, fun present => absurd lacks present⟩, fun _ => rfl,
          fun present => absurd lacks present⟩
        rintro ⟨output, errors, impossible⟩
        cases impossible
      · exact ⟨⟨fun _ => present, fun _ => ⟨_, _, finished⟩⟩, fun lacks => absurd lacks present,
          fun _ => ⟨text, written, finished, isJson⟩⟩

/-!
A rule with an option that it does not look at: a date, a number that is not finite, and another
number.
-/

/-- The rules of a configuration with an option. -/
def almanacRules (option : Value) : Mapping :=
  [(.str "block-no-empty", .seq [.str "error", option])]

/-- Three configuration files. -/
def almanacFiles : World where
  tree := ⟨[
    (["date.toml"], .file "[rules]\nblock-no-empty = [\"error\", 1979-05-27]\n".toUTF8),
    (["nan.py"], .module (.exporting
      (some (.map [(.str "rules", .map (almanacRules (.float ⟨0x7FF8000000000000⟩)))])) .absent)),
    (["half.py"], .module (.exporting
      (some (.map [(.str "rules", .map (almanacRules (.float ⟨0x3FE0000000000000⟩)))])) .absent))]⟩
  workingDirectory := []
  searchPath := []

/-- The configuration in a file. -/
def almanacConfiguration (option : Value) : Configuration :=
  ⟨almanacRules option, [], false, some ⟨.root, []⟩⟩

/-- The options of the program that name a file. -/
def almanacProgram (file : Text) : ProgramOptions := ⟨some file, none, false, .warning, false⟩

def almanacCheck (file : Text) : List Text := ["--config", file, "config", "--validate"]

def almanacPrint (file : Text) : List Text := ["--config", file, "config", "--json"]

/-- The entries of a file, its directory among them. -/
def almanacEntries (option : Value) : Mapping :=
  [(.str "rules", .map (almanacRules option)), (.str "config_basedir", .str "/")]

/-- A file can be named, and holds the configuration with an option. -/
structure IsAlmanac (file : Text) (option : Value) : Prop where
  checks : NamesCommand almanacFiles (almanacCheck file) (almanacProgram file) (.config true false)
  prints : NamesCommand almanacFiles (almanacPrint file) (almanacProgram file) (.config false true)
  accepted : almanacFiles.checkOptions (almanacProgram file) = .ok ()
  named : runOptions almanacFiles (almanacProgram file)
    = .ok (.map [(.str "config", .map (almanacEntries option))])
  prepared : (prepare almanacFiles (.map [(.str "config", .map (almanacEntries option))])).outcome
    = .ok (almanacConfiguration option, ⟨.root, []⟩)
  valid : ∃ output errors, showConfiguration (almanacProgram file) true false
    (almanacConfiguration option) = .finished 0 output errors

theorem IsAlmanac.succeeds {file : Text} {option : Value} (holds : IsAlmanac file option) :
    (runCommand almanacFiles (almanacCheck file)).outcome.Succeeds := by
  rw [outcome_runCommand holds.checks, holds.accepted]
  simp only [runParsed, outcome_configCommand, holds.named, holds.prepared]
  exact holds.valid

theorem isAlmanac_date : IsAlmanac "date.toml" (.moment (.date ⟨1979, 5, 27⟩)) where
  checks := ⟨⟨["config", "--validate"], rfl, rfl⟩, rfl⟩
  prints := ⟨⟨["config", "--json"], rfl, rfl⟩, rfl⟩
  accepted := rfl
  named := by cbv
  prepared := by cbv
  valid := ⟨_, _, rfl⟩

theorem isAlmanac_nan : IsAlmanac "nan.py" (.float ⟨0x7FF8000000000000⟩) where
  checks := ⟨⟨["config", "--validate"], rfl, rfl⟩, rfl⟩
  prints := ⟨⟨["config", "--json"], rfl, rfl⟩, rfl⟩
  accepted := rfl
  named := by cbv
  prepared := by cbv
  valid := ⟨_, _, rfl⟩

theorem isAlmanac_half : IsAlmanac "half.py" (.float ⟨0x3FE0000000000000⟩) where
  checks := ⟨⟨["config", "--validate"], rfl, rfl⟩, rfl⟩
  prints := ⟨⟨["config", "--json"], rfl, rfl⟩, rfl⟩
  accepted := rfl
  named := by cbv
  prepared := by cbv
  valid := ⟨_, _, rfl⟩

theorem somewhere_almanacRules_iff {property : Value → Prop} {keyProperty : Key → Prop}
    (spares : SparesFields property keyProperty) {option : Value} :
    (Value.map (almanacRules option)).Somewhere property keyProperty
      ↔ option.Somewhere property keyProperty := by
  constructor
  · intro inside
    cases inside with
    | here has => exact absurd has (spares.map _)
    | key member has =>
        rw [almanacRules, List.mem_singleton] at member
        subst member
        exact absurd has (spares.key _)
    | value member inner =>
        rw [almanacRules, List.mem_singleton] at member
        subst member
        cases inner with
        | here has => exact absurd has (spares.seq _)
        | item among innermost =>
            rw [List.mem_cons, List.mem_singleton] at among
            rcases among with rfl | rfl
            · cases innermost with
              | here has => exact absurd has (spares.str _)
            · exact innermost
  · intro inside
    exact .value List.mem_cons_self (.item (List.mem_cons_of_mem _ List.mem_cons_self) inside)

theorem lacksJson_almanacConfiguration_iff {option : Value} :
    (almanacConfiguration option).LacksJson ↔ option.LacksJson := by
  rw [Configuration.LacksJson, Value.LacksJson, almanacConfiguration,
    somewhere_almanacRules_iff sparesFields_isFormless]
  simp

theorem not_lacksJson_float (x : Binary64) : ¬ (Value.float x).LacksJson := by
  rintro ⟨⟨⟩⟩

theorem runCommand_json_iff_almanac :
    (runCommand almanacFiles (almanacPrint "date.toml")).outcome = .failed .unusable
      ∧ (∃ text, (runCommand almanacFiles (almanacPrint "nan.py")).outcome = .finished 0 text ""
          ∧ ¬ Json.IsJson text.toList)
      ∧ ∃ text, (runCommand almanacFiles (almanacPrint "half.py")).outcome = .finished 0 text ""
          ∧ Json.IsJson text.toList := by
  have told : ∀ file option, IsAlmanac file option →
      (option.LacksJson →
          (runCommand almanacFiles (almanacPrint file)).outcome = .failed .unusable)
        ∧ (¬ option.LacksJson → ∃ text : String,
          (runCommand almanacFiles (almanacPrint file)).outcome = .finished 0 text ""
            ∧ (Json.IsJson text.toList ↔ ¬ option.HoldsNotFinite)) := by
    intro file option holds
    obtain ⟨_, c, _, named, prepared, _, failed, printed⟩ :=
      runCommand_json_iff holds.checks holds.prints holds.succeeds
    rw [holds.named, Except.ok.injEq] at named
    subst named
    rw [holds.prepared, Except.ok.injEq, Prod.mk.injEq] at prepared
    obtain ⟨rfl, rfl⟩ := prepared
    rw [lacksJson_almanacConfiguration_iff] at failed printed
    refine ⟨failed, fun present => ?_⟩
    obtain ⟨text, _, finished, isJson⟩ := printed present
    have finite : (Value.map (almanacRules option)).HoldsNotFinite ↔ option.HoldsNotFinite :=
      somewhere_almanacRules_iff sparesFields_isNotFinite
    exact ⟨_, finished, isJson.trans (not_congr finite)⟩
  have nan : Binary64.shape ⟨0x7FF8000000000000⟩ = .nan := by decide +kernel
  have half : Binary64.shape ⟨0x3FE0000000000000⟩ = .finite false 4503599627370496 (-53) := by
    decide +kernel
  refine ⟨(told _ _ isAlmanac_date).1 (.here (.moment _)), ?_, ?_⟩
  · obtain ⟨text, finished, isJson⟩ := (told _ _ isAlmanac_nan).2 (not_lacksJson_float _)
    exact ⟨text, finished, fun printed => isJson.1 printed (.here (.nan nan))⟩
  · obtain ⟨text, finished, isJson⟩ := (told _ _ isAlmanac_half).2 (not_lacksJson_float _)
    refine ⟨text, finished, isJson.2 ?_⟩
    rintro ⟨shape | shape⟩
    · rw [half] at shape
      cases shape
    · rw [half] at shape
      cases shape

end StyleAudit
