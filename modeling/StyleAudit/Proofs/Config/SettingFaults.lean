/-
Module: StyleAudit.Proofs.Config.SettingFaults
Purpose: Which settings of rules are sound, told by what may stand in them and not by reading
  them, and which of several settings is the one at fault.
Trusted boundary: none
Main exports: Text.Spells, Value.IsSeverity, SettingFault, ofValue_eq_error_iff,
  settingsOf_eq_error_iff
-/
import StyleAudit.Proofs.Dispatch.Examination
import StyleAudit.Proofs.Sequence
import Mathlib

namespace StyleAudit

/-!
### Severities

A word is compared letter by letter, each of which may be small or capital.  Only the letters
of ASCII come in question, since every token is made of them.
-/

/-- The words for severities. -/
def severityWordList : List String := ["off", "warn", "warning", "error"]

/-- A text is a word in small letters, up to the case of its letters. -/
def Text.Spells (t : Text) (word : String) : Prop :=
  List.Forall₂ (fun point letter => point = .char letter ∨ point = .char letter.toUpper)
    t.points word.toList

/-- A value gives a severity: it is one of three integers, or one of four words up to case. -/
inductive Value.IsSeverity : Value → Prop where
  | level {n : Int} (known : n = 0 ∨ n = 1 ∨ n = 2) : IsSeverity (.int n)
  | word {t : Text} {word : String} (listed : word ∈ severityWordList) (spelled : t.Spells word) :
      IsSeverity (.str t)

theorem toLower_eq_iff {letter c : Char} (small : letter.isLower = true) :
    c.toLower = letter ↔ c = letter ∨ c = letter.toUpper := by
  have stays : letter.toLower = letter :=
    Char.toLower_eq_of_not_isUpper (Char.not_isUpper_of_isLower small)
  constructor
  · intro folded
    by_cases capital : c.isUpper = true
    · right
      rw [← folded, Char.toUpper_toLower_eq_toUpper]
      exact (Char.toUpper_eq_of_not_isLower (Char.not_isLower_of_isUpper capital)).symm
    · left
      rw [← folded, Char.toLower_eq_of_not_isUpper capital]
  · rintro (rfl | rfl)
    · exact stays
    · rw [Char.toLower_toUpper_eq_toLower, stays]

/-- Half of a surrogate pair is shown as a character that is no letter. -/
theorem toLower_shown_eq_iff {letter : Char} (small : letter.isLower = true) {point : CodePoint} :
    point.shown.toLower = letter ↔ point = .char letter ∨ point = .char letter.toUpper := by
  cases point with
  | char c =>
      rw [CodePoint.shown, toLower_eq_iff small, CodePoint.char.injEq, CodePoint.char.injEq]
  | surrogate place =>
      have other : '\ufffd'.isLower = false := rfl
      constructor
      · intro folded
        have same : '\ufffd' = letter := folded
        rw [← same, other] at small
        cases small
      · rintro (impossible | impossible) <;> cases impossible

theorem spells_iff {t : Text} {word : String}
    (small : ∀ letter ∈ word.toList, letter.isLower = true) :
    t.Spells word ↔ String.ofList (t.characters.map Char.toLower) = word := by
  have folded : ∀ (letters : List Char) (points : List CodePoint),
      (∀ letter ∈ letters, letter.isLower = true) →
        (List.Forall₂ (fun point letter => point = .char letter ∨ point = .char letter.toUpper)
            points letters
          ↔ points.map (fun point => point.shown.toLower) = letters) := by
    intro letters
    induction letters with
    | nil => simp
    | cons letter rest ih =>
        intro points smallAll
        obtain ⟨smallHere, smallRest⟩ := List.forall_mem_cons.1 smallAll
        cases points with
        | nil => simp
        | cons point others =>
            rw [List.forall₂_cons, List.map_cons, List.cons.injEq,
              toLower_shown_eq_iff smallHere, ih others smallRest]
  rw [← String.toList_inj, String.toList_ofList, Text.characters, List.map_map]
  exact folded word.toList t.points small

theorem severityOfWord?_isSome_iff {t : Text} :
    (severityOfWord? t).isSome = true ↔ ∃ word ∈ severityWordList, t.Spells word := by
  have small : ∀ word ∈ severityWordList, ∀ letter ∈ word.toList, letter.isLower = true := by
    simp [severityWordList, Char.isLower]
  have spelled : ∀ word ∈ severityWordList,
      (t.Spells word ↔ String.ofList (t.characters.map Char.toLower) = word) :=
    fun word listed => spells_iff (small word listed)
  rw [severityOfWord?, List.lookup_isSome_iff]
  constructor
  · rintro ⟨⟨word, severity⟩, token, same⟩
    have listed : word ∈ severityWordList := by
      have words : severityTokens.map Prod.fst ⊆ severityWordList := by decide
      exact words (List.mem_map_of_mem token)
    exact ⟨word, listed, (spelled word listed).2 (eq_of_beq same)⟩
  · rintro ⟨word, listed, spells⟩
    have tokens : severityWordList ⊆ severityTokens.map Prod.fst := by decide
    obtain ⟨token, member, rfl⟩ := List.mem_map.1 (tokens listed)
    exact ⟨token, member, beq_of_eq ((spelled token.1 listed).1 spells)⟩

/-- A severity can be read off a value exactly when the value gives one. -/
theorem severityOfValue?_isSome_iff {v : Value} :
    (severityOfValue? v).isSome = true ↔ v.IsSeverity := by
  cases v with
  | int n =>
      rw [severityOfValue?]
      constructor
      · intro known
        unfold Severity.ofLevel? at known
        split at known
        · exact .level (.inl rfl)
        · exact .level (.inr (.inl rfl))
        · exact .level (.inr (.inr rfl))
        · cases known
      · rintro ⟨rfl | rfl | rfl⟩ <;> rfl
  | str t =>
      rw [severityOfValue?, severityOfWord?_isSome_iff]
      constructor
      · rintro ⟨word, listed, spells⟩
        exact .word listed spells
      · rintro (_ | ⟨listed, spells⟩)
        exact ⟨_, listed, spells⟩
  | _ =>
      constructor
      · intro impossible
        cases impossible
      · intro impossible
        cases impossible

instance (v : Value) : Decidable v.IsSeverity :=
  decidable_of_iff _ severityOfValue?_isSome_iff

theorem severityOfValue_eq_error_iff {name : Key} {v : Value} {fault : ConfigFault} :
    severityOfValue name v = .error fault ↔ ¬ v.IsSeverity ∧ fault = .invalidSeverity v name := by
  rw [← severityOfValue?_isSome_iff, severityOfValue]
  cases severityOfValue? v with
  | none => simp [eq_comm]
  | some severity => simp

/-!
### Settings
-/

/-- A setting is sound: it is a severity, or a list that begins with one. -/
inductive Value.IsSetting : Value → Prop where
  | bare {v : Value} (severity : v.IsSeverity) : IsSetting v
  | listed {v : Value} {options : List Value} (severity : v.IsSeverity) :
      IsSetting (.seq (v :: options))

/-- What is at fault in the setting of a rule: it is an empty list, or else what should be its
severity, the first item of a list and anything else itself, is none. -/
inductive SettingFault (name : Key) : Value → ConfigFault → Prop where
  | empty : SettingFault name (.seq []) (.emptySetting name)
  | first {v : Value} {options : List Value} (bad : ¬ v.IsSeverity) :
      SettingFault name (.seq (v :: options)) (.invalidSeverity v name)
  | bare {v : Value} (single : ∀ items, v ≠ .seq items) (bad : ¬ v.IsSeverity) :
      SettingFault name v (.invalidSeverity v name)

theorem map_eq_error_iff {ε α β : Type} {first : Except ε α} {f : α → β} {fault : ε} :
    (do let a ← first; return f a) = .error fault ↔ first = .error fault := by
  cases first with
  | error other =>
      constructor
      · rintro ⟨⟩
        rfl
      · rintro ⟨⟩
        rfl
  | ok a =>
      constructor
      · intro impossible
        cases impossible
      · intro impossible
        cases impossible

/-- A setting cannot be read exactly when it is at fault, and that is the fault reported. -/
theorem ofValue_eq_error_iff {name : Key} {v : Value} {fault : ConfigFault} :
    Setting.ofValue name v = .error fault ↔ SettingFault name v fault := by
  cases v with
  | seq items =>
      cases items with
      | nil =>
          constructor
          · intro empty
            cases empty
            exact .empty
          · rintro (_ | _ | ⟨single, _⟩)
            · rfl
            · exact absurd rfl (single [])
      | cons v options =>
          rw [Setting.ofValue, map_eq_error_iff, severityOfValue_eq_error_iff]
          constructor
          · rintro ⟨bad, rfl⟩
            exact .first bad
          · rintro (_ | bad | ⟨single, _⟩)
            · exact ⟨bad, rfl⟩
            · exact absurd rfl (single (v :: options))
  | _ =>
      rw [Setting.ofValue, map_eq_error_iff, severityOfValue_eq_error_iff]
      · constructor
        · rintro ⟨bad, rfl⟩
          exact .bare (by simp) bad
        · rintro (_ | _ | ⟨_, bad⟩)
          exact ⟨bad, rfl⟩
      · simp
      · simp

/-- A setting is sound when nothing is at fault in it. -/
theorem isSetting_iff (name : Key) {v : Value} :
    v.IsSetting ↔ ∀ fault, ¬ SettingFault name v fault := by
  constructor
  · intro sound fault faulty
    cases faulty with
    | empty =>
        cases sound with
        | bare severity => cases severity
    | first bad =>
        cases sound with
        | bare severity => cases severity
        | listed severity => exact bad severity
    | bare single bad =>
        cases sound with
        | bare severity => exact bad severity
        | listed severity => exact single _ rfl
  · intro faultless
    cases v with
    | seq items =>
        cases items with
        | nil => exact absurd .empty (faultless _)
        | cons v options =>
            exact .listed (not_not.1 fun bad => faultless _ (.first bad))
    | _ => exact .bare (not_not.1 fun bad => faultless _ (.bare (by simp) bad))

theorem exists_ofValue_iff {name : Key} {v : Value} :
    (∃ setting, Setting.ofValue name v = .ok setting) ↔ v.IsSetting := by
  rw [isSetting_iff name]
  cases read : Setting.ofValue name v with
  | ok setting =>
      refine ⟨fun _ fault faulty => ?_, fun _ => ⟨setting, rfl⟩⟩
      rw [← ofValue_eq_error_iff, read] at faulty
      cases faulty
  | error fault =>
      refine ⟨?_, fun faultless => absurd (ofValue_eq_error_iff.1 read) (faultless fault)⟩
      rintro ⟨setting, impossible⟩
      cases impossible

/-- Settings can be read exactly when each of them is sound. -/
theorem exists_settingsOf_iff {rules : Mapping} :
    (∃ settings, settingsOf rules = .ok settings) ↔ ∀ entry ∈ rules, entry.2.IsSetting := by
  constructor
  · rintro ⟨settings, read⟩
    have related := settingsOf_ok_iff.1 read
    clear read
    induction related with
    | nil => exact List.forall_mem_nil _
    | cons head _ ih =>
        exact List.forall_mem_cons.2 ⟨exists_ofValue_iff.1 ⟨_, head.2⟩, ih⟩
  · intro sound
    apply exists_settingsOf
    intro entry member
    exact exists_ofValue_iff.2 (sound entry member)

/-!
### The first of several faults
-/

/-- Settings are read up to the first one that is at fault. -/
theorem settingsOf_eq_error_iff {rules : Mapping} {fault : ConfigFault} :
    settingsOf rules = .error fault ↔
      HasFirst (fun entry => entry.2.IsSetting) (fun entry => SettingFault entry.1 entry.2 fault)
        rules := by
  induction rules with
  | nil =>
      constructor
      · intro impossible
        cases impossible
      · intro impossible
        exact absurd impossible not_hasFirst_nil
  | cons entry rest ih =>
      obtain ⟨name, v⟩ := entry
      rw [settingsOf_cons, hasFirst_cons, ← ih]
      cases read : Setting.ofValue name v with
      | error other =>
          have unsound : ¬ v.IsSetting := by
            rw [isSetting_iff name]
            intro faultless
            exact faultless other (ofValue_eq_error_iff.1 read)
          simp only [← ofValue_eq_error_iff, read, unsound, false_and, or_false]
          simp [Except.bind]
      | ok setting =>
          have sound : v.IsSetting := exists_ofValue_iff.1 ⟨setting, read⟩
          simp only [← ofValue_eq_error_iff, read, sound, true_and]
          cases settingsOf rest <;> simp [Except.bind]

end StyleAudit
