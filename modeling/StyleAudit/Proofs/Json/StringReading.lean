/-
Module: StyleAudit.Proofs.Json.StringReading
Purpose: A string that was written is read back as the text that it stands for, unless two halves
  of a surrogate pair stand side by side in that text.
Trusted boundary: none
Main exports: CodePoint.MakesPair, Text.IsUnpaired, naturalOfDigits_hexDigits,
  Json.readPoints_written, Json.joinPairs_units, Json.readString_written
-/
import Mathlib.Data.List.Chain
import StyleAudit.Json.Printer
import StyleAudit.Json.Reader

namespace StyleAudit

/-!
### Halves side by side
-/

/-- Two code points are the halves of one character. -/
def CodePoint.MakesPair : CodePoint → CodePoint → Prop
  | .surrogate first, .surrogate second => first.val < 0x400 ∧ 0x400 ≤ second.val
  | _, _ => False

/-- No two neighbours in a text are the halves of one character.  A text of characters has no
halves at all. -/
def Text.IsUnpaired (t : Text) : Prop :=
  t.points.IsChain fun first second => ¬ first.MakesPair second

theorem Text.isUnpaired_of_isPlain {t : Text} (plain : t.isPlain = true) : t.IsUnpaired := by
  have characters : ∀ point ∈ t.points, point.isCharacter = true := List.all_eq_true.1 plain
  unfold Text.IsUnpaired
  generalize t.points = points at characters
  induction points with
  | nil => exact .nil
  | cons first rest ih =>
      rw [List.forall_mem_cons] at characters
      rw [List.isChain_cons]
      refine ⟨?_, ih characters.2⟩
      intro second _ pair
      cases first with
      | char _ => exact pair
      | surrogate _ => cases characters.1

theorem Text.isUnpaired_ofString (s : String) : (Text.ofString s).IsUnpaired :=
  isUnpaired_of_isPlain (isPlain_ofString s)

namespace Format

/-!
### Digits to the base of sixteen
-/

theorem naturalOfDigits_concat {base d : Nat} {c : Char} (value : digitValue? c = some d)
    (digits : List Char) :
    naturalOfDigits base (digits ++ [c]) = naturalOfDigits base digits * base + d := by
  rw [naturalOfDigits, List.foldl_append, List.foldl_cons, List.foldl_nil, value]
  rfl

theorem digitValue?_hexDigit : ∀ d < 16, digitValue? (Text.hexDigit d) = some d := by
  decide

theorem naturalOfDigits_hexDigits (width : Nat) :
    ∀ n, naturalOfDigits 16 (Text.hexDigits width n) = n % Nat.pow 16 width := by
  induction width with
  | zero =>
      intro n
      exact (Nat.mod_one n).symm
  | succ width ih =>
      intro n
      have last := digitValue?_hexDigit (n % 16) (Nat.mod_lt n (by decide))
      have power : Nat.pow 16 (width + 1) = 16 * Nat.pow 16 width := Nat.pow_succ'
      rw [Text.hexDigits, naturalOfDigits_concat last, ih, power, Nat.mod_mul]
      omega

end Format

namespace Json

open Format

/-!
### Escapes

A character beyond the sixteen-bit range is written as the escapes of two halves, which are read
one by one and only then joined.
-/

/-- The first half of a character beyond the sixteen-bit range. -/
def firstHalf (c : Char) : Fin 2048 := Fin.ofNat 2048 ((c.toNat - 0x10000) / 0x400)

/-- The second half of a character beyond the sixteen-bit range. -/
def secondHalf (c : Char) : Fin 2048 := Fin.ofNat 2048 (0x400 + (c.toNat - 0x10000) % 0x400)

/-- The code points that are read for what is written for one. -/
def unitsOf : CodePoint → List CodePoint
  | .char c =>
      if c.toNat < 0x10000 then [.char c] else [.surrogate (firstHalf c), .surrogate (secondHalf c)]
  | .surrogate place => [.surrogate place]

theorem toNat_cases (c : Char) : c.toNat < 0xD800 ∨ 0xDFFF < c.toNat ∧ c.toNat < 0x110000 :=
  c.valid

theorem val_firstHalf (c : Char) : (firstHalf c).val = (c.toNat - 0x10000) / 0x400 := by
  have bounds := toNat_cases c
  rw [firstHalf, Fin.val_ofNat]
  omega

theorem val_secondHalf (c : Char) :
    (secondHalf c).val = 0x400 + (c.toNat - 0x10000) % 0x400 := by
  rw [secondHalf, Fin.val_ofNat]
  omega

theorem hexDigits_four (n : Nat) :
    Text.hexDigits 4 n = [Text.hexDigit (n / 16 / 16 / 16 % 16), Text.hexDigit (n / 16 / 16 % 16),
      Text.hexDigit (n / 16 % 16), Text.hexDigit (n % 16)] :=
  rfl

theorem isDigitOf_hexDigit : ∀ d < 16, isDigitOf 16 (Text.hexDigit d) = true := by
  decide

theorem codeUnit?_hexDigits {n : Nat} (bound : n < 0x10000) :
    codeUnit? (Text.hexDigits 4 n) = CodePoint.ofValue? n := by
  have digits : (Text.hexDigits 4 n).all (isDigitOf 16) = true := by
    have digit : ∀ m, isDigitOf 16 (Text.hexDigit (m % 16)) = true :=
      fun m => isDigitOf_hexDigit _ (Nat.mod_lt m (by decide))
    simp [hexDigits_four, digit]
  have power : Nat.pow 16 4 = 0x10000 := rfl
  rw [codeUnit?, if_pos digits, naturalOfDigits_hexDigits, power, Nat.mod_eq_of_lt bound]

theorem readPoints_unitEscape {n : Nat} {point : CodePoint} (bound : n < 0x10000)
    (denotes : CodePoint.ofValue? n = some point) (rest : List Char) :
    readPoints (unitEscape n ++ rest)
      = (readPoints rest).map fun read => (point :: read.1, read.2) := by
  have unit := codeUnit?_hexDigits bound
  rw [denotes, hexDigits_four] at unit
  rw [unitEscape, hexDigits_four]
  simp only [List.cons_append, List.nil_append, readPoints, unit]

theorem readPoints_surrogate (place : Fin 2048) (rest : List Char) :
    readPoints (unitEscape (CodePoint.surrogate place).value ++ rest)
      = (readPoints rest).map fun read => (.surrogate place :: read.1, read.2) := by
  refine readPoints_unitEscape ?_ (CodePoint.ofValue?_value_surrogate place) rest
  have bound := place.isLt
  rw [CodePoint.value, CodePoint.firstSurrogate]
  omega

/-- A character is no half of a pair. -/
theorem ofValue?_toNat (c : Char) : CodePoint.ofValue? c.toNat = some (.char c) := by
  have bounds := toNat_cases c
  have inRange : ¬ 0x10FFFF < c.toNat := by omega
  have noHalf : ¬ (CodePoint.firstSurrogate ≤ c.toNat
      ∧ c.toNat - CodePoint.firstSurrogate < 2048) := by
    unfold CodePoint.firstSurrogate
    omega
  rw [CodePoint.ofValue?, if_neg inRange, dif_neg noHalf, Char.ofNat_toNat]

theorem readPoints_shortEscape {mark meant : Char} (known : shortEscape? mark = some meant)
    (notUnit : mark ≠ 'u') (rest : List Char) :
    readPoints ('\\' :: mark :: rest)
      = (readPoints rest).map fun read => (.char meant :: read.1, read.2) := by
  rw [readPoints, known]
  intro a b c d others isUnit
  exact absurd isUnit notUnit

theorem readPoints_plain {c : Char} (noControl : 32 ≤ c.toNat) (noQuote : c ≠ '"')
    (noEscape : c ≠ '\\') (rest : List Char) :
    readPoints (c :: rest) = (readPoints rest).map fun read => (.char c :: read.1, read.2) := by
  have accepted : ¬ (decide (c.toNat < 32) || c == '\\') = true := by
    simp [noEscape, Nat.not_lt.2 noControl]
  rw [readPoints, if_neg accepted]
  · exact noQuote
  · intro a b d e others isEscape
    exact absurd isEscape noEscape
  · intro d others isEscape
    exact absurd isEscape noEscape

theorem readPoints_escapeCharacter (c : Char) (rest : List Char) :
    readPoints (escapeCharacter c ++ rest)
      = (readPoints rest).map fun read => (unitsOf (.char c) ++ read.1, read.2) := by
  rw [escapeCharacter]
  -- The seven characters that an escape of one letter stands for.
  iterate 7
    split
    · subst c
      exact readPoints_shortEscape rfl (by decide) rest
  rename_i noQuote noEscape _ _ _ _ _
  split
  · rename_i shown
    simp only [Bool.and_eq_true, decide_eq_true_eq] at shown
    rw [unitsOf, if_pos (by omega)]
    exact readPoints_plain shown.1 noQuote noEscape rest
  split
  · rename_i narrow
    rw [unitsOf, if_pos narrow]
    exact readPoints_unitEscape narrow (ofValue?_toNat c) rest
  · rename_i wide
    have first : (CodePoint.surrogate (firstHalf c)).value
        = 0xD800 + (c.toNat - 0x10000) / 0x400 := by
      rw [CodePoint.value, val_firstHalf, CodePoint.firstSurrogate]
    have second : (CodePoint.surrogate (secondHalf c)).value
        = 0xDC00 + (c.toNat - 0x10000) % 0x400 := by
      rw [CodePoint.value, val_secondHalf, CodePoint.firstSurrogate]
      omega
    show readPoints ((unitEscape (0xD800 + (c.toNat - 0x10000) / 0x400)
        ++ unitEscape (0xDC00 + (c.toNat - 0x10000) % 0x400)) ++ rest) = _
    rw [unitsOf, if_neg wide, ← first, ← second, List.append_assoc, readPoints_surrogate,
      readPoints_surrogate]
    cases readPoints rest <;> rfl

theorem readPoints_escapePoint (point : CodePoint) (rest : List Char) :
    readPoints (escapePoint point ++ rest)
      = (readPoints rest).map fun read => (unitsOf point ++ read.1, read.2) := by
  cases point with
  | char c => exact readPoints_escapeCharacter c rest
  | surrogate place => exact readPoints_surrogate place rest

/-- What is written for code points is read as their units, up to the closing mark. -/
theorem readPoints_written (points : List CodePoint) (rest : List Char) :
    readPoints (points.flatMap escapePoint ++ '"' :: rest)
      = .ok (points.flatMap unitsOf, rest) := by
  induction points with
  | nil => rw [List.flatMap_nil, List.nil_append, readPoints, List.flatMap_nil]
  | cons point others ih =>
      rw [List.flatMap_cons, List.append_assoc, readPoints_escapePoint, ih]
      rfl

/-!
### Joining halves
-/

theorem pairCharacter?_halves {c : Char} (wide : ¬ c.toNat < 0x10000) :
    pairCharacter? (firstHalf c) (secondHalf c) = some c := by
  have bounds := toNat_cases c
  have first := val_firstHalf c
  have second := val_secondHalf c
  have halves : (firstHalf c).val < 0x400 ∧ 0x400 ≤ (secondHalf c).val := by omega
  have number : 0x10000 + (firstHalf c).val * 0x400 + ((secondHalf c).val - 0x400) = c.toNat := by
    omega
  rw [pairCharacter?, if_pos halves, number, Char.ofNat_toNat]

/-- A half stays alone before anything that does not make a pair with it. -/
theorem joinPairs_alone {place : Fin 2048} {units : List CodePoint}
    (alone : ∀ unit ∈ units.head?, ¬ (CodePoint.surrogate place).MakesPair unit) :
    joinPairs (.surrogate place :: units) = .surrogate place :: joinPairs units := by
  cases units with
  | nil => rfl
  | cons unit rest =>
      cases unit with
      | char _ => rfl
      | surrogate second =>
          have apart : pairCharacter? place second = none := if_neg (alone _ rfl)
          rw [joinPairs, apart]

/-- Before the units of a code point a half is as much alone as before the code point. -/
theorem not_makesPair_head_units {place : Fin 2048} {points : List CodePoint}
    (alone : ∀ point ∈ points.head?, ¬ (CodePoint.surrogate place).MakesPair point) :
    ∀ unit ∈ (points.flatMap unitsOf).head?, ¬ (CodePoint.surrogate place).MakesPair unit := by
  intro unit first pair
  cases points with
  | nil => cases first
  | cons point rest =>
      rw [List.flatMap_cons] at first
      cases point with
      | surrogate second =>
          cases first
          exact alone _ rfl pair
      | char c =>
          rw [unitsOf] at first
          split at first
          · cases first
            exact pair
          · -- The first half of a character never ends a pair.
            cases first
            have bounds := toNat_cases c
            have half := val_firstHalf c
            obtain ⟨_, late⟩ := pair
            omega

/-- Joining the halves gives back the code points, when none of them are halves of one character
already. -/
theorem joinPairs_units {points : List CodePoint}
    (unpaired : points.IsChain fun first second => ¬ first.MakesPair second) :
    joinPairs (points.flatMap unitsOf) = points := by
  induction points with
  | nil => rfl
  | cons point rest ih =>
      rw [List.isChain_cons] at unpaired
      have others := ih unpaired.2
      rw [List.flatMap_cons]
      cases point with
      | surrogate place =>
          have alone := joinPairs_alone (not_makesPair_head_units unpaired.1)
          rw [others] at alone
          exact alone
      | char c =>
          rw [unitsOf]
          split
          · exact congrArg (.char c :: ·) others
          · rename_i wide
            rw [List.cons_append, List.cons_append, List.nil_append, joinPairs,
              pairCharacter?_halves wide, others]

/-- A string that was written is read back, whatever stands behind it. -/
theorem readString_written {t : Text} (unpaired : t.IsUnpaired) (rest : List Char) :
    readString (t.points.flatMap escapePoint ++ '"' :: rest) = .ok (t, rest) := by
  rw [readString, readPoints_written]
  exact congrArg (fun points => Except.ok (Text.mk points, rest)) (joinPairs_units unpaired)

/-- Two halves side by side are read as one character. -/
example : readString ("\\ud83d\\ude00\"".toList) = .ok (⟨[.char '😀']⟩, []) := by decide +kernel

end Json

end StyleAudit
