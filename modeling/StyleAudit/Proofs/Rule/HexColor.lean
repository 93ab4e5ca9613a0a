/-
Module: StyleAudit.Proofs.Rule.HexColor
Purpose: What the rule against malformed colors reports: the places of hash signs with a run
  behind them that is no color.
Trusted boundary: none
Main exports: HexColor.runBehind, HexColor.IsColor, HexColor.IsBadAt, HexColor.tokenPattern,
  HexColor.finds_iff, hexColor_reports
-/
import StyleAudit.Proofs.Rule.Builtin
import StyleAudit.Proofs.Rule.Reports
import StyleAudit.Proofs.Text.Search
import Mathlib

namespace StyleAudit.HexColor

/-!
### Colors
-/

/-- The hexadecimal digits, which are characters of ASCII. -/
def hexDigits : List Char := "0123456789abcdefABCDEF".toList

/-- A run is a color: it has as many code points as a color has, all of them digits. -/
structure IsColor (run : List CodePoint) : Prop where
  length : run.length ∈ [3, 4, 6, 8]
  digits : ∀ point ∈ run, ∃ digit ∈ hexDigits, point = .char digit

theorem isDigitOf_iff {c : Char} : Format.isDigitOf 16 c = true ↔ c ∈ hexDigits := by
  have numbers : hexDigits.map Char.toNat
      = [48, 49, 50, 51, 52, 53, 54, 55, 56, 57, 97, 98, 99, 100, 101, 102, 65, 66, 67, 68, 69,
          70] := by decide
  have injective : Function.Injective Char.toNat := fun _ _ same => Char.toNat_inj.1 same
  rw [← List.mem_map_of_injective injective, numbers]
  generalize number : c.toNat = n
  rw [Format.isDigitOf, Format.digitValue?, number]
  simp only [List.mem_cons, List.not_mem_nil, or_false]
  split_ifs with decimal lower upper <;> simp_all <;> omega

theorem isColor_iff {run : List CodePoint} : isColor run = true ↔ IsColor run := by
  have isDigit : ∀ point : CodePoint, point.isA (Format.isDigitOf 16) = true
      ↔ ∃ digit ∈ hexDigits, point = .char digit := by
    intro point
    cases point with
    | char c =>
        rw [CodePoint.isA, isDigitOf_iff]
        constructor
        · intro member
          exact ⟨c, member, rfl⟩
        · rintro ⟨digit, member, same⟩
          rwa [CodePoint.char.inj same]
    | surrogate place => exact iff_of_false Bool.false_ne_true (by rintro ⟨_, _, ⟨⟩⟩)
  simp only [isColor, Bool.and_eq_true, List.contains_iff_mem, List.all_eq_true, isDigit]
  constructor
  · rintro ⟨length, digits⟩
    exact ⟨length, digits⟩
  · rintro ⟨length, digits⟩
    exact ⟨length, digits⟩

instance (run : List CodePoint) : Decidable (IsColor run) :=
  decidable_of_iff _ isColor_iff

/-!
### Places
-/

/-- The longest run of word characters and hyphens behind a place of a text. -/
def runBehind (value : Text) (i : Nat) : List CodePoint :=
  (value.points.drop (i + 1)).takeWhile isTokenPoint

/-- A hash sign stands at a place of a text, with a run behind it. -/
structure IsTokenAt (value : Text) (i : Nat) : Prop where
  sign : value.points[i]? = some (.char '#')
  run : runBehind value i ≠ []

/-- A token stands at a place of a text that is no color. -/
structure IsBadAt (value : Text) (i : Nat) : Prop extends IsTokenAt value i where
  noColor : ¬ IsColor (runBehind value i)

theorem isTokenAt_iff {value : Text} {i : Nat} :
    IsTokenAt value i ↔ value.points[i]? = some (.char '#') ∧ runBehind value i ≠ [] := by
  constructor
  · rintro ⟨sign, run⟩
    exact ⟨sign, run⟩
  · rintro ⟨sign, run⟩
    exact ⟨sign, run⟩

theorem isBadAt_iff {value : Text} {i : Nat} :
    IsBadAt value i ↔ IsTokenAt value i ∧ ¬ IsColor (runBehind value i) := by
  constructor
  · rintro ⟨token, noColor⟩
    exact ⟨token, noColor⟩
  · rintro ⟨token, noColor⟩
    exact ⟨token, noColor⟩

instance (value : Text) (i : Nat) : Decidable (IsTokenAt value i) :=
  decidable_of_iff _ isTokenAt_iff.symm

instance (value : Text) (i : Nat) : Decidable (IsBadAt value i) :=
  decidable_of_iff _ isBadAt_iff.symm

theorem isTokenAt_zero {p : CodePoint} {rest : List CodePoint} :
    IsTokenAt ⟨p :: rest⟩ 0 ↔ p = .char '#' ∧ rest.takeWhile isTokenPoint ≠ [] := by
  rw [isTokenAt_iff, List.getElem?_cons_zero, Option.some.injEq]
  rfl

theorem isTokenAt_succ {p : CodePoint} {rest : List CodePoint} {i : Nat} :
    IsTokenAt ⟨p :: rest⟩ (i + 1) ↔ IsTokenAt ⟨rest⟩ i := by
  rw [isTokenAt_iff, isTokenAt_iff, List.getElem?_cons_succ]
  rfl

theorem tokensFrom_cons (i : Nat) (p : CodePoint) (rest : List CodePoint) :
    tokensFrom i (p :: rest)
      = if IsTokenAt ⟨p :: rest⟩ 0 then
          ⟨i, rest.takeWhile isTokenPoint⟩ :: tokensFrom (i + 1) rest
        else tokensFrom (i + 1) rest := by
  simp only [tokensFrom, isTokenAt_zero, Bool.and_eq_true, decide_eq_true_eq,
    Bool.not_eq_true', List.isEmpty_eq_false_iff]

/-- The tokens stand at the places that look like one, one after the other. -/
theorem tokensFrom_eq_map (i : Nat) (points : List CodePoint) :
    tokensFrom i points
      = ((List.range points.length).filter fun k => IsTokenAt ⟨points⟩ k).map fun k =>
          ⟨i + k, runBehind ⟨points⟩ k⟩ := by
  induction points generalizing i with
  | nil => rfl
  | cons p rest ih =>
      have later : (List.range rest.length).filter (fun k => IsTokenAt ⟨p :: rest⟩ (k + 1))
          = (List.range rest.length).filter fun k => IsTokenAt ⟨rest⟩ k :=
        List.filter_congr fun k _ => by rw [decide_eq_decide, isTokenAt_succ]
      have others : (((List.range rest.length).map (· + 1)).filter
            fun k => IsTokenAt ⟨p :: rest⟩ k).map
              (fun k => HashToken.mk (i + k) (runBehind ⟨p :: rest⟩ k))
          = tokensFrom (i + 1) rest := by
        rw [ih, List.filter_map, List.map_map]
        show ((List.range rest.length).filter fun k => IsTokenAt ⟨p :: rest⟩ (k + 1)).map _ = _
        rw [later]
        refine List.map_congr_left fun k _ => ?_
        rw [Nat.add_right_comm i 1 k]
        rfl
      rw [List.length_cons, List.range_succ_eq_map, tokensFrom_cons]
      by_cases here : IsTokenAt ⟨p :: rest⟩ 0
      · rw [if_pos here, List.filter_cons, decide_eq_true here, if_pos rfl, List.map_cons, others]
        rfl
      · rw [if_neg here, List.filter_cons, decide_eq_false here, if_neg Bool.false_ne_true, others]

theorem hashTokens_eq_map (value : Text) :
    hashTokens value
      = ((List.range value.length).filter fun i => IsTokenAt value i).map fun i =>
          ⟨i, runBehind value i⟩ := by
  rw [hashTokens, tokensFrom_eq_map]
  refine List.map_congr_left fun i _ => ?_
  rw [Nat.zero_add]

/-!
### The pattern

The tokens are what a search for a hash sign and a run finds, although such a search goes on
behind each match: a run holds no hash sign.
-/

/-- A hash sign and the longest run behind it, which is captured. -/
def tokenPattern : Text.Pattern Text := do
  Text.Pattern.word [.char '#']
  Text.Pattern.run isTokenPoint

theorem head?_tokenPattern (last : Option CodePoint) (p : CodePoint) (rest : List CodePoint) :
    (¬ IsTokenAt ⟨p :: rest⟩ 0 ∧ (tokenPattern.tries ⟨last, p :: rest⟩).head? = none)
      ∨ (IsTokenAt ⟨p :: rest⟩ 0 ∧ ∃ reached, (tokenPattern.tries ⟨last, p :: rest⟩).head?
          = some (⟨rest.takeWhile isTokenPoint⟩, ⟨reached, rest.dropWhile isTokenPoint⟩)) := by
  rw [isTokenAt_zero, tokenPattern, Text.Pattern.head?_word_bind, Text.behind?]
  by_cases sign : p = .char '#'
  · subst sign
    rcases Text.Pattern.head?_runFrom isTokenPoint rest with ⟨empty, none⟩ | ⟨some, last, first⟩
    · left
      exact ⟨fun both => both.2 empty, none⟩
    · right
      exact ⟨⟨rfl, some⟩, last, first⟩
  · left
    refine ⟨fun both => sign both.1, ?_⟩
    rw [if_neg]
    · rfl
    · simp [Ne.symm sign]

/-- No token starts in a run. -/
theorem tokensFrom_append {run : List CodePoint} (inRun : ∀ p ∈ run, isTokenPoint p = true)
    (i : Nat) (rest : List CodePoint) :
    tokensFrom i (run ++ rest) = tokensFrom (i + run.length) rest := by
  induction run generalizing i with
  | nil => rfl
  | cons p others ih =>
      obtain ⟨point, further⟩ := List.forall_mem_cons.1 inRun
      have noSign : p ≠ .char '#' := by
        rintro rfl
        exact absurd point (by decide)
      rw [List.cons_append, tokensFrom_cons, if_neg fun here => noSign (isTokenAt_zero.1 here).1,
        ih further, List.length_cons, Nat.add_right_comm, Nat.add_assoc i]

theorem finds_tokensFrom (i : Nat) (last : Option CodePoint) (points : List CodePoint) :
    tokenPattern.Finds i ⟨last, points⟩
      ((tokensFrom i points).map fun token => (token.start, ⟨token.body⟩)) := by
  induction length : points.length using Nat.strong_induction_on generalizing i last points with
  | _ n ih =>
      subst length
      cases points with
      | nil => exact .ends rfl
      | cons p rest =>
          rcases head?_tokenPattern last p rest with ⟨noToken, fails⟩ | ⟨token, reached, first⟩
          · rw [tokensFrom_cons, if_neg noToken]
            exact .passes fails (ih _ (Nat.lt_succ_self _) _ _ _ rfl)
          · have whole := List.takeWhile_append_dropWhile (p := isTokenPoint) (l := rest)
            have later : tokensFrom (i + 1) rest
                = tokensFrom (i + (p :: rest.takeWhile isTokenPoint).length)
                    (rest.dropWhile isTokenPoint) := by
              conv => lhs; rw [← whole]
              rw [tokensFrom_append fun point => List.mem_takeWhile_imp, List.length_cons,
                Nat.add_right_comm, Nat.add_assoc i]
            rw [tokensFrom_cons, if_pos token, List.map_cons, later]
            refine .hits first ?_ (List.cons_ne_nil _ _) (ih _ ?_ _ _ _ rfl)
            · rw [List.cons_append, whole]
            · exact Nat.lt_succ_of_le (List.dropWhile_suffix isTokenPoint).length_le

/-- What a search through a text finds are the runs at the places of tokens, in ascending
order. -/
theorem finds_iff {value : Text} {found : List (Nat × Text)} :
    tokenPattern.Finds 0 ⟨none, value.points⟩ found
      ↔ found = ((List.range value.length).filter fun i => IsTokenAt value i).map fun i =>
          (i, ⟨runBehind value i⟩) := by
  have tokens := finds_tokensFrom 0 none value.points
  rw [← hashTokens, hashTokens_eq_map, List.map_map] at tokens
  constructor
  · intro search
    exact search.unique tokens
  · rintro rfl
    exact tokens

/-!
### Reports
-/

/-- The diagnostic about the token at a place of a declaration's value. -/
def invalidColor (severity : Severity) (declaration : Declaration) (i : Nat) : Diagnostic :=
  ⟨name, severity,
    "Unexpected invalid hex color \"#" ++ ⟨runBehind declaration.value i⟩ ++ "\" (" ++ name ++ ")",
    ⟨declaration.position.line,
      declaration.position.column + declaration.property.length + 2 + i⟩⟩

theorem findingsIn_eq_map (declaration : Declaration) :
    findingsIn declaration
      = ((List.range declaration.value.length).filter fun i => IsBadAt declaration.value i).map
          fun i => finding declaration ⟨i, runBehind declaration.value i⟩ := by
  have bad : ∀ i, (!isColor (runBehind declaration.value i)
        && decide (IsTokenAt declaration.value i))
      = decide (IsBadAt declaration.value i) := by
    intro i
    rw [Bool.eq_iff_iff, Bool.and_eq_true, Bool.not_eq_true', ← Bool.not_eq_true, isColor_iff,
      decide_eq_true_iff, decide_eq_true_iff, isBadAt_iff, and_comm]
  rw [findingsIn, hashTokens_eq_map, List.filter_map, List.filter_filter, List.map_map]
  exact congrArg _ (List.filter_congr fun i _ => bad i)

/-- A search from left to right finds a token at each place where a hash sign has a run behind
it.  Where nothing is suppressed, the rule reports for each declaration, from left to right, those
of these places where the run is no color. -/
theorem hexColor_reports (primary secondary : Value) (d : Document) (r : Recorder)
    (severity : Severity) (hears : r.Hears name severity) :
    (∀ (value : Text) (found : List (Nat × Text)),
        tokenPattern.Finds 0 ⟨none, value.points⟩ found
          ↔ found = ((List.range value.length).filter fun i => IsTokenAt value i).map fun i =>
              (i, ⟨runBehind value i⟩))
      ∧ rule.Records primary secondary d r
          (d.declarations.flatMap fun declaration =>
            ((List.range declaration.value.length).filter fun i => IsBadAt declaration.value i).map
              (invalidColor severity declaration)) := by
  refine ⟨fun value found => finds_iff, ?_⟩
  obtain ⟨examine, bound, own, _⟩ := isPlain primary secondary
  obtain rfl : (fun d => .found (findings d)) = examine := Except.ok.inj bound
  have told : (findings d).map (fun found => Offer.diagnostic ⟨severity, found⟩)
      = d.declarations.flatMap fun declaration =>
          ((List.range declaration.value.length).filter fun i => IsBadAt declaration.value i).map
            (invalidColor severity declaration) := by
    rw [findings, List.map_flatMap]
    refine List.flatMap_congr fun declaration _ => ?_
    rw [findingsIn_eq_map, List.map_map]
    rfl
  rw [← told]
  exact records_of_own bound rfl (own d) hears

/-!
Two signs in a row, a run behind each of three signs, letters that are no hexadecimal digits,
and a sign at the end.
-/

/-- A rule with two declarations. -/
def colorDocument : Document :=
  ⟨Position.origin, .null, [.rule ⟨1, 1⟩ "a"
    [.declaration ⟨2, 3⟩ "color" "##abc #12345 #ff-" false,
     .declaration ⟨3, 3⟩ "border" "#FFF #٣٣٣ #" false]]⟩

/-- A record of a run in which the rule reports warnings. -/
def colorRecord : Recorder := ⟨[(.str name, .warning)], false, [], []⟩

/-- What the rule tells about the declarations. -/
def colorWarnings : List Diagnostic :=
  [⟨name, .warning, "Unexpected invalid hex color \"#12345\" (color-no-invalid-hex)", ⟨2, 16⟩⟩,
   ⟨name, .warning, "Unexpected invalid hex color \"#ff-\" (color-no-invalid-hex)", ⟨2, 23⟩⟩,
   ⟨name, .warning, "Unexpected invalid hex color \"#٣٣٣\" (color-no-invalid-hex)", ⟨3, 16⟩⟩]

theorem hexColor_reports_warnings :
    colorRecord.Hears name .warning
      ∧ rule.Records .null .null colorDocument colorRecord colorWarnings := by
  have hears : colorRecord.Hears name .warning := ⟨rfl, by decide, by rintro ⟨⟩, fun _ => rfl⟩
  obtain ⟨_, reports⟩ := hexColor_reports .null .null colorDocument colorRecord .warning hears
  have shown : (colorDocument.declarations.flatMap fun declaration =>
        ((List.range declaration.value.length).filter fun i => IsBadAt declaration.value i).map
          (invalidColor .warning declaration))
      = colorWarnings := by
    decide +kernel
  rw [shown] at reports
  exact ⟨hears, reports⟩

end StyleAudit.HexColor
