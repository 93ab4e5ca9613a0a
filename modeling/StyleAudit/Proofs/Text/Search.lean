/-
Module: StyleAudit.Proofs.Text.Search
Purpose: Searches for all matches of a pattern in a text, each from the end of the one before.
Trusted boundary: none
Main exports: Text.Pattern.run, Text.Pattern.Finds, Text.Pattern.Finds.unique
-/
import StyleAudit.Proofs.Text.Pattern

namespace StyleAudit.Text.Pattern

variable {α : Type}

/-!
### Runs
-/

/-- As many code points of a class as there are; then one less, and so on, but one at least. -/
def runFrom (isIn : CodePoint → Bool) : List CodePoint → List (Text × Place)
  | [] => []
  | p :: rest =>
      if isIn p then
        (runFrom isIn rest).map (fun found => (⟨p :: found.1.points⟩, found.2))
          ++ [(⟨[p]⟩, ⟨some p, rest⟩)]
      else []

/-- One or more code points of a class, the more the better; they are captured. -/
def run (isIn : CodePoint → Bool) : Pattern Text where
  tries place := runFrom isIn place.ahead

/-- The first run is the longest one. -/
theorem head?_runFrom (isIn : CodePoint → Bool) (ahead : List CodePoint) :
    (ahead.takeWhile isIn = [] ∧ (runFrom isIn ahead).head? = none)
      ∨ (ahead.takeWhile isIn ≠ [] ∧ ∃ last, (runFrom isIn ahead).head?
          = some (⟨ahead.takeWhile isIn⟩, ⟨last, ahead.dropWhile isIn⟩)) := by
  induction ahead with
  | nil => exact .inl ⟨rfl, rfl⟩
  | cons p rest ih =>
      by_cases inClass : isIn p = true
      · right
        rw [List.takeWhile_cons_of_pos inClass, List.dropWhile_cons_of_pos inClass, runFrom,
          if_pos inClass, List.head?_append, List.head?_map]
        refine ⟨List.cons_ne_nil _ _, ?_⟩
        rcases ih with ⟨noMore, none⟩ | ⟨_, last, further⟩
        · refine ⟨some p, ?_⟩
          have left : rest.dropWhile isIn = rest := by
            have whole := List.takeWhile_append_dropWhile (p := isIn) (l := rest)
            rwa [noMore, List.nil_append] at whole
          rw [none, noMore, left]
          rfl
        · refine ⟨last, ?_⟩
          rw [further]
          rfl
      · left
        rw [List.takeWhile_cons_of_neg inClass, runFrom, if_neg inClass]
        exact ⟨rfl, rfl⟩

/-!
### Searches
-/

/-- What a search finds from a place of a text on: the matches with their starts.  The pattern
is tried at one place after the other, and behind a match the search goes on at its end. -/
inductive Finds (pattern : Pattern α) : Nat → Place → List (Nat × α) → Prop where
  | ends {i : Nat} {last : Option CodePoint}
      (fails : (pattern.tries ⟨last, []⟩).head? = none) : Finds pattern i ⟨last, []⟩ []
  | passes {i : Nat} {last : Option CodePoint} {p : CodePoint} {rest : List CodePoint}
      {found : List (Nat × α)} (fails : (pattern.tries ⟨last, p :: rest⟩).head? = none)
      (later : Finds pattern (i + 1) ⟨some p, rest⟩ found) :
      Finds pattern i ⟨last, p :: rest⟩ found
  | hits {i : Nat} {place reached : Place} {a : α} {matched : List CodePoint}
      {found : List (Nat × α)} (first : (pattern.tries place).head? = some (a, reached))
      (split : place.ahead = matched ++ reached.ahead) (moves : matched ≠ [])
      (later : Finds pattern (i + matched.length) reached found) :
      Finds pattern i place ((i, a) :: found)

/-- There is one thing to find only. -/
theorem Finds.unique {pattern : Pattern α} {i : Nat} {place : Place} {found others : List (Nat × α)}
    (one : pattern.Finds i place found) (other : pattern.Finds i place others) :
    found = others := by
  induction one generalizing others with
  | ends fails =>
      cases other with
      | ends _ => rfl
      | hits first _ _ _ =>
          rw [fails] at first
          cases first
  | passes fails _ ih =>
      cases other with
      | passes _ later => exact ih later
      | hits first _ _ _ =>
          rw [fails] at first
          cases first
  | hits first split _ _ ih =>
      cases other with
      | ends fails =>
          rw [fails] at first
          cases first
      | passes fails _ =>
          rw [fails] at first
          cases first
      | hits again splitAgain _ later =>
          rw [first] at again
          cases again
          rw [split] at splitAgain
          cases List.append_cancel_right splitAgain
          rw [ih later]

end StyleAudit.Text.Pattern
