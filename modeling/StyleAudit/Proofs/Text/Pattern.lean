/-
Module: StyleAudit.Proofs.Text.Pattern
Purpose: Patterns that try one way to match after another, and which of the ways comes first.
Trusted boundary: none
Main exports: Text.Pattern, Text.Pattern.firstMatch, Text.Pattern.head?_bind,
  Text.Pattern.findSome?_skipFrom, Text.Pattern.head?_skipFrom
-/
import StyleAudit.Text.Word
import StyleAudit.Proofs.Text.Trimming

namespace StyleAudit.Text

/-!
### Patterns

A pattern lists the ways in which it matches from a place on, in the order in which they are
tried.  A pattern behind another one is tried at every place that the first one reaches, and
the first way to get through all of them is the match.
-/

/-- How far a match has got: the code point behind it, if there is one, and those ahead. -/
structure Place where
  last : Option CodePoint
  ahead : List CodePoint

/-- The ways to match from a place, each with what it captures and the place that it reaches. -/
structure Pattern (α : Type) where
  tries : Place → List (α × Place)

namespace Pattern

variable {α β : Type}

instance : Monad Pattern where
  pure a := ⟨fun place => [(a, place)]⟩
  bind first next :=
    ⟨fun place => (first.tries place).flatMap fun found => (next found.1).tries found.2⟩

/-- The given code points. -/
def word (points : List CodePoint) : Pattern Unit where
  tries place :=
    if points.isPrefixOf place.ahead then
      [((), ⟨points.getLast?.or place.last, place.ahead.drop points.length⟩)]
    else []

/-- Any of some patterns, the earlier ones first. -/
def oneOf (choices : List (Pattern α)) : Pattern α where
  tries place := choices.flatMap fun choice => choice.tries place

/-- As many code points of a class as there are; then one less, and so on. -/
def skipFrom (isIn : CodePoint → Bool) : Option CodePoint → List CodePoint → List (Unit × Place)
  | last, [] => [((), ⟨last, []⟩)]
  | last, p :: rest =>
      if isIn p then skipFrom isIn (some p) rest ++ [((), ⟨last, p :: rest⟩)]
      else [((), ⟨last, p :: rest⟩)]

/-- Any number of code points of a class, the more the better. -/
def skip (isIn : CodePoint → Bool) : Pattern Unit where
  tries place := skipFrom isIn place.last place.ahead

/-- No code point; then one, and so on. -/
def fewestFrom : Option CodePoint → List CodePoint → List (Text × Place)
  | last, [] => [(⟨[]⟩, ⟨last, []⟩)]
  | last, p :: rest =>
      (⟨[]⟩, ⟨last, p :: rest⟩)
        :: (fewestFrom (some p) rest).map fun found => (⟨p :: found.1.points⟩, found.2)

/-- Any number of any code points, the fewer the better; they are captured. -/
def fewest : Pattern Text where
  tries place := fewestFrom place.last place.ahead

/-- The code point, if there is one, is a word character. -/
def isInWord (p : Option CodePoint) : Bool :=
  p.any (·.isA isWord)

/-- A word begins or ends here. -/
def wordBoundary : Pattern Unit where
  tries place := if isInWord place.last != isInWord place.ahead.head? then [((), place)] else []

/-- The text ends here, or behind one line feed. -/
def textEnd : Pattern Unit where
  tries place := if place.ahead = [] ∨ place.ahead = [.char '\n'] then [((), place)] else []

/-- What the first way to match from the start of a text captures. -/
def firstMatch (pattern : Pattern α) (t : Text) : Option α :=
  (pattern.tries ⟨none, t.points⟩).head?.map (·.1)

/-!
### The first way
-/

theorem head?_bind (first : Pattern α) (next : α → Pattern β) (place : Place) :
    ((first >>= next).tries place).head? =
      (first.tries place).findSome? fun found => ((next found.1).tries found.2).head? :=
  List.head?_flatMap

theorem bind_assoc {γ : Type} (first : Pattern α) (next : α → Pattern β) (last : β → Pattern γ) :
    first >>= next >>= last = first >>= fun a => next a >>= last :=
  congrArg Pattern.mk (funext fun _ => List.flatMap_assoc)

theorem pure_bind (a : α) (next : α → Pattern β) : pure a >>= next = next a :=
  congrArg Pattern.mk (funext fun _ => List.flatMap_singleton _ _)

theorem head?_word_bind (points : List CodePoint) (next : Unit → Pattern β) (place : Place) :
    ((word points >>= next).tries place).head? =
      (behind? ⟨place.ahead⟩ ⟨points⟩).bind fun rest =>
        ((next ()).tries ⟨points.getLast?.or place.last, rest.points⟩).head? := by
  rw [head?_bind, word, behind?]
  simp only
  split
  · exact List.findSome?_singleton
  · rfl

theorem head?_oneOf_bind {ι : Type} (items : List ι) (choice : ι → Pattern α)
    (next : α → Pattern β) (place : Place) :
    ((oneOf (items.map choice) >>= next).tries place).head? =
      items.findSome? fun item => ((choice item >>= next).tries place).head? := by
  have spread : (oneOf (items.map choice) >>= next).tries place
      = items.flatMap fun item => (choice item >>= next).tries place := by
    show List.flatMap _ (List.flatMap _ (items.map choice)) = _
    rw [List.flatMap_map, List.flatMap_assoc]
    rfl
  rw [spread, List.head?_flatMap]

theorem head?_wordBoundary_bind (next : Unit → Pattern β) (place : Place) :
    ((wordBoundary >>= next).tries place).head? =
      if isInWord place.last != isInWord place.ahead.head? then ((next ()).tries place).head?
      else none := by
  rw [head?_bind, wordBoundary]
  simp only
  split
  · exact List.findSome?_singleton
  · rfl

/-- When nothing leads on from a place with a code point of the class ahead, only the place
behind all of them counts. -/
theorem findSome?_skipFrom {isIn : CodePoint → Bool} (next : Unit × Place → Option β)
    (dead : ∀ last p rest, isIn p = true → next ((), ⟨last, p :: rest⟩) = none)
    (last : Option CodePoint) (ahead : List CodePoint) :
    ∃ reached, (skipFrom isIn last ahead).findSome? next
      = next ((), ⟨reached, ahead.dropWhile isIn⟩) := by
  induction ahead generalizing last with
  | nil => exact ⟨last, by simp [skipFrom]⟩
  | cons p rest ih =>
      by_cases skipped : isIn p = true
      · obtain ⟨reached, found⟩ := ih (some p)
        refine ⟨reached, ?_⟩
        rw [skipFrom, if_pos skipped, List.findSome?_append, found, List.findSome?_singleton,
          dead last p rest skipped, Option.or_none, List.dropWhile_cons_of_pos skipped]
      · refine ⟨last, ?_⟩
        rw [skipFrom, if_neg skipped, List.findSome?_singleton,
          List.dropWhile_cons_of_neg skipped]

/-- The first way to skip code points of a class is to skip all of them. -/
theorem head?_skipFrom (isIn : CodePoint → Bool) (last : Option CodePoint)
    (ahead : List CodePoint) :
    ∃ reached, (skipFrom isIn last ahead).head?
      = some ((), ⟨reached, ahead.dropWhile isIn⟩) := by
  induction ahead generalizing last with
  | nil => exact ⟨last, rfl⟩
  | cons p rest ih =>
      by_cases skipped : isIn p = true
      · obtain ⟨reached, found⟩ := ih (some p)
        refine ⟨reached, ?_⟩
        rw [skipFrom, if_pos skipped, List.head?_append, found,
          List.dropWhile_cons_of_pos skipped]
        rfl
      · refine ⟨last, ?_⟩
        rw [skipFrom, if_neg skipped, List.dropWhile_cons_of_neg skipped]
        rfl

/-- Whatever is skipped, what is left is the end of what was ahead. -/
theorem suffix_of_mem_skipFrom {isIn : CodePoint → Bool} {last : Option CodePoint}
    {ahead : List CodePoint} {found : Unit × Place} (tried : found ∈ skipFrom isIn last ahead) :
    ∃ skipped, ahead = skipped ++ found.2.ahead ∧ ∀ p ∈ skipped, isIn p = true := by
  induction ahead generalizing last with
  | nil =>
      rw [skipFrom, List.mem_singleton] at tried
      subst tried
      exact ⟨[], rfl, List.forall_mem_nil _⟩
  | cons p rest ih =>
      rw [skipFrom] at tried
      by_cases inClass : isIn p = true
      · rw [if_pos inClass, List.mem_append, List.mem_singleton] at tried
        rcases tried with further | rfl
        · obtain ⟨skipped, split, all⟩ := ih further
          exact ⟨p :: skipped, by rw [split, List.cons_append],
            List.forall_mem_cons.2 ⟨inClass, all⟩⟩
        · exact ⟨[], rfl, List.forall_mem_nil _⟩
      · rw [if_neg inClass, List.mem_singleton] at tried
        subst tried
        exact ⟨[], rfl, List.forall_mem_nil _⟩

end Pattern

end StyleAudit.Text
