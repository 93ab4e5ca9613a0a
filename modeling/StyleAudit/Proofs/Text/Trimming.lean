/-
Module: StyleAudit.Proofs.Text.Trimming
Purpose: What cutting white space off the ends of a text leaves, told by the text itself.
Trusted boundary: none
Main exports: Text.AllBlank, Text.HasBareEnds, Text.TrimsTo, Text.trimsTo_iff, Text.trim_append
-/
import StyleAudit.Text.Blank
import Mathlib.Data.List.DropRight

namespace StyleAudit.Text

/-- The text holds nothing but white space. -/
def AllBlank (t : Text) : Prop :=
  ∀ p ∈ t.points, p.isA isBlank = true

instance (t : Text) : Decidable t.AllBlank :=
  inferInstanceAs (Decidable (∀ p ∈ t.points, p.isA isBlank = true))

/-- The text has no white space at either end. -/
def HasBareEnds (t : Text) : Prop :=
  (∀ p, t.points.head? = some p → p.isA isBlank = false)
    ∧ ∀ p, t.points.getLast? = some p → p.isA isBlank = false

instance (t : Text) : Decidable t.HasBareEnds :=
  inferInstanceAs (Decidable ((∀ p ∈ t.points.head?, _) ∧ ∀ p ∈ t.points.getLast?, _))

/-- The name is what is left of the text without the white space at its ends. -/
def TrimsTo (t name : Text) : Prop :=
  ∃ lead trail : Text, lead.AllBlank ∧ trail.AllBlank ∧ t = lead ++ name ++ trail
    ∧ name.HasBareEnds

/-!
### One end
-/

theorem trimLeft_append {lead : Text} (blank : lead.AllBlank) (t : Text) :
    (lead ++ t).trimLeft = t.trimLeft :=
  ext (List.dropWhile_append_of_pos blank)

theorem trimRight_append {trail : Text} (blank : trail.AllBlank) (t : Text) :
    (t ++ trail).trimRight = t.trimRight := by
  have reversed : ∀ p ∈ trail.points.reverse, p.isA isBlank = true :=
    fun p member => blank p (List.mem_reverse.1 member)
  rw [trimRight, trimRight, points_append, List.reverse_append,
    List.dropWhile_append_of_pos reversed]

theorem exists_trimLeft (t : Text) :
    ∃ lead : Text, lead.AllBlank ∧ t = lead ++ t.trimLeft := by
  refine ⟨⟨t.points.takeWhile (·.isA isBlank)⟩, ?_, ext ?_⟩
  · intro p member
    exact List.mem_takeWhile_imp member
  · exact List.takeWhile_append_dropWhile.symm

theorem exists_trimRight (t : Text) :
    ∃ trail : Text, trail.AllBlank ∧ t = t.trimRight ++ trail := by
  refine ⟨⟨t.points.rtakeWhile (·.isA isBlank)⟩, ?_, ext ?_⟩
  · intro p member
    exact List.mem_rtakeWhile_imp member
  · exact List.rdropWhile_append_rtakeWhile.symm

/-- White space in front is not there when the text starts with something else. -/
theorem trimLeft_eq_self {t : Text} (bare : ∀ p, t.points.head? = some p → p.isA isBlank = false) :
    t.trimLeft = t := by
  obtain ⟨points⟩ := t
  cases points with
  | nil => rfl
  | cons p rest =>
      apply ext
      rw [trimLeft, List.dropWhile_cons_of_neg]
      simp [bare p rfl]

theorem trimRight_eq_self {t : Text}
    (bare : ∀ p, t.points.getLast? = some p → p.isA isBlank = false) : t.trimRight = t := by
  apply ext
  refine List.rdropWhile_eq_self_iff.2 ?_
  intro filled
  simp [bare _ (List.getLast?_eq_some_getLast filled)]

/-- Behind a character that is kept, the text is trimmed as it would be alone. -/
theorem trimRight_cons {p : CodePoint} {rest : List CodePoint}
    (ink : ¬ AllBlank ⟨p :: rest⟩) : trimRight ⟨p :: rest⟩ = ⟨p :: (trimRight ⟨rest⟩).points⟩ := by
  rw [trimRight, trimRight, List.reverse_cons, List.dropWhile_append]
  by_cases blank : AllBlank ⟨rest⟩
  · have nothing : rest.reverse.dropWhile (·.isA isBlank) = [] :=
      List.dropWhile_eq_nil_iff.2 fun q member => blank q (List.mem_reverse.1 member)
    have kept : p.isA isBlank = false := Bool.eq_false_iff.2 fun first =>
      ink (List.forall_mem_cons.2 ⟨first, blank⟩)
    simp [nothing, kept]
  · have filled : ¬ (rest.reverse.dropWhile (·.isA isBlank)).isEmpty = true := by
      rw [List.isEmpty_iff, List.dropWhile_eq_nil_iff]
      exact fun all => blank fun q member => all q (List.mem_reverse.2 member)
    simp [filled]

theorem trimRight_of_allBlank {t : Text} (blank : t.AllBlank) : t.trimRight = ⟨[]⟩ :=
  ext (List.rdropWhile_eq_nil_iff.2 blank)

/-!
### Both ends
-/

theorem trim_append_left {lead : Text} (blank : lead.AllBlank) (t : Text) :
    (lead ++ t).trim = t.trim := by
  rw [trim, trimLeft_append blank, trim]

theorem trim_of_allBlank {t : Text} (blank : t.AllBlank) : t.trim = "" := by
  have nothing : t.trimLeft = ⟨[]⟩ := ext (List.dropWhile_eq_nil_iff.2 blank)
  rw [trim, nothing]
  rfl

theorem trim_append {trail : Text} (blank : trail.AllBlank) (t : Text) :
    (t ++ trail).trim = t.trim := by
  have split : (t ++ trail).trimLeft.points = _ := List.dropWhile_append
  by_cases empty : t.AllBlank
  · have longer : (t ++ trail).AllBlank := List.forall_mem_append.2 ⟨empty, blank⟩
    rw [trim_of_allBlank empty, trim_of_allBlank longer]
  · have filled : ¬ (t.points.dropWhile (·.isA isBlank)).isEmpty = true := by
      rw [List.isEmpty_iff, List.dropWhile_eq_nil_iff]
      exact empty
    rw [if_neg filled] at split
    have longer : (t ++ trail).trimLeft = t.trimLeft ++ trail := ext split
    rw [trim, longer, trimRight_append blank, trim]

theorem trim_eq_self {t : Text} (bare : t.HasBareEnds) : t.trim = t := by
  rw [trim, trimLeft_eq_self bare.1, trimRight_eq_self bare.2]

theorem hasBareEnds_trim (t : Text) : t.trim.HasBareEnds := by
  constructor
  · intro p first
    -- What is left begins as the text does behind its leading white space.
    obtain ⟨behind, whole⟩ := List.rdropWhile_prefix (·.isA isBlank) t.trimLeft.points
    have starts : t.trimLeft.points.head? = some p := by
      rw [← whole, List.head?_append, show List.rdropWhile _ _ = t.trim.points from rfl, first]
      rfl
    have ink := List.head?_dropWhile_not (·.isA isBlank) t.points
    rw [show t.points.dropWhile (·.isA isBlank) = t.trimLeft.points from rfl, starts] at ink
    exact ink
  · intro p last
    have filled : t.trimLeft.points.rdropWhile (·.isA isBlank) ≠ [] := by
      intro empty
      rw [show t.trim.points = [] from empty] at last
      cases last
    have ink := List.rdropWhile_last_not _ _ filled
    have same := last.symm.trans (List.getLast?_eq_some_getLast filled)
    rw [Option.some.inj same]
    exact Bool.eq_false_iff.2 ink

/-- Trimming gives the one text without white space at its ends to which white space can be
added at both ends to get the text again. -/
theorem trimsTo_iff {t name : Text} : t.TrimsTo name ↔ t.trim = name := by
  constructor
  · rintro ⟨lead, trail, blankLead, blankTrail, rfl, bare⟩
    rw [trim_append blankTrail, trim_append_left blankLead, trim_eq_self bare]
  · rintro rfl
    obtain ⟨lead, blankLead, split⟩ := t.exists_trimLeft
    obtain ⟨trail, blankTrail, splitRight⟩ := t.trimLeft.exists_trimRight
    refine ⟨lead, trail, blankLead, blankTrail, ?_, hasBareEnds_trim t⟩
    rw [append_assoc, trim, ← splitRight]
    exact split

end StyleAudit.Text
