/-
Module: StyleAudit.Proofs.Suppression.Grammar
Purpose: Which texts are directives, and what they say, told by a grammar.
Trusted boundary: none
Main exports: Directive.Announces, Directive.Lists, Directive.IsWritten, Directive.IsListable,
  Directive.parse?_eq_some_iff, Directive.isSome_parse?_iff, Directive.ruleNames_intercalate
-/
import StyleAudit.Proofs.Text.Pieces
import StyleAudit.Proofs.Text.Trimming
import StyleAudit.Suppression.Directive
import Mathlib.Data.List.Forall2

namespace StyleAudit

namespace Directive

/-!
### The grammar
-/

/-- No word goes on here: the text ends, or something follows that is no word character. -/
def EndsWord (rest : Text) : Prop :=
  ∀ p, rest.points.head? = some p → p.isA Text.isWord = false

/-- Behind white space stand the mark and the keyword of the kind, and its word ends before the
rest. -/
def Announces (t : Text) (kind : Kind) (rest : Text) : Prop :=
  (∃ lead : Text, lead.AllBlank ∧ t = lead ++ mark ++ kind.keyword ++ rest) ∧ EndsWord rest

/-- The text is made of items with commas between them, and the names are what white space at
the ends of the items leaves, the empty ones dropped. -/
def Lists (t : Text) (names : List Text) : Prop :=
  ∃ items trimmed : List Text,
    items ≠ [] ∧ (∀ item ∈ items, .char ',' ∉ item.points) ∧ t = Text.intercalate "," items
      ∧ List.Forall₂ Text.TrimsTo items trimmed
      ∧ names = trimmed.filter fun name => !name.isEmpty

/-- The keyword of a kind is tried before that of another. -/
def Kind.IsTriedBefore (earlier kind : Kind) : Prop :=
  Kind.all.idxOf earlier < Kind.all.idxOf kind

/-- The text is the directive, written out: it announces the kind and no kind that is tried
before, and lists the rules. -/
def IsWritten (d : Directive) (t : Text) : Prop :=
  (∃ rest, Announces t d.kind rest ∧ Lists rest d.rules)
    ∧ ∀ earlier : Kind, earlier.IsTriedBefore d.kind → ∀ rest, ¬ Announces t earlier rest

/-- A name that can be listed: it is not empty, holds no comma, and has no white space at
either end. -/
def IsListable (name : Text) : Prop :=
  name.points ≠ [] ∧ .char ',' ∉ name.points ∧ name.HasBareEnds

instance (name : Text) : Decidable (IsListable name) :=
  inferInstanceAs (Decidable (_ ∧ _ ∧ _))

/-!
### Rule names
-/

theorem comma_not_mem_of_allBlank {t : Text} (blank : t.AllBlank) : .char ',' ∉ t.points := by
  intro member
  have isBlank : Text.isBlank ',' = true := blank _ member
  revert isBlank
  decide

theorem lists_iff {t : Text} {names : List Text} : Lists t names ↔ ruleNames t = names := by
  have trims : ∀ items trimmed : List Text,
      List.Forall₂ Text.TrimsTo items trimmed ↔ items.map Text.trim = trimmed := by
    intro items trimmed
    have same : Text.TrimsTo = fun t name => t.trim = name := by
      funext t name
      exact propext Text.trimsTo_iff
    rw [same, ← List.forall₂_map_left_iff, List.forall₂_eq_eq_eq]
  constructor
  · rintro ⟨items, trimmed, filled, bare, joined, trimsTo, rfl⟩
    have split : t.splitOn ',' = items := Text.splitOn_eq_iff.2 ⟨filled, bare, joined⟩
    rw [ruleNames, split, (trims items trimmed).1 trimsTo]
  · intro listed
    obtain ⟨filled, bare, joined⟩ := Text.splitOn_eq_iff.1 (rfl : t.splitOn ',' = _)
    exact ⟨t.splitOn ',', _, filled, bare, joined, (trims _ _).2 rfl, listed.symm⟩

/-- White space in front of a list does not change the names. -/
theorem ruleNames_append_left {lead : Text} (blank : lead.AllBlank) (t : Text) :
    ruleNames (lead ++ t) = ruleNames t := by
  have longer := Text.pieces_append_of_not_mem (comma_not_mem_of_allBlank blank) t.points
  unfold ruleNames Text.splitOn
  rw [Text.points_append, longer]
  cases Text.pieces (.char ',') t.points with
  | nil => rfl
  | cons piece others =>
      have same : Text.trim ⟨lead.points ++ piece⟩ = Text.trim ⟨piece⟩ :=
        Text.trim_append_left blank ⟨piece⟩
      simp [same]

/-- White space behind a list does not change the names. -/
theorem ruleNames_append {trail : Text} (blank : trail.AllBlank) (t : Text) :
    ruleNames (t ++ trail) = ruleNames t := by
  obtain ⟨before, piece, split, splitLonger⟩ :=
    Text.exists_pieces_append (comma_not_mem_of_allBlank blank) t.points
  have same : Text.trim ⟨piece ++ trail.points⟩ = Text.trim ⟨piece⟩ :=
    Text.trim_append blank ⟨piece⟩
  unfold ruleNames Text.splitOn
  rw [Text.points_append, split, splitLonger]
  simp [same]

theorem ruleNames_trim (t : Text) : ruleNames t.trim = ruleNames t := by
  obtain ⟨lead, trail, blankLead, blankTrail, whole, _⟩ := Text.trimsTo_iff.2 (rfl : t.trim = _)
  calc ruleNames t.trim
      = ruleNames (lead ++ t.trim ++ trail) := by
        rw [ruleNames_append blankTrail, ruleNames_append_left blankLead]
    _ = ruleNames t := by rw [← whole]

/-- Names that can be listed are read back from the list of them. -/
theorem ruleNames_intercalate {names : List Text} (listable : ∀ name ∈ names, IsListable name) :
    ruleNames (Text.intercalate ", " names) = names := by
  induction names with
  | nil => rfl
  | cons name rest ih =>
      obtain ⟨⟨filled, bare, trimmed⟩, listableRest⟩ := List.forall_mem_cons.1 listable
      have kept : name.isEmpty = false := Bool.eq_false_iff.2 fun h => filled (List.isEmpty_iff.1 h)
      cases rest with
      | nil =>
          have single : Text.pieces (.char ',') name.points = [name.points] := by
            simpa [Text.pieces] using Text.pieces_append_of_not_mem bare []
          have whole : Text.intercalate ", " [name] = name := by
            apply Text.ext
            simp [Text.points_intercalate]
          rw [whole, ruleNames, Text.splitOn, single]
          simp [Text.trim_eq_self trimmed, kept]
      | cons second others =>
          have whole : (Text.intercalate ", " (name :: second :: others)).points
              = name.points ++ .char ','
                :: ((" " : Text) ++ Text.intercalate ", " (second :: others)).points := by
            simp [Text.points_intercalate, Text.ofString, Text.ofChars]
          have blank : Text.AllBlank " " := by decide
          have behind := (ruleNames_append_left blank _).trans (ih listableRest)
          rw [ruleNames, Text.splitOn] at behind
          rw [ruleNames, Text.splitOn, whole, Text.pieces_append_separator bare, List.map_cons,
            List.map_cons, List.filter_cons_of_pos, behind]
          · rw [Text.trim_eq_self trimmed]
          · simp [Text.trim_eq_self trimmed, kept]

/-!
### Keywords
-/

theorem behind?_eq_some_iff {t start rest : Text} :
    t.behind? start = some rest ↔ t = start ++ rest := by
  unfold Text.behind?
  constructor
  · intro found
    split at found
    · rename_i starts
      obtain ⟨behind, whole⟩ := List.isPrefixOf_iff_prefix.1 starts
      rw [Option.some.injEq] at found
      apply Text.ext
      rw [← found, Text.points_append, ← whole, Text.length, List.drop_left]
    · cases found
  · intro whole
    have starts : start.points.isPrefixOf t.points = true :=
      List.isPrefixOf_iff_prefix.2 ⟨rest.points, by rw [whole]; rfl⟩
    rw [if_pos starts, whole, Text.points_append, Text.length, List.drop_left]

theorem endsWord_iff {rest : Text} : endsWord rest = true ↔ EndsWord rest := by
  unfold endsWord EndsWord
  cases rest.points.head? with
  | none => simp
  | some p => simp

theorem behindKeyword?_eq_some_iff {kind : Kind} {t rest : Text} :
    behindKeyword? kind t = some rest ↔ t = kind.keyword ++ rest ∧ EndsWord rest := by
  rw [behindKeyword?, Option.filter_eq_some_iff, behind?_eq_some_iff, endsWord_iff]

/-- White space in front of the mark is all that can stand there. -/
theorem trimLeft_mark {lead : Text} (blank : lead.AllBlank) (rest : Text) :
    (lead ++ mark ++ rest).trimLeft = mark ++ rest := by
  rw [Text.append_assoc, Text.trimLeft_append blank]
  rfl

theorem announces_iff {t : Text} {kind : Kind} {rest : Text} :
    Announces t kind rest ↔
      ∃ behind, t.trimLeft.behind? mark = some behind ∧ behindKeyword? kind behind = some rest := by
  constructor
  · rintro ⟨⟨lead, blank, rfl⟩, ends⟩
    refine ⟨kind.keyword ++ rest, behind?_eq_some_iff.2 ?_,
      behindKeyword?_eq_some_iff.2 ⟨rfl, ends⟩⟩
    rw [Text.append_assoc, trimLeft_mark blank]
  · rintro ⟨behind, marked, announced⟩
    obtain ⟨rfl, ends⟩ := behindKeyword?_eq_some_iff.1 announced
    obtain ⟨lead, blank, whole⟩ := t.exists_trimLeft
    rw [behind?_eq_some_iff.1 marked] at whole
    exact ⟨⟨lead, blank, by rw [whole]; simp only [Text.append_assoc]⟩, ends⟩

/-- Of the kinds for which something is found, the one that counts is tried before the
others. -/
theorem findSome?_all_eq_some_iff {β : Type} {find : Kind → Option β} {found : β} :
    Kind.all.findSome? find = some found ↔
      ∃ kind, find kind = some found
        ∧ ∀ earlier : Kind, earlier.IsTriedBefore kind → find earlier = none := by
  have mem_before : ∀ {before after : List Kind} {kind : Kind}, Kind.all = before ++ kind :: after →
      ∀ earlier : Kind, earlier ∈ before ↔ earlier.IsTriedBefore kind := by
    intro before after kind split earlier
    have once : (before ++ kind :: after).Nodup := split ▸ (by decide : Kind.all.Nodup)
    have fresh : kind ∉ before := fun member =>
      (List.nodup_append.1 once).2.2 kind member kind List.mem_cons_self rfl
    unfold Kind.IsTriedBefore
    rw [split, List.idxOf_append_of_notMem fresh, List.idxOf_cons_self, Nat.add_zero]
    by_cases member : earlier ∈ before
    · rw [List.idxOf_append_of_mem member]
      exact iff_of_true member (List.idxOf_lt_length_iff.2 member)
    · rw [List.idxOf_append_of_notMem member]
      exact iff_of_false member (by omega)
  rw [List.findSome?_eq_some_iff]
  constructor
  · rintro ⟨before, kind, after, split, finds, nothing⟩
    exact ⟨kind, finds, fun earlier tried => nothing earlier ((mem_before split earlier).2 tried)⟩
  · rintro ⟨kind, finds, nothing⟩
    have listed : kind ∈ Kind.all := by cases kind <;> decide
    obtain ⟨before, after, split⟩ := List.append_of_mem listed
    exact ⟨before, kind, after, split, finds, fun earlier member =>
      nothing earlier ((mem_before split earlier).1 member)⟩

/-- What a text says when it announces a kind. -/
def readAs? (t : Text) (kind : Kind) : Option Directive :=
  (t.trimLeft.behind? mark).bind fun behind =>
    (behindKeyword? kind behind).map fun names => ⟨kind, ruleNames names⟩

theorem parse?_eq_findSome? (t : Text) : parse? t = Kind.all.findSome? (readAs? t) := by
  unfold parse? readAs?
  cases t.trimLeft.behind? mark with
  | none => rfl
  | some behind => rfl

theorem readAs?_eq_some_iff {t : Text} {kind : Kind} {d : Directive} :
    readAs? t kind = some d ↔ ∃ rest, Announces t kind rest ∧ d = ⟨kind, ruleNames rest⟩ := by
  simp only [readAs?, Option.bind_eq_some_iff, Option.map_eq_some_iff, announces_iff]
  constructor
  · rintro ⟨behind, marked, rest, announced, rfl⟩
    exact ⟨rest, ⟨behind, marked, announced⟩, rfl⟩
  · rintro ⟨rest, ⟨behind, marked, announced⟩, rfl⟩
    exact ⟨behind, marked, rest, announced, rfl⟩

theorem readAs?_eq_none_iff {t : Text} {kind : Kind} :
    readAs? t kind = none ↔ ∀ rest, ¬ Announces t kind rest := by
  constructor
  · intro nothing rest announces
    have something := readAs?_eq_some_iff.2 ⟨rest, announces, rfl⟩
    rw [nothing] at something
    cases something
  · intro silent
    cases read : readAs? t kind with
    | none => rfl
    | some d =>
        obtain ⟨rest, announces, _⟩ := readAs?_eq_some_iff.1 read
        exact absurd announces (silent rest)

/-- A text is read as a directive exactly when it is that directive, written out. -/
theorem parse?_eq_some_iff {t : Text} {d : Directive} : parse? t = some d ↔ d.IsWritten t := by
  rw [parse?_eq_findSome?, findSome?_all_eq_some_iff]
  simp only [readAs?_eq_some_iff, readAs?_eq_none_iff, IsWritten, lists_iff]
  constructor
  · rintro ⟨kind, ⟨rest, announces, rfl⟩, silent⟩
    exact ⟨⟨rest, announces, rfl⟩, silent⟩
  · rintro ⟨⟨rest, announces, listed⟩, silent⟩
    exact ⟨d.kind, ⟨rest, announces, by rw [listed]⟩, silent⟩

/-- A text is a directive exactly when it announces a kind. -/
theorem isSome_parse?_iff {t : Text} :
    (parse? t).isSome = true ↔ ∃ kind rest, Announces t kind rest := by
  rw [parse?_eq_findSome?, List.findSome?_isSome_iff]
  constructor
  · rintro ⟨kind, _, something⟩
    obtain ⟨d, read⟩ := Option.isSome_iff_exists.1 something
    obtain ⟨rest, announces, _⟩ := readAs?_eq_some_iff.1 read
    exact ⟨kind, rest, announces⟩
  · rintro ⟨kind, rest, announces⟩
    have listed : kind ∈ Kind.all := by cases kind <;> decide
    exact ⟨kind, listed, Option.isSome_iff_exists.2
      ⟨_, readAs?_eq_some_iff.2 ⟨rest, announces, rfl⟩⟩⟩

end Directive

end StyleAudit
