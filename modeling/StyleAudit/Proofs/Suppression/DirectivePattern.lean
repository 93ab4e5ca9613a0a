/-
Module: StyleAudit.Proofs.Suppression.DirectivePattern
Purpose: The pattern of directives, tried in every way, first finds what the reader of
  directives finds; and what is written by the grammar is read back.
Trusted boundary: none
Main exports: Directive.pattern, Directive.firstMatch_pattern, Directive.parse?_eq_firstMatch,
  directive?_iff_isWritten
-/
import StyleAudit.Proofs.Suppression.Grammar
import StyleAudit.Proofs.Text.Pattern

namespace StyleAudit

namespace Directive

open Text (Pattern Place)

/-!
### The pattern
-/

/-- White space, as much as there is. -/
def spaces : Pattern Unit :=
  Pattern.skip (·.isA Text.isBlank)

/-- The rest of a text without the white space at its ends. -/
def listPattern : Pattern Text := do
  spaces
  let list ← Pattern.fewest
  spaces
  Pattern.textEnd
  return list

/-- The keyword of a kind. -/
def keywordPattern (kind : Kind) : Pattern Kind := do
  Pattern.word (Text.ofString kind.keyword).points
  return kind

/-- A keyword at the end of a word, and a list. -/
def bodyPattern : Pattern (Kind × Text) := do
  let kind ← Pattern.oneOf (Kind.all.map keywordPattern)
  Pattern.wordBoundary
  let list ← listPattern
  return (kind, list)

/-- White space, the mark, a keyword at the end of a word, and a list. -/
def pattern : Pattern (Kind × Text) := do
  spaces
  Pattern.word mark.points
  bodyPattern

/-!
### The list
-/

theorem findSome?_of_head? {α β : Type} {items : List α} {next : α → Option β} {first : α}
    {found : β} (starts : items.head? = some first) (finds : next first = some found) :
    items.findSome? next = some found := by
  cases items with
  | nil => cases starts
  | cons item rest =>
      cases starts
      rw [List.findSome?_cons, finds]

/-- White space and the end of the text, behind what was captured. -/
def closing (list : Text) : Pattern Text := do
  spaces
  Pattern.textEnd
  return list

/-- Only white space can stand before the end. -/
theorem head?_closing_of_ink {list : Text} {place : Place}
    (ink : ¬ Text.AllBlank ⟨place.ahead⟩) : ((closing list).tries place).head? = none := by
  rw [closing, Pattern.head?_bind, List.findSome?_eq_none_iff]
  intro found tried
  obtain ⟨skipped, split, blank⟩ := Pattern.suffix_of_mem_skipFrom tried
  have left : ¬ Text.AllBlank ⟨found.2.ahead⟩ := by
    intro all
    apply ink
    intro p member
    rw [split, List.mem_append] at member
    exact member.elim (blank p) (all p)
  have goesOn : ¬ (found.2.ahead = [] ∨ found.2.ahead = [.char '\n']) := by
    rintro (empty | lineFeed)
    · exact left (by rw [empty]; decide)
    · exact left (by rw [lineFeed]; decide)
  rw [Pattern.head?_bind, Pattern.textEnd]
  simp only [if_neg goesOn]
  rfl

theorem head?_closing_of_allBlank (list : Text) (place : Place)
    (blank : Text.AllBlank ⟨place.ahead⟩) :
    ∃ reached, ((closing list).tries place).head? = some (list, reached) := by
  obtain ⟨last, first⟩ := Pattern.head?_skipFrom (·.isA Text.isBlank) place.last place.ahead
  rw [List.dropWhile_eq_nil_iff.2 blank] at first
  refine ⟨⟨last, []⟩, ?_⟩
  rw [closing, Pattern.head?_bind]
  exact findSome?_of_head? first rfl

/-- The fewest code points behind which there is only white space are those of the text
without the white space behind it. -/
theorem findSome?_fewestFrom (last : Option CodePoint) (ahead : List CodePoint)
    (captured : Text → Text) :
    ∃ reached, (Pattern.fewestFrom last ahead).findSome?
        (fun found => ((closing (captured found.1)).tries found.2).head?)
      = some (captured (Text.trimRight ⟨ahead⟩), reached) := by
  induction ahead generalizing last captured with
  | nil =>
      obtain ⟨reached, closed⟩ := head?_closing_of_allBlank (captured ⟨[]⟩) ⟨last, []⟩
        (List.forall_mem_nil _)
      exact ⟨reached, findSome?_of_head? rfl closed⟩
  | cons p rest ih =>
      by_cases blank : Text.AllBlank ⟨p :: rest⟩
      · obtain ⟨reached, closed⟩ := head?_closing_of_allBlank (captured ⟨[]⟩) ⟨last, p :: rest⟩
          blank
        rw [Text.trimRight_of_allBlank blank]
        exact ⟨reached, findSome?_of_head? rfl closed⟩
      · obtain ⟨reached, found⟩ := ih (some p) fun list => captured ⟨p :: list.points⟩
        refine ⟨reached, ?_⟩
        rw [Pattern.fewestFrom, List.findSome?_cons, head?_closing_of_ink blank,
          List.findSome?_map, Text.trimRight_cons blank]
        exact found

/-- A list is found behind every place: what is ahead, trimmed. -/
theorem head?_listPattern (place : Place) :
    ∃ reached, (listPattern.tries place).head? = some (Text.trim ⟨place.ahead⟩, reached) := by
  obtain ⟨last, first⟩ := Pattern.head?_skipFrom (·.isA Text.isBlank) place.last place.ahead
  obtain ⟨reached, found⟩ := findSome?_fewestFrom last
    (place.ahead.dropWhile (·.isA Text.isBlank)) id
  refine ⟨reached, ?_⟩
  rw [listPattern, Pattern.head?_bind]
  refine findSome?_of_head? first ?_
  rw [Pattern.head?_bind]
  exact found

theorem captured_list (kind : Kind) (place : Place) :
    ((listPattern >>= fun list => pure (kind, list)).tries place).head?.map (·.1)
      = some (kind, Text.trim ⟨place.ahead⟩) := by
  obtain ⟨reached, found⟩ := head?_listPattern place
  have captured : ((listPattern >>= fun list => pure (kind, list)).tries place).head?
      = some ((kind, Text.trim ⟨place.ahead⟩), reached) := by
    rw [Pattern.head?_bind]
    exact findSome?_of_head? found rfl
  rw [captured]
  rfl

/-!
### The keyword
-/

theorem isInWord_keyword (kind : Kind) (last : Option CodePoint) :
    Pattern.isInWord ((Text.ofString kind.keyword).points.getLast?.or last) = true := by
  cases kind <;> rfl

/-- Behind a keyword a word ends exactly where no word character follows. -/
theorem boundary_iff (kind : Kind) (last : Option CodePoint) (rest : Text) :
    (Pattern.isInWord ((Text.ofString kind.keyword).points.getLast?.or last)
      != Pattern.isInWord rest.points.head?) = endsWord rest := by
  rw [isInWord_keyword, endsWord, Pattern.isInWord]
  cases rest.points.head? with
  | none => rfl
  | some p => simp

/-- Behind the mark, a kind is captured when its keyword follows, and with it the list behind
the keyword. -/
theorem captured_keyword (kind : Kind) (place : Place) :
    ((keywordPattern kind >>= fun kind => do
        Pattern.wordBoundary
        let list ← listPattern
        return (kind, list)).tries place).head?.map (·.1)
      = (behindKeyword? kind ⟨place.ahead⟩).map fun rest => (kind, rest.trim) := by
  rw [keywordPattern, Pattern.bind_assoc, Pattern.head?_word_bind, behindKeyword?]
  cases Text.behind? ⟨place.ahead⟩ (Text.ofString kind.keyword) with
  | none => rfl
  | some rest =>
      rw [Option.bind_some, Pattern.pure_bind, Pattern.head?_wordBoundary_bind,
        boundary_iff kind place.last rest, Option.filter_some]
      by_cases ends : endsWord rest = true
      · rw [if_pos ends, if_pos ends]
        exact captured_list kind _
      · rw [if_neg ends, if_neg ends]
        rfl

theorem captured_body (place : Place) :
    (bodyPattern.tries place).head?.map (·.1)
      = Kind.all.findSome? fun kind =>
          (behindKeyword? kind ⟨place.ahead⟩).map fun rest => (kind, rest.trim) := by
  rw [bodyPattern, Pattern.head?_oneOf_bind, List.map_findSome?]
  congr 1
  funext kind
  exact captured_keyword kind place

/-!
### The first match
-/

theorem behind?_mark_of_blank {p : CodePoint} (blank : p.isA Text.isBlank = true)
    (rest : List CodePoint) : Text.behind? ⟨p :: rest⟩ mark = none := by
  cases read : Text.behind? ⟨p :: rest⟩ mark with
  | none => rfl
  | some behind =>
      have whole := congrArg (fun t : Text => t.points.head?) (behind?_eq_some_iff.1 read)
      have same : p = .char 's' := Option.some.inj whole
      subst same
      have ink : CodePoint.isA Text.isBlank (.char 's') = false := by decide
      rw [ink] at blank
      cases blank

/-- What the pattern captures first: the kind that is tried first of those that fit, and the
list behind it without the white space at its ends. -/
theorem firstMatch_pattern (t : Text) :
    pattern.firstMatch t =
      (t.trimLeft.behind? mark).bind fun behind => Kind.all.findSome? fun kind =>
        (behindKeyword? kind behind).map fun rest => (kind, rest.trim) := by
  -- Where white space is left ahead, the mark does not follow.
  have dead : ∀ last p rest, CodePoint.isA Text.isBlank p = true →
      ((Pattern.word mark.points >>= fun _ => bodyPattern).tries ⟨last, p :: rest⟩).head?
        = none := by
    intro last p rest blank
    rw [Pattern.head?_word_bind]
    exact congrArg (Option.bind · _) (behind?_mark_of_blank blank rest)
  obtain ⟨last, first⟩ := Pattern.findSome?_skipFrom
    (fun found => ((Pattern.word mark.points >>= fun _ => bodyPattern).tries found.2).head?)
    dead none t.points
  rw [Pattern.firstMatch, pattern, Pattern.head?_bind]
  refine (congrArg (Option.map _) first).trans ?_
  rw [Pattern.head?_word_bind, Option.map_bind]
  refine Option.bind_congr ?_
  intro behind _
  exact captured_body _

/-- The reader of directives finds what the pattern captures first. -/
theorem parse?_eq_firstMatch (t : Text) :
    parse? t = (pattern.firstMatch t).map fun found => ⟨found.1, ruleNames found.2⟩ := by
  rw [firstMatch_pattern, parse?, Option.map_bind]
  cases t.trimLeft.behind? mark with
  | none => rfl
  | some behind =>
      simp only [Option.bind_some, Function.comp_def, List.map_findSome?, Option.map_map,
        ruleNames_trim]

/-!
### Writing and reading back
-/

/-- No keyword that is tried before the one that stands there fits behind the mark. -/
theorem behindKeyword?_of_tried {earlier kind : Kind} (tried : earlier.IsTriedBefore kind)
    (rest : Text) : behindKeyword? earlier (kind.keyword ++ (" " ++ rest)) = none := by
  unfold Kind.IsTriedBefore at tried
  cases earlier with
  | disableNextLine =>
      cases kind with
      | disableNextLine => exact absurd tried (by decide)
      | _ => rfl
  | disableLine =>
      cases kind with
      | disable => rfl
      | enable => rfl
      | _ => exact absurd tried (by decide)
  | disable =>
      cases kind with
      | enable => rfl
      | _ => exact absurd tried (by decide)
  | enable =>
      cases kind with
      | _ => exact absurd tried (by decide)

/-- A directive that is written out, with any white space around it, is read back. -/
theorem parse?_written {lead trail : Text} (blankLead : lead.AllBlank)
    (blankTrail : trail.AllBlank) (kind : Kind) {names : List Text}
    (listable : ∀ name ∈ names, IsListable name) :
    parse? (lead ++ mark ++ kind.keyword ++ " " ++ Text.intercalate ", " names ++ trail)
      = some ⟨kind, names⟩ := by
  have whole : lead ++ mark ++ kind.keyword ++ " " ++ Text.intercalate ", " names ++ trail
      = lead ++ mark ++ (kind.keyword ++ (" " ++ (Text.intercalate ", " names ++ trail))) := by
    simp only [Text.append_assoc]
  have marked := behind?_eq_some_iff.2 (trimLeft_mark blankLead
    (kind.keyword ++ (" " ++ (Text.intercalate ", " names ++ trail))))
  have blank : Text.AllBlank " " := by decide
  have listed : ruleNames (" " ++ (Text.intercalate ", " names ++ trail)) = names := by
    rw [ruleNames_append_left blank, ruleNames_append blankTrail,
      ruleNames_intercalate listable]
  have ends : EndsWord (" " ++ (Text.intercalate ", " names ++ trail)) := by
    intro p starts
    cases starts
    decide
  have read := behindKeyword?_eq_some_iff.2
    ⟨(rfl : Text.ofString kind.keyword ++ (" " ++ (Text.intercalate ", " names ++ trail)) = _),
      ends⟩
  rw [parse?_eq_findSome?, whole, findSome?_all_eq_some_iff]
  refine ⟨kind, ?_, ?_⟩
  · rw [readAs?, marked, Option.bind_some, read, Option.map_some, listed]
  · intro earlier tried
    rw [readAs?, marked, Option.bind_some, behindKeyword?_of_tried tried]
    rfl

end Directive

/-- A comment is a directive exactly when its text is one, written out: behind white space and
the mark, the first keyword that a word ends with, and then the list.  It is so exactly when
some keyword fits, and it is what the pattern captures first.  In particular every directive
whose names can be listed is read back from its text, whatever white space stands around it. -/
theorem directive?_iff_isWritten :
    (∀ (c : Comment) (p : PlacedDirective),
        c.directive? = some p ↔ p.line = c.position.line ∧ p.directive.IsWritten c.text)
      ∧ (∀ c : Comment,
        c.directive?.isSome = true ↔ ∃ kind rest, Directive.Announces c.text kind rest)
      ∧ (∀ t : Text, Directive.parse? t
          = (Directive.pattern.firstMatch t).map fun found =>
              ⟨found.1, Directive.ruleNames found.2⟩)
      ∧ ∀ (lead trail : Text) (kind : Directive.Kind) (names : List Text),
        lead.AllBlank → trail.AllBlank → (∀ name ∈ names, Directive.IsListable name) →
          Directive.parse? (lead ++ Directive.mark ++ kind.keyword ++ " "
              ++ Text.intercalate ", " names ++ trail)
            = some ⟨kind, names⟩ := by
  refine ⟨?_, ?_, Directive.parse?_eq_firstMatch, ?_⟩
  · intro c p
    rw [Comment.directive?, Option.map_eq_some_iff, ← Directive.parse?_eq_some_iff]
    constructor
    · rintro ⟨d, read, rfl⟩
      exact ⟨rfl, read⟩
    · rintro ⟨sameLine, read⟩
      exact ⟨p.directive, read, by rw [← sameLine]⟩
  · intro c
    rw [Comment.directive?, Option.isSome_map]
    exact Directive.isSome_parse?_iff
  · intro lead trail kind names blankLead blankTrail listable
    exact Directive.parse?_written blankLead blankTrail kind listable

/-- A directive on two lines, the second of them indented, that lists a name with a blank in
it. -/
theorem directive?_iff_isWritten_indented :
    Text.AllBlank "\n\t" ∧ (∀ name ∈ ([("hex" : Text), "my depth"] : List Text),
        Directive.IsListable name)
      ∧ Directive.parse? ("\n\t" ++ Directive.mark ++ Directive.Kind.disableLine.keyword ++ " "
          ++ Text.intercalate ", " ["hex", "my depth"] ++ " ")
        = some ⟨.disableLine, ["hex", "my depth"]⟩ := by
  have blankLead : Text.AllBlank "\n\t" := by decide
  have blankTrail : Text.AllBlank " " := by decide
  have listable : ∀ name ∈ ([("hex" : Text), "my depth"] : List Text),
      Directive.IsListable name := by
    decide
  exact ⟨blankLead, listable,
    directive?_iff_isWritten.2.2.2 _ _ .disableLine _ blankLead blankTrail listable⟩

/-- A misspelt keyword falls back to a shorter one that a word ends with; the rest is a name. -/
example : Directive.parse? " sheetlint-disable-lines: hex" = some ⟨.disable, ["-lines: hex"]⟩ := by
  decide

end StyleAudit
