/-
Module: StyleAudit.Suppression.Directive
Purpose: The directives in comments that switch rules off and on.
Trusted boundary: none
Main exports: Directive, Directive.Kind, Directive.parse?, PlacedDirective, Document.directives
-/
import StyleAudit.Document.Basic
import StyleAudit.Text.Word

namespace StyleAudit

/-!
### Directives

A comment is a directive when, behind leading white space, it starts with the
mark and a keyword that no word character follows.  Of keywords that fit, the
first in the order of the list is meant.  The rest is a list of rule names with
commas between them; empty names are dropped, and no name means all rules.
-/

namespace Directive

/-- What a directive does. -/
inductive Kind where
  | disableNextLine
  | disableLine
  | disable
  | enable
deriving DecidableEq, Repr

/-- The keyword of a kind. -/
def Kind.keyword : Kind → String
  | .disableNextLine => "disable-next-line"
  | .disableLine => "disable-line"
  | .disable => "disable"
  | .enable => "enable"

/-- The kinds in the order in which their keywords are tried. -/
def Kind.all : List Kind := [.disableNextLine, .disableLine, .disable, .enable]

/-- The mark before every keyword. -/
def mark : Text := "sheetlint-"

/-- The name that stands for all rules. -/
def allRules : Text := "*"

end Directive

/-- A directive: what it does, and the rules it lists. -/
structure Directive where
  kind : Directive.Kind
  rules : List Text
deriving DecidableEq, Repr

namespace Directive

/-- No word character follows, so a keyword may end here. -/
def endsWord (text : Text) : Bool :=
  match text.points.head? with
  | none => true
  | some point => !point.isA Text.isWord

/-- The text behind the keyword of a kind. -/
def behindKeyword? (kind : Kind) (text : Text) : Option Text :=
  (text.behind? kind.keyword).filter endsWord

/-- The names between commas, without white space around them. -/
def ruleNames (text : Text) : List Text :=
  ((text.splitOn ',').map Text.trim).filter fun name => !name.isEmpty

/-- The directive that a comment's text is, if it is one. -/
def parse? (text : Text) : Option Directive :=
  match text.trimLeft.behind? mark with
  | none => none
  | some rest =>
      Kind.all.findSome? fun kind =>
        (behindKeyword? kind rest).map fun names => ⟨kind, ruleNames names⟩

/-- The names that a directive is about: those it lists, or the one for all. -/
def targets (d : Directive) : List Text :=
  if d.rules.isEmpty then [allRules] else d.rules

end Directive

/-- A directive and the line of its comment. -/
structure PlacedDirective where
  directive : Directive
  line : Int
deriving DecidableEq, Repr

/-- The directive that a comment is, with its line. -/
def Comment.directive? (c : Comment) : Option PlacedDirective :=
  (Directive.parse? c.text).map fun d => ⟨d, c.position.line⟩

/-- The directives of a document, in source order. -/
def Document.directives (d : Document) : List PlacedDirective :=
  d.comments.filterMap Comment.directive?

end StyleAudit
