/-
Module: StyleAudit.Rule.HexColor
Purpose: The rule against hash tokens that are no hexadecimal colors.
Trusted boundary: none
Main exports: HexColor.name, HexColor.HashToken, HexColor.hashTokens, HexColor.rule
-/
import StyleAudit.Rule.Basic
import StyleAudit.Format.Fault

namespace StyleAudit.HexColor

/-!
### Hash tokens

A hash token is a hash sign with the longest run of word characters and hyphens
behind it, of which there is one at least.  It is a color when the run is made of
three, four, six or eight hexadecimal digits of ASCII.
-/

/-- The rule's name in configurations. -/
def name : String := "color-no-invalid-hex"

/-- What a hash token may hold behind its sign. -/
def isTokenPoint : CodePoint → Bool :=
  CodePoint.isA fun c => Text.isWord c || c == '-'

/-- A hash sign's place in a text and the run behind it. -/
structure HashToken where
  start : Nat
  body : List CodePoint
deriving DecidableEq, Repr

/-- The hash tokens of a text whose first code point has the given place.  A run
holds no hash sign, so the search may go on right behind the sign. -/
def tokensFrom : Nat → List CodePoint → List HashToken
  | _, [] => []
  | i, point :: rest =>
      let body := rest.takeWhile isTokenPoint
      if point = .char '#' && !body.isEmpty then ⟨i, body⟩ :: tokensFrom (i + 1) rest
      else tokensFrom (i + 1) rest

/-- The hash tokens of a text. -/
def hashTokens (text : Text) : List HashToken :=
  tokensFrom 0 text.points

/-- The run is a color. -/
def isColor (body : List CodePoint) : Bool :=
  [3, 4, 6, 8].contains body.length && body.all (·.isA (Format.isDigitOf 16))

/-- The finding about a token in a declaration.  The value stands behind the
property, a colon and a space. -/
def finding (d : Declaration) (token : HashToken) : Finding :=
  .report name
    ("Unexpected invalid hex color \"#" ++ ⟨token.body⟩ ++ "\" (" ++ name ++ ")")
    ⟨d.position.line, d.position.column + d.property.length + 2 + token.start⟩

/-- The findings in a declaration. -/
def findingsIn (d : Declaration) : List Finding :=
  ((hashTokens d.value).filter fun token => !isColor token.body).map (finding d)

/-- The findings in a document. -/
def findings (d : Document) : List Finding :=
  d.declarations.flatMap findingsIn

/-- The rule; it has no options. -/
def rule : Rule :=
  ⟨.builtin name, fun _ _ => .ok fun d => .found (findings d)⟩

end StyleAudit.HexColor
