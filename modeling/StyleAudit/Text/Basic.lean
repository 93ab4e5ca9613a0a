/-
Module: StyleAudit.Text.Basic
Purpose: Texts as sequences of code points, in which halves of surrogate pairs may stand alone.
Trusted boundary: none
Main exports: CodePoint, CodePoint.value, Text, Text.ofString, Text.shown, Text.intercalate, Text.le
-/

namespace StyleAudit

/-!
### Code points

The formats of configuration files have escapes that name any code point, also half of a
surrogate pair, which is no character by itself.  A text that was read may therefore hold
such halves, and two of them that would make a pair stay two code points.
-/

/-- A character, or half of a surrogate pair, given by the number of halves before it. -/
inductive CodePoint where
  | char (c : Char)
  | surrogate (place : Fin 2048)
deriving DecidableEq, Repr, Inhabited

namespace CodePoint

/-- The number of the first half of a surrogate pair. -/
def firstSurrogate : Nat := 0xD800

/-- The number of a code point. -/
def value : CodePoint → Nat
  | .char c => c.toNat
  | .surrogate place => firstSurrogate + place

/-- The code point of a number; none beyond the last one. -/
def ofValue? (n : Nat) : Option CodePoint :=
  if 0x10FFFF < n then none
  else if h : firstSurrogate ≤ n ∧ n - firstSurrogate < 2048 then
    some (.surrogate ⟨n - firstSurrogate, h.2⟩)
  else some (.char (Char.ofNat n))

/-- The code point is a character with a property; half of a pair has none. -/
def isA (p : Char → Bool) : CodePoint → Bool
  | .char c => p c
  | .surrogate _ => false

/-- The code point is a character. -/
def isCharacter : CodePoint → Bool :=
  isA fun _ => true

/-- A code point as a character; the replacement character stands for half of a pair. -/
def shown : CodePoint → Char
  | .char c => c
  | .surrogate _ => '\ufffd'

/-- A half of a surrogate pair is found again by its number. -/
theorem ofValue?_value_surrogate (place : Fin 2048) :
    ofValue? (value (.surrogate place)) = some (.surrogate place) := by
  have h := place.isLt
  have bound : ¬ 0x10FFFF < firstSurrogate + place.val := by
    unfold firstSurrogate
    omega
  simp [ofValue?, value, bound, h]

end CodePoint

/-!
### Texts
-/

/-- A sequence of code points. -/
structure Text where
  points : List CodePoint
deriving DecidableEq, Repr, Inhabited

namespace Text

/-- The text of characters. -/
def ofChars (chars : List Char) : Text := ⟨chars.map .char⟩

/-- The text of a string. -/
def ofString (s : String) : Text := ofChars s.toList

instance : Coe String Text := ⟨ofString⟩

/-- One text behind another. -/
protected def append (a b : Text) : Text := ⟨a.points ++ b.points⟩

instance : Append Text := ⟨Text.append⟩

/-- The text holds nothing. -/
def isEmpty (t : Text) : Bool := t.points.isEmpty

/-- The number of code points. -/
def length (t : Text) : Nat := t.points.length

/-- Every code point of the text is a character. -/
def isPlain (t : Text) : Bool := t.points.all CodePoint.isCharacter

/-- A text as characters; the replacement character stands for half of a pair. -/
def characters (t : Text) : List Char := t.points.map CodePoint.shown

/-- A text as a string; the replacement character stands for half of a pair. -/
def shown (t : Text) : String := String.ofList t.characters

/-- Texts one behind another. -/
def join (texts : List Text) : Text := ⟨texts.flatMap points⟩

/-- Texts with a separator between each two. -/
def intercalate (separator : Text) (texts : List Text) : Text :=
  join (texts.intersperse separator)

/-- The pieces between the occurrences of a separator.  There is one piece more than
there are separators. -/
def pieces {α : Type} [DecidableEq α] (separator : α) : List α → List (List α)
  | [] => [[]]
  | a :: rest =>
      match pieces separator rest with
      | [] => [[a]]
      | piece :: others => if a = separator then [] :: piece :: others else (a :: piece) :: others

/-- The texts between the occurrences of a character. -/
def splitOn (separator : Char) (t : Text) : List Text :=
  (pieces (.char separator) t.points).map Text.mk

/-- Code points come no later than others: the first difference decides, by its numbers. -/
def comesBefore : List CodePoint → List CodePoint → Bool
  | [], _ => true
  | _ :: _, [] => false
  | p :: ps, q :: qs => p.value < q.value || (p = q && comesBefore ps qs)

/-- What follows an expected start of the text. -/
def behind? (t start : Text) : Option Text :=
  if start.points.isPrefixOf t.points then some ⟨t.points.drop start.length⟩ else none

/-- The text comes no later than another, by the numbers of code points. -/
def le (a b : Text) : Bool := comesBefore a.points b.points

@[simp] theorem points_append (a b : Text) : (a ++ b).points = a.points ++ b.points := rfl

@[simp] theorem length_append (a b : Text) : (a ++ b).length = a.length + b.length := by
  simp [length]

/-- Two texts with the same code points are the same. -/
theorem ext {a b : Text} (h : a.points = b.points) : a = b := by
  cases a
  cases b
  simpa using h

@[simp] theorem empty_append (a : Text) : ofString "" ++ a = a := by
  apply ext
  simp [ofString, ofChars]

theorem append_assoc (a b c : Text) : a ++ b ++ c = a ++ (b ++ c) := by
  apply ext
  simp

/-- A text of characters is shown as they are. -/
@[simp] theorem characters_ofChars (chars : List Char) : (ofChars chars).characters = chars := by
  simp [characters, ofChars, Function.comp_def, CodePoint.shown]

/-- A string is shown as it is. -/
@[simp] theorem shown_ofString (s : String) : (ofString s).shown = s := by
  simp [shown, ofString]

/-- The code points of a string are characters. -/
theorem isPlain_ofString (s : String) : (ofString s).isPlain = true := by
  simp [isPlain, ofString, ofChars, CodePoint.isCharacter, CodePoint.isA]

/-- Strings are told apart as texts. -/
theorem ofString_inj {s t : String} : ofString s = ofString t ↔ s = t := by
  constructor
  · intro h
    have := congrArg shown h
    simpa using this
  · intro h
    rw [h]

/-- Splitting never yields the empty list of pieces. -/
theorem pieces_ne_nil {α : Type} [DecidableEq α] (separator : α) (items : List α) :
    pieces separator items ≠ [] := by
  induction items with
  | nil => simp [pieces]
  | cons a rest ih =>
      unfold pieces
      split
      · simp
      · split <;> simp

end Text

end StyleAudit
