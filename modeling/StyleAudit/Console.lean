/-
Module: StyleAudit.Console
Purpose: Texts as the two outputs of the program take them.
Trusted boundary: none
Main exports: Console.withoutSequences, Console.output?, Console.errors, Console.escaped
-/
import StyleAudit.Text.Quoted

namespace StyleAudit.Console

/-!
### Outputs

The outputs are no terminals, so the sequences that would set colors or move the writing
position there are taken out of what is printed.  The outputs hold characters only: half of
a surrogate pair cannot be printed at all, and among the errors its escape is printed.
Lines of the log are no prints, and so keep their sequences.
-/

/-- The character that starts a control sequence. -/
def escapeCharacter : Char := '\x1b'

/-- A character of the numbers in a control sequence. -/
def isParameter (c : Char) : Bool :=
  c == ';' || c == '?' || c.isDigit

/-- How many code points belong to a control sequence behind its first character: a
bracket, numbers, and the letter that ends it. -/
def sequenceLength? : List CodePoint → Option Nat
  | .char '[' :: rest =>
      let parameters := rest.takeWhile (·.isA isParameter)
      match rest.drop parameters.length with
      | last :: _ => if last.isA Char.isAlpha then some (parameters.length + 2) else none
      | [] => none
  | _ => none

/-- Code points without control sequences, and without as many at the start as given. -/
def dropSequences : Nat → List CodePoint → List CodePoint
  | _, [] => []
  | dropped + 1, _ :: rest => dropSequences dropped rest
  | 0, point :: rest =>
      match if point = .char escapeCharacter then sequenceLength? rest else none with
      | some length => dropSequences length rest
      | none => point :: dropSequences 0 rest

/-- A text without control sequences. -/
def withoutSequences (t : Text) : Text := ⟨dropSequences 0 t.points⟩

/-- What is printed for a text, when it can be printed. -/
def output? (t : Text) : Option String :=
  let t := withoutSequences t
  if t.isPlain then some t.shown else none

/-- A code point, or the escape of half of a surrogate pair. -/
def escapePoint : CodePoint → List Char
  | .char c => [c]
  | .surrogate place => '\\' :: 'u' :: Text.hexDigits 4 (CodePoint.surrogate place).value

/-- A text with the escapes of halves of surrogate pairs. -/
def escaped (t : Text) : String := String.ofList (t.points.flatMap escapePoint)

/-- What is printed among the errors for a text. -/
def errors (t : Text) : String := escaped (withoutSequences t)

example : output? "a\x1b[1;31mb\x1b[x" = some "ab" := by decide +kernel
example : errors "\x1b\x1b[m[1m" = "\x1b[1m" := by decide +kernel
example : output? ⟨[.surrogate 0]⟩ = none := by decide +kernel

end StyleAudit.Console
