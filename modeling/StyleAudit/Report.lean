/-
Module: StyleAudit.Report
Purpose: Diagnostics as text, as JSON, and as a summary.
Trusted boundary: none
Main exports: ReportFormat, Report.text, Report.text?, Report.json?, Report.summary
-/
import StyleAudit.Diagnostic
import StyleAudit.Value.Printer
import StyleAudit.Json.Printer

namespace StyleAudit

/-- The formats of reports. -/
inductive ReportFormat where
  | text
  | json
deriving DecidableEq, Repr

/-- The word for a format. -/
def ReportFormat.word : ReportFormat → String
  | .text => "text"
  | .json => "json"

/-- The format of a word. -/
def ReportFormat.ofWord? (word : String) : Option ReportFormat :=
  [ReportFormat.text, .json].find? fun format => format.word == word

namespace Report

/-!
### Reports

Both formats show all diagnostics by position, under the name of their source.
-/

/-- One diagnostic as a line. -/
def line (source : Value) (d : Diagnostic) : Text :=
  source.display ++ ":" ++ toString d.position.line ++ ":" ++ toString d.position.column ++ ": "
    ++ d.severity.title ++ " [" ++ d.rule ++ "] " ++ d.message

/-- Diagnostics as lines. -/
def text (source : Value) (diagnostics : List Diagnostic) : Text :=
  Text.intercalate "\n" ((Diagnostic.sorted diagnostics).map (line source))

/-- The positions of all diagnostics have texts. -/
def haveWritablePositions (diagnostics : List Diagnostic) : Bool :=
  diagnostics.all fun d =>
    Number.isWritable d.position.line && Number.isWritable d.position.column

/-- Diagnostics as lines, if their positions have texts. -/
def text? (source : Value) (diagnostics : List Diagnostic) : Option Text :=
  if haveWritablePositions diagnostics then some (text source diagnostics) else none

/-- One diagnostic as a mapping. -/
def item (source : Value) (d : Diagnostic) : Value :=
  .map [(.str "source", source), (.str "line", .int d.position.line),
    (.str "column", .int d.position.column), (.str "rule", .str d.rule),
    (.str "severity", .str d.severity.label), (.str "message", .str d.message)]

/-- Diagnostics as a sequence of mappings. -/
def items (source : Value) (diagnostics : List Diagnostic) : Value :=
  .seq ((Diagnostic.sorted diagnostics).map (item source))

/-- Diagnostics as a JSON text, if the source's name has one. -/
def json? (source : Value) (diagnostics : List Diagnostic) : Option String :=
  Json.write? .indented (items source diagnostics)

/-- Diagnostics in a format. -/
def render? (format : ReportFormat) (source : Value) (diagnostics : List Diagnostic) :
    Option Text :=
  match format with
  | .text => text? source diagnostics
  | .json => (json? source diagnostics).map Text.ofString

/-- A number of things, in the plural unless it is one. -/
def counted (n : Nat) (thing : String) : String :=
  toString n ++ " " ++ thing ++ (if n = 1 then "" else "s")

/-- The numbers of errors and warnings that are not zero. -/
def summaryParts (diagnostics : List Diagnostic) : List String :=
  let errors := Diagnostic.countOf .error diagnostics
  let warnings := Diagnostic.countOf .warning diagnostics
  (if errors = 0 then [] else [counted errors "error"])
    ++ (if warnings = 0 then [] else [counted warnings "warning"])

/-- How many errors and warnings there are, in a sentence. -/
def summary (diagnostics : List Diagnostic) : String :=
  match summaryParts diagnostics with
  | [] => "No issues found."
  | parts => "Found " ++ String.intercalate ", " parts ++ "."

end Report

end StyleAudit
