/-
Module: StyleAudit.Proofs.Report.Records
Purpose: Diagnostics are shown by position, and both formats of reports tell the same records of
  them: as JSON that is read back, and as lines that can be told apart.
Trusted boundary: none
Main exports: Diagnostic.IsStablySorted, Diagnostic.isStablySorted_sorted, Report.Record,
  Report.Shows, Report.text?_and_json?_of_unwritable, Report.formats_show_records
-/
import StyleAudit.Report
import StyleAudit.Proofs.Json.RoundTrip
import StyleAudit.Proofs.Text.Pieces

namespace StyleAudit

/-!
### Order
-/

theorem Position.le_iff {a b : Position} :
    a.le b = true ↔ a.line < b.line ∨ a.line = b.line ∧ a.column ≤ b.column := by
  simp [Position.le]

namespace Diagnostic

theorem le_trans (a b c : Diagnostic) (first : a.position.le b.position = true)
    (second : b.position.le c.position = true) : a.position.le c.position = true := by
  rw [Position.le_iff] at *
  omega

theorem le_total (a b : Diagnostic) :
    (a.position.le b.position || b.position.le a.position) = true := by
  rw [Bool.or_eq_true, Position.le_iff, Position.le_iff]
  omega

/-- A list has the diagnostics of another by position, lines before columns, and those at one
position in the order of the other. -/
structure IsStablySorted (diagnostics arranged : List Diagnostic) : Prop where
  complete : arranged.Perm diagnostics
  ordered : arranged.Pairwise fun a b => a.position.line < b.position.line
    ∨ a.position.line = b.position.line ∧ a.position.column ≤ b.position.column
  stable : ∀ place : Position, arranged.filter (fun d => d.position = place)
    = diagnostics.filter fun d => d.position = place

theorem isStablySorted_sorted (diagnostics : List Diagnostic) :
    IsStablySorted diagnostics (sorted diagnostics) where
  complete := sorted_perm diagnostics
  ordered := by
    have ordered := List.pairwise_mergeSort le_trans le_total diagnostics
    exact ordered.imp Position.le_iff.1
  stable := by
    intro place
    -- What stands at one position is in order already, so it is a sublist of what is sorted;
    -- sorting adds nothing to it.
    have level : (diagnostics.filter fun d => d.position = place).Pairwise
        fun a b => a.position.le b.position = true := by
      rw [List.pairwise_filter]
      refine List.pairwise_of_forall ?_
      intro a b here there
      rw [decide_eq_true_eq] at here there
      rw [here, there, Position.le_iff]
      exact .inr ⟨rfl, Int.le_refl _⟩
    have kept := List.sublist_mergeSort le_trans le_total level List.filter_sublist
    have among := kept.filter fun d : Diagnostic => decide (d.position = place)
    rw [List.filter_filter] at among
    simp only [Bool.and_self] at among
    have same := (sorted_perm diagnostics).filter fun d => d.position = place
    exact (among.eq_of_length same.length_eq.symm).symm

end Diagnostic

namespace Report

/-!
### Records
-/

/-- What a report says of one diagnostic. -/
structure Record where
  source : Text
  line : Int
  column : Int
  rule : Text
  severity : String
  message : Text
deriving DecidableEq, Repr

namespace Record

/-- The record of a diagnostic in a source. -/
def ofDiagnostic (source : Text) (d : Diagnostic) : Record :=
  ⟨source, d.position.line, d.position.column, d.rule, d.severity.label, d.message⟩

/-- A record as a mapping. -/
def toValue (r : Record) : Value :=
  .map [(.str "source", .str r.source), (.str "line", .int r.line), (.str "column", .int r.column),
    (.str "rule", .str r.rule), (.str "severity", .str r.severity),
    (.str "message", .str r.message)]

/-- A record as a line, with the word for its severity in capitals. -/
def shown (r : Record) : Text :=
  r.source ++ ":" ++ toString r.line ++ ":" ++ toString r.column ++ ": "
    ++ Text.ofChars (r.severity.toList.map Char.toUpper) ++ " [" ++ r.rule ++ "] " ++ r.message

/-- The numbers of a record have texts. -/
def IsWritable (r : Record) : Prop :=
  Number.isWritable r.line = true ∧ Number.isWritable r.column = true

/-- No text of a record holds two halves of a character side by side, as no text of characters
does. -/
def IsUnpaired (r : Record) : Prop :=
  r.source.IsUnpaired ∧ r.rule.IsUnpaired ∧ r.message.IsUnpaired

/-- No text of a record holds a line feed. -/
def IsOneLine (r : Record) : Prop :=
  .char '\n' ∉ r.source.points ∧ .char '\n' ∉ r.rule.points ∧ .char '\n' ∉ r.message.points

end Record

/-- The records of diagnostics in a source, by position. -/
def records (source : Text) (diagnostics : List Diagnostic) : List Record :=
  (Diagnostic.sorted diagnostics).map (Record.ofDiagnostic source)

theorem items_eq (source : Text) (diagnostics : List Diagnostic) :
    items (.str source) diagnostics = .seq ((records source diagnostics).map Record.toValue) := by
  rw [items, records, List.map_map]
  rfl

theorem line_eq (source : Text) (d : Diagnostic) :
    line (.str source) d = (Record.ofDiagnostic source d).shown := by
  have title : (d.severity.title : Text)
      = Text.ofChars (d.severity.label.toList.map Char.toUpper) := by
    cases d.severity <;> rfl
  rw [line, title]
  rfl

theorem text_eq (source : Text) (diagnostics : List Diagnostic) :
    text (.str source) diagnostics
      = Text.intercalate "\n" ((records source diagnostics).map Record.shown) := by
  rw [text, records, List.map_map]
  exact congrArg _ (List.map_congr_left fun d _ => line_eq source d)

theorem haveWritablePositions_iff (source : Text) {diagnostics : List Diagnostic} :
    haveWritablePositions diagnostics = true ↔
      ∀ r ∈ records source diagnostics, r.IsWritable := by
  have same : ∀ d, d ∈ Diagnostic.sorted diagnostics ↔ d ∈ diagnostics :=
    fun _ => (Diagnostic.sorted_perm diagnostics).mem_iff
  simp [haveWritablePositions, records, same, Record.IsWritable, Record.ofDiagnostic]

/-!
### JSON
-/

section Json

variable {r : Record} {entries : List Record}

theorem not_lacksJson_str (s : Text) : ¬ (Value.str s).LacksJson := by
  rintro ⟨⟨⟩⟩

theorem not_lacksJson_int {n : Int} (writable : Number.isWritable n = true) :
    ¬ (Value.int n).LacksJson := by
  rintro ⟨_ | _ | _ | long⟩
  rw [writable] at long
  cases long

/-- Of a record only the numbers can lack a JSON form. -/
theorem Record.lacksJson_toValue_iff : r.toValue.LacksJson ↔ ¬ r.IsWritable := by
  constructor
  · rintro inside ⟨lineWritable, columnWritable⟩
    cases inside with
    | here formless => cases formless
    | key member formless =>
        simp only [List.mem_cons, List.not_mem_nil, or_false] at member
        rcases member with rfl | rfl | rfl | rfl | rfl | rfl <;> cases formless
    | value member inner =>
        simp only [List.mem_cons, List.not_mem_nil, or_false] at member
        rcases member with rfl | rfl | rfl | rfl | rfl | rfl
        · exact not_lacksJson_str r.source inner
        · exact not_lacksJson_int lineWritable inner
        · exact not_lacksJson_int columnWritable inner
        · exact not_lacksJson_str r.rule inner
        · exact not_lacksJson_str r.severity inner
        · exact not_lacksJson_str r.message inner
  · intro unwritable
    rw [Record.IsWritable, not_and_or, Bool.not_eq_true, Bool.not_eq_true] at unwritable
    rcases unwritable with long | long
    · exact .value (.tail _ (.head _)) (.here (.int long))
    · exact .value (.tail _ (.tail _ (.head _))) (.here (.int long))

theorem Record.isExact_toValue (writable : r.IsWritable) (unpaired : r.IsUnpaired) :
    r.toValue.IsExact := by
  obtain ⟨source, rule, message⟩ := unpaired
  refine .map ?_ ?_ ?_
  · rfl
  · simp [Text.isUnpaired_ofString]
  · simp only [List.forall_mem_cons]
    exact ⟨.str source, .int writable.1, .int writable.2, .str rule,
      .str (Text.isUnpaired_ofString _), .str message, List.forall_mem_nil _⟩

theorem lacksJson_records_iff :
    (Value.seq (entries.map Record.toValue)).LacksJson ↔ ¬ ∀ r ∈ entries, r.IsWritable := by
  constructor
  · rintro inside writable
    cases inside with
    | here formless => cases formless
    | item member inner =>
        obtain ⟨r, listed, rfl⟩ := List.mem_map.1 member
        exact Record.lacksJson_toValue_iff.1 inner (writable r listed)
  · intro some
    push Not at some
    obtain ⟨r, listed, unwritable⟩ := some
    exact .item (List.mem_map_of_mem listed) (Record.lacksJson_toValue_iff.2 unwritable)

end Json

/-!
### Lines
-/

theorem lineFeed_not_mem_toString (n : Int) :
    .char '\n' ∉ (Text.ofString (toString n)).points := by
  have digit : '\n' ∉ Nat.toDigits 10 n.natAbs := by
    intro listed
    exact absurd (Json.isDigit_of_mem_toDigits _ listed) (by decide)
  intro listed
  obtain ⟨c, inside, same⟩ := List.mem_map.1 listed
  rw [CodePoint.char.inj same, Json.toList_toString] at inside
  split at inside
  · rcases List.mem_cons.1 inside with sign | inside
    · exact absurd sign (by decide)
    · exact digit inside
  · exact digit inside

theorem lineFeed_not_mem_shown {source : Text} {d : Diagnostic}
    (oneLine : (Record.ofDiagnostic source d).IsOneLine) :
    .char '\n' ∉ (Record.ofDiagnostic source d).shown.points := by
  obtain ⟨ofSource, ofRule, ofMessage⟩ := oneLine
  have ofTitle : .char '\n' ∉ (Text.ofString d.severity.title).points := by
    cases d.severity <;> decide
  have ofLine := lineFeed_not_mem_toString d.position.line
  have ofColumn := lineFeed_not_mem_toString d.position.column
  rw [← line_eq, line]
  simp only [Text.points_append, List.mem_append, not_or, and_assoc]
  exact ⟨ofSource, by decide, ofLine, by decide, ofColumn, by decide, ofTitle, by decide, ofRule,
    by decide, ofMessage⟩

/-!
### Both formats
-/

/-- A text and a JSON text show records: the JSON text is read back as the records, and the text
has a line for each of them, in their order. -/
structure Shows (text : Text) (json : String) (entries : List Record) : Prop where
  readBack : (∀ r ∈ entries, r.IsUnpaired) →
    Json.read json.toList = .ok (.seq (entries.map Record.toValue))
  lines : entries ≠ [] → (∀ r ∈ entries, r.IsOneLine) →
    text.splitOn '\n' = entries.map Record.shown
  nothing : entries = [] → text = ""

/-- Integers of too many digits are shown in neither format. -/
theorem text?_and_json?_of_unwritable {source : Text} {diagnostics : List Diagnostic}
    (unwritable : haveWritablePositions diagnostics = false) :
    text? (.str source) diagnostics = none ∧ json? (.str source) diagnostics = none := by
  constructor
  · rw [text?, unwritable, if_neg Bool.false_ne_true]
  · have lacks : (items (.str source) diagnostics).LacksJson := by
      rw [items_eq, lacksJson_records_iff, ← haveWritablePositions_iff source, unwritable]
      exact Bool.false_ne_true
    rw [json?, Json.write?, Json.writeValue?_eq_none_iff.2 lacks, Option.map_none]

theorem splitOn_text {source : Text} {diagnostics : List Diagnostic}
    (filled : records source diagnostics ≠ [])
    (oneLine : ∀ r ∈ records source diagnostics, r.IsOneLine) :
    (text (.str source) diagnostics).splitOn '\n'
      = (records source diagnostics).map Record.shown := by
  rw [text_eq, Text.splitOn_eq_iff]
  refine ⟨?_, ?_, rfl⟩
  · rwa [Ne, List.map_eq_nil_iff]
  · intro shown listed
    obtain ⟨r, member, rfl⟩ := List.mem_map.1 listed
    obtain ⟨d, _, rfl⟩ := List.mem_map.1 member
    exact lineFeed_not_mem_shown (oneLine _ member)

theorem exists_json (source : Text) {diagnostics : List Diagnostic}
    (writable : haveWritablePositions diagnostics = true) :
    ∃ json, json? (.str source) diagnostics = some json
      ∧ ((∀ r ∈ records source diagnostics, r.IsUnpaired) →
        Json.read json.toList = .ok (.seq ((records source diagnostics).map Record.toValue))) := by
  have each := (haveWritablePositions_iff source).1 writable
  rw [json?, items_eq]
  generalize records source diagnostics = entries at each
  cases written : Json.write? .indented (.seq (entries.map Record.toValue)) with
  | none =>
      rw [Json.write?, Option.map_eq_none_iff, Json.writeValue?_eq_none_iff,
        lacksJson_records_iff] at written
      exact absurd each written
  | some json =>
      refine ⟨json, rfl, ?_⟩
      intro unpaired
      have isExact : (Value.seq (entries.map Record.toValue)).IsExact := by
        apply Value.IsExact.seq
        intro v listed
        obtain ⟨r, member, rfl⟩ := List.mem_map.1 listed
        exact Record.isExact_toValue (each r member) (unpaired r member)
      obtain ⟨again, rewritten, read⟩ := Json.exists_read_written isExact .indented
      rw [written] at rewritten
      cases rewritten
      exact read

/-- Diagnostics are shown by position, and those at one position in the order in which they were
recorded.  Both formats show the same records of them: the JSON text is read back as the records,
unless halves of a character stand side by side in one of their texts, and the text has a line for
each record, unless a record holds line feeds of its own.  When an integer among the positions has
too many digits, there is no report in either format. -/
theorem formats_show_records (source : Text) (diagnostics : List Diagnostic) :
    Diagnostic.IsStablySorted diagnostics (Diagnostic.sorted diagnostics)
      ∧ (haveWritablePositions diagnostics = true →
          ∃ text json, text? (.str source) diagnostics = some text
            ∧ json? (.str source) diagnostics = some json
            ∧ Shows text json (records source diagnostics))
      ∧ (haveWritablePositions diagnostics = false →
          text? (.str source) diagnostics = none ∧ json? (.str source) diagnostics = none) := by
  refine ⟨Diagnostic.isStablySorted_sorted diagnostics, ?_, text?_and_json?_of_unwritable⟩
  intro writable
  obtain ⟨json, written, readBack⟩ := exists_json source writable
  refine ⟨text (.str source) diagnostics, json, if_pos writable, written, ?_⟩
  have nothing : records source diagnostics = [] → text (.str source) diagnostics = "" := by
    intro empty
    rw [text_eq, empty]
    rfl
  exact ⟨readBack, splitOn_text, nothing⟩

/-- A source with marks, a control character and characters of every width in its name. -/
def noticeSource : Text := "a \"b\" \\ \x01 é ✓ 😀.css"

/-- Three diagnostics, two of them at one position. -/
def notices : List Diagnostic :=
  [⟨"block-no-empty", .error, "Unexpected empty block", ⟨4, -2⟩⟩,
    ⟨"declaration-no-important", .warning, "Unexpected !important", ⟨1, 5⟩⟩,
    ⟨"color-no-invalid-hex", .error, "Unexpected invalid hex color \"#ff\"", ⟨1, 5⟩⟩]

/-- A diagnostic in a line of too many digits. -/
def endlessNotice : Diagnostic := ⟨"block-no-empty", .error, "", ⟨Number.leastUnwritable, 1⟩⟩

/-- What both formats show of the three diagnostics. -/
def noticeRecords : List Record :=
  [⟨noticeSource, 1, 5, "declaration-no-important", "warning", "Unexpected !important"⟩,
    ⟨noticeSource, 1, 5, "color-no-invalid-hex", "error",
      "Unexpected invalid hex color \"#ff\""⟩,
    ⟨noticeSource, 4, -2, "block-no-empty", "error", "Unexpected empty block"⟩]

theorem records_notices : records noticeSource notices = noticeRecords := by
  simp [records, notices, noticeRecords, Diagnostic.sorted, List.mergeSort, Position.le,
    Record.ofDiagnostic, Severity.label]

theorem formats_show_records_notices :
    (∃ text json, text? (.str noticeSource) notices = some text
        ∧ json? (.str noticeSource) notices = some json
        ∧ Json.read json.toList = .ok (.seq (noticeRecords.map Record.toValue))
        ∧ text.splitOn '\n' = noticeRecords.map Record.shown)
      ∧ text? (.str noticeSource) [endlessNotice] = none
      ∧ json? (.str noticeSource) [endlessNotice] = none := by
  constructor
  · have writable : haveWritablePositions notices = true := by decide +kernel
    obtain ⟨text, json, shown, written, shows⟩ :=
      (formats_show_records noticeSource notices).2.1 writable
    rw [records_notices] at shows
    have unpaired : ∀ r ∈ noticeRecords, r.IsUnpaired := by
      simp [noticeRecords, noticeSource, Record.IsUnpaired, Text.isUnpaired_ofString]
    have oneLine : ∀ r ∈ noticeRecords, r.IsOneLine := by
      unfold Record.IsOneLine
      decide
    exact ⟨text, json, shown, written, shows.readBack unpaired,
      shows.lines (List.cons_ne_nil _ _) oneLine⟩
  · have unwritable : haveWritablePositions [endlessNotice] = false := by decide +kernel
    exact (formats_show_records noticeSource [endlessNotice]).2.2 unwritable

end Report

end StyleAudit
