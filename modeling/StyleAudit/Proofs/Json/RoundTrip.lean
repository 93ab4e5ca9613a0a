/-
Module: StyleAudit.Proofs.Json.RoundTrip
Purpose: Values that a JSON text tells exactly are read back from what is written for them.
Trusted boundary: none
Main exports: Value.IsExact, Json.EndsNumber, Json.Reads, Json.readScalar_integer,
  Json.readItems_of_lists, Json.readMembers_of_lists, Json.exists_reads, Json.exists_read_written
-/
import StyleAudit.Proofs.Json.StringReading
import StyleAudit.Proofs.Json.Written
import StyleAudit.Proofs.Value.KeyOrder
import Mathlib.Data.List.Forall2

namespace StyleAudit

/-- A value that a JSON text tells exactly: without dates, bytes, sets and numbers that are no
integers, its integers of not too many digits, its texts without halves of a character side by
side, and its keys distinct texts. -/
inductive Value.IsExact : Value → Prop where
  | null : Value.IsExact .null
  | bool (b : Bool) : Value.IsExact (.bool b)
  | int {n : Int} (writable : Number.isWritable n = true) : Value.IsExact (.int n)
  | str {s : Text} (unpaired : s.IsUnpaired) : Value.IsExact (.str s)
  | seq {items : List Value} (each : ∀ v ∈ items, Value.IsExact v) : Value.IsExact (.seq items)
  | map {entries : List (Key × Value)} (distinct : Table.isDistinct entries = true)
      (named : ∀ entry ∈ entries, ∃ name : Text, entry.1 = .str name ∧ name.IsUnpaired)
      (each : ∀ entry ∈ entries, Value.IsExact entry.2) : Value.IsExact (.map entries)

/-- Entries with distinct keys make a table of themselves. -/
theorem Table.ofList_of_isDistinct {entries : List (Key × Value)}
    (distinct : Table.isDistinct entries = true) : Table.ofList entries = entries := by
  have onto : ∀ (rest before : List (Key × Value)), Table.isDistinct (before ++ rest) = true →
      rest.foldl (fun table entry => Table.put entry.1 entry.2 table) before = before ++ rest := by
    intro rest
    induction rest with
    | nil => exact fun before _ => (List.append_nil before).symm
    | cons entry rest ih =>
        intro before distinct
        have fresh : Table.get? entry.1 before = none :=
          Table.get?_eq_none_of_isDistinct_append distinct
        have regrouped : before ++ entry :: rest = (before ++ [entry]) ++ rest := by simp
        rw [regrouped] at distinct
        rw [List.foldl_cons, Table.put_of_fresh fresh, ih _ distinct, regrouped]
  exact onto entries [] distinct

namespace Json

open Format

/-!
### White space
-/

theorem isSpace_iff {c : Char} : isSpace c = true ↔ c ∈ spaces := by
  simp [isSpace, spaces, or_assoc]

/-- White space is skipped up to a character that is none. -/
theorem skipSpace_append {before : List Char} (space : IsSpace before) {c : Char}
    (ink : isSpace c = false) (rest : List Char) :
    skipSpace (before ++ c :: rest) = c :: rest := by
  rw [skipSpace, List.dropWhile_append_of_pos, List.dropWhile_cons_of_neg]
  · simp [ink]
  · exact fun other member => isSpace_iff.2 (space other member)

/-!
### Integers
-/

/-- What stands behind a number does not go on with it. -/
def EndsNumber (rest : List Char) : Prop :=
  ∀ c ∈ rest.head?, c.isDigit = false ∧ c ≠ '.' ∧ c ≠ 'e' ∧ c ≠ 'E'

/-- What stands behind the white space behind an item. -/
def closers : List Char := [',', ']', '\x7d']

theorem endsNumber_append {after : List Char} (space : IsSpace after) {c : Char}
    (closing : c ∈ closers) (rest : List Char) : EndsNumber (after ++ c :: rest) := by
  have ends : ∀ c ∈ spaces ++ closers,
      c.isDigit = false ∧ c ≠ '.' ∧ c ≠ 'e' ∧ c ≠ 'E' := by
    simp [spaces, closers]
  intro first head
  apply ends
  rw [List.mem_append]
  cases after with
  | nil =>
      cases head
      exact .inr closing
  | cons other others =>
      cases head
      exact .inl (space _ List.mem_cons_self)

theorem digitValue?_digitChar : ∀ d < 10, digitValue? (Nat.digitChar d) = some d := by
  decide

theorem naturalOfDigits_toDigits (n : Nat) : naturalOfDigits 10 (Nat.toDigits 10 n) = n := by
  induction n using Nat.strongRecOn with
  | ind n ih =>
      rw [Nat.toDigits_eq_if (by decide)]
      split
      · rename_i small
        have single : naturalOfDigits 10 ([] ++ [Nat.digitChar n])
            = naturalOfDigits 10 [] * 10 + n :=
          naturalOfDigits_concat (digitValue?_digitChar n small) []
        exact single.trans (Nat.zero_add n)
      · rw [naturalOfDigits_concat (digitValue?_digitChar _ (Nat.mod_lt n (by decide))),
          ih (n / 10) (by omega)]
        omega

theorem length_toDigits_le {n limit : Nat} (positive : 0 < limit) (bound : n < Nat.pow 10 limit) :
    (Nat.toDigits 10 n).length ≤ limit :=
  (Nat.length_toDigits_le_iff (by decide) positive).2 bound

theorem boundedInteger_toDigits {n : Nat} (writable : n < Number.leastUnwritable)
    (negative : Bool) :
    boundedInteger negative (Nat.toDigits 10 n) = .ok (if negative then -(n : Int) else n) := by
  unfold Number.leastUnwritable at writable
  have short : (Nat.toDigits 10 n).length ≤ Number.digitLimit :=
    length_toDigits_le (by decide) writable
  rw [boundedInteger, if_neg (Nat.not_lt.2 short), naturalOfDigits_toDigits]

theorem readFraction_of_ends {rest : List Char} (ends : EndsNumber rest) :
    readFraction rest = ([], rest) := by
  rw [readFraction]
  rintro others rfl
  exact (ends _ rfl).2.1 rfl

theorem readExponent_of_ends {rest : List Char} (ends : EndsNumber rest) :
    readExponent rest = (none, rest) := by
  cases rest with
  | nil => rfl
  | cons c others =>
      obtain ⟨_, _, notSmall, notCapital⟩ := ends c rfl
      simp [readExponent, notSmall, notCapital]

theorem span_of_ends {digits rest : List Char} (areDigits : ∀ c ∈ digits, c.isDigit = true)
    (ends : EndsNumber rest) : span Char.isDigit (digits ++ rest) = (digits, rest) := by
  rw [span, List.takeWhile_append_of_pos areDigits, List.dropWhile_append_of_pos areDigits]
  cases rest with
  | nil => simp
  | cons c others => simp [(ends c rfl).1]

/-- Digits are read as an integer when nothing behind them goes on with it. -/
theorem readMagnitude_toDigits {n : Nat} (writable : n < Number.leastUnwritable)
    (negative : Bool) {rest : List Char} (ends : EndsNumber rest) :
    readMagnitude negative (Nat.toDigits 10 n ++ rest)
      = .ok (.int (if negative then -(n : Int) else n), rest) := by
  have bounded := boundedInteger_toDigits writable negative
  have spanned := span_of_ends (@isDigit_of_mem_toDigits n) ends
  rcases Nat.eq_zero_or_pos n with rfl | positive
  · rw [Nat.toDigits_zero] at bounded ⊢
    simp [readMagnitude, readFraction_of_ends ends, readExponent_of_ends ends, bounded, Except.map]
  · obtain ⟨first, others, digits, notZero⟩ := toDigits_of_pos n positive
    rw [digits] at bounded spanned ⊢
    rw [List.cons_append] at spanned ⊢
    simp [readMagnitude, notZero, spanned, readFraction_of_ends ends, readExponent_of_ends ends,
      bounded, Except.map]

theorem readScalar_of_digit {c : Char} (digit : c.isDigit = true) (s : List Char) :
    readScalar (c :: s) = readMagnitude false (c :: s) := by
  rw [readScalar]
  all_goals
    rintro others listed
    cases listed
    cases digit

theorem readScalar_of_minus {c : Char} (digit : c.isDigit = true) (s : List Char) :
    readScalar ('-' :: c :: s) = readMagnitude true (c :: s) := by
  rw [readScalar]
  rintro others listed
  cases listed
  cases digit

theorem exists_toDigits (n : Nat) :
    ∃ c s, Nat.toDigits 10 n = c :: s ∧ c.isDigit = true := by
  obtain ⟨some, digits⟩ := areDigits_toDigits n
  obtain ⟨c, s, listed⟩ := List.exists_cons_of_ne_nil some
  exact ⟨c, s, listed, digits c (listed ▸ List.mem_cons_self)⟩

/-- An integer that was written is read back when nothing behind it goes on with it. -/
theorem readScalar_integer {n : Int} (writable : Number.isWritable n = true) {rest : List Char}
    (ends : EndsNumber rest) :
    readScalar ((toString n).toList ++ rest) = .ok (.int n, rest) := by
  have magnitude : n.natAbs < Number.leastUnwritable := of_decide_eq_true writable
  obtain ⟨c, s, listed, digit⟩ := exists_toDigits n.natAbs
  have read : ∀ negative, readMagnitude negative (c :: s ++ rest)
      = .ok (.int (if negative then -(n.natAbs : Int) else n.natAbs), rest) := by
    intro negative
    rw [← listed]
    exact readMagnitude_toDigits magnitude negative ends
  rw [toList_toString, listed]
  by_cases negative : n < 0
  · have value : -(n.natAbs : Int) = n := by omega
    rw [if_pos negative, List.cons_append, List.cons_append, readScalar_of_minus digit,
      ← List.cons_append, read, if_pos rfl, value]
  · have value : (n.natAbs : Int) = n := by omega
    rw [if_neg negative, List.cons_append, readScalar_of_digit digit, ← List.cons_append, read,
      if_neg Bool.false_ne_true, value]

/-!
### Scalars
-/

/-- A text is read as a value when nothing behind it goes on with a number.  It starts with
something other than white space, and needs no more fuel than it is long. -/
structure Reads (text : List Char) (v : Value) : Prop where
  starts : ∃ first rest, text = first :: rest ∧ isSpace first = false
  reads : ∀ {fuel rest}, text.length ≤ fuel → EndsNumber rest →
    readValue fuel (text ++ rest) = .ok (v, rest)

/-- The characters with which no word and no number starts. -/
def otherStarts : List Char := ['"', '[', '\x7b'] ++ spaces

theorem reads_of_scalar {first : Char} {others : List Char} {v : Value}
    (starts : ∀ c ∈ otherStarts, first ≠ c)
    (scalar : ∀ rest, EndsNumber rest →
      readScalar (first :: others ++ rest) = .ok (v, rest)) : Reads (first :: others) v := by
  simp only [otherStarts, List.forall_mem_append, List.forall_mem_cons] at starts
  obtain ⟨⟨noQuote, noBracket, noBrace, _⟩, noSpace⟩ := starts
  have ink : isSpace first = false :=
    Bool.eq_false_iff.2 fun space => noSpace first (isSpace_iff.1 space) rfl
  refine ⟨⟨first, others, rfl, ink⟩, ?_⟩
  intro fuel rest enough ends
  obtain ⟨fuel, rfl⟩ := Nat.exists_eq_add_of_lt enough
  have read := scalar rest ends
  rw [List.cons_append] at read ⊢
  rw [readValue, read]
  · intro _ listed
    exact noQuote (List.cons.inj listed).1
  · intro _ listed
    exact noBracket (List.cons.inj listed).1
  · intro _ listed
    exact noBrace (List.cons.inj listed).1

theorem reads_null : Reads "null".toList .null := by
  show Reads ['n', 'u', 'l', 'l'] .null
  exact reads_of_scalar (by simp [otherStarts, spaces]) fun _ _ => rfl

theorem reads_bool (b : Bool) : Reads (if b then "true".toList else "false".toList) (.bool b) := by
  cases b with
  | true =>
      show Reads ['t', 'r', 'u', 'e'] (.bool true)
      exact reads_of_scalar (by simp [otherStarts, spaces]) fun _ _ => rfl
  | false =>
      show Reads ['f', 'a', 'l', 's', 'e'] (.bool false)
      exact reads_of_scalar (by simp [otherStarts, spaces]) fun _ _ => rfl

theorem ne_of_isDigit {c : Char} (digit : c.isDigit = true) : ∀ other ∈ otherStarts, c ≠ other := by
  have noDigit : ∀ other ∈ otherStarts, other.isDigit = false := by
    simp [otherStarts, spaces]
  rintro other member rfl
  rw [noDigit _ member] at digit
  cases digit

theorem reads_integer {n : Int} (writable : Number.isWritable n = true) :
    Reads (toString n).toList (.int n) := by
  have scalar : ∀ rest, EndsNumber rest →
      readScalar ((toString n).toList ++ rest) = .ok (.int n, rest) :=
    fun rest ends => readScalar_integer writable ends
  obtain ⟨c, s, listed, digit⟩ := exists_toDigits n.natAbs
  rw [toList_toString, listed] at scalar ⊢
  by_cases negative : n < 0
  · rw [if_pos negative] at scalar ⊢
    exact reads_of_scalar (by simp [otherStarts, spaces]) scalar
  · rw [if_neg negative] at scalar ⊢
    exact reads_of_scalar (ne_of_isDigit digit) scalar

theorem reads_string {t : Text} (unpaired : t.IsUnpaired) : Reads (writeString t) (.str t) := by
  refine ⟨⟨_, _, rfl, rfl⟩, ?_⟩
  intro fuel rest enough _
  obtain ⟨fuel, rfl⟩ := Nat.exists_eq_add_of_lt enough
  have read := readString_written unpaired rest
  rw [writeString, List.cons_append, List.cons_append, List.append_assoc, List.singleton_append,
    readValue, read]
  rfl

/-!
### Lists
-/

/-- Behind white space an item starts where its text does. -/
theorem Reads.skipSpace {text before : List Char} {v : Value} (read : Reads text v)
    (space : IsSpace before) (rest : List Char) :
    skipSpace (before ++ text ++ rest) = text ++ rest := by
  obtain ⟨first, others, rfl, ink⟩ := read.starts
  rw [List.append_assoc, List.cons_append]
  exact skipSpace_append space ink _

theorem skipSpace_closing {after : List Char} (space : IsSpace after) {c : Char}
    (closing : c ∈ closers) (rest : List Char) :
    skipSpace (after ++ c :: rest) = c :: rest := by
  have ink : ∀ c ∈ closers, isSpace c = false := by
    simp [closers, isSpace]
  exact skipSpace_append space (ink c closing) rest

/-- A list of texts, each of which is read as a value, is read as the values. -/
theorem readItems_of_lists {texts : List (List Char)} {s : List Char} (listed : Lists texts s) :
    ∀ {items : List Value} {fuel : Nat}, List.Forall₂ Reads texts items → s.length ≤ fuel →
      ∀ rest, readItems (fuel + 1) (skipSpace (s ++ ']' :: rest)) = .ok (items, rest) := by
  induction listed with
  | @one before text after space spaceAfter =>
      intro items fuel each enough rest
      cases each with
      | @cons _ v _ _ read none =>
          cases none
          simp only [List.length_append] at enough
          have bracket : ']' ∈ closers := by decide
          have item : readValue fuel (text ++ (after ++ ']' :: rest))
              = .ok (v, after ++ ']' :: rest) :=
            read.reads (by omega) (endsNumber_append spaceAfter bracket rest)
          rw [List.append_assoc (before ++ text), read.skipSpace space, readItems, item]
          simp only [bind, Except.bind, skipSpace_closing spaceAfter bracket]
  | @more before text after s texts space spaceAfter _ ih =>
      intro items fuel each enough rest
      cases each with
      | @cons _ v _ others read each =>
          simp only [List.length_append, List.length_cons] at enough
          obtain ⟨fuel, rfl⟩ : ∃ less, fuel = less + 1 := ⟨fuel - 1, by omega⟩
          have comma : ',' ∈ closers := by decide
          have item : readValue (fuel + 1) (text ++ (after ++ ',' :: (s ++ ']' :: rest)))
              = .ok (v, after ++ ',' :: (s ++ ']' :: rest)) :=
            read.reads (by omega) (endsNumber_append spaceAfter comma _)
          have behind : readItems (fuel + 1) (skipSpace (s ++ ']' :: rest)) = .ok (others, rest) :=
            ih each (by omega) rest
          rw [List.append_assoc, List.append_assoc (before ++ text), List.cons_append,
            read.skipSpace space, readItems, item]
          simp only [bind, Except.bind, skipSpace_closing spaceAfter comma, behind]

/-!
### Objects
-/

/-- A member of an object is read as an entry of a mapping. -/
structure ReadsMember (m : Member) (entry : Key × Value) : Prop where
  name : ∃ name : Text, entry.1 = .str name ∧ name.IsUnpaired ∧ m.name = writeString name
  between : IsSpace m.between
  gap : IsSpace m.gap
  value : Reads m.value entry.2

section Members

variable {m : Member} {key : Key} {v : Value}

/-- What stands between the mark that opens a member's name and the member's value. -/
theorem ReadsMember.exists_text (reads : ReadsMember m (key, v)) :
    ∃ name : Text, key = .str name ∧ name.IsUnpaired ∧ ∀ rest, m.text ++ rest
      = '"' :: (name.points.flatMap escapePoint
          ++ '"' :: (m.between ++ ':' :: (m.gap ++ m.value ++ rest))) := by
  obtain ⟨name, rfl, unpaired, written⟩ := reads.name
  refine ⟨name, rfl, unpaired, ?_⟩
  intro rest
  simp [Member.text, Member.front, written, writeString]

theorem ReadsMember.skipSpace {before : List Char} (reads : ReadsMember m (key, v))
    (space : IsSpace before) (rest : List Char) :
    skipSpace (before ++ m.text ++ rest) = m.text ++ rest := by
  obtain ⟨name, _, _, text⟩ := reads.exists_text
  rw [List.append_assoc, text]
  exact skipSpace_append space (by decide) _

theorem length_value_lt_text (m : Member) : m.value.length < m.text.length := by
  simp only [Member.text, Member.front, List.length_append, List.length_cons]
  omega

end Members

/-- A list of members, each of which is read as an entry, is read as the entries. -/
theorem readMembers_of_lists {members : List Member} :
    ∀ {s : List Char} {entries : List (Key × Value)} {fuel : Nat},
      Lists (members.map Member.text) s → List.Forall₂ ReadsMember members entries →
      s.length ≤ fuel → ∀ rest,
        readMembers (fuel + 1) (skipSpace (s ++ '\x7d' :: rest)) = .ok (entries, rest) := by
  induction members with
  | nil =>
      intro s entries fuel listed
      cases listed
  | cons m members ih =>
      intro s entries fuel listed each enough rest
      cases each with
      | @cons _ entry _ others reads each =>
          obtain ⟨key, v⟩ := entry
          obtain ⟨name, rfl, unpaired, text⟩ := reads.exists_text
          have shorter := length_value_lt_text m
          have colon : isSpace ':' = false := by decide
          rw [List.map_cons] at listed
          generalize texts : members.map Member.text = behind at listed
          cases listed with
          | @one before _ after space spaceAfter =>
              obtain rfl := List.map_eq_nil_iff.1 texts
              cases each
              simp only [List.length_append] at enough
              have brace : '\x7d' ∈ closers := by decide
              have item : readValue fuel (m.value ++ (after ++ '\x7d' :: rest))
                  = .ok (v, after ++ '\x7d' :: rest) :=
                reads.value.reads (by omega) (endsNumber_append spaceAfter brace rest)
              rw [List.append_assoc (before ++ m.text), reads.skipSpace space, text, readMembers,
                readString_written unpaired]
              simp only [bind, Except.bind, skipSpace_append reads.between colon,
                reads.value.skipSpace reads.gap, item, skipSpace_closing spaceAfter brace]
          | @more before _ after s _ space spaceAfter listed =>
              subst texts
              simp only [List.length_append, List.length_cons] at enough
              obtain ⟨fuel, rfl⟩ : ∃ less, fuel = less + 1 := ⟨fuel - 1, by omega⟩
              have comma : ',' ∈ closers := by decide
              have item : readValue (fuel + 1) (m.value ++ (after ++ ',' :: (s ++ '\x7d' :: rest)))
                  = .ok (v, after ++ ',' :: (s ++ '\x7d' :: rest)) :=
                reads.value.reads (by omega) (endsNumber_append spaceAfter comma _)
              have later : readMembers (fuel + 1) (skipSpace (s ++ '\x7d' :: rest))
                  = .ok (others, rest) :=
                ih listed each (by omega) rest
              rw [List.append_assoc, List.append_assoc (before ++ m.text), List.cons_append,
                reads.skipSpace space, text, readMembers, readString_written unpaired]
              simp only [bind, Except.bind, skipSpace_append reads.between colon,
                reads.value.skipSpace reads.gap, item, skipSpace_closing spaceAfter comma, later]

/-!
### Values
-/

/-- No value starts with what closes a list. -/
theorem readValue_closing (fuel : Nat) (after : List Char) :
    readValue fuel (']' :: after) = .error .malformed := by
  cases fuel <;> rfl

theorem reads_emptySeq : Reads ['[', ']'] (.seq []) := by
  refine ⟨⟨_, _, rfl, rfl⟩, ?_⟩
  intro fuel rest enough _
  obtain ⟨fuel, rfl⟩ := Nat.exists_eq_add_of_lt enough
  rfl

theorem reads_emptyMap : Reads ['\x7b', '\x7d'] (.map []) := by
  refine ⟨⟨_, _, rfl, rfl⟩, ?_⟩
  intro fuel rest enough _
  obtain ⟨fuel, rfl⟩ := Nat.exists_eq_add_of_lt enough
  rfl

theorem reads_seq {texts : List (List Char)} {s : List Char} {items : List Value}
    (listed : Lists texts s) (each : List.Forall₂ Reads texts items) :
    Reads ('[' :: s ++ [']']) (.seq items) := by
  refine ⟨⟨_, _, rfl, rfl⟩, ?_⟩
  intro fuel rest enough _
  simp only [List.length_append, List.length_cons, List.length_nil] at enough
  obtain ⟨fuel, rfl⟩ : ∃ less, fuel = less + 1 + 1 := ⟨fuel - 2, by omega⟩
  have read : readItems (fuel + 1) (skipSpace (s ++ ']' :: rest)) = .ok (items, rest) :=
    readItems_of_lists listed each (by omega) rest
  rw [List.append_assoc, List.singleton_append, List.cons_append, readValue]
  split
  · rename_i ends
    rw [ends, readItems, readValue_closing] at read
    cases read
  · rw [read]
    rfl

theorem reads_map {members : List Member} {s : List Char} {entries : List (Key × Value)}
    (listed : Lists (members.map Member.text) s) (each : List.Forall₂ ReadsMember members entries)
    (distinct : Table.isDistinct entries = true) :
    Reads ('\x7b' :: s ++ ['\x7d']) (.map entries) := by
  refine ⟨⟨_, _, rfl, rfl⟩, ?_⟩
  intro fuel rest enough _
  simp only [List.length_append, List.length_cons, List.length_nil] at enough
  obtain ⟨fuel, rfl⟩ : ∃ less, fuel = less + 1 + 1 := ⟨fuel - 2, by omega⟩
  have read : readMembers (fuel + 1) (skipSpace (s ++ '\x7d' :: rest)) = .ok (entries, rest) :=
    readMembers_of_lists listed each (by omega) rest
  rw [List.append_assoc, List.singleton_append, List.cons_append, readValue]
  split
  · rename_i ends
    rw [ends, readMembers] at read
    cases read
    rintro start ⟨⟩
  · rw [read]
    exact congrArg (fun table => Except.ok (Value.map table, rest))
      (Table.ofList_of_isDistinct distinct)

/-!
### What is written
-/

section Written

variable {layout : Layout} {depth : Nat}

theorem exists_readItems {items : List Value}
    (each : ∀ v ∈ items, ∃ text, writeValue? layout depth v = some text ∧ Reads text v) :
    ∃ texts, writeItems? layout depth items = some texts ∧ List.Forall₂ Reads texts items := by
  induction items with
  | nil => exact ⟨[], rfl, .nil⟩
  | cons v rest ih =>
      rw [List.forall_mem_cons] at each
      obtain ⟨⟨text, written, reads⟩, others⟩ := each
      obtain ⟨texts, writtenOthers, readsOthers⟩ := ih others
      refine ⟨text :: texts, ?_, .cons reads readsOthers⟩
      rw [writeItems?, written, writtenOthers]
      rfl

theorem exists_readMembers {entries : List (Key × Value)}
    (named : ∀ entry ∈ entries, ∃ name : Text, entry.1 = .str name ∧ name.IsUnpaired)
    (each : ∀ entry ∈ entries, ∃ text, writeValue? layout depth entry.2 = some text
      ∧ Reads text entry.2) :
    ∃ members, writeMembers? layout depth entries = some (members.map Member.text)
      ∧ List.Forall₂ ReadsMember members entries := by
  induction entries with
  | nil => exact ⟨[], rfl, .nil⟩
  | cons entry rest ih =>
      obtain ⟨key, v⟩ := entry
      rw [List.forall_mem_cons] at named each
      obtain ⟨⟨name, rfl, unpaired⟩, namedOthers⟩ := named
      obtain ⟨⟨text, written, reads⟩, others⟩ := each
      obtain ⟨members, writtenOthers, readsOthers⟩ := ih namedOthers others
      have member : ReadsMember ⟨writeString name, [], [' '], text⟩ (.str name, v) :=
        ⟨⟨name, rfl, unpaired, rfl⟩, List.forall_mem_nil _, List.forall_mem_singleton.2 (by decide),
          reads⟩
      refine ⟨⟨writeString name, [], [' '], text⟩ :: members, ?_, .cons member readsOthers⟩
      rw [writeMembers?, memberName?, written, writtenOthers]
      simp [Member.text, Member.front]

end Written

/-- A value that a JSON text tells exactly is written, and read back from what is written. -/
theorem exists_reads {v : Value} (isExact : v.IsExact) (layout : Layout) :
    ∀ depth, ∃ text, writeValue? layout depth v = some text ∧ Reads text v := by
  induction isExact with
  | null => exact fun _ => ⟨_, rfl, reads_null⟩
  | bool b => exact fun _ => ⟨_, rfl, reads_bool b⟩
  | int writable =>
      intro depth
      refine ⟨_, ?_, reads_integer writable⟩
      rw [writeValue?, writeInteger?, if_pos writable]
  | str unpaired => exact fun _ => ⟨_, rfl, reads_string unpaired⟩
  | @seq items _ ih =>
      intro depth
      obtain ⟨texts, written, reads⟩ := exists_readItems fun v member => ih v member (depth + 1)
      refine ⟨enclose layout depth '[' ']' texts, ?_, ?_⟩
      · rw [writeValue?, written, Option.map_some]
      · cases texts with
        | nil =>
            cases reads
            exact reads_emptySeq
        | cons text others =>
            obtain ⟨s, listed, enclosed⟩ := exists_lists_enclose layout depth '[' ']'
              (List.cons_ne_nil text others)
            rw [enclosed]
            exact reads_seq listed reads
  | @map entries distinct named _ ih =>
      intro depth
      obtain ⟨members, written, reads⟩ :=
        exists_readMembers named fun entry member => ih entry member (depth + 1)
      refine ⟨enclose layout depth '\x7b' '\x7d' (members.map Member.text), ?_, ?_⟩
      · rw [writeValue?, written, Option.map_some]
      · cases members with
        | nil =>
            cases reads
            exact reads_emptyMap
        | cons m others =>
            have some : (m :: others).map Member.text ≠ [] := List.cons_ne_nil _ _
            obtain ⟨s, listed, enclosed⟩ := exists_lists_enclose layout depth '\x7b' '\x7d' some
            rw [enclosed]
            exact reads_map listed reads distinct

/-- Writing a value that a JSON text tells exactly, and reading the text, gives the value. -/
theorem exists_read_written {v : Value} (isExact : v.IsExact) (layout : Layout) :
    ∃ json, write? layout v = some json ∧ read json.toList = .ok v := by
  obtain ⟨text, written, reads⟩ := exists_reads isExact layout 0
  refine ⟨String.ofList text, ?_, ?_⟩
  · rw [write?, written, Option.map_some]
  · obtain ⟨first, others, start, ink⟩ := reads.starts
    have ends : EndsNumber [] := by rintro _ ⟨⟩
    have whole : readValue (2 * text.length + 2) (text ++ []) = .ok (v, []) :=
      reads.reads (by omega) ends
    rw [List.append_nil] at whole
    have unspaced : skipSpace text = text := by
      rw [start]
      exact skipSpace_append (List.forall_mem_nil _) ink others
    rw [String.toList_ofList, read, unspaced, whole]
    rfl

end Json

end StyleAudit
