/-
Module: StyleAudit.Proofs.Json.Written
Purpose: Which values are written as JSON, and that what is written is a JSON text exactly when
  all numbers in it are finite.
Trusted boundary: none
Main exports: Value.Somewhere, Value.IsFormless, Value.IsNotFinite, Json.isString_writeString,
  Json.writeValue?_eq_none_iff, Json.isValue_of_written, Json.isJson_written_iff,
  Json.isShown_of_written
-/
import StyleAudit.Json.Printer
import StyleAudit.Proofs.Json.Numerals
import Mathlib.Data.List.Basic

namespace StyleAudit

/-!
### Parts of values
-/

/-- The value, or one that it holds at some depth, has a property, or a key at some depth has
another one. -/
inductive Value.Somewhere (property : Value → Prop) (keyProperty : Key → Prop) : Value → Prop where
  | here {v : Value} (has : property v) : Value.Somewhere property keyProperty v
  | item {items : List Value} {v : Value} (member : v ∈ items)
      (inside : Value.Somewhere property keyProperty v) :
      Value.Somewhere property keyProperty (.seq items)
  | value {entries : List (Key × Value)} {entry : Key × Value} (member : entry ∈ entries)
      (inside : Value.Somewhere property keyProperty entry.2) :
      Value.Somewhere property keyProperty (.map entries)
  | key {entries : List (Key × Value)} {entry : Key × Value} (member : entry ∈ entries)
      (has : keyProperty entry.1) : Value.Somewhere property keyProperty (.map entries)

/-- What holds of a sequence or a mapping when it holds of what it holds, and holds of all that
is neither, holds of every value. -/
theorem Value.parts_induction {motive : Value → Prop}
    (leaf : ∀ v, (∀ items, v ≠ .seq items) → (∀ entries, v ≠ .map entries) → motive v)
    (seq : ∀ items, (∀ v ∈ items, motive v) → motive (.seq items))
    (map : ∀ entries, (∀ entry ∈ entries, motive entry.2) → motive (.map entries))
    (v : Value) : motive v := by
  induction size : sizeOf v using Nat.strongRecOn generalizing v with
  | _ bound ih =>
      cases v with
      | seq items =>
          refine seq items ?_
          intro item member
          have inside := List.sizeOf_lt_of_mem member
          rw [Value.seq.sizeOf_spec] at size
          exact ih (sizeOf item) (by omega) item rfl
      | map entries =>
          refine map entries ?_
          rintro ⟨key, v⟩ member
          have inside := List.sizeOf_lt_of_mem member
          rw [Value.map.sizeOf_spec] at size
          rw [Prod.mk.sizeOf_spec] at inside
          exact ih (sizeOf v) (by omega) v rfl
      | _ => exact leaf _ (by rintro _ ⟨⟩) (by rintro _ ⟨⟩)

/-- A value that has no JSON form, whatever it holds: a date or time, bytes, a set, or an integer
of too many digits. -/
inductive Value.IsFormless : Value → Prop where
  | moment (m : Moment) : Value.IsFormless (.moment m)
  | bytes (data : List UInt8) : Value.IsFormless (.bytes data)
  | set (members : List Key) : Value.IsFormless (.set members)
  | int {n : Int} (long : Number.isWritable n = false) : Value.IsFormless (.int n)

/-- A key that names no member of an object. -/
inductive Key.IsFormless : Key → Prop where
  | moment (m : Moment) : Key.IsFormless (.moment m)
  | bytes (data : List UInt8) : Key.IsFormless (.bytes data)
  | int {n : Int} (long : Number.isWritable n = false) : Key.IsFormless (.int n)

/-- A number that is not finite. -/
inductive Value.IsNotFinite : Value → Prop where
  | nan {x : Binary64} (shape : x.shape = .nan) : Value.IsNotFinite (.float x)
  | infinite {x : Binary64} {negative : Bool} (shape : x.shape = .infinite negative) :
      Value.IsNotFinite (.float x)

/-- The value holds something that has no JSON form. -/
def Value.LacksJson : Value → Prop := Value.Somewhere Value.IsFormless Key.IsFormless

/-- The value holds a number that is not finite; keys do not count. -/
def Value.HoldsNotFinite : Value → Prop := Value.Somewhere Value.IsNotFinite fun _ => False

namespace Json

/-!
### Strings
-/

theorem isHexDigit_of_mem_hexDigits (width : Nat) :
    ∀ n, ∀ c ∈ Text.hexDigits width n, IsHexDigit c := by
  have digit : ∀ n < 16, Text.hexDigit n ∈ "0123456789abcdefABCDEF".toList := by decide
  induction width with
  | zero =>
      intro n
      exact List.forall_mem_nil _
  | succ width ih =>
      intro n
      rw [Text.hexDigits, List.forall_mem_append]
      refine ⟨ih (n / 16), ?_⟩
      rw [List.forall_mem_singleton]
      exact digit _ (Nat.mod_lt n (by decide))

theorem length_hexDigits (width : Nat) : ∀ n, (Text.hexDigits width n).length = width := by
  induction width with
  | zero => exact fun _ => rfl
  | succ width ih =>
      intro n
      rw [Text.hexDigits, List.length_append, ih, List.length_singleton]

theorem AreItems.single {item : List Char} (isItem : IsItem item) : AreItems item := by
  have items := AreItems.cons isItem .nil
  rwa [List.append_nil] at items

theorem areItems_unitEscape (code : Nat) : AreItems (unitEscape code) :=
  .single (.unit (length_hexDigits 4 code) (isHexDigit_of_mem_hexDigits 4 code))

theorem areItems_escapeCharacter (c : Char) : AreItems (escapeCharacter c) := by
  rw [escapeCharacter]
  -- The seven characters that an escape of one letter stands for.
  iterate 7
    split
    · exact .single (.escape (by decide))
  split
  · rename_i noQuote noEscape _ _ _ _ _ shown
    simp only [Bool.and_eq_true, decide_eq_true_eq] at shown
    exact .single (.plain shown.1 noQuote noEscape)
  split
  · exact areItems_unitEscape _
  · exact (areItems_unitEscape _).append (areItems_unitEscape _)

theorem areItems_escapePoint (point : CodePoint) : AreItems (escapePoint point) := by
  cases point with
  | char c => exact areItems_escapeCharacter c
  | surrogate place => exact areItems_unitEscape _

theorem isString_writeString (s : Text) : IsString (writeString s) := by
  have items : ∀ points : List CodePoint, AreItems (points.flatMap escapePoint) := by
    intro points
    induction points with
    | nil => exact .nil
    | cons point rest ih => exact (areItems_escapePoint point).append ih
  exact .quoted (items s.points)

/-!
### Lists
-/

theorem isSpace_lineBreak (layout : Layout) (depth : Nat) : IsSpace (lineBreak layout depth) := by
  cases layout with
  | compact => exact List.forall_mem_nil _
  | indented =>
      refine List.forall_mem_cons.2 ⟨by decide, ?_⟩
      intro c member
      rw [List.eq_of_mem_replicate member]
      decide

theorem exists_separator (layout : Layout) (depth : Nat) :
    ∃ gap, IsSpace gap ∧ separator layout depth = ',' :: gap := by
  cases layout with
  | compact => exact ⟨[' '], by decide, rfl⟩
  | indented => exact ⟨_, isSpace_lineBreak .indented depth, rfl⟩

theorem lists_intersperse {separator gap after : List Char} (isGap : IsSpace gap)
    (separated : separator = ',' :: gap) (spaceAfter : IsSpace after) {items : List (List Char)}
    (some : items ≠ []) : ∀ {before : List Char}, IsSpace before →
      Lists items (before ++ (items.intersperse separator).flatten ++ after) := by
  induction items with
  | nil => exact absurd rfl some
  | cons item rest ih =>
      intro before space
      cases rest with
      | nil =>
          have only : Lists [item] (before ++ item ++ after) := .one space spaceAfter
          simpa using only
      | cons other others =>
          have behind := ih (by simp) isGap
          have whole : Lists (item :: other :: others) (before ++ item ++ [] ++ ',' ::
              (gap ++ ((other :: others).intersperse separator).flatten ++ after)) :=
            .more space (List.forall_mem_nil _) behind
          simpa [separated] using whole

/-- Items between brackets, if there are any. -/
theorem exists_lists_enclose (layout : Layout) (depth : Nat) (opening closing : Char)
    {items : List (List Char)} (some : items ≠ []) :
    ∃ s, Lists items s
      ∧ enclose layout depth opening closing items = opening :: s ++ [closing] := by
  obtain ⟨gap, isGap, separated⟩ := exists_separator layout (depth + 1)
  have listed := lists_intersperse isGap separated (isSpace_lineBreak layout depth) some
    (isSpace_lineBreak layout (depth + 1))
  refine ⟨_, listed, ?_⟩
  rw [enclose, if_neg (by simpa using some)]
  simp

/-!
### Written items and members
-/

section Items

variable {layout : Layout} {depth : Nat}

/-- An entry of a mapping is written as a member. -/
structure WritesMember (layout : Layout) (depth : Nat) (entry : Key × Value) (m : Member) :
    Prop where
  name : ∃ name, memberName? entry.1 = some name ∧ m.name = writeString name
  value : writeValue? layout depth entry.2 = some m.value
  spaced : m.between = [] ∧ m.gap = [' ']

theorem writeItems?_eq_none_iff {items : List Value} :
    writeItems? layout depth items = none ↔ ∃ v ∈ items, writeValue? layout depth v = none := by
  induction items with
  | nil => simp [writeItems?]
  | cons v rest ih =>
      rw [writeItems?, List.exists_mem_cons_iff, ← ih]
      cases writeValue? layout depth v with
      | none => simp
      | some item => cases writeItems? layout depth rest <;> simp

theorem writeMembers?_eq_none_iff {entries : List (Key × Value)} :
    writeMembers? layout depth entries = none ↔
      ∃ entry ∈ entries, memberName? entry.1 = none ∨ writeValue? layout depth entry.2 = none := by
  induction entries with
  | nil => simp [writeMembers?]
  | cons entry rest ih =>
      obtain ⟨key, v⟩ := entry
      rw [writeMembers?, List.exists_mem_cons_iff, ← ih]
      cases memberName? key with
      | none => simp
      | some name =>
          cases writeValue? layout depth v with
          | none => simp
          | some item => cases writeMembers? layout depth rest <;> simp

theorem exists_of_writeItems? {items : List Value} {texts : List (List Char)}
    (written : writeItems? layout depth items = some texts) :
    (∀ text ∈ texts, ∃ v ∈ items, writeValue? layout depth v = some text)
      ∧ ∀ v ∈ items, ∃ text ∈ texts, writeValue? layout depth v = some text := by
  induction items generalizing texts with
  | nil =>
      rw [writeItems?, Option.some.injEq] at written
      subst written
      simp
  | cons v rest ih =>
      simp only [writeItems?, bind, Option.bind_eq_some_iff, pure, Option.some.injEq] at written
      obtain ⟨item, here, items, others, rfl⟩ := written
      obtain ⟨back, forth⟩ := ih others
      simp only [List.forall_mem_cons, List.exists_mem_cons_iff]
      exact ⟨⟨.inl here, fun text member => .inr (back text member)⟩, .inl here,
        fun v member => .inr (forth v member)⟩

theorem exists_of_writeMembers? {entries : List (Key × Value)} {texts : List (List Char)}
    (written : writeMembers? layout depth entries = some texts) :
    ∃ members : List Member, texts = members.map Member.text
      ∧ (∀ m ∈ members, ∃ entry ∈ entries, WritesMember layout depth entry m)
      ∧ ∀ entry ∈ entries, ∃ m ∈ members, WritesMember layout depth entry m := by
  induction entries generalizing texts with
  | nil =>
      rw [writeMembers?, Option.some.injEq] at written
      subst written
      exact ⟨[], rfl, by simp, by simp⟩
  | cons entry rest ih =>
      obtain ⟨key, v⟩ := entry
      simp only [writeMembers?, bind, Option.bind_eq_some_iff, pure, Option.some.injEq] at written
      obtain ⟨name, named, item, here, texts, others, rfl⟩ := written
      obtain ⟨members, rfl, back, forth⟩ := ih others
      have writes : WritesMember layout depth (key, v) ⟨writeString name, [], [' '], item⟩ :=
        ⟨⟨name, named, rfl⟩, here, rfl, rfl⟩
      refine ⟨⟨writeString name, [], [' '], item⟩ :: members, ?_, ?_, ?_⟩
      · simp [Member.text, Member.front]
      · simp only [List.forall_mem_cons, List.exists_mem_cons_iff]
        exact ⟨.inl writes, fun m member => .inr (back m member)⟩
      · simp only [List.forall_mem_cons, List.exists_mem_cons_iff]
        exact ⟨.inl writes, fun entry member => .inr (forth entry member)⟩

theorem WritesMember.isNamed {entry : Key × Value} {m : Member}
    (writes : WritesMember layout depth entry m) : m.IsNamed := by
  obtain ⟨⟨name, _, named⟩, _, between, gap⟩ := writes
  refine ⟨?_, ?_, ?_⟩
  · rw [named]
    exact isString_writeString name
  · rw [between]
    exact List.forall_mem_nil _
  · rw [gap]
    decide

end Items

/-!
### What has no JSON form
-/

theorem writeInteger?_eq_none_iff {n : Int} :
    writeInteger? n = none ↔ Number.isWritable n = false := by
  rw [writeInteger?]
  cases Number.isWritable n <;> simp

theorem memberName?_eq_none_iff {key : Key} : memberName? key = none ↔ key.IsFormless := by
  constructor
  · intro nameless
    cases key with
    | moment m => exact .moment m
    | bytes data => exact .bytes data
    | int n =>
        rw [memberName?, Option.map_eq_none_iff, writeInteger?_eq_none_iff] at nameless
        exact .int nameless
    | _ => cases nameless
  · intro formless
    cases formless with
    | moment m => rfl
    | bytes data => rfl
    | int long => rw [memberName?, writeInteger?_eq_none_iff.2 long, Option.map_none]

section Values

variable {layout : Layout}

theorem writeValue?_of_formless {v : Value} (formless : v.IsFormless) (depth : Nat) :
    writeValue? layout depth v = none := by
  cases formless with
  | int long => rw [writeValue?, writeInteger?_eq_none_iff.2 long]
  | _ => rw [writeValue?]

/-- A value is not written exactly when something in it has no JSON form. -/
theorem writeValue?_eq_none_iff {v : Value} :
    ∀ {depth : Nat}, writeValue? layout depth v = none ↔ v.LacksJson := by
  suffices both : (∀ depth, writeValue? layout depth v = none → v.LacksJson)
      ∧ (v.LacksJson → ∀ depth, writeValue? layout depth v = none) by
    exact fun {depth} => ⟨both.1 depth, fun lacks => both.2 lacks depth⟩
  constructor
  · induction v using Value.parts_induction with
    | leaf v notSeq notMap =>
        intro depth unwritten
        cases v with
        | moment m => exact .here (.moment m)
        | bytes data => exact .here (.bytes data)
        | set members => exact .here (.set members)
        | int n =>
            rw [writeValue?, writeInteger?_eq_none_iff] at unwritten
            exact .here (.int unwritten)
        | seq items => exact absurd rfl (notSeq items)
        | map entries => exact absurd rfl (notMap entries)
        | _ => simp [writeValue?] at unwritten
    | seq items ih =>
        intro depth unwritten
        rw [writeValue?, Option.map_eq_none_iff, writeItems?_eq_none_iff] at unwritten
        obtain ⟨v, member, lacks⟩ := unwritten
        exact .item member (ih v member _ lacks)
    | map entries ih =>
        intro depth unwritten
        rw [writeValue?, Option.map_eq_none_iff, writeMembers?_eq_none_iff] at unwritten
        obtain ⟨entry, member, nameless | lacks⟩ := unwritten
        · exact .key member (memberName?_eq_none_iff.1 nameless)
        · exact .value member (ih entry member _ lacks)
  · intro lacks
    induction lacks with
    | here formless => exact writeValue?_of_formless formless
    | item member _ ih =>
        intro depth
        rw [writeValue?, Option.map_eq_none_iff, writeItems?_eq_none_iff]
        exact ⟨_, member, ih _⟩
    | value member _ ih =>
        intro depth
        rw [writeValue?, Option.map_eq_none_iff, writeMembers?_eq_none_iff]
        exact ⟨_, member, .inr (ih _)⟩
    | key member formless =>
        intro depth
        rw [writeValue?, Option.map_eq_none_iff, writeMembers?_eq_none_iff]
        exact ⟨_, member, .inl (memberName?_eq_none_iff.2 formless)⟩

/-!
### What is written
-/

/-- The words for numbers that are not finite. -/
def numberWords : List (List Char) := ["NaN".toList, "Infinity".toList, "-Infinity".toList]

theorem writeFloat_of_notFinite {x : Binary64} (notFinite : Value.IsNotFinite (.float x)) :
    writeFloat x ∈ numberWords := by
  cases notFinite with
  | nan shape =>
      simp only [writeFloat, shape]
      decide
  | @infinite _ negative shape =>
      simp only [writeFloat, shape]
      cases negative <;> decide

/-- A number is written as one, or is not finite. -/
theorem isNumber_or_notFinite (x : Binary64) :
    IsNumber (writeFloat x) ∨ Value.IsNotFinite (.float x) := by
  cases shape : x.shape with
  | nan => exact .inr (.nan shape)
  | infinite negative => exact .inr (.infinite shape)
  | finite negative significand exponent =>
      rw [writeFloat, shape]
      exact .inl (isNumber_render shape)

/-- What is written is a value of the grammar, with the words for numbers that are not finite
unless all are. -/
theorem isValue_of_written {words : List (List Char)} (json : ∀ word ∈ jsonWords, word ∈ words)
    {v : Value} : ∀ {depth : Nat} {text : List Char}, writeValue? layout depth v = some text →
      (∀ word ∈ numberWords, word ∈ words) ∨ ¬ v.HoldsNotFinite → IsValue words text := by
  induction v using Value.parts_induction with
  | leaf v notSeq notMap =>
      intro depth text written finite
      cases v with
      | null =>
          cases written
          exact .word (json _ (by decide))
      | bool b =>
          cases written
          cases b <;> exact .word (json _ (by decide))
      | int n =>
          rw [writeValue?, writeInteger?, Option.ite_none_right_eq_some] at written
          cases written.2
          exact .number (isNumber_toString n)
      | float x =>
          cases written
          rcases isNumber_or_notFinite x with isNumber | notFinite
          · exact .number isNumber
          · rcases finite with known | none
            · exact .word (known _ (writeFloat_of_notFinite notFinite))
            · exact absurd (.here notFinite) none
      | str s =>
          cases written
          exact .string (isString_writeString s)
      | seq items => exact absurd rfl (notSeq items)
      | map entries => exact absurd rfl (notMap entries)
      | _ => cases written
  | seq items ih =>
      intro depth text written finite
      rw [writeValue?, Option.map_eq_some_iff] at written
      obtain ⟨texts, each, rfl⟩ := written
      by_cases empty : texts = []
      · rw [empty]
        exact .emptyArray (List.forall_mem_nil _)
      · obtain ⟨s, listed, enclosed⟩ := exists_lists_enclose layout depth '[' ']' empty
        rw [enclosed]
        refine .array listed ?_
        intro item member
        obtain ⟨v, inItems, writtenItem⟩ := (exists_of_writeItems? each).1 item member
        refine ih v inItems writtenItem (finite.imp_right ?_)
        exact fun none inside => none (.item inItems inside)
  | map entries ih =>
      intro depth text written finite
      rw [writeValue?, Option.map_eq_some_iff] at written
      obtain ⟨texts, each, rfl⟩ := written
      obtain ⟨members, rfl, back, _⟩ := exists_of_writeMembers? each
      by_cases empty : members.map Member.text = []
      · rw [empty]
        exact .emptyObject (List.forall_mem_nil _)
      · obtain ⟨s, listed, enclosed⟩ := exists_lists_enclose layout depth '\x7b' '\x7d' empty
        rw [enclosed]
        refine .object listed ?_ ?_
        · intro m member
          obtain ⟨entry, _, writes⟩ := back m member
          exact writes.isNamed
        · intro m member
          obtain ⟨entry, inEntries, writes⟩ := back m member
          refine ih entry inEntries writes.value (finite.imp_right ?_)
          exact fun none inside => none (.value inEntries inside)

/-- The letters that start words for numbers that are not finite, and stand in no other word. -/
def oddLetters : List Char := ['N', 'I']

theorem leaves_of_written {v : Value} {depth : Nat} {text : List Char}
    (written : writeValue? layout depth v = some text) : Leaves (fun _ => True) text := by
  have value : IsValue (jsonWords ++ numberWords) text :=
    isValue_of_written (fun _ => List.mem_append_left _) written
      (.inl fun _ => List.mem_append_right _)
  have noQuote : ∀ word ∈ jsonWords ++ numberWords, ∀ c ∈ word, c ≠ '"' := by
    simp [jsonWords, numberWords]
  exact leaves_true noQuote value

theorem shows_between {opening closing : Char} {s : List Char} (isOpening : opening ∈ marks)
    (isClosing : closing ∈ marks) {property : Char → Prop} (shown : Shows property s) :
    Shows property (opening :: s ++ [closing]) := by
  have closed : IsClosed (Leaves fun _ => True) := isClosed_leaves fun _ _ => trivial
  exact .append_right (.append_left (closed.mark isOpening) shown) (closed.mark isClosing)

/-- A number that is not finite shows in what is written.  By induction on where it stands: what is
written around it leaves no string open. -/
theorem shows_of_notFinite {v : Value} (holds : v.HoldsNotFinite) :
    ∀ {depth : Nat} {text : List Char}, writeValue? layout depth v = some text →
      Shows (· ∈ oddLetters) text := by
  have words : ∀ word ∈ numberWords, ∃ c ∈ word, c ∈ oddLetters := by
    simp [numberWords, oddLetters]
  have noQuote : ∀ word ∈ numberWords, ∀ c ∈ word, c ≠ '"' := by simp [numberWords]
  induction holds with
  | @here v notFinite =>
      intro depth text written
      have known : text ∈ numberWords := by
        cases v with
        | float x =>
            cases written
            exact writeFloat_of_notFinite notFinite
        | _ => cases notFinite
      exact ⟨text, unquoted_append (noQuote text known), words text known⟩
  | @item items v member _ ih =>
      intro depth text written
      rw [writeValue?, Option.map_eq_some_iff] at written
      obtain ⟨texts, each, rfl⟩ := written
      obtain ⟨back, forth⟩ := exists_of_writeItems? each
      obtain ⟨item, inTexts, writtenItem⟩ := forth v member
      obtain ⟨s, listed, enclosed⟩ := exists_lists_enclose layout depth '[' ']'
        (List.ne_nil_of_mem inTexts)
      rw [enclosed]
      refine shows_between (by decide) (by decide)
        (listed.shows (fun _ _ => trivial) ?_ inTexts (ih writtenItem))
      intro other inside
      obtain ⟨u, _, writtenOther⟩ := back other inside
      exact leaves_of_written writtenOther
  | @value entries entry member _ ih =>
      intro depth text written
      rw [writeValue?, Option.map_eq_some_iff] at written
      obtain ⟨texts, each, rfl⟩ := written
      obtain ⟨members, rfl, back, forth⟩ := exists_of_writeMembers? each
      obtain ⟨m, inMembers, writes⟩ := forth entry member
      have inTexts : m.text ∈ members.map Member.text := List.mem_map.2 ⟨m, inMembers, rfl⟩
      obtain ⟨s, listed, enclosed⟩ := exists_lists_enclose layout depth '\x7b' '\x7d'
        (List.ne_nil_of_mem inTexts)
      have closed : IsClosed (Leaves fun _ => True) := isClosed_leaves fun _ _ => trivial
      rw [enclosed]
      refine shows_between (by decide) (by decide)
        (listed.shows (fun _ _ => trivial) ?_ inTexts
          (.append_left (closed.front writes.isNamed) (ih writes.value)))
      intro other inside
      obtain ⟨n, inOthers, rfl⟩ := List.mem_map.1 inside
      obtain ⟨_, _, writesOther⟩ := back n inOthers
      exact closed.append (closed.front writesOther.isNamed) (leaves_of_written writesOther.value)
  | key _ impossible => exact absurd impossible id

/-- What is written, with white space behind it, is a JSON text exactly when all numbers in the
value are finite. -/
theorem isJson_written_iff {v : Value} {depth : Nat} {text after : List Char}
    (written : writeValue? layout depth v = some text) (space : IsSpace after) :
    IsJson (text ++ after) ↔ ¬ v.HoldsNotFinite := by
  constructor
  · intro isJson holds
    have closed : IsClosed (Leaves fun _ => True) := isClosed_leaves fun _ _ => trivial
    obtain ⟨c, member, odd⟩ :=
      ((shows_of_notFinite holds written).append_right (closed.space space)).unquoted
    -- In a JSON text no such letter stands outside of strings.
    have even : ∀ c, IsMark c → c ∉ oddLetters := by
      have marked : ∀ c ∈ marks, c ∉ oddLetters := by simp [marks, spaces, oddLetters]
      have letters : ∀ c ∈ oddLetters, c.isDigit = false := by simp [oddLetters]
      rintro c (digit | mark) isOdd
      · rw [letters c isOdd] at digit
        cases digit
      · exact marked c mark isOdd
    have words : ∀ word ∈ jsonWords, Leaves (· ∉ oddLetters) word := by
      have noQuote : ∀ word ∈ jsonWords, ∀ c ∈ word, c ≠ '"' := by simp [jsonWords]
      have noOdd : ∀ word ∈ jsonWords, ∀ c ∈ word, c ∉ oddLetters := by
        simp [jsonWords, oddLetters]
      exact fun word known => ⟨word, unquoted_append (noQuote word known), noOdd word known⟩
    exact (isJson.has (isClosed_leaves even) words).unquoted c member odd
  · intro finite
    have value : IsValue jsonWords text :=
      isValue_of_written (fun _ => id) written (.inr finite)
    exact .around (List.forall_mem_nil _) value space

/-- No control but white space is written. -/
theorem isShown_of_written {v : Value} {depth : Nat} {text : List Char}
    (written : writeValue? layout depth v = some text) : ∀ c ∈ text, IsShown c := by
  have value : IsValue (jsonWords ++ numberWords) text :=
    isValue_of_written (fun _ => List.mem_append_left _) written
      (.inl fun _ => List.mem_append_right _)
  refine value.has isClosed_isShown ?_
  have letters : ∀ word ∈ jsonWords ++ numberWords, ∀ c ∈ word, 32 ≤ c.toNat := by
    simp [jsonWords, numberWords]
  exact fun word known c member => .inl (letters word known c member)

end Values

end Json

end StyleAudit
