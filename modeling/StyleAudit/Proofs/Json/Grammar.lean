/-
Module: StyleAudit.Proofs.Json.Grammar
Purpose: JSON texts as a grammar tells them, apart from any reader or printer, and what holds of
  every text of the grammar.
Trusted boundary: none
Main exports: Json.IsNumber, Json.IsString, Json.Lists, Json.IsValue, Json.IsText, Json.IsJson,
  Json.IsValue.has, Json.isClosed_isShown, Json.unquoted, Json.Leaves, Json.Shows
-/
import StyleAudit.Text.Basic

namespace StyleAudit.Json

/-!
### Numbers and strings
-/

/-- The characters of white space. -/
def spaces : List Char := [' ', '\t', '\n', '\r']

/-- White space, perhaps none. -/
def IsSpace (s : List Char) : Prop := ∀ c ∈ s, c ∈ spaces

instance (s : List Char) : Decidable (IsSpace s) :=
  List.decidableBAll _ s

/-- Digits, at least one. -/
structure AreDigits (s : List Char) : Prop where
  some : s ≠ []
  digits : ∀ c ∈ s, c.isDigit = true

/-- The whole part of a number: a zero, or digits the first of which is none. -/
inductive IsWhole : List Char → Prop where
  | zero : IsWhole ['0']
  | digits {first : Char} {rest : List Char} (areDigits : ∀ c ∈ first :: rest, c.isDigit = true)
      (notZero : first ≠ '0') : IsWhole (first :: rest)

/-- The part of a number behind the point, if it has one. -/
inductive IsFraction : List Char → Prop where
  | absent : IsFraction []
  | point {digits : List Char} (areDigits : AreDigits digits) : IsFraction ('.' :: digits)

/-- The power of ten of a number, if it has one. -/
inductive IsPower : List Char → Prop where
  | absent : IsPower []
  | power {mark : Char} {sign digits : List Char} (isMark : mark ∈ ['e', 'E'])
      (isSign : sign ∈ [[], ['+'], ['-']]) (areDigits : AreDigits digits) :
      IsPower (mark :: sign ++ digits)

/-- A number without a sign. -/
inductive IsMagnitude : List Char → Prop where
  | parts {whole fraction power : List Char} (isWhole : IsWhole whole)
      (isFraction : IsFraction fraction) (isPower : IsPower power) :
      IsMagnitude (whole ++ fraction ++ power)

/-- A number. -/
inductive IsNumber : List Char → Prop where
  | unsigned {s : List Char} (magnitude : IsMagnitude s) : IsNumber s
  | negative {s : List Char} (magnitude : IsMagnitude s) : IsNumber ('-' :: s)

/-- A digit to the base of sixteen. -/
def IsHexDigit (c : Char) : Prop := c ∈ "0123456789abcdefABCDEF".toList

/-- One item of a string: a character that is neither a control nor one of the two with a
meaning, or an escape. -/
inductive IsItem : List Char → Prop where
  | plain {c : Char} (noControl : 32 ≤ c.toNat) (noQuote : c ≠ '"') (noEscape : c ≠ '\\') :
      IsItem [c]
  | escape {c : Char} (known : c ∈ ['"', '\\', '/', 'b', 'f', 'n', 'r', 't']) : IsItem ['\\', c]
  | unit {digits : List Char} (four : digits.length = 4)
      (hexadecimal : ∀ c ∈ digits, IsHexDigit c) : IsItem ('\\' :: 'u' :: digits)

/-- The items of a string one behind another. -/
inductive AreItems : List Char → Prop where
  | nil : AreItems []
  | cons {item rest : List Char} (isItem : IsItem item) (others : AreItems rest) :
      AreItems (item ++ rest)

/-- A string between quotation marks. -/
inductive IsString : List Char → Prop where
  | quoted {items : List Char} (areItems : AreItems items) : IsString ('"' :: items ++ ['"'])

theorem AreItems.append {first second : List Char} (one : AreItems first)
    (two : AreItems second) : AreItems (first ++ second) := by
  induction one with
  | nil => exact two
  | cons isItem _ ih =>
      rw [List.append_assoc]
      exact .cons isItem ih

/-!
### Values
-/

/-- Texts between commas, each with white space around it. -/
inductive Lists : List (List Char) → List Char → Prop where
  | one {before item after : List Char} (space : IsSpace before) (spaceAfter : IsSpace after) :
      Lists [item] (before ++ item ++ after)
  | more {before item after rest : List Char} {items : List (List Char)} (space : IsSpace before)
      (spaceAfter : IsSpace after) (others : Lists items rest) :
      Lists (item :: items) (before ++ item ++ after ++ ',' :: rest)

/-- A member of an object: its name and its value, a colon between them with white space around
it. -/
structure Member where
  name : List Char
  between : List Char
  gap : List Char
  value : List Char

/-- What stands before the value of a member. -/
def Member.front (m : Member) : List Char := m.name ++ m.between ++ ':' :: m.gap

/-- A member as written. -/
def Member.text (m : Member) : List Char := m.front ++ m.value

/-- The name of a member is a string, and what stands around its colon is white space. -/
structure Member.IsNamed (m : Member) : Prop where
  name : IsString m.name
  between : IsSpace m.between
  gap : IsSpace m.gap

/-- A value, given the words that are values. -/
inductive IsValue (words : List (List Char)) : List Char → Prop where
  | word {s : List Char} (known : s ∈ words) : IsValue words s
  | number {s : List Char} (isNumber : IsNumber s) : IsValue words s
  | string {s : List Char} (isString : IsString s) : IsValue words s
  | emptyArray {s : List Char} (space : IsSpace s) : IsValue words ('[' :: s ++ [']'])
  | array {items : List (List Char)} {s : List Char} (listed : Lists items s)
      (values : ∀ item ∈ items, IsValue words item) : IsValue words ('[' :: s ++ [']'])
  | emptyObject {s : List Char} (space : IsSpace s) : IsValue words ('\x7b' :: s ++ ['\x7d'])
  | object {members : List Member} {s : List Char} (listed : Lists (members.map Member.text) s)
      (named : ∀ m ∈ members, m.IsNamed) (values : ∀ m ∈ members, IsValue words m.value) :
      IsValue words ('\x7b' :: s ++ ['\x7d'])

/-- A text is one value with white space around it. -/
inductive IsText (words : List (List Char)) : List Char → Prop where
  | around {before s after : List Char} (space : IsSpace before) (value : IsValue words s)
      (spaceAfter : IsSpace after) : IsText words (before ++ s ++ after)

/-- The words of JSON. -/
def jsonWords : List (List Char) := ["null".toList, "true".toList, "false".toList]

/-- A JSON text. -/
def IsJson (s : List Char) : Prop := IsText jsonWords s

/-!
### Properties of all texts

The induction over values is done once, for all properties that go over to texts one behind
another.
-/

/-- The characters outside of strings and words that are no digits. -/
def marks : List Char :=
  ['+', '-', '.', 'e', 'E', ',', ':', '[', ']', '\x7b', '\x7d'] ++ spaces

/-- A character outside of strings and words. -/
def IsMark (c : Char) : Prop := c.isDigit = true ∨ c ∈ marks

theorem isMark_of_areDigits {s : List Char} (digits : ∀ c ∈ s, c.isDigit = true) :
    ∀ c ∈ s, IsMark c :=
  fun c member => .inl (digits c member)

theorem isMark_of_isWhole {s : List Char} (whole : IsWhole s) : ∀ c ∈ s, IsMark c := by
  cases whole with
  | zero => exact isMark_of_areDigits (by simp)
  | digits areDigits _ => exact isMark_of_areDigits areDigits

theorem isMark_of_isFraction {s : List Char} (fraction : IsFraction s) : ∀ c ∈ s, IsMark c := by
  cases fraction with
  | absent => exact List.forall_mem_nil _
  | point areDigits =>
      exact List.forall_mem_cons.2 ⟨.inr (by decide), isMark_of_areDigits areDigits.digits⟩

theorem isMark_of_isPower {s : List Char} (power : IsPower s) : ∀ c ∈ s, IsMark c := by
  cases power with
  | absent => exact List.forall_mem_nil _
  | @power mark sign digits isMark isSign areDigits =>
      have marked : ∀ mark ∈ ['e', 'E'], mark ∈ marks := by simp [marks]
      have signed : ∀ sign ∈ [[], ['+'], ['-']], ∀ c ∈ sign, c ∈ marks := by simp [marks]
      rw [List.cons_append, List.forall_mem_cons, List.forall_mem_append]
      exact ⟨.inr (marked mark isMark), fun c member => .inr (signed sign isSign c member),
        isMark_of_areDigits areDigits.digits⟩

theorem isMark_of_isNumber {s : List Char} (number : IsNumber s) : ∀ c ∈ s, IsMark c := by
  have unsigned : ∀ {s}, IsMagnitude s → ∀ c ∈ s, IsMark c := by
    rintro _ ⟨whole, fraction, power⟩
    rw [List.forall_mem_append, List.forall_mem_append]
    exact ⟨⟨isMark_of_isWhole whole, isMark_of_isFraction fraction⟩, isMark_of_isPower power⟩
  cases number with
  | unsigned magnitude => exact unsigned magnitude
  | negative magnitude => exact List.forall_mem_cons.2 ⟨.inr (by decide), unsigned magnitude⟩

/-- A property of texts that goes over to texts one behind another, and that marks and strings
have. -/
structure IsClosed (property : List Char → Prop) : Prop where
  append : ∀ {first second}, property first → property second → property (first ++ second)
  marks : ∀ {s}, (∀ c ∈ s, IsMark c) → property s
  string : ∀ {s}, IsString s → property s

section Closed

variable {property : List Char → Prop} {words : List (List Char)}

theorem IsClosed.mark (closed : IsClosed property) {c : Char} (member : c ∈ Json.marks) :
    property [c] := by
  apply closed.marks
  intro other single
  rw [List.mem_singleton] at single
  exact single ▸ .inr member

theorem IsClosed.space (closed : IsClosed property) {s : List Char} (space : IsSpace s) :
    property s := by
  apply closed.marks
  intro c member
  exact .inr (List.mem_append.2 (.inr (space c member)))

theorem IsClosed.between (closed : IsClosed property) {opening closing : Char} {s : List Char}
    (isOpening : opening ∈ Json.marks) (isClosing : closing ∈ Json.marks) (inside : property s) :
    property (opening :: s ++ [closing]) :=
  closed.append (closed.append (closed.mark isOpening) inside) (closed.mark isClosing)

theorem IsClosed.lists (closed : IsClosed property) {items : List (List Char)} {s : List Char}
    (listed : Lists items s) (each : ∀ item ∈ items, property item) : property s := by
  induction listed with
  | one space spaceAfter =>
      exact closed.append (closed.append (closed.space space) (each _ List.mem_cons_self))
        (closed.space spaceAfter)
  | more space spaceAfter _ ih =>
      rw [List.forall_mem_cons] at each
      have first := closed.append (closed.append (closed.space space) each.1)
        (closed.space spaceAfter)
      exact closed.append first (closed.append (closed.mark (by decide)) (ih each.2))

theorem IsClosed.front (closed : IsClosed property) {m : Member} (named : m.IsNamed) :
    property m.front := by
  have colon : property [':'] := closed.mark (by decide)
  exact closed.append (closed.append (closed.string named.name) (closed.space named.between))
    (closed.append colon (closed.space named.gap))

/-- Such a property is had by all values if it is had by the words. -/
theorem IsValue.has (closed : IsClosed property) (known : ∀ word ∈ words, property word)
    {s : List Char} (value : IsValue words s) : property s := by
  induction value with
  | word member => exact known _ member
  | number isNumber => exact closed.marks (isMark_of_isNumber isNumber)
  | string isString => exact closed.string isString
  | emptyArray space => exact closed.between (by decide) (by decide) (closed.space space)
  | array listed _ ih => exact closed.between (by decide) (by decide) (closed.lists listed ih)
  | emptyObject space => exact closed.between (by decide) (by decide) (closed.space space)
  | object listed named _ ih =>
      refine closed.between (by decide) (by decide) (closed.lists listed ?_)
      intro text member
      obtain ⟨m, inside, rfl⟩ := List.mem_map.1 member
      exact closed.append (closed.front (named m inside)) (ih m inside)

theorem IsText.has (closed : IsClosed property) (known : ∀ word ∈ words, property word)
    {s : List Char} (text : IsText words s) : property s := by
  cases text with
  | around space value spaceAfter =>
      exact closed.append (closed.append (closed.space space) (value.has closed known))
        (closed.space spaceAfter)

end Closed

/-!
### No controls
-/

/-- A character that is shown, or white space. -/
def IsShown (c : Char) : Prop := 32 ≤ c.toNat ∨ c ∈ spaces

instance (c : Char) : Decidable (IsShown c) :=
  inferInstanceAs (Decidable (32 ≤ c.toNat ∨ c ∈ spaces))

theorem isShown_of_isDigit {c : Char} (digit : c.isDigit = true) : IsShown c := by
  refine .inl ?_
  simp only [Char.isDigit, Bool.and_eq_true, decide_eq_true_eq, UInt32.le_iff_toNat_le] at digit
  exact Nat.le_trans (by decide) digit.1

theorem isShown_of_isItem {item : List Char} (isItem : IsItem item) : ∀ c ∈ item, IsShown c := by
  have known : ∀ c ∈ ['"', '\\', '/', 'b', 'f', 'n', 'r', 't'], 32 ≤ c.toNat := by simp
  have hexadecimal : ∀ c ∈ "0123456789abcdefABCDEF".toList, 32 ≤ c.toNat := by simp
  cases isItem with
  | plain noControl _ _ => simpa using .inl noControl
  | escape isKnown => simpa using ⟨.inl (by decide), .inl (known _ isKnown)⟩
  | unit _ isHex =>
      rw [List.forall_mem_cons, List.forall_mem_cons]
      exact ⟨.inl (by decide), .inl (by decide),
        fun c member => .inl (hexadecimal c (isHex c member))⟩

theorem isShown_of_areItems {items : List Char} (areItems : AreItems items) :
    ∀ c ∈ items, IsShown c := by
  induction areItems with
  | nil => exact List.forall_mem_nil _
  | cons isItem _ ih => exact List.forall_mem_append.2 ⟨isShown_of_isItem isItem, ih⟩

theorem isClosed_isShown : IsClosed fun s => ∀ c ∈ s, IsShown c where
  append one two := List.forall_mem_append.2 ⟨one, two⟩
  marks := by
    have shown : ∀ c ∈ marks, 32 ≤ c.toNat ∨ c ∈ spaces := by simp [marks, spaces]
    intro s areMarks c member
    rcases areMarks c member with digit | mark
    · exact isShown_of_isDigit digit
    · exact shown c mark
  string := by
    rintro _ ⟨areItems⟩
    rw [List.cons_append, List.forall_mem_cons, List.forall_mem_append]
    exact ⟨.inl (by decide), isShown_of_areItems areItems, by simpa using .inl (by decide)⟩

/-!
### What stands outside of strings

A scan that only looks for quotation marks tells what stands outside of strings.  For a text of the
grammar it does so whatever stands behind the text, so what it finds in a list or an object is
what it finds in the parts.
-/

/-- The characters outside of strings, given whether the first one is inside. -/
def unquotedFrom : Bool → List Char → List Char
  | _, [] => []
  -- An escaped quotation mark ends no string.
  | true, '\\' :: _ :: rest => unquotedFrom true rest
  | true, c :: rest => unquotedFrom (c != '"') rest
  | false, c :: rest => if c = '"' then unquotedFrom true rest else c :: unquotedFrom false rest

/-- The characters outside of strings. -/
def unquoted (s : List Char) : List Char := unquotedFrom false s

/-- Whatever stands behind the text, some characters with a property are outside of strings
in it. -/
def Leaves (property : Char → Prop) (s : List Char) : Prop :=
  ∃ left, (∀ rest, unquoted (s ++ rest) = left ++ unquoted rest) ∧ ∀ c ∈ left, property c

theorem Leaves.unquoted {property : Char → Prop} {s : List Char} (leaves : Leaves property s) :
    ∀ c ∈ Json.unquoted s, property c := by
  obtain ⟨left, outside, each⟩ := leaves
  have alone := outside []
  rw [List.append_nil] at alone
  rw [alone, List.forall_mem_append]
  exact ⟨each, List.forall_mem_nil _⟩

theorem Leaves.append {property : Char → Prop} {first second : List Char}
    (one : Leaves property first) (two : Leaves property second) :
    Leaves property (first ++ second) := by
  obtain ⟨left, outside, each⟩ := one
  obtain ⟨more, outsideMore, eachMore⟩ := two
  refine ⟨left ++ more, ?_, List.forall_mem_append.2 ⟨each, eachMore⟩⟩
  intro rest
  rw [List.append_assoc, outside, outsideMore, List.append_assoc]

/-- Whatever stands behind the text, some character with a property is outside of strings in
it. -/
def Shows (property : Char → Prop) (s : List Char) : Prop :=
  ∃ left, (∀ rest, unquoted (s ++ rest) = left ++ unquoted rest) ∧ ∃ c ∈ left, property c

theorem Shows.unquoted {property : Char → Prop} {s : List Char} (shows : Shows property s) :
    ∃ c ∈ Json.unquoted s, property c := by
  obtain ⟨left, outside, c, member, has⟩ := shows
  have alone := outside []
  rw [List.append_nil] at alone
  rw [alone]
  exact ⟨c, List.mem_append_left _ member, has⟩

theorem Shows.append_left {property other : Char → Prop} {first second : List Char}
    (one : Leaves other first) (two : Shows property second) :
    Shows property (first ++ second) := by
  obtain ⟨left, outside, _⟩ := one
  obtain ⟨more, outsideMore, c, member, has⟩ := two
  refine ⟨left ++ more, ?_, c, List.mem_append_right _ member, has⟩
  intro rest
  rw [List.append_assoc, outside, outsideMore, List.append_assoc]

theorem Shows.append_right {property other : Char → Prop} {first second : List Char}
    (one : Shows property first) (two : Leaves other second) :
    Shows property (first ++ second) := by
  obtain ⟨left, outside, c, member, has⟩ := one
  obtain ⟨more, outsideMore, _⟩ := two
  refine ⟨left ++ more, ?_, c, List.mem_append_left _ member, has⟩
  intro rest
  rw [List.append_assoc, outside, outsideMore, List.append_assoc]

theorem unquoted_append {s : List Char} (noQuote : ∀ c ∈ s, c ≠ '"') (rest : List Char) :
    unquoted (s ++ rest) = s ++ unquoted rest := by
  induction s with
  | nil => rfl
  | cons c others ih =>
      rw [List.forall_mem_cons] at noQuote
      rw [List.cons_append, unquoted, unquotedFrom, if_neg noQuote.1, List.cons_append]
      exact congrArg (c :: ·) (ih noQuote.2)

theorem unquotedFrom_plain {s : List Char} (plain : ∀ c ∈ s, c ≠ '"' ∧ c ≠ '\\')
    (rest : List Char) : unquotedFrom true (s ++ rest) = unquotedFrom true rest := by
  induction s with
  | nil => rfl
  | cons c others ih =>
      rw [List.forall_mem_cons] at plain
      obtain ⟨⟨noQuote, noEscape⟩, plainOthers⟩ := plain
      rw [List.cons_append, unquotedFrom, bne_iff_ne.2 noQuote, ih plainOthers]
      intro other behind escaped _
      exact noEscape escaped

theorem unquotedFrom_item {item : List Char} (isItem : IsItem item) (rest : List Char) :
    unquotedFrom true (item ++ rest) = unquotedFrom true rest := by
  cases isItem with
  | plain _ noQuote noEscape => exact unquotedFrom_plain (by simp [noQuote, noEscape]) rest
  | escape _ => rfl
  | unit _ isHex =>
      have plain : ∀ c ∈ "0123456789abcdefABCDEF".toList, c ≠ '"' ∧ c ≠ '\\' := by simp
      exact unquotedFrom_plain (fun c member => plain c (isHex c member)) rest

theorem unquotedFrom_items {items : List Char} (areItems : AreItems items) (rest : List Char) :
    unquotedFrom true (items ++ rest) = unquotedFrom true rest := by
  induction areItems with
  | nil => rfl
  | cons isItem _ ih => rw [List.append_assoc, unquotedFrom_item isItem, ih]

/-- Nothing in a string stands outside of strings. -/
theorem leaves_of_isString {property : Char → Prop} {s : List Char} (isString : IsString s) :
    Leaves property s := by
  obtain ⟨areItems⟩ := isString
  refine ⟨[], ?_, List.forall_mem_nil _⟩
  intro rest
  rw [List.append_assoc]
  exact unquotedFrom_items areItems _

theorem isClosed_leaves {property : Char → Prop} (each : ∀ c, IsMark c → property c) :
    IsClosed (Leaves property) where
  append := Leaves.append
  marks := by
    have noQuote : ∀ c, IsMark c → c ≠ '"' := by
      rintro c (digit | mark) rfl
      · cases digit
      · exact absurd mark (by decide)
    intro s areMarks
    exact ⟨s, unquoted_append fun c member => noQuote c (areMarks c member),
      fun c member => each c (areMarks c member)⟩
  string := leaves_of_isString

theorem leaves_true {s : List Char} {words : List (List Char)}
    (noQuote : ∀ word ∈ words, ∀ c ∈ word, c ≠ '"') (value : IsValue words s) :
    Leaves (fun _ => True) s :=
  value.has (isClosed_leaves fun _ _ => trivial) fun word member =>
    ⟨word, unquoted_append (noQuote word member), fun _ _ => trivial⟩

/-- A list shows what one of its items does. -/
theorem Lists.shows {property other : Char → Prop} (marks : ∀ c, IsMark c → other c)
    {items : List (List Char)} {s : List Char} (listed : Lists items s)
    (each : ∀ item ∈ items, Leaves other item) {item : List Char} (member : item ∈ items)
    (shown : Shows property item) : Shows property s := by
  have closed := isClosed_leaves marks
  induction listed with
  | one space spaceAfter =>
      rw [List.mem_singleton] at member
      subst member
      exact (shown.append_left (closed.space space)).append_right (closed.space spaceAfter)
  | @more before first after rest items space spaceAfter others ih =>
      rw [List.forall_mem_cons] at each
      rcases List.mem_cons.1 member with rfl | behind
      · have here := (shown.append_left (closed.space space)).append_right
          (closed.space spaceAfter)
        exact here.append_right (closed.append (closed.mark (by decide))
          (closed.lists others each.2))
      · have front := closed.append (closed.append (closed.space space) each.1)
          (closed.space spaceAfter)
        have comma : Leaves other [','] := closed.mark (by decide)
        exact .append_left front (.append_left comma (ih each.2 behind))

end StyleAudit.Json
