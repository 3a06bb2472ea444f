import Kaufbot.Guarantees.JsonStrings
import Kaufbot.Library.Doubles

/-!
A JSON text is read as what it means. The texts and the trees they mean are those
of the format, with its escapes and the space between its parts; a number means
the double nearest to it. The parser gives the tree a text means as long as
arrays and objects do not nest deeper than it follows.
-/

namespace Kaufbot

open CString

namespace CJson

open JsonText

section Space
variable {b : UInt8} {blank l rest : List UInt8}

theorem skipWhitespace_cons (visible : 32 < b) : skipWhitespace (b :: l) = b :: l := by
  have stays : ¬ b ≤ 32 := UInt8.not_le.mpr visible
  simp [skipWhitespace, stays]

theorem le_of_isSpace (h : JsonText.isSpace b = true) : b ≤ 32 := by
  obtain rfl | rfl | rfl | rfl := eq_of_isSpace h <;> decide

theorem skipWhitespace_space (space : Space blank) (visible : 32 < b) :
    skipWhitespace (blank ++ b :: l) = b :: l := by
  have stays : ¬ b ≤ 32 := UInt8.not_le.mpr visible
  have skipped : (blank ++ b :: l).dropWhile (· ≤ 32) = b :: l := by
    rw [List.dropWhile_append_of_pos fun c mem => decide_eq_true (le_of_isSpace (space c mem))]
    simp [stays]
  rw [skipWhitespace, skipped]

/-- What is skipped once is not skipped again. -/
theorem skipWhitespace_idem (input : List UInt8) :
    skipWhitespace (skipWhitespace input) = skipWhitespace input := by
  rcases behind : input.dropWhile (· ≤ 32) with _ | ⟨b, rest⟩
  · have last : skipWhitespace input = input.drop (input.length - 1) := by
      rw [skipWhitespace, behind]
    have blank : (input.drop (input.length - 1)).dropWhile (· ≤ 32) = [] := by
      rw [List.dropWhile_eq_nil_iff] at behind ⊢
      exact fun b mem => behind b (List.mem_of_mem_drop mem)
    have short : (input.drop (input.length - 1)).length - 1 = 0 := by
      rw [List.length_drop]
      omega
    rw [last, skipWhitespace, blank]
    simp only [short, List.drop_zero]
  · have visible : ¬ b ≤ 32 := by
      have := List.head_dropWhile_not (· ≤ 32) (l := input) (by simp [behind])
      simpa [behind] using this
    have start : skipWhitespace input = b :: rest := by rw [skipWhitespace, behind]
    rw [start, skipWhitespace_cons (UInt8.not_le.mp visible)]

theorem skipWhitespace_eq_nil {input : List UInt8} : skipWhitespace input = [] ↔ input = [] := by
  refine ⟨fun none => ?_, fun none => by rw [none]; rfl⟩
  rw [skipWhitespace] at none
  split at none
  · rw [List.drop_eq_nil_iff] at none
    exact List.eq_nil_of_length_eq_zero (by omega)
  · next rest => exact absurd none rest

/-- What stands behind a value ends a number. -/
def Stops (rest : List UInt8) : Prop := ∃ b l, rest = b :: l ∧ isNumberByte b = false

theorem stops_cons (l : List UInt8) (other : isNumberByte b = false) : Stops (b :: l) :=
  ⟨b, l, rfl, other⟩

theorem Stops.space (h : Stops rest) (space : Space blank) : Stops (blank ++ rest) := by
  cases blank with
  | nil => exact h
  | cons b blank =>
      refine stops_cons _ ?_
      obtain rfl | rfl | rfl | rfl := eq_of_isSpace (space b List.mem_cons_self) <;> rfl

end Space

/-! The loops are followed once for anything that is written with commas between. -/

section Lists
variable {ι α : Type} {text blank : ι → List UInt8} {value : ι → α} {deep : ι → Nat} {left : Nat}
  {one : Reader α}

/-- The texts with commas between them. -/
def joined (text : ι → List UInt8) : List ι → List UInt8
  | [] => []
  | a :: l => text a ++ separator l ++ joined text l

/-- What a reader makes of this text, whatever stands behind it, when only what nests no
deeper than `left` is read: the value, and the text's last blanks before the rest. -/
def Reads (one : Reader α) (left : Nat) (text blank : List UInt8) (deep : Nat) (a : α) : Prop :=
  ∀ rest, Stops rest →
    one (text ++ rest) = if deep ≤ left then some (a, blank ++ rest) else none

/-- The reader skips blanks in front of what it reads. -/
def Skips (one : Reader α) : Prop := ∀ input, one (skipWhitespace input) = one input

/-- The loop reads what is joined, unless one part of it nests too deep. -/
theorem parseLoop_joined {close : UInt8} (rest : List UInt8) (visible : 32 < close)
    (comma : close ≠ 44) (stops : isNumberByte close = false) {l : List ι} (some : l ≠ [])
    (spaces : ∀ i ∈ l, Space (blank i))
    (each : ∀ i ∈ l, Reads one left (text i) (blank i) (deep i) (value i)) {rounds : Nat}
    (enough : l.length ≤ rounds) :
    parseLoop one rounds (joined text l ++ close :: rest) =
      if ∀ i ∈ l, deep i ≤ left then Option.some (l.map value, close :: rest) else none := by
  induction l generalizing rounds with
  | nil => exact absurd rfl some
  | cons i l ih =>
      obtain ⟨rounds, rfl⟩ : ∃ r, rounds = r + 1 := by
        cases rounds with
        | zero => simp at enough
        | succ r => exact ⟨r, rfl⟩
      have now := each i List.mem_cons_self
      have space := spaces i List.mem_cons_self
      cases l with
      | nil =>
          have whole : joined text [i] ++ close :: rest = text i ++ close :: rest := by
            simp [joined, separator]
          rw [whole, parseLoop, now _ (stops_cons rest stops)]
          by_cases fits : deep i ≤ left
          · rw [if_pos fits, if_pos (by simpa using fits)]
            simp only [Option.bind_some]
            rw [skipWhitespace_space space visible]
            split
            · next same => exact absurd (List.cons.inj same).1 comma
            · rfl
          · rw [if_neg fits, if_neg (by simpa using fits)]
            rfl
      | cons next l =>
          have whole : joined text (i :: next :: l) ++ close :: rest =
              text i ++ 44 :: (joined text (next :: l) ++ close :: rest) := by
            rw [joined]
            simp [separator]
          have later := ih (by simp) (fun i mem => spaces i (List.mem_cons_of_mem _ mem))
            (fun i mem => each i (List.mem_cons_of_mem _ mem)) (Nat.le_of_succ_le_succ enough)
          rw [whole, parseLoop, now _ (stops_cons _ rfl)]
          by_cases fits : deep i ≤ left
          · rw [if_pos fits]
            simp only [Option.bind_some]
            rw [skipWhitespace_space space (by decide)]
            have both : (∀ j ∈ i :: next :: l, deep j ≤ left) ↔ ∀ j ∈ next :: l, deep j ≤ left :=
              List.forall_mem_cons.trans (and_iff_right fits)
            simp only [later, both]
            split <;> rfl
          · rw [if_neg fits, if_neg (fun all => fits (all i List.mem_cons_self))]
            rfl

theorem length_le_joined (text : ι → List UInt8) (l : List ι) :
    l.length ≤ (joined text l).length + 1 := by
  induction l with
  | nil => exact Nat.zero_le _
  | cons a l ih =>
      cases l with
      | nil => simp
      | cons next l =>
          rw [joined, List.length_append, List.length_append, List.length_cons]
          have comma : (separator (next :: l)).length = 1 := rfl
          omega

theorem parseLoop_skip (skips : Skips one) (rounds : Nat) (input : List UInt8) :
    parseLoop one rounds (skipWhitespace input) = parseLoop one rounds input := by
  cases rounds with
  | zero => rfl
  | succ rounds => rw [parseLoop, parseLoop, skips]

/-- Between what opens and what closes it, blanks alone are the empty list. -/
theorem parseBetween_empty (opening close : UInt8) {space : List UInt8} (rest : List UInt8)
    (visible : 32 < close) (blank : Space space) :
    parseBetween close one (opening :: (space ++ close :: rest)) = some ([], rest) := by
  rw [parseBetween, List.tail_cons, skipWhitespace_space blank visible]
  simp

/-- From behind what opens the list to behind what closes it. -/
theorem parseBetween_joined (opening close : UInt8) (rest : List UInt8) (visible : 32 < close)
    (comma : close ≠ 44) (stops : isNumberByte close = false) {l : List ι} (some : l ≠ [])
    (skips : Skips one)
    (starts : ∀ i ∈ l, ∃ space b m, text i = space ++ b :: m ∧ Space space ∧ 32 < b ∧ b ≠ close)
    (spaces : ∀ i ∈ l, Space (blank i))
    (each : ∀ i ∈ l, Reads one left (text i) (blank i) (deep i) (value i)) :
    parseBetween close one (opening :: (joined text l ++ close :: rest)) =
      if ∀ i ∈ l, deep i ≤ left then Option.some (l.map value, rest) else none := by
  cases l with
  | nil => exact absurd rfl some
  | cons i l =>
      obtain ⟨space, b, m, first, blanks, visible', other⟩ := starts i List.mem_cons_self
      have whole : joined text (i :: l) ++ close :: rest =
          space ++ b :: (m ++ (separator l ++ joined text l ++ close :: rest)) := by
        simp [joined, first]
      have start : skipWhitespace (joined text (i :: l) ++ close :: rest) =
          b :: (m ++ (separator l ++ joined text l ++ close :: rest)) := by
        rw [whole, skipWhitespace_space blanks visible']
      have enough : (i :: l).length ≤
          (m ++ (separator l ++ joined text l ++ close :: rest)).length + 1 := by
        have commas := length_le_joined text l
        simp only [List.length_append, List.length_cons]
        omega
      have read := parseLoop_joined rest visible comma stops some spaces each enough
      rw [← parseLoop_skip skips, start] at read
      rw [parseBetween, List.tail_cons, start]
      simp only [if_neg other, read]
      split
      · simp
      · rfl

end Lists

mutual

/-- How deep arrays and objects stand inside one another. -/
def nesting : CJson → Nat
  | .array items => nestingItems items + 1
  | .object members => nestingMembers members + 1
  | .null => 0
  | .bool _ => 0
  | .number _ => 0
  | .string _ => 0

def nestingItems : List CJson → Nat
  | [] => 0
  | item :: items => max (nesting item) (nestingItems items)

def nestingMembers : List (CString × CJson) → Nat
  | [] => 0
  | member :: members => max (nestingMember member) (nestingMembers members)

def nestingMember : CString × CJson → Nat
  | (_, value) => nesting value

end

/-- A part of a list: its text with the space around it, and what it means. -/
structure Part (α : Type) where
  before : List UInt8
  text : List UInt8
  after : List UInt8
  value : α

def Part.bytes {α : Type} (p : Part α) : List UInt8 := p.before ++ p.text ++ p.after

def Part.Spaced {α : Type} (p : Part α) : Prop := Space p.before ∧ Space p.after

/-- A key and a value with the colon between them. -/
def memberBytes (p : Part CString × Part CJson) : List UInt8 := p.1.bytes ++ 58 :: p.2.bytes

def memberValue (p : Part CString × Part CJson) : CString × CJson := (p.1.value, p.2.value)

/-- The texts of the format and the trees they mean, with `number` for the numbers. -/
inductive Means (number : List UInt8 → Rat → Prop) : List UInt8 → CJson → Prop where
  | null : Means number [110, 117, 108, 108] .null
  | true : Means number [116, 114, 117, 101] (.bool true)
  | false : Means number [102, 97, 108, 115, 101] (.bool false)
  | number {l : List UInt8} {d : Rat} (is : number l d) : Means number l (.number d)
  | string {l : List UInt8} {s : CString} (quoted : QuotedMeans l s) : Means number l (.string s)
  | emptyArray {w : List UInt8} (space : Space w) : Means number (91 :: (w ++ [93])) (.array [])
  | array {parts : List (Part CJson)} (some : parts ≠ []) (spaced : ∀ p ∈ parts, p.Spaced)
      (each : ∀ p ∈ parts, Means number p.text p.value) :
      Means number (91 :: (joined Part.bytes parts ++ [93])) (.array (parts.map Part.value))
  | emptyObject {w : List UInt8} (space : Space w) :
      Means number (123 :: (w ++ [125])) (.object [])
  | object {parts : List (Part CString × Part CJson)} (some : parts ≠ [])
      (spaced : ∀ p ∈ parts, p.1.Spaced ∧ p.2.Spaced)
      (keys : ∀ p ∈ parts, QuotedMeans p.1.text p.1.value)
      (each : ∀ p ∈ parts, Means number p.2.text p.2.value) :
      Means number (123 :: (joined memberBytes parts ++ [125])) (.object (parts.map memberValue))

/-- The text is one `parse_number` has room for and turns into the number. -/
structure ReadsNumber (lib : NumberTexts) (l : List UInt8) (d : Rat) : Prop where
  short : l.length ≤ 63
  bytes : ∀ b ∈ l, isNumberByte b = true
  first : ∃ b m, l = b :: m ∧ (b = 45 ∨ (48 ≤ b ∧ b ≤ 57))
  same : lib.strtod (ofBytes l) = (d, l.length)

section Trees
variable {lib : NumberTexts} {number : List UInt8 → Rat → Prop} {left : Nat} {l : List UInt8}

theorem nestingItems_le {items : List CJson} :
    nestingItems items ≤ left ↔ ∀ item ∈ items, nesting item ≤ left := by
  induction items with
  | nil => simp [nestingItems]
  | cons item items ih => rw [nestingItems, Nat.max_le, ih, List.forall_mem_cons]

theorem nestingMembers_le {members : List (CString × CJson)} :
    nestingMembers members ≤ left ↔ ∀ member ∈ members, nestingMember member ≤ left := by
  induction members with
  | nil => simp [nestingMembers]
  | cons member members ih => rw [nestingMembers, Nat.max_le, ih, List.forall_mem_cons]

theorem parseNumber_readsNumber {d : Rat} {rest : List UInt8} (h : ReadsNumber lib l d)
    (stops : Stops rest) : parseNumber lib (l ++ rest) = some (.number d, rest) := by
  obtain ⟨c, m, rfl, other⟩ := stops
  have copied : ((l ++ c :: m).take 63).takeWhile isNumberByte = l := by
    rw [List.take_append, List.take_of_length_le h.short, List.takeWhile_append_of_pos h.bytes]
    cases 63 - l.length with
    | zero => simp
    | succ k => simp [other]
  have some : l.length ≠ 0 := by
    obtain ⟨b, m, text, -⟩ := h.first
    simp [text]
  simp only [parseNumber, copied, h.same]
  rw [if_neg some, List.drop_left]

/-- A text starts with a character that is neither skipped nor the end of anything. -/
theorem Means.cons {item : CJson} (h : Means number l item)
    (reads : ∀ {l d}, number l d → ReadsNumber lib l d) :
    ∃ b m, l = b :: m ∧ 32 < b ∧ b ≠ 93 ∧ b ≠ 239 := by
  cases h with
  | null => exact ⟨_, _, rfl, by decide, by decide, by decide⟩
  | true => exact ⟨_, _, rfl, by decide, by decide, by decide⟩
  | false => exact ⟨_, _, rfl, by decide, by decide, by decide⟩
  | number is =>
      obtain ⟨b, m, text, digit⟩ := (reads is).first
      have ne (c : UInt8) (letter : ¬ (c = 45 ∨ (48 ≤ c ∧ c ≤ 57))) : b ≠ c := by
        rintro rfl
        exact letter digit
      refine ⟨b, m, text, ?_, ne 93 (by decide), ne 239 (by decide)⟩
      rcases digit with rfl | ⟨lower, -⟩
      · decide
      · exact UInt8.lt_of_lt_of_le (by decide : (32 : UInt8) < 48) lower
  | string quoted =>
      obtain ⟨chars, _, rfl⟩ := quoted
      exact ⟨_, _, rfl, by decide, by decide, by decide⟩
  | emptyArray _ => exact ⟨_, _, rfl, by decide, by decide, by decide⟩
  | array _ _ _ => exact ⟨_, _, rfl, by decide, by decide, by decide⟩
  | emptyObject _ => exact ⟨_, _, rfl, by decide, by decide, by decide⟩
  | object _ _ _ _ => exact ⟨_, _, rfl, by decide, by decide, by decide⟩

theorem elements_joined {parts : List (Part CJson)} (some : parts ≠ [])
    (spaced : ∀ p ∈ parts, p.Spaced) (each : ∀ p ∈ parts, Value p.text) :
    Elements (joined Part.bytes parts) := by
  induction parts with
  | nil => exact absurd rfl some
  | cons p parts ih =>
      obtain ⟨before, after⟩ := spaced p List.mem_cons_self
      have value := each p List.mem_cons_self
      cases parts with
      | nil =>
          have text : joined Part.bytes [p] = p.before ++ p.text ++ p.after := by
            simp [joined, separator, Part.bytes]
          rw [text]
          exact .one before value after
      | cons next parts =>
          have later := ih (by simp) (fun p mem => spaced p (List.mem_cons_of_mem _ mem))
            (fun p mem => each p (List.mem_cons_of_mem _ mem))
          have text : joined Part.bytes (p :: next :: parts) =
              p.before ++ p.text ++ p.after ++ 44 :: joined Part.bytes (next :: parts) := by
            rw [joined]
            simp [separator, Part.bytes]
          rw [text]
          exact .more before value after later

theorem members_joined {parts : List (Part CString × Part CJson)} (some : parts ≠ [])
    (spaced : ∀ p ∈ parts, p.1.Spaced ∧ p.2.Spaced) (keys : ∀ p ∈ parts, Quoted p.1.text)
    (each : ∀ p ∈ parts, Value p.2.text) : Members (joined memberBytes parts) := by
  induction parts with
  | nil => exact absurd rfl some
  | cons p parts ih =>
      obtain ⟨⟨before, after⟩, before', after'⟩ := spaced p List.mem_cons_self
      have key := keys p List.mem_cons_self
      have value := each p List.mem_cons_self
      cases parts with
      | nil =>
          have text : joined memberBytes [p] = p.1.before ++ p.1.text ++ p.1.after ++
              58 :: (p.2.before ++ p.2.text ++ p.2.after) := by
            simp [joined, separator, memberBytes, Part.bytes]
          rw [text]
          exact .one before key after before' value after'
      | cons next parts =>
          have later := ih (by simp) (fun p mem => spaced p (List.mem_cons_of_mem _ mem))
            (fun p mem => keys p (List.mem_cons_of_mem _ mem))
            (fun p mem => each p (List.mem_cons_of_mem _ mem))
          have text : joined memberBytes (p :: next :: parts) =
              p.1.before ++ p.1.text ++ p.1.after ++ 58 :: (p.2.before ++ p.2.text ++ p.2.after) ++
                44 :: joined memberBytes (next :: parts) := by
            rw [joined]
            simp [separator, memberBytes, Part.bytes]
          rw [text]
          exact .more before key after before' value after' later

theorem QuotedMeans.quoted {s : CString} (h : QuotedMeans l s) : Quoted l := by
  obtain ⟨chars, stands, rfl⟩ := h
  exact .mk stands.chars

/-- What means anything is a text of the grammar. -/
theorem Means.value {item : CJson} (h : Means number l item)
    (numbers : ∀ {l d}, number l d → Value l) : Value l := by
  induction h with
  | null => exact .null
  | true => exact .true
  | false => exact .false
  | number is => exact numbers is
  | string quoted => exact .string quoted.quoted
  | emptyArray space => exact .emptyArray space
  | array some spaced _ ih => exact .array (elements_joined some spaced ih)
  | emptyObject space => exact .object (.empty space)
  | object some spaced keys _ ih =>
      exact .object (.members (members_joined some spaced (fun p mem => (keys p mem).quoted) ih))

theorem skips_parseElement (value : Reader CJson) : Skips (parseElement value) := by
  intro input
  rw [parseElement, parseElement, skipWhitespace_idem]

theorem skips_parseMember (value : Reader CJson) : Skips (parseMember value) := by
  intro input
  simp only [parseMember, skipWhitespace_eq_nil, skipWhitespace_idem]

/-- A value is read with the space around it. -/
theorem reads_parseElement {value : Reader CJson} {p : Part CJson} (spaced : p.Spaced)
    (means : Means number p.text p.value) (reads : ∀ {l d}, number l d → ReadsNumber lib l d)
    (inner : Reads value left p.text [] (nesting p.value) p.value) :
    Reads (parseElement value) left p.bytes p.after (nesting p.value) p.value := by
  intro rest stops
  obtain ⟨b, m, text, visible, -⟩ := means.cons reads
  have whole : p.bytes ++ rest = p.before ++ (p.text ++ (p.after ++ rest)) := by simp [Part.bytes]
  have start : skipWhitespace (p.before ++ (p.text ++ (p.after ++ rest))) =
      p.text ++ (p.after ++ rest) := by
    rw [text]
    exact skipWhitespace_space spaced.1 visible
  rw [parseElement, whole, start]
  exact inner _ (stops.space spaced.2)

theorem reads_parseMember {value : Reader CJson} {p : Part CString × Part CJson}
    (spaced : p.1.Spaced ∧ p.2.Spaced) (key : QuotedMeans p.1.text p.1.value)
    (inner : Reads (parseElement value) left p.2.bytes p.2.after (nesting p.2.value) p.2.value) :
    Reads (parseMember value) left (memberBytes p) p.2.after (nestingMember (memberValue p))
      (memberValue p) := by
  intro rest stops
  obtain ⟨m, quote⟩ : ∃ m, p.1.text = 34 :: m := by
    obtain ⟨chars, _, text⟩ := key
    exact ⟨_, text⟩
  have whole : memberBytes p ++ rest =
      p.1.before ++ (p.1.text ++ (p.1.after ++ 58 :: (p.2.bytes ++ rest))) := by
    simp [memberBytes, Part.bytes]
  have start : skipWhitespace (p.1.before ++ (p.1.text ++ (p.1.after ++ 58 :: (p.2.bytes ++ rest))))
      = p.1.text ++ (p.1.after ++ 58 :: (p.2.bytes ++ rest)) := by
    rw [quote]
    exact skipWhitespace_space spaced.1.1 (by decide)
  have some : p.1.before ++ (p.1.text ++ (p.1.after ++ 58 :: (p.2.bytes ++ rest))) ≠ [] := by
    simp [quote]
  have read := inner rest stops
  rw [parseElement] at read
  rw [whole, parseMember, if_neg some, start, parseString_quotedMeans key]
  simp only [Option.bind_some]
  rw [skipWhitespace_space spaced.1.2 (by decide)]
  simp only [read]
  change _ = if nesting p.2.value ≤ left then Option.some (memberValue p, p.2.after ++ rest) else none
  by_cases fits : nesting p.2.value ≤ left
  · rw [if_pos fits, if_pos fits]
    rfl
  · rw [if_neg fits, if_neg fits]
    rfl

/-- Below the limit the tests for a value are the same. -/
theorem exists_parseValueWith (lib : NumberTexts) (left : Nat) :
    ∃ array object, parseValue lib left = parseValueWith lib array object := by
  cases left with
  | zero => exact ⟨_, _, rfl⟩
  | succ left => exact ⟨_, _, rfl⟩

theorem parseValue_array (lib : NumberTexts) (left : Nat) (l : List UInt8) :
    parseValue lib (left + 1) (91 :: l) = parseArray (parseValue lib left) (91 :: l) := rfl

theorem parseValue_object (lib : NumberTexts) (left : Nat) (l : List UInt8) :
    parseValue lib (left + 1) (123 :: l) = parseObject (parseValue lib left) (123 :: l) := rfl

theorem reads_parseValue_number {d : Rat} (is : ReadsNumber lib l d) (left : Nat) :
    Reads (parseValue lib left) left l [] (nesting (.number d)) (.number d) := by
  intro rest stops
  obtain ⟨array, object, same⟩ := exists_parseValueWith lib left
  have read := parseNumber_readsNumber is stops
  obtain ⟨b, m, text, digit⟩ := is.first
  have ne (c : UInt8) (letter : ¬ (c = 45 ∨ (48 ≤ c ∧ c ≤ 57))) : c ≠ b := by
    rintro rfl
    exact letter digit
  rw [text] at read
  rw [same, nesting, if_pos (Nat.zero_le left), text]
  simp only [List.cons_append, parseValueWith, List.cons_prefix_cons, ne 110 (by decide),
    ne 102 (by decide), ne 116 (by decide), false_and, if_false, (ne 34 (by decide)).symm,
    if_pos digit]
  exact read

theorem reads_parseValue_string {s : CString} (quoted : QuotedMeans l s) (left : Nat) :
    Reads (parseValue lib left) left l [] (nesting (.string s)) (.string s) := by
  intro rest stops
  obtain ⟨array, object, same⟩ := exists_parseValueWith lib left
  have read := parseString_quotedMeans quoted rest
  obtain ⟨chars, _, text⟩ := quoted
  have tests : parseValueWith lib array object (l ++ rest) =
      (parseString (l ++ rest)).map fun read => (.string read.1, read.2) := by
    rw [text]
    rfl
  rw [same, nesting, if_pos (Nat.zero_le left), tests, read]
  rfl

theorem reads_parseValue_emptyArray {w : List UInt8} (space : Space w) (left : Nat) :
    Reads (parseValue lib left) left (91 :: (w ++ [93])) [] (nesting (.array [])) (.array []) := by
  intro rest stops
  cases left with
  | zero => rfl
  | succ left =>
      have whole : 91 :: (w ++ [93]) ++ rest = 91 :: (w ++ 93 :: rest) := by simp
      rw [whole, parseValue_array, parseArray, parseBetween_empty 91 93 rest (by decide) space,
        nesting, nestingItems, if_pos (Nat.succ_le_succ (Nat.zero_le left))]
      rfl

/-- An array whose elements are read is read. -/
theorem reads_parseValue_array {parts : List (Part CJson)} (some : parts ≠ [])
    (spaced : ∀ p ∈ parts, p.Spaced) (means : ∀ p ∈ parts, Means number p.text p.value)
    (reads : ∀ {l d}, number l d → ReadsNumber lib l d)
    (ih : ∀ p ∈ parts, ∀ left,
      Reads (parseValue lib left) left p.text [] (nesting p.value) p.value) (left : Nat) :
    Reads (parseValue lib left) left (91 :: (joined Part.bytes parts ++ [93])) []
      (nesting (.array (parts.map Part.value))) (.array (parts.map Part.value)) := by
  intro rest stops
  have whole : 91 :: (joined Part.bytes parts ++ [93]) ++ rest =
      91 :: (joined Part.bytes parts ++ 93 :: rest) := by simp
  rw [whole]
  cases left with
  | zero => rfl
  | succ left =>
      have starts : ∀ p ∈ parts,
          ∃ w b m, p.bytes = w ++ b :: m ∧ Space w ∧ 32 < b ∧ b ≠ 93 := by
        intro p mem
        obtain ⟨b, m, text, visible, close, -⟩ := (means p mem).cons reads
        exact ⟨p.before, b, m ++ p.after, by simp [Part.bytes, text], (spaced p mem).1, visible,
          close⟩
      have read := parseBetween_joined 91 93 rest (by decide) (by decide) rfl some
        (skips_parseElement (parseValue lib left)) starts (fun p mem => (spaced p mem).2)
        (fun p mem => reads_parseElement (spaced p mem) (means p mem) reads (ih p mem left))
      have fits : (∀ p ∈ parts, nesting p.value ≤ left) ↔
          nesting (.array (parts.map Part.value)) ≤ left + 1 := by
        rw [nesting, Nat.succ_le_succ_iff, nestingItems_le, List.forall_mem_map]
      rw [parseValue_array, parseArray, read]
      simp only [fits]
      split <;> rfl

theorem reads_parseValue_emptyObject {w : List UInt8} (space : Space w) (left : Nat) :
    Reads (parseValue lib left) left (123 :: (w ++ [125])) [] (nesting (.object []))
      (.object []) := by
  intro rest stops
  cases left with
  | zero => rfl
  | succ left =>
      have whole : 123 :: (w ++ [125]) ++ rest = 123 :: (w ++ 125 :: rest) := by simp
      rw [whole, parseValue_object, parseObject,
        parseBetween_empty 123 125 rest (by decide) space, nesting, nestingMembers,
        if_pos (Nat.succ_le_succ (Nat.zero_le left))]
      rfl

/-- An object whose values are read is read. -/
theorem reads_parseValue_object {parts : List (Part CString × Part CJson)} (some : parts ≠ [])
    (spaced : ∀ p ∈ parts, p.1.Spaced ∧ p.2.Spaced)
    (keys : ∀ p ∈ parts, QuotedMeans p.1.text p.1.value)
    (means : ∀ p ∈ parts, Means number p.2.text p.2.value)
    (reads : ∀ {l d}, number l d → ReadsNumber lib l d)
    (ih : ∀ p ∈ parts, ∀ left,
      Reads (parseValue lib left) left p.2.text [] (nesting p.2.value) p.2.value) (left : Nat) :
    Reads (parseValue lib left) left (123 :: (joined memberBytes parts ++ [125])) []
      (nesting (.object (parts.map memberValue))) (.object (parts.map memberValue)) := by
  intro rest stops
  have whole : 123 :: (joined memberBytes parts ++ [125]) ++ rest =
      123 :: (joined memberBytes parts ++ 125 :: rest) := by simp
  rw [whole]
  cases left with
  | zero => rfl
  | succ left =>
      have starts : ∀ p ∈ parts,
          ∃ w b m, memberBytes p = w ++ b :: m ∧ Space w ∧ 32 < b ∧ b ≠ 125 := by
        intro p mem
        obtain ⟨chars, _, text⟩ := keys p mem
        exact ⟨p.1.before, 34, chars ++ [34] ++ p.1.after ++ 58 :: p.2.bytes,
          by simp [memberBytes, Part.bytes, text], (spaced p mem).1.1, by decide, by decide⟩
      have read := parseBetween_joined 123 125 rest (by decide) (by decide) rfl some
        (skips_parseMember (parseValue lib left)) starts (fun p mem => (spaced p mem).2.2)
        (fun p mem => reads_parseMember (spaced p mem) (keys p mem)
          (reads_parseElement (spaced p mem).2 (means p mem) reads (ih p mem left)))
      have fits : (∀ p ∈ parts, nestingMember (memberValue p) ≤ left) ↔
          nesting (.object (parts.map memberValue)) ≤ left + 1 := by
        rw [nesting, Nat.succ_le_succ_iff, nestingMembers_le, List.forall_mem_map]
      rw [parseValue_object, parseObject, read]
      simp only [fits]
      split <;> rfl

/-- A value is read as what its text means, unless it nests deeper than may still be
opened. -/
theorem reads_parseValue {item : CJson} (h : Means number l item)
    (reads : ∀ {l d}, number l d → ReadsNumber lib l d) (left : Nat) :
    Reads (parseValue lib left) left l [] (nesting item) item := by
  induction h generalizing left with
  | null =>
      intro rest stops
      obtain ⟨array, object, same⟩ := exists_parseValueWith lib left
      rw [same, nesting, if_pos (Nat.zero_le left)]
      rfl
  | true =>
      intro rest stops
      obtain ⟨array, object, same⟩ := exists_parseValueWith lib left
      rw [same, nesting, if_pos (Nat.zero_le left)]
      rfl
  | false =>
      intro rest stops
      obtain ⟨array, object, same⟩ := exists_parseValueWith lib left
      rw [same, nesting, if_pos (Nat.zero_le left)]
      rfl
  | number is => exact reads_parseValue_number (reads is) left
  | string quoted => exact reads_parseValue_string quoted left
  | emptyArray space => exact reads_parseValue_emptyArray space left
  | array some spaced means ih =>
      exact reads_parseValue_array some spaced means reads (fun p mem => ih p mem) left
  | emptyObject space => exact reads_parseValue_emptyObject space left
  | object some spaced keys means ih =>
      exact reads_parseValue_object some spaced keys means reads (fun p mem => ih p mem) left

/-- What begins with none of the bytes of a byte order mark keeps all of them. -/
theorem skipUtf8Bom_cons {b : UInt8} (l : List UInt8) (other : b ≠ 0xEF) :
    skipUtf8Bom (b :: l) = b :: l := by
  refine if_neg fun ⟨_, mark⟩ => other ?_
  exact (List.cons_prefix_cons.mp mark).1.symm

/-- The whole text: a byte order mark and blanks may stand before the value, anything that
does not go on with a number behind it. -/
theorem parse_means {mark blank behind : List UInt8} {item : CJson} {text : CString}
    (marked : mark = [] ∨ mark = [0xEF, 0xBB, 0xBF]) (space : Space blank)
    (h : Means number l item) (reads : ∀ {l d}, number l d → ReadsNumber lib l d)
    (stops : Stops (behind ++ [0])) (whole : text.bytes = mark ++ blank ++ l ++ behind) :
    parse lib text = if nesting item ≤ nestingLimit then some item else none := by
  obtain ⟨b, m, first, visible, -, other⟩ := h.cons reads
  have start : skipWhitespace (blank ++ l ++ (behind ++ [0])) = l ++ (behind ++ [0]) := by
    rw [first, List.append_assoc]
    exact skipWhitespace_space space visible
  have input : skipUtf8Bom (text.bytes ++ [0]) = blank ++ l ++ (behind ++ [0]) := by
    rw [whole]
    rcases marked with rfl | rfl
    · cases blank with
      | nil =>
          rw [first]
          simpa using skipUtf8Bom_cons (m ++ (behind ++ [0])) other
      | cons c blank =>
          have noMark : c ≠ 0xEF := by
            obtain rfl | rfl | rfl | rfl := eq_of_isSpace (space c List.mem_cons_self) <;> decide
          simpa using skipUtf8Bom_cons (blank ++ (l ++ (behind ++ [0]))) noMark
    · have long : 4 < ([0xEF, 0xBB, 0xBF] ++ blank ++ l ++ behind ++ [0] : List UInt8).length := by
        simp only [first, List.length_append, List.length_cons, List.length_nil]
        omega
      have marks : [0xEF, 0xBB, 0xBF] <+: ([0xEF, 0xBB, 0xBF] ++ blank ++ l ++ behind ++ [0]) :=
        ⟨blank ++ l ++ behind ++ [0], by simp⟩
      rw [skipUtf8Bom, if_pos ⟨long, marks⟩]
      simp
  rw [parse, input, start, reads_parseValue h reads nestingLimit _ stops]
  split <;> rfl

end Trees

section Texts
variable {lib : NumberTexts} {l : List UInt8}

/-- The double nearest to a number, where that is no infinity. -/
def nearestDouble (q : Rat) : Option Rat := Binary64.toRat? (Binary64.nearest q)

/-- What the C library documents of `strtod`: it takes the whole text of a number, and gives
the double nearest to it. -/
def RoundsNumbers (lib : NumberTexts) : Prop :=
  ∀ l q d, Decimal l q → nearestDouble q = some d → lib.strtod (ofBytes l) = (d, l.length)

/-- A number that `parse_number` has room for, and the double nearest to it. -/
def DecimalMeans (l : List UInt8) (d : Rat) : Prop :=
  l.length ≤ 63 ∧ ∃ q, Decimal l q ∧ nearestDouble q = some d

theorem isNumberByte_of_isDigit {b : UInt8} (h : JsonText.isDigit b = true) :
    isNumberByte b = true := by
  rw [JsonText.isDigit] at h
  simp [isNumberByte, h]

/-- The first character of a number is a digit, or a minus sign in front of one. -/
theorem lead_of_number (h : Number l) : ∃ b m, l = b :: m ∧ (b = 45 ∨ (48 ≤ b ∧ b ≤ 57)) := by
  obtain ⟨signed, integer, _, _⟩ := h
  rcases signed with rfl | rfl
  · cases integer with
    | zero => exact ⟨48, _, rfl, .inr (by decide)⟩
    | @digits d ds lead _ => exact ⟨d, _, rfl, .inr ⟨UInt8.le_trans (by decide) lead.1, lead.2⟩⟩
  · exact ⟨45, _, rfl, .inl rfl⟩

theorem isNumberByte_of_number (h : Number l) : ∀ b ∈ l, isNumberByte b = true := by
  obtain ⟨signed, integer, fraction, exponent⟩ := h
  have digits {ds : List UInt8} (all : ∀ b ∈ ds, JsonText.isDigit b = true) :
      ∀ b ∈ ds, isNumberByte b = true := fun b mem => isNumberByte_of_isDigit (all b mem)
  simp only [List.forall_mem_append]
  refine ⟨⟨⟨?_, ?_⟩, ?_⟩, ?_⟩
  · rcases signed with rfl | rfl <;> exact List.all_eq_true.mp rfl
  · exact digits integer.digits_all
  · cases fraction with
    | none => exact List.forall_mem_nil _
    | some some => exact List.forall_mem_cons.mpr ⟨rfl, digits some.2⟩
  · cases exponent with
    | none => exact List.forall_mem_nil _
    | some mark signed some =>
        refine List.forall_mem_cons.mpr ⟨?_, List.forall_mem_append.mpr ⟨?_, digits some.2⟩⟩
        · rcases mark with rfl | rfl <;> rfl
        · rcases signed with rfl | rfl | rfl <;> exact List.all_eq_true.mp rfl

theorem DecimalMeans.readsNumber {d : Rat} (rounds : RoundsNumbers lib) (h : DecimalMeans l d) :
    ReadsNumber lib l d := by
  obtain ⟨short, q, decimal, nearest⟩ := h
  exact
    { short := short
      bytes := isNumberByte_of_number decimal.number
      first := lead_of_number decimal.number
      same := rounds l q d decimal nearest }

/-- A C library that computes what is documented. -/
def roundingTexts : NumberTexts where
  formatDouble d := printInt d.num
  strtod s :=
    ((nearestDouble (decimalValue s.bytes)).getD 0, (s.bytes.takeWhile isNumberByte).length)

theorem roundsNumbers_roundingTexts : RoundsNumbers roundingTexts := by
  intro l q d decimal nearest
  have bytes := isNumberByte_of_number decimal.number
  have noEnd : 0 ∉ l := fun mem => absurd (bytes 0 mem) (by decide)
  have all : l.takeWhile isNumberByte = l := List.takeWhile_eq_self_iff.mpr bytes
  simp only [roundingTexts, ofBytes_of_nulFree noEnd, all, decimalValue_eq decimal, nearest,
    Option.getD_some]

/-- Every JSON text is read as what it says, up to the nesting limit, when the surrogates in its
strings are paired, no `\u0000` stands in them, and its numbers have at most 63 characters and
are in the range of a double. -/
theorem json_is_read {mark blank behind : List UInt8} {item : CJson} {text : CString}
    (rounds : RoundsNumbers lib) (marked : mark = [] ∨ mark = [0xEF, 0xBB, 0xBF])
    (space : Space blank) (means : Means DecimalMeans l item)
    (stops : Stops (behind ++ [0])) (whole : text.bytes = mark ++ blank ++ l ++ behind) :
    parse lib text = if nesting item ≤ nestingLimit then some item else none :=
  parse_means marked space means (fun h => h.readsNumber rounds) stops whole

theorem json_is_read_prices :
    parse roundingTexts (lit "\uFEFF \x7b\"p\" : [-2.5e1 ,\"\\u00e9\\ud83d\\ude00\"]\x7d\n") =
      if nesting (.object [(lit "p", .array [.number (-25), .string (lit "é😀")])]) ≤ nestingLimit
      then some (.object [(lit "p", .array [.number (-25), .string (lit "é😀")])]) else none := by
  have digit (d : UInt8) (h : JsonText.isDigit d = true) : Digits [d] :=
    ⟨by simp, List.forall_mem_singleton.mpr h⟩
  have blank : Space [32] := List.forall_mem_singleton.mpr rfl
  have number : DecimalMeans [45, 50, 46, 53, 101, 49] (-25) :=
    ⟨by decide, _, .mk (.inr rfl) (.digits (by decide) (List.forall_mem_nil _))
      (.some (digit 53 rfl)) (@Exponent.some 101 [] [49] (.inr rfl) (.inl rfl) (digit 49 rfl)),
      by decide +kernel⟩
  have accent : CodeUnit [48, 48, 101, 57] 'é'.toNat := ⟨rfl, List.all_eq_true.mp rfl, by decide⟩
  have high : CodeUnit [100, 56, 51, 100] (0xD800 + 0x3D) :=
    ⟨rfl, List.all_eq_true.mp rfl, by decide⟩
  have low : CodeUnit [100, 101, 48, 48] (0xDC00 + 0x200) :=
    ⟨rfl, List.all_eq_true.mp rfl, by decide⟩
  have char : '😀'.toNat = 0x10000 + 0x400 * 0x3D + 0x200 := by decide
  have face : QuotedMeans [34, 92, 117, 48, 48, 101, 57, 92, 117, 100, 56, 51, 100, 92, 117, 100, 101,
      48, 48, 34] (lit "é😀") :=
    ⟨_, .unicode accent (.pair high low (by decide) char .nil), rfl⟩
  have key : QuotedMeans [34, 112, 34] (lit "p") := ⟨[112], .plain (by decide) .nil, rfl⟩
  have list := @Means.array DecimalMeans
    [⟨[], _, [32], .number (-25)⟩, ⟨[], _, [], .string (lit "é😀")⟩] (by simp)
    (List.forall_mem_cons.mpr
      ⟨⟨space_nil, blank⟩, List.forall_mem_singleton.mpr ⟨space_nil, space_nil⟩⟩)
    (List.forall_mem_cons.mpr ⟨.number number, List.forall_mem_singleton.mpr (.string face)⟩)
  have object := @Means.object DecimalMeans
    [(⟨[], _, [32], lit "p"⟩, ⟨[32], _, [], _⟩)] (by simp)
    (List.forall_mem_singleton.mpr ⟨⟨space_nil, blank⟩, blank, space_nil⟩)
    (List.forall_mem_singleton.mpr key) (List.forall_mem_singleton.mpr list)
  have stops : Stops ([10] ++ [0]) := ⟨10, [0], rfl, rfl⟩
  exact json_is_read roundsNumbers_roundingTexts (.inr rfl) blank object stops (by decide +kernel)

end Texts

end CJson

end Kaufbot
