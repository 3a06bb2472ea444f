import Kaufbot.Guarantees.JsonMeaning

/-!
What is printed is read back: the parser gives the tree the printer was given,
whatever its strings and keys hold, as long as arrays and objects do not nest
deeper than the parser follows. The texts of the numbers have to be ones the C
library reads back.
-/

namespace Kaufbot

open CString

namespace CJson

/-- The text of the number is one that `print_number` has room for and that
`parse_number` turns into the number again. -/
structure ReadsBack (lib : NumberTexts) (d : Rat) : Prop where
  short : (numberText lib d).length ≤ 25
  bytes : ∀ b ∈ (numberText lib d).bytes, isNumberByte b = true
  first : ∃ b l, (numberText lib d).bytes = b :: l ∧ (b = 45 ∨ (48 ≤ b ∧ b ≤ 57))
  same : lib.strtod (numberText lib d) = (d, (numberText lib d).length)

theorem ReadsBack.readsNumber {lib : NumberTexts} {d : Rat} (h : ReadsBack lib d) :
    ReadsNumber lib (numberText lib d).bytes d where
  short := Nat.le_trans h.short (by decide)
  bytes := h.bytes
  first := h.first
  same := by rw [ofBytes_bytes, h.same, CString.length]

section Strings

theorem digit_hexDigit {d : Nat} (h : d < 16) :
    JsonText.isHexDigit (printHex2.hexDigit d) = true ∧
      JsonText.digitValue (printHex2.hexDigit d) = d := by
  have cases (d : Fin 16) : JsonText.isHexDigit (printHex2.hexDigit d) = true ∧
      JsonText.digitValue (printHex2.hexDigit d) = d.val := by
    revert d
    decide
  exact cases ⟨d, h⟩

/-- Every byte is written as an escape or a character that stands for it. -/
theorem stands_escapeByte (b : UInt8) : JsonText.Stands (escapeByte b) [b] := by
  obtain ⟨letter, -⟩ | ⟨control, -, code⟩ | ⟨printable, quote, backslash, -, plain⟩ :=
    escapeByte_cases b
  · rcases letter with rfl | rfl | rfl | rfl | rfl | rfl | rfl <;> exact .letter (by decide) .nil
  · have small : b.toNat < 32 := UInt8.lt_iff_toNat_lt.mp control
    obtain ⟨high, upper⟩ := digit_hexDigit (show b.toNat / 16 < 16 by omega)
    obtain ⟨low, lower⟩ := digit_hexDigit (show b.toNat % 16 < 16 by omega)
    have char : (Char.ofNat b.toNat).toNat = b.toNat := by
      have valid : b.toNat.isValidChar := .inl (by omega)
      rw [Char.ofNat, dif_pos valid]
      rfl
    have unit : JsonText.CodeUnit [48, 48, printHex2.hexDigit (b.toNat / 16),
        printHex2.hexDigit (b.toNat % 16)] (Char.ofNat b.toNat).toNat := by
      refine ⟨rfl, ?_, ?_⟩
      · simp only [List.forall_mem_cons, List.not_mem_nil, false_implies, implies_true, and_true]
        exact ⟨rfl, rfl, high, low⟩
      · have zero : JsonText.digitValue 48 = 0 := rfl
        simp only [List.foldl_cons, List.foldl_nil, zero, upper, lower, char]
        omega
    have byte : String.utf8EncodeChar (Char.ofNat b.toNat) = [b] := by
      have ascii := encodeCodepoint_char (Char.ofNat b.toNat)
      rw [char, encodeCodepoint, if_pos (by omega), UInt8.ofNat_toNat] at ascii
      exact (Option.some.inj ascii).symm
    have stands := JsonText.Stands.unicode unit .nil
    rw [byte] at stands
    rw [code, bytes_printHex2]
    exact stands
  · rw [plain]
    refine .plain ⟨?_, quote, backslash⟩ .nil
    rw [UInt8.lt_iff_toNat_lt] at printable
    rw [UInt8.le_iff_toNat_le]
    exact printable

/-- Whatever bytes a string holds, its text in quotes means the string. -/
theorem quotedMeans_quoted (s : CString) : QuotedMeans (quoted s) s := by
  have stands (l : List UInt8) : JsonText.Stands (l.flatMap escapeByte) l := by
    induction l with
    | nil => exact .nil
    | cons b l ih => exact (stands_escapeByte b).append ih
  exact ⟨_, stands s.bytes, rfl⟩

end Strings

section Trees
variable {lib : NumberTexts}

/-- A part that is written without space around it. -/
def Part.bare {α : Type} (text : List UInt8) (value : α) : Part α := ⟨[], text, [], value⟩

theorem Part.spaced_bare {α : Type} (text : List UInt8) (value : α) :
    (Part.bare text value).Spaced := ⟨JsonText.space_nil, JsonText.space_nil⟩

theorem renderItems_eq (items : List CJson) : renderItems lib items =
    joined Part.bytes (items.map fun item => Part.bare (render lib item) item) := by
  induction items with
  | nil => rfl
  | cons item items ih =>
      rw [renderItems, ih]
      cases items <;> simp [joined, separator, Part.bytes, Part.bare]

/-- The parts of a member as it is printed. -/
def memberParts (lib : NumberTexts) (member : CString × CJson) : Part CString × Part CJson :=
  (Part.bare (quoted member.1) member.1, Part.bare (render lib member.2) member.2)

theorem renderMembers_eq (members : List (CString × CJson)) :
    renderMembers lib members = joined memberBytes (members.map (memberParts lib)) := by
  induction members with
  | nil => rfl
  | cons member members ih =>
      obtain ⟨key, value⟩ := member
      rw [renderMembers, ih, renderMember]
      cases members <;> simp [joined, separator, memberBytes, memberParts, Part.bytes, Part.bare]

/-- What a tree is rendered as means that tree. -/
theorem means_render {number : List UInt8 → Rat → Prop} {item : CJson}
    (numbers : AllNumbers (fun d => number (numberText lib d).bytes d) item) :
    Means number (render lib item) item := by
  induction numbers with
  | null => exact .null
  | bool value =>
      cases value with
      | false => exact .false
      | true => exact .true
  | number is => exact .number is
  | string s => exact .string (quotedMeans_quoted s)
  | @array items _ ih =>
      rw [render, renderItems_eq]
      cases items with
      | nil => exact .emptyArray JsonText.space_nil
      | cons first items =>
          have values : ((first :: items).map fun item => Part.bare (render lib item) item).map
              Part.value = first :: items := by
            rw [List.map_map]
            exact List.map_id _
          have means := @Means.array number
            ((first :: items).map fun item => Part.bare (render lib item) item) (by simp)
            (List.forall_mem_map.mpr fun item _ => Part.spaced_bare _ _)
            (List.forall_mem_map.mpr ih)
          rwa [values] at means
  | @object members _ ih =>
      rw [render, renderMembers_eq]
      cases members with
      | nil => exact .emptyObject JsonText.space_nil
      | cons first members =>
          have values : ((first :: members).map (memberParts lib)).map memberValue =
              first :: members := by
            rw [List.map_map]
            exact List.map_id _
          have means := @Means.object number ((first :: members).map (memberParts lib)) (by simp)
            (List.forall_mem_map.mpr fun _ _ => ⟨Part.spaced_bare _ _, Part.spaced_bare _ _⟩)
            (List.forall_mem_map.mpr fun member _ => quotedMeans_quoted member.1)
            (List.forall_mem_map.mpr ih)
          rwa [values] at means

/-- What is printed is read back as the tree it was printed from, whatever stands in its
strings and keys, unless it nests too deep: then it is not read at all. -/
theorem parse_print {item : CJson} {text : CString} (numbers : AllNumbers (ReadsBack lib) item)
    (printed : printUnformatted lib item = some text) :
    parse lib text = if nesting item ≤ nestingLimit then some item else none := by
  have same : text.bytes = render lib item := by
    rw [printUnformatted_eq (numbers.imp fun back => back.short) printed]
    exact ofBytes_of_nulFree (zero_notMem_render numbers)
  have means : Means (ReadsNumber lib) (render lib item) item :=
    means_render (numbers.imp fun back => back.readsNumber)
  exact parse_means (.inl rfl) JsonText.space_nil means id (stops_cons (b := 0) [] rfl)
    (by rw [same, List.append_nil]; rfl)

end Trees

section Accepted
variable {lib : NumberTexts}

theorem nesting_parseValueWith {array object : Reader CJson} {left : Nat}
    (arrays : ∀ {input item rest}, array input = some (item, rest) → nesting item ≤ left)
    (objects : ∀ {input item rest}, object input = some (item, rest) → nesting item ≤ left)
    {input rest : List UInt8} {item : CJson}
    (h : parseValueWith lib array object input = some (item, rest)) : nesting item ≤ left := by
  cases input with
  | nil => cases h
  | cons b input =>
      rw [parseValueWith] at h
      dsimp only at h
      split_ifs at h
      · cases h
        exact Nat.zero_le left
      · cases h
        exact Nat.zero_le left
      · cases h
        exact Nat.zero_le left
      · obtain ⟨_, _, same⟩ := Option.map_eq_some_iff.mp h
        cases same
        exact Nat.zero_le left
      · rw [parseNumber] at h
        dsimp only at h
        split at h
        · cases h
        · cases h
          exact Nat.zero_le left
      · exact arrays h
      · exact objects h

/-- What is read nests no deeper than was allowed. -/
theorem nesting_parseValue {left : Nat} {input rest : List UInt8} {item : CJson}
    (h : parseValue lib left input = some (item, rest)) : nesting item ≤ left := by
  induction left generalizing input rest item with
  | zero =>
      exact nesting_parseValueWith (fun none => by cases none) (fun none => by cases none) h
  | succ left ih =>
      refine nesting_parseValueWith ?_ ?_ h
      · intro input item rest h
        obtain ⟨⟨items, behind⟩, read, same⟩ := Option.map_eq_some_iff.mp h
        cases same
        exact Nat.succ_le_succ (nestingItems_le.mpr (forall_mem_parseBetween ih read))
      · intro input item rest h
        obtain ⟨⟨members, behind⟩, read, same⟩ := Option.map_eq_some_iff.mp h
        cases same
        refine Nat.succ_le_succ (nestingMembers_le.mpr (forall_mem_parseBetween ?_ read))
        intro input member rest h
        rw [parseMember] at h
        split at h
        · cases h
        · obtain ⟨⟨key, behind⟩, -, h⟩ := Option.bind_eq_some_iff.mp h
          dsimp only at h
          split at h
          · obtain ⟨⟨item, last⟩, inner, same⟩ := Option.map_eq_some_iff.mp h
            cases same
            exact ih inner
          · cases h

theorem nesting_parse {value : CString} {item : CJson} (h : parse lib value = some item) :
    nesting item ≤ nestingLimit := by
  obtain ⟨⟨_, rest⟩, read, rfl⟩ := Option.map_eq_some_iff.mp h
  exact nesting_parseValue read

end Accepted

section Integers

/-- What the C library documents of integers: `%1.15g` prints those of at most fifteen
digits as `%d` does, and `strtod` reads them to the end. -/
structure ReadsIntegers (lib : NumberTexts) : Prop where
  format : ∀ n : Int, n.natAbs < 10 ^ 15 → lib.formatDouble n = printInt n
  read : ∀ n : Int, n.natAbs < 10 ^ 15 → lib.strtod (printInt n) = ((n : Rat), (printInt n).length)

theorem isNumberByte_printInt {n : Int} {b : UInt8} (mem : b ∈ (printInt n).bytes) :
    isNumberByte b = true := by
  rcases mem_printPadded mem with ⟨lower, upper⟩ | rfl
  · have digit : 48 ≤ b ∧ b ≤ 57 :=
      ⟨UInt8.le_iff_toNat_le.mpr lower, UInt8.le_iff_toNat_le.mpr upper⟩
    simp [isNumberByte, digit]
  · rfl

theorem ReadsIntegers.numberText_eq {lib : NumberTexts} (h : ReadsIntegers lib) {n : Int}
    (small : n.natAbs < 10 ^ 15) : numberText lib n = printInt n := by
  rw [numberText]
  split
  · next whole =>
      have same : n = doubleToIntSat n := by exact_mod_cast whole
      rw [← same]
  · exact h.format n small

theorem ReadsIntegers.readsBack {lib : NumberTexts} (h : ReadsIntegers lib) {n : Int}
    (small : n.natAbs < 10 ^ 15) : ReadsBack lib n := by
  have text := h.numberText_eq small
  refine ⟨?_, ?_, ?_, ?_⟩
  · have := length_printInt_le (n := n) (by omega) (by omega)
    rw [text]
    omega
  · rw [text]
    exact fun b mem => isNumberByte_printInt mem
  · obtain ⟨b, l, first, digit | rfl⟩ := printInt_head n
    · rw [text]
      exact ⟨b, l, first, .inr ⟨UInt8.le_iff_toNat_le.mpr digit.1, UInt8.le_iff_toNat_le.mpr digit.2⟩⟩
    · rw [text]
      exact ⟨45, l, first, .inl rfl⟩
  · rw [text]
    exact h.read n small

/-- The conversions, as far as integers go. -/
def digitTexts : NumberTexts where
  formatDouble d := printInt d.num
  strtod s := ((strtoll s).1, s.length - (strtoll s).2.length)

theorem readsIntegers_digitTexts : ReadsIntegers digitTexts where
  format n _ := by simp only [digitTexts, Rat.num_intCast]
  read n small := by
    simp only [digitTexts, strtoll_printInt (n := n) (by omega) (by omega), List.length_nil,
      Nat.sub_zero]

end Integers

section RoundTrip
variable {lib : NumberTexts} {item : CJson} {text : CString}

/-- A tree whose text has room is printed, and what is printed is read back as that tree,
whatever stands in its strings and keys. Only what nests too deep is not read at all. -/
theorem json_round_trip (numbers : AllNumbers (ReadsBack lib) item)
    (room : (render lib item).length + 2 ≤ intMax) :
    ∃ text, printUnformatted lib item = some text ∧
      parse lib text = if nesting item ≤ nestingLimit then some item else none :=
  have printed := exists_printUnformatted (numbers.imp fun back => back.short) room
  ⟨_, printed, parse_print numbers printed⟩

theorem json_round_trip_quote :
    ∃ text, printUnformatted digitTexts (.array [.number 7, .string (lit "a\",\n")]) = some text ∧
      parse digitTexts text = if nesting (.array [.number 7, .string (lit "a\",\n")]) ≤ nestingLimit
        then some (.array [.number 7, .string (lit "a\",\n")]) else none :=
  json_round_trip
    (.array (by
      simp only [List.forall_mem_cons]
      exact ⟨.number (readsIntegers_digitTexts.readsBack (n := 7) (by decide)), .string _,
        fun _ none => absurd none List.not_mem_nil⟩))
    (by decide)

/-- What was parsed can be printed and parsed again to the same tree: the parser accepts
nothing that it would not accept in the printer's words. -/
theorem reparse_printed {value : CString} (parsed : parse lib value = some item)
    (numbers : AllNumbers (ReadsBack lib) item) (printed : printUnformatted lib item = some text) :
    parse lib text = some item := by
  rw [parse_print numbers printed, if_pos (nesting_parse parsed)]

/-- Spaces, and escapes the printer has no use for. -/
theorem reparse_printed_spaces : parse digitTexts (lit "[null,-12,\"é/\\n\"]") =
    some (.array [.null, .number ((-12 : Int) : Rat), .string (lit "é/\n")]) :=
  have parsed : parse digitTexts (lit " [ null ,\t-12, \"\\u00e9\\/\\n\"] x") =
      some (.array [.null, .number ((-12 : Int) : Rat), .string (lit "é/\n")]) :=
    rfl
  have small : (-12 : Int).natAbs < 10 ^ 15 := by decide
  reparse_printed parsed
    (.array (by
      simp only [List.forall_mem_cons]
      exact ⟨.null, .number (readsIntegers_digitTexts.readsBack small), .string _,
        fun _ none => absurd none List.not_mem_nil⟩)) rfl

end RoundTrip

end CJson

end Kaufbot
