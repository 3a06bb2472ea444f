import Kaufbot.Cjson.Print

/-!
`cJSON_Parse`. The parser's buffer is what stands from its offset to the NUL
that ends the text, the NUL included. How deep arrays and objects may still
nest is counted down; what a loop may still read bounds its rounds.
-/

namespace Kaufbot

open CString

namespace CJson

/-- `buffer_skip_whitespace`: from the end of the buffer it steps back one character. -/
def skipWhitespace (input : List UInt8) : List UInt8 :=
  match input.dropWhile (· ≤ 32) with
  | [] => input.drop (input.length - 1)
  | rest => rest

/-- `skip_utf8_bom`, at the start of the buffer. -/
def skipUtf8Bom (input : List UInt8) : List UInt8 :=
  if 4 < input.length ∧ [0xEF, 0xBB, 0xBF] <+: input then input.drop 3 else input

/-- The characters `parse_number` copies. -/
def isNumberByte (b : UInt8) : Bool :=
  (48 ≤ b && b ≤ 57) || b == 43 || b == 45 || b == 101 || b == 69 || b == 46

def parseNumber (lib : NumberTexts) (input : List UInt8) : Option (CJson × List UInt8) :=
  let (d, taken) := lib.strtod (ofBytes ((input.take 63).takeWhile isNumberByte))
  if taken = 0 then none else some (.number d, input.drop taken)

def hexValue (b : UInt8) : Option Nat :=
  if 48 ≤ b ∧ b ≤ 57 then some (b.toNat - 48)
  else if 65 ≤ b ∧ b ≤ 70 then some (10 + b.toNat - 65)
  else if 97 ≤ b ∧ b ≤ 102 then some (10 + b.toNat - 97)
  else none

/-- `parse_hex4`: what is not four hexadecimal digits counts as 0. -/
def parseHex4 (input : List UInt8) : Nat :=
  match (input.take 4).mapM hexValue with
  | some digits => digits.foldl (fun h digit => 16 * h + digit) 0
  | none => 0

/-- The UTF-8 bytes of a code point. -/
def encodeCodepoint (codepoint : Nat) : Option (List UInt8) :=
  if codepoint < 0x80 then some [UInt8.ofNat codepoint]
  else if codepoint < 0x800 then
    some [UInt8.ofNat (codepoint >>> 6 ||| 0xC0), continuation codepoint]
  else if codepoint < 0x10000 then
    some [UInt8.ofNat (codepoint >>> 12 ||| 0xE0), continuation (codepoint >>> 6),
      continuation codepoint]
  else if codepoint ≤ 0x10FFFF then
    some [UInt8.ofNat (codepoint >>> 18 ||| 0xF0), continuation (codepoint >>> 12),
      continuation (codepoint >>> 6), continuation codepoint]
  else none
where
  continuation (bits : Nat) : UInt8 := UInt8.ofNat ((bits ||| 0x80) &&& 0xBF)

/-- `utf16_literal_to_utf8`: the bytes, and how long the literal is. -/
def utf16LiteralToUtf8 (input : List UInt8) : Option (List UInt8 × Nat) :=
  let firstCode := parseHex4 (input.drop 2)
  let second := input.drop 6
  let secondCode := parseHex4 (second.drop 2)
  if input.length < 6 then none
  else if 0xDC00 ≤ firstCode ∧ firstCode ≤ 0xDFFF then none
  else if 0xD800 ≤ firstCode ∧ firstCode ≤ 0xDBFF then
    if second.length < 6 then none
    else if ¬ [92, 117] <+: second then none
    else if secondCode < 0xDC00 ∨ 0xDFFF < secondCode then none
    else
      (encodeCodepoint (0x10000 + ((firstCode &&& 0x3FF) <<< 10 ||| (secondCode &&& 0x3FF)))).map
        (·, 12)
  else (encodeCodepoint firstCode).map (·, 6)

/-- One escape sequence, from its backslash. Behind the last character of a string stands
its closing quote, which a backslash in front of it escapes. -/
def escapeSequence (input : List UInt8) : Option (List UInt8 × Nat) :=
  let letter := input.tail.headD 34
  if letter = 98 then some ([8], 2)
  else if letter = 102 then some ([12], 2)
  else if letter = 110 then some ([10], 2)
  else if letter = 114 then some ([13], 2)
  else if letter = 116 then some ([9], 2)
  else if letter = 34 ∨ letter = 92 ∨ letter = 47 then some ([letter], 2)
  else if letter = 117 then utf16LiteralToUtf8 input
  else none

/-- The loop through the string literal; the first `skip` characters belong to a sequence
that has been read. -/
def unescape : Nat → List UInt8 → Option (List UInt8)
  | _, [] => some []
  | skip + 1, _ :: input => unescape skip input
  | 0, b :: input =>
      if b ≠ 92 then (unescape 0 input).map (b :: ·)
      else
        (escapeSequence (b :: input)).bind fun (written, length) =>
          (unescape (length - 1) input).map (written ++ ·)

/-- The characters up to the closing quote, and what stands behind it. -/
def closingQuote : List UInt8 → Option (List UInt8 × List UInt8)
  | [] => none
  | [b] => if b = 34 then some ([], []) else none
  | b :: c :: input =>
      if b = 34 then some ([], c :: input)
      else if b = 92 then (closingQuote input).map fun (inside, rest) => (b :: c :: inside, rest)
      else (closingQuote (c :: input)).map fun (inside, rest) => (b :: inside, rest)

def parseString : List UInt8 → Option (CString × List UInt8)
  | [] => none
  | b :: input =>
      if b ≠ 34 then none
      else
        (closingQuote input).bind fun (inside, rest) =>
          (unescape 0 inside).map fun output => (ofBytes output, rest)

/-- A part of the parser: what it read, and what stands behind it. -/
abbrev Reader (α : Type) := List UInt8 → Option (α × List UInt8)

/-- The loops of `parse_array` and `parse_object`, from behind what opens them or a comma. -/
def parseLoop {α : Type} (one : Reader α) : Nat → Reader (List α)
  | 0, _ => none
  | rounds + 1, input =>
      (one input).bind fun (item, rest) =>
        match skipWhitespace rest with
        | 44 :: rest => (parseLoop one rounds rest).map fun (items, rest) => (item :: items, rest)
        | rest => some ([item], rest)

/-- What `parse_array` and `parse_object` share: the way from what opens them to behind what
closes them. -/
def parseBetween {α : Type} (close : UInt8) (one : Reader α) (input : List UInt8) :
    Option (List α × List UInt8) :=
  match skipWhitespace input.tail with
  | [] => none
  | b :: rest =>
      if b = close then some ([], rest)
      else
        (parseLoop one (rest.length + 1) (b :: rest)).bind fun
          | (_, []) => none
          | (items, c :: rest) => if c = close then some (items, rest) else none

def parseElement (value : Reader CJson) : Reader CJson := fun input => value (skipWhitespace input)

/-- `parse_array`, below the nesting limit. -/
def parseArray (value : Reader CJson) : Reader CJson := fun input =>
  (parseBetween 93 (parseElement value) input).map fun (items, rest) => (.array items, rest)

/-- One round of the loop of `parse_object`. -/
def parseMember (value : Reader CJson) : Reader (CString × CJson) := fun input =>
  if input = [] then none
  else
    (parseString (skipWhitespace input)).bind fun (key, rest) =>
      match skipWhitespace rest with
      | 58 :: rest => (value (skipWhitespace rest)).map fun (item, rest) => ((key, item), rest)
      | _ => none

/-- `parse_object`, below the nesting limit. -/
def parseObject (value : Reader CJson) : Reader CJson := fun input =>
  (parseBetween 125 (parseMember value) input).map fun (members, rest) => (.object members, rest)

/-- The tests of `parse_value`, in their order. -/
def parseValueWith (lib : NumberTexts) (array object : Reader CJson) : Reader CJson
  | [] => none
  | b :: rest =>
      let input := b :: rest
      if [110, 117, 108, 108] <+: input then some (.null, input.drop 4)
      else if [102, 97, 108, 115, 101] <+: input then some (.bool false, input.drop 5)
      else if [116, 114, 117, 101] <+: input then some (.bool true, input.drop 4)
      else if b = 34 then (parseString input).map fun (s, rest) => (.string s, rest)
      else if b = 45 ∨ (48 ≤ b ∧ b ≤ 57) then parseNumber lib input
      else if b = 91 then array input
      else if b = 123 then object input
      else none

/-- `parse_value`, with how many arrays and objects may still open inside one another. -/
def parseValue (lib : NumberTexts) : Nat → Reader CJson
  | 0 => parseValueWith lib (fun _ => none) (fun _ => none)
  | left + 1 =>
      parseValueWith lib (parseArray (parseValue lib left)) (parseObject (parseValue lib left))

/-- `CJSON_NESTING_LIMIT` -/
def nestingLimit : Nat := 1000

/-- `cJSON_Parse`: what stands behind the first value does not count. -/
def parse (lib : NumberTexts) (value : CString) : Option CJson :=
  (parseValue lib nestingLimit (skipWhitespace (skipUtf8Bom (value.bytes ++ [0])))).map Prod.fst

section Loops
variable {α : Type} {one : Reader α} {close : UInt8}

/-- What holds of everything that is read one by one holds of the whole list. -/
theorem forall_mem_parseLoop {P : α → Prop} (each : ∀ {input a rest}, one input = some (a, rest) → P a)
    {rounds : Nat} {input rest : List UInt8} {l : List α}
    (h : parseLoop one rounds input = some (l, rest)) : ∀ a ∈ l, P a := by
  induction rounds generalizing input l with
  | zero => cases h
  | succ rounds ih =>
      obtain ⟨⟨item, behind⟩, first, h⟩ := Option.bind_eq_some_iff.mp h
      dsimp only at h
      split at h
      · obtain ⟨⟨items, last⟩, again, same⟩ := Option.map_eq_some_iff.mp h
        cases same
        exact List.forall_mem_cons.mpr ⟨each first, ih again⟩
      · cases h
        exact List.forall_mem_singleton.mpr (each first)

theorem forall_mem_parseBetween {P : α → Prop}
    (each : ∀ {input a rest}, one input = some (a, rest) → P a) {input rest : List UInt8}
    {l : List α} (h : parseBetween close one input = some (l, rest)) : ∀ a ∈ l, P a := by
  rw [parseBetween] at h
  split at h
  · cases h
  · split at h
    · cases h
      exact fun a none => absurd none List.not_mem_nil
    · obtain ⟨⟨items, behind⟩, loop, h⟩ := Option.bind_eq_some_iff.mp h
      cases behind with
      | nil => cases h
      | cons c behind =>
          dsimp only at h
          split at h
          · cases h
            exact forall_mem_parseLoop each loop
          · cases h

end Loops

end CJson

end Kaufbot
