import Kaufbot.Cjson.Parse
import Kaufbot.Library.JsonText

/-!
A string is read as the characters it stands for: escapes and surrogate pairs are
written in UTF-8, all other bytes are taken as they are. The string ends at its
closing quote, whatever quotes are escaped in it.
-/

namespace Kaufbot

open CString

namespace CJson

open JsonText

section Characters
variable {code l m rest : List UInt8} {unit : Nat}

theorem continuation_eq (bits : Nat) :
    encodeCodepoint.continuation bits = UInt8.ofNat (bits % 64 + 0x80) := by
  have byte (r : Fin 256) : (r.val ||| 0x80) &&& 0xBF = r.val % 64 + 0x80 := by
    revert r
    decide +kernel
  have low : (bits ||| 0x80) &&& 0xBF = ((bits ||| 0x80) &&& 0xBF) % 2 ^ 8 := by
    have : (bits ||| 0x80) &&& 0xBF ≤ 0xBF := Nat.and_le_right
    omega
  have same := byte ⟨bits % 256, Nat.mod_lt _ (by decide)⟩
  rw [encodeCodepoint.continuation, low, Nat.and_mod_two_pow, Nat.or_mod_two_pow]
  refine congrArg UInt8.ofNat (same.trans ?_)
  dsimp only
  omega

/-- The marks of the first byte are above the bits it carries. -/
theorem or_mark {x : Nat} :
    (x < 32 → x ||| 0xC0 = x + 0xC0) ∧ (x < 16 → x ||| 0xE0 = x + 0xE0) ∧
      (x < 8 → x ||| 0xF0 = x + 0xF0) := by
  have two (x : Fin 32) : x.val ||| 0xC0 = x.val + 0xC0 := by
    revert x
    decide
  have three (x : Fin 16) : x.val ||| 0xE0 = x.val + 0xE0 := by
    revert x
    decide
  have four (x : Fin 8) : x.val ||| 0xF0 = x.val + 0xF0 := by
    revert x
    decide
  exact ⟨fun h => two ⟨x, h⟩, fun h => three ⟨x, h⟩, fun h => four ⟨x, h⟩⟩

/-- The encoder writes every character in UTF-8. -/
theorem encodeCodepoint_char (c : Char) :
    encodeCodepoint c.toNat = some (String.utf8EncodeChar c) := by
  have valid : c.toNat < 0x110000 := by
    rcases c.valid with small | ⟨_, small⟩
    · exact Nat.lt_trans small (by decide)
    · exact small
  have bytes : String.utf8EncodeChar c =
      if c.toNat ≤ 0x7F then [UInt8.ofNat c.toNat]
      else if c.toNat ≤ 0x7FF then
        [UInt8.ofNat (c.toNat / 64 % 32 + 0xC0), UInt8.ofNat (c.toNat % 64 + 0x80)]
      else if c.toNat ≤ 0xFFFF then
        [UInt8.ofNat (c.toNat / 4096 % 16 + 0xE0), UInt8.ofNat (c.toNat / 64 % 64 + 0x80),
          UInt8.ofNat (c.toNat % 64 + 0x80)]
      else
        [UInt8.ofNat (c.toNat / 262144 % 8 + 0xF0), UInt8.ofNat (c.toNat / 4096 % 64 + 0x80),
          UInt8.ofNat (c.toNat / 64 % 64 + 0x80), UInt8.ofNat (c.toNat % 64 + 0x80)] := rfl
  rw [bytes, encodeCodepoint]
  simp only [continuation_eq, Nat.shiftRight_eq_div_pow]
  generalize c.toNat = n at valid
  by_cases one : n < 0x80
  · rw [if_pos one, if_pos (Nat.le_of_lt_succ one)]
  by_cases two : n < 0x800
  · have bits : n / 2 ^ 6 = n / 64 % 32 := by omega
    rw [if_neg one, if_pos two, if_neg (by omega), if_pos (by omega), bits,
      or_mark.1 (Nat.mod_lt _ (by decide))]
  by_cases three : n < 0x10000
  · have bits : n / 2 ^ 12 = n / 4096 % 16 := by omega
    rw [if_neg one, if_neg two, if_pos three, if_neg (by omega), if_neg (by omega),
      if_pos (by omega), bits, or_mark.2.1 (Nat.mod_lt _ (by decide))]
  · have bits : n / 2 ^ 18 = n / 262144 % 8 := by omega
    rw [if_neg one, if_neg two, if_neg three, if_pos (by omega), if_neg (by omega),
      if_neg (by omega), if_neg (by omega), bits, or_mark.2.2 (Nat.mod_lt _ (by decide))]

theorem hexValue_of_isHexDigit {b : UInt8} (h : isHexDigit b = true) :
    hexValue b = some (digitValue b) := by
  simp only [isHexDigit, JsonText.isDigit, Bool.or_eq_true, Bool.and_eq_true,
    decide_eq_true_eq] at h
  simp only [hexValue, digitValue, JsonText.isDigit, Bool.and_eq_true, decide_eq_true_eq]
  simp only [UInt8.le_iff_toNat_le] at h ⊢
  have n48 : (48 : UInt8).toNat = 48 := rfl
  have n57 : (57 : UInt8).toNat = 57 := rfl
  have n65 : (65 : UInt8).toNat = 65 := rfl
  have n70 : (70 : UInt8).toNat = 70 := rfl
  have n97 : (97 : UInt8).toNat = 97 := rfl
  have n102 : (102 : UInt8).toNat = 102 := rfl
  rw [n48, n57, n65, n70, n97, n102] at h
  rw [n48, n57, n65, n70, n97, n102]
  rcases h with (digit | upper) | lower
  · rw [if_pos digit, if_pos digit]
  · rw [if_neg (by omega), if_pos upper, if_neg (by omega), if_pos upper.2]
    congr 1
    omega
  · rw [if_neg (by omega), if_neg (by omega), if_pos lower, if_neg (by omega), if_neg (by omega)]
    congr 1
    omega

theorem parseHex4_code (h : CodeUnit code unit) (l : List UInt8) :
    parseHex4 (code ++ l) = unit := by
  have digits {code : List UInt8} (hex : ∀ b ∈ code, isHexDigit b = true) :
      code.mapM hexValue = some (code.map digitValue) := by
    induction code with
    | nil => rfl
    | cons b code ih =>
        rw [List.mapM_cons, hexValue_of_isHexDigit (hex b List.mem_cons_self),
          ih fun c mem => hex c (List.mem_cons_of_mem _ mem)]
        rfl
  have four : (code ++ l).take 4 = code := by rw [← h.four, List.take_left]
  rw [parseHex4, four, digits h.hex]
  simp only [List.foldl_map, h.value]

theorem utf16LiteralToUtf8_unicode {c : Char} (h : CodeUnit code c.toNat) (l : List UInt8) :
    utf16LiteralToUtf8 (92 :: 117 :: (code ++ l)) = some (String.utf8EncodeChar c, 6) := by
  have whole : ¬ (92 :: 117 :: (code ++ l)).length < 6 := by
    simp only [List.length_cons, List.length_append, h.four]
    omega
  have valid : c.toNat < 0xD800 ∨ 0xDFFF < c.toNat ∧ c.toNat < 0x110000 := c.valid
  simp only [utf16LiteralToUtf8, List.drop_succ_cons, List.drop_zero, parseHex4_code h]
  rw [if_neg whole, if_neg (by omega), if_neg (by omega), encodeCodepoint_char]
  rfl

/-- Two halves of a surrogate pair are put together again. -/
theorem utf16LiteralToUtf8_pair {first second : List UInt8} {c : Char} {high low : Nat}
    (one : CodeUnit first (0xD800 + high)) (other : CodeUnit second (0xDC00 + low))
    (small : high < 0x400 ∧ low < 0x400) (char : c.toNat = 0x10000 + 0x400 * high + low)
    (l : List UInt8) :
    utf16LiteralToUtf8 (92 :: 117 :: (first ++ 92 :: 117 :: (second ++ l))) =
      some (String.utf8EncodeChar c, 12) := by
  obtain ⟨smallHigh, smallLow⟩ := small
  have behind : (first ++ 92 :: 117 :: (second ++ l)).drop 4 = 92 :: 117 :: (second ++ l) := by
    rw [← one.four, List.drop_left]
  have ten (n : Nat) : n &&& 0x3FF = n % 2 ^ 10 := Nat.and_two_pow_sub_one_eq_mod n 10
  have code : 0x10000 + (((0xD800 + high) &&& 0x3FF) <<< 10 ||| ((0xDC00 + low) &&& 0x3FF)) =
      c.toNat := by
    have bits : (0xD800 + high) % 2 ^ 10 = high ∧ (0xDC00 + low) % 2 ^ 10 = low := by omega
    rw [ten, ten, bits.1, bits.2, ← Nat.shiftLeft_add_eq_or_of_lt smallLow, Nat.shiftLeft_eq, char]
    omega
  have whole : ¬ (92 :: 117 :: (first ++ 92 :: 117 :: (second ++ l))).length < 6 := by
    simp only [List.length_cons, List.length_append, one.four]
    omega
  have whole' : ¬ (92 :: 117 :: (second ++ l)).length < 6 := by
    simp only [List.length_cons, List.length_append, other.four]
    omega
  simp only [utf16LiteralToUtf8, List.drop_succ_cons, List.drop_zero, parseHex4_code one, behind,
    parseHex4_code other, code]
  rw [if_neg whole, if_neg (by omega), if_pos (by omega), if_neg whole',
    if_neg (by simp [List.cons_prefix_cons]), if_neg (by omega), encodeCodepoint_char]
  rfl

theorem unescape_skip (read l : List UInt8) : unescape read.length (read ++ l) = unescape 0 l := by
  induction read with
  | nil => rfl
  | cons b read ih => exact ih

/-- An escape sequence is replaced by what it stands for. -/
theorem unescape_sequence {read written : List UInt8}
    (h : escapeSequence (92 :: (read ++ l)) = some (written, read.length + 1)) :
    unescape 0 (92 :: (read ++ l)) = (unescape 0 l).map (written ++ ·) := by
  rw [unescape, if_neg (by decide), h, Option.bind_some]
  simp only [Nat.add_sub_cancel, unescape_skip]

theorem unescape_stands (h : Stands l m) : unescape 0 l = some m := by
  induction h with
  | nil => rfl
  | plain printable _ ih =>
      rw [unescape, if_pos printable.2.2, ih]
      rfl
  | @letter b c l m letter _ ih =>
      have sequence : escapeSequence (92 :: ([b] ++ l)) = some ([c], [b].length + 1) := by
        simp only [letters, List.mem_cons, List.not_mem_nil, or_false, Prod.mk.injEq] at letter
        obtain ⟨rfl, rfl⟩ | ⟨rfl, rfl⟩ | ⟨rfl, rfl⟩ | ⟨rfl, rfl⟩ | ⟨rfl, rfl⟩ | ⟨rfl, rfl⟩ |
          ⟨rfl, rfl⟩ | ⟨rfl, rfl⟩ := letter <;> rfl
      exact (unescape_sequence sequence).trans (by rw [ih]; rfl)
  | @unicode code l m c unit _ ih =>
      have sequence : escapeSequence (92 :: (117 :: code ++ l)) =
          some (String.utf8EncodeChar c, (117 :: code).length + 1) := by
        rw [List.length_cons, unit.four]
        exact utf16LiteralToUtf8_unicode unit l
      exact (unescape_sequence sequence).trans (by rw [ih]; rfl)
  | @pair first second l m c high low one other small char _ ih =>
      have whole : first ++ 92 :: 117 :: (second ++ l) = (first ++ 92 :: 117 :: second) ++ l := by
        simp
      have sequence : escapeSequence (92 :: (117 :: (first ++ 92 :: 117 :: second) ++ l)) =
          some (String.utf8EncodeChar c, (117 :: (first ++ 92 :: 117 :: second)).length + 1) := by
        simp only [List.length_cons, List.length_append, one.four, other.four]
        rw [List.cons_append, ← whole]
        exact utf16LiteralToUtf8_pair one other small char l
      rw [whole]
      exact (unescape_sequence sequence).trans (by rw [ih]; rfl)

theorem closingQuote_cons {b : UInt8} (quote : b ≠ 34) (backslash : b ≠ 92) (more : rest ≠ []) :
    closingQuote (b :: rest) =
      (closingQuote rest).map fun (inside, rest) => (b :: inside, rest) := by
  cases rest with
  | nil => exact absurd rfl more
  | cons c rest => rw [closingQuote, if_neg quote, if_neg backslash]

theorem closingQuote_append {read : List UInt8}
    (plain : ∀ b ∈ read, b ≠ 34 ∧ b ≠ 92) (more : rest ≠ []) :
    closingQuote (read ++ rest) =
      (closingQuote rest).map fun (inside, rest) => (read ++ inside, rest) := by
  induction read with
  | nil => simp
  | cons b read ih =>
      obtain ⟨quote, backslash⟩ := plain b List.mem_cons_self
      rw [List.cons_append, closingQuote_cons quote backslash (by simp [more]),
        ih fun c mem => plain c (List.mem_cons_of_mem _ mem), Option.map_map]
      rfl

/-- No quote that is part of a string is taken for its end. -/
theorem closingQuote_chars (h : Chars l) (rest : List UInt8) :
    closingQuote (l ++ 34 :: rest) = some (l, rest) := by
  induction h with
  | nil => cases rest <;> rfl
  | plain printable _ ih =>
      rw [List.cons_append, closingQuote_cons printable.2.1 printable.2.2 (by simp), ih]
      rfl
  | @escaped b l _ _ ih =>
      rw [List.cons_append, List.cons_append, closingQuote, if_neg (by decide), if_pos rfl, ih]
      rfl
  | @unicode code l _ hex _ ih =>
      have plain : ∀ b ∈ code, b ≠ 34 ∧ b ≠ 92 := by
        refine fun b mem => ⟨?_, ?_⟩
        · rintro rfl
          exact absurd (hex _ mem) (by decide)
        · rintro rfl
          exact absurd (hex _ mem) (by decide)
      rw [List.cons_append, List.cons_append, List.append_assoc, closingQuote, if_neg (by decide),
        if_pos rfl, closingQuote_append plain (by simp), ih]
      rfl

/-- What the characters stand for is read up to its first NUL. -/
theorem parseString_stands (h : Stands l m) (rest : List UInt8) :
    parseString (34 :: (l ++ 34 :: rest)) = some (ofBytes m, rest) := by
  rw [parseString, if_neg (by decide), closingQuote_chars h.chars, Option.bind_some]
  simp only [unescape_stands h, Option.map_some]

/-- A string in its quotes, and the string it is. No string has a NUL in it, so `\u0000` is
in no text that is one. -/
def QuotedMeans (l : List UInt8) (s : CString) : Prop :=
  ∃ chars, Stands chars s.bytes ∧ l = 34 :: (chars ++ [34])

theorem parseString_quotedMeans {s : CString} (h : QuotedMeans l s) (rest : List UInt8) :
    parseString (l ++ rest) = some (s, rest) := by
  obtain ⟨chars, stands, rfl⟩ := h
  have text : 34 :: (chars ++ [34]) ++ rest = 34 :: (chars ++ 34 :: rest) := by simp
  rw [text, parseString_stands stands, ofBytes_bytes]

end Characters

end CJson

end Kaufbot
