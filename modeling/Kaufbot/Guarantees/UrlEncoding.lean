import Kaufbot.Utils

/-!
The percent-encoding of the file ids the bot puts into a URL. The text has no
character outside the unreserved ones and upper-case escapes, so it cannot end
the parameter it stands in, and its decoding is the string again.
-/

namespace Kaufbot

open CString

section Text
variable (char : CharType)

theorem encoded_urlEncodeByte (c : UInt8) : Percent.Encoded (urlEncodeByte char c) := by
  rw [urlEncodeByte_eq]
  split
  · next unreserved => exact .plain unreserved .nil
  · exact Percent.encoded_escape c

theorem encoded_flatMap (src : List UInt8) :
    Percent.Encoded (src.flatMap (urlEncodeByte char)) := by
  induction src with
  | nil => exact .nil
  | cons c src ih => exact (encoded_urlEncodeByte char c).append ih

theorem length_urlEncodeByte_le (c : UInt8) : (urlEncodeByte char c).length ≤ 3 := by
  simp only [urlEncodeByte]
  split <;> simp

theorem length_flatMap_le (src : List UInt8) :
    (src.flatMap (urlEncodeByte char)).length ≤ 3 * src.length := by
  induction src with
  | nil => exact Nat.le_refl _
  | cons c src ih =>
      have := length_urlEncodeByte_le char c
      simp only [List.flatMap_cons, List.length_append, List.length_cons]
      omega

theorem decode_urlEncodeByte (c : UInt8) (rest : List UInt8) :
    Percent.decode (urlEncodeByte char c ++ rest) = (Percent.decode rest).map (c :: ·) := by
  rw [urlEncodeByte_eq]
  split
  · next unreserved => exact Percent.decode_plain (Percent.ne_sign_of_isUnreserved unreserved) rest
  · exact Percent.decode_escape c rest

theorem decode_flatMap (src : List UInt8) :
    Percent.decode (src.flatMap (urlEncodeByte char)) = some src := by
  induction src with
  | nil => rfl
  | cons c src ih => rw [List.flatMap_cons, decode_urlEncodeByte, ih, Option.map_some]

theorem urlPercentEncode_bytes (src : CString) :
    (urlPercentEncode char src).bytes = src.bytes.flatMap (urlEncodeByte char) := by
  have notNul {l : List UInt8} (h : Percent.Encoded l) : 0 ∉ l := by
    induction h with
    | nil => exact List.not_mem_nil
    | plain unreserved _ ih =>
        refine List.not_mem_cons_of_ne_of_not_mem ?_ ih
        rintro rfl
        exact absurd unreserved (by decide)
    | escaped high low _ ih =>
        have digit {b : UInt8} (h : Percent.IsUpperHex b) : 0 ≠ b := by
          rintro rfl
          exact absurd h (by decide)
        exact List.not_mem_cons_of_ne_of_not_mem (by decide)
          (List.not_mem_cons_of_ne_of_not_mem (digit high)
            (List.not_mem_cons_of_ne_of_not_mem (digit low) ih))
  exact congrArg CString.bytes
    (ofBytes_bytes ⟨_, notNul (encoded_flatMap char src.bytes)⟩)

end Text

/-- The encoder stays inside its allocation and leaves the text there, whatever was in it. -/
theorem urlPercentEncodeBuffer_eq (char : CharType) (heap : Nat → UInt8) (src : CString)
    (fits : 3 * src.length + 1 < 2 ^ 64) :
    ∃ spare, urlPercentEncodeBuffer char heap src =
        some ((urlPercentEncode char src).bytes ++ 0 :: spare) ∧
      ((urlPercentEncode char src).bytes ++ 0 :: spare).length = 3 * src.length + 1 := by
  have allocated : (src.length * 3 % 2 ^ 64 + 1) % 2 ^ 64 = 3 * src.length + 1 := by omega
  have short := length_flatMap_le char src.bytes
  have looped := urlEncodeLoop_append char src.bytes []
    ((List.range (3 * src.length + 1)).map heap) (by
      rw [List.length_map, List.length_range]
      exact Nat.le_succ_of_le short)
  obtain ⟨last, spare, split⟩ := List.exists_cons_of_length_pos
    (l := ((List.range (3 * src.length + 1)).map heap).drop
      (src.bytes.flatMap (urlEncodeByte char)).length) (by
      rw [List.length_drop, List.length_map, List.length_range]
      exact Nat.sub_pos_of_lt (Nat.lt_succ_of_le short))
  have total := congrArg List.length split
  simp only [List.length_drop, List.length_map, List.length_range, List.length_cons] at total
  rw [List.nil_append, List.nil_append, List.length_nil, Nat.zero_add, split] at looped
  refine ⟨spare, ?_, ?_⟩
  · simp only [urlPercentEncodeBuffer, allocated, looped]
    simp [storeByte, urlPercentEncode_bytes]
  · rw [urlPercentEncode_bytes, List.length_append, List.length_cons]
    have : src.bytes.length = src.length := rfl
    omega

theorem urlPercentEncode_roundTrip (char : CharType) (s t : CString) :
    Percent.Encoded (urlPercentEncode char s).bytes ∧
      (urlPercentEncode char s).length ≤ 3 * s.length ∧
      (∀ heap, 3 * s.length + 1 < 2 ^ 64 → ∃ spare,
        urlPercentEncodeBuffer char heap s =
            some ((urlPercentEncode char s).bytes ++ 0 :: spare) ∧
          ((urlPercentEncode char s).bytes ++ 0 :: spare).length = 3 * s.length + 1) ∧
      Percent.decode (urlPercentEncode char s).bytes = some s.bytes ∧
      urlPercentEncode char (s ++ t) = urlPercentEncode char s ++ urlPercentEncode char t ∧
      ∀ c : UInt8, 127 < c.toNat → urlEncodeByte char c = Percent.escape c := by
  refine ⟨?_, ?_, fun heap => urlPercentEncodeBuffer_eq char heap s, ?_, ?_, ?_⟩
  · rw [urlPercentEncode_bytes]
    exact encoded_flatMap char s.bytes
  · rw [CString.length, urlPercentEncode_bytes]
    exact length_flatMap_le char s.bytes
  · rw [urlPercentEncode_bytes]
    exact decode_flatMap char s.bytes
  · apply CString.ext
    simp only [urlPercentEncode_bytes, bytes_append, List.flatMap_append]
  · intro c high
    rw [urlEncodeByte_eq, if_neg]
    intro unreserved
    simp only [Percent.IsUnreserved, ← UInt8.toNat_inj, UInt8.toNat_ofNat] at unreserved
    omega

end Kaufbot
