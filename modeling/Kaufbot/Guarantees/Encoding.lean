import Kaufbot.Utils

/-!
Every image sent for OCR goes through the base64 encoder. The text has exactly
the length the allocation was computed for, the padding is at its end and
nowhere else, and the standard decoding of it is the image again.
-/

namespace Kaufbot

open CString

section Text
variable (src : List UInt8)

theorem isSymbol_of_mem_base64Group {a b c : UInt8} {ch : UInt8} (h : ch ∈ base64Group a b c) :
    (Base64.value? ch).isSome := by
  have digit (n : Nat) : (Base64.value? (Base64.symbol (n % 64))).isSome := by
    simp [Nat.mod_lt n (by decide : 0 < 64)]
  simp only [base64Group_eq, List.mem_cons, List.not_mem_nil, or_false] at h
  obtain rfl | rfl | rfl | rfl := h <;> exact digit _

theorem isSymbol_of_mem_base64Raw {ch : UInt8} (h : ch ∈ base64Raw src) :
    (Base64.value? ch).isSome := by
  induction src using base64Raw.induct with
  | case1 => cases h
  | case2 a | case3 a b => exact isSymbol_of_mem_base64Group h
  | case4 a b c rest ih =>
      obtain here | later := List.mem_append.mp h
      · exact isSymbol_of_mem_base64Group here
      · exact ih later

/-- Four values cut out of three bytes are those bytes. -/
theorem bytes_of_triple (a b c : UInt8) :
    Base64.bytes (base64Triple a b c / 262144 % 64) (base64Triple a b c / 4096 % 64)
      (base64Triple a b c / 64 % 64) (base64Triple a b c % 64) = [a, b, c] := by
  have ha := a.toNat_lt
  have hb := b.toNat_lt
  have hc := c.toNat_lt
  have byte (x : UInt8) (n : Nat) (h : n = x.toNat) : UInt8.ofNat n = x := by
    rw [h, UInt8.ofNat_toNat]
  simp only [Base64.bytes, base64Triple, List.cons.injEq, and_true]
  exact ⟨byte a _ (by omega), byte b _ (by omega), byte c _ (by omega)⟩

theorem decode_base64Bytes : Base64.decode (base64Bytes src) = some src := by
  have digit (n : Nat) : n % 64 < 64 := Nat.mod_lt _ (by decide)
  induction src using base64Bytes.induct with
  | case1 => rfl
  | case2 a =>
      have left : base64Triple a 0 0 / 4096 % 64 % 16 = 0 := by
        simp only [base64Triple, UInt8.toNat_zero]
        omega
      have values := bytes_of_triple a 0 0
      simp only [Base64.bytes, List.cons.injEq] at values
      simp only [base64Bytes, base64Group_eq, List.take_succ_cons, List.take_zero,
        List.cons_append, List.nil_append]
      rw [← Base64.pad, Base64.decode_one_byte (digit _) (digit _) left]
      simp only [Base64.bytes, List.take_succ_cons, List.take_zero, values.1]
  | case3 a b =>
      have left : base64Triple a b 0 / 64 % 64 % 4 = 0 := by
        simp only [base64Triple, UInt8.toNat_zero]
        omega
      have values := bytes_of_triple a b 0
      simp only [Base64.bytes, List.cons.injEq] at values
      simp only [base64Bytes, base64Group_eq, List.take_succ_cons, List.take_zero,
        List.cons_append, List.nil_append]
      rw [← Base64.pad, Base64.decode_two_bytes (digit _) (digit _) (digit _) left]
      simp only [Base64.bytes, List.take_succ_cons, List.take_zero, values.1, values.2.1]
  | case4 a b c rest ih =>
      rw [base64Bytes, base64Group_eq]
      simp only [List.cons_append, List.nil_append]
      rw [Base64.decode_group (digit _) (digit _) (digit _) (digit _), ih, bytes_of_triple]
      rfl

theorem base64Encode_bytes : (base64Encode src).bytes = base64Bytes src := by
  refine List.takeWhile_eq_self_iff.mpr (fun ch hch => ?_)
  have symbol : ch = Base64.pad ∨ (Base64.value? ch).isSome := by
    rw [base64Bytes_eq] at hch
    obtain body | padding := List.mem_append.mp hch
    · exact Or.inr (isSymbol_of_mem_base64Raw src (List.mem_of_mem_take body))
    · exact Or.inl (List.eq_of_mem_replicate padding)
  have hne : ch ≠ 0 := by
    rintro rfl
    revert symbol
    decide
  simpa using hne

end Text

/-- The encoder stays inside its allocation, whatever was there before; it leaves exactly
`4 * ceil(n / 3)` characters, all of the alphabet but the padding that ends them, and their
decoding is the input, so that no other input has the same text. -/
theorem base64_roundTrip (heap : Nat → UInt8) (src : List UInt8)
    (fits : 4 * ((src.length + 2) / 3) + 1 < 2 ^ 64) :
    base64EncodeBuffer heap src = some ((base64Encode src).bytes ++ [0]) ∧
      (base64Encode src).length = 4 * ((src.length + 2) / 3) ∧
      (∃ body, (base64Encode src).bytes =
          body ++ List.replicate (Base64.padLength src.length) Base64.pad ∧
        ∀ ch ∈ body, (Base64.value? ch).isSome) ∧
      Base64.decode (base64Encode src).bytes = some src ∧
      ∀ other, base64Encode other = base64Encode src → other = src := by
  have decoded (src : List UInt8) : Base64.decode (base64Encode src).bytes = some src := by
    rw [base64Encode_bytes, decode_base64Bytes]
  refine ⟨?_, ?_, ⟨_, by rw [base64Encode_bytes, base64Bytes_eq], ?_⟩, decoded src, ?_⟩
  · rw [base64Encode_bytes, base64EncodeBuffer_eq heap src fits]
  · rw [CString.length, base64Encode_bytes, length_base64Bytes]
  · exact fun ch hch => isSymbol_of_mem_base64Raw src (List.mem_of_mem_take hch)
  · intro other same
    exact Option.some.inj ((decoded other).symm.trans ((congrArg _ (congrArg CString.bytes same)).trans
      (decoded src)))

theorem base64_roundTrip_kauf :
    base64EncodeBuffer (fun _ => 255) [75, 97, 117, 102] =
        some ((base64Encode [75, 97, 117, 102]).bytes ++ [0]) ∧
      Base64.decode (base64Encode [75, 97, 117, 102]).bytes = some [75, 97, 117, 102] :=
  have kauf := base64_roundTrip (fun _ => 255) [75, 97, 117, 102] (by decide)
  ⟨kauf.1, kauf.2.2.2.1⟩

end Kaufbot
