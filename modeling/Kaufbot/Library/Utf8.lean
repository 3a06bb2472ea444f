import Kaufbot.Library.CString

/-!
UTF-8 texts as the encodings of lists of characters, and where such a text can
be cut: between two bytes of which the second can start a character. What comes
before such a byte is a text of its own, in whatever text the byte stands.
-/

namespace Utf8

/-- The bytes of some characters, one after another. -/
def Valid (l : List UInt8) : Prop := ∃ chars : List Char, l = chars.flatMap String.utf8EncodeChar

/-- What follows the first `n` bytes, if anything does, can start a character. -/
def CutsBetween (n : Nat) (l : List UInt8) : Prop := ∀ b, l[n]? = some b → b.IsUTF8FirstByte

theorem cutsBetween_of_length_le {n : Nat} {l : List UInt8} (short : l.length ≤ n) :
    CutsBetween n l := by
  intro b behind
  rw [List.getElem?_eq_none short] at behind
  cases behind

section Valid
variable {a l rest : List UInt8} {b : UInt8}

theorem valid_nil : Valid [] := ⟨[], rfl⟩

theorem Valid.append (h : Valid l) (h' : Valid rest) : Valid (l ++ rest) := by
  obtain ⟨chars, rfl⟩ := h
  obtain ⟨more, rfl⟩ := h'
  exact ⟨chars ++ more, List.flatMap_append.symm⟩

theorem valid_iff : Valid l ↔ l.toByteArray.IsValidUTF8 := by
  constructor
  · rintro ⟨chars, rfl⟩
    exact .intro chars rfl
  · rintro ⟨chars, same⟩
    refine ⟨chars, ?_⟩
    have data := congrArg (fun bytes => bytes.data.toList) same
    simpa [List.utf8Encode] using data

theorem getElem_zero_utf8EncodeChar (c : Char) :
    ∃ b rest, String.utf8EncodeChar c = b :: rest ∧ b.IsUTF8FirstByte := by
  obtain ⟨b, rest, hc⟩ := List.exists_cons_of_ne_nil (String.utf8EncodeChar_ne_nil (c := c))
  refine ⟨b, rest, hc, ?_⟩
  have some : 0 < (String.utf8EncodeChar c).length := by simp [hc]
  have first : (String.utf8EncodeChar c)[0] = b := by simp [hc]
  rw [← first, UInt8.isUTF8FirstByte_getElem_utf8EncodeChar]

theorem Valid.isUTF8FirstByte (h : Valid (b :: rest)) : b.IsUTF8FirstByte := by
  obtain ⟨chars, text⟩ := h
  cases chars with
  | nil => cases text
  | cons c chars =>
      obtain ⟨first, later, hc, hfirst⟩ := getElem_zero_utf8EncodeChar c
      rw [List.flatMap_cons, hc] at text
      exact (List.cons.inj text).1 ▸ hfirst

theorem valid_char_append_iff (c : Char) : Valid (String.utf8EncodeChar c ++ rest) ↔ Valid rest := by
  have split := @ByteArray.isValidUTF8_utf8Encode_singleton_append_iff rest.toByteArray c
  rw [valid_iff, valid_iff, ← split]
  simp [List.utf8Encode, List.toByteArray_append]

/-- A text in front does not matter for the rest. -/
theorem valid_append_iff (h : Valid l) : Valid (l ++ rest) ↔ Valid rest := by
  obtain ⟨chars, rfl⟩ := h
  induction chars with
  | nil => rfl
  | cons c chars ih => rw [List.flatMap_cons, List.append_assoc, valid_char_append_iff, ih]

/-- What stands before a byte that starts a character is a text. -/
theorem valid_before (h : Valid (l ++ b :: rest)) (first : b.IsUTF8FirstByte) : Valid l := by
  obtain ⟨chars, text⟩ := h
  induction chars generalizing l with
  | nil => simp at text
  | cons c chars ih =>
      rw [List.flatMap_cons, eq_comm, List.append_eq_append_iff] at text
      rcases text with ⟨later, rfl, rest_eq⟩ | ⟨inside, hc, rest_eq⟩
      · exact (valid_char_append_iff c).mpr (ih rest_eq.symm)
      · cases inside with
        | nil => exact ⟨[c], by simpa using hc.symm⟩
        | cons b' inside =>
            -- the byte is one of the character's, so it is its first
            obtain ⟨rfl, -⟩ := List.cons.inj rest_eq
            have bound : l.length < (String.utf8EncodeChar c).length := by simp [hc]
            have here : (String.utf8EncodeChar c)[l.length] = b := by simp [hc]
            rw [← here, UInt8.isUTF8FirstByte_getElem_utf8EncodeChar] at first
            rw [List.eq_nil_of_length_eq_zero first]
            exact valid_nil

theorem valid_split (first : b.IsUTF8FirstByte) :
    Valid (l ++ b :: rest) ↔ Valid l ∧ Valid (b :: rest) := by
  constructor
  · intro h
    have before := valid_before h first
    exact ⟨before, (valid_append_iff before).mp h⟩
  · rintro ⟨before, after⟩
    exact before.append after

theorem valid_of_ascii (h : ∀ b ∈ l, b < 128) : Valid l := by
  induction l with
  | nil => exact valid_nil
  | cons b l ih =>
      obtain ⟨small, rest⟩ := List.forall_mem_cons.mp h
      have char : Valid [b] := by
        have all (n : Fin 128) : String.utf8EncodeChar (Char.ofNat n) = [UInt8.ofNat n] := by
          revert n
          decide
        have same := all ⟨b.toNat, small⟩
        rw [UInt8.ofNat_toNat] at same
        exact ⟨[_], by simpa using same.symm⟩
      exact char.append (ih rest)

theorem isUTF8FirstByte_of_ascii (h : b < 128) : b.IsUTF8FirstByte := by
  have char : Valid [b] := valid_of_ascii (by simpa using h)
  exact char.isUTF8FirstByte

theorem Valid.take_iff (h : Valid l) (n : Nat) : Valid (l.take n) ↔ CutsBetween n l := by
  cases hn : l[n]? with
  | none =>
      rw [List.take_of_length_le (List.getElem?_eq_none_iff.mp hn)]
      exact iff_of_true h fun b hb => by simp [hn] at hb
  | some b =>
      have split : l = l.take n ++ b :: l.drop (n + 1) := by
        rw [← List.singleton_append, ← Option.toList_some, ← hn, ← List.drop_eq_getElem?_toList_append,
          List.take_append_drop]
      constructor
      · intro before b' hb'
        obtain rfl := Option.some.inj (hn.symm.trans hb')
        rw [split, valid_append_iff before] at h
        exact h.isUTF8FirstByte
      · intro between
        rw [split] at h
        exact valid_before h (between b hn)

/-- The beginning of a text with another text behind it, cut somewhere: the beginning is whole
unless the cut comes before its end, and the cut is between two characters. -/
theorem valid_take_append_iff (start : ∃ more, Valid (l ++ more)) (h : Valid (b :: rest)) (n : Nat) :
    Valid ((l ++ b :: rest).take n) ↔
      (n < l.length ∨ Valid l) ∧ CutsBetween n (l ++ b :: rest) := by
  rcases Nat.lt_or_ge n l.length with inside | behind
  · obtain ⟨more, whole⟩ := start
    have cut := whole.take_iff n
    rw [List.take_append_of_le_length (Nat.le_of_lt inside)] at cut ⊢
    rw [cut, CutsBetween, CutsBetween, List.getElem?_append_left inside,
      List.getElem?_append_left inside]
    exact (and_iff_right (Or.inl inside)).symm
  · have place : CutsBetween n (l ++ b :: rest) ↔ CutsBetween (n - l.length) (b :: rest) := by
      rw [CutsBetween, CutsBetween, List.getElem?_append_right behind]
    rw [List.take_append, List.take_of_length_le behind, place, ← h.take_iff,
      or_iff_right (Nat.not_lt.mpr behind)]
    cases n - l.length with
    | zero => simp [valid_nil]
    | succ k =>
        rw [List.take_succ_cons]
        exact valid_split h.isUTF8FirstByte

end Valid

theorem valid_lit (s : String) : Valid (CString.lit s).bytes := by
  have whole : Valid s.toUTF8.data.toList := by
    refine ⟨s.toList, ?_⟩
    have encoded := congrArg (fun bytes => bytes.data.toList) (@String.utf8Encode_toList s)
    simpa [List.utf8Encode] using encoded.symm
  change Valid (s.toUTF8.data.toList.takeWhile (· != 0))
  have split := List.takeWhile_append_dropWhile (p := (· != 0)) (l := s.toUTF8.data.toList)
  cases behind : s.toUTF8.data.toList.dropWhile (· != 0) with
  | nil =>
      rw [behind, List.append_nil] at split
      rwa [split]
  | cons b rest =>
      have nul : b = 0 := by
        have stops := List.head?_dropWhile_not (· != 0) s.toUTF8.data.toList
        rw [behind] at stops
        simpa using stops
      rw [behind, nul] at split
      rw [← split] at whole
      exact valid_before whole (by decide)

end Utf8
