import Kaufbot.Library.CString

/-!
A buffer in memory that a text is appended to by `snprintf` at an offset. A
write that would leave the buffer has no result. `Holds` is the invariant of
such appending: the buffer starts with as much of the text as fits before a
terminating NUL, whatever lies behind.
-/

namespace CString

theorem append_assoc (s t u : CString) : s ++ t ++ u = s ++ (t ++ u) :=
  ext (List.append_assoc s.bytes t.bytes u.bytes)

@[simp] theorem append_empty (s : CString) : s ++ empty = s := ext (List.append_nil s.bytes)

/-- Appending to a text that was cut adds what there is room for. -/
theorem snprintf_append {n : Nat} (hn : 0 < n) (text s : CString) :
    snprintf n text ++ snprintf (n - (snprintf n text).length) s = snprintf n (text ++ s) := by
  have cut : (snprintf n text).length = min (n - 1) text.bytes.length := List.length_take
  have left : n - (snprintf n text).length - 1 = n - 1 - text.bytes.length := by omega
  apply ext
  rw [bytes_append, bytes_snprintf, bytes_snprintf, bytes_snprintf, bytes_append, List.take_append,
    left]

/-- `snprintf(mem + pos, size, "%s", s)`. -/
def snprintfAt (mem : List UInt8) (pos : Int) (size : Nat) (s : CString) : Option (List UInt8) :=
  if size = 0 then some mem
  else
    let out := s.bytes.take (size - 1) ++ [0]
    if 0 ≤ pos ∧ pos + out.length ≤ mem.length then
      some (mem.take pos.toNat ++ (out ++ mem.drop (pos.toNat + out.length)))
    else none

/-- The buffer starts with what fits of `text` and a NUL. -/
def Holds (mem : List UInt8) (text : CString) : Prop :=
  ∃ rest, mem = (snprintf mem.length text).bytes ++ 0 :: rest

section Writing
variable (front back : List UInt8) (s : CString)

/-- What a write to the end of a buffer leaves there. -/
def writtenBack : List UInt8 :=
  s.bytes.take (back.length - 1) ++ 0 :: back.drop ((s.bytes.take (back.length - 1)).length + 1)

theorem length_writtenBack (room : 0 < back.length) :
    (writtenBack back s).length = back.length := by
  have short : (s.bytes.take (back.length - 1)).length ≤ back.length - 1 := List.length_take_le _ _
  simp only [writtenBack, List.length_append, List.length_cons, List.length_drop]
  omega

theorem snprintfAt_append (room : 0 < back.length) :
    snprintfAt (front ++ back) front.length back.length s =
      some (front ++ writtenBack back s) := by
  have short : (s.bytes.take (back.length - 1)).length ≤ back.length - 1 := List.length_take_le _ _
  have inside : (0 : Int) ≤ front.length ∧ (front.length : Int) +
      (s.bytes.take (back.length - 1) ++ [0]).length ≤ (front ++ back).length := by
    simp only [List.length_append, List.length_singleton]
    omega
  rw [snprintfAt, if_neg (Nat.ne_of_gt room), if_pos inside]
  simp [writtenBack]

end Writing

section Holds
variable {mem : List UInt8} {text : CString}

/-- How long the rest of the buffer is, with its NUL. -/
theorem Holds.length_eq (h : Holds mem text) : ∃ rest, mem =
      (snprintf mem.length text).bytes ++ 0 :: rest ∧
    mem.length = (snprintf mem.length text).length + (rest.length + 1) := by
  obtain ⟨rest, heq⟩ := h
  have total := congrArg List.length heq
  rw [List.length_append, List.length_cons] at total
  exact ⟨rest, heq, total⟩

theorem Holds.length_lt (h : Holds mem text) : (snprintf mem.length text).length < mem.length := by
  obtain ⟨rest, -, total⟩ := h.length_eq
  omega

theorem Holds.getElem? (h : Holds mem text) : mem[(snprintf mem.length text).length]? = some 0 := by
  obtain ⟨rest, heq⟩ := h
  have behind (l : List UInt8) : (l ++ 0 :: rest)[l.length]? = some 0 := by
    rw [List.getElem?_append_right (Nat.le_refl _), Nat.sub_self]
    rfl
  have here := behind (snprintf mem.length text).bytes
  rwa [← heq] at here

/-- Read as a string the buffer is that beginning of the text. -/
theorem Holds.ofBytes_eq (h : Holds mem text) : ofBytes mem = snprintf mem.length text := by
  obtain ⟨rest, heq⟩ := h
  have read := ofBytes_append_nul (snprintf mem.length text) rest
  rwa [← heq] at read

/-- The first write goes to the start of the buffer. -/
theorem holds_first (mem : List UInt8) (s : CString) (room : 0 < mem.length) :
    ∃ written, snprintfAt mem 0 mem.length s = some written ∧ written.length = mem.length ∧
      Holds written s := by
  have length := length_writtenBack mem s room
  refine ⟨writtenBack mem s, by simpa using snprintfAt_append [] mem s room, length, ?_⟩
  rw [Holds, length]
  exact ⟨_, rfl⟩

/-- A write at the NUL appends, up to the last byte of the buffer. -/
theorem Holds.append (h : Holds mem text) (s : CString) :
    ∃ written, snprintfAt mem (snprintf mem.length text).length
        (mem.length - (snprintf mem.length text).length) s = some written ∧
      written.length = mem.length ∧ Holds written (text ++ s) := by
  obtain ⟨rest, heq, total⟩ := h.length_eq
  have room : 0 < (0 :: rest : List UInt8).length := Nat.succ_pos _
  have size : mem.length - (snprintf mem.length text).length = (0 :: rest : List UInt8).length := by
    rw [List.length_cons]
    omega
  have longer : (snprintf mem.length (text ++ s)).bytes =
      (snprintf mem.length text).bytes ++ s.bytes.take rest.length := by
    rw [← snprintf_append (by omega), bytes_append, size, bytes_snprintf _ s]
    rfl
  have length : ((snprintf mem.length text).bytes ++ writtenBack (0 :: rest) s).length =
      mem.length := by
    rw [List.length_append, length_writtenBack _ s room, List.length_cons]
    exact total.symm
  refine ⟨_, ?_, length, ?_⟩
  · rw [size]
    have written := snprintfAt_append (snprintf mem.length text).bytes (0 :: rest) s room
    rwa [← heq] at written
  · rw [Holds, length, longer]
    exact ⟨_, (List.append_assoc _ _ _).symm⟩

end Holds

end CString
