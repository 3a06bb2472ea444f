import Kaufbot.Library.GrowArray
import Mathlib.Data.List.DropRight

/-!
Strings in a block of memory, scanned byte by byte the way C does. A pointer is
an index into the block. A scan that reads past the end of the block has no
result; from the start of a string it always has one, as each scan stops at the
terminating NUL at the latest.
-/

namespace StringScan

open GrowArray

/-- `while (p(mem[i])) i++`. -/
def skip (p : UInt8 → Bool) (mem : List UInt8) (i : Nat) : Option Nat :=
  go (mem.drop i) i
where
  go : List UInt8 → Nat → Option Nat
    | [], _ => none
    | b :: l, i => if p b then go l (i + 1) else some i

/-- `strncmp(mem, needle, n) == 0` for a needle of `n` bytes, up to the first difference. -/
def matchesAt : List UInt8 → List UInt8 → Option Bool
  | [], _ => some true
  | _ :: _, [] => none
  | c :: needle, b :: mem => if b = c then matchesAt needle mem else some false

/-- `strstr(mem + i, needle)`. -/
def find (needle mem : List UInt8) (i : Nat) : Option (Option Nat) :=
  go (mem.drop i) i
where
  go : List UInt8 → Nat → Option (Option Nat)
    | [], _ => none
    | b :: l, i =>
        match matchesAt needle (b :: l) with
        | none => none
        | some true => some (some i)
        | some false => if b = 0 then some none else go l (i + 1)

/-- `while (len > 0 && p(mem[i + len - 1])) mem[i + --len] = 0`. -/
def trimBack (p : UInt8 → Bool) (mem : List UInt8) (i : Nat) : Nat → Option (List UInt8)
  | 0 => some mem
  | len + 1 =>
      match mem[i + len]? with
      | none => none
      | some b =>
          if p b then (copyInto mem (i + len) [0]).bind fun mem => trimBack p mem i len
          else some mem

/-- Where the needle occurs first. -/
def occurrence (needle : List UInt8) : List UInt8 → Option Nat
  | [] => none
  | b :: l => if needle.isPrefixOf (b :: l) then some 0 else (occurrence needle l).map (· + 1)

/-- The string at an index of the block. -/
structure StringAt (mem : List UInt8) (i : Nat) (text : List UInt8) : Prop where
  nulFree : 0 ∉ text
  split : ∃ front rest, mem = front ++ (text ++ 0 :: rest) ∧ front.length = i

section Scans
variable {mem text needle : List UInt8} {i : Nat} {p : UInt8 → Bool}

theorem StringAt.drop_eq (h : StringAt mem i text) : ∃ rest, mem.drop i = text ++ 0 :: rest := by
  obtain ⟨front, rest, rfl, rfl⟩ := h.split
  exact ⟨rest, List.drop_left⟩

/-- The string that starts later in the same one. -/
theorem StringAt.later {front back : List UInt8} (h : StringAt mem i (front ++ back)) :
    StringAt mem (i + front.length) back := by
  obtain ⟨before, rest, rfl, rfl⟩ := h.split
  exact ⟨fun h0 => h.nulFree (List.mem_append_right _ h0), before ++ front, rest, by simp, by simp⟩

theorem skip_go (nul : p 0 = false) (text rest : List UInt8) (i : Nat) :
    skip.go p (text ++ 0 :: rest) i = some (i + (text.takeWhile p).length) := by
  induction text generalizing i with
  | nil => simp [skip.go, nul]
  | cons b text ih =>
      rw [List.cons_append, skip.go]
      cases hb : p b with
      | false => simp [hb]
      | true =>
          rw [if_pos rfl, ih, List.takeWhile_cons_of_pos hb, List.length_cons]
          exact congrArg some (by omega)

/-- A scan that stops at the NUL finds the rest of the string. -/
theorem StringAt.skip (h : StringAt mem i text) (nul : p 0 = false) :
    ∃ j, skip p mem i = some j ∧ StringAt mem j (text.dropWhile p) := by
  obtain ⟨rest, hdrop⟩ := h.drop_eq
  refine ⟨_, by rw [StringScan.skip, hdrop, skip_go nul], StringAt.later ?_⟩
  rwa [List.takeWhile_append_dropWhile]

/-- `strlen`. -/
theorem StringAt.strlen (h : StringAt mem i text) :
    StringScan.skip (· != 0) mem i = some (i + text.length) := by
  have all : text.takeWhile (· != 0) = text := by
    refine List.takeWhile_eq_self_iff.mpr fun b hb => ?_
    have nonzero : b ≠ 0 := fun h0 => h.nulFree (h0 ▸ hb)
    simpa using nonzero
  obtain ⟨rest, hdrop⟩ := h.drop_eq
  rw [StringScan.skip, hdrop, skip_go (by decide), all]

theorem matchesAt_append (hneedle : 0 ∉ needle) (text rest : List UInt8) :
    matchesAt needle (text ++ 0 :: rest) = some (needle.isPrefixOf text) := by
  induction needle generalizing text with
  | nil => simp [matchesAt]
  | cons c needle ih =>
      have first : (0 : UInt8) ≠ c := fun h0 => hneedle (h0 ▸ List.mem_cons_self)
      cases text with
      | nil => simp [matchesAt, first]
      | cons b text =>
          rw [List.cons_append, matchesAt, ih (fun h0 => hneedle (List.mem_cons_of_mem _ h0))]
          by_cases hb : b = c
          · simp [List.isPrefixOf, hb]
          · simp [List.isPrefixOf, hb, Ne.symm hb]

theorem StringAt.startsWith (h : StringAt mem 0 text) (hneedle : 0 ∉ needle) :
    matchesAt needle mem = some (needle.isPrefixOf text) := by
  obtain ⟨rest, hdrop⟩ := h.drop_eq
  rw [← matchesAt_append hneedle text rest, ← hdrop, List.drop_zero]

theorem find_go (hneedle : 0 ∉ needle) (nonempty : needle ≠ []) (nulFree : 0 ∉ text)
    (rest : List UInt8) (i : Nat) :
    find.go needle (text ++ 0 :: rest) i = some ((occurrence needle text).map (i + ·)) := by
  induction text generalizing i with
  | nil =>
      obtain ⟨c, needle, rfl⟩ := List.exists_cons_of_ne_nil nonempty
      have first : (0 : UInt8) ≠ c := fun h0 => hneedle (h0 ▸ List.mem_cons_self)
      simp [find.go, matchesAt, first, occurrence]
  | cons b text ih =>
      have nonzero : b ≠ 0 := fun h0 => nulFree (h0 ▸ List.mem_cons_self)
      have here := matchesAt_append hneedle (b :: text) rest
      rw [List.cons_append] at here
      rw [List.cons_append, find.go, here, occurrence]
      cases needle.isPrefixOf (b :: text) with
      | true => simp
      | false =>
          have shift : (i + 1 + ·) = (i + ·) ∘ (· + 1) := by
            funext k
            simp only [Function.comp_apply]
            omega
          simp only [if_neg nonzero, ih (fun h0 => nulFree (List.mem_cons_of_mem _ h0)),
            if_neg Bool.false_ne_true, Option.map_map, shift]

/-- `strstr` finds the first occurrence, or stops at the NUL. -/
theorem StringAt.find (h : StringAt mem i text) (hneedle : 0 ∉ needle) (nonempty : needle ≠ []) :
    find needle mem i = some ((occurrence needle text).map (i + ·)) := by
  obtain ⟨rest, hdrop⟩ := h.drop_eq
  rw [StringScan.find, hdrop, find_go hneedle nonempty h.nulFree]

/-- Writing a NUL into a string cuts it there. -/
theorem StringAt.cut {front back : List UInt8} (h : StringAt mem i (front ++ back)) :
    ∃ mem', copyInto mem (i + front.length) [0] = some mem' ∧ StringAt mem' i front ∧
      mem'.length = mem.length := by
  obtain ⟨before, rest, rfl, rfl⟩ := h.split
  have nulFree : 0 ∉ front := fun h0 => h.nulFree (List.mem_append_left _ h0)
  obtain ⟨b, tail, split⟩ : ∃ b tail, back ++ 0 :: rest = [b] ++ tail := by
    cases back with
    | nil => exact ⟨0, rest, rfl⟩
    | cons b back => exact ⟨b, back ++ 0 :: rest, rfl⟩
  have mem_eq : before ++ (front ++ back ++ 0 :: rest) = (before ++ front) ++ ([b] ++ tail) := by
    rw [← split]
    simp only [List.append_assoc]
  refine ⟨(before ++ front) ++ ([0] ++ tail), ?_, ⟨nulFree, before, tail, by simp, rfl⟩, ?_⟩
  · rw [mem_eq, ← List.length_append]
    exact copyInto_append [b] rfl
  · rw [mem_eq]
    simp

/-- The backward loop cuts the string behind the last byte that stays. -/
theorem StringAt.trimBack (h : StringAt mem i text) :
    ∃ mem', trimBack p mem i text.length = some mem' ∧ StringAt mem' i (text.rdropWhile p) ∧
      mem'.length = mem.length := by
  induction text using List.reverseRecOn generalizing mem with
  | nil => exact ⟨mem, rfl, h, rfl⟩
  | append_singleton text b ih =>
      have here : mem[i + text.length]? = some b := by
        obtain ⟨before, rest, rfl, rfl⟩ := h.split
        rw [← List.length_append, List.append_assoc, ← List.append_assoc,
          List.getElem?_append_right (Nat.le_refl _), Nat.sub_self]
        rfl
      rw [List.length_append, List.length_singleton, StringScan.trimBack, here]
      cases hb : p b with
      | false =>
          refine ⟨mem, by simp [hb], ?_, rfl⟩
          rwa [List.rdropWhile_concat_neg _ _ _ (by simp [hb])]
      | true =>
          obtain ⟨cut, written, shorter, length⟩ := h.cut
          obtain ⟨mem', trimmed, last, length'⟩ := ih shorter
          refine ⟨mem', ?_, ?_, length'.trans length⟩
          · simp [hb, written, trimmed]
          · rwa [List.rdropWhile_concat_pos _ _ _ hb]

end Scans

end StringScan
