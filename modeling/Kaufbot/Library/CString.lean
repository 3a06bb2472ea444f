import Mathlib.Data.List.Basic
import Mathlib.Data.List.TakeWhile

/-!
C strings as the bytes before the terminating NUL, and the part of the C
library the programs over them use: buffers filled by `snprintf`, the `str*`
searches, decimal and hexadecimal printing, and `strtoll`. A value of
`CString` has no NUL inside, so what is written to a file as text is what
reading it back as text gives.
-/

structure CString where
  bytes : List UInt8
  nulFree : 0 ∉ bytes
deriving DecidableEq

namespace CString

@[ext] theorem ext {s t : CString} (h : s.bytes = t.bytes) : s = t := by
  cases s
  cases t
  cases h
  rfl

def empty : CString := ⟨[], by simp⟩

instance : Inhabited CString := ⟨empty⟩

/-- What a buffer holds when it is read as a string: the bytes before the first NUL. -/
def ofBytes (l : List UInt8) : CString :=
  ⟨l.takeWhile (· != 0), fun h => by simpa using List.mem_takeWhile_imp h⟩

/-- A string literal of the source, in its UTF-8 bytes. -/
def lit (s : String) : CString := ofBytes s.toUTF8.data.toList

def length (s : CString) : Nat := s.bytes.length

def append (s t : CString) : CString :=
  ⟨s.bytes ++ t.bytes, by simp [s.nulFree, t.nulFree]⟩

instance : Append CString := ⟨append⟩

/-- The pieces of a format string and its arguments, one after another. -/
def concat (parts : List CString) : CString := parts.foldr append empty

def take (n : Nat) (s : CString) : CString :=
  ⟨s.bytes.take n, fun h => s.nulFree (List.mem_of_mem_take h)⟩

def drop (n : Nat) (s : CString) : CString :=
  ⟨s.bytes.drop n, fun h => s.nulFree (List.mem_of_mem_drop h)⟩

/-- What a buffer of `size` bytes holds after `snprintf(buf, size, "%s", s)`. -/
def snprintf (size : Nat) (s : CString) : CString := s.take (size - 1)

/-- What a zeroed buffer of more than `n` bytes holds after `strncpy(buf, s, n)`. -/
def strncpy (n : Nat) (s : CString) : CString := s.take n

/-- The suffix that starts at the last occurrence of `c`. -/
def lastFrom (c : UInt8) : List UInt8 → Option (List UInt8)
  | [] => none
  | b :: l =>
      match lastFrom c l with
      | some t => some t
      | none => if b = c then some (b :: l) else none

def firstFrom (c : UInt8) : List UInt8 → Option (List UInt8)
  | [] => none
  | b :: l => if b = c then some (b :: l) else firstFrom c l

theorem lastFrom_suffix {c : UInt8} {l t : List UInt8} (h : lastFrom c l = some t) :
    t <:+ l := by
  induction l with
  | nil => simp [lastFrom] at h
  | cons b l ih =>
      simp only [lastFrom] at h
      cases hl : lastFrom c l with
      | some t' =>
          obtain rfl : t' = t := by simpa [hl] using h
          exact (ih hl).trans (List.suffix_cons b l)
      | none =>
          by_cases hb : b = c
          · obtain rfl : b :: l = t := by simpa [hl, hb] using h
            exact List.suffix_refl _
          · simp [hl, hb] at h

theorem firstFrom_suffix {c : UInt8} {l t : List UInt8} (h : firstFrom c l = some t) :
    t <:+ l := by
  induction l with
  | nil => simp [firstFrom] at h
  | cons b l ih =>
      by_cases hb : b = c
      · obtain rfl : b :: l = t := by simpa [firstFrom, hb] using h
        exact List.suffix_refl _
      · exact (ih (by simpa [firstFrom, hb] using h)).trans (List.suffix_cons b l)

theorem lastFrom_eq_none {c : UInt8} {l : List UInt8} : lastFrom c l = none ↔ c ∉ l := by
  induction l with
  | nil => simp [lastFrom]
  | cons b l ih =>
      cases hl : lastFrom c l with
      | some t => simp [lastFrom, hl, ← not_iff_not.mpr ih]
      | none =>
          have := ih.mp hl
          by_cases hb : b = c
          · simp [lastFrom, hl, hb]
          · simp [lastFrom, hl, hb, this, Ne.symm hb]

theorem lastFrom_eq_some {c : UInt8} {l t : List UInt8} (h : lastFrom c l = some t) :
    ∃ rest, t = c :: rest ∧ c ∉ rest := by
  induction l with
  | nil => simp [lastFrom] at h
  | cons b l ih =>
      cases hl : lastFrom c l with
      | some t' =>
          obtain rfl : t' = t := by simpa [lastFrom, hl] using h
          exact ih hl
      | none =>
          by_cases hb : b = c
          · subst hb
            exact ⟨l, by simpa [lastFrom, hl] using h.symm, lastFrom_eq_none.mp hl⟩
          · simp [lastFrom, hl, hb] at h

theorem lastFrom_append {c : UInt8} (l rest : List UInt8) (h : c ∉ rest) :
    lastFrom c (l ++ c :: rest) = some (c :: rest) := by
  induction l with
  | nil => simp [lastFrom, lastFrom_eq_none.mpr h]
  | cons b l ih => simp [lastFrom, ih]

theorem firstFrom_append {c : UInt8} {l : List UInt8} (rest : List UInt8) (h : c ∉ l) :
    firstFrom c (l ++ c :: rest) = some (c :: rest) := by
  induction l with
  | nil => simp [firstFrom]
  | cons b l ih =>
      have hb : b ≠ c := fun heq => h (heq ▸ List.mem_cons_self)
      simp [firstFrom, hb, ih (fun hmem => h (List.mem_cons_of_mem _ hmem))]

/-- `strrchr`: the part of the string from the last `c` on. -/
def strrchr (s : CString) (c : UInt8) : Option CString :=
  (lastFrom c s.bytes).pmap CString.mk
    (fun _ h h0 => s.nulFree ((lastFrom_suffix h).subset h0))

/-- `strchr`: the part of the string from the first `c` on. -/
def strchr (s : CString) (c : UInt8) : Option CString :=
  (firstFrom c s.bytes).pmap CString.mk
    (fun _ h h0 => s.nulFree ((firstFrom_suffix h).subset h0))

/-- `strncmp(s, prefix, strlen(prefix)) == 0`. -/
def startsWith (s start : CString) : Bool := start.bytes.isPrefixOf s.bytes

/-- `while (*p == c) p++`. -/
def skip (c : UInt8) (s : CString) : CString :=
  ⟨s.bytes.dropWhile (· == c), fun h => s.nulFree ((List.dropWhile_suffix _).subset h)⟩

@[simp] theorem bytes_empty : empty.bytes = [] := rfl

@[simp] theorem bytes_append (s t : CString) : (s ++ t).bytes = s.bytes ++ t.bytes := rfl

@[simp] theorem bytes_take (n : Nat) (s : CString) : (s.take n).bytes = s.bytes.take n := rfl

@[simp] theorem bytes_snprintf (n : Nat) (s : CString) :
    (snprintf n s).bytes = s.bytes.take (n - 1) := rfl

@[simp] theorem bytes_concat (parts : List CString) :
    (concat parts).bytes = parts.flatMap bytes := by
  induction parts with
  | nil => rfl
  | cons s parts ih =>
      change s.bytes ++ (concat parts).bytes = _
      simp [ih]

theorem ofBytes_of_nulFree {l : List UInt8} (h : 0 ∉ l) : (ofBytes l).bytes = l := by
  refine List.takeWhile_eq_self_iff.mpr fun b hb => ?_
  have nonzero : b ≠ 0 := fun h0 => h (h0 ▸ hb)
  simpa using nonzero

@[simp] theorem ofBytes_bytes (s : CString) : ofBytes s.bytes = s :=
  ext (ofBytes_of_nulFree s.nulFree)

/-- A buffer read as a string ends at its first NUL. -/
theorem ofBytes_append_nul (s : CString) (rest : List UInt8) :
    ofBytes (s.bytes ++ 0 :: rest) = s := by
  have all : ∀ b ∈ s.bytes, (b != 0) = true := by
    intro b hb
    have nonzero : b ≠ 0 := fun h0 => s.nulFree (h0 ▸ hb)
    simpa using nonzero
  apply ext
  change (s.bytes ++ 0 :: rest).takeWhile (· != 0) = s.bytes
  rw [List.takeWhile_append_of_pos all]
  simp

theorem snprintf_of_length_lt {n : Nat} {s : CString} (h : s.length < n) : snprintf n s = s := by
  apply ext
  exact List.take_of_length_le (by change s.length ≤ n - 1; omega)

theorem length_snprintf_lt {n : Nat} (hn : 0 < n) (s : CString) : (snprintf n s).length < n := by
  have hle : ((snprintf n s).bytes).length ≤ n - 1 := List.length_take_le _ _
  change (snprintf n s).bytes.length < n
  omega

/-- Copying through a second buffer of the same size cuts nothing more. -/
@[simp] theorem snprintf_snprintf (n : Nat) (s : CString) :
    snprintf n (snprintf n s) = snprintf n s := by
  apply ext
  simp [List.take_take]

theorem strrchr_eq_some {s t : CString} {c : UInt8} :
    s.strrchr c = some t ↔ lastFrom c s.bytes = some t.bytes := by
  simp only [strrchr, Option.pmap_eq_some_iff]
  constructor
  · rintro ⟨l, _, hl, rfl⟩
    exact hl
  · intro h
    exact ⟨t.bytes, t.nulFree, h, rfl⟩

theorem strchr_eq_some {s t : CString} {c : UInt8} :
    s.strchr c = some t ↔ firstFrom c s.bytes = some t.bytes := by
  simp only [strchr, Option.pmap_eq_some_iff]
  constructor
  · rintro ⟨l, _, hl, rfl⟩
    exact hl
  · intro h
    exact ⟨t.bytes, t.nulFree, h, rfl⟩

theorem strrchr_eq_none {s : CString} {c : UInt8} :
    s.strrchr c = none ↔ c ∉ s.bytes := by
  simp [strrchr, lastFrom_eq_none]

end CString
