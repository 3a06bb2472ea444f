import Kaufbot.Library.CString
import Mathlib.Algebra.Ring.Int.Defs
import Mathlib.Algebra.Ring.Nat
import Mathlib.Data.Rat.Defs

/-!
Number formats of `printf` and the number reader `strtoll`. The lemmas say
which bytes a printed number can have and how long it can be; programs that
build names out of numbers need no more.
-/

namespace CString

def IsDigit (b : UInt8) : Prop := 48 ≤ b.toNat ∧ b.toNat ≤ 57

instance (b : UInt8) : Decidable (IsDigit b) := by
  unfold IsDigit
  infer_instance

private theorem toNat_bounds_of_isDigit {c : Char} (h : c.isDigit) :
    48 ≤ c.toNat ∧ c.toNat ≤ 57 := by
  simp only [Char.isDigit, Bool.and_eq_true, decide_eq_true_eq] at h
  obtain ⟨lower, upper⟩ := h
  exact ⟨by simpa using UInt32.le_iff_toNat_le.mp lower,
    by simpa using UInt32.le_iff_toNat_le.mp upper⟩

private theorem toNat_toUInt8 {c : Char} (h : c.isDigit) : c.toUInt8.toNat = c.toNat := by
  have hc : c.toUInt8.toNat = c.toNat % 256 := rfl
  have := toNat_bounds_of_isDigit h
  omega

private theorem isDigit_toUInt8 {c : Char} (h : c.isDigit) : IsDigit c.toUInt8 := by
  simp only [IsDigit, toNat_toUInt8 h]
  exact toNat_bounds_of_isDigit h

def digitBytes (n : Nat) : List UInt8 := (Nat.toDigits 10 n).map Char.toUInt8

theorem isDigit_of_mem_digitBytes {n : Nat} {b : UInt8} (h : b ∈ digitBytes n) : IsDigit b := by
  obtain ⟨c, hc, rfl⟩ := List.mem_map.mp h
  exact isDigit_toUInt8 (Nat.isDigit_of_mem_toDigits (by decide) (by decide) hc)

/-- Reading digits from the left, as `strtoll` does, gives the number back. -/
theorem value_digitBytes (n : Nat) :
    (digitBytes n).foldl (fun acc b => acc * 10 + (b.toNat - 48)) 0 = n := by
  have same (acc : Nat) (c : Char) (hc : c ∈ Nat.toDigits 10 n) :
      acc * 10 + (c.toUInt8.toNat - 48) = 10 * acc + (c.toNat - '0'.toNat) := by
    have hdigit : c.isDigit := Nat.isDigit_of_mem_toDigits (by decide) (by decide) hc
    rw [toNat_toUInt8 hdigit, Nat.mul_comm]
    rfl
  rw [digitBytes, List.foldl_map, List.foldl_ext _ _ 0 same, ← Nat.ofDigitChars_eq_foldl,
    Nat.ofDigitChars_ten_toDigits]

theorem digitBytes_ne_nil (n : Nat) : digitBytes n ≠ [] := by
  simp [digitBytes, Nat.toDigits_ne_nil]

/-- A positive number is printed without a zero in front. -/
theorem digitBytes_lead {n : Nat} (h : 0 < n) :
    ∃ d ds, digitBytes n = d :: ds ∧ 49 ≤ d ∧ d ≤ 57 := by
  induction n using Nat.strongRecOn with
  | _ n ih =>
      by_cases small : n < 10
      · refine ⟨n.digitChar.toUInt8, [], ?_, ?_⟩
        · rw [digitBytes, Nat.toDigits_of_lt_base small]
          rfl
        · have digit (k : Fin 10) (some : 0 < k.val) :
              49 ≤ k.val.digitChar.toUInt8 ∧ k.val.digitChar.toUInt8 ≤ 57 := by
            revert k
            decide
          exact digit ⟨n, small⟩ h
      · obtain ⟨d, ds, front, lead⟩ := ih (n / 10) (by omega) (by omega)
        refine ⟨d, ds ++ [(n % 10).digitChar.toUInt8], ?_, lead⟩
        rw [digitBytes] at front
        rw [digitBytes, Nat.toDigits_of_base_le (by decide) (by omega), List.map_append, front]
        rfl

theorem length_digitBytes_le {n k : Nat} (hk : 0 < k) (h : n < 10 ^ k) :
    (digitBytes n).length ≤ k := by
  simpa [digitBytes] using (Nat.length_toDigits_le_iff (by decide) hk).mpr h

theorem not_isDigit_zero : ¬ IsDigit 0 := by decide

theorem zero_notMem_digitBytes (n : Nat) : 0 ∉ digitBytes n :=
  fun h => not_isDigit_zero (isDigit_of_mem_digitBytes h)

/-- `%zu` and `%llu`. -/
def printNat (n : Nat) : CString := ⟨digitBytes n, zero_notMem_digitBytes n⟩

/-- `%0<width>d` of a non-negative number. -/
def padBytes (width n : Nat) : List UInt8 :=
  List.replicate (width - (digitBytes n).length) 48 ++ digitBytes n

/-- `%0<width>d`; the sign counts towards the width. -/
def printPadded (width : Nat) (n : Int) : CString :=
  match n with
  | .ofNat k => ⟨padBytes width k, by simp [padBytes, zero_notMem_digitBytes]⟩
  | .negSucc k => ⟨45 :: padBytes (width - 1) (k + 1), by simp [padBytes, zero_notMem_digitBytes]⟩

/-- `%d` and `%lld`. -/
def printInt (n : Int) : CString := printPadded 0 n

/-- `%02x` of a byte. -/
def printHex2 (b : UInt8) : CString :=
  ofBytes [hexDigit (b.toNat / 16), hexDigit (b.toNat % 16)]
where
  hexDigit (d : Nat) : UInt8 := if d < 10 then UInt8.ofNat (48 + d) else UInt8.ofNat (87 + d)

private theorem hexDigit_ne_zero {d : Nat} (h : d < 16) : printHex2.hexDigit d ≠ 0 := by
  have cases (d : Fin 16) : printHex2.hexDigit d ≠ 0 := by
    revert d
    decide
  exact cases ⟨d, h⟩

theorem bytes_printHex2 (b : UInt8) : (printHex2 b).bytes =
    [printHex2.hexDigit (b.toNat / 16), printHex2.hexDigit (b.toNat % 16)] := by
  have high : printHex2.hexDigit (b.toNat / 16) ≠ 0 := hexDigit_ne_zero (by
    have := b.toNat_lt
    omega)
  have low : printHex2.hexDigit (b.toNat % 16) ≠ 0 := hexDigit_ne_zero (by omega)
  simp [printHex2, ofBytes, high, low]

theorem length_printHex2 (b : UInt8) : (printHex2 b).bytes.length = 2 := by
  rw [bytes_printHex2]
  rfl

/-- A sign and a magnitude as `%.2f` prints them: the nearest hundredth, ties to even. -/
def printHundredths (negative : Bool) (magnitude : Rat) : CString :=
  let scaled := magnitude.num.natAbs * 100
  let floor := scaled / magnitude.den
  let rest := 2 * (scaled % magnitude.den)
  let hundredths :=
    if rest > magnitude.den ∨ (rest = magnitude.den ∧ floor % 2 = 1) then floor + 1 else floor
  let sign := if negative then lit "-" else empty
  sign ++ printNat (hundredths / 100) ++ lit "." ++ printPadded 2 (hundredths % 100 : Nat)

/-- The characters `isspace` accepts in the C locale. -/
def isSpace (b : UInt8) : Bool := b == 32 || (9 ≤ b && b ≤ 13)

/-- `strtoll(s, &end, 10)`: the value, saturated to 64 bits, and what `end` points to. A
string without a number gives 0 and leaves `end` at the start. -/
def strtoll (s : CString) : Int × List UInt8 :=
  let trimmed := s.bytes.dropWhile isSpace
  let negative := trimmed.head? == some 45
  let unsigned := if negative || trimmed.head? == some 43 then trimmed.tail else trimmed
  let digits := unsigned.takeWhile (fun b => decide (IsDigit b))
  if digits.isEmpty then (0, s.bytes)
  else
    let magnitude : Nat := digits.foldl (fun acc b => acc * 10 + (b.toNat - 48)) 0
    let value : Int := if negative then -magnitude else magnitude
    (max (-(2 ^ 63)) (min value (2 ^ 63 - 1)), unsigned.drop digits.length)

theorem isDigit_of_mem_padBytes {width n : Nat} {b : UInt8} (h : b ∈ padBytes width n) :
    IsDigit b := by
  rcases List.mem_append.mp h with hz | hd
  · obtain rfl := List.eq_of_mem_replicate hz
    decide
  · exact isDigit_of_mem_digitBytes hd

theorem length_padBytes_le (width : Nat) {n k : Nat} (hk : 0 < k) (hw : width ≤ k) (h : n < 10 ^ k) :
    (padBytes width n).length ≤ k := by
  have := length_digitBytes_le hk h
  simp only [padBytes, List.length_append, List.length_replicate]
  omega

theorem mem_printPadded {width : Nat} {n : Int} {b : UInt8} (h : b ∈ (printPadded width n).bytes) :
    IsDigit b ∨ b = 45 := by
  cases n with
  | ofNat k => exact Or.inl (isDigit_of_mem_padBytes h)
  | negSucc k =>
      rcases List.mem_cons.mp h with hsign | hdigit
      · exact Or.inr hsign
      · exact Or.inl (isDigit_of_mem_padBytes hdigit)

theorem printPadded_getLast (width : Nat) (n : Int) :
    ∃ init b, (printPadded width n).bytes = init ++ [b] ∧ IsDigit b := by
  have digits (w k : Nat) : ∃ init b, padBytes w k = init ++ [b] ∧ IsDigit b := by
    have hne : padBytes w k ≠ [] := by simp [padBytes, digitBytes_ne_nil]
    exact ⟨_, _, (List.dropLast_append_getLast hne).symm,
      isDigit_of_mem_padBytes (List.getLast_mem hne)⟩
  cases n with
  | ofNat k => exact digits width k
  | negSucc k =>
      obtain ⟨init, b, heq, hb⟩ := digits (width - 1) (k + 1)
      exact ⟨45 :: init, b, by simp [printPadded, heq], hb⟩

section RoundTrip
variable {n : Nat} {b : UInt8}

theorem not_isSpace_of_isDigit (h : IsDigit b) : isSpace b = false := by
  obtain ⟨lower, _⟩ := h
  simp only [isSpace, Bool.or_eq_false_iff, Bool.and_eq_false_iff, beq_eq_false_iff_ne,
    decide_eq_false_iff_not, UInt8.le_iff_toNat_le]
  refine ⟨?_, Or.inr ?_⟩
  · rintro rfl
    exact absurd lower (by decide)
  · have : (13 : UInt8).toNat = 13 := rfl
    omega

theorem isDigit_head_digitBytes (n : Nat) : ∃ b rest, digitBytes n = b :: rest ∧ IsDigit b := by
  obtain ⟨b, rest, heq⟩ := List.exists_cons_of_ne_nil (digitBytes_ne_nil n)
  exact ⟨b, rest, heq, isDigit_of_mem_digitBytes (heq ▸ List.mem_cons_self)⟩

theorem takeWhile_digitBytes (n : Nat) :
    (digitBytes n).takeWhile (fun b => decide (IsDigit b)) = digitBytes n :=
  List.takeWhile_eq_self_iff.mpr (fun _ hb => decide_eq_true (isDigit_of_mem_digitBytes hb))

theorem strtoll_digitBytes {s : CString} (h : s.bytes = digitBytes n) :
    strtoll s = (max (-(2 ^ 63)) (min (n : Int) (2 ^ 63 - 1)), []) := by
  obtain ⟨b, rest, heq, hb⟩ := isDigit_head_digitBytes n
  have trimmed : s.bytes.dropWhile isSpace = digitBytes n := by
    rw [h, heq, List.dropWhile_cons_of_neg (by simp [not_isSpace_of_isDigit hb])]
  have unsigned : (digitBytes n).head? ≠ some 45 ∧ (digitBytes n).head? ≠ some 43 := by
    rw [heq]
    constructor <;> (rintro ⟨⟩; exact absurd hb (by decide))
  simp [strtoll, trimmed, unsigned, takeWhile_digitBytes, digitBytes_ne_nil, value_digitBytes]

theorem strtoll_neg_digitBytes {s : CString} (h : s.bytes = 45 :: digitBytes n) :
    strtoll s = (max (-(2 ^ 63)) (min (-(n : Int)) (2 ^ 63 - 1)), []) := by
  have trimmed : s.bytes.dropWhile isSpace = 45 :: digitBytes n := by
    rw [h, List.dropWhile_cons_of_neg (by decide)]
  simp [strtoll, trimmed, takeWhile_digitBytes, digitBytes_ne_nil, value_digitBytes]

/-- Every 64-bit number that is printed is read back, to the end of the string. -/
theorem strtoll_printInt {n : Int} (hl : -(2 ^ 63) ≤ n) (hu : n < 2 ^ 63) :
    strtoll (printInt n) = (n, []) := by
  cases n with
  | ofNat k =>
      rw [strtoll_digitBytes (n := k) (by simp [printInt, printPadded, padBytes])]
      simp only [Int.ofNat_eq_natCast, Prod.mk.injEq, and_true] at hu ⊢
      omega
  | negSucc k =>
      rw [strtoll_neg_digitBytes (n := k + 1) (by simp [printInt, printPadded, padBytes])]
      rw [Int.negSucc_eq] at hl hu ⊢
      simp only [Prod.mk.injEq, and_true]
      omega

/-- A printed number starts with a digit or a minus sign. -/
theorem printInt_head (n : Int) :
    ∃ b rest, (printInt n).bytes = b :: rest ∧ (IsDigit b ∨ b = 45) := by
  obtain ⟨b, rest, heq⟩ : ∃ b rest, (printInt n).bytes = b :: rest := by
    obtain ⟨init, b, heq, _⟩ := printPadded_getLast 0 n
    exact List.exists_cons_of_ne_nil (by simp [printInt, heq])
  exact ⟨b, rest, heq, mem_printPadded (heq ▸ List.mem_cons_self)⟩

theorem length_printInt_le {n : Int} (hl : -(2 ^ 63) ≤ n) (hu : n < 2 ^ 63) :
    (printInt n).length ≤ 20 := by
  cases n with
  | ofNat k =>
      have hk : k < 10 ^ 20 := by
        change ((k : Nat) : Int) < 2 ^ 63 at hu
        omega
      exact length_padBytes_le 0 (by decide) (by decide) hk
  | negSucc k =>
      have hk : k + 1 < 10 ^ 19 := by
        rw [Int.negSucc_eq] at hl
        omega
      have := length_padBytes_le (0 - 1) (by decide) (by decide) hk
      simp only [printInt, printPadded, length, List.length_cons]
      omega

end RoundTrip

theorem length_printPadded_le {width : Nat} {n : Int} (hw : width ≤ 10)
    (hl : -(2 ^ 31) ≤ n) (hu : n < 2 ^ 31) : (printPadded width n).length ≤ 11 := by
  cases n with
  | ofNat k =>
      have hk : k < 10 ^ 10 := by
        have : (k : Int) < 2 ^ 31 := hu
        omega
      have := length_padBytes_le width (by decide) hw hk
      exact this.trans (by decide)
  | negSucc k =>
      have hk : k + 1 < 10 ^ 10 := by
        rw [Int.negSucc_eq] at hl
        omega
      have := length_padBytes_le (width - 1) (by decide) (by omega) hk
      simp only [printPadded, length, List.length_cons]
      omega

end CString
