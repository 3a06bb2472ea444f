import Mathlib.Data.List.Basic

/-!
Percent-encoded text as RFC 3986 has it: the unreserved characters, escapes, and
their decoding. Decoding fails on a percent sign that two hexadecimal digits do
not follow; what has only unreserved characters and escapes is `Encoded`.
-/

namespace Percent

/-- Letters, digits, hyphen, period, underscore and tilde. -/
def IsUnreserved (b : UInt8) : Prop :=
  (65 ≤ b.toNat ∧ b.toNat ≤ 90) ∨ (97 ≤ b.toNat ∧ b.toNat ≤ 122) ∨
    (48 ≤ b.toNat ∧ b.toNat ≤ 57) ∨ b = 45 ∨ b = 46 ∨ b = 95 ∨ b = 126

instance (b : UInt8) : Decidable (IsUnreserved b) := by
  unfold IsUnreserved
  infer_instance

def IsUpperHex (b : UInt8) : Prop := (48 ≤ b.toNat ∧ b.toNat ≤ 57) ∨ (65 ≤ b.toNat ∧ b.toNat ≤ 70)

instance (b : UInt8) : Decidable (IsUpperHex b) := by
  unfold IsUpperHex
  infer_instance

def value? (b : UInt8) : Option Nat :=
  let n := b.toNat
  if 48 ≤ n ∧ n ≤ 57 then some (n - 48)
  else if 65 ≤ n ∧ n ≤ 70 then some (n - 55)
  else if 97 ≤ n ∧ n ≤ 102 then some (n - 87)
  else none

def sign : UInt8 := 37

def decode : List UInt8 → Option (List UInt8)
  | [] => some []
  | b :: high :: low :: rest =>
      if b = sign then
        match value? high, value? low with
        | some x, some y => (decode rest).map (UInt8.ofNat (x * 16 + y) :: ·)
        | _, _ => none
      else (decode (high :: low :: rest)).map (b :: ·)
  | b :: rest => if b = sign then none else (decode rest).map (b :: ·)

/-- The upper-case digit of a value below 16. -/
def upperDigit (v : Nat) : UInt8 := if v < 10 then UInt8.ofNat (48 + v) else UInt8.ofNat (55 + v)

def escape (b : UInt8) : List UInt8 := [sign, upperDigit (b.toNat / 16), upperDigit (b.toNat % 16)]

inductive Encoded : List UInt8 → Prop where
  | nil : Encoded []
  | plain {b : UInt8} {rest : List UInt8} (unreserved : IsUnreserved b) (encoded : Encoded rest) :
      Encoded (b :: rest)
  | escaped {high low : UInt8} {rest : List UInt8} (high_hex : IsUpperHex high)
      (low_hex : IsUpperHex low) (encoded : Encoded rest) : Encoded (sign :: high :: low :: rest)

theorem Encoded.append {l rest : List UInt8} (h : Encoded l) (later : Encoded rest) :
    Encoded (l ++ rest) := by
  induction h with
  | nil => exact later
  | plain unreserved _ ih => exact .plain unreserved ih
  | escaped high low _ ih => exact .escaped high low ih

theorem Encoded.notMem {l : List UInt8} (h : Encoded l) {b : UInt8} (reserved : ¬ IsUnreserved b)
    (noDigit : ¬ IsUpperHex b) (ne : b ≠ sign) : b ∉ l := by
  induction h with
  | nil => exact List.not_mem_nil
  | plain unreserved _ ih =>
      refine List.not_mem_cons_of_ne_of_not_mem ?_ ih
      rintro rfl
      exact reserved unreserved
  | escaped high low _ ih =>
      have digit {d : UInt8} (hex : IsUpperHex d) : b ≠ d := fun same => noDigit (same ▸ hex)
      exact List.not_mem_cons_of_ne_of_not_mem ne
        (List.not_mem_cons_of_ne_of_not_mem (digit high)
          (List.not_mem_cons_of_ne_of_not_mem (digit low) ih))

theorem value?_isSome_of_isUpperHex {b : UInt8} (h : IsUpperHex b) : (value? b).isSome := by
  simp only [value?]
  rcases h with digit | letter
  · rw [if_pos digit]
    rfl
  · simp only [letter, and_self, if_true]
    split <;> rfl

section Digits
variable {v : Nat} (h : v < 16)
include h

theorem value?_upperDigit : value? (upperDigit v) = some v := by
  have all (v : Fin 16) : value? (upperDigit v) = some v.val := by
    revert v
    decide
  exact all ⟨v, h⟩

theorem isUpperHex_upperDigit : IsUpperHex (upperDigit v) := by
  have all (v : Fin 16) : IsUpperHex (upperDigit v) := by
    revert v
    decide
  exact all ⟨v, h⟩

end Digits

section Bytes
variable (b : UInt8)

theorem div_lt : b.toNat / 16 < 16 := by
  have := b.toNat_lt
  omega

theorem mod_lt : b.toNat % 16 < 16 := Nat.mod_lt _ (by decide)

theorem ne_sign_of_isUnreserved {b : UInt8} (h : IsUnreserved b) : b ≠ sign := by
  rintro rfl
  revert h
  decide

theorem encoded_escape : Encoded (escape b) :=
  .escaped (isUpperHex_upperDigit (div_lt b)) (isUpperHex_upperDigit (mod_lt b)) .nil

theorem decode_plain {b : UInt8} (h : b ≠ sign) (rest : List UInt8) :
    decode (b :: rest) = (decode rest).map (b :: ·) := by
  cases rest with
  | nil => simp [decode, h]
  | cons high rest => cases rest <;> simp [decode, h]

/-- An escape is read back, whatever stands behind it. -/
theorem decode_escape (rest : List UInt8) :
    decode (escape b ++ rest) = (decode rest).map (b :: ·) := by
  have same : UInt8.ofNat (b.toNat / 16 * 16 + b.toNat % 16) = b := by
    rw [Nat.div_add_mod', UInt8.ofNat_toNat]
  change decode (sign :: _ :: _ :: rest) = _
  rw [decode, if_pos rfl]
  simp only [value?_upperDigit (div_lt b), value?_upperDigit (mod_lt b), same]

end Bytes

theorem decode_of_notMem {l : List UInt8} (h : sign ∉ l) : decode l = some l := by
  induction l with
  | nil => rfl
  | cons b l ih =>
      obtain ⟨ne, rest⟩ := not_or.mp (mt List.mem_cons.mpr h)
      rw [decode_plain (Ne.symm ne), ih rest, Option.map_some]

/-- A text that can be read, byte by byte and escape by escape. -/
inductive Reads : List UInt8 → List UInt8 → Prop where
  | nil : Reads [] []
  | plain {b : UInt8} {l text : List UInt8} (ne : b ≠ sign) (later : Reads l text) :
      Reads (b :: l) (b :: text)
  | escaped {high low : UInt8} {x y : Nat} {l text : List UInt8} (highValue : value? high = some x)
      (lowValue : value? low = some y) (later : Reads l text) :
      Reads (sign :: high :: low :: l) (UInt8.ofNat (x * 16 + y) :: text)

theorem reads_of_decode {l text : List UInt8} (h : decode l = some text) : Reads l text := by
  fun_induction decode l generalizing text with
  | case1 =>
      cases h
      exact .nil
  | case2 high low rest x y hy hx ih =>
      obtain ⟨later, hlater, rfl⟩ := Option.map_eq_some_iff.mp h
      exact .escaped hx hy (ih hlater)
  | case3 => cases h
  | case4 b high low rest ne ih =>
      obtain ⟨later, hlater, rfl⟩ := Option.map_eq_some_iff.mp h
      exact .plain ne (ih hlater)
  | case5 => cases h
  | case6 b rest short ne ih =>
      obtain ⟨later, hlater, rfl⟩ := Option.map_eq_some_iff.mp h
      exact .plain ne (ih hlater)

/-- Every escape makes the text shorter when it is read. -/
theorem Reads.length {l text : List UInt8} (h : Reads l text) :
    text.length ≤ l.length ∧ (sign ∈ l → text.length < l.length) := by
  induction h with
  | nil => simp
  | plain ne _ ih =>
      refine ⟨Nat.succ_le_succ ih.1, fun escaped => Nat.succ_lt_succ (ih.2 ?_)⟩
      exact (List.mem_cons.mp escaped).resolve_left (Ne.symm ne)
  | escaped _ _ _ ih =>
      simp only [List.length_cons]
      omega

/-- What can be read as a whole is read first, whatever stands behind it. -/
theorem Reads.decode_append {l text : List UInt8} (h : Reads l text) (rest : List UInt8) :
    decode (l ++ rest) = (decode rest).map (text ++ ·) := by
  induction h with
  | nil => simp
  | plain ne _ ih => simp [decode_plain ne, ih, Function.comp_def]
  | escaped high low _ ih => simp [decode, high, low, ih, Function.comp_def]

theorem decode_eq_self_iff {l : List UInt8} : decode l = some l ↔ sign ∉ l := by
  refine ⟨fun h escaped => ?_, decode_of_notMem⟩
  exact absurd ((reads_of_decode h).length.2 escaped) (Nat.lt_irrefl _)

end Percent
