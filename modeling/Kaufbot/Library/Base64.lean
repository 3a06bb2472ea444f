import Mathlib.Data.List.Basic

/-!
The base 64 encoding of RFC 4648, from the reader's side: the alphabet, and the
decoding of whole groups of four characters. Decoding is strict, so a text has
one meaning at most: padding ends it, and the bits padding leaves over are zero.
-/

namespace Base64

/-- The character that stands for a value below 64. -/
def symbol (v : Nat) : UInt8 :=
  if v < 26 then UInt8.ofNat (65 + v)
  else if v < 52 then UInt8.ofNat (97 + (v - 26))
  else if v < 62 then UInt8.ofNat (48 + (v - 52))
  else if v = 62 then 43
  else 47

def value? (c : UInt8) : Option Nat :=
  let n := c.toNat
  if 65 ≤ n ∧ n ≤ 90 then some (n - 65)
  else if 97 ≤ n ∧ n ≤ 122 then some (n - 97 + 26)
  else if 48 ≤ n ∧ n ≤ 57 then some (n - 48 + 52)
  else if n = 43 then some 62
  else if n = 47 then some 63
  else none

def pad : UInt8 := 61

/-- The three bytes of four values. -/
def bytes (x y z w : Nat) : List UInt8 :=
  [UInt8.ofNat (x * 4 + y / 16), UInt8.ofNat (y % 16 * 16 + z / 4), UInt8.ofNat (z % 4 * 64 + w)]

def decode : List UInt8 → Option (List UInt8)
  | [] => some []
  | a :: b :: c :: d :: rest =>
      match value? a, value? b, value? c, value? d with
      | some x, some y, some z, some w => (decode rest).map (bytes x y z w ++ ·)
      | some x, some y, some z, none =>
          if d = pad ∧ rest = [] ∧ z % 4 = 0 then some ((bytes x y z 0).take 2) else none
      | some x, some y, none, none =>
          if c = pad ∧ d = pad ∧ rest = [] ∧ y % 16 = 0 then some ((bytes x y 0 0).take 1)
          else none
      | _, _, _, _ => none
  | _ => none

/-- The number of padding characters that close `n` bytes. -/
def padLength (n : Nat) : Nat := (3 - n % 3) % 3

@[simp] theorem value?_symbol {v : Nat} (h : v < 64) : value? (symbol v) = some v := by
  have all (v : Fin 64) : value? (symbol v) = some v.val := by
    revert v
    decide
  exact all ⟨v, h⟩

@[simp] theorem value?_pad : value? pad = none := rfl

section Groups
variable {x y z w : Nat} (hx : x < 64) (hy : y < 64)
include hx hy

theorem decode_group (hz : z < 64) (hw : w < 64) (rest : List UInt8) :
    decode (symbol x :: symbol y :: symbol z :: symbol w :: rest) =
      (decode rest).map (bytes x y z w ++ ·) := by
  simp [decode, hx, hy, hz, hw]

theorem decode_two_bytes (hz : z < 64) (zero : z % 4 = 0) :
    decode [symbol x, symbol y, symbol z, pad] = some ((bytes x y z 0).take 2) := by
  simp [decode, hx, hy, hz, zero]

theorem decode_one_byte (zero : y % 16 = 0) :
    decode [symbol x, symbol y, pad, pad] = some ((bytes x y 0 0).take 1) := by
  simp [decode, hx, hy, zero]

end Groups

end Base64
