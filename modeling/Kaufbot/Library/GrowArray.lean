import Mathlib.Algebra.Ring.Nat
import Mathlib.Data.List.Basic

/-!
Arrays that grow by doubling. A block of memory is the list of what is in it; a
write that would leave the block has no result. The doubling loop runs in words
modulo `m`, where a capacity that wraps around would never reach what is
needed: below a power that fits it is the loop on numbers.
-/

namespace GrowArray

/-- `while (cap < needed) cap *= 2`, none when the loop tests its condition more than `rounds`
times. -/
def double (m needed : Nat) : Nat → Nat → Option Nat
  | 0, _ => none
  | rounds + 1, cap => if cap < needed then double m needed rounds (cap * 2 % m) else some cap

/-- The loop ends at a true multiple, found before the power that is large enough. -/
theorem double_eq {m needed base top : Nat} (fits : base * 2 ^ top < m)
    (reached : needed ≤ base * 2 ^ top) {k rounds : Nat} (hk : k ≤ top)
    (enough : top - k < rounds) :
    ∃ i, k ≤ i ∧ i ≤ top ∧ needed ≤ base * 2 ^ i ∧
      double m needed rounds (base * 2 ^ k) = some (base * 2 ^ i) := by
  induction rounds generalizing k with
  | zero => exact absurd enough (Nat.not_lt_zero _)
  | succ rounds ih =>
      by_cases small : base * 2 ^ k < needed
      · have below : k < top := by
          by_contra h
          obtain rfl : k = top := by omega
          omega
        have step : base * 2 ^ k * 2 = base * 2 ^ (k + 1) := by rw [Nat.mul_assoc, Nat.pow_succ]
        have unwrapped : base * 2 ^ (k + 1) % m = base * 2 ^ (k + 1) := by
          refine Nat.mod_eq_of_lt (Nat.lt_of_le_of_lt ?_ fits)
          exact Nat.mul_le_mul_left _ (Nat.pow_le_pow_right (by decide) below)
        obtain ⟨i, hki, hi, large, result⟩ := ih below (by omega)
        refine ⟨i, by omega, hi, large, ?_⟩
        rw [double, if_pos small, step, unwrapped, result]
      · exact ⟨k, Nat.le_refl k, hk, by omega, by rw [double, if_neg small]⟩

section Blocks
variable {α : Type}

/-- `realloc` to `n` cells; `fresh` is what the new ones hold. -/
def resize (fresh : Nat → α) (n : Nat) (block : List α) : List α :=
  (List.range n).map fun i => block[i]?.getD (fresh i)

/-- `memcpy` of a chunk to an offset in the block. -/
def copyInto (block : List α) (pos : Nat) (chunk : List α) : Option (List α) :=
  if pos + chunk.length ≤ block.length then
    some (block.take pos ++ (chunk ++ block.drop (pos + chunk.length)))
  else none

@[simp] theorem length_resize (fresh : Nat → α) (n : Nat) (block : List α) :
    (resize fresh n block).length = n := by
  simp [resize]

/-- A larger block starts with the old one. -/
theorem prefix_resize (fresh : Nat → α) {n : Nat} {block : List α} (h : block.length ≤ n) :
    block <+: resize fresh n block := by
  refine List.prefix_iff_eq_take.mpr (List.ext_getElem ?_ fun i hi _ => ?_)
  · rw [List.length_take, length_resize, Nat.min_eq_left h]
  · simp [resize, hi]

/-- A write to cells that are there replaces them. -/
theorem copyInto_append {front back chunk : List α} (old : List α)
    (h : old.length = chunk.length) :
    copyInto (front ++ (old ++ back)) front.length chunk = some (front ++ (chunk ++ back)) := by
  have inside : front.length + chunk.length ≤ (front ++ (old ++ back)).length := by
    simp only [List.length_append]
    omega
  have behind : (front ++ (old ++ back)).drop (front.length + chunk.length) = back := by
    rw [← h, ← List.length_append, ← List.append_assoc, List.drop_left]
  rw [copyInto, if_pos inside, behind, List.take_left]

end Blocks

end GrowArray
