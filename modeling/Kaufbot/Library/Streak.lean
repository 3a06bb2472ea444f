import Mathlib.Data.ENat.Lattice

/-!
How long a sequence keeps a property from its start on, and the number of steps
a loop takes that goes on while the property holds and stops for good at a
bound.
-/

namespace Streak

variable {p : Nat → Prop}

/-- The number of leading positions that have the property; all may have it. -/
noncomputable def leading (p : Nat → Prop) : ℕ∞ := ⨅ (i : Nat) (_ : ¬ p i), (i : ℕ∞)

theorem le_leading {n : Nat} : (n : ℕ∞) ≤ leading p ↔ ∀ i < n, p i := by
  simp only [leading, le_iInf_iff, Nat.cast_le]
  constructor
  · intro h i hi
    by_contra stop
    exact absurd (h i stop) (by omega)
  · intro h i stop
    by_contra hi
    exact stop (h i (by omega))

theorem leading_le {n : Nat} (h : ¬ p n) : leading p ≤ n := iInf₂_le n h

/-- Where a loop stops that has passed only positions with the property, at the first one without
it or at the bound. -/
theorem stop_eq_min {n bound : Nat} (passed : ∀ i < n, p i) (le : n ≤ bound)
    (stop : n = bound ∨ ¬ p n) : (n : ℕ∞) = min (leading p) bound := by
  apply le_antisymm
  · exact le_min (le_leading.mpr passed) (Nat.cast_le.mpr le)
  · rcases stop with rfl | stop
    · exact min_le_right _ _
    · exact min_le_of_left_le (leading_le stop)

end Streak
