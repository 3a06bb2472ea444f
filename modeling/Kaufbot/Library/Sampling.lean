import Mathlib.Data.List.Basic

/-!
A value that anyone may write, and a watcher that looks at it from time to time
and tells when it finds another one than it has seen. What it tells is a
subsequence of what was written: nothing is told that was not written meanwhile, and
nothing twice. Right after a look, the last thing told is the value as it is.
-/

namespace Sampling

universe u
variable {α : Type u}

/-- From this value, with this much seen of it: what was written, what was told, the value and
what is seen of it now. -/
inductive Watching (first : α) (seen : Option α) : List α → List α → α → Option α → Prop
  | start : Watching first seen [] [] first seen
  | write {written told : List α} {current : α} {last : Option α} (a : α)
      (before : Watching first seen written told current last) :
      Watching first seen (written ++ [a]) told a last
  | firstLook {written told : List α} {current : α}
      (before : Watching first seen written told current none) :
      Watching first seen written told current (some current)
  | news {written told : List α} {current a : α} (differs : a ≠ current)
      (before : Watching first seen written told current (some a)) :
      Watching first seen written (told ++ [current]) current (some current)

variable {first current : α} {seen last : Option α} {written told : List α}

/-- Watching goes on from where it was. -/
theorem Watching.trans {current' : α} {last' : Option α} {written' told' : List α}
    (h : Watching first seen written told current last)
    (later : Watching current last written' told' current' last') :
    Watching first seen (written ++ written') (told ++ told') current' last' := by
  induction later with
  | start => simpa using h
  | write a _ ih =>
      rw [← List.append_assoc]
      exact ih.write a
  | firstLook _ ih => exact ih.firstLook
  | news differs _ ih =>
      rw [← List.append_assoc]
      exact ih.news differs

/-- What is told was written, and what is still to be told was written after it. -/
theorem Watching.among (h : Watching first seen written told current last)
    (fresh : ∀ a ∈ seen, a = first) :
    told.Sublist written ∧
      ∀ a ∈ last, a ≠ current → (told ++ [current]).Sublist written := by
  induction h with
  | start => exact ⟨.refl _, fun a mem differs => absurd (fresh a mem) differs⟩
  | write a _ ih =>
      exact ⟨ih.1.trans (List.sublist_append_left _ _), fun _ _ _ => ih.1.append (.refl _)⟩
  | firstLook _ ih =>
      exact ⟨ih.1, fun a mem differs => absurd (Option.mem_some.mp mem).symm differs⟩
  | news differs _ ih =>
      exact ⟨ih.2 _ rfl differs, fun a mem again => absurd (Option.mem_some.mp mem).symm again⟩

/-- Whoever has seen the value once and hears what is told knows what the watcher has seen. -/
theorem Watching.known {a : α} (h : Watching first (some a) written told current last) :
    last = some (told.getLast?.getD a) := by
  induction h with
  | start => rfl
  | write _ _ ih => exact ih
  | firstLook _ ih => exact absurd ih (by simp)
  | news _ _ _ => simp

end Sampling
