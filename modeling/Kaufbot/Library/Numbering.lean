import Mathlib.Data.List.Nodup

/-!
Numbers handed out by a counter. Entries are added under the next number and
removed, and the counter never goes back; so a number stands for one entry for
good, and once that is gone the number stands for none.
-/

namespace Numbering

universe u
variable {Entry : Type u}

/-- Numbered entries and the last number handed out. -/
structure Book (number : Entry → Int) where
  entries : List Entry
  last : Int
  numbered : ∀ e ∈ entries, number e ≤ last
  unique : (entries.map number).Nodup

variable {number : Entry → Int} {b b' b'' : Book number} {e e' : Entry} {n : Int}

/-- What can become of a book: under the numbers it has handed out, nothing is new. -/
structure Later (b b' : Book number) : Prop where
  counted : b.last ≤ b'.last
  old : ∀ e ∈ b'.entries, number e ≤ b.last → e ∈ b.entries

namespace Later

theorem refl (b : Book number) : Later b b := ⟨Int.le_refl _, fun _ h _ => h⟩

theorem trans (h : Later b b') (h' : Later b' b'') : Later b b'' := by
  refine ⟨Int.le_trans h.counted h'.counted, fun e he hn => ?_⟩
  exact h.old e (h'.old e he (Int.le_trans hn h.counted)) hn

theorem of_subset (last : b'.last = b.last) (entries : b'.entries ⊆ b.entries) : Later b b' :=
  ⟨Int.le_of_eq last.symm, fun _ he _ => entries he⟩

theorem of_append (last : b'.last = b.last + 1) (entries : b'.entries = b.entries ++ [e])
    (next : number e = b.last + 1) : Later b b' := by
  refine ⟨by omega, fun e' he' hn => ?_⟩
  rw [entries] at he'
  rcases List.mem_append.mp he' with hold | hnew
  · exact hold
  · obtain rfl := List.mem_singleton.mp hnew
    omega

/-- The entry under a number is the one that was under it before. -/
theorem same (h : Later b b') (he : e ∈ b.entries) (he' : e' ∈ b'.entries)
    (hn : number e' = number e) : e' = e := by
  have hold : e' ∈ b.entries := h.old e' he' (hn ▸ b.numbered e he)
  exact List.inj_on_of_nodup_map b.unique hold he hn

/-- A number whose entry is gone stays free. -/
theorem free (h : Later b b') (used : n ≤ b.last) (hfree : ∀ e ∈ b.entries, number e ≠ n) :
    ∀ e ∈ b'.entries, number e ≠ n := by
  rintro e he rfl
  exact hfree e (h.old e he used) rfl

end Later

end Numbering
