import Mathlib.Data.List.Basic

/-!
Files kept for records. A record has a main file and may have a second one; an
inventory is in order when every file there is belongs to a record and every
record has its main file.
-/

namespace Inventory

universe u v w
variable {Row : Type u} {Name : Type v} {Contents : Type w}

structure InOrder (main : Row → Name) (second : Row → Option Name) (rows : List Row)
    (files : Name → Option Contents) : Prop where
  owned : ∀ name, files name ≠ none → ∃ row ∈ rows, name = main row ∨ second row = some name
  present : ∀ row ∈ rows, files (main row) ≠ none

variable {main : Row → Name} {second : Row → Option Name} {rows rows' : List Row}
  {files files' : Name → Option Contents}

namespace InOrder

theorem nil (none_there : ∀ name, files name = none) : InOrder main second [] files :=
  ⟨fun name h => absurd (none_there name) h, fun _ h => absurd h List.not_mem_nil⟩

theorem empty (h : InOrder main second [] files) (name : Name) : files name = none := by
  by_contra there
  obtain ⟨row, hrow, _⟩ := h.owned name there
  exact absurd hrow List.not_mem_nil

/-- What changes is a file of some record, and no file goes. -/
theorem write (h : InOrder main second rows files)
    (written : ∀ name, files' name ≠ none → files name ≠ none ∨
      ∃ row ∈ rows, name = main row ∨ second row = some name)
    (kept : ∀ name, files name ≠ none → files' name ≠ none) :
    InOrder main second rows files' where
  owned := fun name there => (written name there).elim (h.owned name) id
  present := fun row hrow => kept _ (h.present row hrow)

/-- A file is written just before the record it is for. -/
theorem add (h : InOrder main second rows files) {row : Row}
    (others : ∀ name, name ≠ main row → files' name = files name)
    (there : files' (main row) ≠ none) : InOrder main second (rows ++ [row]) files' where
  owned := by
    intro name hname
    by_cases hmain : name = main row
    · exact ⟨row, List.mem_append_right _ (List.mem_singleton_self row), Or.inl hmain⟩
    · obtain ⟨owner, howner, its⟩ := h.owned name (others name hmain ▸ hname)
      exact ⟨owner, List.mem_append_left _ howner, its⟩
  present := by
    intro other hother
    rcases List.mem_append.mp hother with hold | hnew
    · by_cases hmain : main other = main row
      · rw [hmain]
        exact there
      · rw [others _ hmain]
        exact h.present other hold
    · obtain rfl := List.mem_singleton.mp hnew
      exact there

/-- The records change and keep their files. -/
theorem map (h : InOrder main second rows files) {f : Row → Row}
    (mains : ∀ row ∈ rows, main (f row) = main row)
    (seconds : ∀ row ∈ rows, ∀ name, second row = some name → second (f row) = some name) :
    InOrder main second (rows.map f) files where
  owned := by
    intro name hname
    obtain ⟨row, hrow, its⟩ := h.owned name hname
    refine ⟨f row, List.mem_map_of_mem hrow, its.imp (fun hmain => ?_) (seconds row hrow name)⟩
    rw [mains row hrow, hmain]
  present := by
    intro row hrow
    obtain ⟨old, hold, rfl⟩ := List.mem_map.mp hrow
    rw [mains old hold]
    exact h.present old hold

/-- A record goes with its files, which are no other record's main file. -/
theorem drop (h : InOrder main second rows files) (gone : Row)
    (others : ∀ row ∈ rows', row ∈ rows ∧ main row ≠ main gone ∧ second gone ≠ some (main row))
    (rest : ∀ row ∈ rows, row ≠ gone → row ∈ rows')
    (removed : files' (main gone) = none ∧ ∀ name, second gone = some name → files' name = none)
    (kept : ∀ name, name ≠ main gone → second gone ≠ some name → files' name = files name) :
    InOrder main second rows' files' where
  owned := by
    intro name hname
    have hmain : name ≠ main gone := by
      rintro rfl
      exact hname removed.1
    have hsecond : second gone ≠ some name := fun its => hname (removed.2 name its)
    rw [kept name hmain hsecond] at hname
    obtain ⟨row, hrow, its⟩ := h.owned name hname
    refine ⟨row, rest row hrow ?_, its⟩
    rintro rfl
    exact its.elim hmain hsecond
  present := by
    intro row hrow
    obtain ⟨hold, hmain, hsecond⟩ := others row hrow
    rw [kept _ hmain hsecond]
    exact h.present row hold

end InOrder

end Inventory
