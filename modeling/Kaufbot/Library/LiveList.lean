import Mathlib.Data.List.Basic
import Mathlib.Data.List.Nodup
import Mathlib.Data.List.Perm.Subperm

/-!
A loop by index over a list that loses elements while it runs. An element that
goes after the loop has passed it moves the ones ahead into its way: the first
of them is skipped. So the loop reaches everyone who stays exactly when, turn
by turn, nobody passed goes or nobody ahead is left.
-/

namespace LiveList

variable {ι : Type}

/-- One round: the index, and the list before and after what happens in it. -/
structure Turn (ι : Type) where
  index : Nat
  before : List ι
  after : List ι

namespace Turn

def reached (t : Turn ι) : Option ι := t.before[t.index]?

def passed (t : Turn ι) : List ι := t.before.take (t.index + 1)

def ahead (t : Turn ι) : List ι := t.before.drop (t.index + 1)

def Orderly (t : Turn ι) : Prop := t.passed ⊆ t.after ∨ ∀ k ∈ t.ahead, k ∉ t.after

end Turn

/-- The rounds from index `i` on, up to the end of the list as it is then. -/
inductive Run : Nat → List ι → List (Turn ι) → Prop where
  | stop {i : Nat} {l : List ι} (done : l.length ≤ i) : Run i l []
  | turn {i : Nat} {l l' : List ι} {turns : List (Turn ι)} (fewer : l'.Sublist l)
      (later : Run (i + 1) l' turns) : Run i l (⟨i, l, l'⟩ :: turns)

/-- It goes while it is still ahead of the loop. -/
def GoesAhead (k : ι) (turns : List (Turn ι)) : Prop := ∃ t ∈ turns, k ∈ t.ahead ∧ k ∉ t.after

def visits [DecidableEq ι] (k : ι) (turns : List (Turn ι)) : Nat :=
  turns.countP (fun t => t.reached = some k)

section Skipping
variable {l l' : List ι}

theorem notMem_take_of_mem_drop (nodup : l.Nodup) {n : Nat} {k : ι} (h : k ∈ l.drop n) :
    k ∉ l.take n := by
  have split := nodup
  rw [← List.take_append_drop n l] at split
  exact fun front => List.disjoint_of_nodup_append split front h

section Parts
variable {front back : List ι} {n : Nat}

/-- With a gap before the place, the first of those ahead who stay takes a place before it. -/
theorem gone_of_gap (nodup : l.Nodup) (fewer : (front ++ back).Sublist l)
    (hfront : front.Sublist (l.take n)) (hback : back.Sublist (l.drop n)) (gap : front.length < n)
    (stays : ∀ k ∈ l.drop n, k ∈ front ++ back → k ∈ (front ++ back).drop n) :
    ∀ k ∈ l.drop n, k ∉ front ++ back := by
  cases back with
  | nil =>
      intro k hk hmem
      rw [List.append_nil] at hmem
      exact notMem_take_of_mem_drop nodup hk (hfront.subset hmem)
  | cons first back =>
      have here := hback.subset List.mem_cons_self
      have later := stays first here (List.mem_append_right _ List.mem_cons_self)
      have early : first ∈ (front ++ first :: back).take n := by
        rw [List.take_append, List.take_of_length_le (Nat.le_of_lt gap)]
        obtain ⟨m, hm⟩ : ∃ m, n - front.length = m + 1 := ⟨n - front.length - 1, by omega⟩
        rw [hm, List.take_succ_cons]
        exact List.mem_append_right _ List.mem_cons_self
      exact absurd early (notMem_take_of_mem_drop (fewer.nodup nodup) later)

/-- Nobody passed went, so the passed are what they were. -/
theorem passed_eq (nodup : l.Nodup) (hfront : front.Sublist (l.take n))
    (hback : back.Sublist (l.drop n)) (all : l.take n ⊆ front ++ back) : front = l.take n := by
  have kept : l.take n ⊆ front := by
    intro j hj
    rcases List.mem_append.mp (all hj) with front | back
    · exact front
    · exact absurd hj (notMem_take_of_mem_drop nodup (hback.subset back))
  exact hfront.eq_of_length_le ((nodup.sublist (List.take_sublist n l)).subperm kept).length_le

end Parts

/-- Those ahead who stay are still ahead exactly if nobody passed goes or nobody ahead stays. -/
theorem ahead_stays_iff (nodup : l.Nodup) (fewer : l'.Sublist l) (n : Nat) :
    (∀ k ∈ l.drop n, k ∈ l' → k ∈ l'.drop n) ↔
      l.take n ⊆ l' ∨ ∀ k ∈ l.drop n, k ∉ l' := by
  have whole := fewer
  rw [← List.take_append_drop n l] at whole
  obtain ⟨front, back, rfl, hfront, hback⟩ := List.sublist_append_iff.mp whole
  have short : front.length ≤ n := Nat.le_trans hfront.length_le (List.length_take_le _ _)
  constructor
  · intro stays
    rcases Nat.lt_or_eq_of_le short with gap | full
    · exact Or.inr (gone_of_gap nodup fewer hfront hback gap stays)
    · have same : front = l.take n :=
        hfront.eq_of_length_le (Nat.le_trans (List.length_take_le _ _) (Nat.le_of_eq full.symm))
      rw [← same]
      exact Or.inl (List.subset_append_left _ _)
  · rintro (all | none) k hk hmem
    · have same := passed_eq nodup hfront hback all
      have inside : n < l.length := by
        by_contra outside
        rw [List.drop_eq_nil_of_le (Nat.not_lt.mp outside)] at hk
        exact List.not_mem_nil hk
      have full : front.length = n := by rw [same, List.length_take_of_le (Nat.le_of_lt inside)]
      rw [← full, List.drop_left]
      refine (List.mem_append.mp hmem).resolve_left fun early => ?_
      exact notMem_take_of_mem_drop nodup hk (same ▸ early)
    · exact absurd hmem (none k hk)

end Skipping

section Elements
variable {i : Nat} {l : List ι} {k : ι}

theorem mem_drop_iff : k ∈ l.drop i ↔ l[i]? = some k ∨ k ∈ l.drop (i + 1) := by
  rw [List.drop_eq_getElem?_toList_append, List.mem_append, Option.mem_toList]

theorem getElem?_ne_of_mem_drop (nodup : l.Nodup) (h : k ∈ l.drop (i + 1)) : l[i]? ≠ some k := by
  intro here
  have split := nodup.sublist (List.drop_sublist i l)
  rw [List.drop_eq_getElem?_toList_append] at split
  exact List.disjoint_of_nodup_append split (by simp [here]) h

end Elements

section Run
variable [DecidableEq ι] {i : Nat} {l l' : List ι} {turns : List (Turn ι)} {k : ι}

theorem visits_cons :
    visits k (⟨i, l, l'⟩ :: turns) = visits k turns + if l[i]? = some k then 1 else 0 := by
  by_cases h : l[i]? = some k <;> simp [visits, Turn.reached, h]

omit [DecidableEq ι] in
theorem goesAhead_cons :
    GoesAhead k (⟨i, l, l'⟩ :: turns) ↔
      (k ∈ l.drop (i + 1) ∧ k ∉ l') ∨ GoesAhead k turns := by
  simp [GoesAhead, Turn.ahead]

omit [DecidableEq ι] in
theorem not_goesAhead_cons (stays : k ∈ l') (never : ¬ GoesAhead k turns) :
    ¬ GoesAhead k (⟨i, l, l'⟩ :: turns) := by
  rw [goesAhead_cons]
  rintro (⟨-, gone⟩ | goes)
  · exact gone stays
  · exact never goes

/-- What is not ahead is not reached any more, and cannot go ahead. -/
theorem Run.behind (run : Run i l turns) (h : k ∉ l.drop i) :
    visits k turns = 0 ∧ ¬ GoesAhead k turns := by
  induction run with
  | stop => exact ⟨rfl, by simp [GoesAhead]⟩
  | @turn i l l' turns fewer later ih =>
      obtain ⟨here, next⟩ := not_or.mp (mt mem_drop_iff.mpr h)
      obtain ⟨none, never⟩ := ih fun hk => next ((fewer.drop (i + 1)).subset hk)
      constructor
      · rw [visits_cons, none, if_neg here]
      · rw [goesAhead_cons]
        rintro (⟨ahead, -⟩ | goes)
        · exact next ahead
        · exact never goes

/-- Everyone ahead who does not go is reached once, exactly when every turn is orderly. -/
theorem Run.reaches_iff (run : Run i l turns) (nodup : l.Nodup) :
    (∀ k ∈ l.drop i, ¬ GoesAhead k turns → visits k turns = 1) ↔ ∀ t ∈ turns, t.Orderly := by
  induction run with
  | stop done => simp [List.drop_eq_nil_of_le done]
  | @turn i l l' turns fewer later ih =>
      have stays := ahead_stays_iff nodup fewer (i + 1)
      have rest := ih (fewer.nodup nodup)
      rw [List.forall_mem_cons, ← rest]
      change _ ↔ (l.take (i + 1) ⊆ l' ∨ ∀ k ∈ l.drop (i + 1), k ∉ l') ∧ _
      rw [← stays]
      constructor
      · intro reached
        refine ⟨fun k hk hmem => ?_, fun k hk never => ?_⟩
        · by_contra skipped
          obtain ⟨none, never⟩ := later.behind skipped
          have once := reached k (mem_drop_iff.mpr (Or.inr hk)) (not_goesAhead_cons hmem never)
          rw [visits_cons, none, if_neg (getElem?_ne_of_mem_drop nodup hk)] at once
          exact absurd once (by decide)
        · have ahead := (fewer.drop (i + 1)).subset hk
          have once := reached k (mem_drop_iff.mpr (Or.inr ahead))
            (not_goesAhead_cons (List.mem_of_mem_drop hk) never)
          rwa [visits_cons, if_neg (getElem?_ne_of_mem_drop nodup ahead)] at once
      · rintro ⟨stay, reached⟩ k hk never
        rw [goesAhead_cons, not_or] at never
        rw [visits_cons]
        rcases mem_drop_iff.mp hk with here | ahead
        · have done : k ∉ l'.drop (i + 1) := fun h =>
            getElem?_ne_of_mem_drop nodup ((fewer.drop (i + 1)).subset h) here
          rw [(later.behind done).1, if_pos here]
        · have left : k ∈ l' := by
            by_contra gone
            exact never.1 ⟨ahead, gone⟩
          rw [reached k (stay k ahead left) never.2, if_neg (getElem?_ne_of_mem_drop nodup ahead)]

end Run

end LiveList
