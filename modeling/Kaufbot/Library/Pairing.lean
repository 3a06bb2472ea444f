import Mathlib.Data.List.Nodup

/-!
One-to-one relations that grow. Two machines that hand out identifiers of their
own are compared up to a renaming: the pairs handed out so far, no identifier
of either side twice. Two identifiers name the same when they are a pair, and
also when neither machine knows its own.
-/

universe u v

structure Pairing (α : Type u) (β : Type v) where
  pairs : List (α × β)
  left : (pairs.map Prod.fst).Nodup
  right : (pairs.map Prod.snd).Nodup

namespace Pairing

variable {α : Type u} {β : Type v}

def empty : Pairing α β := ⟨[], List.nodup_nil, List.nodup_nil⟩

def Rel (p : Pairing α β) (a : α) (b : β) : Prop := (a, b) ∈ p.pairs

/-- A pair of which either half is taken is not added. -/
def extend [DecidableEq α] [DecidableEq β] (p : Pairing α β) (a : α) (b : β) : Pairing α β :=
  if h : a ∉ p.pairs.map Prod.fst ∧ b ∉ p.pairs.map Prod.snd then
    ⟨(a, b) :: p.pairs, List.nodup_cons.mpr ⟨h.1, p.left⟩, List.nodup_cons.mpr ⟨h.2, p.right⟩⟩
  else p

/-- A pair, or two identifiers that were never handed out. -/
def Names (p : Pairing α β) (a : α) (b : β) : Prop :=
  p.Rel a b ∨ (∀ b', ¬ p.Rel a b') ∧ ∀ a', ¬ p.Rel a' b

variable {p : Pairing α β} {a a' : α} {b b' : β}

@[simp] theorem not_rel_empty : ¬ (empty : Pairing α β).Rel a b := List.not_mem_nil

theorem Rel.eq_right (h : p.Rel a b) (h' : p.Rel a b') : b = b' :=
  congrArg Prod.snd (List.inj_on_of_nodup_map p.left h h' rfl)

theorem Rel.eq_left (h : p.Rel a b) (h' : p.Rel a' b) : a = a' :=
  congrArg Prod.fst (List.inj_on_of_nodup_map p.right h h' rfl)

/-- Identifiers that name the same are met on one side exactly when they are on the other. -/
theorem Rel.eq_iff (h : p.Rel a b) (names : p.Names a' b') : a = a' ↔ b = b' := by
  rcases names with h' | ⟨unknown, unknown'⟩
  · constructor
    · rintro rfl
      exact h.eq_right h'
    · rintro rfl
      exact h.eq_left h'
  · constructor
    · rintro rfl
      exact absurd h (unknown b)
    · rintro rfl
      exact absurd h (unknown' a)

section Extend
variable [DecidableEq α] [DecidableEq β]

theorem rel_extend (left : ∀ b', ¬ p.Rel a b') (right : ∀ a', ¬ p.Rel a' b) {c : α} {d : β} :
    (p.extend a b).Rel c d ↔ c = a ∧ d = b ∨ p.Rel c d := by
  have fresh : a ∉ p.pairs.map Prod.fst ∧ b ∉ p.pairs.map Prod.snd := by
    constructor
    · intro h
      obtain ⟨⟨_, b'⟩, hmem, rfl⟩ := List.mem_map.mp h
      exact left b' hmem
    · intro h
      obtain ⟨⟨a', _⟩, hmem, rfl⟩ := List.mem_map.mp h
      exact right a' hmem
  rw [Pairing.extend, dif_pos fresh]
  simp [Rel]

theorem extend_of_rel (h : p.Rel a b) : p.extend a b = p := by
  rw [Pairing.extend, dif_neg]
  exact fun fresh => fresh.1 (List.mem_map_of_mem h)

/-- Two identifiers that name the same are a pair after they are added, and nothing else is new. -/
theorem Names.rel_extend (names : p.Names a b) {c : α} {d : β} :
    (p.extend a b).Rel c d ↔ c = a ∧ d = b ∨ p.Rel c d := by
  rcases names with known | ⟨left, right⟩
  · rw [extend_of_rel known]
    refine ⟨Or.inr, ?_⟩
    rintro (⟨rfl, rfl⟩ | old)
    · exact known
    · exact old
  · exact Pairing.rel_extend left right

end Extend

end Pairing
