import Kaufbot.Library.Keyed
import Mathlib.Data.List.Basic

/-!
Arrays of a fixed size of which the first `count` slots are in use: the linear
search, the append, the update in place, and the removal that shifts what
follows one slot down. `toList` is what such an array holds, and each operation
is the list operation of its name there. Slots at or beyond `count` keep
whatever was written to them last, unless a caller wipes them.
-/

universe u

structure Slots (α : Type u) (cap : Nat) where
  slots : Vector α cap
  count : Nat
  fits : count ≤ cap

namespace Slots
variable {α : Type u} {cap : Nat}

/-- Every slot holds `zero` and none is in use. -/
def zeroed (zero : α) : Slots α cap where
  slots := Vector.replicate cap zero
  count := 0
  fits := Nat.zero_le cap

def toList (s : Slots α cap) : List α := s.slots.toList.take s.count

def get (s : Slots α cap) (i : Fin s.count) : α := s.slots[i.castLE s.fits]

/-- The last `n` rounds of `for (i = 0; i < limit; i++) if (p(slots[i])) return i`. -/
def searchFrom (p : α → Bool) (slots : Vector α cap) (limit : Nat) (hlimit : limit ≤ cap) :
    (n : Nat) → n ≤ limit → Option (Fin limit)
  | 0, _ => none
  | n + 1, hn =>
      if p slots[limit - (n + 1)] then some ⟨limit - (n + 1), by omega⟩
      else searchFrom p slots limit hlimit n (by omega)

def search (s : Slots α cap) (p : α → Bool) : Option (Fin s.count) :=
  searchFrom p s.slots s.count s.fits s.count (Nat.le_refl _)

def push (s : Slots α cap) (x : α) (room : s.count < cap) : Slots α cap where
  slots := s.slots.set s.count x
  count := s.count + 1
  fits := room

def modify (s : Slots α cap) (i : Fin s.count) (f : α → α) : Slots α cap where
  slots := s.slots.set i.val (f (s.get i)) (Nat.lt_of_lt_of_le i.isLt s.fits)
  count := s.count
  fits := s.fits

/-- `for (j = i; j < i + n; j++) slots[j] = slots[j + 1]`. -/
def shiftDown (slots : Vector α cap) (i : Nat) : (n : Nat) → i + n < cap → Vector α cap
  | 0, _ => slots
  | n + 1, h => shiftDown (slots.set i slots[i + 1]) (i + 1) n (by omega)

def erase (s : Slots α cap) (i : Fin s.count) : Slots α cap where
  slots := shiftDown s.slots i.val (s.count - 1 - i.val) (by
    have := s.fits
    omega)
  count := s.count - 1
  fits := Nat.le_trans (Nat.sub_le _ _) s.fits

theorem count_erase_lt (s : Slots α cap) (i : Fin s.count) : (s.erase i).count < cap := by
  have := i.isLt
  have := s.fits
  simp only [erase]
  omega

/-- Overwrite the first slot that is not in use. -/
def wipe (s : Slots α cap) (zero : α) (room : s.count < cap) : Slots α cap where
  slots := s.slots.set s.count zero
  count := s.count
  fits := s.fits

/-- `if (count < cap) slots[count++] = x`. -/
def offer (s : Slots α cap) (x : α) : Slots α cap :=
  if room : s.count < cap then s.push x room else s

/-- Forget all elements; the slots keep their contents. -/
def clear (s : Slots α cap) : Slots α cap := { s with count := 0, fits := Nat.zero_le cap }

def findFirst (s : Slots α cap) (p : α → Bool) : Option α := (s.search p).map s.get

def modifyFirst (s : Slots α cap) (p : α → Bool) (f : α → α) : Option (Slots α cap) :=
  (s.search p).map (fun i => s.modify i f)

def eraseFirst (s : Slots α cap) (p : α → Bool) : Option (Slots α cap) :=
  (s.search p).map s.erase

/-- Every slot that is not in use holds `zero`. -/
def Vacant (zero : α) (s : Slots α cap) : Prop :=
  ∀ (j : Nat) (h : j < cap), s.count ≤ j → s.slots[j] = zero

section Basic
variable (s : Slots α cap)

@[simp] theorem length_toList : s.toList.length = s.count := by
  simp [toList, s.fits]

theorem getElem_toList {i : Nat} (h : i < s.toList.length) :
    s.toList[i] = s.get ⟨i, by simpa using h⟩ := by
  simp [toList, get]

theorem getElem_toList_slots {i : Nat} (h : i < s.toList.length) (hcap : i < cap) :
    s.toList[i] = s.slots[i] := by
  simp [toList]

theorem getElem?_toList (i : Fin s.count) : s.toList[i.val]? = some (s.get i) := by
  have h : i.val < s.toList.length := by simp
  rw [List.getElem?_eq_getElem h, getElem_toList]

@[simp] theorem toList_zeroed (zero : α) : (zeroed zero : Slots α cap).toList = [] := rfl

@[simp] theorem toList_clear : s.clear.toList = [] := rfl

theorem toList_push (x : α) (room : s.count < cap) : (s.push x room).toList = s.toList ++ [x] := by
  have unchanged : (s.slots.toList.take s.count).set s.count x = s.slots.toList.take s.count :=
    List.set_eq_of_length_le (List.length_take_le _ _)
  simp [toList, push, Vector.toList_set, List.take_set, List.take_add_one, room, unchanged]

theorem toList_offer {x : α} (room : s.count < cap) : (s.offer x).toList = s.toList ++ [x] := by
  rw [offer, dif_pos room, toList_push]

theorem count_offer {x : α} (room : s.count < cap) : (s.offer x).count = s.count + 1 := by
  rw [← length_toList, toList_offer s room, List.length_append, length_toList]
  rfl

/-- A loop that offers elements keeps those there is room for. -/
theorem toList_foldl_offer_take (xs : List α) :
    (xs.foldl offer s).toList = s.toList ++ xs.take (cap - s.count) := by
  induction xs generalizing s with
  | nil => simp
  | cons x xs ih =>
      rw [List.foldl_cons, ih]
      by_cases room : s.count < cap
      · obtain ⟨left, hleft⟩ : ∃ left, cap - s.count = left + 1 := ⟨cap - s.count - 1, by omega⟩
        rw [toList_offer s room, count_offer s room, hleft, List.take_succ_cons, List.append_assoc,
          List.singleton_append, show cap - (s.count + 1) = left by omega]
      · have full : cap - s.count = 0 := by omega
        rw [offer, dif_neg room, full, List.take_zero, List.take_zero]

theorem toList_foldl_offer (xs : List α) (room : s.count + xs.length ≤ cap) :
    (xs.foldl offer s).toList = s.toList ++ xs := by
  rw [toList_foldl_offer_take, List.take_of_length_le (by omega)]

theorem toList_wipe (zero : α) (room : s.count < cap) : (s.wipe zero room).toList = s.toList := by
  simp only [toList, wipe, Vector.toList_set, List.take_set]
  exact List.set_eq_of_length_le (List.length_take_le _ _)

theorem toList_modify (i : Fin s.count) (f : α → α) :
    (s.modify i f).toList = s.toList.modify i.val f := by
  apply List.ext_getElem
  · simp [modify]
  · intro j h h'
    have hj : j < cap := Nat.lt_of_lt_of_le (by simpa [modify] using h) s.fits
    rw [getElem_toList_slots _ h hj, List.getElem_modify, getElem_toList_slots _ _ hj]
    simp only [modify, Vector.getElem_set, get, Fin.getElem_fin, Fin.val_castLE]
    split
    · next heq => simp only [heq]
    · rfl

end Basic

section Search
variable {p : α → Bool} {slots : Vector α cap} {limit : Nat} {hlimit : limit ≤ cap}

theorem searchFrom_eq_none {n : Nat} {hn : n ≤ limit}
    (h : searchFrom p slots limit hlimit n hn = none) (j : Nat) (hj : j < limit)
    (hstart : limit - n ≤ j) : p slots[j] = false := by
  induction n with
  | zero => omega
  | succ n ih =>
      simp only [searchFrom] at h
      split at h
      · cases h
      · next hp =>
          by_cases heq : j = limit - (n + 1)
          · subst heq
            simpa using hp
          · exact ih h (by omega)

theorem searchFrom_eq_some {n : Nat} {hn : n ≤ limit} {i : Fin limit}
    (h : searchFrom p slots limit hlimit n hn = some i) :
    p slots[i.val] = true ∧ ∀ j (hj : j < i.val), limit - n ≤ j → p slots[j] = false := by
  induction n with
  | zero => cases h
  | succ n ih =>
      simp only [searchFrom] at h
      split at h
      · next hp =>
          cases h
          exact ⟨hp, fun j hj hstart => absurd hj (Nat.not_lt.mpr hstart)⟩
      · next hp =>
          obtain ⟨found, before⟩ := ih h
          refine ⟨found, fun j hj hstart => ?_⟩
          by_cases heq : j = limit - (n + 1)
          · subst heq
            simpa using hp
          · exact before j hj (by omega)

/-- The search loop stops at the first element of the list that meets the condition. -/
theorem search_val (s : Slots α cap) (p : α → Bool) :
    (s.search p).map Fin.val = s.toList.findIdx? p := by
  cases h : s.search p with
  | none =>
      symm
      simp only [Option.map_none, List.findIdx?_eq_none_iff]
      intro x hx
      obtain ⟨j, hj, rfl⟩ := List.mem_iff_getElem.mp hx
      rw [getElem_toList]
      exact searchFrom_eq_none h j (by simpa using hj) (by omega)
  | some i =>
      symm
      obtain ⟨found, before⟩ := searchFrom_eq_some h
      simp only [Option.map_some, List.findIdx?_eq_some_iff_getElem]
      refine ⟨by simp, ?_, fun j hj => ?_⟩
      · rw [getElem_toList]
        exact found
      · rw [getElem_toList]
        simpa [get] using before j hj (by omega)

theorem search_isSome (s : Slots α cap) (p : α → Bool) :
    (s.search p).isSome = s.toList.any p := by
  rw [← List.findIdx?_isSome, ← search_val, Option.isSome_map]

theorem findFirst_eq (s : Slots α cap) (p : α → Bool) : s.findFirst p = s.toList.find? p := by
  have index := s.search_val p
  rw [findFirst]
  cases h : s.search p with
  | none =>
      rw [h, Option.map_none, eq_comm, List.findIdx?_eq_none_iff] at index
      rw [Option.map_none, eq_comm, List.find?_eq_none]
      simpa using index
  | some i =>
      rw [h, Option.map_some, eq_comm, List.findIdx?_eq_some_iff_getElem] at index
      obtain ⟨hi, found, before⟩ := index
      rw [Option.map_some, eq_comm, List.find?_eq_some_iff_getElem]
      refine ⟨by simpa [getElem_toList] using found, i.val, hi, by rw [getElem_toList], ?_⟩
      simpa using before

end Search

section Erase

theorem getElem_shiftDown (slots : Vector α cap) (i n : Nat) (h : i + n < cap) (k : Nat)
    (hk : k < cap) :
    (shiftDown slots i n h)[k] =
      if h' : i ≤ k ∧ k < i + n then slots[k + 1] else slots[k] := by
  induction n generalizing slots i with
  | zero =>
      rw [dif_neg (by omega)]
      rfl
  | succ n ih =>
      rw [shiftDown, ih]
      by_cases hfirst : k = i
      · subst hfirst
        rw [dif_neg (by omega), dif_pos (by omega), Vector.getElem_set_self]
      · by_cases hin : i ≤ k ∧ k < i + (n + 1)
        · rw [dif_pos (by omega), dif_pos hin, Vector.getElem_set_ne _ _ (by omega)]
        · rw [dif_neg (by omega), dif_neg hin, Vector.getElem_set_ne _ _ (by omega)]

theorem toList_erase (s : Slots α cap) (i : Fin s.count) :
    (s.erase i).toList = s.toList.eraseIdx i.val := by
  have hi := i.isLt
  apply List.ext_getElem
  · simp [erase, List.length_eraseIdx]
  · intro j h h'
    have hj : j < s.count - 1 := by simpa [erase] using h
    have hcap : j + 1 < cap := by
      have := s.fits
      omega
    rw [getElem_toList_slots _ h (by omega), List.getElem_eraseIdx]
    simp only [erase, getElem_shiftDown]
    by_cases hlt : j < i.val
    · rw [dif_neg (by omega), dif_pos hlt, getElem_toList_slots]
    · rw [dif_pos (by omega), dif_neg hlt, getElem_toList_slots]

theorem vacant_zeroed (zero : α) : Vacant zero (zeroed zero : Slots α cap) :=
  fun _ h _ => Vector.getElem_replicate h

theorem Vacant.push {zero : α} {s : Slots α cap} (h : Vacant zero s) (x : α)
    (room : s.count < cap) : Vacant zero (s.push x room) := by
  intro j hj hcount
  change s.count + 1 ≤ j at hcount
  simp only [Slots.push]
  rw [Vector.getElem_set_ne _ _ (by omega)]
  exact h j hj (by omega)

/-- After a removal only the slot it vacates has to be wiped. -/
theorem Vacant.erase_wipe {zero : α} {s : Slots α cap} (h : Vacant zero s) (i : Fin s.count) :
    Vacant zero ((s.erase i).wipe zero (s.count_erase_lt i)) := by
  intro j hj hcount
  change s.count - 1 ≤ j at hcount
  have hi := i.isLt
  simp only [wipe, erase, Vector.getElem_set, getElem_shiftDown]
  split
  · rfl
  · rw [dif_neg (by omega)]
    exact h j hj (by omega)

/-- Removing the first match shifts the rest down and loses nothing else. -/
theorem toList_erase_search {s : Slots α cap} {p : α → Bool} {i : Fin s.count}
    (h : s.search p = some i) : (s.erase i).toList = s.toList.eraseP p := by
  have index := s.search_val p
  rw [h, Option.map_some] at index
  rw [toList_erase, List.eraseP_eq_eraseIdx, ← index]

theorem eraseFirst_eq_some {s s' : Slots α cap} {p : α → Bool} (h : s.eraseFirst p = some s') :
    s'.toList = s.toList.eraseP p := by
  obtain ⟨i, hi, rfl⟩ := Option.map_eq_some_iff.mp h
  exact toList_erase_search hi

theorem eraseFirst_isSome (s : Slots α cap) (p : α → Bool) :
    (s.eraseFirst p).isSome = s.toList.any p := by
  rw [eraseFirst, Option.isSome_map, search_isSome]

end Erase

section Keys
variable {κ : Type u} [DecidableEq κ] {key : α → κ} {k : κ} {s s' : Slots α cap}

theorem modifyFirst_isSome (s : Slots α cap) (p : α → Bool) (f : α → α) :
    (s.modifyFirst p f).isSome = s.toList.any p := by
  rw [modifyFirst, Option.isSome_map, search_isSome]

/-- The search loop is the lookup by key. -/
theorem lookup_toList (s : Slots α cap) (key : α → κ) (k : κ) :
    Keyed.lookup key k s.toList = (s.search (fun x => key x = k)).map s.get :=
  (s.findFirst_eq _).symm

/-- With a unique key the first match is the only one. -/
theorem toList_modify_search (unique : Keyed.UniqueOn key s.toList) {i : Fin s.count}
    (h : s.search (fun x => key x = k) = some i) (f : α → α) :
    (s.modify i f).toList = Keyed.updateWhere (fun x => key x = k) f s.toList := by
  have index := s.search_val (fun x => decide (key x = k))
  rw [h, Option.map_some] at index
  rw [toList_modify, unique.modify_eq_updateWhere index.symm]

theorem toList_modifyFirst (unique : Keyed.UniqueOn key s.toList) {f : α → α}
    (h : s.modifyFirst (fun x => key x = k) f = some s') :
    s'.toList = Keyed.updateWhere (fun x => key x = k) f s.toList := by
  obtain ⟨i, hi, rfl⟩ := Option.map_eq_some_iff.mp h
  exact toList_modify_search unique hi f

theorem toList_eraseFirst (unique : Keyed.UniqueOn key s.toList)
    (h : s.eraseFirst (fun x => key x = k) = some s') :
    s'.toList = s.toList.filter (fun x => key x ≠ k) := by
  rw [eraseFirst_eq_some h, unique.eraseP_eq_filter]

end Keys

section Visit

/-- `for (i = count - 1; i >= 0 && visited < max; i--)`: the elements the loop visits, when `i`
of them are left and `visited` have been seen. -/
def visitDown (s : Slots α cap) (max : Nat) : (i : Nat) → i ≤ s.count → (visited : Nat) → List α
  | 0, _, _ => []
  | i + 1, h, visited =>
      if visited < max then s.get ⟨i, h⟩ :: visitDown s max i (by omega) (visited + 1) else []

theorem visitDown_eq (s : Slots α cap) (max i visited : Nat) (h : i ≤ s.count) :
    s.visitDown max i h visited = (s.toList.take i).reverse.take (max - visited) := by
  induction i generalizing visited with
  | zero => simp [visitDown]
  | succ i ih =>
      have last : s.toList.take (i + 1) = s.toList.take i ++ [s.get ⟨i, h⟩] := by
        rw [List.take_add_one, getElem?_toList s ⟨i, h⟩]
        rfl
      rw [visitDown, last, List.reverse_append, List.reverse_singleton, List.singleton_append]
      split
      · next room =>
          obtain ⟨left, hleft⟩ : ∃ left, max - visited = left + 1 := ⟨max - visited - 1, by omega⟩
          rw [hleft, List.take_succ_cons, ih]
          congr 2
          omega
      · next full => rw [show max - visited = 0 by omega, List.take_zero]

end Visit

end Slots
