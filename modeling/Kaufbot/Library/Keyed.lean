import Mathlib.Data.List.Forall2
import Mathlib.Data.List.Nodup
import Mathlib.Data.List.Perm.Subperm

/-!
Tables as lists of rows. A unique column is a function of the row that takes
no value twice; the statements of a database append a row, rewrite the rows a
condition selects, or filter. What each of them does to the members, to a
lookup by key and to a unique column is said here once, and what rows that
correspond one by one have in common.
-/

namespace Keyed

universe u v
variable {α : Type u} {κ : Type v}

/-- No two rows agree in the column `key`. -/
def UniqueOn (key : α → κ) (rows : List α) : Prop := (rows.map key).Nodup

/-- `UPDATE … WHERE`. -/
def updateWhere (sel : α → Bool) (f : α → α) (rows : List α) : List α :=
  rows.map (fun row => if sel row then f row else row)

theorem uniqueOn_nil (key : α → κ) : UniqueOn key [] := List.nodup_nil

theorem UniqueOn.append {key : α → κ} {rows : List α} (h : UniqueOn key rows) (row : α)
    (fresh : ∀ other ∈ rows, key other ≠ key row) : UniqueOn key (rows ++ [row]) := by
  simp only [UniqueOn, List.map_append, List.map_cons, List.map_nil]
  refine List.Nodup.append h (List.nodup_singleton _) ?_
  intro k hk hrow
  obtain ⟨other, hother, rfl⟩ := List.mem_map.mp hk
  exact fresh other hother (List.mem_singleton.mp hrow)

theorem UniqueOn.filter {key : α → κ} {rows : List α} (h : UniqueOn key rows)
    (sel : α → Bool) : UniqueOn key (rows.filter sel) :=
  List.Nodup.sublist (List.filter_sublist.map key) h

theorem map_updateWhere {key : α → κ} {sel : α → Bool} {f : α → α} (rows : List α)
    (kept : ∀ row ∈ rows, sel row = true → key (f row) = key row) :
    (updateWhere sel f rows).map key = rows.map key := by
  simp only [updateWhere, List.map_map]
  apply List.map_congr_left
  intro row hrow
  cases hs : sel row with
  | true => simp [hs, kept row hrow hs]
  | false => simp [hs]

theorem UniqueOn.updateWhere {key : α → κ} {sel : α → Bool} {f : α → α} {rows : List α}
    (h : UniqueOn key rows) (kept : ∀ row ∈ rows, sel row = true → key (f row) = key row) :
    UniqueOn key (updateWhere sel f rows) := by
  simpa only [UniqueOn, map_updateWhere rows kept] using h

theorem UniqueOn.eq_of_key_eq {key : α → κ} {rows : List α} (h : UniqueOn key rows) {a b : α}
    (ha : a ∈ rows) (hb : b ∈ rows) (heq : key a = key b) : a = b :=
  List.inj_on_of_nodup_map h ha hb heq

/-- Selecting by the key of a row selects this row. -/
theorem UniqueOn.filter_key [DecidableEq κ] {key : α → κ} {rows : List α} (h : UniqueOn key rows)
    {row : α} (mem : row ∈ rows) : rows.filter (fun other => key other = key row) = [row] := by
  induction rows with
  | nil => exact absurd mem List.not_mem_nil
  | cons first rows ih =>
      obtain ⟨fresh, rest⟩ := List.nodup_cons.mp h
      rcases List.mem_cons.mp mem with rfl | later
      · rw [List.filter_cons_of_pos (by simp), List.filter_eq_nil_iff.mpr]
        intro other there same
        exact fresh (List.mem_map.mpr ⟨other, there, of_decide_eq_true same⟩)
      · rw [List.filter_cons_of_neg, ih rest later]
        intro same
        exact fresh (List.mem_map.mpr ⟨row, later, (of_decide_eq_true same).symm⟩)

/-- A unique column has no more rows than the keys it takes its values from, … -/
theorem UniqueOn.length_le {key : α → κ} {rows : List α} (h : UniqueOn key rows) {keys : List κ}
    (inside : ∀ row ∈ rows, key row ∈ keys) : rows.length ≤ keys.length := by
  have within : rows.map key ⊆ keys := by
    intro k hk
    obtain ⟨row, hrow, rfl⟩ := List.mem_map.mp hk
    exact inside row hrow
  simpa using (List.Nodup.subperm h within).length_le

/-- … and fewer while one of them is not taken. -/
theorem UniqueOn.length_lt {key : α → κ} {rows : List α} (h : UniqueOn key rows) {keys : List κ}
    (inside : ∀ row ∈ rows, key row ∈ keys) {k : κ} (hk : k ∈ keys)
    (free : ∀ row ∈ rows, key row ≠ k) : rows.length < keys.length := by
  have distinct : (k :: rows.map key).Nodup := by
    refine List.nodup_cons.mpr ⟨fun taken => ?_, h⟩
    obtain ⟨row, hrow, heq⟩ := List.mem_map.mp taken
    exact free row hrow heq
  have within : k :: rows.map key ⊆ keys := by
    refine List.cons_subset.mpr ⟨hk, fun other hother => ?_⟩
    obtain ⟨row, hrow, rfl⟩ := List.mem_map.mp hother
    exact inside row hrow
  have counted := (distinct.subperm within).length_le
  rw [List.length_cons, List.length_map] at counted
  exact counted

theorem mem_updateWhere {sel : α → Bool} {f : α → α} {rows : List α} {row : α} :
    row ∈ updateWhere sel f rows ↔
      ∃ old ∈ rows, row = if sel old then f old else old := by
  simp only [updateWhere, List.mem_map, eq_comm]

section Positions
variable [DecidableEq κ] {key : α → κ} {rows : List α} {k : κ} {i : Nat}

/-- In a unique column only the first match is a match. -/
theorem UniqueOn.getElem_key_iff (h : UniqueOn key rows)
    (hi : rows.findIdx? (fun row => key row = k) = some i) {j : Nat} (hj : j < rows.length) :
    key rows[j] = k ↔ i = j := by
  obtain ⟨hlen, found, _⟩ := List.findIdx?_eq_some_iff_getElem.mp hi
  have found : key rows[i] = k := by simpa using found
  constructor
  · intro hkey
    refine (List.getElem?_inj (by simpa using hlen) h).mp ?_
    simp [hlen, hj, found, hkey]
  · rintro rfl
    exact found

theorem UniqueOn.modify_eq_updateWhere (h : UniqueOn key rows)
    (hi : rows.findIdx? (fun row => key row = k) = some i) (f : α → α) :
    rows.modify i f = Keyed.updateWhere (fun row => key row = k) f rows := by
  apply List.ext_getElem
  · simp [Keyed.updateWhere]
  · intro j hj hj'
    have hlen : j < rows.length := by simpa using hj
    simp [Keyed.updateWhere, List.getElem_modify, h.getElem_key_iff hi hlen]

theorem UniqueOn.eraseP_eq_filter (h : UniqueOn key rows) :
    rows.eraseP (fun row => key row = k) = rows.filter (fun row => key row ≠ k) := by
  induction rows with
  | nil => rfl
  | cons row rows ih =>
      obtain ⟨fresh, rest⟩ := List.nodup_cons.mp h
      by_cases hk : key row = k
      · have others : ∀ other ∈ rows, key other ≠ k := fun other hother heq =>
          fresh (List.mem_map.mpr ⟨other, hother, heq.trans hk.symm⟩)
        rw [List.eraseP_cons_of_pos (by simpa using hk), List.filter_cons_of_neg (by simpa using hk),
          List.filter_eq_self.mpr (fun other hother => by simpa using others other hother)]
      · rw [List.eraseP_cons_of_neg (by simpa using hk), List.filter_cons_of_pos (by simpa using hk),
          ih rest]

end Positions

section Lookup
variable [DecidableEq κ]

/-- `SELECT … WHERE key = k LIMIT 1`. -/
def lookup (key : α → κ) (k : κ) (rows : List α) : Option α :=
  rows.find? (fun row => key row = k)

theorem mem_of_lookup {key : α → κ} {k : κ} {rows : List α} {row : α}
    (h : lookup key k rows = some row) : row ∈ rows ∧ key row = k :=
  ⟨List.mem_of_find?_eq_some h, by simpa using List.find?_some h⟩

theorem lookup_eq_none {key : α → κ} {k : κ} {rows : List α} :
    lookup key k rows = none ↔ ∀ row ∈ rows, key row ≠ k := by
  simp [lookup]

/-- In a unique column a lookup finds exactly the row with the key. -/
theorem UniqueOn.lookup_eq_some {key : α → κ} {rows : List α} (h : UniqueOn key rows) {k : κ}
    {row : α} : lookup key k rows = some row ↔ row ∈ rows ∧ key row = k := by
  constructor
  · exact mem_of_lookup
  · rintro ⟨hmem, hkey⟩
    cases hl : lookup key k rows with
    | none => exact absurd hkey (lookup_eq_none.mp hl row hmem)
    | some found =>
        obtain ⟨hfound, hkfound⟩ := mem_of_lookup hl
        rw [h.eq_of_key_eq hfound hmem (hkfound.trans hkey.symm)]

theorem lookup_updateWhere {key : α → κ} {sel : α → Bool} {f : α → α} (k : κ) (rows : List α)
    (kept : ∀ row, key (f row) = key row) :
    lookup key k (updateWhere sel f rows) =
      (lookup key k rows).map (fun row => if sel row then f row else row) := by
  have column (row : α) : key (if sel row then f row else row) = key row := by
    split
    · exact kept row
    · rfl
  simp only [lookup, updateWhere, List.find?_map, Function.comp_def, column]

theorem lookup_filter {key : α → κ} {sel : α → Bool} {k : κ} {rows : List α}
    (keep : ∀ row, key row = k → sel row = true) :
    lookup key k (rows.filter sel) = lookup key k rows := by
  simp only [lookup, List.find?_filter]
  congr 1
  funext row
  by_cases hk : key row = k
  · simp [hk, keep row hk]
  · simp [hk]

/-- The rows with one key are deleted. -/
theorem lookup_filter_ne (key : α → κ) (gone k : κ) (rows : List α) :
    lookup key k (rows.filter fun row => key row ≠ gone) =
      if k = gone then none else lookup key k rows := by
  by_cases same : k = gone
  · rw [if_pos same, lookup_eq_none]
    intro row hrow
    simpa [same] using (List.mem_filter.mp hrow).2
  · rw [if_neg same]
    exact lookup_filter fun row hk => by simpa [hk] using same

theorem lookup_append {key : α → κ} {k : κ} {rows : List α} (row : α) (h : key row ≠ k) :
    lookup key k (rows ++ [row]) = lookup key k rows := by
  simp [lookup, List.find?_append, h]

end Lookup

section First
variable {key : α → κ} {f : α → α} {k k' : κ}

theorem map_modify (rows : List α) (i : Nat) (kept : ∀ row, key (f row) = key row) :
    (rows.modify i f).map key = rows.map key := by
  apply List.ext_getElem
  · simp
  · intro j hj hj'
    simp only [List.getElem_map, List.getElem_modify]
    split
    · exact kept _
    · rfl

variable [DecidableEq κ]

/-- Rewriting the first match changes what its key finds, also where the key is not unique. -/
theorem lookup_modify_first (kept : ∀ row, key (f row) = key row) (rows : List α) {i : Nat}
    (hi : rows.findIdx? (fun row => key row = k) = some i) :
    lookup key k' (rows.modify i f) =
      if k = k' then (lookup key k rows).map f else lookup key k' rows := by
  induction rows generalizing i with
  | nil => cases hi
  | cons row rows ih =>
      rw [List.findIdx?_cons] at hi
      by_cases first : key row = k
      · obtain rfl : 0 = i := by simpa [first] using hi
        by_cases same : k = k'
        · simp [lookup, kept, first, same]
        · simp [lookup, kept, first, same]
      · obtain ⟨j, hj, rfl⟩ : ∃ j, rows.findIdx? (fun row => key row = k) = some j ∧ j + 1 = i := by
          simpa [first] using hi
        by_cases here : key row = k'
        · have other : k ≠ k' := fun same => first (here.trans same.symm)
          simp [lookup, here, other]
        · have later := ih hj
          simp only [lookup] at later
          simp [lookup, here, first, later]

end First

section Corresponding
variable {β : Type v} {R : α → β → Prop} {rows : List α} {rows' : List β}

theorem forall_mem_iff_of_forall₂ {p : α → Prop} {q : β → Prop} (h : List.Forall₂ R rows rows')
    (same : ∀ a b, R a b → (p a ↔ q b)) : (∀ a ∈ rows, p a) ↔ ∀ b ∈ rows', q b := by
  induction h with
  | nil => simp
  | cons related _ ih => simp only [List.forall_mem_cons, same _ _ related, ih]

theorem lookup_forall₂ {κ' : Type} [DecidableEq κ] [DecidableEq κ'] {key : α → κ} {key' : β → κ'}
    {k : κ} {k' : κ'} (h : List.Forall₂ R rows rows')
    (same : ∀ a b, R a b → (key a = k ↔ key' b = k')) :
    Option.Rel R (lookup key k rows) (lookup key' k' rows') := by
  induction h with
  | nil => exact .none
  | @cons a b _ _ related _ ih =>
      by_cases found : key a = k
      · have found' : key' b = k' := (same a b related).mp found
        simpa [lookup, found, found'] using Option.Rel.some related
      · have passed : key' b ≠ k' := fun heq => found ((same a b related).mpr heq)
        simpa [lookup, found, passed] using ih

theorem isSome_eq_of_rel {o : Option α} {o' : Option β} (h : Option.Rel R o o') :
    o.isSome = o'.isSome := by
  cases h <;> rfl

theorem updateWhere_forall₂ {sel : α → Bool} {sel' : β → Bool} {f : α → α} {f' : β → β}
    (h : List.Forall₂ R rows rows') (same : ∀ a b, R a b → sel a = sel' b)
    (kept : ∀ a b, R a b → R (f a) (f' b)) :
    List.Forall₂ R (updateWhere sel f rows) (updateWhere sel' f' rows') := by
  refine List.rel_map (fun a b related => ?_) h
  rw [same a b related]
  split
  · exact kept a b related
  · exact related

theorem filter_forall₂ {sel : α → Bool} {sel' : β → Bool} (h : List.Forall₂ R rows rows')
    (same : ∀ a b, R a b → sel a = sel' b) :
    List.Forall₂ R (rows.filter sel) (rows'.filter sel') :=
  List.rel_filter (fun {a b} related => by simp only [same a b related]) h

end Corresponding

end Keyed
