import Mathlib.Logic.Function.Basic

/-!
Items kept in files, where two items may share a file. A ledger says what has
to be read of an item, or nothing; it is kept when the files bear out every
entry. A change of the files and the ledger needs a second look only at the
items that it touches, and these are the items that share the files it is
about.
-/

namespace Ledger

universe u v w x
variable {Item : Type u} {Name : Type v} {Contents : Type w} {Reading : Item → Type x}

/-- The file of an item, and what is read of the item when that file is absent or has contents. -/
structure Layout (Item : Type u) (Name : Type v) (Contents : Type w) (Reading : Item → Type x) where
  name : Item → Name
  read : (item : Item) → Option Contents → Reading item

def blank : (item : Item) → Option (Reading item) := fun _ => none

/-- From now on `reading` has to be read of `item`. -/
def promise [DecidableEq Item] (ledger : (item : Item) → Option (Reading item)) (item : Item)
    (reading : Reading item) : (item : Item) → Option (Reading item) :=
  Function.update ledger item (some reading)

section Promise
variable [DecidableEq Item] (ledger : (item : Item) → Option (Reading item)) (item : Item)
variable (reading : Reading item)

@[simp] theorem promise_same : promise ledger item reading item = some reading :=
  Function.update_self ..

variable {item}

theorem promise_of_ne {other : Item} (ne : other ≠ item) :
    promise ledger item reading other = ledger other := Function.update_of_ne ne ..

end Promise

namespace Layout

variable (layout : Layout Item Name Contents Reading)
variable {ledger ledger' : (item : Item) → Option (Reading item)}
variable {files files' : Name → Option Contents}

/-- What is read of an item without a file. -/
def gone (item : Item) : Reading item := layout.read item none

/-- The chosen items have to be gone, if anything had to be read of them. -/
def revoke (chosen : Item → Prop) [DecidablePred chosen]
    (ledger : (item : Item) → Option (Reading item)) : (item : Item) → Option (Reading item) :=
  fun item => if chosen item then (ledger item).map fun _ => layout.gone item else ledger item

def Kept (ledger : (item : Item) → Option (Reading item)) (files : Name → Option Contents) :
    Prop :=
  ∀ item reading, ledger item = some reading →
    layout.read item (files (layout.name item)) = reading

theorem kept_blank (files : Name → Option Contents) : layout.Kept blank files := by
  intro item reading entry
  cases entry

variable {layout}

/-- Only an item whose entry or file has changed can break its promise. -/
theorem Kept.frame (h : layout.Kept ledger files) (touched : Item → Prop)
    (entry : ∀ item, ¬ touched item → ledger' item = ledger item)
    (file : ∀ item, ¬ touched item → files' (layout.name item) = files (layout.name item)) :
    layout.Kept ledger' files' ↔
      ∀ item, touched item → ∀ reading, ledger' item = some reading →
        layout.read item (files' (layout.name item)) = reading := by
  refine ⟨fun kept item _ => kept item, fun kept item reading promised => ?_⟩
  by_cases touch : touched item
  · exact kept item touch reading promised
  · rw [file item touch]
    rw [entry item touch] at promised
    exact h item reading promised

/-- One file is written for one item: the item must read as promised, and so must the others whose
file it is. -/
theorem Kept.write_iff [DecidableEq Item] (h : layout.Kept ledger files) (item : Item)
    (reading : Reading item) {name : Name} {contents : Contents}
    (written : files' name = some contents) (elsewhere : ∀ n, n ≠ name → files' n = files n) :
    layout.Kept (promise ledger item reading) files' ↔
      layout.read item (files' (layout.name item)) = reading ∧
        ∀ other, other ≠ item → layout.name other = name → ∀ promised,
          ledger other = some promised → layout.read other (some contents) = promised := by
  rw [h.frame fun other => other = item ∨ layout.name other = name]
  · constructor
    · intro kept
      refine ⟨kept item (.inl rfl) reading (promise_same ..), ?_⟩
      intro other ne shared promised entry
      have read := kept other (.inr shared) promised (by rw [promise_of_ne _ _ ne, entry])
      rwa [shared, written] at read
    · intro ⟨itself, rest⟩ other touched promised entry
      by_cases same : other = item
      · subst same
        rw [promise_same] at entry
        cases entry
        exact itself
      · have shared := touched.resolve_left same
        rw [promise_of_ne _ _ same] at entry
        rw [shared, written]
        exact rest other same shared promised entry
  · exact fun other untouched => promise_of_ne _ _ fun same => untouched (.inl same)
  · exact fun other untouched => elsewhere _ fun shared => untouched (.inr shared)

/-- Of one item: it has to be gone if it is chosen, and it is if its file is removed. -/
theorem Kept.remove_item_iff {removed : Name → Prop} (h : layout.Kept ledger files)
    (chosen : Item → Prop) [DecidablePred chosen] (absent : ∀ n, removed n → files' n = none)
    (elsewhere : ∀ n, ¬ removed n → files' n = files n) {item : Item} {reading : Reading item}
    (entry : ledger item = some reading) :
    (∀ promised, layout.revoke chosen ledger item = some promised →
      layout.read item (files' (layout.name item)) = promised) ↔
      (chosen item ↔ removed (layout.name item)) ∨ reading = layout.gone item := by
  have before := h item reading entry
  by_cases choice : chosen item <;> by_cases gone : removed (layout.name item)
  · simp [revoke, choice, entry, gone, absent _ gone, Layout.gone]
  · simp [revoke, choice, entry, gone, elsewhere _ gone, before]
  · simp [revoke, choice, entry, gone, absent _ gone, Layout.gone, eq_comm]
  · simp [revoke, choice, entry, gone, elsewhere _ gone, before]

/-- Files are removed for the chosen items: every item of which something has to be read is chosen
exactly if its file is removed, or it is gone already. -/
theorem Kept.remove_iff {removed : Name → Prop} (h : layout.Kept ledger files)
    (chosen : Item → Prop) [DecidablePred chosen] (absent : ∀ n, removed n → files' n = none)
    (elsewhere : ∀ n, ¬ removed n → files' n = files n) :
    layout.Kept (layout.revoke chosen ledger) files' ↔
      ∀ item reading, ledger item = some reading →
        (chosen item ↔ removed (layout.name item)) ∨ reading = layout.gone item := by
  constructor
  · intro kept item reading entry
    exact (h.remove_item_iff chosen absent elsewhere entry).mp (kept item)
  · intro agree item
    cases entry : ledger item with
    | none =>
        intro promised later
        simp [revoke, entry] at later
    | some reading =>
        exact (h.remove_item_iff chosen absent elsewhere entry).mpr (agree item reading entry)

end Layout

end Ledger
