import Mathlib.Data.List.Basic

/-!
Runs of a deterministic step function over a list of operations: what holds of
every state a run passes through, what it takes of each step, and when a kind
of operation can be deleted from a run without a trace. An operation carries
the outcomes of whatever it asks of its surroundings, so a deterministic step
covers every interleaving and every failure pattern.
-/

namespace Runs

universe u v w x
variable {State : Type u} {Op : Type v}

def run (step : State → Op → State) (s : State) (ops : List Op) : State :=
  ops.foldl step s

/-- `P` holds of every state of the run, the first and the last included. -/
def Always (step : State → Op → State) (P : State → Prop) : State → List Op → Prop
  | s, [] => P s
  | s, op :: ops => P s ∧ Always step P (step s op) ops

/-- Every operation meets `ok` in the state it is applied to. -/
def Guarded (step : State → Op → State) (ok : State → Op → Prop) : State → List Op → Prop
  | _, [] => True
  | s, op :: ops => ok s op ∧ Guarded step ok (step s op) ops

@[simp] theorem run_nil (step : State → Op → State) (s : State) : run step s [] = s := rfl

@[simp] theorem run_cons (step : State → Op → State) (s : State) (op : Op) (ops : List Op) :
    run step s (op :: ops) = run step (step s op) ops := rfl

theorem always_iff_prefixes (step : State → Op → State) (P : State → Prop) (s : State)
    (ops : List Op) : Always step P s ops ↔ ∀ pre, pre <+: ops → P (run step s pre) := by
  induction ops generalizing s with
  | nil => simp [Always]
  | cons op ops ih =>
      simp only [Always, ih]
      constructor
      · rintro ⟨here, later⟩ pre hpre
        cases pre with
        | nil => exact here
        | cons first pre =>
            obtain ⟨rfl, hrest⟩ := List.cons_prefix_cons.mp hpre
            exact later pre hrest
      · intro h
        refine ⟨h [] List.nil_prefix, ?_⟩
        intro pre hpre
        exact h (op :: pre) (List.cons_prefix_cons.mpr ⟨rfl, hpre⟩)

/-- What every good step preserves, a run of good steps preserves. -/
theorem run_invariant {step : State → Op → State} {Inv : State → Prop} {Good : Op → Prop}
    (kept : ∀ s op, Good op → Inv s → Inv (step s op)) (s : State) (ops : List Op)
    (good : ∀ op ∈ ops, Good op) (h : Inv s) : Inv (run step s ops) := by
  induction ops generalizing s with
  | nil => exact h
  | cons op ops ih =>
      have next := kept s op (good op List.mem_cons_self) h
      exact ih (step s op) (fun op hop => good op (List.mem_cons_of_mem _ hop)) next

/-- An invariant of every step that meets its guard holds all along a guarded run. -/
theorem always_of_guarded {step : State → Op → State} (Inv : State → Prop) {P : State → Prop}
    {ok : State → Op → Prop}
    (kept : ∀ s op, Inv s → ok s op → Inv (step s op)) (sound : ∀ s, Inv s → P s)
    (s : State) (ops : List Op) (h : Inv s) (guarded : Guarded step ok s ops) :
    Always step P s ops := by
  induction ops generalizing s with
  | nil => exact sound s h
  | cons op ops ih =>
      exact ⟨sound s h, ih (step s op) (kept s op h guarded.1) guarded.2⟩

/-- When the guard decides each admissible step exactly, it decides whole runs exactly. -/
theorem always_iff_guarded {step : State → Op → State} (Inv : State → Prop) {P : State → Prop}
    {ok : State → Op → Prop} (Good : Op → Prop)
    (kept : ∀ s op, Inv s → Inv (step s op))
    (exact : ∀ s op, Good op → Inv s → P s → (P (step s op) ↔ ok s op))
    (s : State) (ops : List Op) (good : ∀ op ∈ ops, Good op) (h : Inv s) (start : P s) :
    Always step P s ops ↔ Guarded step ok s ops := by
  induction ops generalizing s with
  | nil => simp [Always, Guarded, start]
  | cons op ops ih =>
      have hstep := exact s op (good op List.mem_cons_self) h start
      have ih (s : State) (h : Inv s) (start : P s) :=
        ih s (fun op hop => good op (List.mem_cons_of_mem _ hop)) h start
      simp only [Always, Guarded]
      constructor
      · rintro ⟨_, later⟩
        have next : P (step s op) := by
          cases ops with
          | nil => exact later
          | cons _ _ => exact later.1
        exact ⟨hstep.mp next, (ih (step s op) (kept s op h) next).mp later⟩
      · rintro ⟨here, later⟩
        have next : P (step s op) := hstep.mpr here
        exact ⟨start, (ih (step s op) (kept s op h) next).mpr later⟩

/-- A guard that decides a property of each step exactly decides it for whole runs. -/
theorem guarded_iff_guarded {step : State → Op → State} (Inv : State → Prop)
    {P ok : State → Op → Prop} (kept : ∀ s op, Inv s → ok s op → Inv (step s op))
    (exact : ∀ s op, Inv s → (P s op ↔ ok s op)) {s : State} (ops : List Op) (h : Inv s) :
    Guarded step P s ops ↔ Guarded step ok s ops := by
  induction ops generalizing s with
  | nil => exact Iff.rfl
  | cons op ops ih =>
      simp only [Guarded, exact s op h]
      exact and_congr_right fun hok => ih (kept s op h hok)

/-- Operations that never change the state can be deleted from a run. -/
theorem run_filter_of_noop {step : State → Op → State} {keep : Op → Bool}
    (noop : ∀ s op, keep op = false → step s op = s) (s : State) (ops : List Op) :
    run step s (ops.filter keep) = run step s ops := by
  induction ops generalizing s with
  | nil => rfl
  | cons op ops ih =>
      cases hk : keep op with
      | true => simp [hk, ih]
      | false => simp [hk, ih, noop s op hk]

/-- A machine refines another when each of its operations is matched by one of the other, or by
none; its runs are then matched by the runs of what is left of them. -/
theorem run_refines {State' : Type w} {Op' : Type x} {step : State → Op → State}
    {step' : State' → Op' → State'} {abs : Op → Option Op'} {R : State → State' → Prop}
    (refines : ∀ s t op, R s t →
      R (step s op) ((abs op).elim t (step' t))) (ops : List Op) {s : State} {t : State'}
    (h : R s t) : R (run step s ops) (run step' t (ops.filterMap abs)) := by
  induction ops generalizing s t with
  | nil => exact h
  | cons op ops ih =>
      have next := refines s t op h
      cases hop : abs op with
      | none =>
          rw [List.filterMap_cons_none hop]
          exact ih (by simpa [hop] using next)
      | some op' =>
          rw [List.filterMap_cons_some hop]
          exact ih (by simpa [hop] using next)

end Runs
