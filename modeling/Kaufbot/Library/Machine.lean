import Kaufbot.Library.Runs

/-!
Step functions that answer: what a run returns at every step, when two machines
return the same, and what it takes of each step for a property of states and
answers to hold all along a run. Two machines that are compared run as one
machine whose answers are pairs.
-/

namespace Machine

open Runs

universe u v w x y
variable {State : Type u} {State' : Type v} {Op : Type w} {Out : Type x} {Out' : Type y}

def next (step : State → Op → State × Out) (s : State) (op : Op) : State := (step s op).1

/-- The answers of a run. -/
def trace (step : State → Op → State × Out) : State → List Op → List Out
  | _, [] => []
  | s, op :: ops => (step s op).2 :: trace step (step s op).1 ops

theorem trace_append (step : State → Op → State × Out) (s : State) (ops later : List Op) :
    trace step s (ops ++ later) = trace step s ops ++ trace step (run (next step) s ops) later := by
  induction ops generalizing s with
  | nil => rfl
  | cons op ops ih => exact congrArg _ (ih (step s op).1)

/-- `Q` holds of the answer of every step and the state the step leaves. -/
def EveryStep (step : State → Op → State × Out) (Q : State → Out → Prop) :
    State → List Op → Prop
  | _, [] => True
  | s, op :: ops => Q (step s op).1 (step s op).2 ∧ EveryStep step Q (step s op).1 ops

/-- Both machines take the same operation. -/
def pair (step : State → Op → State × Out) (step' : State' → Op → State' × Out')
    (s : State × State') (op : Op) : (State × State') × (Out × Out') :=
  (((step s.1 op).1, (step' s.2 op).1), ((step s.1 op).2, (step' s.2 op).2))

/-- A relation that every step keeps while the answers agree makes the runs agree. -/
theorem simulation {step : State → Op → State × Out} {step' : State' → Op → State' × Out}
    {R : State → State' → Prop} (Good : Op → Prop)
    (sim : ∀ s t op, Good op → R s t →
      (step s op).2 = (step' t op).2 ∧ R (step s op).1 (step' t op).1)
    {s : State} {t : State'} (ops : List Op) (good : ∀ op ∈ ops, Good op) (h : R s t) :
    trace step s ops = trace step' t ops ∧
      R (run (next step) s ops) (run (next step') t ops) := by
  induction ops generalizing s t with
  | nil => exact ⟨rfl, h⟩
  | cons op ops ih =>
      obtain ⟨same, related⟩ := sim s t op (good op List.mem_cons_self) h
      obtain ⟨later, last⟩ := ih (fun op hop => good op (List.mem_cons_of_mem _ hop)) related
      exact ⟨by rw [trace, trace, same, later], last⟩

/-- The same when the guard is about the states the machines have reached. -/
theorem trace_eq_of_guarded {step : State → Op → State × Out} {step' : State' → Op → State' × Out}
    {ok : State × State' → Op → Prop} (R : State × State' → Prop) (Good : Op → Prop)
    (sim : ∀ s op, Good op → R s → ok s op →
      (step s.1 op).2 = (step' s.2 op).2 ∧ R (next (pair step step') s op))
    {s : State × State'} (ops : List Op) (good : ∀ op ∈ ops, Good op) (h : R s)
    (guarded : Guarded (next (pair step step')) ok s ops) :
    trace step s.1 ops = trace step' s.2 ops := by
  induction ops generalizing s with
  | nil => rfl
  | cons op ops ih =>
      obtain ⟨here, later⟩ := guarded
      obtain ⟨same, related⟩ := sim s op (good op List.mem_cons_self) h here
      rw [trace, trace, same]
      exact congrArg _ (ih (fun op hop => good op (List.mem_cons_of_mem _ hop)) related later)

/-- A guard that is enough for every step is enough for whole runs. -/
theorem everyStep_of_guarded {step : State → Op → State × Out} {Q : State → Out → Prop}
    {ok : State → Op → Prop} (Inv : State → Prop) (Good : Op → Prop)
    (kept : ∀ s op, Good op → Inv s → ok s op → Inv (step s op).1 ∧ Q (step s op).1 (step s op).2)
    {s : State} (ops : List Op) (good : ∀ op ∈ ops, Good op) (h : Inv s)
    (guarded : Guarded (next step) ok s ops) : EveryStep step Q s ops := by
  induction ops generalizing s with
  | nil => trivial
  | cons op ops ih =>
      obtain ⟨here, later⟩ := guarded
      obtain ⟨after, answered⟩ := kept s op (good op List.mem_cons_self) h here
      exact ⟨answered, ih (fun op hop => good op (List.mem_cons_of_mem _ hop)) after later⟩

/-- When the guard decides each step exactly, it decides whole runs exactly. -/
theorem everyStep_iff_guarded {step : State → Op → State × Out} {Q : State → Out → Prop}
    {ok : State → Op → Prop} (Inv : State → Prop) (Good : Op → Prop)
    (kept : ∀ s op, Good op → Inv s → ok s op → Inv (step s op).1)
    (exact : ∀ s op, Good op → Inv s → (Q (step s op).1 (step s op).2 ↔ ok s op))
    {s : State} (ops : List Op) (good : ∀ op ∈ ops, Good op) (h : Inv s) :
    EveryStep step Q s ops ↔ Guarded (next step) ok s ops := by
  induction ops generalizing s with
  | nil => exact Iff.rfl
  | cons op ops ih =>
      have hgood := good op List.mem_cons_self
      simp only [EveryStep, Guarded, exact s op hgood h]
      refine and_congr_right fun hok => ?_
      exact ih (fun op hop => good op (List.mem_cons_of_mem _ hop)) (kept s op hgood h hok)

section Isolation
variable {step : State → Op → State × Out} {keep : Op → Bool} {kept : Out → Bool}

/-- The answers to some operations are those of a run of these alone, when the others change
nothing. -/
theorem trace_filter (answers : ∀ s op, kept (step s op).2 = keep op)
    (noop : ∀ s op, keep op = false → (step s op).1 = s) (s : State) (ops : List Op) :
    (trace step s ops).filter kept = trace step s (ops.filter keep) := by
  induction ops generalizing s with
  | nil => rfl
  | cons op ops ih =>
      simp only [trace, List.filter_cons, answers]
      cases hkeep : keep op with
      | true => simp [trace, ih]
      | false => simp [ih, noop s op hkeep]

/-- Answers that do not depend on the state are the same in every run. -/
theorem trace_filter_stateless {answer : Op → Out} (answers : ∀ s op, kept (step s op).2 = keep op)
    (stateless : ∀ s op, keep op = true → (step s op).2 = answer op) (s : State)
    (ops : List Op) : (trace step s ops).filter kept = (ops.filter keep).map answer := by
  induction ops generalizing s with
  | nil => rfl
  | cons op ops ih =>
      simp only [trace, List.filter_cons, answers]
      cases hkeep : keep op with
      | true => simp [ih, stateless s op hkeep]
      | false => simp [ih]

end Isolation

end Machine
