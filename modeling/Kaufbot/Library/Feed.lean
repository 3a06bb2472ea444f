import Mathlib.Data.List.Induction

/-!
Acknowledged feeds: a server queues messages with strictly increasing numbers,
a client asks for those from an offset on, handles what it gets in order and
moves its offset past the last one. The server discards on the offset it is
asked with, whether or not its answer arrives. The invariant is that the queue
still holds everything not handled, so nothing is lost, repeated or reordered.
-/

namespace Feed

universe u
variable {α : Type u} (id : α → Int)

structure State (α : Type u) where
  arrived : List α
  queue : List α
  handled : List α
  offset : Int

def State.initial (start : Int) : State α :=
  { arrived := [], queue := [], handled := [], offset := start }

/-- One more than the number of the last message, or the initial value. -/
def nextOffset (start : Int) (handled : List α) : Int :=
  match handled.getLast? with
  | none => start
  | some last => id last + 1

/-- What the server keeps when it is asked with an offset. -/
def pending (offset : Int) (queue : List α) : List α := queue.filter (fun a => offset ≤ id a)

/-- A message arrives, the server answers in vain, or the client handles the first `k`. -/
inductive Step (start : Int) : State α → State α → Prop
  | arrive (s : State α) (a : α) (fresh : ∀ b ∈ s.arrived, id b < id a) (low : start ≤ id a) :
      Step start s { s with arrived := s.arrived ++ [a], queue := s.queue ++ [a] }
  | discard (s : State α) :
      Step start s { s with queue := pending id s.offset s.queue }
  | deliver (s : State α) (k : Nat) :
      Step start s
        { s with
          queue := pending id s.offset s.queue
          handled := s.handled ++ (pending id s.offset s.queue).take k
          offset := nextOffset id s.offset ((pending id s.offset s.queue).take k) }

/-- What was handled comes first, what was not is still queued, and the offset separates them. -/
structure Inv (start : Int) (s : State α) : Prop where
  sorted : s.arrived.Pairwise (fun a b => id a < id b)
  low : ∀ a ∈ s.arrived, start ≤ id a
  split : ∃ done rest, s.arrived = s.handled ++ rest ∧ s.queue = done ++ rest ∧ done <:+ s.handled
  offset : s.offset = nextOffset id start s.handled

/-- What a client sees of its history: the handled messages are the first that arrived, the others
are still in the queue, and the offset is right. -/
structure ExactlyOnce (start : Int) (s : State α) : Prop where
  handled : s.handled <+: s.arrived
  remaining : s.arrived.drop s.handled.length <:+ s.queue
  offset : s.offset = nextOffset id start s.handled

variable {id} {start : Int}

theorem inv_initial : Inv id start (State.initial start) where
  sorted := List.Pairwise.nil
  low := by simp [State.initial]
  split := ⟨[], [], rfl, rfl, List.nil_suffix⟩
  offset := rfl

theorem lt_nextOffset {handled : List α} (sorted : handled.Pairwise (fun a b => id a < id b))
    {a : α} (h : a ∈ handled) : id a < nextOffset id start handled := by
  induction handled using List.reverseRecOn with
  | nil => exact absurd h List.not_mem_nil
  | append_singleton init last _ =>
      simp only [nextOffset, List.getLast?_concat]
      rcases List.mem_append.mp h with hinit | hlast
      · have := (List.pairwise_append.mp sorted).2.2 a hinit last (List.mem_singleton_self _)
        omega
      · obtain rfl := List.mem_singleton.mp hlast
        omega

theorem nextOffset_le {handled rest : List α}
    (sorted : (handled ++ rest).Pairwise (fun a b => id a < id b))
    (low : ∀ a ∈ rest, start ≤ id a) {a : α} (h : a ∈ rest) :
    nextOffset id start handled ≤ id a := by
  induction handled using List.reverseRecOn with
  | nil => exact low a h
  | append_singleton init last _ =>
      simp only [nextOffset, List.getLast?_concat]
      have := (List.pairwise_append.mp sorted).2.2 last (by simp) a h
      omega

/-- The server's answer is cut from exactly what was not handled yet. -/
theorem Inv.pending_eq {s : State α} (inv : Inv id start s) {rest : List α}
    (h : s.arrived = s.handled ++ rest) : pending id s.offset s.queue = rest := by
  obtain ⟨done, rest', harrived, hqueue, hdone⟩ := inv.split
  obtain rfl : rest' = rest := List.append_cancel_left (harrived.symm.trans h)
  have sorted : (s.handled ++ rest').Pairwise (fun a b => id a < id b) := h ▸ inv.sorted
  have low : ∀ a ∈ rest', start ≤ id a := fun a ha =>
    inv.low a (by rw [h]; exact List.mem_append_right _ ha)
  have dropped : done.filter (fun a => s.offset ≤ id a) = [] := by
    apply List.filter_eq_nil_iff.mpr
    intro a ha
    have handled : id a < nextOffset id start s.handled :=
      lt_nextOffset (List.pairwise_append.mp sorted).1 (hdone.subset ha)
    rw [inv.offset]
    simpa using handled
  have kept : rest'.filter (fun a => s.offset ≤ id a) = rest' := by
    apply List.filter_eq_self.mpr
    intro a ha
    rw [inv.offset]
    simpa using nextOffset_le sorted low ha
  simp only [pending, hqueue, List.filter_append, dropped, kept, List.nil_append]

theorem nextOffset_append (handled batch : List α) :
    nextOffset id (nextOffset id start handled) batch = nextOffset id start (handled ++ batch) := by
  induction batch using List.reverseRecOn with
  | nil => simp [nextOffset]
  | append_singleton init last _ => simp [nextOffset, ← List.append_assoc]

theorem Step.inv {s s' : State α} (step : Step id start s s') (inv : Inv id start s) :
    Inv id start s' := by
  obtain ⟨done, rest, harrived, hqueue, hdone⟩ := inv.split
  have pending := inv.pending_eq harrived
  cases step with
  | arrive a fresh low =>
      refine ⟨?_, ?_, ⟨done, rest ++ [a], ?_, ?_, hdone⟩, inv.offset⟩
      · rw [List.pairwise_append]
        refine ⟨inv.sorted, List.pairwise_singleton _ _, ?_⟩
        intro b hb c hc
        obtain rfl := List.mem_singleton.mp hc
        exact fresh b hb
      · intro b hb
        rcases List.mem_append.mp hb with hold | hnew
        · exact inv.low b hold
        · obtain rfl := List.mem_singleton.mp hnew
          exact low
      · simp [harrived]
      · simp [hqueue]
  | discard =>
      exact ⟨inv.sorted, inv.low, ⟨[], rest, harrived, pending, List.nil_suffix⟩, inv.offset⟩
  | deliver k =>
      refine ⟨inv.sorted, inv.low, ⟨rest.take k, rest.drop k, ?_, ?_, ?_⟩, ?_⟩
      · simp [pending, harrived]
      · simp [pending]
      · simp [pending]
      · simp only [inv.offset, nextOffset_append]

theorem Inv.exactlyOnce {s : State α} (inv : Inv id start s) : ExactlyOnce id start s := by
  obtain ⟨done, rest, harrived, hqueue, _⟩ := inv.split
  refine ⟨⟨rest, harrived.symm⟩, ?_, inv.offset⟩
  rw [harrived, List.drop_left, hqueue]
  exact List.suffix_append _ _

end Feed
