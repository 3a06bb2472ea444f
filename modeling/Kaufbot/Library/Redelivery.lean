import Kaufbot.Library.Feed
import Mathlib.Data.List.Infix

/-!
Acknowledged feeds whose client forgets its place. A client that starts over
asks from the first offset again, and the server answers with what it has not
discarded. Each session of the client handles a run of the messages in the
order of their arrival; a later session starts no later than the one before it
ended, so nothing between them is missed, and what the server has discarded is
never handled again.
-/

namespace Redelivery

universe u
variable {α : Type u} (id : α → Int)

/-- The feed of the session that runs, and what each session before it handled. -/
structure History (α : Type u) where
  feed : Feed.State α
  past : List (List α)

namespace History

def initial (start : Int) : History α := { feed := .initial start, past := [] }

/-- Everything ever handled, oldest first. -/
def log (h : History α) : List α := h.past.flatten ++ h.feed.handled

def restart (start : Int) (h : History α) : History α where
  feed := { h.feed with handled := [], offset := start }
  past := h.past ++ [h.feed.handled]

/-- The session that runs, as a feed of the messages from position `first` on. -/
def session (h : History α) (first : Nat) : Feed.State α :=
  { h.feed with arrived := h.feed.arrived.drop first }

@[simp] theorem log_restart (start : Int) (h : History α) : (h.restart start).log = h.log := by
  simp [log, restart]

end History

inductive Step (start : Int) : History α → History α → Prop
  | feed (h : History α) {s : Feed.State α} (step : Feed.Step id start h.feed s) :
      Step start h { h with feed := s }
  | restart (h : History α) : Step start h (h.restart start)

/-- From position `first` on, each run continues at a place the one before it has reached, and the
next would start at `last`. -/
def Covered (arrived : List α) : Nat → List (List α) → Nat → Prop
  | first, [], last => first = last
  | first, run :: runs, last =>
      run <+: arrived.drop first ∧
        ∃ next, first ≤ next ∧ next ≤ first + run.length ∧ Covered arrived next runs last

section Covered
variable {arrived : List α}

theorem Covered.grow {first last : Nat} {runs : List (List α)}
    (h : Covered arrived first runs last) (more : List α) :
    Covered (arrived ++ more) first runs last := by
  induction runs generalizing first with
  | nil => exact h
  | cons run runs ih =>
      obtain ⟨hrun, next, hle, hreached, rest⟩ := h
      have grown : arrived.drop first <+: (arrived ++ more).drop first :=
        (List.prefix_append arrived more).drop first
      exact ⟨hrun.trans grown, next, hle, hreached, ih rest⟩

theorem Covered.concat {first last next : Nat} {runs : List (List α)} {run : List α}
    (h : Covered arrived first runs last) (hrun : run <+: arrived.drop last) (hle : last ≤ next)
    (hreached : next ≤ last + run.length) : Covered arrived first (runs ++ [run]) next := by
  induction runs generalizing first with
  | nil =>
      obtain rfl : first = last := h
      exact ⟨hrun, next, hle, hreached, rfl⟩
  | cons head runs ih =>
      obtain ⟨hhead, middle, hfirst, hmiddle, rest⟩ := h
      exact ⟨hhead, middle, hfirst, hmiddle, ih rest⟩

/-- Nothing between the first position and the last is missed. -/
theorem Covered.mem {first last : Nat} {runs : List (List α)}
    (h : Covered arrived first runs last) {i : Nat} {a : α} (hi : first ≤ i) (hlast : i < last)
    (ha : arrived[i]? = some a) : a ∈ runs.flatten := by
  induction runs generalizing first with
  | nil =>
      obtain rfl : first = last := h
      omega
  | cons run runs ih =>
      obtain ⟨⟨rest, hrun⟩, next, _, hreached, later⟩ := h
      rw [List.flatten_cons]
      by_cases here : i < next
      · have inside : i - first < run.length := by omega
        have found : run[i - first]? = some a := by
          have whole : (run ++ rest)[i - first]? = run[i - first]? :=
            List.getElem?_append_left inside
          rw [← whole, hrun, List.getElem?_drop, Nat.add_sub_cancel' hi]
          exact ha
        exact List.mem_append_left _ (List.mem_of_getElem? found)
      · exact List.mem_append_right _ (ih later (by omega))

end Covered

/-- The messages arrive in order, and the session that runs is a feed of those from a position on
which the sessions before it have reached. -/
structure Inv (start : Int) (h : History α) : Prop where
  sorted : h.feed.arrived.Pairwise (fun a b => id a < id b)
  low : ∀ a ∈ h.feed.arrived, start ≤ id a
  session : ∃ first ≤ h.feed.arrived.length, Feed.Inv id start (h.session first) ∧
    Covered h.feed.arrived 0 h.past first

/-- What a client sees of its history: its sessions handled runs of the messages in their order,
without a gap between them, and what none of them handled is still in the queue. -/
structure AtLeastOnce (h : History α) : Prop where
  runs : ∃ last, Covered h.feed.arrived 0 (h.past ++ [h.feed.handled]) last
  once : ∀ run ∈ h.past ++ [h.feed.handled], run.Nodup
  kept : ∀ a ∈ h.feed.arrived, a ∈ h.log ∨ a ∈ h.feed.queue

variable {id} {start : Int}

theorem inv_initial : Inv id start (History.initial start) where
  sorted := List.Pairwise.nil
  low := fun _ h => absurd h List.not_mem_nil
  session := ⟨0, Nat.zero_le _, Feed.inv_initial, rfl⟩

/-- The steps of a session do not depend on what arrived before it. -/
theorem session_step {h : History α} {s : Feed.State α} {first : Nat}
    (hfirst : first ≤ h.feed.arrived.length) (step : Feed.Step id start h.feed s) :
    ∃ more, s.arrived = h.feed.arrived ++ more ∧
      Feed.Step id start (h.session first) { s with arrived := s.arrived.drop first } := by
  cases step with
  | arrive a fresh low =>
      refine ⟨[a], rfl, ?_⟩
      have arrive := Feed.Step.arrive (h.session first) a
        (fun b hb => fresh b (List.mem_of_mem_drop hb)) low
      simpa only [History.session, List.drop_append_of_le_length hfirst] using arrive
  | discard => exact ⟨[], (List.append_nil _).symm, Feed.Step.discard (h.session first)⟩
  | deliver k => exact ⟨[], (List.append_nil _).symm, Feed.Step.deliver (h.session first) k⟩

theorem Inv.feed {h : History α} (inv : Inv id start h) {s : Feed.State α}
    (step : Feed.Step id start h.feed s) : Inv id start { h with feed := s } := by
  obtain ⟨first, hfirst, session, covered⟩ := inv.session
  obtain ⟨more, harrived, hstep⟩ := session_step hfirst step
  refine ⟨?_, ?_, first, ?_, hstep.inv session, ?_⟩
  · cases step with
    | arrive a fresh low =>
        refine List.pairwise_append.mpr ⟨inv.sorted, List.pairwise_singleton _ _, ?_⟩
        intro b hb c hc
        obtain rfl := List.mem_singleton.mp hc
        exact fresh b hb
    | discard => exact inv.sorted
    | deliver k => exact inv.sorted
  · cases step with
    | arrive a fresh low =>
        intro b hb
        rcases List.mem_append.mp hb with hold | hnew
        · exact inv.low b hold
        · obtain rfl := List.mem_singleton.mp hnew
          exact low
    | discard => exact inv.low
    | deliver k => exact inv.low
  · simp only [harrived, List.length_append]
    omega
  · simp only [harrived]
    exact covered.grow more

/-- The new session begins with what the server still has: the end of the last answer, and what
came after it. -/
theorem Inv.restart {h : History α} (inv : Inv id start h) : Inv id start (h.restart start) := by
  obtain ⟨first, hfirst, session, covered⟩ := inv.session
  obtain ⟨done, rest, harrived, hqueue, before, hbefore⟩ := session.split
  change h.feed.arrived.drop first = h.feed.handled ++ rest at harrived
  change h.feed.queue = done ++ rest at hqueue
  change before ++ done = h.feed.handled at hbefore
  have dropped : h.feed.arrived.drop (first + before.length) = h.feed.queue := by
    rw [← List.drop_drop, harrived, ← hbefore, hqueue, List.append_assoc, List.drop_left]
  have reached : first + before.length ≤ h.feed.arrived.length := by
    have := congrArg List.length harrived
    rw [← hbefore, List.length_drop, List.length_append, List.length_append] at this
    omega
  refine ⟨inv.sorted, inv.low, first + before.length, reached, ?_, ?_⟩
  · refine ⟨?_, ?_, ⟨[], h.feed.queue, dropped, rfl, List.nil_suffix⟩, rfl⟩
    · exact inv.sorted.sublist (List.drop_sublist ..)
    · exact fun a ha => inv.low a (List.mem_of_mem_drop ha)
  · refine covered.concat ?_ (Nat.le_add_right ..) ?_
    · rw [harrived]
      exact List.prefix_append ..
    · rw [← hbefore, List.length_append]
      omega

theorem Step.inv {h h' : History α} (step : Step id start h h') (inv : Inv id start h) :
    Inv id start h' := by
  cases step with
  | feed step => exact inv.feed step
  | restart => exact inv.restart

theorem nodup_of_covered {arrived : List α} (sorted : arrived.Pairwise (fun a b => id a < id b))
    {first last : Nat} {runs : List (List α)} (h : Covered arrived first runs last) :
    ∀ run ∈ runs, run.Nodup := by
  induction runs generalizing first with
  | nil => exact fun _ hrun => absurd hrun List.not_mem_nil
  | cons head runs ih =>
      obtain ⟨hhead, next, _, _, rest⟩ := h
      intro run hrun
      rcases List.mem_cons.mp hrun with rfl | hlater
      · have within := sorted.sublist (hhead.sublist.trans (List.drop_sublist ..))
        refine within.imp ?_
        rintro a _ hlt rfl
        exact absurd hlt (Int.lt_irrefl _)
      · exact ih rest run hlater

theorem Inv.atLeastOnce {h : History α} (inv : Inv id start h) : AtLeastOnce h := by
  obtain ⟨first, hfirst, session, covered⟩ := inv.session
  obtain ⟨done, rest, harrived, hqueue, _⟩ := session.split
  change h.feed.arrived.drop first = h.feed.handled ++ rest at harrived
  change h.feed.queue = done ++ rest at hqueue
  have runs : Covered h.feed.arrived 0 (h.past ++ [h.feed.handled]) first := by
    refine covered.concat ?_ (Nat.le_refl _) (Nat.le_add_right ..)
    rw [harrived]
    exact List.prefix_append ..
  refine ⟨⟨first, runs⟩, nodup_of_covered inv.sorted runs, fun a ha => ?_⟩
  rw [← List.take_append_drop first h.feed.arrived, harrived] at ha
  rcases List.mem_append.mp ha with earlier | later
  · left
    obtain ⟨i, hi⟩ := List.mem_iff_getElem?.mp earlier
    rw [List.getElem?_take] at hi
    split at hi
    · next hlt => exact List.mem_append_left _ (covered.mem (Nat.zero_le _) hlt hi)
    · cases hi
  · rcases List.mem_append.mp later with handled | waiting
    · exact Or.inl (List.mem_append_right _ handled)
    · right
      rw [hqueue]
      exact List.mem_append_right _ waiting

/-- The message has been discarded by the server; `before` is what had been handled then. -/
structure Acknowledged (a : α) (before : List α) (h : History α) : Prop where
  arrived : a ∈ h.feed.arrived
  discarded : a ∉ h.feed.queue
  since : ∃ later, h.log = before ++ later ∧ a ∉ later

theorem Acknowledged.feed {a : α} {before : List α} {h : History α} (ack : Acknowledged a before h)
    {s : Feed.State α} (step : Feed.Step id start h.feed s) :
    Acknowledged a before { h with feed := s } := by
  obtain ⟨later, hlog, hlater⟩ := ack.since
  have gone : a ∉ Feed.pending id h.feed.offset h.feed.queue := fun hmem =>
    ack.discarded (List.mem_filter.mp hmem).1
  cases step with
  | arrive b fresh low =>
      refine ⟨List.mem_append_left _ ack.arrived, fun hmem => ?_, later, hlog, hlater⟩
      rcases List.mem_append.mp hmem with hold | hnew
      · exact ack.discarded hold
      · obtain rfl := List.mem_singleton.mp hnew
        exact absurd (fresh a ack.arrived) (Int.lt_irrefl _)
  | discard => exact ⟨ack.arrived, gone, later, hlog, hlater⟩
  | deliver k =>
      refine ⟨ack.arrived, gone, later ++ (Feed.pending id h.feed.offset h.feed.queue).take k, ?_,
        fun hmem => ?_⟩
      · rw [← List.append_assoc, ← hlog, History.log, History.log, List.append_assoc]
      · rcases List.mem_append.mp hmem with hold | hnew
        · exact hlater hold
        · exact gone (List.mem_of_mem_take hnew)

/-- What the server has discarded is never handled again, however often the client starts over. -/
theorem Step.acknowledged {a : α} {before : List α} {h h' : History α}
    (step : Step id start h h') (ack : Acknowledged a before h) : Acknowledged a before h' := by
  cases step with
  | feed step => exact ack.feed step
  | restart => exact ⟨ack.arrived, ack.discarded, by simpa using ack.since⟩

end Redelivery
