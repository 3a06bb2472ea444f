import Kaufbot.Library.Redelivery
import Kaufbot.Telegram.Bot

/-!
The poll loop over the lifetimes of several processes. A process that ends,
by a signal between two passes or killed in the middle of one, takes its offset
with it; the next one asks from 0 again and gets what the server has not
discarded. Every update is dispatched at least once, and at most once after the
server has seen that it was.
-/

namespace Kaufbot

open CString

/-- The process that runs with its server, and what each process before it dispatched. -/
structure BotHistory where
  system : BotSystem
  past : List (List CJson)

namespace BotHistory

def start (w : World) : BotHistory := { system := .start w, past := [] }

/-- What each process dispatched, the one that runs last. -/
def processes (h : BotHistory) : List (List CJson) := h.past ++ [h.system.loop.dispatched]

def history (h : BotHistory) : Redelivery.History CJson where
  feed := h.system.feed
  past := h.past

/-- `main` again: an offset of 0, and whatever the process before left in the database and the
storage. -/
def restart (h : BotHistory) (w : World) : BotHistory where
  system := { h.system with loop := .start w }
  past := h.processes

theorem log_history (h : BotHistory) : h.history.log = h.processes.flatten := by
  simp [Redelivery.History.log, history, processes, BotSystem.feed]

end BotHistory

/-- A step of the loop or its server; the end of the process between two passes; or its death after
the first `n` updates of an answer, with any part of the next one done. -/
inductive BotLife (bot : TgBot) : BotHistory → BotHistory → Prop
  | step (h : BotHistory) {s : BotSystem} (step : BotStep bot h.system s) :
      BotLife bot h { h with system := s }
  | stopped (h : BotHistory) (w : World) : BotLife bot h (h.restart w)
  | killed (h : BotHistory) (n : Nat) (w : World) :
      BotLife bot h
        { system := { h.system with loop := .start w, queue := h.system.pending }
          past := h.past ++ [h.system.loop.dispatched ++ h.system.pending.take n] }

def BotLives (bot : TgBot) : BotHistory → BotHistory → Prop :=
  Relation.ReflTransGen (BotLife bot)

/-- Every update has a number, and the server has no other updates. -/
structure Numbered (s : BotSystem) : Prop where
  arrived : ∀ update ∈ s.arrived, ∃ id, HasUpdateId update id
  queue : s.queue ⊆ s.arrived

section Step
variable {bot : TgBot} {s s' : BotSystem}

theorem Numbered.pending (h : Numbered s) : s.pending ⊆ s.arrived :=
  fun _ hmem => h.queue (List.mem_filter.mp hmem).1

theorem BotStep.numbered (step : BotStep bot s s') (h : Numbered s) : Numbered s' := by
  cases step with
  | arrive update id hid fresh =>
      refine ⟨fun other hmem => ?_, fun other hmem => ?_⟩
      · rcases List.mem_append.mp hmem with hold | hnew
        · exact h.arrived other hold
        · obtain rfl := List.mem_singleton.mp hnew
          exact ⟨id, hid⟩
      · rcases List.mem_append.mp hmem with hold | hnew
        · exact List.mem_append_left _ (h.queue hold)
        · exact List.mem_append_right _ hnew
  | answered envs body json k hparse hok hresult => exact ⟨h.arrived, h.pending⟩
  | failed envs body hfailed processed =>
      refine ⟨h.arrived, ?_⟩
      cases processed with
      | true => exact h.pending
      | false => exact h.queue

/-- A step of the loop and the server is a step of the feed or none, in any session. -/
theorem BotStep.feedStep (step : BotStep bot s s') (h : Numbered s)
    (low : ∀ update ∈ s'.arrived, 0 ≤ updateId update) :
    Feed.Step updateId 0 s.feed s'.feed ∨ s'.feed = s.feed := by
  cases step with
  | arrive update id hid fresh =>
      have later : ∀ other ∈ s.feed.arrived, updateId other < updateId update := fun other hmem =>
        hid.updateId_eq ▸ fresh other hmem
      exact Or.inl (Feed.Step.arrive s.feed update later (low update (by simp)))
  | answered envs body json k hparse hok hresult =>
      obtain ⟨n, hdispatched, hoffset⟩ := botPoll_of_answer envs s.loop hparse hok hresult
        (fun update hmem => h.arrived update (h.pending (List.mem_of_mem_take hmem)))
      rw [List.take_take] at hdispatched hoffset
      have deliver := @Feed.Step.deliver _ updateId 0 s.feed (min n k)
      left
      simpa only [BotSystem.feed, BotSystem.pending, hdispatched, hoffset] using deliver
  | failed envs body hfailed processed =>
      simp only [BotSystem.feed, botPoll_of_failed envs s.loop hfailed]
      cases processed with
      | true => exact Or.inl (Feed.Step.discard s.feed)
      | false => exact Or.inr rfl

end Step

section Lives
variable {bot : TgBot} {h h' : BotHistory}

theorem BotLife.numbered (life : BotLife bot h h') (known : Numbered h.system) :
    Numbered h'.system := by
  cases life with
  | step step => exact step.numbered known
  | stopped w => exact ⟨known.arrived, known.queue⟩
  | killed n w => exact ⟨known.arrived, known.pending⟩

theorem BotLife.arrived_subset (life : BotLife bot h h') :
    h.system.arrived ⊆ h'.system.arrived := by
  cases life with
  | step step => exact step.arrived_subset
  | stopped w => exact List.Subset.refl _
  | killed n w => exact List.Subset.refl _

theorem BotLives.arrived_subset (lives : BotLives bot h h') :
    h.system.arrived ⊆ h'.system.arrived := by
  induction lives with
  | refl => exact List.Subset.refl _
  | tail _ life ih => exact List.Subset.trans ih life.arrived_subset

/-- What every step of the redelivered feed keeps, every step of the processes keeps. -/
theorem BotLife.kept {P : Redelivery.History CJson → Prop}
    (keeps : ∀ {r r'}, Redelivery.Step updateId 0 r r' → P r → P r')
    (life : BotLife bot h h') (known : Numbered h.system)
    (low : ∀ update ∈ h'.system.arrived, 0 ≤ updateId update) (hP : P h.history) :
    P h'.history := by
  cases life with
  | @step s step =>
      rcases step.feedStep known low with hstep | hsame
      · exact keeps (.feed h.history hstep) hP
      · have same : ({ h with system := s } : BotHistory).history = h.history := by
          simp only [BotHistory.history, hsame]
        rw [same]
        exact hP
  | stopped w => exact keeps (.restart h.history) hP
  | killed n w =>
      -- the answer is delivered up to where the process dies, and its offset is lost
      have delivered := keeps (.feed h.history (.deliver h.history.feed n)) hP
      exact keeps (.restart _) delivered

theorem BotLives.kept {P : Redelivery.History CJson → Prop}
    (keeps : ∀ {r r'}, Redelivery.Step updateId 0 r r' → P r → P r')
    (lives : BotLives bot h h') (known : Numbered h.system)
    (low : ∀ update ∈ h'.system.arrived, 0 ≤ updateId update) (hP : P h.history) :
    Numbered h'.system ∧ P h'.history := by
  induction lives with
  | refl => exact ⟨known, hP⟩
  | tail _ life ih =>
      obtain ⟨known, hP⟩ := ih fun update hmem => low update (life.arrived_subset hmem)
      exact ⟨life.numbered known, life.kept keeps known low hP⟩

theorem numbered_start (w : World) : Numbered (BotHistory.start w).system :=
  ⟨fun _ hmem => absurd hmem List.not_mem_nil, List.Subset.refl _⟩

end Lives

/-- Over any number of processes: each dispatched a run of the updates in the order of their
arrival, none of them twice, beginning where the processes before it had got or earlier; and every
update that arrived was dispatched or is still with the server. -/
theorem dispatch_at_least_once (bot : TgBot) (w : World) (h : BotHistory)
    (lives : BotLives bot (.start w) h)
    (low : ∀ update ∈ h.system.arrived, 0 ≤ updateId update) :
    (∃ last, Redelivery.Covered h.system.arrived 0 h.processes last) ∧
      (∀ process ∈ h.processes, process.Nodup) ∧
      ∀ update ∈ h.system.arrived,
        (∃ process ∈ h.processes, update ∈ process) ∨ update ∈ h.system.queue := by
  obtain ⟨_, inv⟩ := lives.kept (P := Redelivery.Inv updateId 0) (fun step inv => step.inv inv)
    (numbered_start w) low Redelivery.inv_initial
  refine ⟨inv.atLeastOnce.runs, inv.atLeastOnce.once, fun update hmem => ?_⟩
  rcases inv.atLeastOnce.kept update hmem with handled | waiting
  · left
    rw [BotHistory.log_history, List.mem_flatten] at handled
    exact handled
  · exact Or.inr waiting

/-- An update the server has discarded is dispatched no more, by this process or a later one. -/
theorem acknowledged_dispatched_no_more (bot : TgBot) (w : World) (h h' : BotHistory)
    (before : BotLives bot (.start w) h) (after : BotLives bot h h')
    (low : ∀ update ∈ h'.system.arrived, 0 ≤ updateId update) (update : CJson)
    (arrived : update ∈ h.system.arrived) (discarded : update ∉ h.system.queue) :
    ∃ later, h'.processes.flatten = h.processes.flatten ++ later ∧ update ∉ later := by
  obtain ⟨known, _⟩ := before.kept (P := fun _ => True) (fun _ _ => trivial) (numbered_start w)
    (fun other hmem => low other (after.arrived_subset hmem)) trivial
  have ack : Redelivery.Acknowledged update h.history.log h.history :=
    ⟨arrived, discarded, [], (List.append_nil _).symm, List.not_mem_nil⟩
  obtain ⟨_, kept⟩ := after.kept (P := Redelivery.Acknowledged update h.history.log)
    (fun step ack => step.acknowledged ack) known low ack
  simpa only [BotHistory.log_history] using kept.since

/-- The bot has dispatched an update and is started again. -/
def restartedOnce : BotHistory where
  system := { loop := .start .empty, arrived := [bareUpdate 1], queue := [bareUpdate 1] }
  past := [[bareUpdate 1]]

theorem restartedOnce_lives : BotLives pollingBot (.start .empty) restartedOnce := by
  have arrive : BotStep pollingBot (.start .empty) _ :=
    .arrive _ (bareUpdate 1) 1 (bareUpdate_hasUpdateId (by omega) (by omega))
      (fun _ h => absurd h List.not_mem_nil)
  have arrived : BotLives pollingBot (.start .empty) _ := .single (.step _ arrive)
  exact (arrived.tail (.step _ (poll_one rfl rfl))).tail (.stopped _ .empty)

theorem restartedOnce_low : ∀ update ∈ restartedOnce.system.arrived, 0 ≤ updateId update := by
  intro update hmem
  obtain rfl := List.mem_singleton.mp hmem
  decide

/-- The next process dispatches it again. -/
theorem dispatch_at_least_once_twice :
    ∃ h, BotLives pollingBot (.start .empty) h ∧
      h.processes = [[bareUpdate 1], [bareUpdate 1]] ∧
      (∃ last, Redelivery.Covered h.system.arrived 0 h.processes last) ∧
      (∀ process ∈ h.processes, process.Nodup) ∧
      ∀ update ∈ h.system.arrived,
        (∃ process ∈ h.processes, update ∈ process) ∨ update ∈ h.system.queue := by
  have again := restartedOnce_lives.tail (.step _ (poll_one rfl rfl))
  exact ⟨_, again, rfl, dispatch_at_least_once _ _ _ again restartedOnce_low⟩

/-- After one more poll the server has discarded it, and the process after that leaves it alone. -/
theorem acknowledged_dispatched_no_more_one :
    ∃ h h', BotLives pollingBot (.start .empty) h ∧ BotLives pollingBot h h' ∧
      h.system.arrived = [bareUpdate 1] ∧ h.system.queue = [] ∧ h'.past = h.processes ∧
      ∃ later, h'.processes.flatten = h.processes.flatten ++ later ∧ bareUpdate 1 ∉ later := by
  have again := restartedOnce_lives.tail (.step _ (poll_one rfl rfl))
  have polled := again.tail (.step _ (.failed _ (fun _ => .working 0 (lit "") (lit "")) none trivial
    true))
  have stopped (h : BotHistory) : BotLives pollingBot h (h.restart .empty) :=
    .single (.stopped h .empty)
  refine ⟨_, _, polled, stopped _, rfl, rfl, rfl, ?_⟩
  exact acknowledged_dispatched_no_more _ _ _ _ polled (stopped _) restartedOnce_low _
    (List.mem_singleton_self _) List.not_mem_nil

end Kaufbot
