import Kaufbot.Library.Runs
import Kaufbot.Telegram.BotCommands

/-!
Complete mediation: what an unauthorised sender sends leaves no trace in the
database, the storage or the requests that leave the process, on either path
through the dispatcher. The refusals sent back to such a sender are outside the
world and outside this statement.
-/

namespace Kaufbot

open Runs

/-- The sender the dispatcher goes by: of the button press if there is one, else of the message. -/
def senderId (update : CJson) : Option Int :=
  match member update "callback_query" with
  | some cbQuery => numericId (member cbQuery "from")
  | none => numericId (member (member update "message") "from")

def authorised (cfg : Config) (update : CJson) : Bool :=
  match senderId update with
  | some userId => configIsAllowed cfg userId
  | none => false

def dispatchStep (bot : TgBot) (w : World) (op : CJson × Externals) : World :=
  (botDispatchUpdate bot op.2 w op.1).1

theorem dispatchCallback_world_eq (bot : TgBot) (env : Externals) (w : World)
    (cbQuery : Option CJson)
    (h : ∀ userId, numericId (member cbQuery "from") = some userId →
      configIsAllowed bot.cfg userId = false) :
    (dispatchCallback bot env w cbQuery).1 = w := by
  unfold dispatchCallback
  split
  · next data cbId cbFrom cbMessage _ _ hfrom _ =>
      split
      · rfl
      · next userId hid =>
          have denied := h userId (by rw [hfrom, hid])
          simp [denied]
  · rfl

theorem dispatchMessage_world_eq (bot : TgBot) (env : Externals) (w : World)
    (message : Option CJson)
    (h : ∀ userId, numericId (member message "from") = some userId →
      configIsAllowed bot.cfg userId = false) :
    (dispatchMessage bot env w message).1 = w := by
  unfold dispatchMessage
  cases hid : numericId (member message "from") with
  | none => rfl
  | some userId =>
      obtain ⟨refusal, denied⟩ : ∃ refusal,
          dispatchAuthCheck bot message userId = (false, refusal) := by
        simp only [dispatchAuthCheck, h userId hid, Bool.false_eq_true, if_false]
        split <;> exact ⟨_, rfl⟩
      simp only [denied]

theorem dispatchStep_of_unauthorised (bot : TgBot) (w : World) (op : CJson × Externals)
    (h : authorised bot.cfg op.1 = false) : dispatchStep bot w op = w := by
  obtain ⟨update, env⟩ := op
  simp only [dispatchStep, botDispatchUpdate]
  simp only [authorised, senderId] at h
  cases hcb : member update "callback_query" with
  | some cbQuery =>
      simp only [hcb] at h
      simp only [Option.isSome_some, if_true]
      apply dispatchCallback_world_eq
      intro userId hid
      simpa only [hid] using h
  | none =>
      simp only [hcb] at h
      simp only [Option.isSome_none, Bool.false_eq_true, if_false]
      split
      · apply dispatchMessage_world_eq
        intro userId hid
        simpa only [hid] using h
      · rfl

/-- Deleting the updates of unauthorised senders changes nothing about a run. -/
theorem run_filter_authorised (bot : TgBot) (w : World) (updates : List (CJson × Externals)) :
    run (dispatchStep bot) w (updates.filter (fun op => authorised bot.cfg op.1)) =
      run (dispatchStep bot) w updates :=
  run_filter_of_noop (fun w op h => dispatchStep_of_unauthorised bot w op h) w updates

end Kaufbot
