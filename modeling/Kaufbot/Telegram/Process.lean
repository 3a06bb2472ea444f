import Kaufbot.Ocr.PromptFetcher
import Kaufbot.Telegram.Bot

/-!
A whole process: the greeting, then passes through the loop of `bot_start`, each
with the messages it sends. A pass that gets an answer dispatches the updates in
it and then looks at the prompts; one that does not sleeps and starts over. How
long it sleeps is not modelled.
-/

namespace Kaufbot

open CString

def promptRefreshIntervalSecs : Int := 300

/-- One message to every allowed user. -/
def notifyAll (bot : TgBot) (text : CString) : List Outgoing :=
  bot.cfg.allowedUsers.map fun userId => .sendMessage userId text

def botNotifyStartup (bot : TgBot) : List Outgoing :=
  notifyAll bot
    (lit "Kaufbot is running\n\nSend me a receipt photo to scan it.\n/help for commands")

/-- The `msg` of `bot_notify_prompt_change`. -/
def promptNotice (promptName newContent : CString) : CString :=
  snprintf maxReplyLen (.concat [lit "Prompt updated: ", promptName, lit "\n\n", newContent])

def botNotifyPromptChange (bot : TgBot) (promptName newContent : CString) : List Outgoing :=
  notifyAll bot (promptNotice promptName newContent)

structure BotProcess where
  loop : BotLoop
  /-- NULL when `prompt_fetcher_new` refused. -/
  promptFetcher : Option PromptFetcher

/-- `bot_new`, with the callback that notifies. -/
def botNew (w : World) : BotProcess where
  loop := .start w
  promptFetcher := promptFetcherNew promptRefreshIntervalSecs true

/-- What the surroundings answer during one pass; `body` is what `http_get` returned. -/
structure Pass where
  body : Option CString
  envs : Nat → Externals
  prompts : PromptsAnswer
  now : Int

structure PassOutput where
  answers : List Outgoing
  notices : List Outgoing
deriving DecidableEq

/-- The answer to `getUpdates`, when there is one and it says ok. -/
def getUpdatesAnswer (bot : TgBot) (body : Option CString) : Option CJson :=
  match body with
  | none => none
  | some body =>
      match bot.processor.cjsonParse body with
      | none => none
      | some json => if CJson.isTrue (member json "ok") then some json else none

/-- The entries of the result array, each with its position. -/
def resultEntries (json : CJson) : List (CJson × Nat) :=
  let result := member json "result"
  if CJson.isArray result then
    (CJson.firstItems result (CJson.getArraySize result)).zipIdx
  else []

def dispatchAnswering (bot : TgBot) (envs : Nat → Externals) (s : BotLoop × List Outgoing)
    (entry : CJson × Nat) : BotLoop × List Outgoing :=
  let (update, i) := entry
  (dispatchOne bot envs s.1 entry,
    s.2 ++ match CJson.numberValue? (member update "update_id") with
      | some _ => (botDispatchUpdate bot (envs i) s.1.world update).2
      | none => [])

/-- `prompt_fetcher_tick`, with what its callback sends. -/
def tickPrompts (bot : TgBot) (pf : Option PromptFetcher) (pass : Pass) :
    Option PromptFetcher × List Outgoing :=
  match pf with
  | none => (none, [])
  | some pf =>
      let (pf, result) := promptFetcherTick pf pass.prompts pass.now
      (some pf, result.fired.flatMap fun (name, content) => botNotifyPromptChange bot name content)

/-- One pass through the loop. -/
def botPass (bot : TgBot) (s : BotProcess) (pass : Pass) : BotProcess × PassOutput :=
  match getUpdatesAnswer bot pass.body with
  | none => (s, { answers := [], notices := [] })
  | some json =>
      let (loop, answers) := (resultEntries json).foldl (dispatchAnswering bot pass.envs) (s.loop, [])
      let (promptFetcher, notices) := tickPrompts bot s.promptFetcher pass
      ({ loop := loop, promptFetcher := promptFetcher }, { answers := answers, notices := notices })

section Pass
variable (bot : TgBot) (envs : Nat → Externals)

theorem foldl_dispatchAnswering_loop (s : BotLoop × List Outgoing) (entries : List (CJson × Nat)) :
    (entries.foldl (dispatchAnswering bot envs) s).1 = entries.foldl (dispatchOne bot envs) s.1 := by
  induction entries generalizing s with
  | nil => rfl
  | cons entry entries ih => exact ih (dispatchAnswering bot envs s entry)

/-- The pass moves the loop as the poll alone does. -/
theorem botPass_loop (s : BotProcess) (pass : Pass) :
    (botPass bot s pass).1.loop = botPoll bot pass.envs s.loop pass.body := by
  simp only [botPass, botPoll, getUpdatesAnswer]
  cases pass.body with
  | none => rfl
  | some body =>
      simp only
      cases bot.processor.cjsonParse body with
      | none => rfl
      | some json =>
          simp only
          cases CJson.isTrue (member json "ok") with
          | false => rfl
          | true =>
              simp only [if_true, Bool.not_true, Bool.false_eq_true, if_false, resultEntries,
                foldl_dispatchAnswering_loop]
              split <;> rfl

end Pass

end Kaufbot
