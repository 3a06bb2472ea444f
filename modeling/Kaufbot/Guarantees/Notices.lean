import Kaufbot.Guarantees.Addressing
import Kaufbot.Guarantees.PromptChanges
import Kaufbot.Telegram.Process

/-!
What a process tells its users unasked. The loop, the fetcher and its cache come
to a watcher that remembers the tables it has seen: it looks when an interval
has passed since it last could, and tells every allowed user of every prompt that is
new or not what it was last seen to be. Everything else that is sent answers an
update.
-/

namespace Kaufbot

open CString Machine

/-- What the notices are about: the tables seen so far, and when the last one was. -/
structure Watcher where
  tables : List (List Prompt)
  lastPoll : Int

def Watcher.new : Watcher := { tables := [], lastPoll := 0 }

/-- It is called after every answer to `getUpdates`. -/
def Watcher.Due (s : Watcher) (pass : Pass) : Prop :=
  s.tables = [] ∨ promptRefreshIntervalSecs ≤ pass.now - s.lastPoll

instance (s : Watcher) (pass : Pass) : Decidable (s.Due pass) := by
  unfold Watcher.Due
  infer_instance

/-- The notices about the rows that are news; the first table seen is none. -/
def Watcher.news (bot : TgBot) (s : Watcher) (rows : List Prompt) : List Outgoing :=
  if s.tables = [] then []
  else (changedPrompts (lastSeen s.tables) rows).flatMap fun p =>
    botNotifyPromptChange bot p.name p.content

def Watcher.pass (bot : TgBot) (s : Watcher) (pass : Pass) : Watcher × List Outgoing :=
  if (getUpdatesAnswer bot pass.body).isSome ∧ s.Due pass ∧ pass.prompts.rc = 0 then
    ({ tables := s.tables ++ [pass.prompts.delivered], lastPoll := pass.now },
      s.news bot pass.prompts.delivered)
  else (s, [])

/-- The loop, and of its output the notices. -/
def noticeStep (bot : TgBot) (s : BotProcess) (pass : Pass) : BotProcess × List Outgoing :=
  ((botPass bot s pass).1, (botPass bot s pass).2.notices)

/-- The fetcher has seen what the watcher remembers. -/
structure Remembers (names : List CString) (pf : PromptFetcher) (t : Watcher) : Prop where
  watches : Watches names pf t.tables
  interval : pf.intervalSecs = promptRefreshIntervalSecs
  last : t.tables ≠ [] → pf.lastPoll = t.lastPoll

section Tick
variable {bot : TgBot} {names : List CString} {pf : PromptFetcher} {t : Watcher} {pass : Pass}

theorem Remembers.due_iff (h : Remembers names pf t) :
    (!pf.initialized || pass.now - pf.lastPoll ≥ pf.intervalSecs) = true ↔ t.Due pass := by
  rw [h.watches.started, h.interval, Watcher.Due]
  by_cases hne : t.tables = []
  · simp [hne]
  · simp [hne, h.last hne]

variable (bot) in
theorem Remembers.poll (h : Remembers names pf t) (few : names.length ≤ 64)
    (hok : pass.prompts.rc = 0) (fit : TableFits names pass.prompts.delivered) :
    Remembers names (promptFetcherPoll pf pass.prompts pass.now).1
        { tables := t.tables ++ [pass.prompts.delivered], lastPoll := pass.now } ∧
      ((promptFetcherPoll pf pass.prompts pass.now).2.fired.flatMap fun (name, content) =>
        botNotifyPromptChange bot name content) = t.news bot pass.prompts.delivered := by
  have polled : (promptFetcherPoll pf pass.prompts pass.now).1.intervalSecs = pf.intervalSecs ∧
      (promptFetcherPoll pf pass.prompts pass.now).1.lastPoll = pass.now := by
    simp only [promptFetcherPoll, hok, ne_eq, not_true_eq_false, if_false]
    split <;> exact ⟨rfl, rfl⟩
  by_cases hne : t.tables = []
  · obtain ⟨watches, result⟩ := (hne ▸ h.watches).first_poll few hok fit pass.now
    refine ⟨⟨?_, polled.1.trans h.interval, fun _ => polled.2⟩, ?_⟩
    · simpa only [hne, List.nil_append] using watches
    · rw [result, Watcher.news, if_pos hne]
      rfl
  · obtain ⟨watches, result⟩ := h.watches.later_poll few hne hok fit pass.now
    refine ⟨⟨watches, polled.1.trans h.interval, fun _ => polled.2⟩, ?_⟩
    rw [result, Watcher.news, if_neg hne, List.flatMap_map]

variable (bot) in
/-- One tick of the fetcher is one look of the watcher. -/
theorem Remembers.tick (h : Remembers names pf t) (few : names.length ≤ 64)
    (fit : pass.prompts.rc = 0 → TableFits names pass.prompts.delivered)
    (answered : (getUpdatesAnswer bot pass.body).isSome = true) :
    ∃ pf', tickPrompts bot (some pf) pass = (some pf', (t.pass bot pass).2) ∧
      Remembers names pf' (t.pass bot pass).1 := by
  simp only [tickPrompts, promptFetcherTick, Watcher.pass, answered, true_and]
  by_cases due : t.Due pass
  · rw [if_pos (h.due_iff.mpr due)]
    by_cases hok : pass.prompts.rc = 0
    · obtain ⟨remembers, notices⟩ := h.poll bot few hok (fit hok)
      rw [if_pos ⟨due, hok⟩]
      exact ⟨_, by rw [← notices], remembers⟩
    · rw [if_neg (fun both => hok both.2), promptFetcherPoll_of_failed hok]
      exact ⟨pf, rfl, h⟩
  · rw [if_neg (fun now => due (h.due_iff.mp now)), if_neg (fun both => due both.1)]
    exact ⟨pf, rfl, h⟩

end Tick

/-- The process and the watcher. -/
def Watched (names : List CString) (s : BotProcess) (t : Watcher) : Prop :=
  ∃ pf, s.promptFetcher = some pf ∧ Remembers names pf t

theorem Watched.pass {bot : TgBot} {names : List CString} {s : BotProcess} {t : Watcher}
    (h : Watched names s t) (few : names.length ≤ 64) {pass : Pass}
    (fit : pass.prompts.rc = 0 → TableFits names pass.prompts.delivered) :
    (noticeStep bot s pass).2 = (t.pass bot pass).2 ∧
      Watched names (noticeStep bot s pass).1 (t.pass bot pass).1 := by
  obtain ⟨pf, hpf, remembers⟩ := h
  simp only [noticeStep, botPass]
  cases hanswer : getUpdatesAnswer bot pass.body with
  | none =>
      have idle : t.pass bot pass = (t, []) := by simp [Watcher.pass, hanswer]
      rw [idle]
      exact ⟨rfl, pf, hpf, remembers⟩
  | some json =>
      obtain ⟨pf', hticked, remembers'⟩ :=
        remembers.tick bot few fit (by rw [hanswer]; rfl)
      simp only [hpf, hticked, true_and]
      exact ⟨pf', rfl, remembers'⟩

/-- Over any run of a process the users are told of the prompts exactly what the watcher tells
them: nothing while `getUpdates` fails, between two looks or for the first table, and
otherwise every change since the prompt was last seen, to every allowed user, in order. -/
theorem notices_refine_watcher (bot : TgBot) (w : World) (names : List CString)
    (few : names.length ≤ 64) (passes : List Pass)
    (fit : ∀ pass ∈ passes, pass.prompts.rc = 0 → TableFits names pass.prompts.delivered) :
    trace (noticeStep bot) (botNew w) passes = trace (Watcher.pass bot) .new passes := by
  obtain ⟨pf, hnew⟩ : ∃ pf, promptFetcherNew promptRefreshIntervalSecs true = some pf :=
    ⟨_, if_neg (by decide)⟩
  have start : Watched names (botNew w) .new := by
    refine ⟨pf, hnew, watches_new hnew names, ?_, fun hne => absurd rfl hne⟩
    simp only [promptFetcherNew] at hnew
    split at hnew
    · exact absurd hnew (by simp)
    · obtain rfl := Option.some.inj hnew
      rfl
  have step (s : BotProcess) (t : Watcher) (pass : Pass)
      (good : pass.prompts.rc = 0 → TableFits names pass.prompts.delivered)
      (h : Watched names s t) : (noticeStep bot s pass).2 = (t.pass bot pass).2 ∧
        Watched names (noticeStep bot s pass).1 (t.pass bot pass).1 := h.pass few good
  exact (simulation _ step passes fit start).1

/-- Two users are told. -/
def toldBot : TgBot := { pollingBot with cfg := { pollingBot.cfg with allowedUsers := [7, 8] } }

def passAt (now : Int) (content : String) : Pass where
  body := some answerOne
  envs := fun _ => .working now (lit "") (lit "")
  prompts := { delivered := [ocrRow content], rc := 0 }
  now := now

/-- The second look is too early for the change, the third is not. -/
theorem notices_refine_watcher_three :
    trace (noticeStep toldBot) (botNew .empty) [passAt 0 "v1", passAt 60 "v2", passAt 300 "v2"] =
      [[], [], [.sendMessage 7 (lit "Prompt updated: ocr\n\nv2"),
        .sendMessage 8 (lit "Prompt updated: ocr\n\nv2")]] := by
  rw [notices_refine_watcher toldBot .empty [lit "ocr"] (by decide)]
  · decide +kernel
  · intro pass hpass _
    simp only [List.mem_cons, List.not_mem_nil, or_false] at hpass
    rcases hpass with rfl | rfl | rfl <;>
      exact ⟨by simp [passAt, ocrRow, Keyed.UniqueOn], by decide, by decide, by decide⟩

/-- The notice of one of these prompts to an allowed user, as far as it fits a reply buffer. -/
def IsNotice (bot : TgBot) (rows : List Prompt) (message : Outgoing) : Prop :=
  ∃ userId ∈ bot.cfg.allowedUsers, ∃ p ∈ rows,
    message = .sendMessage userId (promptNotice p.name p.content) ∧
      (promptNotice p.name p.content).length < maxReplyLen

section Accounted
variable {bot : TgBot}

theorem botNotifyPromptChange_isNotice {rows : List Prompt} {p : Prompt} (place : p ∈ rows) :
    ∀ message ∈ botNotifyPromptChange bot p.name p.content, IsNotice bot rows message := by
  intro message hmem
  obtain ⟨userId, huser, rfl⟩ := List.mem_map.mp hmem
  exact ⟨userId, huser, p, place, rfl, length_snprintf_lt maxReplyLen.pos _⟩

theorem tickPrompts_isNotice (pf : Option PromptFetcher) (pass : Pass) :
    ∀ message ∈ (tickPrompts bot pf pass).2, IsNotice bot pass.prompts.delivered message := by
  cases pf with
  | none => exact fun _ hmem => absurd hmem List.not_mem_nil
  | some pf =>
      intro message hmem
      obtain ⟨fired, called, hnotice⟩ := List.mem_flatMap.mp hmem
      obtain ⟨p, place, rfl⟩ := promptFetcherTick_fired called
      exact botNotifyPromptChange_isNotice place message hnotice

theorem foldl_dispatchAnswering_answers (envs : Nat → Externals) (s : BotLoop × List Outgoing)
    (entries : List (CJson × Nat)) :
    ∀ message ∈ (entries.foldl (dispatchAnswering bot envs) s).2,
      message ∈ s.2 ∨ ∃ entry ∈ entries, message.AnswersTo (some entry.1) := by
  induction entries generalizing s with
  | nil => exact fun message hmem => Or.inl hmem
  | cons entry entries ih =>
      intro message hmem
      rcases ih (dispatchAnswering bot envs s entry) message hmem with hfirst | ⟨later, hlater, its⟩
      · rcases List.mem_append.mp hfirst with hbefore | hnow
        · exact Or.inl hbefore
        · refine Or.inr ⟨entry, List.mem_cons_self, ?_⟩
          split at hnow
          · rw [botDispatchUpdate_eq] at hnow
            exact readUpdate_answersTo.perform.1 message hnow
          · exact absurd hnow List.not_mem_nil
      · exact Or.inr ⟨later, List.mem_cons_of_mem _ hlater, its⟩

end Accounted

/-- Everything a pass sends is an answer to one of the updates it was given, sent back to where
that came from, or the notice of a prompt the query delivered, to an allowed user; and it does to
the tables, the files and the offset what the poll alone does. -/
theorem every_message_is_accounted_for (bot : TgBot) (s : BotProcess) (pass : Pass) :
    (botPass bot s pass).1.loop = botPoll bot pass.envs s.loop pass.body ∧
      (∀ message ∈ (botPass bot s pass).2.answers,
        ∃ json, getUpdatesAnswer bot pass.body = some json ∧
          ∃ entry ∈ resultEntries json, message.AnswersTo (some entry.1)) ∧
      ∀ message ∈ (botPass bot s pass).2.notices, IsNotice bot pass.prompts.delivered message := by
  refine ⟨botPass_loop bot s pass, ?_⟩
  simp only [botPass]
  cases hanswer : getUpdatesAnswer bot pass.body with
  | none => exact ⟨fun _ hmem => absurd hmem List.not_mem_nil, fun _ hmem => absurd hmem List.not_mem_nil⟩
  | some json =>
      refine ⟨fun message hmem => ⟨json, rfl, ?_⟩, tickPrompts_isNotice s.promptFetcher pass⟩
      rcases foldl_dispatchAnswering_answers pass.envs (s.loop, []) (resultEntries json) message
        hmem with hbefore | answers
      · exact absurd hbefore List.not_mem_nil
      · exact answers

end Kaufbot
