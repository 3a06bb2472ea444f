import Kaufbot.Library.Machine
import Kaufbot.Telegram.Instruction

/-!
Who is told what. A message goes to the chat of the update that caused it, an
answer to the button press that caused it and to no other, and each press that
can be answered is answered once. Whoever may not use the bot is told the same
whatever the database, the storage and the services hold.
-/

namespace Kaufbot

open CString

/-- The message a button is under, or the message itself. -/
def messageOf (update : Option CJson) : Option CJson :=
  if (member update "callback_query").isSome then
    member (member update "callback_query") "message"
  else member update "message"

def chatOf (update : Option CJson) : Option Int := numericId (member (messageOf update) "chat")

def messageIdOf (update : Option CJson) : Option Int :=
  (CJson.numberValue? (member (messageOf update) "message_id")).map doubleToInt64

def queryOf (update : Option CJson) : Option CString :=
  CJson.stringValue? (member (member update "callback_query") "id")

/-- The query of a button press that has all its parts, from a sender with a numeric id. -/
def answerable (update : Option CJson) : Option CString :=
  let cbQuery := member update "callback_query"
  if (CJson.stringValue? (member cbQuery "data")).isSome ∧ (member cbQuery "message").isSome ∧
      (numericId (member cbQuery "from")).isSome then queryOf update
  else none

namespace Outgoing

/-- It goes where the update came from. -/
def AnswersTo (update : Option CJson) : Outgoing → Prop
  | .sendMessage chatId _ | .sendMessageWithKeyboard chatId _ _ => chatOf update = some chatId
  | .answerCallbackQuery queryId _ => answerable update = some queryId
  | .deleteMessage chatId messageId =>
      chatOf update = some chatId ∧ messageIdOf update = some messageId

/-- The file its buttons are about. -/
def keyboardId : Outgoing → Option Int
  | .sendMessageWithKeyboard _ _ dbFileId => some dbFileId
  | _ => none

def queryId : Outgoing → Option CString
  | .answerCallbackQuery queryId _ => some queryId
  | _ => none

end Outgoing

/-- A fixed message of the bot, without buttons. -/
structure Plain (update : Option CJson) (message : Outgoing) : Prop where
  addressed : message.AnswersTo update
  bare : message.keyboardId = none

/-- What is read goes back to where it came from, and answers the press it came from, if any. -/
inductive Instruction.AnswersTo (update : Option CJson) : Instruction → Prop where
  | reply {messages : List Outgoing} (plain : ∀ message ∈ messages, Plain update message)
      (answered : messages.filterMap Outgoing.queryId = (answerable update).toList) :
      AnswersTo update (.reply messages)
  | list {chatId : Int} (chat : chatOf update = some chatId)
      (silent : answerable update = none) : AnswersTo update (.list chatId)
  | upload {chatId : Int} {fileId originalName : CString} (chat : chatOf update = some chatId)
      (silent : answerable update = none) : AnswersTo update (.upload chatId fileId originalName)
  | delete {chatId id : Int} (chat : chatOf update = some chatId)
      (silent : answerable update = none) : AnswersTo update (.delete chatId id)
  | deletePressed {cbId : CString} {message : Option (Int × Int)} {id : Int}
      (query : answerable update = some cbId)
      (under : ∀ chat msg, message = some (chat, msg) →
        chatOf update = some chat ∧ messageIdOf update = some msg) :
      AnswersTo update (.deletePressed cbId message id)
  | retry {before : List Outgoing} {chatId id : Int}
      (plain : ∀ message ∈ before, Plain update message)
      (answered : before.filterMap Outgoing.queryId = (answerable update).toList)
      (chat : chatOf update = some chatId) : AnswersTo update (.retry before chatId id)
  | retryWithModel {before : List Outgoing} {chatId id : Int} {model : CString}
      (plain : ∀ message ∈ before, Plain update message)
      (answered : before.filterMap Outgoing.queryId = (answerable update).toList)
      (chat : chatOf update = some chatId) :
      AnswersTo update (.retryWithModel before chatId id model)

section Read
variable {bot : TgBot} {update : Option CJson}

@[simp] theorem numericId_none : numericId none = none := rfl

@[simp] theorem member_none (name : String) : member none name = none := rfl

theorem numericId_eq_of_getD {chat : Option CJson} (h : (numericId chat).getD 0 ≠ 0) :
    numericId chat = some ((numericId chat).getD 0) := by
  cases hchat : numericId chat with
  | none => exact absurd (by rw [hchat]; rfl) h
  | some chatId => rfl

section Message
variable {chatId : Int} (chat : chatOf update = some chatId) (silent : answerable update = none)
include chat silent

theorem say_answersTo (text : CString) :
    (Instruction.reply [.sendMessage chatId text]).AnswersTo update := by
  refine .reply (fun message hmem => ?_) (by simp [Outgoing.queryId, silent])
  obtain rfl := List.mem_singleton.mp hmem
  exact ⟨chat, rfl⟩

omit chat in
theorem ignore_answersTo : (Instruction.reply []).AnswersTo update :=
  .reply (fun _ hmem => absurd hmem List.not_mem_nil) (by simp [silent])

theorem readDelete_answersTo (text : CString) : (readDelete chatId text).AnswersTo update := by
  simp only [readDelete]
  split
  · exact say_answersTo chat silent _
  · cases parseIdArg (commandArg text "/delete") with
    | none => exact say_answersTo chat silent _
    | some id => exact .delete chat silent

theorem readRetry_answersTo (text : CString) : (readRetry chatId text).AnswersTo update := by
  simp only [readRetry]
  split
  · exact say_answersTo chat silent _
  · cases parseIdArg (commandArg text "/retry") with
    | none => exact say_answersTo chat silent _
    | some id => exact .retry (fun _ hmem => absurd hmem List.not_mem_nil) (by simp [silent]) chat

theorem readRetryWith_answersTo (text : CString) :
    (readRetryWith chatId text).AnswersTo update := by
  simp only [readRetryWith]
  split
  · exact say_answersTo chat silent _
  · cases (commandArg text "/retrywith").strchr 32 with
    | none => exact say_answersTo chat silent _
    | some modelEnd =>
        simp only
        split
        · exact say_answersTo chat silent _
        · cases parseIdArg (modelEnd.skip 32) with
          | none => exact say_answersTo chat silent _
          | some id =>
              exact .retryWithModel (fun _ hmem => absurd hmem List.not_mem_nil) (by simp [silent]) chat

theorem readCommand_answersTo (text : CString) : (readCommand bot chatId text).AnswersTo update := by
  simp only [readCommand]
  split
  · exact say_answersTo chat silent _
  split
  · exact say_answersTo chat silent _
  split
  · exact .list chat silent
  split
  · exact readDelete_answersTo chat silent text
  split
  · exact readRetryWith_answersTo chat silent text
  split
  · exact readRetry_answersTo chat silent text
  · exact say_answersTo chat silent _

theorem readFile_answersTo (file : Option CJson) (name : CString) :
    (readFile chatId file name).AnswersTo update := by
  simp only [readFile]
  cases CJson.stringValue? (member file "file_id") with
  | none => exact ignore_answersTo silent
  | some fileId => exact .upload chat silent

theorem readPhoto_answersTo (photos : Option CJson) :
    (readPhoto chatId photos).AnswersTo update := by
  simp only [readPhoto]
  generalize lit "photo.jpg" = name
  split
  · exact ignore_answersTo silent
  · exact readFile_answersTo chat silent _ _

theorem readDocument_answersTo (doc : Option CJson) :
    (readDocument bot chatId doc).AnswersTo update := by
  simp only [readDocument]
  split
  · exact say_answersTo chat silent _
  · exact readFile_answersTo chat silent _ _

end Message

section Button
variable {cbMessage : Option CJson} {cbId : CString} (query : answerable update = some cbId)
  (under : messageOf update = cbMessage)
include query

theorem answer_plain (text : Option CString) :
    ∀ message ∈ [Outgoing.answerCallbackQuery cbId text], Plain update message := by
  intro message hmem
  obtain rfl := List.mem_singleton.mp hmem
  exact ⟨query, rfl⟩

theorem answer_answered (text : Option CString) :
    [Outgoing.answerCallbackQuery cbId text].filterMap Outgoing.queryId =
      (answerable update).toList := by
  simp [Outgoing.queryId, query]

theorem answer_answersTo (text : Option CString) :
    (Instruction.reply [.answerCallbackQuery cbId text]).AnswersTo update :=
  .reply (answer_plain query text) (answer_answered query text)

include under

theorem readButton_answersTo (data : CString) :
    (readButton cbMessage cbId data).AnswersTo update := by
  have chat (h : dispatchGetChatId cbMessage ≠ 0) :
      chatOf update = some (dispatchGetChatId cbMessage) := by
    rw [chatOf, under]
    exact numericId_eq_of_getD h
  unfold readButton
  cases data.startsWith (lit "delete:") with
  | true =>
      refine .deletePressed query fun chat msg hmessage => ?_
      rw [chatOf, messageIdOf, under]
      cases hchat : numericId (member cbMessage "chat") with
      | none => simp [hchat] at hmessage
      | some id =>
          cases hmsg : (CJson.numberValue? (member cbMessage "message_id")).map doubleToInt64 with
          | none => simp [hchat, hmsg] at hmessage
          | some number => simpa [hchat, hmsg] using hmessage
  | false =>
      cases data.startsWith (lit "retry:") with
      | true =>
          by_cases h : dispatchGetChatId cbMessage ≠ 0
          · simp only [h, ne_eq, not_false_eq_true, if_true, Bool.false_eq_true, if_false]
            exact .retry (answer_plain query _) (answer_answered query _) (chat h)
          · simp only [h, if_true, Bool.false_eq_true, if_false]
            exact answer_answersTo query _
      | false =>
          cases data.startsWith (lit "rwm:") with
          | false => exact answer_answersTo query _
          | true =>
              simp only [if_true, Bool.false_eq_true, if_false]
              cases (data.drop 4).strchr 58 with
              | none => exact answer_answersTo query _
              | some colon =>
                  by_cases h : dispatchGetChatId cbMessage ≠ 0
                  · simp only [h, ne_eq, not_false_eq_true, if_true]
                    exact .retryWithModel (answer_plain query _) (answer_answered query _) (chat h)
                  · simp only [h, if_false]
                    exact answer_answersTo query _

end Button

theorem readCallback_answersTo (h : (member update "callback_query").isSome) :
    (readCallback bot (member update "callback_query")).AnswersTo update := by
  have under : messageOf update = member (member update "callback_query") "message" := by
    rw [messageOf, if_pos h]
  unfold readCallback
  cases hdata : CJson.stringValue? (member (member update "callback_query") "data") with
  | none => exact ignore_answersTo (by simp [answerable, hdata])
  | some data =>
      cases hid : CJson.stringValue? (member (member update "callback_query") "id") with
      | none => exact ignore_answersTo (by simp [answerable, queryOf, hid])
      | some cbId =>
          cases hfrom : member (member update "callback_query") "from" with
          | none => exact ignore_answersTo (by simp [answerable, hfrom])
          | some cbFrom =>
              cases hmessage : member (member update "callback_query") "message" with
              | none => exact ignore_answersTo (by simp [answerable, hmessage])
              | some cbMessage =>
                  simp only
                  cases huser : numericId (some cbFrom) with
                  | none => exact ignore_answersTo (by simp [answerable, hfrom, huser])
                  | some userId =>
                      have query : answerable update = some cbId := by
                        simp [answerable, queryOf, hdata, hid, hfrom, hmessage, huser]
                      simp only
                      split
                      · exact answer_answersTo query _
                      · exact readButton_answersTo query (under.trans hmessage) data

theorem dispatchAuthCheck_answersTo {userId : Int} {refusal : List Outgoing}
    (under : messageOf update = member update "message") (silent : answerable update = none)
    (h : dispatchAuthCheck bot (member update "message") userId = (false, refusal)) :
    (Instruction.reply refusal).AnswersTo update := by
  simp only [dispatchAuthCheck] at h
  split at h
  · exact absurd h (by simp)
  · cases hchat : numericId (member (member update "message") "chat") with
    | none =>
        obtain rfl : [] = refusal := by simpa [hchat] using h
        exact ignore_answersTo silent
    | some chat =>
        rw [hchat] at h
        obtain rfl := congrArg Prod.snd h
        exact say_answersTo (by rw [chatOf, under, hchat]) silent _

theorem readMessage_answersTo (callback : (member update "callback_query").isSome = false) :
    (readMessage bot (member update "message")).AnswersTo update := by
  have under : messageOf update = member update "message" := by
    rw [messageOf, if_neg (by simp [callback])]
  have silent : answerable update = none := by
    have hnone : member update "callback_query" = none := by simpa using callback
    simp [answerable, hnone]
  unfold readMessage
  cases numericId (member (member update "message") "from") with
  | none => exact ignore_answersTo silent
  | some userId =>
      simp only
      cases hauth : dispatchAuthCheck bot (member update "message") userId with
      | mk allowed refusal =>
          cases allowed with
          | false => exact dispatchAuthCheck_answersTo under silent hauth
          | true =>
              simp only
              generalize lit "Unsupported message type. Please send an image or PDF." = refusal
              by_cases hchat : dispatchGetChatId (member update "message") = 0
              · rw [if_pos hchat]
                exact ignore_answersTo silent
              · rw [if_neg hchat]
                have chat : chatOf update =
                    some (dispatchGetChatId (member update "message")) := by
                  rw [chatOf, under]
                  exact numericId_eq_of_getD hchat
                cases CJson.stringValue? (member (member update "message") "text") with
                | some text => exact readCommand_answersTo chat silent text
                | none =>
                    simp only
                    split
                    · exact readPhoto_answersTo chat silent _
                    split
                    · exact readDocument_answersTo chat silent _
                    · exact say_answersTo chat silent _

theorem readUpdate_answersTo : (readUpdate bot update).AnswersTo update := by
  unfold readUpdate
  cases callback : (member update "callback_query").isSome with
  | true => exact readCallback_answersTo callback
  | false =>
      simp only [Bool.false_eq_true, if_false]
      split
      · exact readMessage_answersTo callback
      · have hnone : member update "callback_query" = none := by simpa using callback
        exact ignore_answersTo (by simp [answerable, hnone])

end Read

section Perform
variable {bot : TgBot} {env : Externals} {w : World} {update : Option CJson}

/-- To this chat, and no answer to a press. -/
def Outgoing.SaidTo (chatId : Int) : Outgoing → Prop
  | .sendMessage chat _ | .sendMessageWithKeyboard chat _ _ => chat = chatId
  | _ => False

variable {chatId : Int}

theorem Outgoing.SaidTo.answersTo {message : Outgoing} (h : message.SaidTo chatId)
    (chat : chatOf update = some chatId) : message.AnswersTo update := by
  cases message with
  | sendMessage _ _ | sendMessageWithKeyboard _ _ _ =>
      obtain rfl : _ = chatId := h
      exact chat
  | answerCallbackQuery _ _ | deleteMessage _ _ => exact absurd h id

theorem filterMap_queryId_of_said {messages : List Outgoing}
    (h : ∀ message ∈ messages, message.SaidTo chatId) :
    messages.filterMap Outgoing.queryId = [] := by
  rw [List.filterMap_eq_nil_iff]
  intro message hmem
  have said := h message hmem
  cases message with
  | answerCallbackQuery queryId text => exact absurd said id
  | _ => rfl

theorem sendRetryResult_said (id : Int) (result : RetryResult) :
    ∀ message ∈ sendRetryResult chatId id result, message.SaidTo chatId := by
  intro message hmem
  simp only [sendRetryResult] at hmem
  split at hmem <;>
  · obtain rfl := List.mem_singleton.mp hmem
    rfl

theorem listUploads_said : ∀ message ∈ listUploads env w chatId, message.SaidTo chatId := by
  intro message hmem
  obtain rfl := List.mem_singleton.mp hmem
  rfl

theorem handleFile_said (fileId originalName : CString) :
    ∀ message ∈ (handleFile bot env w chatId fileId originalName).2, message.SaidTo chatId := by
  have said (text : CString) : (Outgoing.sendMessage chatId text).SaidTo chatId := rfl
  simp only [handleFile]
  cases env.filePath with
  | none => simp [said]
  | some filePath =>
      cases env.download with
      | none => simp [said]
      | some data =>
          simp only
          split
          · simp [said]
          · split
            · simp [Outgoing.SaidTo]
            · simp [said]

/-- Whatever its operation does, an instruction answers the update it was read in. -/
theorem Instruction.AnswersTo.perform {instruction : Instruction}
    (h : instruction.AnswersTo update) :
    (∀ message ∈ (instruction.perform bot env w).2, message.AnswersTo update) ∧
      (instruction.perform bot env w).2.filterMap Outgoing.queryId =
        (answerable update).toList := by
  have said {messages : List Outgoing} {chatId : Int}
      (hsaid : ∀ message ∈ messages, message.SaidTo chatId)
      (chat : chatOf update = some chatId) (silent : answerable update = none) :
      (∀ message ∈ messages, message.AnswersTo update) ∧
        messages.filterMap Outgoing.queryId = (answerable update).toList :=
    ⟨fun message hmem => (hsaid message hmem).answersTo chat,
      by rw [filterMap_queryId_of_said hsaid, silent]; rfl⟩
  have after {before : List Outgoing} {chatId : Int} (id : Int) (result : RetryResult)
      (plain : ∀ message ∈ before, Plain update message)
      (answered : before.filterMap Outgoing.queryId = (answerable update).toList)
      (chat : chatOf update = some chatId) :
      (∀ message ∈ before ++ sendRetryResult chatId id result, message.AnswersTo update) ∧
        (before ++ sendRetryResult chatId id result).filterMap Outgoing.queryId =
          (answerable update).toList := by
    refine ⟨fun message hmem => ?_, ?_⟩
    · rcases List.mem_append.mp hmem with hbefore | hresult
      · exact (plain message hbefore).addressed
      · exact (sendRetryResult_said id result message hresult).answersTo chat
    · rw [List.filterMap_append, filterMap_queryId_of_said (sendRetryResult_said id result),
        List.append_nil, answered]
  cases h with
  | reply plain answered => exact ⟨fun message hmem => (plain message hmem).addressed, answered⟩
  | list chat silent => exact said listUploads_said chat silent
  | upload chat silent => exact said (handleFile_said _ _) chat silent
  | @delete chatId id chat silent =>
      have answer : ∀ message ∈ [Outgoing.sendMessage chatId (doDeleteFile env w id maxReplyLen).2.msg],
          message.SaidTo chatId := by
        intro message hmem
        obtain rfl := List.mem_singleton.mp hmem
        rfl
      exact said answer chat silent
  | @deletePressed cbId under id query hunder =>
      simp only [Instruction.perform]
      split
      · cases under with
        | none => simp [Outgoing.AnswersTo, Outgoing.queryId, query]
        | some place =>
            obtain ⟨chat, msg⟩ := place
            have placed := hunder chat msg rfl
            exact ⟨by simp [Outgoing.AnswersTo, query, placed], by rw [query]; rfl⟩
      · simp [Outgoing.AnswersTo, Outgoing.queryId, query]
  | @retry before chatId id plain answered chat =>
      exact after id (processorRetryOcr bot.processor env w id maxReplyLen).2 plain answered chat
  | @retryWithModel before chatId id model plain answered chat =>
      exact after id (processorRetryOcrWithModel bot.processor env w id model maxReplyLen).2 plain
        answered chat

end Perform

/-- Every message goes back to where the update came from; a button press that has all its parts
is answered once, and nothing else is answered. -/
theorem replies_answer_the_update (bot : TgBot) (env : Externals) (w : World)
    (update : Option CJson) :
    (∀ message ∈ (botDispatchUpdate bot env w update).2, message.AnswersTo update) ∧
      (botDispatchUpdate bot env w update).2.filterMap Outgoing.queryId =
        (answerable update).toList := by
  rw [botDispatchUpdate_eq]
  exact readUpdate_answersTo.perform

section Isolation
variable {bot : TgBot} {update : CJson}

theorem readCallback_of_unauthorised {cbQuery : Option CJson}
    (h : ∀ userId, numericId (member cbQuery "from") = some userId →
      configIsAllowed bot.cfg userId = false) :
    ∃ messages : List Outgoing, readCallback bot cbQuery = .reply messages ∧
      messages.length ≤ 1 := by
  unfold readCallback
  split
  · next data cbId cbFrom cbMessage _ _ hfrom _ =>
      split
      · exact ⟨[], rfl, Nat.zero_le 1⟩
      · next userId hid =>
          have denied := h userId (by rw [hfrom, hid])
          exact ⟨_, if_pos (by simp [denied]), Nat.le_refl 1⟩
  · exact ⟨[], rfl, Nat.zero_le 1⟩

theorem readMessage_of_unauthorised {message : Option CJson}
    (h : ∀ userId, numericId (member message "from") = some userId →
      configIsAllowed bot.cfg userId = false) :
    ∃ messages : List Outgoing, readMessage bot message = .reply messages ∧
      messages.length ≤ 1 := by
  unfold readMessage
  cases hid : numericId (member message "from") with
  | none => exact ⟨[], rfl, Nat.zero_le 1⟩
  | some userId =>
      simp only [dispatchAuthCheck, h userId hid, Bool.false_eq_true, if_false]
      cases numericId (member message "chat") with
      | none => exact ⟨[], rfl, Nat.zero_le 1⟩
      | some chatId => exact ⟨_, rfl, Nat.le_refl 1⟩

theorem readUpdate_of_unauthorised (h : authorised bot.cfg update = false) :
    ∃ messages : List Outgoing, readUpdate bot (some update) = .reply messages ∧
      messages.length ≤ 1 := by
  simp only [authorised, senderId] at h
  simp only [readUpdate]
  cases hcb : member (some update) "callback_query" with
  | some cbQuery =>
      simp only [hcb] at h
      refine readCallback_of_unauthorised fun userId hid => ?_
      simpa only [hid] using h
  | none =>
      simp only [hcb] at h
      simp only [Option.isSome_none, Bool.false_eq_true, if_false]
      split
      · refine readMessage_of_unauthorised fun userId hid => ?_
        simpa only [hid] using h
      · exact ⟨[], rfl, Nat.zero_le 1⟩

end Isolation

/-- The dispatcher, and what it answers to each update. -/
def answerStep (bot : TgBot) (w : World) (op : CJson × Externals) :
    World × (CJson × List Outgoing) :=
  ((botDispatchUpdate bot op.2 w op.1).1, (op.1, (botDispatchUpdate bot op.2 w op.1).2))

/-- What an unauthorised sender is told. -/
def refusal (bot : TgBot) (update : CJson) : List Outgoing :=
  match readUpdate bot (some update) with
  | .reply messages => messages
  | _ => []

theorem refusal_length {bot : TgBot} {update : CJson} (h : authorised bot.cfg update = false) :
    (refusal bot update).length ≤ 1 := by
  obtain ⟨messages, hread, hlength⟩ := readUpdate_of_unauthorised h
  simpa only [refusal, hread] using hlength

theorem answerStep_of_unauthorised {bot : TgBot} (w : World) (op : CJson × Externals)
    (h : authorised bot.cfg op.1 = false) :
    answerStep bot w op = (w, (op.1, refusal bot op.1)) := by
  obtain ⟨messages, hread, _⟩ := readUpdate_of_unauthorised h
  simp only [answerStep, botDispatchUpdate_eq, hread, perform_reply, refusal]

/-- Whoever may not use the bot is told at most one thing, and it depends on the update alone,
whatever the bot did before and whatever it holds; the others are told what they would be told
had nobody else written. -/
theorem unauthorised_learn_nothing (bot : TgBot) (w : World)
    (updates : List (CJson × Externals)) :
    (Machine.trace (answerStep bot) w updates).filter (fun told => !authorised bot.cfg told.1) =
        ((updates.map Prod.fst).filter fun update => !authorised bot.cfg update).map
          (fun update => (update, refusal bot update)) ∧
      (∀ update, authorised bot.cfg update = false → (refusal bot update).length ≤ 1) ∧
      (Machine.trace (answerStep bot) w updates).filter (fun told => authorised bot.cfg told.1) =
        Machine.trace (answerStep bot) w
          (updates.filter fun op => authorised bot.cfg op.1) := by
  have stateless (w : World) (op : CJson × Externals) (h : (!authorised bot.cfg op.1) = true) :
      (answerStep bot w op).2 = (op.1, refusal bot op.1) := by
    rw [answerStep_of_unauthorised w op (by simpa using h)]
  have noop (w : World) (op : CJson × Externals) (h : authorised bot.cfg op.1 = false) :
      (answerStep bot w op).1 = w := by
    rw [answerStep_of_unauthorised w op h]
  have others : (Machine.trace (answerStep bot) w updates).filter
      (fun told => !authorised bot.cfg told.1) =
        (updates.filter fun op => !authorised bot.cfg op.1).map
          fun op => (op.1, refusal bot op.1) := by
    refine Machine.trace_filter_stateless ?_ stateless w updates
    exact fun _ _ => rfl
  have theirs : (Machine.trace (answerStep bot) w updates).filter
      (fun told => authorised bot.cfg told.1) =
        Machine.trace (answerStep bot) w (updates.filter fun op => authorised bot.cfg op.1) := by
    refine Machine.trace_filter ?_ noop w updates
    exact fun _ _ => rfl
  refine ⟨?_, fun update h => refusal_length h, theirs⟩
  rw [others, List.filter_map, List.map_map]
  rfl

end Kaufbot
