import Kaufbot.Telegram.Keyboard

/-!
Buttons and commands mean the same thing. A button carries its id through a
decimal text in a 64-byte buffer, a command through what the user types; both
end in the same call on the same id, and the two ways of naming a model in the
same model.
-/

namespace Kaufbot

open CString

/-- The chat of a message: a whole number a double holds exactly, and not zero. -/
def InChat (message : Option CJson) (chatId : Int) : Prop :=
  CJson.numberValue? (member (member message "chat") "id") = some (chatId : Rat) ∧
    chatId ≠ 0 ∧ -(2 ^ 53) < chatId ∧ chatId < 2 ^ 53

def FromAllowed (bot : TgBot) (sender : Option CJson) : Prop :=
  ∃ userId, numericId sender = some userId ∧ configIsAllowed bot.cfg userId = true

/-- A well-formed `callback_query` with this data. -/
structure ButtonPress (bot : TgBot) (update : Option CJson) (data cbId : CString)
    (chatId : Int) : Prop where
  data : CJson.stringValue? (member (member update "callback_query") "data") = some data
  id : CJson.stringValue? (member (member update "callback_query") "id") = some cbId
  sender : FromAllowed bot (member (member update "callback_query") "from")
  chat : InChat (member (member update "callback_query") "message") chatId

/-- A well-formed text message. -/
structure TextMessage (bot : TgBot) (update : Option CJson) (text : CString)
    (chatId : Int) : Prop where
  noButton : member update "callback_query" = none
  sender : FromAllowed bot (member (member update "message") "from")
  chat : InChat (member update "message") chatId
  text : CJson.stringValue? (member (member update "message") "text") = some text

section Dispatch
variable {bot : TgBot} {update : Option CJson} {data cbId text : CString} {chatId : Int}

theorem InChat.numericId_eq {message : Option CJson} (h : InChat message chatId) :
    numericId (member message "chat") = some chatId := by
  obtain ⟨hnumber, _, hl, hu⟩ := h
  simp only [numericId, hnumber, Option.map_some, doubleToInt64_intCast hl hu]

theorem InChat.dispatchGetChatId_eq {message : Option CJson} (h : InChat message chatId) :
    dispatchGetChatId message = chatId := by
  simp only [dispatchGetChatId, h.numericId_eq, Option.getD_some]

theorem InChat.message_isSome {message : Option CJson} (h : InChat message chatId) :
    message.isSome := by
  cases message with
  | none => exact absurd h.1 (by simp [member, CJson.getObjectItem, CJson.numberValue?])
  | some _ => rfl

/-- A press by an allowed sender reaches the chain of prefix tests. -/
theorem ButtonPress.dispatch (h : ButtonPress bot update data cbId chatId) (env : Externals)
    (w : World) :
    ∃ message, InChat message chatId ∧ botDispatchUpdate bot env w update =
      if data.startsWith (lit "delete:") then callbackDelete env w message cbId data
      else if data.startsWith (lit "retry:") then callbackRetry bot env w message cbId data
      else if data.startsWith (lit "rwm:") then
        callbackRetryWithModel bot env w message cbId data
      else (w, [.answerCallbackQuery cbId none]) := by
  obtain ⟨hdata, hid, ⟨userId, huser, hallowed⟩, hchat⟩ := h
  cases hquery : member update "callback_query" with
  | none =>
      rw [hquery] at hdata
      exact absurd hdata (by simp [member, CJson.getObjectItem, CJson.stringValue?])
  | some query =>
      rw [hquery] at hdata hid huser hchat
      cases hfrom : member (some query) "from" with
      | none =>
          rw [hfrom] at huser
          exact absurd huser (by simp [numericId, member, CJson.getObjectItem, CJson.numberValue?])
      | some sender =>
          rw [hfrom] at huser
          obtain ⟨message, hmessage⟩ := Option.isSome_iff_exists.mp hchat.message_isSome
          refine ⟨some message, hmessage ▸ hchat, ?_⟩
          simp only [botDispatchUpdate, hquery, Option.isSome_some, if_true, dispatchCallback,
            hdata, hid, hfrom, hmessage, huser, hallowed, Bool.not_true, Bool.false_eq_true,
            if_false]

theorem TextMessage.dispatch (h : TextMessage bot update text chatId) (env : Externals)
    (w : World) : botDispatchUpdate bot env w update = handleCommand bot env w chatId text := by
  obtain ⟨hquery, ⟨userId, huser, hallowed⟩, hchat, htext⟩ := h
  have hcheck : dispatchAuthCheck bot (member update "message") userId = (true, []) := by
    simp only [dispatchAuthCheck, hallowed, if_true]
  simp only [botDispatchUpdate, hquery, Option.isSome_none, Bool.false_eq_true, if_false,
    hchat.message_isSome, if_true, dispatchMessage, huser, hcheck, hchat.dispatchGetChatId_eq,
    hchat.2.1, htext]

end Dispatch

section Text
variable {id : Int}

/-- Skipping the blanks before a printed number stops at the number. -/
theorem skip_printInt (id : Int) : (printInt id).skip 32 = printInt id := by
  obtain ⟨b, rest, heq, hb⟩ := printInt_head id
  have hne : b ≠ 32 := by
    rintro rfl
    exact absurd hb (by decide)
  apply CString.ext
  simp only [skip, heq]
  rw [List.dropWhile_cons_of_neg (by simpa using hne)]

theorem skip_blank (s : CString) : (lit " " ++ s).skip 32 = s.skip 32 := by
  have hbytes : (lit " " ++ s).bytes = 32 :: s.bytes := rfl
  apply CString.ext
  simp [skip, hbytes]

theorem parseIdArg_printInt (hl : -(2 ^ 63) ≤ id) (hu : id < 2 ^ 63) :
    parseIdArg (printInt id) = some id := by
  obtain ⟨b, rest, heq, _⟩ := printInt_head id
  simp [parseIdArg, strtoll_printInt hl hu, length, heq]

theorem printInt_not_empty (id : Int) : (printInt id).bytes.isEmpty = false := by
  obtain ⟨b, rest, heq, _⟩ := printInt_head id
  rw [heq]
  rfl

end Text

section Commands
variable {id : Int} (bot : TgBot) (env : Externals) (w : World) (chatId : Int)

theorem handleCommand_retry (hl : -(2 ^ 63) ≤ id) (hu : id < 2 ^ 63) :
    handleCommand bot env w chatId (lit "/retry " ++ printInt id) =
      let result := processorRetryOcr bot.processor env w id maxReplyLen
      (result.1, sendRetryResult chatId id result.2) := by
  have routed : handleCommand bot env w chatId (lit "/retry " ++ printInt id) =
      handleRetry bot env w chatId (lit "/retry " ++ printInt id) := rfl
  have harg : commandArg (lit "/retry " ++ printInt id) "/retry" = printInt id :=
    (skip_blank (printInt id)).trans (skip_printInt id)
  simp only [routed, handleRetry, harg, printInt_not_empty, parseIdArg_printInt hl hu,
    Bool.false_eq_true, if_false]

theorem handleCommand_delete (hl : -(2 ^ 63) ≤ id) (hu : id < 2 ^ 63) :
    handleCommand bot env w chatId (lit "/delete " ++ printInt id) =
      let result := doDeleteFile env w id maxReplyLen
      (result.1, [.sendMessage chatId result.2.msg]) := by
  have routed : handleCommand bot env w chatId (lit "/delete " ++ printInt id) =
      handleDelete env w chatId (lit "/delete " ++ printInt id) := rfl
  have harg : commandArg (lit "/delete " ++ printInt id) "/delete" = printInt id :=
    (skip_blank (printInt id)).trans (skip_printInt id)
  simp only [routed, handleDelete, harg, printInt_not_empty, parseIdArg_printInt hl hu,
    Bool.false_eq_true, if_false]

variable {model : CString}

/-- A name and an id with one separator between them come apart again. -/
theorem split_at_separator (c : UInt8) (separator : CString) (id : Int)
    (hone : separator.bytes = [c]) (hfree : c ∉ model.bytes) :
    (model ++ (separator ++ printInt id)).strchr c = some (separator ++ printInt id) ∧
      (model ++ (separator ++ printInt id)).take
          ((model ++ (separator ++ printInt id)).length -
            (separator ++ printInt id).length) = model ∧
      (separator ++ printInt id).drop 1 = printInt id := by
  refine ⟨?_, ?_, ?_⟩
  · rw [strchr_eq_some]
    simpa [hone] using firstFrom_append (printInt id).bytes hfree
  · apply CString.ext
    simp [length]
  · apply CString.ext
    simp [drop, hone]

theorem skip_model (hne : model ≠ .empty) (hblank : 32 ∉ model.bytes) (rest : CString) :
    (model ++ rest).skip 32 = model ++ rest := by
  obtain ⟨b, tail, heq⟩ : ∃ b tail, model.bytes = b :: tail :=
    List.exists_cons_of_ne_nil (fun h => hne (CString.ext h))
  have hb : b ≠ 32 := by
    rintro rfl
    exact hblank (heq ▸ List.mem_cons_self)
  apply CString.ext
  simp [skip, heq, hb]

theorem handleCommand_retryWith (hl : -(2 ^ 63) ≤ id) (hu : id < 2 ^ 63)
    (hne : model ≠ .empty) (hblank : 32 ∉ model.bytes) :
    handleCommand bot env w chatId (lit "/retrywith " ++ (model ++ (lit " " ++ printInt id))) =
      let result := processorRetryOcrWithModel bot.processor env w id
        (snprintf geminiMaxModelLen model) maxReplyLen
      (result.1, sendRetryResult chatId id result.2) := by
  let arg := model ++ (lit " " ++ printInt id)
  have routed : handleCommand bot env w chatId (lit "/retrywith " ++ arg) =
      handleRetryWith bot env w chatId (lit "/retrywith " ++ arg) := rfl
  have harg : commandArg (lit "/retrywith " ++ arg) "/retrywith" = arg :=
    (skip_blank arg).trans (skip_model hne hblank _)
  obtain ⟨hend, hmodel, _⟩ := split_at_separator 32 (lit " ") id rfl hblank
  have hid : (lit " " ++ printInt id).skip 32 = printInt id :=
    (skip_blank (printInt id)).trans (skip_printInt id)
  have hlen : ¬ (lit " " ++ printInt id).length = (model ++ (lit " " ++ printInt id)).length := by
    have : 0 < model.bytes.length := List.length_pos_iff.mpr (fun h => hne (CString.ext h))
    simp only [length, bytes_append, List.length_append]
    omega
  have hsome : arg.bytes.isEmpty = false := by
    have : model.bytes ≠ [] := fun h => hne (CString.ext h)
    simp [arg, this]
  simp only [routed, handleRetryWith, harg, hsome, Bool.false_eq_true, if_false, arg, hend]
  simp only [hlen, if_false, hmodel, hid, parseIdArg_printInt hl hu]

end Commands

section Presses
variable {bot : TgBot} {press : Option CJson} {cbId : CString} {chatId id : Int}

theorem ButtonPress.retry (h : ButtonPress bot press (retryData id) cbId chatId)
    (hl : -(2 ^ 63) ≤ id) (hu : id < 2 ^ 63) (env : Externals) (w : World) :
    botDispatchUpdate bot env w press =
      let result := processorRetryOcr bot.processor env w id maxReplyLen
      (result.1, .answerCallbackQuery cbId (some (lit "Retrying OCR...")) ::
        sendRetryResult chatId id result.2) := by
  obtain ⟨message, hchat, hdispatch⟩ := h.dispatch env w
  have routed : botDispatchUpdate bot env w press =
      callbackRetry bot env w message cbId (retryData id) := hdispatch
  have hid : (retryData id).drop 6 = printInt id := by
    apply CString.ext
    simp [retryData, drop, show (lit "retry:").bytes.length = 6 by decide]
  simp only [routed, callbackRetry, hid, strtoll_printInt hl hu, hchat.dispatchGetChatId_eq,
    ne_eq, hchat.2.1, not_false_eq_true, if_true]

theorem ButtonPress.delete (h : ButtonPress bot press (deleteData id) cbId chatId)
    (hl : -(2 ^ 63) ≤ id) (hu : id < 2 ^ 63) (env : Externals) (w : World) :
    ∃ cleanup, (∀ sent ∈ cleanup, ∃ messageId, sent = .deleteMessage chatId messageId) ∧
      botDispatchUpdate bot env w press =
        let result := doDeleteFile env w id maxReplyLen
        if result.2.rc = 0 then
          (result.1, cleanup ++ [.answerCallbackQuery cbId (some (lit "File deleted."))])
        else (result.1, [.answerCallbackQuery cbId (some result.2.msg)]) := by
  obtain ⟨message, hchat, hdispatch⟩ := h.dispatch env w
  have routed : botDispatchUpdate bot env w press =
      callbackDelete env w message cbId (deleteData id) := hdispatch
  have hid : (deleteData id).drop 7 = printInt id := by
    apply CString.ext
    simp [deleteData, drop, show (lit "delete:").bytes.length = 7 by decide]
  rw [routed]
  simp only [callbackDelete, hid, strtoll_printInt hl hu, hchat.numericId_eq]
  cases (CJson.numberValue? (member message "message_id")).map doubleToInt64 with
  | none => exact ⟨[], by simp, rfl⟩
  | some messageId => exact ⟨[.deleteMessage chatId messageId], by simp, rfl⟩

theorem ButtonPress.retryWith {model : CString}
    (h : ButtonPress bot press (lit "rwm:" ++ (model ++ (lit ":" ++ printInt id))) cbId chatId)
    (hl : -(2 ^ 63) ≤ id) (hu : id < 2 ^ 63) (hcolon : 58 ∉ model.bytes) (env : Externals)
    (w : World) :
    botDispatchUpdate bot env w press =
      let result := processorRetryOcrWithModel bot.processor env w id
        (snprintf geminiMaxModelLen model) maxReplyLen
      (result.1, .answerCallbackQuery cbId (some (lit "Retrying...")) ::
        sendRetryResult chatId id result.2) := by
  obtain ⟨message, hchat, hdispatch⟩ := h.dispatch env w
  have routed : botDispatchUpdate bot env w press =
      callbackRetryWithModel bot env w message cbId
        (lit "rwm:" ++ (model ++ (lit ":" ++ printInt id))) := hdispatch
  obtain ⟨hend, hmodel, hid⟩ := split_at_separator 58 (lit ":") id rfl hcolon
  have hrest : (lit "rwm:" ++ (model ++ (lit ":" ++ printInt id))).drop 4 =
      model ++ (lit ":" ++ printInt id) := rfl
  simp only [routed, callbackRetryWithModel, hrest, hend]
  simp only [hmodel, hid, strtoll_printInt hl hu, hchat.dispatchGetChatId_eq, ne_eq, hchat.2.1,
    not_false_eq_true, if_true]

end Presses

/-- The two buttons and the two commands for an id make the same call on it, and so do the two
ways of naming a model. -/
theorem buttons_mean_commands (bot : TgBot) (env : Externals) (w : World) (id : Int)
    (hl : -(2 ^ 63) ≤ id) (hu : id < 2 ^ 63) (sentTo : Int) (label : CString)
    (update : Option CJson) (cbId : CString) (chatId : Int) :
    let keyboard := tgSendMessageWithKeyboard sentTo label id
    let dispatched := botDispatchUpdate bot env w update
    let retried := processorRetryOcr bot.processor env w id maxReplyLen
    let deleted := doDeleteFile env w id maxReplyLen
    (pressed keyboard 0 = some (retryData id) ∧
      (ButtonPress bot update (retryData id) cbId chatId →
        dispatched = (retried.1, .answerCallbackQuery cbId (some (lit "Retrying OCR...")) ::
          sendRetryResult chatId id retried.2)) ∧
      (TextMessage bot update (lit "/retry " ++ printInt id) chatId →
        dispatched = (retried.1, sendRetryResult chatId id retried.2))) ∧
    (pressed keyboard 1 = some (deleteData id) ∧
      (ButtonPress bot update (deleteData id) cbId chatId →
        ∃ cleanup, (∀ sent ∈ cleanup, ∃ messageId, sent = .deleteMessage chatId messageId) ∧
          dispatched =
            if deleted.2.rc = 0 then
              (deleted.1, cleanup ++ [.answerCallbackQuery cbId (some (lit "File deleted."))])
            else (deleted.1, [.answerCallbackQuery cbId (some deleted.2.msg)])) ∧
      (TextMessage bot update (lit "/delete " ++ printInt id) chatId →
        dispatched = (deleted.1, [.sendMessage chatId deleted.2.msg]))) ∧
    ∀ model : CString, model ≠ .empty → 32 ∉ model.bytes → 58 ∉ model.bytes →
      let retriedWith := processorRetryOcrWithModel bot.processor env w id
        (snprintf geminiMaxModelLen model) maxReplyLen
      (ButtonPress bot update (lit "rwm:" ++ (model ++ (lit ":" ++ printInt id))) cbId chatId →
        dispatched = (retriedWith.1, .answerCallbackQuery cbId (some (lit "Retrying...")) ::
          sendRetryResult chatId id retriedWith.2)) ∧
      (TextMessage bot update (lit "/retrywith " ++ (model ++ (lit " " ++ printInt id))) chatId →
        dispatched = (retriedWith.1, sendRetryResult chatId id retriedWith.2)) := by
  refine ⟨⟨pressed_retry sentTo label hl hu, fun press => ?_, fun text => ?_⟩,
    ⟨pressed_delete sentTo label hl hu, fun press => ?_, fun text => ?_⟩,
    fun model hne hblank hcolon => ⟨fun press => ?_, fun text => ?_⟩⟩
  · exact press.retry hl hu env w
  · rw [text.dispatch env w, handleCommand_retry bot env w chatId hl hu]
  · exact press.delete hl hu env w
  · rw [text.dispatch env w, handleCommand_delete bot env w chatId hl hu]
  · exact press.retryWith hl hu hcolon env w
  · rw [text.dispatch env w, handleCommand_retryWith bot env w chatId hl hu hne hblank]

section Witness

def pressUpdate (data : CString) : CJson :=
  .object [jsonMember "callback_query" (.object
    [jsonMember "id" (.string (lit "q")), jsonMember "data" (.string data),
      jsonMember "from" (.object [jsonMember "id" (.number 7)]),
      jsonMember "message" (.object
        [jsonMember "chat" (.object [jsonMember "id" (.number 11)])])])]

theorem pressUpdate_press (data : CString) :
    ButtonPress localBot (some (pressUpdate data)) data (lit "q") 11 where
  data := rfl
  id := rfl
  sender := by
    refine ⟨7, ?_, by decide⟩
    change some (doubleToInt64 7) = some 7
    decide +kernel
  chat := ⟨rfl, by decide, by decide, by decide⟩

def textUpdate (text : CString) : CJson :=
  .object [jsonMember "message" (.object
    [jsonMember "text" (.string text), jsonMember "from" (.object [jsonMember "id" (.number 7)]),
      jsonMember "chat" (.object [jsonMember "id" (.number 11)])])]

theorem textUpdate_message (text : CString) :
    TextMessage localBot (some (textUpdate text)) text 11 where
  noButton := rfl
  sender := by
    refine ⟨7, ?_, by decide⟩
    change some (doubleToInt64 7) = some 7
    decide +kernel
  chat := ⟨rfl, by decide, by decide, by decide⟩
  text := rfl

/-- The smallest id by button, a negative one by command, and a model by button. -/
theorem buttons_mean_commands_examples :
    botDispatchUpdate localBot (.working 0 (lit "") (lit "")) .empty
        (some (pressUpdate (retryData (-(2 ^ 63))))) =
      (.empty, [.answerCallbackQuery (lit "q") (some (lit "Retrying OCR...")),
        .sendMessage 11 (lit "File with ID -9223372036854775808 not found.")]) ∧
    botDispatchUpdate localBot (.working 0 (lit "") (lit "")) .empty
        (some (textUpdate (lit "/delete " ++ printInt (-5)))) =
      (.empty, [.sendMessage 11 (lit "File with ID -5 not found.")]) ∧
    botDispatchUpdate localBot (.working 0 (lit "") (lit "")) .empty
        (some (pressUpdate (lit "rwm:" ++ (lit "flash" ++ (lit ":" ++ printInt 3))))) =
      (.empty, [.answerCallbackQuery (lit "q") (some (lit "Retrying...")),
        .sendMessage 11 (lit "🔴 File with ID `3` not found.")]) := by
  refine ⟨?_, ?_, ?_⟩
  · rw [(buttons_mean_commands localBot (.working 0 (lit "") (lit "")) .empty (-(2 ^ 63))
      (by decide) (by decide) 11 (lit "") _ (lit "q") 11).1.2.1 (pressUpdate_press _)]
    rfl
  · rw [(buttons_mean_commands localBot (.working 0 (lit "") (lit "")) .empty (-5)
      (by decide) (by decide) 11 (lit "") _ (lit "q") 11).2.1.2.2 (textUpdate_message _)]
    rfl
  · rw [((buttons_mean_commands localBot (.working 0 (lit "") (lit "")) .empty 3
      (by decide) (by decide) 11 (lit "") _ (lit "q") 11).2.2 (lit "flash") (by decide)
      (by decide) (by decide)).1 (pressUpdate_press _)]
    rfl

end Witness

end Kaufbot
