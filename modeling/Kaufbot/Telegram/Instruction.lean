import Kaufbot.Guarantees.Operations
import Kaufbot.Telegram.Mediation

/-!
What an update tells the bot to do, read off the update alone, and the doing of
it. The dispatcher reads and acts in one go; here the two are apart, and every
property of the dispatcher below is derived from the few things an instruction
can be, never from the code of the handlers. An instruction fetches a file from
Telegram, runs at most one operation on the stored files, and answers.
-/

namespace Kaufbot

open CString

inductive Instruction where
  | reply (messages : List Outgoing)
  | list (chatId : Int)
  | upload (chatId : Int) (fileId originalName : CString)
  | delete (chatId id : Int)
  /-- The message the button is under, if it can be deleted as well. -/
  | deletePressed (cbId : CString) (message : Option (Int × Int)) (id : Int)
  | retry (before : List Outgoing) (chatId id : Int)
  | retryWithModel (before : List Outgoing) (chatId id : Int) (model : CString)

def readDelete (chatId : Int) (text : CString) : Instruction :=
  let arg := commandArg text "/delete"
  if arg.bytes.isEmpty then .reply [.sendMessage chatId (lit "Usage: /delete <id>")]
  else
    match parseIdArg arg with
    | none => .reply [.sendMessage chatId (lit "Invalid ID. Usage: /delete <id>")]
    | some id => .delete chatId id

def readRetryWith (chatId : Int) (text : CString) : Instruction :=
  let arg := commandArg text "/retrywith"
  let example42 := Instruction.reply [.sendMessage chatId
    (lit "Usage: /retrywith <model> <id>\nExample: /retrywith gemini-2.5-flash 42")]
  if arg.bytes.isEmpty then
    .reply [.sendMessage chatId
      (lit "Usage: /retrywith <model> <id>\nUse /models to list available models.")]
  else
    match arg.strchr 32 with
    | none => example42
    | some modelEnd =>
        if modelEnd.length = arg.length then example42
        else
          match parseIdArg (modelEnd.skip 32) with
          | none => .reply [.sendMessage chatId (lit "Invalid ID. Usage: /retrywith <model> <id>")]
          | some id =>
              .retryWithModel [] chatId id
                (snprintf geminiMaxModelLen (arg.take (arg.length - modelEnd.length)))

def readRetry (chatId : Int) (text : CString) : Instruction :=
  let arg := commandArg text "/retry"
  if arg.bytes.isEmpty then .reply [.sendMessage chatId (lit "Usage: /retry <id>")]
  else
    match parseIdArg arg with
    | none => .reply [.sendMessage chatId (lit "Invalid ID. Usage: /retry <id>")]
    | some id => .retry [] chatId id

def readCommand (bot : TgBot) (chatId : Int) (text : CString) : Instruction :=
  if strStartsWith text (lit "/start") || strStartsWith text (lit "/help") then
    .reply (sendHelp chatId)
  else if strStartsWith text (lit "/models") then .reply (sendModels bot chatId)
  else if strStartsWith text (lit "/list") then .list chatId
  else if strStartsWith text (lit "/delete") then readDelete chatId text
  else if strStartsWith text (lit "/retrywith") then readRetryWith chatId text
  else if strStartsWith text (lit "/retry") then readRetry chatId text
  else .reply [.sendMessage chatId (lit "Unknown command. Send /help for instructions.")]

def readFile (chatId : Int) (file : Option CJson) (name : CString) : Instruction :=
  match CJson.stringValue? (member file "file_id") with
  | some fileId => .upload chatId fileId name
  | none => .reply []

def readPhoto (chatId : Int) (photos : Option CJson) : Instruction :=
  let n := CJson.getArraySize photos
  if n ≤ 0 then .reply []
  else readFile chatId (CJson.getArrayItem photos (n - 1)) (lit "photo.jpg")

def readDocument (bot : TgBot) (chatId : Int) (doc : Option CJson) : Instruction :=
  if exceedsLimit bot.cfg doc then
    .reply [.sendMessage chatId (lit "File exceeds 20 MB - Telegram bot API limit.")]
  else readFile chatId doc ((CJson.stringValue? (member doc "file_name")).getD (lit "file"))

/-- The data of a button of the bot, pressed under this message by an allowed sender. -/
def readButton (cbMessage : Option CJson) (cbId data : CString) : Instruction :=
  let chatId := dispatchGetChatId cbMessage
  if data.startsWith (lit "delete:") then
    .deletePressed cbId
      (match numericId (member cbMessage "chat"),
          (CJson.numberValue? (member cbMessage "message_id")).map doubleToInt64 with
        | some chat, some msg => some (chat, msg)
        | _, _ => none)
      (strtoll (data.drop 7)).1
  else if data.startsWith (lit "retry:") then
    let answer := Outgoing.answerCallbackQuery cbId (some (lit "Retrying OCR..."))
    if chatId ≠ 0 then .retry [answer] chatId (strtoll (data.drop 6)).1 else .reply [answer]
  else if data.startsWith (lit "rwm:") then
    let rest := data.drop 4
    match rest.strchr 58 with
    | none => .reply [.answerCallbackQuery cbId none]
    | some colon =>
        let answer := Outgoing.answerCallbackQuery cbId (some (lit "Retrying..."))
        if chatId ≠ 0 then
          .retryWithModel [answer] chatId (strtoll (colon.drop 1)).1
            (snprintf geminiMaxModelLen (rest.take (rest.length - colon.length)))
        else .reply [answer]
  else .reply [.answerCallbackQuery cbId none]

def readCallback (bot : TgBot) (cbQuery : Option CJson) : Instruction :=
  match CJson.stringValue? (member cbQuery "data"), CJson.stringValue? (member cbQuery "id"),
    member cbQuery "from", member cbQuery "message" with
  | some data, some cbId, some cbFrom, some cbMessage =>
      match numericId cbFrom with
      | none => .reply []
      | some userId =>
          if !configIsAllowed bot.cfg userId then
            .reply [.answerCallbackQuery cbId (some (lit "Not authorized."))]
          else readButton cbMessage cbId data
  | _, _, _, _ => .reply []

def readMessage (bot : TgBot) (message : Option CJson) : Instruction :=
  match numericId (member message "from") with
  | none => .reply []
  | some userId =>
      match dispatchAuthCheck bot message userId with
      | (false, refusal) => .reply refusal
      | (true, _) =>
          let chatId := dispatchGetChatId message
          if chatId = 0 then .reply []
          else
            match CJson.stringValue? (member message "text") with
            | some text => readCommand bot chatId text
            | none =>
                if CJson.isArray (member message "photo") then
                  readPhoto chatId (member message "photo")
                else if (member message "document").isSome then
                  readDocument bot chatId (member message "document")
                else
                  .reply [.sendMessage chatId
                    (lit "Unsupported message type. Please send an image or PDF.")]

def readUpdate (bot : TgBot) (update : Option CJson) : Instruction :=
  if (member update "callback_query").isSome then
    readCallback bot (member update "callback_query")
  else if (member update "message").isSome then readMessage bot (member update "message")
  else .reply []

def Instruction.perform (bot : TgBot) (env : Externals) (w : World) :
    Instruction → World × List Outgoing
  | .reply messages => (w, messages)
  | .list chatId => (w, listUploads env w chatId)
  | .upload chatId fileId originalName => handleFile bot env w chatId fileId originalName
  | .delete chatId id =>
      let (w, result) := doDeleteFile env w id maxReplyLen
      (w, [.sendMessage chatId result.msg])
  | .deletePressed cbId message id =>
      let (w, result) := doDeleteFile env w id maxReplyLen
      if result.rc = 0 then
        (w, message.toList.map (fun (chat, msg) => .deleteMessage chat msg) ++
          [.answerCallbackQuery cbId (some (lit "File deleted."))])
      else (w, [.answerCallbackQuery cbId (some result.msg)])
  | .retry before chatId id =>
      let (w, result) := processorRetryOcr bot.processor env w id maxReplyLen
      (w, before ++ sendRetryResult chatId id result)
  | .retryWithModel before chatId id model =>
      let (w, result) := processorRetryOcrWithModel bot.processor env w id model maxReplyLen
      (w, before ++ sendRetryResult chatId id result)

section Reading
variable (bot : TgBot) (env : Externals) (w : World) (chatId : Int)

@[simp] theorem perform_reply (messages : List Outgoing) :
    (Instruction.reply messages).perform bot env w = (w, messages) := rfl

@[simp] theorem perform_list :
    (Instruction.list chatId).perform bot env w = (w, listUploads env w chatId) := rfl

theorem handleDelete_eq (text : CString) :
    handleDelete env w chatId text = (readDelete chatId text).perform bot env w := by
  simp only [handleDelete, readDelete]
  split
  · rfl
  · cases parseIdArg (commandArg text "/delete") <;> rfl

theorem handleRetryWith_eq (text : CString) :
    handleRetryWith bot env w chatId text = (readRetryWith chatId text).perform bot env w := by
  simp only [handleRetryWith, readRetryWith]
  split
  · rfl
  · cases (commandArg text "/retrywith").strchr 32 with
    | none => rfl
    | some modelEnd =>
        simp only
        split
        · rfl
        · cases parseIdArg (modelEnd.skip 32) <;> rfl

theorem handleRetry_eq (text : CString) :
    handleRetry bot env w chatId text = (readRetry chatId text).perform bot env w := by
  simp only [handleRetry, readRetry]
  split
  · rfl
  · cases parseIdArg (commandArg text "/retry") <;> rfl

theorem handleCommand_eq (text : CString) :
    handleCommand bot env w chatId text = (readCommand bot chatId text).perform bot env w := by
  simp only [handleCommand, readCommand, handleDelete_eq bot, handleRetryWith_eq, handleRetry_eq,
    apply_ite (Instruction.perform bot env w), perform_reply, perform_list]

theorem readFile_eq (file : Option CJson) (name : CString) :
    (readFile chatId file name).perform bot env w =
      match CJson.stringValue? (member file "file_id") with
      | some fileId => handleFile bot env w chatId fileId name
      | none => (w, []) := by
  simp only [readFile]
  cases CJson.stringValue? (member file "file_id") <;> rfl

theorem dispatchPhoto_eq (photos : Option CJson) :
    dispatchPhoto bot env w chatId photos = (readPhoto chatId photos).perform bot env w := by
  cases hfile : CJson.stringValue?
      (member (CJson.getArrayItem photos (CJson.getArraySize photos - 1)) "file_id") <;>
    simp only [dispatchPhoto, readPhoto, apply_ite (Instruction.perform bot env w), perform_reply,
      readFile_eq, hfile]

theorem dispatchDocument_eq (doc : Option CJson) :
    dispatchDocument bot env w chatId doc = (readDocument bot chatId doc).perform bot env w := by
  cases hfile : CJson.stringValue? (member doc "file_id") <;>
    simp only [dispatchDocument, readDocument, apply_ite (Instruction.perform bot env w),
      perform_reply, readFile_eq, hfile]

section Button
variable (cbMessage : Option CJson) (cbId data : CString)

theorem callbackDelete_eq (h : data.startsWith (lit "delete:") = true) :
    callbackDelete env w cbMessage cbId data =
      (readButton cbMessage cbId data).perform bot env w := by
  simp only [callbackDelete, readButton, h, if_true, Instruction.perform]
  cases numericId (member cbMessage "chat") with
  | none => rfl
  | some chat =>
      cases (CJson.numberValue? (member cbMessage "message_id")).map doubleToInt64 <;> rfl

theorem callbackRetry_eq (hdelete : data.startsWith (lit "delete:") = false)
    (h : data.startsWith (lit "retry:") = true) :
    callbackRetry bot env w cbMessage cbId data =
      (readButton cbMessage cbId data).perform bot env w := by
  simp only [callbackRetry, readButton, hdelete, h, if_true, Bool.false_eq_true, if_false]
  split <;> rfl

theorem callbackRetryWithModel_eq (hdelete : data.startsWith (lit "delete:") = false)
    (hretry : data.startsWith (lit "retry:") = false) (h : data.startsWith (lit "rwm:") = true) :
    callbackRetryWithModel bot env w cbMessage cbId data =
      (readButton cbMessage cbId data).perform bot env w := by
  simp only [callbackRetryWithModel, readButton, hdelete, hretry, h, if_true, Bool.false_eq_true,
    if_false]
  cases (data.drop 4).strchr 58 with
  | none => rfl
  | some colon =>
      simp only
      split <;> rfl

end Button

theorem dispatchButton_eq (cbMessage : Option CJson) (cbId data : CString) :
    (if data.startsWith (lit "delete:") then callbackDelete env w cbMessage cbId data
      else if data.startsWith (lit "retry:") then callbackRetry bot env w cbMessage cbId data
      else if data.startsWith (lit "rwm:") then
        callbackRetryWithModel bot env w cbMessage cbId data
      else (w, [.answerCallbackQuery cbId none])) =
      (readButton cbMessage cbId data).perform bot env w := by
  cases hdelete : data.startsWith (lit "delete:") with
  | true => exact callbackDelete_eq bot env w cbMessage cbId data hdelete
  | false =>
      cases hretry : data.startsWith (lit "retry:") with
      | true => exact callbackRetry_eq bot env w cbMessage cbId data hdelete hretry
      | false =>
          cases hrwm : data.startsWith (lit "rwm:") with
          | true => exact callbackRetryWithModel_eq bot env w cbMessage cbId data hdelete hretry hrwm
          | false => simp [readButton, hdelete, hretry, hrwm, Instruction.perform]

theorem dispatchCallback_eq (cbQuery : Option CJson) :
    dispatchCallback bot env w cbQuery = (readCallback bot cbQuery).perform bot env w := by
  simp only [dispatchCallback, readCallback]
  cases CJson.stringValue? (member cbQuery "data") with
  | none => rfl
  | some data =>
      cases CJson.stringValue? (member cbQuery "id") with
      | none => rfl
      | some cbId =>
          cases member cbQuery "from" with
          | none => rfl
          | some cbFrom =>
              cases member cbQuery "message" with
              | none => rfl
              | some cbMessage =>
                  simp only
                  cases numericId (some cbFrom) with
                  | none => rfl
                  | some userId =>
                      simp only
                      split
                      · rfl
                      · exact dispatchButton_eq bot env w (some cbMessage) cbId data

theorem dispatchMessage_eq (message : Option CJson) :
    dispatchMessage bot env w message = (readMessage bot message).perform bot env w := by
  simp only [dispatchMessage, readMessage]
  cases numericId (member message "from") with
  | none => rfl
  | some userId =>
      simp only
      rcases dispatchAuthCheck bot message userId with ⟨_ | _, refusal⟩
      · rfl
      · simp only
        split
        · rfl
        · cases CJson.stringValue? (member message "text") with
          | some text => exact handleCommand_eq bot env w _ text
          | none =>
              simp only
              split
              · exact dispatchPhoto_eq bot env w _ _
              · split
                · exact dispatchDocument_eq bot env w _ _
                · rfl

/-- The dispatcher performs what it reads in the update. -/
theorem botDispatchUpdate_eq (update : Option CJson) :
    botDispatchUpdate bot env w update = (readUpdate bot update).perform bot env w := by
  simp only [botDispatchUpdate, readUpdate]
  split
  · exact dispatchCallback_eq bot env w _
  · split
    · exact dispatchMessage_eq bot env w _
    · rfl

end Reading

end Kaufbot
