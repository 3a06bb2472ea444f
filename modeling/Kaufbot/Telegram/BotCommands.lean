import Kaufbot.Ocr.GeminiText
import Kaufbot.Processor.Pipeline

/-!
The update dispatcher and the command, button and file handlers behind it.
Messages to Telegram are returned as a list; nothing the handlers do depends on
whether they arrive.
-/

namespace Kaufbot

open CString

def maxListEntries : Nat := 10
def maxReplyLen : ℕ+ := ⟨4096, by decide⟩

/-- The part of `Config` the handlers read. -/
structure Config where
  allowedUsers : List Int
  geminiModels : List CString
  maxFileSizeBytes : Int

structure TgBot where
  cfg : Config
  processor : Processor

inductive Outgoing where
  | sendMessage (chatId : Int) (text : CString)
  | sendMessageWithKeyboard (chatId : Int) (text : CString) (dbFileId : Int)
  | answerCallbackQuery (queryId : CString) (text : Option CString)
  | deleteMessage (chatId messageId : Int)
deriving DecidableEq

def configIsAllowed (cfg : Config) (userId : Int) : Bool := cfg.allowedUsers.contains userId

structure ListCtx where
  buf : CString
  pos : Int
  cap : Int
  count : Nat

def listCb (c : ListCtx) (rec : FileRecord) : ListCtx :=
  if c.count ≥ maxListEntries then c
  else
    let remaining := c.cap - c.pos
    if remaining ≤ 0 then c
    else
      let entry := CString.concat [lit "#", printInt rec.id, lit " - ", rec.savedFileName,
        lit "\n   ", rec.originalFileName, lit " | ", printInt rec.fileSizeBytes,
        lit " bytes | ", if rec.isOcrProcessed ≠ 0 then lit "done" else lit "pending",
        lit "\n\n"]
      { c with
        buf := c.buf ++ snprintf remaining.toNat entry
        pos := if entry.length < remaining then c.pos + entry.length else c.cap - 1
        count := c.count + 1 }

/-- The text starts with the command, and a space or the end follows it. -/
def strStartsWith (text cmd : CString) : Bool :=
  text.startsWith cmd &&
    ((text.drop cmd.length).bytes.head? == none || (text.drop cmd.length).bytes.head? == some 32)

def commandArg (text : CString) (cmd : String) : CString :=
  (text.drop (lit cmd).length).skip 32

structure DeleteResult where
  rc : Int
  msg : CString
deriving DecidableEq

def doDeleteFile (env : Externals) (w : World) (dbFileId : Int) (msgLen : Nat) :
    World × DeleteResult :=
  match sqliteFindById env.findById w.db dbFileId with
  | .found rec =>
      let storage := w.storage
      let storage := if rec.savedFileName.bytes.isEmpty then storage
        else (localDeleteFile env.deleteSaved storage rec.savedFileName).1
      let storage := if rec.ocrFileName.bytes.isEmpty then storage
        else (localDeleteFile env.deleteOcr storage rec.ocrFileName).1
      let (db, rc) := sqliteDeleteFile env.deleteRow w.db dbFileId
      let w := { w with db := db, storage := storage }
      if rc ≠ 0 then
        (w, { rc := -1, msg := snprintf msgLen (.concat [lit "Failed to delete file ",
          printInt dbFileId, lit "."]) })
      else
        (w, { rc := 0, msg := snprintf msgLen (.concat [lit "Deleted: ", rec.originalFileName,
          lit " (ID: ", printInt dbFileId, lit ")"]) })
  | _ =>
      (w, { rc := -1, msg := snprintf msgLen (.concat [lit "File with ID ", printInt dbFileId,
        lit " not found."]) })

def sendHelp (chatId : Int) : List Outgoing :=
  [.sendMessage chatId (lit ("Kaufbot - Receipt Scanner\n\nSend me a receipt photo or PDF and I will:\n" ++
    "  1. Extract text via Gemini OCR\n  2. Parse items, totals, and store name\n" ++
    "  3. Save results for later\n\nCommands:\n  /help              - this message\n" ++
    "  /list              - recent uploads\n  /delete <id>       - delete a file\n" ++
    "  /retry <id>        - re-parse OCR text\n" ++
    "  /retrywith <model> <id> - re-run OCR with a model\n" ++
    "  /models            - list available models"))]

/-- At most eight models of at most 127 characters, so the buffer is never full. -/
def sendModels (bot : TgBot) (chatId : Int) : List Outgoing :=
  let entries := bot.cfg.geminiModels.zipIdx.map (fun (model, i) =>
    CString.concat [lit "  ", printNat (i + 1), lit ". `", model, lit "`\n"])
  [.sendMessage chatId (snprintf maxReplyLen (.concat ([lit "Available Gemini models:\n\n"] ++
    entries ++ [lit "\nUse: /retrywith <model> <id>\nExample: /retrywith ",
      bot.cfg.geminiModels.headD (lit "gemini-2.5-flash"), lit " <id>"])))]

def listUploads (env : Externals) (w : World) (chatId : Int) : List Outgoing :=
  let header := lit "Recent uploads:\n\n"
  let ctx : ListCtx := { buf := header, pos := header.length, cap := maxReplyLen, count := 0 }
  [.sendMessage chatId ((sqliteList env.listDelivered w.db).foldl listCb ctx).buf]

/-- A finished retry is answered with the keyboard, a failed one without. -/
def sendRetryResult (chatId id : Int) (result : RetryResult) : List Outgoing :=
  if result.rc = 0 then [.sendMessageWithKeyboard chatId result.reply id]
  else [.sendMessage chatId result.reply]

def parseIdArg (arg : CString) : Option Int :=
  let (id, rest) := strtoll arg
  if rest.length = arg.length ∨ rest ≠ [] then none else some id

def handleDelete (env : Externals) (w : World) (chatId : Int) (text : CString) :
    World × List Outgoing :=
  let arg := commandArg text "/delete"
  if arg.bytes.isEmpty then (w, [.sendMessage chatId (lit "Usage: /delete <id>")])
  else
    match parseIdArg arg with
    | none => (w, [.sendMessage chatId (lit "Invalid ID. Usage: /delete <id>")])
    | some id =>
        let (w, result) := doDeleteFile env w id maxReplyLen
        (w, [.sendMessage chatId result.msg])

def handleRetryWith (bot : TgBot) (env : Externals) (w : World) (chatId : Int)
    (text : CString) : World × List Outgoing :=
  let arg := commandArg text "/retrywith"
  if arg.bytes.isEmpty then
    (w, [.sendMessage chatId
      (lit "Usage: /retrywith <model> <id>\nUse /models to list available models.")])
  else
    match arg.strchr 32 with
    | none =>
        (w, [.sendMessage chatId
          (lit "Usage: /retrywith <model> <id>\nExample: /retrywith gemini-2.5-flash 42")])
    | some modelEnd =>
        if modelEnd.length = arg.length then
          (w, [.sendMessage chatId
            (lit "Usage: /retrywith <model> <id>\nExample: /retrywith gemini-2.5-flash 42")])
        else
          let model := snprintf geminiMaxModelLen (arg.take (arg.length - modelEnd.length))
          match parseIdArg (modelEnd.skip 32) with
          | none =>
              (w, [.sendMessage chatId (lit "Invalid ID. Usage: /retrywith <model> <id>")])
          | some id =>
              let (w, result) :=
                processorRetryOcrWithModel bot.processor env w id model maxReplyLen
              (w, sendRetryResult chatId id result)

def handleRetry (bot : TgBot) (env : Externals) (w : World) (chatId : Int) (text : CString) :
    World × List Outgoing :=
  let arg := commandArg text "/retry"
  if arg.bytes.isEmpty then (w, [.sendMessage chatId (lit "Usage: /retry <id>")])
  else
    match parseIdArg arg with
    | none => (w, [.sendMessage chatId (lit "Invalid ID. Usage: /retry <id>")])
    | some id =>
        let (w, result) := processorRetryOcr bot.processor env w id maxReplyLen
        (w, sendRetryResult chatId id result)

def handleCommand (bot : TgBot) (env : Externals) (w : World) (chatId : Int) (text : CString) :
    World × List Outgoing :=
  if strStartsWith text (lit "/start") || strStartsWith text (lit "/help") then
    (w, sendHelp chatId)
  else if strStartsWith text (lit "/models") then (w, sendModels bot chatId)
  else if strStartsWith text (lit "/list") then (w, listUploads env w chatId)
  else if strStartsWith text (lit "/delete") then handleDelete env w chatId text
  else if strStartsWith text (lit "/retrywith") then handleRetryWith bot env w chatId text
  else if strStartsWith text (lit "/retry") then handleRetry bot env w chatId text
  else (w, [.sendMessage chatId (lit "Unknown command. Send /help for instructions.")])

def handleFile (bot : TgBot) (env : Externals) (w : World) (chatId : Int)
    (fileId originalName : CString) : World × List Outgoing :=
  let downloading := Outgoing.sendMessage chatId (lit "Downloading...")
  let w := w.request (.getFilePath fileId)
  match env.filePath with
  | none =>
      (w, [downloading,
        .sendMessage chatId (lit "Could not retrieve file info from Telegram.")])
  | some filePath =>
  let w := w.request (.downloadFile filePath)
  match env.download with
  | none => (w, [downloading, .sendMessage chatId (lit "File download failed.")])
  | some data =>
  if data.isEmpty then
    (w, [downloading, .sendMessage chatId (lit "Downloaded file is empty.")])
  else
    let processing := Outgoing.sendMessage chatId (lit "Processing...")
    let (w, result) := processorHandleFile bot.processor env w originalName data maxReplyLen
    let answer := if result.outId > 0 then
        Outgoing.sendMessageWithKeyboard chatId result.reply result.outId
      else .sendMessage chatId result.reply
    (w, [downloading, processing, answer])

def numericId (json : Option CJson) : Option Int :=
  (CJson.numberValue? (member json "id")).map doubleToInt64

/-- Whether the message may be handled, and what an unauthorised sender is told. -/
def dispatchAuthCheck (bot : TgBot) (message : Option CJson) (userId : Int) :
    Bool × List Outgoing :=
  if configIsAllowed bot.cfg userId then (true, [])
  else
    match numericId (member message "chat") with
    | some chatId =>
        (false, [.sendMessage chatId (lit "You are not authorised to use this bot.")])
    | none => (false, [])

def dispatchGetChatId (message : Option CJson) : Int :=
  (numericId (member message "chat")).getD 0

def dispatchPhoto (bot : TgBot) (env : Externals) (w : World) (chatId : Int)
    (photos : Option CJson) : World × List Outgoing :=
  let n := CJson.getArraySize photos
  if n ≤ 0 then (w, [])
  else
    let largest := CJson.getArrayItem photos (n - 1)
    match CJson.stringValue? (member largest "file_id") with
    | some fid => handleFile bot env w chatId fid (lit "photo.jpg")
    | none => (w, [])

/-- A document whose announced size is over the limit is refused before anything is fetched. -/
def exceedsLimit (cfg : Config) (doc : Option CJson) : Bool :=
  match CJson.numberValue? (member doc "file_size") with
  | some size => size > cfg.maxFileSizeBytes
  | none => false

def dispatchDocument (bot : TgBot) (env : Externals) (w : World) (chatId : Int)
    (doc : Option CJson) : World × List Outgoing :=
  if exceedsLimit bot.cfg doc then
    (w, [.sendMessage chatId (lit "File exceeds 20 MB - Telegram bot API limit.")])
  else
    let name := (CJson.stringValue? (member doc "file_name")).getD (lit "file")
    match CJson.stringValue? (member doc "file_id") with
    | some fid => handleFile bot env w chatId fid name
    | none => (w, [])

/-- The button `delete:<id>`. -/
def callbackDelete (env : Externals) (w : World) (cbMessage : Option CJson)
    (cbId data : CString) : World × List Outgoing :=
  let fileId := (strtoll (data.drop 7)).1
  let chatId := numericId (member cbMessage "chat")
  let msgId := (CJson.numberValue? (member cbMessage "message_id")).map doubleToInt64
  let (w, result) := doDeleteFile env w fileId maxReplyLen
  if result.rc = 0 then
    let deleted := match chatId, msgId with
      | some chat, some msg => [Outgoing.deleteMessage chat msg]
      | _, _ => []
    (w, deleted ++ [.answerCallbackQuery cbId (some (lit "File deleted."))])
  else (w, [.answerCallbackQuery cbId (some result.msg)])

/-- The button `retry:<id>`. -/
def callbackRetry (bot : TgBot) (env : Externals) (w : World) (cbMessage : Option CJson)
    (cbId data : CString) : World × List Outgoing :=
  let fileId := (strtoll (data.drop 6)).1
  let retryChatId := dispatchGetChatId cbMessage
  let answer := Outgoing.answerCallbackQuery cbId (some (lit "Retrying OCR..."))
  if retryChatId ≠ 0 then
    let (w, result) := processorRetryOcr bot.processor env w fileId maxReplyLen
    (w, answer :: sendRetryResult retryChatId fileId result)
  else (w, [answer])

/-- The button `rwm:<model>:<id>`. -/
def callbackRetryWithModel (bot : TgBot) (env : Externals) (w : World)
    (cbMessage : Option CJson) (cbId data : CString) : World × List Outgoing :=
  let rest := data.drop 4
  match rest.strchr 58 with
  | none => (w, [.answerCallbackQuery cbId none])
  | some colon =>
      let model := snprintf geminiMaxModelLen (rest.take (rest.length - colon.length))
      let fileId := (strtoll (colon.drop 1)).1
      let retryChatId := dispatchGetChatId cbMessage
      let answer := Outgoing.answerCallbackQuery cbId (some (lit "Retrying..."))
      if retryChatId ≠ 0 then
        let (w, result) := processorRetryOcrWithModel bot.processor env w fileId model maxReplyLen
        (w, answer :: sendRetryResult retryChatId fileId result)
      else (w, [answer])

def dispatchCallback (bot : TgBot) (env : Externals) (w : World) (cbQuery : Option CJson) :
    World × List Outgoing :=
  match CJson.stringValue? (member cbQuery "data"), CJson.stringValue? (member cbQuery "id"),
    member cbQuery "from", member cbQuery "message" with
  | some data, some cbId, some cbFrom, some cbMessage =>
      match numericId cbFrom with
      | none => (w, [])
      | some userId =>
          if !configIsAllowed bot.cfg userId then
            (w, [.answerCallbackQuery cbId (some (lit "Not authorized."))])
          else if data.startsWith (lit "delete:") then callbackDelete env w cbMessage cbId data
          else if data.startsWith (lit "retry:") then callbackRetry bot env w cbMessage cbId data
          else if data.startsWith (lit "rwm:") then
            callbackRetryWithModel bot env w cbMessage cbId data
          else (w, [.answerCallbackQuery cbId none])
  | _, _, _, _ => (w, [])

def dispatchMessage (bot : TgBot) (env : Externals) (w : World) (message : Option CJson) :
    World × List Outgoing :=
  match numericId (member message "from") with
  | none => (w, [])
  | some userId =>
      match dispatchAuthCheck bot message userId with
      | (false, refusal) => (w, refusal)
      | (true, _) =>
          let chatId := dispatchGetChatId message
          if chatId = 0 then (w, [])
          else
            match CJson.stringValue? (member message "text") with
            | some text => handleCommand bot env w chatId text
            | none =>
                if CJson.isArray (member message "photo") then
                  dispatchPhoto bot env w chatId (member message "photo")
                else if (member message "document").isSome then
                  dispatchDocument bot env w chatId (member message "document")
                else
                  (w, [.sendMessage chatId
                    (lit "Unsupported message type. Please send an image or PDF.")])

def botDispatchUpdate (bot : TgBot) (env : Externals) (w : World) (update : Option CJson) :
    World × List Outgoing :=
  if (member update "callback_query").isSome then
    dispatchCallback bot env w (member update "callback_query")
  else if (member update "message").isSome then
    dispatchMessage bot env w (member update "message")
  else (w, [])

end Kaufbot
