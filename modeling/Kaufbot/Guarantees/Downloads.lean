import Kaufbot.Guarantees.Identifiers
import Kaufbot.Guarantees.JsonRoundTrip
import Kaufbot.Guarantees.Provenance
import Kaufbot.Guarantees.UrlEncoding
import Kaufbot.Library.Uri
import Kaufbot.Telegram.Fetch

/-!
The other direction: a file that is stored is the file the user sent. The two
requests of a fetch ask Telegram for exactly the id in the update and then for
exactly the path that was answered, whatever the bytes of the id are, so a
server that answers what it is asked cannot hand over another file.
-/

namespace Kaufbot

open CString Runs Uri

/-- A path that is its own text in an address, and short enough for it. -/
structure PlainPath (path : CString) : Prop where
  pathChars : ∀ b ∈ path.bytes, IsPathChar b
  start : path.bytes.head? ≠ some slash
  short : path.length ≤ 768

/-- The files Telegram keeps for the bot: a path for an id, and what is there. -/
structure TelegramFiles where
  path : CString → Option CString
  content : CString → Option (List UInt8)
  plain : ∀ fileId filePath, path fileId = some filePath → PlainPath filePath

def TelegramFiles.file (files : TelegramFiles) (fileId : CString) : Option (List UInt8) :=
  (files.path fileId).bind files.content

def BotServer.apiRoot (bot : BotServer) : List UInt8 :=
  (bot.telegramApiBase ++ bot.telegramToken).bytes

def BotServer.fileRoot (bot : BotServer) : List UInt8 :=
  (bot.telegramFileBase ++ bot.telegramToken).bytes

/-- The address asks for the path of the file with this id, and for nothing else. -/
def AsksFor (bot : BotServer) (fileId url : CString) : Prop :=
  ∃ q, Addresses bot.apiRoot [] (lit "getFile").bytes [] (some ((lit "file_id=").bytes ++ q))
      url.bytes ∧ 38 ∉ q ∧ Percent.decode q = some fileId.bytes

/-- The address is that of this path. -/
def AddressesFile (bot : BotServer) (filePath url : CString) : Prop :=
  ∃ x, parts url.bytes =
    { scheme := (parts bot.fileRoot).scheme
      authority := (parts bot.fileRoot).authority
      path := (parts bot.fileRoot).path ++ slash :: x
      query := none
      fragment := none } ∧ Percent.decode x = some filePath.bytes

/-- When a call succeeds, the answer is about what was asked for. -/
structure Honest (files : TelegramFiles) (cjsonParse : CString → Option CJson) (bot : BotServer)
    (request : HttpRequest) (x : Exchange) : Prop where
  getFile : request.method = .get → x.response.success = true →
    ∀ fileId, AsksFor bot fileId request.url → ∀ body json, x.body = some body →
      cjsonParse (ofBytes body) = some json → CJson.isTrue (member json "ok") = true →
      ∀ filePath, CJson.stringValue? (member (member json "result") "file_path") = some filePath →
        files.path fileId = some filePath
  download : request.method = .get → x.response.success = true →
    ∀ filePath, AddressesFile bot filePath request.url → ∀ body, x.body = some body →
      files.content filePath = some body

/-- Both bases are the beginnings of addresses, and the token has the length `config_load`
leaves it. -/
structure BotServer.Configured (bot : BotServer) : Prop where
  apiRoot : IsBase bot.apiRoot
  fileRoot : IsBase bot.fileRoot
  apiBase : bot.telegramApiBase.length < 1024
  fileBase : bot.telegramFileBase.length < 1024
  token : bot.telegramToken.length < 256

/-- The two answers an upload gets from such a server. -/
structure Fetched (files : TelegramFiles) (char : CharType) (cjsonParse : CString → Option CJson)
    (bot : BotServer) (fileId : CString) (env : Externals) : Prop where
  short : fileId.length ≤ 250
  path : ∃ input, env.filePath = tgGetFilePath char cjsonParse bot input fileId ∧
    Honest files cjsonParse bot
      (httpGetRequest (snprintf botUrlBufLen (tgGetFileUrl char bot fileId))) (input.server 0)
  download : ∀ filePath, env.filePath = some filePath → ∃ input,
    env.download = tgDownloadFile bot input filePath ∧
      Honest files cjsonParse bot (httpGetRequest (snprintf botUrlBufLen (tgFileUrl bot filePath)))
        (input.server 0)

section Addresses
variable {bot : BotServer} (char : CharType) {fileId filePath : CString}

theorem getFileUrl_whole (h : bot.Configured) (short : fileId.length ≤ 250) :
    snprintf botUrlBufLen (tgGetFileUrl char bot fileId) = tgGetFileUrl char bot fileId := by
  have encoded := length_flatMap_le char fileId.bytes
  have literal : (lit "/getFile?file_id=").bytes.length = 17 := by decide
  have base := h.apiBase
  have token := h.token
  refine snprintf_of_length_lt ?_
  simp only [CString.length] at base token short
  simp only [CString.length, tgGetFileUrl, bytes_concat, List.flatMap_cons, List.flatMap_nil,
    urlPercentEncode_bytes, List.append_nil, List.length_append, literal, botUrlBufLen]
  omega

theorem fileUrl_whole (h : bot.Configured) (short : filePath.length ≤ 768) :
    snprintf botUrlBufLen (tgFileUrl bot filePath) = tgFileUrl bot filePath := by
  have literal : (lit "/").bytes.length = 1 := by decide
  have base := h.fileBase
  have token := h.token
  refine snprintf_of_length_lt ?_
  simp only [CString.length] at base token short
  simp only [CString.length, tgFileUrl, bytes_concat, List.flatMap_cons, List.flatMap_nil,
    List.append_nil, List.length_append, literal, botUrlBufLen]
  omega

/-- No byte of an id gets out of its parameter. -/
theorem asksFor_getFileUrl (h : bot.Configured) (fileId : CString) :
    AsksFor bot fileId (tgGetFileUrl char bot fileId) := by
  have encoded : Percent.Encoded (urlPercentEncode char fileId).bytes := by
    rw [urlPercentEncode_bytes]
    exact encoded_flatMap char fileId.bytes
  have split : (lit "/getFile?file_id=").bytes =
      slash :: (lit "getFile").bytes ++ question :: (lit "file_id=").bytes := by decide
  have url : (tgGetFileUrl char bot fileId).bytes = bot.apiRoot ++
      slash :: ([] ++ (lit "getFile").bytes ++ []) ++
        (some ((lit "file_id=").bytes ++ (urlPercentEncode char fileId).bytes)).elim []
          (question :: ·) := by
    simp [tgGetFileUrl, BotServer.apiRoot, split]
  have name : Wellformed IsQueryChar (lit "file_id=").bytes :=
    wellformed_of_forall (by decide +kernel)
  refine ⟨(urlPercentEncode char fileId).bytes, ?_,
    encoded.notMem (by decide) (by decide) (by decide), ?_⟩
  · rw [url]
    refine (addresses_iff _ _ _ _ _ (fun _ => by decide)).mpr
      ⟨h.apiRoot, wellformed_of_forall (by decide +kernel), fun q hq => ?_, by decide, by decide⟩
    obtain rfl := Option.some.inj hq
    exact name.append (wellformed_of_encoded encoded)
  · rw [urlPercentEncode_bytes]
    exact decode_flatMap char fileId.bytes

theorem addressesFile_fileUrl (h : bot.Configured) (plain : PlainPath filePath) :
    AddressesFile bot filePath (tgFileUrl bot filePath) := by
  have separator : (lit "/").bytes = [slash] := by decide
  have url : (tgFileUrl bot filePath).bytes = bot.fileRoot ++
      slash :: ([] ++ filePath.bytes ++ []) ++ (none : Option (List UInt8)).elim [] (question :: ·) := by
    simp [tgFileUrl, BotServer.fileRoot, separator]
  refine ⟨filePath.bytes, ?_, Percent.decode_of_notMem fun escaped => ?_⟩
  · have address := parts_address url h.fileRoot (wellformed_of_forall (by simpa using plain.pathChars))
      (fun q hq => absurd hq (by simp)) (by simpa using plain.start)
    simpa using address
  · exact absurd (plain.pathChars _ escaped) (by decide)

end Addresses

section Fetch
variable {files : TelegramFiles} {char : CharType} {cjsonParse : CString → Option CJson}
  {bot : BotServer} {fileId filePath : CString} {env : Externals} {data : List UInt8}

theorem tgGetFilePath_honest (h : bot.Configured) (short : fileId.length ≤ 250)
    {input : FetchInput}
    (honest : Honest files cjsonParse bot
      (httpGetRequest (snprintf botUrlBufLen (tgGetFileUrl char bot fileId))) (input.server 0))
    (answered : tgGetFilePath char cjsonParse bot input fileId = some filePath) :
    files.path fileId = some filePath := by
  rw [getFileUrl_whole char h short] at honest
  simp only [tgGetFilePath, getFileUrl_whole char h short] at answered
  cases hbody : httpGet input (tgGetFileUrl char bot fileId) with
  | none => simp [hbody] at answered
  | some body =>
      obtain ⟨success, there⟩ := httpGet_eq_some hbody
      cases hjson : cjsonParse (ofBytes body) with
      | none => simp [hbody, hjson] at answered
      | some json =>
          simp only [hbody, hjson] at answered
          cases hok : CJson.isTrue (member json "ok") with
          | false => simp [hok] at answered
          | true =>
              simp only [hok, Bool.not_true, Bool.false_eq_true, if_false] at answered
              exact honest.getFile rfl success fileId (asksFor_getFileUrl char h fileId) body json
                there hjson hok filePath answered

theorem tgDownloadFile_honest (h : bot.Configured) (plain : PlainPath filePath)
    {input : FetchInput}
    (honest : Honest files cjsonParse bot
      (httpGetRequest (snprintf botUrlBufLen (tgFileUrl bot filePath))) (input.server 0))
    (answered : tgDownloadFile bot input filePath = some data) :
    files.content filePath = some data := by
  rw [fileUrl_whole h plain.short] at honest
  simp only [tgDownloadFile, fileUrl_whole h plain.short] at answered
  obtain ⟨success, there⟩ := httpGet_eq_some answered
  exact honest.download rfl success filePath (addressesFile_fileUrl h plain) data there

/-- What is fetched for an id is the file with this id. -/
theorem Fetched.file (fetched : Fetched files char cjsonParse bot fileId env) (h : bot.Configured)
    (path : env.filePath = some filePath) (download : env.download = some data) :
    files.file fileId = some data := by
  obtain ⟨input, hpath, honest⟩ := fetched.path
  have known := tgGetFilePath_honest h fetched.short honest (hpath.symm.trans path)
  obtain ⟨input', hdownload, honest'⟩ := fetched.download filePath path
  have there := tgDownloadFile_honest h (files.plain fileId filePath known) honest'
    (hdownload.symm.trans download)
  simp only [TelegramFiles.file, known, Option.bind_some, there]

end Fetch

/-- The files allowed users sent. -/
def sentFiles (bot : TgBot) (files : TelegramFiles) (updates : List (CJson × Externals))
    (data : List UInt8) : Prop :=
  ∃ op ∈ updates, authorised bot.cfg op.1 = true ∧ ∃ chatId fileId originalName,
    readUpdate bot (some op.1) = .upload chatId fileId originalName ∧
      files.file fileId = some data

/-- In every run of the bot on a Telegram that answers what it is asked: every stored image, and
every image that is sent to be read, is the file an allowed user sent, or its beginning. -/
theorem stored_images_were_sent (bot : TgBot) (files : TelegramFiles) (char : CharType)
    (server : BotServer) (configured : server.Configured) (updates : List (CJson × Externals))
    (fetched : ∀ op ∈ updates, ∀ chatId fileId originalName,
      readUpdate bot (some op.1) = .upload chatId fileId originalName →
        Fetched files char bot.processor.cjsonParse server fileId op.2) :
    let w := run (dispatchStep bot) .empty updates
    (∀ name bytes, w.storage name = some bytes → ImageName name →
      ∃ data, sentFiles bot files updates data ∧ bytes <+: data) ∧
    (∀ data originalName, Request.extractText data originalName ∈ w.requests →
      sentFiles bot files updates data) ∧
    ∀ bytes originalName model, Request.extractTextWithModel bytes originalName model ∈ w.requests →
      ∃ data, sentFiles bot files updates data ∧ bytes <+: data := by
  intro w
  have explained : w.Explained
      { image := sentFiles bot files updates, text := fun _ => True, receipt := fun _ => True } :=
    botRun_explained fun op hop fileOp hread _ =>
      { image := by
          rintro originalName data rfl
          obtain ⟨⟨path, hpath⟩, hdownload, chatId, fileId, hupload⟩ :=
            Instruction.fileOp_eq_upload hread
          have answered := fetched op hop chatId fileId originalName hupload
          exact ⟨op, hop, authorised_of_fileOp hread, chatId, fileId, originalName, hupload,
            answered.file configured hpath hdownload⟩
        text := fun _ _ _ _ _ => trivial
        receipt := fun _ _ _ _ => trivial }
  refine ⟨fun name bytes stored isImage => ?_, fun data originalName sent => ?_,
    fun bytes originalName model sent => ?_⟩
  · rcases explained.files name bytes stored with ⟨_, source⟩ | ⟨isText, _⟩
    · exact source
    · exact absurd isImage isText.not_image
  · exact explained.requests _ sent
  · exact explained.requests _ sent

section Witness

def documentFiles : TelegramFiles where
  path fileId := if fileId = lit "d" then some (lit "documents/1") else none
  content filePath := if filePath = lit "documents/1" then some [1, 2, 3] else none
  plain fileId filePath h := by
    split at h
    · obtain rfl := Option.some.inj h
      exact ⟨by decide +kernel, by decide +kernel, by decide⟩
    · cases h

def documentServer : BotServer where
  telegramApiBase := lit "https://t/bot"
  telegramToken := lit "1"
  telegramFileBase := lit "https://t/file/bot"

/-- The calls are answered with this body. -/
def answeredWith (body : List UInt8) : FetchInput where
  curlInit := true
  server _ := { curlError := none, httpCode := 200, body := some body }

def documentPath : CString :=
  lit "\x7b\"ok\":true,\"result\":\x7b\"file_id\":\"d\",\"file_path\":\"documents/1\"\x7d\x7d"

/-- The private bot with the JSON parser. -/
def parsingBot : TgBot where
  cfg := privateBot.cfg
  processor := { localProcessor with cjsonParse := CJson.parse CJson.digitTexts }

def servedByTelegram : Externals :=
  { served with
    filePath := tgGetFilePath .signed (CJson.parse CJson.digitTexts) documentServer
      (answeredWith documentPath.bytes) (lit "d")
    download := tgDownloadFile documentServer (answeredWith [1, 2, 3]) (lit "documents/1") }

theorem documentServer_configured : documentServer.Configured where
  apiRoot := ⟨by decide +kernel, by decide +kernel, by decide +kernel,
    wellformed_of_forall (by decide +kernel)⟩
  fileRoot := ⟨by decide +kernel, by decide +kernel, by decide +kernel,
    wellformed_of_forall (by decide +kernel)⟩
  apiBase := by decide
  fileBase := by decide
  token := by decide

theorem httpGet_answeredWith (body : List UInt8) (url : CString) :
    httpGet (answeredWith body) url = some body := by
  obtain ⟨hrc, hresponse⟩ := httpClientExecute_default (httpGetRequest url)
    (answeredWith body).server
  simp only [httpGet, hrc, hresponse]
  rfl

theorem documentPath_parsed : CJson.parse CJson.digitTexts (ofBytes documentPath.bytes) =
    some (.object [(lit "ok", .bool true), (lit "result", .object
      [(lit "file_id", .string (lit "d")), (lit "file_path", .string (lit "documents/1"))])]) := rfl

/-- Where the two requests go: the first has the id as its query, the second has none. -/
theorem documentRequests :
    (parts (snprintf botUrlBufLen (tgGetFileUrl .signed documentServer (lit "d"))).bytes).query =
        some ((lit "file_id=").bytes ++ [100]) ∧
      (parts (snprintf botUrlBufLen (tgFileUrl documentServer (lit "documents/1"))).bytes).query =
        none ∧
      (parts (snprintf botUrlBufLen (tgFileUrl documentServer (lit "documents/1"))).bytes).path =
        (parts documentServer.fileRoot).path ++ slash :: (lit "documents/1").bytes := by
  decide +kernel

theorem pathRequest_honest : Honest documentFiles (CJson.parse CJson.digitTexts) documentServer
    (httpGetRequest (snprintf botUrlBufLen (tgGetFileUrl .signed documentServer (lit "d"))))
    ((answeredWith documentPath.bytes).server 0) where
  getFile := by
    rintro - - fileId ⟨q, addresses, -, decoded⟩ body json there hjson - filePath hpath
    obtain rfl : documentPath.bytes = body := Option.some.inj there
    obtain rfl : q = [100] := List.append_cancel_left
      (Option.some.inj (addresses.sameQuery.symm.trans documentRequests.1))
    obtain rfl : fileId = lit "d" := CString.ext (Option.some.inj decoded.symm)
    obtain rfl := Option.some.inj (hjson.symm.trans documentPath_parsed)
    obtain rfl : lit "documents/1" = filePath := Option.some.inj hpath
    rfl
  download := by
    rintro - - filePath ⟨x, address, -⟩
    have query : some ((lit "file_id=").bytes ++ [100]) = none :=
      documentRequests.1.symm.trans (congrArg Parts.query address)
    cases query

theorem fileRequest_honest : Honest documentFiles (CJson.parse CJson.digitTexts) documentServer
    (httpGetRequest (snprintf botUrlBufLen (tgFileUrl documentServer (lit "documents/1"))))
    ((answeredWith [1, 2, 3]).server 0) where
  getFile := by
    rintro - - fileId ⟨q, addresses, -, -⟩
    have query : some ((lit "file_id=").bytes ++ q) = none :=
      addresses.sameQuery.symm.trans documentRequests.2.1
    cases query
  download := by
    rintro - - filePath ⟨x, address, decoded⟩ body there
    have path := (congrArg Parts.path address).symm.trans documentRequests.2.2
    obtain rfl : x = (lit "documents/1").bytes :=
      (List.cons.inj (List.append_cancel_left path)).2
    have read : Percent.decode (lit "documents/1").bytes = some (lit "documents/1").bytes := by
      decide +kernel
    obtain rfl : filePath = lit "documents/1" :=
      CString.ext (Option.some.inj (decoded.symm.trans read))
    exact there

theorem servedByTelegram_fetched : Fetched documentFiles .signed (CJson.parse CJson.digitTexts)
    documentServer (lit "d") servedByTelegram where
  short := by decide
  path := ⟨answeredWith documentPath.bytes, rfl, pathRequest_honest⟩
  download filePath path := by
    have answered : servedByTelegram.filePath = some (lit "documents/1") := by
      simp only [servedByTelegram, tgGetFilePath, httpGet_answeredWith, documentPath_parsed]
      rfl
    obtain rfl := Option.some.inj (path.symm.trans answered)
    exact ⟨answeredWith [1, 2, 3], rfl, fileRequest_honest⟩

theorem stored_images_were_sent_document :
    let w := run (dispatchStep parsingBot) .empty [(sentDocument, servedByTelegram)]
    (∀ name bytes, w.storage name = some bytes → ImageName name →
      ∃ data, sentFiles parsingBot documentFiles [(sentDocument, servedByTelegram)] data ∧
        bytes <+: data) ∧
    (∀ data originalName, Request.extractText data originalName ∈ w.requests →
      sentFiles parsingBot documentFiles [(sentDocument, servedByTelegram)] data) ∧
    ∀ bytes originalName model, Request.extractTextWithModel bytes originalName model ∈ w.requests →
      ∃ data, sentFiles parsingBot documentFiles [(sentDocument, servedByTelegram)] data ∧
        bytes <+: data := by
  refine stored_images_were_sent parsingBot documentFiles .signed documentServer
    documentServer_configured [(sentDocument, servedByTelegram)] ?_
  intro op hop chatId fileId originalName hread
  obtain rfl := List.mem_singleton.mp hop
  have reads : readUpdate parsingBot (some sentDocument) = .upload 5 (lit "d") (lit "file") := by
    rfl
  obtain ⟨-, rfl, -⟩ := Instruction.upload.inj (hread.symm.trans reads)
  exact servedByTelegram_fetched

end Witness

end Kaufbot
