import Kaufbot.Telegram.Payload
import Kaufbot.Utils

/-!
How a file gets from Telegram to the bot: the path of the file is asked for by
its id, and the file is downloaded from that path. An answer counts when the
call succeeded; nothing is sent twice.
-/

namespace Kaufbot

open CString

/-- Where the bot is, its token, and where its files are. -/
structure BotServer extends BotAddress where
  telegramFileBase : CString

/-- What one call gets: whether curl could be initialised, and the server's answers. -/
structure FetchInput where
  curlInit : Bool
  server : Nat → Exchange

def httpGetRequest (url : CString) : HttpRequest := httpBodilessRequest .get url []

/-- The memory `http_get` returns, or nothing where it returns NULL. -/
def httpGet (input : FetchInput) (url : CString) : Option (List UInt8) :=
  if !input.curlInit then none
  else
    let result := httpClientExecute .default (httpGetRequest url) input.server
    if result.rc ≠ 0 ∨ result.response.success = false then none else result.response.body

section Files
variable (char : CharType) (cjsonParse : CString → Option CJson) (bot : BotServer)

def tgGetFileUrl (fileId : CString) : CString :=
  .concat [bot.telegramApiBase, bot.telegramToken, lit "/getFile?file_id=",
    urlPercentEncode char fileId]

def tgGetFilePath (input : FetchInput) (fileId : CString) : Option CString :=
  match httpGet input (snprintf botUrlBufLen (tgGetFileUrl char bot fileId)) with
  | none => none
  | some resp =>
      match cjsonParse (ofBytes resp) with
      | none => none
      | some json =>
          if !CJson.isTrue (member json "ok") then none
          else CJson.stringValue? (member (member json "result") "file_path")

def tgFileUrl (filePath : CString) : CString :=
  .concat [bot.telegramFileBase, bot.telegramToken, lit "/", filePath]

/-- The download and its length. -/
def tgDownloadFile (input : FetchInput) (filePath : CString) : Option (List UInt8) :=
  httpGet input (snprintf botUrlBufLen (tgFileUrl bot filePath))

end Files

/-- A fetch hands out the body of one answer, to the request it was made for. -/
theorem httpGet_eq_some {input : FetchInput} {url : CString} {body : List UInt8}
    (h : httpGet input url = some body) :
    (input.server 0).response.success = true ∧ (input.server 0).body = some body := by
  obtain ⟨hrc, hresponse⟩ := httpClientExecute_default (httpGetRequest url) input.server
  cases hinit : input.curlInit with
  | false => simp [httpGet, hinit] at h
  | true =>
      cases hsuccess : (input.server 0).response.success with
      | false => simp [httpGet, hinit, hrc, hsuccess] at h
      | true =>
          have handed : (input.server 0).response.body = some body := by
            simpa [httpGet, hinit, hrc, hresponse, hsuccess] using h
          exact ⟨rfl, handed⟩

end Kaufbot
