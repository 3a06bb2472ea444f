import Kaufbot.Telegram.BotCommands

/-!
The message with the two buttons under it, as the JSON tree that is printed
into the request. The URL and the answer of Telegram are left out: nothing the
bot does later depends on them.
-/

namespace Kaufbot

open CString

/-- `cJSON_AddNumberToObject`, `cJSON_AddStringToObject`, `cJSON_AddItemToObject`: one member. -/
def jsonMember (name : String) (value : CJson) : CString × CJson := (lit name, value)

def callbackDataLen : Nat := 64

def keyboardButton (text : CString) (data : CString) : CJson :=
  .object [jsonMember "text" (.string text),
    jsonMember "callback_data" (.string (snprintf callbackDataLen data))]

def retryData (dbFileId : Int) : CString := .concat [lit "retry:", printInt dbFileId]

def deleteData (dbFileId : Int) : CString := .concat [lit "delete:", printInt dbFileId]

/-- The payload of `tg_send_message_with_keyboard`. -/
def tgSendMessageWithKeyboard (chatId : Int) (text : CString) (dbFileId : Int) : CJson :=
  .object [jsonMember "chat_id" (.number (int64ToDouble chatId)),
    jsonMember "text" (.string text),
    jsonMember "parse_mode" (.string (lit "Markdown")),
    jsonMember "reply_markup" (.object [jsonMember "inline_keyboard" (.array [.array
      [keyboardButton (lit "🔄 Retry OCR") (retryData dbFileId),
        keyboardButton (lit "🗑️ Delete") (deleteData dbFileId)]])])]

/-- What Telegram sends back when a button of the first row is pressed. -/
def pressed (payload : CJson) (index : Int) : Option CString :=
  let keyboard := member (member (some payload) "reply_markup") "inline_keyboard"
  CJson.stringValue? (member (CJson.getArrayItem (CJson.getArrayItem keyboard 0) index)
    "callback_data")

/-- A bot over the local processor with one user. -/
def localBot : TgBot where
  cfg := { allowedUsers := [7], geminiModels := [], maxFileSizeBytes := 0 }
  processor := localProcessor

section Data
variable {id : Int}

theorem length_retryData_lt (hl : -(2 ^ 63) ≤ id) (hu : id < 2 ^ 63) :
    (retryData id).length < callbackDataLen := by
  have := length_printInt_le hl hu
  have hlit : (lit "retry:").bytes.length = 6 := by decide
  simp only [length] at this
  simp [retryData, length, callbackDataLen, hlit]
  omega

theorem length_deleteData_lt (hl : -(2 ^ 63) ≤ id) (hu : id < 2 ^ 63) :
    (deleteData id).length < callbackDataLen := by
  have := length_printInt_le hl hu
  have hlit : (lit "delete:").bytes.length = 7 := by decide
  simp only [length] at this
  simp [deleteData, length, callbackDataLen, hlit]
  omega

theorem pressed_retry (chatId : Int) (text : CString) (hl : -(2 ^ 63) ≤ id) (hu : id < 2 ^ 63) :
    pressed (tgSendMessageWithKeyboard chatId text id) 0 = some (retryData id) := by
  rw [← snprintf_of_length_lt (length_retryData_lt hl hu)]
  rfl

theorem pressed_delete (chatId : Int) (text : CString) (hl : -(2 ^ 63) ≤ id) (hu : id < 2 ^ 63) :
    pressed (tgSendMessageWithKeyboard chatId text id) 1 = some (deleteData id) := by
  rw [← snprintf_of_length_lt (length_deleteData_lt hl hu)]
  rfl

end Data

end Kaufbot
