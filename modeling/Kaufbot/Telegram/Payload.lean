import Kaufbot.Cjson.Parse
import Kaufbot.Infra.HttpClient
import Kaufbot.Telegram.Keyboard

/-!
What each message is on the wire: the tree its sender builds, the request that
posts the tree, and what the posted JSON means as a call of the Bot API. What
a server asks of a request besides, such as UTF-8, is not modelled.
-/

namespace Kaufbot

open CString

def botUrlBufLen : Nat := 2048

def sendMessagePayload (chatId : Int) (text : CString) : CJson :=
  .object [jsonMember "chat_id" (.number (int64ToDouble chatId)), jsonMember "text" (.string text)]

/-- Without a text the query is answered with nothing to show. -/
def answerCallbackQueryPayload (queryId : CString) (text : Option CString) : CJson :=
  .object (jsonMember "callback_query_id" (.string queryId) ::
    (text.map fun text => jsonMember "text" (.string text)).toList)

def deleteMessagePayload (chatId messageId : Int) : CJson :=
  .object [jsonMember "chat_id" (.number (int64ToDouble chatId)),
    jsonMember "message_id" (.number (int64ToDouble messageId))]

def Outgoing.payload : Outgoing → CJson
  | .sendMessage chatId text => sendMessagePayload chatId text
  | .sendMessageWithKeyboard chatId text dbFileId => tgSendMessageWithKeyboard chatId text dbFileId
  | .answerCallbackQuery queryId text => answerCallbackQueryPayload queryId text
  | .deleteMessage chatId messageId => deleteMessagePayload chatId messageId

inductive BotMethod where
  | sendMessage
  | answerCallbackQuery
  | deleteMessage
deriving DecidableEq

def BotMethod.name : BotMethod → CString
  | .sendMessage => lit "sendMessage"
  | .answerCallbackQuery => lit "answerCallbackQuery"
  | .deleteMessage => lit "deleteMessage"

def Outgoing.method : Outgoing → BotMethod
  | .sendMessage _ _ => .sendMessage
  | .sendMessageWithKeyboard _ _ _ => .sendMessage
  | .answerCallbackQuery _ _ => .answerCallbackQuery
  | .deleteMessage _ _ => .deleteMessage

/-- Where the bot is, and its token. -/
structure BotAddress where
  telegramApiBase : CString
  telegramToken : CString

def BotAddress.url (address : BotAddress) (method : BotMethod) : CString :=
  .concat [address.telegramApiBase, address.telegramToken, lit "/", method.name]

/-- What is posted for a message, unless its body cannot be printed. -/
def tgRequest (lib : CJson.NumberTexts) (address : BotAddress) (message : Outgoing) :
    Option HttpRequest :=
  (CJson.printUnformatted lib message.payload).map fun body =>
    httpPostJsonRequest (snprintf botUrlBufLen (address.url message.method)) body

/-! The other side of the wire. Its readers are the abstract ones: what the Bot API
documents a request to mean. -/

/-- A number where an id is documented. -/
def apiId (json : CJson) (name : String) : Option Int :=
  (CJson.numberValue? (member (some json) name)).map doubleToInt64

def apiText (json : CJson) (name : String) : Option CString :=
  CJson.stringValue? (member (some json) name)

/-- The message a body means to a method. With buttons under it the message is one about
the record whose id the first button carries. -/
def apiMeaning (method : BotMethod) (json : CJson) : Option Outgoing :=
  match method with
  | .sendMessage =>
      (apiId json "chat_id").bind fun chatId => (apiText json "text").map fun text =>
        match pressed json 0 with
        | some data => .sendMessageWithKeyboard chatId text (strtoll (data.drop 6)).1
        | none => .sendMessage chatId text
  | .answerCallbackQuery =>
      (apiText json "callback_query_id").map fun queryId =>
        .answerCallbackQuery queryId (apiText json "text")
  | .deleteMessage =>
      (apiId json "chat_id").bind fun chatId => (apiId json "message_id").map fun messageId =>
        .deleteMessage chatId messageId

def apiMethod (address : BotAddress) (url : CString) : Option BotMethod :=
  [.sendMessage, .answerCallbackQuery, .deleteMessage].find? fun method =>
    url == address.url method

/-- The message that the method in the URL and the posted JSON mean. -/
def apiReceives (lib : CJson.NumberTexts) (address : BotAddress) (request : HttpRequest) :
    Option Outgoing :=
  (apiMethod address request.url).bind fun method =>
    (request.body.bind fun body => CJson.parse lib (ofBytes body)).bind (apiMeaning method)

end Kaufbot
