import Kaufbot.Guarantees.JsonRoundTrip
import Kaufbot.Telegram.Payload

/-!
A message is posted as the message it was: the JSON of its request means the same
chat, the same text and the same record, whatever bytes the text is made of.
Nothing in a file name, a receipt or a model's answer can close the string it
stands in and say something else. The Bot API also asks for UTF-8; which texts
are is a matter of its own.
-/

namespace Kaufbot

open CString

/-- The ids of a message are ones a request can carry: those of chats and messages have at
most fifteen digits, that of a record 64 bits. -/
def Outgoing.Carried : Outgoing → Prop
  | .sendMessage chatId _ => chatId.natAbs < 10 ^ 15
  | .sendMessageWithKeyboard chatId _ dbFileId =>
      chatId.natAbs < 10 ^ 15 ∧ -(2 ^ 63) ≤ dbFileId ∧ dbFileId < 2 ^ 63
  | .answerCallbackQuery _ _ => True
  | .deleteMessage chatId messageId => chatId.natAbs < 10 ^ 15 ∧ messageId.natAbs < 10 ^ 15

section Payloads
variable {lib : CJson.NumberTexts} {message : Outgoing}

theorem int64ToDouble_small {n : Int} (small : n.natAbs < 10 ^ 15) : int64ToDouble n = n := by
  rw [int64ToDouble]
  exact if_pos (by omega)

theorem doubleToInt64_int64ToDouble {n : Int} (small : n.natAbs < 10 ^ 15) :
    doubleToInt64 (int64ToDouble n) = n := by
  rw [int64ToDouble_small small]
  exact doubleToInt64_intCast (by omega) (by omega)

theorem readsBack_id (integers : CJson.ReadsIntegers lib) {n : Int} (small : n.natAbs < 10 ^ 15) :
    CJson.ReadsBack lib (int64ToDouble n) := by
  rw [int64ToDouble_small small]
  exact integers.readsBack small

theorem allNumbers_keyboard (integers : CJson.ReadsIntegers lib) {chatId : Int}
    (small : chatId.natAbs < 10 ^ 15) (text : CString) (dbFileId : Int) :
    CJson.AllNumbers (CJson.ReadsBack lib) (tgSendMessageWithKeyboard chatId text dbFileId) := by
  have button (text data : CString) :
      CJson.AllNumbers (CJson.ReadsBack lib) (keyboardButton text data) := by
    refine .object ?_
    simp only [List.forall_mem_cons, jsonMember]
    exact ⟨.string _, .string _, fun _ none => absurd none List.not_mem_nil⟩
  refine .object ?_
  simp only [List.forall_mem_cons, jsonMember]
  refine ⟨.number (readsBack_id integers small), .string _, .string _, .object ?_,
    fun _ none => absurd none List.not_mem_nil⟩
  simp only [List.forall_mem_singleton]
  refine .array ?_
  simp only [List.forall_mem_singleton]
  refine .array ?_
  simp only [List.forall_mem_cons]
  exact ⟨button _ _, button _ _, fun _ none => absurd none List.not_mem_nil⟩

theorem allNumbers_payload (integers : CJson.ReadsIntegers lib) (carried : message.Carried) :
    CJson.AllNumbers (CJson.ReadsBack lib) message.payload := by
  cases message with
  | sendMessage chatId text =>
      refine .object ?_
      simp only [List.forall_mem_cons, jsonMember]
      exact ⟨.number (readsBack_id integers carried), .string _,
        fun _ none => absurd none List.not_mem_nil⟩
  | sendMessageWithKeyboard chatId text dbFileId =>
      exact allNumbers_keyboard integers carried.1 text dbFileId
  | answerCallbackQuery queryId text =>
      refine .object ?_
      cases text with
      | none =>
          simp only [Option.map_none, Option.toList_none, List.forall_mem_singleton, jsonMember]
          exact .string _
      | some text =>
          simp only [Option.map_some, Option.toList_some, List.forall_mem_cons, jsonMember]
          exact ⟨.string _, .string _, fun _ none => absurd none List.not_mem_nil⟩
  | deleteMessage chatId messageId =>
      refine .object ?_
      simp only [List.forall_mem_cons, jsonMember]
      exact ⟨.number (readsBack_id integers carried.1), .number (readsBack_id integers carried.2),
        fun _ none => absurd none List.not_mem_nil⟩

theorem nesting_payload (message : Outgoing) :
    CJson.nesting message.payload ≤ CJson.nestingLimit := by
  cases message with
  | sendMessage _ _ => exact (by decide : 1 ≤ CJson.nestingLimit)
  | sendMessageWithKeyboard _ _ _ => exact (by decide : 5 ≤ CJson.nestingLimit)
  | answerCallbackQuery _ text => cases text <;> exact (by decide : 1 ≤ CJson.nestingLimit)
  | deleteMessage _ _ => exact (by decide : 1 ≤ CJson.nestingLimit)

/-- The tree of a message means that message. -/
theorem apiMeaning_payload (carried : message.Carried) :
    apiMeaning message.method message.payload = some message := by
  cases message with
  | sendMessage chatId text =>
      have chat : apiId (sendMessagePayload chatId text) "chat_id" = some chatId :=
        congrArg some (doubleToInt64_int64ToDouble carried)
      have bare : pressed (sendMessagePayload chatId text) 0 = none := rfl
      have inside : apiText (sendMessagePayload chatId text) "text" = some text := rfl
      simp only [Outgoing.method, Outgoing.payload, apiMeaning, chat, bare, inside,
        Option.bind_some, Option.map_some]
  | sendMessageWithKeyboard chatId text dbFileId =>
      obtain ⟨small, lower, upper⟩ := carried
      have chat : apiId (tgSendMessageWithKeyboard chatId text dbFileId) "chat_id" = some chatId :=
        congrArg some (doubleToInt64_int64ToDouble small)
      have inside : apiText (tgSendMessageWithKeyboard chatId text dbFileId) "text" = some text :=
        rfl
      have digits : (retryData dbFileId).drop 6 = printInt dbFileId := by
        apply CString.ext
        simp [retryData, drop, show (lit "retry:").bytes.length = 6 by decide]
      have id : (strtoll ((retryData dbFileId).drop 6)).1 = dbFileId := by
        rw [digits, strtoll_printInt lower upper]
      simp only [Outgoing.method, Outgoing.payload, apiMeaning, chat, inside,
        pressed_retry chatId text lower upper, id, Option.bind_some, Option.map_some]
  | answerCallbackQuery queryId text => cases text <;> rfl
  | deleteMessage chatId messageId =>
      have chat : apiId (deleteMessagePayload chatId messageId) "chat_id" = some chatId :=
        congrArg some (doubleToInt64_int64ToDouble carried.1)
      have id : apiId (deleteMessagePayload chatId messageId) "message_id" = some messageId :=
        congrArg some (doubleToInt64_int64ToDouble carried.2)
      simp only [Outgoing.method, Outgoing.payload, apiMeaning, chat, id, Option.bind_some,
        Option.map_some]

end Payloads

section Requests
variable {lib : CJson.NumberTexts} {address : BotAddress} {message : Outgoing}
  {request : HttpRequest}

theorem name_injective {method method' : BotMethod} (h : method.name = method'.name) :
    method = method' := by
  revert h
  cases method <;> cases method' <;> decide

theorem apiMethod_url (address : BotAddress) (method : BotMethod) :
    apiMethod address (address.url method) = some method := by
  have same (method' : BotMethod) :
      (address.url method == address.url method') = decide (method = method') := by
    by_cases h : method = method'
    · simp [h]
    · have other : address.url method ≠ address.url method' := by
        intro eq
        have bytes := congrArg CString.bytes eq
        simp only [BotAddress.url, bytes_concat, List.flatMap_cons, List.flatMap_nil,
          List.append_nil, List.append_cancel_left_eq] at bytes
        exact h (name_injective (CString.ext bytes))
      simp [h, other]
  simp only [apiMethod, same]
  cases method <;> rfl

theorem length_url_lt (base : address.telegramApiBase.length < 1024)
    (token : address.telegramToken.length < 256) (method : BotMethod) :
    (address.url method).length < botUrlBufLen := by
  have name : method.name.bytes.length ≤ 19 := by cases method <;> decide
  have slash : (lit "/").bytes.length = 1 := by decide
  simp only [CString.length] at base token
  simp only [CString.length, BotAddress.url, bytes_concat, List.flatMap_cons, List.flatMap_nil,
    List.append_nil, List.length_append, slash, botUrlBufLen]
  omega

/-- The request that is posted for a message means the message. -/
theorem messages_arrive (integers : CJson.ReadsIntegers lib)
    (base : address.telegramApiBase.length < 1024) (token : address.telegramToken.length < 256)
    (carried : message.Carried) (posted : tgRequest lib address message = some request) :
    apiReceives lib address request = some message := by
  obtain ⟨body, printed, rfl⟩ := Option.map_eq_some_iff.mp posted
  have read := CJson.parse_print (allNumbers_payload integers carried) printed
  rw [if_pos (nesting_payload message)] at read
  have url : (httpPostJsonRequest (snprintf botUrlBufLen (address.url message.method)) body).url =
      address.url message.method := snprintf_of_length_lt (length_url_lt base token _)
  have sent : (httpPostJsonRequest (snprintf botUrlBufLen (address.url message.method)) body).body =
      some body.bytes := rfl
  rw [apiReceives, url, sent, apiMethod_url, Option.bind_some, Option.bind_some, ofBytes_bytes,
    read, Option.bind_some, apiMeaning_payload carried]

theorem messages_arrive_quote : ∃ request,
    tgRequest CJson.digitTexts { telegramApiBase := lit "https://t/bot", telegramToken := lit "1" }
        (.sendMessage (-1001) (lit "a\",\"chat_id\":\"b")) = some request ∧
      apiReceives CJson.digitTexts
        { telegramApiBase := lit "https://t/bot", telegramToken := lit "1" } request =
        some (.sendMessage (-1001) (lit "a\",\"chat_id\":\"b")) :=
  have carried : (Outgoing.sendMessage (-1001) (lit "a\",\"chat_id\":\"b")).Carried :=
    (by decide : (-1001 : Int).natAbs < 10 ^ 15)
  ⟨_, rfl, messages_arrive CJson.readsIntegers_digitTexts (by decide) (by decide) carried rfl⟩

end Requests

end Kaufbot
