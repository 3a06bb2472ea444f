import Kaufbot.Infra.HttpClient
import Kaufbot.Library.Calendar
import Kaufbot.Library.Runs
import Kaufbot.Ocr.GeminiText

/-!
The Gemini client. A call makes one pass, or two when it is sent again to the
fallback model; every pass reads the clock, sends a request and is answered as
its inputs say. A session is a client and the calls it has made, each with the
requests that left the process.
-/

namespace Kaufbot

open CString Runs

def geminiMaxApiKeyLen : Nat := 256
def geminiUrlBufLen : Nat := 1024

def geminiApiBase : CString := lit "https://generativelanguage.googleapis.com/v1beta/models"
def geminiFallbackModel : CString := lit "gemma-3-27b-it"

/-- The machine and the JSON library under a client. -/
structure GeminiEnv where
  zone : TimeZone
  /-- `cJSON_Parse`. -/
  cjsonParse : CString → Option CJson
  /-- `cJSON_PrintUnformatted`. -/
  cjsonPrint : CJson → CString

structure GeminiClient where
  apiKey : CString
  model : CString
  fallbackModel : CString
  apiBase : CString
  fallbackEnabled : Int
  fallbackUntil : Int
  lastTokens : TokenUsage
deriving DecidableEq

def geminiNew (apiKey model : CString) (fallbackModel : Option CString) (fallbackEnabled : Int)
    (apiBase : Option CString) : GeminiClient where
  apiKey := snprintf geminiMaxApiKeyLen apiKey
  model := snprintf geminiMaxModelLen model
  fallbackModel := snprintf geminiMaxModelLen (fallbackModel.getD geminiFallbackModel)
  apiBase := snprintf geminiUrlBufLen (apiBase.getD geminiApiBase)
  fallbackEnabled := fallbackEnabled
  fallbackUntil := 0
  lastTokens := .zero

def geminiLastTokens (client : GeminiClient) : Int := client.lastTokens.totalTokens

def nextMidnight (zone : TimeZone) (now : Int) : Int :=
  let tm := zone.localtime now
  zone.mktime { tm with hour := 0, min := 0, sec := 0, mday := tm.mday + 1 }

def GeminiClient.url (client : GeminiClient) (model : CString) : CString :=
  snprintf 2048 (.concat [client.apiBase, lit "/", model, lit ":generateContent?key=",
    client.apiKey])

/-- A fallback period that is over by `now` is forgotten. -/
def GeminiClient.checkExpired (client : GeminiClient) (now : Int) : GeminiClient :=
  if client.fallbackUntil ≠ 0 ∧ now ≥ client.fallbackUntil then { client with fallbackUntil := 0 }
  else client

def GeminiClient.activeModel (client : GeminiClient) : CString :=
  if client.fallbackUntil ≠ 0 then client.fallbackModel else client.model

/-- What one pass gets: whether curl could be initialised, the clock before the request and after
it, and the server's answers to its attempts. -/
structure PassInput where
  curlInit : Bool
  sentAt : Int
  answeredAt : Int
  server : Nat → Exchange

/-- A request that left the process, and its answer. -/
structure Sent where
  sentAt : Int
  answeredAt : Int
  request : HttpRequest
  answer : Exchange

inductive PassExit where
  | returned (result : Option CString)
  | retry

/-- What the caller gets from a completed exchange that the client counts as a success. -/
def geminiResult (env : GeminiEnv) (response : HttpResponse) : Option CString :=
  geminiParseApiResponse env.cjsonParse (response.body.map ofBytes)

/-- The code of `gemini_post_and_parse` from the label `retry` on, up to a return or a jump back
to it. -/
def geminiPass (env : GeminiEnv) (input : PassInput) (triedFallback : Bool)
    (client : GeminiClient) (body : CString) : GeminiClient × List Sent × PassExit :=
  let client := client.checkExpired input.sentAt
  let url := client.url client.activeModel
  if !input.curlInit then (client, [], .returned none)
  else
    let result := httpClientPostJson .default url body input.server
    let sent : Sent :=
      { sentAt := input.sentAt, answeredAt := input.answeredAt
        request := httpPostJsonRequest url body
        answer := input.server (result.attempts - 1) }
    if result.rc ≠ 0 then (client, [sent], .returned none)
    else if result.response.statusCode = httpStatusTooManyRequests ∧ triedFallback = false ∧
        client.fallbackEnabled ≠ 0 then
      ({ client with fallbackUntil := nextMidnight env.zone input.answeredAt }, [sent], .retry)
    else if !result.response.success then (client, [sent], .returned none)
    else
      let metaJson := (result.response.body.map ofBytes).bind env.cjsonParse
      ({ client with lastTokens := tokenUsage metaJson }, [sent],
        .returned (geminiResult env result.response))

/-- One call of `gemini_post_and_parse`: the model the client was set to, the requests it sent, and
its result. -/
structure GeminiCall where
  primary : CString
  sent : List Sent
  result : Option CString

structure CallInput where
  first : PassInput
  second : PassInput

def geminiPostAndParse (env : GeminiEnv) (input : CallInput) (client : GeminiClient)
    (body : CString) : GeminiClient × GeminiCall :=
  match geminiPass env input.first false client body with
  | (after, sent, .returned result) =>
      (after, { primary := client.model, sent := sent, result := result })
  | (after, sent, .retry) =>
      match geminiPass env input.second true after body with
      | (after, again, .returned result) =>
          (after, { primary := client.model, sent := sent ++ again, result := result })
      -- `tried_fallback` is set, so this pass does not jump back.
      | (after, again, .retry) =>
          (after, { primary := client.model, sent := sent ++ again, result := none })

def geminiBuildBodyAndPost (env : GeminiEnv) (input : CallInput) (client : GeminiClient)
    (parts : List CJson) (prompt : CString) (extraText : Option CString) :
    GeminiClient × GeminiCall :=
  geminiPostAndParse env input client (env.cjsonPrint (geminiBody parts prompt extraText))

def geminiExtractText (env : GeminiEnv) (input : CallInput) (client : GeminiClient)
    (data : List UInt8) (filename : CString) : GeminiClient × GeminiCall :=
  geminiBuildBodyAndPost env input client [inlineDataPart data filename] ocrPrompt none

/-- The client's model is swapped for the time of the call. -/
def geminiExtractTextWithModel (env : GeminiEnv) (input : CallInput) (client : GeminiClient)
    (data : List UInt8) (filename model : CString) : GeminiClient × GeminiCall :=
  let saved := snprintf geminiMaxModelLen client.model
  let swapped := { client with model := snprintf geminiMaxModelLen model }
  let (after, call) := geminiExtractText env input swapped data filename
  ({ after with model := snprintf geminiMaxModelLen saved }, call)

def geminiParseReceipt (env : GeminiEnv) (input : CallInput) (client : GeminiClient)
    (ocrText : CString) : GeminiClient × GeminiCall × Option CString :=
  let (after, call) := geminiBuildBodyAndPost env input client [] parsePrompt (some ocrText)
  (after, call, call.result.map stripMarkdownJson)

inductive GeminiOp where
  | extractText (data : List UInt8) (filename : CString)
  | extractTextWithModel (data : List UInt8) (filename model : CString)
  | parseReceipt (ocrText : CString)

def GeminiOp.apply (env : GeminiEnv) (input : CallInput) (client : GeminiClient) :
    GeminiOp → GeminiClient × GeminiCall
  | .extractText data filename => geminiExtractText env input client data filename
  | .extractTextWithModel data filename model =>
      geminiExtractTextWithModel env input client data filename model
  | .parseReceipt ocrText =>
      let (after, call, _) := geminiParseReceipt env input client ocrText
      (after, call)

structure GeminiSession where
  client : GeminiClient
  calls : List GeminiCall

def GeminiSession.start (client : GeminiClient) : GeminiSession := { client := client, calls := [] }

def geminiStep (env : GeminiEnv) (s : GeminiSession) (op : GeminiOp × CallInput) :
    GeminiSession :=
  let (client, call) := op.1.apply env op.2 s.client
  { client := client, calls := s.calls ++ [call] }

theorem GeminiClient.checkExpired_of_zero {client : GeminiClient} (h : client.fallbackUntil = 0)
    (now : Int) : client.checkExpired now = client :=
  if_neg (fun expired => expired.1 h)

theorem GeminiClient.activeModel_of_zero {client : GeminiClient} (h : client.fallbackUntil = 0) :
    client.activeModel = client.model :=
  if_neg (fun active => active h)

structure SameAddress (c c' : GeminiClient) : Prop where
  apiBase : c'.apiBase = c.apiBase
  apiKey : c'.apiKey = c.apiKey

theorem SameAddress.url {c c' : GeminiClient} (h : SameAddress c c') (model : CString) :
    c'.url model = c.url model := by
  simp only [GeminiClient.url, h.apiBase, h.apiKey]

def primarySent (input : PassInput) (client : GeminiClient) (body : CString) : Sent where
  sentAt := input.sentAt
  answeredAt := input.answeredAt
  request := httpPostJsonRequest (client.url client.model) body
  answer := input.server 0

/-- What holds of a client, the call it makes and the client after it while no fallback period
runs: at most one request, to the client's model, and nothing changes but the token counts. -/
structure PrimaryCall (client : GeminiClient) (input : CallInput) (after : GeminiClient)
    (call : GeminiCall) : Prop where
  sent : ∃ body, call.sent = if input.first.curlInit then
    [primarySent input.first { client with model := call.primary } body] else []
  address : SameAddress client after
  fallbackUntil : after.fallbackUntil = 0

section Calls
variable (env : GeminiEnv) {client : GeminiClient}

/-- The return code of the HTTP client hides a 429, so the pass does not jump back to `retry`. -/
theorem geminiPass_eq (noFallback : client.fallbackUntil = 0) (input : PassInput)
    (triedFallback : Bool) (body : CString) :
    ∃ tokens result, geminiPass env input triedFallback client body =
      ({ client with lastTokens := tokens },
        if input.curlInit then [primarySent input client body] else [], .returned result) := by
  simp only [geminiPass, client.checkExpired_of_zero noFallback,
    client.activeModel_of_zero noFallback]
  cases input.curlInit with
  | false => exact ⟨client.lastTokens, none, rfl⟩
  | true =>
      simp only [Bool.not_true, Bool.false_eq_true, if_false, if_true]
      generalize hresult : httpClientPostJson .default (client.url client.model) body input.server =
        result
      have answer : input.server (result.attempts - 1) = input.server 0 := by
        simp [← hresult, httpClientPostJson, httpClientExecute, HttpClientConfig.default]
      rw [answer]
      split
      · exact ⟨client.lastTokens, none, rfl⟩
      · next hrc =>
          have status : result.response.statusCode < 300 := by
            rw [← hresult] at hrc ⊢
            exact (httpClientExecute_status (not_not.mp hrc)).2
          have notLimited : result.response.statusCode ≠ httpStatusTooManyRequests := by
            rw [httpStatusTooManyRequests]
            omega
          rw [if_neg (fun h => notLimited h.1)]
          split
          · exact ⟨client.lastTokens, none, rfl⟩
          · exact ⟨_, _, rfl⟩

theorem geminiPostAndParse_primary (noFallback : client.fallbackUntil = 0) (input : CallInput)
    (body : CString) :
    PrimaryCall client input (geminiPostAndParse env input client body).1
      (geminiPostAndParse env input client body).2 := by
  obtain ⟨tokens, result, pass⟩ := geminiPass_eq env noFallback input.first false body
  simp only [geminiPostAndParse, pass]
  exact ⟨⟨body, rfl⟩, ⟨rfl, rfl⟩, noFallback⟩

theorem GeminiOp.apply_primary (noFallback : client.fallbackUntil = 0) (input : CallInput)
    (op : GeminiOp) :
    PrimaryCall client input (op.apply env input client).1 (op.apply env input client).2 := by
  cases op with
  | extractText data filename => exact geminiPostAndParse_primary env noFallback input _
  | extractTextWithModel data filename model =>
      let swapped := { client with model := snprintf geminiMaxModelLen model }
      have swappedNoFallback : swapped.fallbackUntil = 0 := noFallback
      have call := geminiPostAndParse_primary env swappedNoFallback input
        (env.cjsonPrint (geminiBody [inlineDataPart data filename] ocrPrompt none))
      exact ⟨call.sent, ⟨call.address.apiBase, call.address.apiKey⟩, call.fallbackUntil⟩
  | parseReceipt ocrText => exact geminiPostAndParse_primary env noFallback input _

end Calls

end Kaufbot
