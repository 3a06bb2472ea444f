import Kaufbot.Library.StringScan
import Kaufbot.Ocr.Gemini
import Kaufbot.Processor.World

/-!
The OCR service over the Gemini client: the error codes its callers see. What
it hands out is the text of a response that was received in full with a 2xx
status, and a response that says there is no text is an error.
-/

namespace Kaufbot

open CString StringScan

structure GeminiOcrService where
  gemini : GeminiClient
  model : CString

def ocrServiceGeminiNew (apiKey model : CString) (fallbackModel : Option CString)
    (fallbackEnabled : Int) (apiBase : Option CString) : GeminiOcrService where
  gemini := geminiNew apiKey model fallbackModel fallbackEnabled apiBase
  model := strncpy (geminiMaxModelLen - 1) model

def noTextFound : CString := lit "[NO TEXT FOUND]"

/-- How both functions that extract a text answer. -/
def extractReply : Option CString → OcrReply
  | none => { error := .api, text := none }
  | some text =>
      if (occurrence noTextFound.bytes text.bytes).isSome then { error := .noText, text := none }
      else { error := .ok, text := some text }

section Service
variable (env : GeminiEnv) (input : CallInput) (service : GeminiOcrService)

def geminiOcrExtractText (data : List UInt8) (filename : CString) : GeminiOcrService × OcrReply :=
  let (gemini, call) := geminiExtractText env input service.gemini data filename
  ({ service with gemini := gemini }, extractReply call.result)

def geminiOcrExtractTextWithModel (data : List UInt8) (filename model : CString) :
    GeminiOcrService × OcrReply :=
  let (gemini, call) := geminiExtractTextWithModel env input service.gemini data filename model
  ({ service with gemini := gemini }, extractReply call.result)

def geminiOcrParseReceipt (ocrText : CString) : GeminiOcrService × OcrReply :=
  let (gemini, _, json) := geminiParseReceipt env input service.gemini ocrText
  ({ service with gemini := gemini },
    match json with
    | none => { error := .parse, text := none }
    | some json => { error := .ok, text := some json })

end Service

def geminiOcrGetModel (service : GeminiOcrService) : CString := service.model

def geminiOcrGetLastTokens (service : GeminiOcrService) : Int := geminiLastTokens service.gemini

/-- One of these requests got a response that arrived whole, with a 2xx status and this text. -/
def Answered (env : GeminiEnv) (exchanges : List Sent) (text : CString) : Prop :=
  ∃ x ∈ exchanges, x.answer.curlError = none ∧ 200 ≤ x.answer.httpCode ∧ x.answer.httpCode < 300 ∧
    geminiResult env x.answer.response = some text

section Answers
variable {env : GeminiEnv} {client : GeminiClient} {text : CString} {exchanges more : List Sent}

theorem Answered.mono (h : Answered env exchanges text) (within : exchanges ⊆ more) :
    Answered env more text := by
  obtain ⟨x, sent, response⟩ := h
  exact ⟨x, within sent, response⟩

theorem geminiPass_answered {input : PassInput} {triedFallback : Bool} {body : CString}
    (h : (geminiPass env input triedFallback client body).2.2 = .returned (some text)) :
    Answered env (geminiPass env input triedFallback client body).2.1 text := by
  simp only [geminiPass] at h ⊢
  split at h
  · cases h
  · next ready =>
    rw [if_neg ready]
    split at h
    · cases h
    · next hrc =>
        have success := (httpClientExecute_rc ..).mp (not_not.mp hrc)
        rw [if_neg hrc]
        split at h
        · cases h
        · next again =>
          rw [if_neg again]
          split at h
          · cases h
          · next succeeded =>
            rw [if_neg succeeded]
            have response := httpAttempts_response HttpClientConfig.default.maxRetries input.server 0
            have result := PassExit.returned.inj h
            simp only [httpClientPostJson, httpClientExecute, response] at success result
            simp only [Exchange.response, Bool.and_eq_true, decide_eq_true_eq,
              Option.isNone_iff_eq_none] at success
            exact ⟨_, List.mem_singleton_self _, success.1, success.2.1, success.2.2, result⟩

theorem geminiPostAndParse_answered {input : CallInput} {body : CString}
    (h : (geminiPostAndParse env input client body).2.result = some text) :
    Answered env (geminiPostAndParse env input client body).2.sent text := by
  simp only [geminiPostAndParse] at h ⊢
  cases first : geminiPass env input.first false client body with
  | mk after pass =>
      obtain ⟨sent, _ | _⟩ := pass
      · rw [first] at h
        have answered := geminiPass_answered (by rw [first]; exact congrArg PassExit.returned h)
        rwa [first] at answered
      · simp only [first] at h ⊢
        cases second : geminiPass env input.second true after body with
        | mk after' pass' =>
            obtain ⟨again, _ | _⟩ := pass'
            · rw [second] at h
              have answered :=
                geminiPass_answered (by rw [second]; exact congrArg PassExit.returned h)
              rw [second] at answered
              exact answered.mono (List.subset_append_right sent again)
            · rw [second] at h
              cases h

/-- A text that is accepted was answered, and the answer did not say that there is none. -/
theorem extractReply_accepted {result : Option CString}
    (h : (extractReply result).accepted = some text) :
    result = some text ∧ occurrence noTextFound.bytes text.bytes = none := by
  cases result with
  | none => cases h
  | some found =>
      simp only [extractReply] at h
      split at h
      · cases h
      · next absent =>
          obtain rfl := Option.some.inj (show some found = some text from h)
          exact ⟨rfl, by simpa using absent⟩

theorem geminiOcrParseReceipt_accepted {input : CallInput} {service : GeminiOcrService}
    {ocrText json : CString}
    (h : (geminiOcrParseReceipt env input service ocrText).2.accepted = some json) :
    ∃ raw, Answered env (geminiParseReceipt env input service.gemini ocrText).2.1.sent raw ∧
      json = stripMarkdownJson raw := by
  simp only [geminiOcrParseReceipt, geminiParseReceipt] at h
  cases hresult : (geminiBuildBodyAndPost env input service.gemini [] parsePrompt
      (some ocrText)).2.result with
  | none =>
      simp only [hresult, Option.map_none] at h
      cases h
  | some raw =>
      simp only [hresult, Option.map_some] at h
      exact ⟨raw, geminiPostAndParse_answered hresult, (Option.some.inj h).symm⟩

end Answers

end Kaufbot
