import Kaufbot.Ocr.Gemini

/-!
The model of one call never leaks into another. A call with a model overwrites
the client's own and puts it back afterwards; whatever became of the request,
the client that is left differs from the one before in its token counts only.
-/

namespace Kaufbot

open CString Runs

/-- The address of a model's endpoint, in full. -/
def GeminiClient.endpoint (client : GeminiClient) (model : CString) : CString :=
  .concat [client.apiBase, lit "/", model, lit ":generateContent?key=", client.apiKey]

/-- The model a call is given, if it is given one. -/
def GeminiOp.givenModel : GeminiOp → Option CString
  | .extractTextWithModel _ _ model => some model
  | .extractText .. | .parseReceipt _ => none

/-- What `gemini_new` stored, and no fallback period. -/
structure KeepsChoice (client after : GeminiClient) : Prop where
  model : after.model = client.model
  fallbackModel : after.fallbackModel = client.fallbackModel
  apiBase : after.apiBase = client.apiBase
  apiKey : after.apiKey = client.apiKey
  noFallback : after.fallbackUntil = 0

section Calls
variable (env : GeminiEnv) {client start : GeminiClient}

/-- A post leaves everything but the token counts, and sends to the client's model. -/
theorem KeepsChoice.post (h : KeepsChoice start client) (input : CallInput) (body : CString) :
    KeepsChoice start (geminiPostAndParse env input client body).1 ∧
      ∀ x ∈ (geminiPostAndParse env input client body).2.sent,
        x.request.url = start.url start.model := by
  obtain ⟨tokens, result, pass⟩ := geminiPass_eq env h.noFallback input.first false body
  have address : SameAddress start client := ⟨h.apiBase, h.apiKey⟩
  simp only [geminiPostAndParse, pass]
  refine ⟨⟨h.model, h.fallbackModel, h.apiBase, h.apiKey, h.noFallback⟩, fun x hx => ?_⟩
  split at hx
  · obtain rfl := List.mem_singleton.mp hx
    exact (address.url client.model).trans (by rw [h.model])
  · exact absurd hx List.not_mem_nil

/-- The swap is undone by every way out of the call inside it. -/
theorem KeepsChoice.apply (h : KeepsChoice start client)
    (stored : snprintf geminiMaxModelLen start.model = start.model) (input : CallInput)
    (op : GeminiOp) :
    KeepsChoice start (op.apply env input client).1 ∧
      ∀ x ∈ (op.apply env input client).2.sent,
        x.request.url =
          start.url (snprintf geminiMaxModelLen (op.givenModel.getD start.model)) := by
  cases op with
  | extractText data filename =>
      simp only [GeminiOp.givenModel, Option.getD_none, stored]
      exact h.post env input _
  | extractTextWithModel data filename model =>
      let given := snprintf geminiMaxModelLen model
      have swapped : KeepsChoice { start with model := given } { client with model := given } :=
        ⟨rfl, h.fallbackModel, h.apiBase, h.apiKey, h.noFallback⟩
      obtain ⟨inside, sent⟩ := swapped.post env input
        (env.cjsonPrint (geminiBody [inlineDataPart data filename] ocrPrompt none))
      refine ⟨⟨?_, inside.fallbackModel, inside.apiBase, inside.apiKey, inside.noFallback⟩, sent⟩
      change snprintf geminiMaxModelLen (snprintf geminiMaxModelLen client.model) = start.model
      rw [snprintf_snprintf, h.model, stored]
  | parseReceipt ocrText =>
      simp only [GeminiOp.givenModel, Option.getD_none, stored]
      exact h.post env input _

theorem keepsChoice_run (h : KeepsChoice start client)
    (stored : snprintf geminiMaxModelLen start.model = start.model)
    (ops : List (GeminiOp × CallInput)) :
    KeepsChoice start (run (geminiStep env) (.start client) ops).client := by
  have kept (s : GeminiSession) (op : GeminiOp × CallInput) (_ : True)
      (h : KeepsChoice start s.client) : KeepsChoice start (geminiStep env s op).client :=
    (h.apply env stored op.2 op.1).1
  exact run_invariant kept (.start client) ops (fun _ _ => trivial) h

end Calls

section New
variable (apiKey model : CString) (fallbackModel : Option CString) (enabled : Int)
  (apiBase : Option CString)

theorem keepsChoice_new :
    KeepsChoice (geminiNew apiKey model fallbackModel enabled apiBase)
      (geminiNew apiKey model fallbackModel enabled apiBase) :=
  ⟨rfl, rfl, rfl, rfl, rfl⟩

/-- The stored base, model and key are short enough for the buffer of the address. -/
theorem url_geminiNew {given : CString} (hgiven : given.length ≤ 127) :
    (geminiNew apiKey model fallbackModel enabled apiBase).url given =
      (geminiNew apiKey model fallbackModel enabled apiBase).endpoint given := by
  apply snprintf_of_length_lt
  have base : (lit "/").bytes.length = 1 := by decide
  have verb : (lit ":generateContent?key=").bytes.length = 21 := by decide
  simp only [length] at hgiven
  simp only [length, bytes_concat, List.flatMap_cons, List.flatMap_nil, List.length_append,
    List.length_nil, base, verb, geminiNew, bytes_snprintf, List.length_take, geminiUrlBufLen,
    geminiMaxApiKeyLen]
  omega

end New

/-- In every session of a client made with the fallback switched off, each request of each call
goes to the endpoint of the model the call was given, or else of the model the client was made
with, and the call leaves the client's choice as it was made. -/
theorem model_choice_stays_local (env : GeminiEnv) (apiKey model : CString)
    (fallbackModel apiBase : Option CString) (hmodel : model.length ≤ 127)
    (earlier : List (GeminiOp × CallInput)) (op : GeminiOp) (input : CallInput)
    (hgiven : ∀ given, op.givenModel = some given → given.length ≤ 127) :
    let client := geminiNew apiKey model fallbackModel 0 apiBase
    let before := (run (geminiStep env) (.start client) earlier).client
    let after := op.apply env input before
    (∀ x ∈ after.2.sent, x.request.url = client.endpoint (op.givenModel.getD model)) ∧
      after.1.model = client.model ∧ after.1.fallbackModel = client.fallbackModel ∧
      after.1.apiBase = client.apiBase ∧ after.1.apiKey = client.apiKey := by
  have whole {name : CString} (h : name.length ≤ 127) : snprintf geminiMaxModelLen name = name :=
    snprintf_of_length_lt (by simp only [geminiMaxModelLen]; omega)
  have stored : (geminiNew apiKey model fallbackModel 0 apiBase).model = model := whole hmodel
  have hasked : (op.givenModel.getD model).length ≤ 127 := by
    cases hop : op.givenModel with
    | none => exact hmodel
    | some given => exact hgiven given hop
  have before := keepsChoice_run env (keepsChoice_new apiKey model fallbackModel 0 apiBase)
    (by rw [stored, whole hmodel]) earlier
  obtain ⟨kept, sent⟩ := before.apply env (by rw [stored, whole hmodel]) input op
  rw [stored, whole hasked] at sent
  refine ⟨fun x hx => ?_, kept.model, kept.fallbackModel, kept.apiBase, kept.apiKey⟩
  rw [sent x hx, url_geminiNew apiKey model fallbackModel 0 apiBase hasked]

section Witness

def bareEnv : GeminiEnv where
  zone := .utc
  cjsonParse := fun _ => none
  cjsonPrint := fun _ => lit "\x7b\x7d"

/-- The service is out of quota. -/
def refusedInput : CallInput :=
  let pass : PassInput :=
    { curlInit := true, sentAt := 0, answeredAt := 1
      server := fun _ => { curlError := none, httpCode := 429, body := none } }
  { first := pass, second := pass }

/-- After a refused call with another model, a parse goes to the client's own. -/
theorem model_choice_stays_local_refused :
    let client := geminiNew (lit "key") (lit "flash") none 0 none
    let before := (run (geminiStep bareEnv) (.start client)
      [(.extractTextWithModel [1] (lit "milk.jpg") (lit "pro"), refusedInput)]).client
    let after := (GeminiOp.parseReceipt (lit "MILK")).apply bareEnv refusedInput before
    (∀ x ∈ after.2.sent, x.request.url = client.endpoint (lit "flash")) ∧
      after.1.model = client.model ∧ after.1.fallbackModel = client.fallbackModel ∧
      after.1.apiBase = client.apiBase ∧ after.1.apiKey = client.apiKey :=
  model_choice_stays_local bareEnv (lit "key") (lit "flash") none none (by decide)
    [(.extractTextWithModel [1] (lit "milk.jpg") (lit "pro"), refusedInput)]
    (.parseReceipt (lit "MILK")) refusedInput (by simp [GeminiOp.givenModel])

end Witness

end Kaufbot
