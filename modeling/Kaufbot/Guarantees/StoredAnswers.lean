import Kaufbot.Guarantees.Identifiers
import Kaufbot.Guarantees.JsonRoundTrip
import Kaufbot.Guarantees.NormalForm
import Kaufbot.Guarantees.Provenance
import Kaufbot.Ocr.OcrService

/-!
The bot with the Gemini service behind it. What a run stores or sends on was
the text of a response that arrived whole, to a request of the same run; a text
never says that there was none, also where a short write or a short read has
cut it, and a receipt is stored without blanks around it and without a code
fence.
-/

namespace Kaufbot

open CString Runs StringScan

/-- An update with the answers to its calls and, behind those of the service, the state the
service is in and what it gets from the network when it is to read and when it is to parse. -/
structure ServedUpdate where
  update : CJson
  env : Externals
  reader : GeminiOcrService
  reading : CallInput
  parser : GeminiOcrService
  parsing : CallInput

namespace ServedUpdate
variable (genv : GeminiEnv) (u : ServedUpdate)

/-- What the service sends for a request of the bot, with the answers. -/
def exchanges : Request → List Sent
  | .extractText data filename =>
      (geminiExtractText genv u.reading u.reader.gemini data filename).2.sent
  | .extractTextWithModel data filename model =>
      (geminiExtractTextWithModel genv u.reading u.reader.gemini data filename model).2.sent
  | .parseReceipt ocrText => (geminiParseReceipt genv u.parsing u.parser.gemini ocrText).2.1.sent
  | .getFilePath _ | .downloadFile _ => []

/-- The answer to the call is that of the service. -/
def Answers : Request → Prop
  | .extractText data filename =>
      u.env.extract = (geminiOcrExtractText genv u.reading u.reader data filename).2
  | .extractTextWithModel data filename model =>
      u.env.extract = (geminiOcrExtractTextWithModel genv u.reading u.reader data filename model).2
  | .parseReceipt ocrText =>
      u.env.parse = (geminiOcrParseReceipt genv u.parsing u.parser ocrText).2
  | .getFilePath _ | .downloadFile _ => True

end ServedUpdate

/-- The requests from one world to a later one. -/
def newRequests (w w' : World) : List Request := w'.requests.drop w.requests.length

section Run
variable (genv : GeminiEnv) (bot : TgBot)

def servedStep (w : World) (u : ServedUpdate) : World := dispatchStep bot w (u.update, u.env)

/-- The service answers every request of the step. -/
def Served (w : World) (u : ServedUpdate) : Prop :=
  ∀ r ∈ newRequests w (servedStep bot w u), u.Answers genv r

/-- All that the service sends in a run, with the answers. -/
def exchanges : World → List ServedUpdate → List Sent
  | _, [] => []
  | w, u :: updates =>
      (newRequests w (servedStep bot w u)).flatMap (u.exchanges genv) ++
        exchanges (servedStep bot w u) updates

/-- What the service hands out of these exchanges. -/
def answers (log : List Sent) : Origins where
  image _ := True
  text text := Answered genv log text ∧ occurrence noTextFound.bytes text.bytes = none
  receipt json := ∃ raw, Answered genv log raw ∧ json = stripMarkdownJson raw

end Run

section Service
variable {genv : GeminiEnv} {bot : TgBot} {w : World} {u : ServedUpdate} {log more : List Sent}

theorem explained_more (h : w.Explained (answers genv log)) (within : log ⊆ more) :
    w.Explained (answers genv more) := by
  refine h.mono (fun _ _ => trivial) (fun text answered => ⟨answered.1.mono within, answered.2⟩) ?_
  rintro json ⟨raw, answered, stripped⟩
  exact ⟨raw, answered.mono within, stripped⟩

/-- What an operation brings in was answered to what it sent. -/
theorem ServedUpdate.covers {sent : List Request} (served : ∀ r ∈ sent, u.Answers genv r)
    (within : ∀ r ∈ sent, u.exchanges genv r ⊆ log) (op : FileOp) :
    (answers genv log).Covers u.env op sent where
  image _ _ _ := trivial
  text ask asked reading text accepted := by
    have answer := served ask asked
    have sends := within ask asked
    cases ask with
    | extractText data filename =>
        rw [show u.env.extract = _ from answer] at accepted
        obtain ⟨result, absent⟩ := extractReply_accepted accepted
        exact ⟨(geminiPostAndParse_answered result).mono sends, absent⟩
    | extractTextWithModel data filename model =>
        rw [show u.env.extract = _ from answer] at accepted
        obtain ⟨result, absent⟩ := extractReply_accepted accepted
        exact ⟨(geminiPostAndParse_answered result).mono sends, absent⟩
    | parseReceipt _ | getFilePath _ | downloadFile _ => cases reading
  receipt ocrText asked json accepted := by
    rw [show u.env.parse = _ from served _ asked] at accepted
    obtain ⟨raw, answered, stripped⟩ := geminiOcrParseReceipt_accepted accepted
    exact ⟨raw, answered.mono (within _ asked), stripped⟩

theorem servedStep_explained (served : Served genv bot w u)
    (h : w.Fits ∧ w.Explained (answers genv log)) :
    (servedStep bot w u).Fits ∧ (servedStep bot w u).Explained (answers genv
      (log ++ (newRequests w (servedStep bot w u)).flatMap (u.exchanges genv))) := by
  refine dispatchStep_explained (fun fileOp _ sent requests => ?_)
    ⟨h.1, explained_more h.2 (List.subset_append_left ..)⟩
  have asked : sent ⊆ newRequests w (servedStep bot w u) := by
    change (servedStep bot w u).requests = (w.requests ++ _) ++ sent at requests
    rw [newRequests, requests, List.append_assoc, List.drop_left]
    exact List.subset_append_right ..
  refine ServedUpdate.covers (fun r hr => served r (asked hr)) (fun r hr => ?_) fileOp
  refine List.Subset.trans ?_ (List.subset_append_right ..)
  exact fun x hx => List.mem_flatMap.mpr ⟨r, asked hr, hx⟩

/-- Along a run the service answers, what is kept comes from the exchanges so far. -/
theorem servedRun_explained {updates : List ServedUpdate}
    (served : Guarded (servedStep bot) (Served genv bot) w updates)
    (h : w.Fits ∧ w.Explained (answers genv log)) :
    (run (servedStep bot) w updates).Explained
      (answers genv (log ++ exchanges genv bot w updates)) := by
  induction updates generalizing w log with
  | nil => exact explained_more h.2 (List.subset_append_left ..)
  | cons u updates ih =>
      have next := ih served.2 (servedStep_explained served.1 h)
      rw [List.append_assoc] at next
      exact next

theorem not_infix_of_occurrence {needle l : List UInt8} (nonempty : needle ≠ [])
    (h : occurrence needle l = none) : ¬ needle <:+: l := by
  rw [← cutAt_eq_self h]
  exact not_infix_cutAt nonempty l

theorem normal_stripMarkdownJson (raw : CString) : Normal (stripMarkdownJson raw).bytes := by
  rw [bytes_stripMarkdownJson]
  exact normal_strippedBytes raw.bytes

/-- No beginning of a text of the service says that there is none. -/
theorem beginning_has_text {text : CString} (h : (answers genv log).text text) {bytes : List UInt8}
    (start : bytes <+: text.bytes) :
    (∃ text, Answered genv log text ∧ bytes <+: text.bytes) ∧ ¬ noTextFound.bytes <:+: bytes :=
  ⟨⟨text, h.1, start⟩,
    fun found => not_infix_of_occurrence (by decide) h.2 (found.trans start.isInfix)⟩

end Service

/-- In every run of the bot on the Gemini service: a stored text, and a text that is sent to be
parsed, is the text of a response to a request of the run that arrived whole, or its beginning, and
does not say that nothing was found; every receipt is such a text with its fence taken off, for
good. -/
theorem what_is_stored_was_answered (bot : TgBot) (genv : GeminiEnv)
    (updates : List ServedUpdate)
    (served : Guarded (servedStep bot) (Served genv bot) .empty updates) :
    let w := run (servedStep bot) .empty updates
    let log := exchanges genv bot .empty updates
    (∀ name bytes, w.storage name = some bytes → TextName name →
      (∃ text, Answered genv log text ∧ bytes <+: text.bytes) ∧ ¬ noTextFound.bytes <:+: bytes) ∧
    (∀ ocrText, Request.parseReceipt ocrText ∈ w.requests →
      (∃ text, Answered genv log text ∧ ocrText.bytes <+: text.bytes) ∧
        ¬ noTextFound.bytes <:+: ocrText.bytes) ∧
    ∀ receipt ∈ w.db.receipts,
      (∃ raw, Answered genv log raw ∧ receipt.parsedJson = stripMarkdownJson raw) ∧
        Normal receipt.parsedJson.bytes := by
  intro w log
  have explained : w.Explained (answers genv log) :=
    servedRun_explained served ⟨World.empty_fits, World.empty_explained (answers genv [])⟩
  refine ⟨fun name bytes stored isText => ?_, fun ocrText sent => ?_, fun receipt hreceipt => ?_⟩
  · rcases explained.files name bytes stored with ⟨isImage, _⟩ | ⟨_, text, htext, start⟩
    · exact absurd isImage isText.not_image
    · exact beginning_has_text htext start
  · obtain ⟨text, htext, start⟩ := explained.requests _ sent
    exact beginning_has_text htext start
  · obtain ⟨raw, hraw, hjson⟩ := explained.receipts receipt hreceipt
    exact ⟨⟨raw, hraw, hjson⟩, hjson ▸ normal_stripMarkdownJson raw⟩

section Witness

def cjsonGemini : GeminiEnv where
  zone := .utc
  cjsonParse := CJson.parse CJson.digitTexts
  cjsonPrint := fun item => (CJson.printUnformatted CJson.digitTexts item).getD .empty

/-- A response with one text, which needs no escape. -/
def textResponse (text : CString) : CallInput :=
  let pass : PassInput :=
    { curlInit := true, sentAt := 0, answeredAt := 1
      server := fun _ =>
        { curlError := none, httpCode := 200
          body := some (CString.concat [lit "\x7b\"candidates\":[\x7b\"content\":\x7b\"parts\":",
            lit "[\x7b\"text\":\"", text, lit "\"\x7d]\x7d\x7d]\x7d"]).bytes } }
  { first := pass, second := pass }

def milkInput : CallInput := textResponse (lit "MILK 1.00")

def milkService : GeminiOcrService := ocrServiceGeminiNew (lit "key") (lit "flash") none 0 none

/-- The service reads one line of the document, and makes no more of it than `{}`. -/
def milkUpdate : ServedUpdate where
  update := sentDocument
  env := served
  reader := milkService
  reading := milkInput
  parser := milkService
  parsing := textResponse (lit "\x7b\x7d")

theorem milk_requests : newRequests .empty (servedStep privateBot .empty milkUpdate) =
    [.getFilePath (lit "d"), .downloadFile (lit "documents/1"),
      .extractText [1, 2, 3] (lit "file"), .parseReceipt (lit "MILK 1.00")] := by
  decide +kernel

theorem milk_served :
    Guarded (servedStep privateBot) (Served cjsonGemini privateBot) .empty [milkUpdate] := by
  have read : served.extract = (geminiOcrExtractText cjsonGemini milkInput milkService
      [1, 2, 3] (lit "file")).2 := by decide +kernel
  have parsed : served.parse = (geminiOcrParseReceipt cjsonGemini (textResponse (lit "\x7b\x7d"))
      milkService (lit "MILK 1.00")).2 := by decide +kernel
  refine ⟨?_, trivial⟩
  rw [Served, milk_requests]
  simp only [List.forall_mem_cons, ServedUpdate.Answers]
  exact ⟨trivial, trivial, read, parsed, fun _ h => absurd h List.not_mem_nil⟩

theorem what_is_stored_was_answered_milk :
    let w := run (servedStep privateBot) .empty [milkUpdate]
    let log := exchanges cjsonGemini privateBot .empty [milkUpdate]
    (∀ name bytes, w.storage name = some bytes → TextName name →
      (∃ text, Answered cjsonGemini log text ∧ bytes <+: text.bytes) ∧
        ¬ noTextFound.bytes <:+: bytes) ∧
    (∀ ocrText, Request.parseReceipt ocrText ∈ w.requests →
      (∃ text, Answered cjsonGemini log text ∧ ocrText.bytes <+: text.bytes) ∧
        ¬ noTextFound.bytes <:+: ocrText.bytes) ∧
    ∀ receipt ∈ w.db.receipts,
      (∃ raw, Answered cjsonGemini log raw ∧ receipt.parsedJson = stripMarkdownJson raw) ∧
        Normal receipt.parsedJson.bytes :=
  what_is_stored_was_answered privateBot cjsonGemini [milkUpdate] milk_served

end Witness

end Kaufbot
