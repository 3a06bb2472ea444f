import Kaufbot.Guarantees.ReplyParts
import Kaufbot.Guarantees.ReportedSuccess

/-!
The reply of the three pipelines for one record. An upload builds it with the
name it stores the OCR text under, a retry with the name in the record, and a
retry with a model stores the text anew but builds the reply with the name the
record had before. The replies agree, and show the link of the stored text,
exactly when that name was there already, or when there is no address to show.
-/

namespace Kaufbot

open CString

variable {α : Type} [CDouble α]

/-- The reply up to the link of the OCR text. -/
def beforeTextLink (data : ReceiptData α) : List ReplyPart :=
  replyBodyParts data ++ .text (lit "\n") :: replyLinkParts (lit "Original") data.originalUrl

def textLink (url : CString) : List ReplyPart :=
  [.text (lit "\n📄 ["), .text (lit "OCR text"), .text (lit "]("), .url url, .text (lit ")")]

/-- The link stands in the reply, behind the body and the link of the picture. -/
def ShowsTextLink (data : ReceiptData α) (url reply : CString) : Prop :=
  partsBytes (beforeTextLink data ++ textLink url) <+: reply.bytes

def modelSuffix (model : CString) (id : Int) : CString :=
  .concat [lit "\n\n🔑 ID: `", printInt id, lit "`\n🤖 Model: `", model, lit "`"]

section Builder
variable {data : ReceiptData α} {url : CString}

theorem length_reply (data : ReceiptData α) :
    (replyBuilderFormatReceipt data).text.length < maxReplyTextLen := by
  rw [replyBuilderFormatReceipt_eq]
  change (replyWriter data).text.length < maxReplyTextLen
  have short {pieces : List CString} (h : replyWriter data = printAll pieces .start) :
      (replyWriter data).text.length < maxReplyTextLen := by
    have written := length_text_printAll pieces (w := .start) ⟨by decide, by decide⟩
    rw [← h] at written
    exact Nat.lt_succ_of_le written.1
  rcases replyWriter_cases data with ⟨k, -, written⟩ | ⟨-, written⟩
  · exact short written
  · exact short written

theorem size_replyPieces (data : ReceiptData α) :
    size (replyPieces data) = (partsBytes (replyParts data)).length := by
  rw [← replyPieces_bytes, ← length_concat]
  rfl

theorem length_textLink (url : CString) : (partsBytes (textLink url)).length =
    (partsBytes (textLink .empty)).length + url.length := by
  simp [partsBytes, textLink, ReplyPart.string, length]
  omega

theorem replyParts_of_text (json : data.jsonUrl = .empty) (present : data.ocrUrl ≠ .empty) :
    replyParts data = beforeTextLink data ++ textLink data.ocrUrl := by
  have present' : data.ocrUrl.bytes.isEmpty = false := by
    rw [List.isEmpty_eq_false_iff]
    exact fun h => present (CString.ext h)
  simp [replyParts, replyLinksParts, replyLinkParts, beforeTextLink, textLink, json, present']

/-- Without an address for the text the reply ends before its link. -/
theorem replyParts_of_no_text (json : data.jsonUrl = .empty) (absent : data.ocrUrl = .empty) :
    replyParts data = if data.originalUrl.bytes.isEmpty then replyBodyParts data
      else beforeTextLink data := by
  cases h : data.originalUrl.bytes.isEmpty <;>
    simp [replyParts, replyLinksParts, replyLinkParts, beforeTextLink, json, absent, h]

theorem reply_of_fits (json : data.jsonUrl = .empty) (present : data.ocrUrl ≠ .empty)
    (fits : size (replyPieces data) < maxReplyTextLen) :
    (replyBuilderFormatReceipt data).text.bytes =
      partsBytes (beforeTextLink data ++ textLink data.ocrUrl) := by
  rw [replyBuilderFormatReceipt_bytes data fits, replyParts_of_text json present]

theorem copied_ne_empty (present : url ≠ .empty) : snprintf maxDownloadUrl url ≠ .empty := by
  intro copied
  have nothing : url.bytes.take (maxDownloadUrl - 1) = [] := congrArg bytes copied
  rcases List.take_eq_nil_iff.mp nothing with zero | empty
  · exact absurd zero (by decide)
  · exact present (CString.ext empty)

/-- The reply shows the link exactly when the address is not cut and the reply is not. -/
theorem showsTextLink_iff (json : data.jsonUrl = .empty) (present : url ≠ .empty)
    (copied : data.ocrUrl = snprintf maxDownloadUrl url) :
    ShowsTextLink data url (replyBuilderFormatReceipt data).text ↔
      url.length < maxDownloadUrl ∧ size (replyPieces data) < maxReplyTextLen := by
  have present' : data.ocrUrl ≠ .empty := by
    rw [copied]
    exact copied_ne_empty present
  have whole := size_replyPieces data
  rw [replyParts_of_text json present', copied, partsBytes_append, List.length_append,
    length_textLink] at whole
  have cut : (snprintf maxDownloadUrl url).length = min (maxDownloadUrl - 1) url.length :=
    List.length_take
  constructor
  · intro shows
    have room := length_reply data
    have shown := shows.length_le
    rw [partsBytes_append, List.length_append, length_textLink] at shown
    change _ ≤ (replyBuilderFormatReceipt data).text.length at shown
    have fits : size (replyPieces data) < maxReplyTextLen := by omega
    have written := congrArg List.length (reply_of_fits json present' fits)
    rw [copied, partsBytes_append, List.length_append, length_textLink] at written
    change (replyBuilderFormatReceipt data).text.length = _ at written
    have positive : 0 < maxDownloadUrl := by decide
    exact ⟨by omega, fits⟩
  · rintro ⟨short, fits⟩
    have shown := reply_of_fits json present' fits
    rw [copied, snprintf_of_length_lt short] at shown
    exact ⟨[], (List.append_nil _).trans shown.symm⟩

theorem not_prefix_modelSuffix {head rest : List UInt8} {model : CString} {id : Int}
    (short : head.length ≤ (lit "\n\n🔑 ID: `").length)
    (differs : ¬ head <+: (lit "\n\n🔑 ID: `").bytes) :
    ¬ head ++ rest <+: (modelSuffix model id).bytes := by
  intro starts
  have keyed : (lit "\n\n🔑 ID: `").bytes <+: (modelSuffix model id).bytes := by
    rw [modelSuffix, bytes_concat, List.flatMap_cons]
    exact List.prefix_append _ _
  exact differs (List.prefix_of_prefix_length_le ((List.prefix_append _ _).trans starts) keyed short)

/-- Appending the suffix to a reply without the link does not make it show one. -/
theorem not_showsTextLink_append (json : data.jsonUrl = .empty) (absent : data.ocrUrl = .empty)
    (fits : size (replyPieces data) < maxReplyTextLen) {model suffix : CString} {id : Int}
    (start : suffix.bytes <+: (modelSuffix model id).bytes) :
    ¬ ShowsTextLink data url ((replyBuilderFormatReceipt data).text ++ suffix) := by
  rw [ShowsTextLink, bytes_append, replyBuilderFormatReceipt_bytes data fits,
    replyParts_of_no_text json absent, partsBytes_append]
  have link : partsBytes (textLink url) = (lit "\n📄 [").bytes ++
      partsBytes (textLink url).tail := rfl
  cases original : data.originalUrl.bytes.isEmpty with
  | false =>
      rw [if_neg Bool.false_ne_true, List.prefix_append_right_inj, link]
      exact fun shown => not_prefix_modelSuffix (by decide) (by decide) (shown.trans start)
  | true =>
      have before : partsBytes (beforeTextLink data) =
          partsBytes (replyBodyParts data) ++ (lit "\n").bytes := by
        rw [beforeTextLink, replyLinkParts, if_pos original, partsBytes_append]
        rfl
      rw [if_pos rfl, before, List.append_assoc, List.prefix_append_right_inj, link,
        ← List.append_assoc]
      exact fun shown => not_prefix_modelSuffix (by decide) (by decide) (shown.trans start)

/-- The summary with the suffix appended fits the buffer of the reply. -/
theorem retryWithModelText_eq {text : CString} (model : CString) (id : Int)
    (room : text.length < maxReplyTextLen) :
    ∃ n, retryWithModelText text model id 4096 = text ++ snprintf n (modelSuffix model id) := by
  by_cases appended : text.length + 64 < maxReplyTextLen
  · have cut : (snprintf (maxReplyTextLen - text.length) (modelSuffix model id)).length <
        maxReplyTextLen - text.length := length_snprintf_lt (by omega) _
    have whole : (text ++ snprintf (maxReplyTextLen - text.length) (modelSuffix model id)).length =
        text.length + (snprintf (maxReplyTextLen - text.length) (modelSuffix model id)).length :=
      List.length_append
    have fits : (text ++ snprintf (maxReplyTextLen - text.length) (modelSuffix model id)).length <
        maxReplyTextLen := by omega
    refine ⟨maxReplyTextLen - text.length, ?_⟩
    rw [retryWithModelText]
    exact (congrArg (snprintf 4096) (if_pos appended)).trans (snprintf_of_length_lt fits)
  · refine ⟨0, ?_⟩
    have nothing : text ++ snprintf 0 (modelSuffix model id) = text := CString.ext (by simp)
    rw [nothing, retryWithModelText]
    exact (congrArg (snprintf 4096) (if_neg appended)).trans (snprintf_of_length_lt room)

end Builder

/-- The service hands over a text that reads as `json`, and counts `tokens`. -/
structure Externals.Parses (p : Processor) (env : Externals) (json : CJson) (tokens : Int) :
    Prop where
  text : ∃ text, env.parse.accepted = some text ∧ p.cjsonParse text = some json
  tokens : env.lastTokens = tokens

section Pipelines
variable {p : Processor} {env : Externals} {w : World} {json : CJson} {tokens id : Int}
  {reply : CString}

/-- The message of the upload names the text it has stored. -/
theorem upload_reply {originalName : CString} {data : List UInt8}
    (parses : env.Parses p json tokens)
    (done : (processorHandleFile p env w originalName data 4096).2 =
      { outId := id, reply := reply, exit := .summary }) :
    reply = (processorBuildReply Float json id tokens p.publicUrl (p.savedName env originalName)
      (storageOcrFilename (p.savedName env originalName) maxFilename)).text := by
  have summary : (processorHandleFile p env w originalName data 4096).2.exit = .summary := by
    rw [done]
  obtain ⟨notSkipped, ⟨reported, inserts, free⟩, exit⟩ := accepted_of_exit p env w originalName data
    4096 (by rw [summary]; decide) (by rw [summary]; decide)
  have saved : (localSaveFile env.saveFile w.storage (p.savedName env originalName) data).2 = 0 :=
    localSaveFile_eq_zero_iff.mpr reported
  obtain ⟨db, inserted, -⟩ := dbRepoInsert_of_free env.insertTime originalName
    (storageSha256Hex data) (p.savedName env originalName) inserts (by simpa using free)
  obtain ⟨parsedJson, parse, parsed⟩ := parses.text
  obtain ⟨text, extract⟩ : ∃ text, env.extract.accepted = some text := by
    cases extract : env.extract.accepted with
    | none => simp [summary, analysisExit, extract] at exit
    | some text => exact ⟨text, rfl⟩
  rw [processorHandleFile_of_not_skipped p env w originalName data 4096 notSkipped] at done
  simp only [processorStoreFile, processorSaveFile, saved, inserted, snprintf_savedName, ne_eq,
    not_true_eq_false, if_false, processorRunOcr, extract, processorParseReceipt, parse, parsed,
    parses.tokens, HandleResult.mk.injEq, and_true] at done
  obtain ⟨rfl, rfl⟩ := done
  exact snprintf_of_length_lt (length_reply _)

theorem retry_reply (parses : env.Parses p json tokens)
    (done : (processorRetryOcr p env w id 4096).2 = { rc := 0, reply := reply }) :
    ∃ row, w.db.file? id = some row ∧ (readColumns row).ocrFileName ≠ .empty ∧
      reply = (processorBuildReply Float json id tokens p.publicUrl (readColumns row).savedFileName
        (readColumns row).ocrFileName).text := by
  obtain ⟨parsedJson, parse, parsed⟩ := parses.text
  cases found : dbRepoFindById env.findById w.db id with
  | error e => simp [processorRetryOcr, found] at done
  | ok rec =>
      obtain ⟨_, row, hrow, rfl⟩ := dbRepoFindById_eq_ok.mp found
      have same : (readColumns row).id = id := (Database.file?_eq_some.mp hrow).2
      by_cases named : (readColumns row).ocrFileName.bytes = []
      · simp [processorRetryOcr, found, named] at done
      · cases stored : localReadText env.readText w.storage (readColumns row).ocrFileName with
        | none => simp [processorRetryOcr, found, named, stored] at done
        | some text =>
            simp only [processorRetryOcr, found, named, stored, parse, parsed, parses.tokens, same,
              List.isEmpty_iff, if_false, RetryResult.mk.injEq, true_and] at done
            refine ⟨row, hrow, fun empty => named (congrArg bytes empty), done.symm.trans ?_⟩
            exact snprintf_of_length_lt (length_reply _)

/-- The message of a retry with a model names the text there was before. -/
theorem retryWithModel_reply {model : CString} (parses : env.Parses p json tokens)
    (done : (processorRetryOcrWithModel p env w id model 4096).2 = { rc := 0, reply := reply }) :
    ∃ row, w.db.file? id = some row ∧
      reply = retryWithModelText (processorBuildReply Float json id tokens p.publicUrl
        (readColumns row).savedFileName (readColumns row).ocrFileName).text model id 4096 := by
  obtain ⟨parsedJson, parse, parsed⟩ := parses.text
  cases found : dbRepoFindById env.findById w.db id with
  | error e => simp [processorRetryOcrWithModel, found] at done
  | ok rec =>
      obtain ⟨_, row, hrow, rfl⟩ := dbRepoFindById_eq_ok.mp found
      have same : (readColumns row).id = id := (Database.file?_eq_some.mp hrow).2
      by_cases image :
          (localReadBinary env.readBinary w.storage (readColumns row).savedFileName).getD [] = []
      · simp [processorRetryOcrWithModel, found, image] at done
      · cases extract : env.extract.accepted with
        | none => simp [processorRetryOcrWithModel, found, image, extract] at done
        | some text =>
            simp only [processorRetryOcrWithModel, found, image, extract, parse, parsed,
              parses.tokens, same, List.isEmpty_iff, if_false, RetryResult.mk.injEq,
              true_and] at done
            exact ⟨row, hrow, done.symm⟩

end Pipelines

/-- The replies are the same but for the suffix of the last, and where the text has an address they
show its link. -/
structure OneReply (data : ReceiptData α) (address : Option CString)
    (upload retry withModel suffix : CString) : Prop where
  retried : retry = upload
  rerun : ∃ n, withModel = upload ++ snprintf n suffix
  linked : ∀ url, address = some url → url ≠ .empty →
    ∀ reply ∈ [upload, retry, withModel], ShowsTextLink data url reply

section Replies
variable {data : ReceiptData α} {address : Option CString}

theorem size_without_text_le (json : data.jsonUrl = .empty) (present : data.ocrUrl ≠ .empty) :
    size (replyPieces { data with ocrUrl := .empty }) ≤ size (replyPieces data) := by
  rw [size_replyPieces, size_replyPieces, replyParts_of_text json present,
    @replyParts_of_no_text α _ { data with ocrUrl := .empty } json rfl, partsBytes_append,
    List.length_append]
  have before : (partsBytes (beforeTextLink data)).length =
      (partsBytes (replyBodyParts data)).length + (partsBytes (.text (lit "\n") ::
        replyLinkParts (lit "Original") data.originalUrl)).length := by
    rw [beforeTextLink, partsBytes_append, List.length_append]
  split
  · change (partsBytes (replyBodyParts data)).length ≤ _
    omega
  · exact Nat.le_add_right _ _

section Copied
variable (json : data.jsonUrl = .empty)
  (copied : data.ocrUrl = match address with
    | some url => snprintf maxDownloadUrl url
    | none => .empty)

omit [CDouble α] in
include copied in
/-- Where there is no address, leaving it out changes nothing. -/
theorem without_text_eq (bare : ∀ url, address = some url → url = .empty) :
    { data with ocrUrl := .empty } = data := by
  have absent : data.ocrUrl = .empty := by
    rw [copied]
    cases address with
    | none => rfl
    | some url =>
        rw [bare url rfl]
        rfl
  rw [← absent]

include json copied in
/-- A message that leaves out an address does not show it once the suffix is appended. -/
theorem not_showsTextLink_without {url : CString} (same : address = some url)
    (present : url ≠ .empty) (fits : size (replyPieces data) < maxReplyTextLen) (model : CString)
    (id : Int) (n : Nat) :
    ¬ ShowsTextLink data url
      ((replyBuilderFormatReceipt { data with ocrUrl := .empty }).text ++
        snprintf n (modelSuffix model id)) := by
  subst same
  have present' : data.ocrUrl ≠ .empty := by
    rw [copied]
    exact copied_ne_empty present
  have shorter := Nat.lt_of_le_of_lt (size_without_text_le json present') fits
  exact @not_showsTextLink_append α _ { data with ocrUrl := .empty } url json rfl shorter model _ id
    (List.take_prefix _ _)

include json copied in
/-- A message with the address and one that may leave it out. -/
theorem oneReply_iff {forgotten : Prop} [Decidable forgotten] {model : CString} {id : Int}
    {n : Nat} :
    OneReply data address (replyBuilderFormatReceipt data).text
        (replyBuilderFormatReceipt data).text
        ((replyBuilderFormatReceipt
          (if forgotten then { data with ocrUrl := .empty } else data)).text ++
            snprintf n (modelSuffix model id)) (modelSuffix model id) ↔
      ∀ url, address = some url → url ≠ .empty → url.length < maxDownloadUrl ∧
        size (replyPieces data) < maxReplyTextLen ∧ ¬ forgotten := by
  have shows {url : CString} (same : address = some url) (present : url ≠ .empty) :=
    showsTextLink_iff json present (by rw [copied, same])
  constructor
  · intro one url same present
    have shown := one.linked url same present
    simp only [List.forall_mem_cons] at shown
    obtain ⟨short, fits⟩ := (shows same present).mp shown.1
    refine ⟨short, fits, fun stale => ?_⟩
    have last := shown.2.2.1
    rw [if_pos stale] at last
    exact not_showsTextLink_without json copied same present fits model id n last
  · intro fine
    by_cases stale : forgotten
    · have bare (url : CString) (same : address = some url) : url = .empty := by
        by_contra present
        exact (fine url same present).2.2 stale
      rw [if_pos stale, without_text_eq copied bare]
      exact ⟨rfl, ⟨n, rfl⟩, fun url same present => absurd (bare url same) present⟩
    · rw [if_neg stale]
      refine ⟨rfl, ⟨n, rfl⟩, fun url same present => ?_⟩
      obtain ⟨short, fits, _⟩ := fine url same present
      have shown := (shows same present).mpr ⟨short, fits⟩
      simp only [List.forall_mem_cons, List.not_mem_nil, false_implies, implies_true, and_true]
      exact ⟨shown, shown, shown.trans (List.prefix_append _ _)⟩

end Copied

end Replies

/-- Operations have led to the state, and the record in it has that image. -/
structure HoldsRecord (p : Processor) (len : ℕ+) (w : World) (id : Int) (savedName : CString)
    (row : FileRecord) : Prop where
  reached : ∃ ops, w = Runs.run (fileStep p len) .empty ops
  held : w.db.file? id = some row
  image : row.savedFileName = savedName

def textName (savedName : CString) : CString := storageOcrFilename savedName maxFilename

/-- The receipt with the addresses of the image and of the text stored for it. -/
def Processor.receipt (p : Processor) (json : CJson) (id tokens : Int) (savedName : CString) :
    ReceiptData Float :=
  fillReceiptData Float json id tokens p.publicUrl savedName (textName savedName)

section Records
variable {p : Processor} {len : ℕ+} {env : Externals} {w : World} {json : CJson}
  {tokens id : Int} {savedName reply : CString} {row : FileRecord}

theorem HoldsRecord.fits (h : HoldsRecord p len w id savedName row) : RecordFits row := by
  obtain ⟨ops, rfl⟩ := h.reached
  have kept (w : World) (op : FileOp × Externals) (_ : True) (fits : w.Fits) :
      (fileStep p len w op).Fits := fits.fileStep op
  have fits := Runs.run_invariant kept .empty ops (fun _ _ => trivial) World.empty_fits
  exact fits row (Database.file?_eq_some.mp h.held).1

theorem HoldsRecord.retry_reply (h : HoldsRecord p len w id savedName row)
    (parses : env.Parses p json tokens)
    (done : (processorRetryOcr p env w id 4096).2 = { rc := 0, reply := reply }) :
    reply = (replyBuilderFormatReceipt (p.receipt json id tokens savedName)).text := by
  obtain ⟨found, hfound, named, rfl⟩ := Kaufbot.retry_reply parses done
  obtain rfl := Option.some.inj (hfound.symm.trans h.held)
  rw [h.fits.columns] at named ⊢
  rcases h.fits.text with ⟨_, empty⟩ | ⟨_, stored⟩
  · exact absurd empty named
  · rw [stored, h.image]
    rfl

/-- The text is stored, the message says so only if a text was recorded before. -/
theorem HoldsRecord.retryWithModel_reply {model : CString}
    (h : HoldsRecord p len w id savedName row) (parses : env.Parses p json tokens)
    (done : (processorRetryOcrWithModel p env w id model 4096).2 = { rc := 0, reply := reply }) :
    ∃ n, reply = (replyBuilderFormatReceipt (if row.isOcrProcessed = 0 then
      { p.receipt json id tokens savedName with ocrUrl := .empty }
        else p.receipt json id tokens savedName)).text ++ snprintf n (modelSuffix model id) := by
  obtain ⟨found, hfound, rfl⟩ := Kaufbot.retryWithModel_reply parses done
  obtain rfl := Option.some.inj (hfound.symm.trans h.held)
  rw [h.fits.columns]
  obtain ⟨n, appended⟩ := retryWithModelText_eq model id (length_reply (fillReceiptData Float json id
    tokens p.publicUrl found.savedFileName found.ocrFileName))
  refine ⟨n, appended.trans (congrArg (· ++ snprintf n (modelSuffix model id)) ?_)⟩
  rcases h.fits.text with ⟨unmarked, empty⟩ | ⟨marked, stored⟩
  · rw [if_pos unmarked, empty, h.image]
    rfl
  · rw [if_neg (by rw [marked]; decide), stored, h.image]
    rfl

/-- Behind a name there is, an address is copied into its buffer. -/
theorem receipt_ocrUrl (json : CJson) (tokens : Int) (h : HoldsRecord p len w id savedName row) :
    (p.receipt json id tokens savedName).ocrUrl =
      match p.publicUrl (textName savedName) with
      | some url => snprintf maxDownloadUrl url
      | none => .empty := by
  have named : (textName savedName).bytes.isEmpty = false := by
    rw [List.isEmpty_eq_false_iff, ← h.image]
    exact fun empty => h.fits.ocrName_ne_empty (CString.ext empty)
  exact if_neg (by rw [named]; exact Bool.false_ne_true)

end Records

section Sample

/-- A processor whose storage has an address for every file. -/
def addressedProcessor : Processor :=
  processorNew .utc (fun s => if s = lit "\x7b\x7d" then some (.object []) else none)
    (fun name => some (lit "http://host/" ++ name)) none

def textFails : Externals := { everythingWorks with extract := { error := .noText, text := none } }

/-- After an upload, and after a retry with a model on top. -/
def afterUpload (len : ℕ+) (env : Externals) : World :=
  Runs.run (fileStep addressedProcessor len) .empty [(receiptUpload, env)]

def afterRerun (len : ℕ+) (env : Externals) : World :=
  Runs.run (fileStep addressedProcessor len) .empty
    [(receiptUpload, env), (.retryWithModel 1 (lit "flash"), everythingWorks)]

def uploadResult (len : ℕ+) : HandleResult :=
  (processorHandleFile addressedProcessor everythingWorks .empty (lit "receipt.jpg") [1, 2, 3] len).2

def retryResult (len : ℕ+) (w : World) : RetryResult :=
  (processorRetryOcr addressedProcessor everythingWorks w 1 len).2

def rerunResult (len : ℕ+) (w : World) : RetryResult :=
  (processorRetryOcrWithModel addressedProcessor everythingWorks w 1 (lit "flash") len).2

def receiptName : CString := addressedProcessor.savedName everythingWorks (lit "receipt.jpg")

theorem works_parses : everythingWorks.Parses addressedProcessor (.object []) 0 :=
  ⟨⟨lit "\x7b\x7d", rfl, by simp [addressedProcessor, processorNew]⟩, rfl⟩

/-- What a state holds of the record. -/
def recordState (w : World) : Option (CString × Int) :=
  (w.db.file? 1).map fun row => (row.savedFileName, row.isOcrProcessed)

theorem HandleResult.eq_of {r : HandleResult} {id : Int} {exit : HandleExit} (hid : r.outId = id)
    (hexit : r.exit = exit) : r = { outId := id, reply := r.reply, exit := exit } := by
  subst hid hexit
  rfl

theorem RetryResult.eq_of {r : RetryResult} {rc : Int} (h : r.rc = rc) :
    r = { rc := rc, reply := r.reply } := by
  subst h
  rfl

theorem holdsRecord_of_run {ops : List (FileOp × Externals)} {w : World} {marked : Int}
    (reached : w = Runs.run (fileStep addressedProcessor 4096) .empty ops)
    (state : recordState w = some (receiptName, marked)) :
    ∃ row, HoldsRecord addressedProcessor 4096 w 1 receiptName row ∧
      row.isOcrProcessed = marked := by
  obtain ⟨row, held, same⟩ := Option.map_eq_some_iff.mp state
  obtain ⟨image, marks⟩ := Prod.mk.inj same
  exact ⟨row, ⟨⟨ops, reached⟩, held, image⟩, marks⟩

theorem upload_succeeds : (uploadResult 4096).outId = 1 ∧ (uploadResult 4096).exit = .summary ∧
    (retryResult 4096 (afterUpload 4096 everythingWorks)).rc = 0 ∧
    (rerunResult 4096 (afterUpload 4096 everythingWorks)).rc = 0 ∧
    recordState (afterUpload 4096 everythingWorks) = some (receiptName, 1) := by
  decide +kernel

theorem rerun_succeeds : (rerunResult 4096 (afterUpload 4096 textFails)).rc = 0 ∧
    recordState (afterUpload 4096 textFails) = some (receiptName, 0) ∧
    (retryResult 4096 (afterRerun 4096 textFails)).rc = 0 ∧
    recordState (afterRerun 4096 textFails) = some (receiptName, 1) := by
  decide +kernel

end Sample

/-- An upload, a retry and a retry with a model that succeed for one record with one JSON give one
reply exactly when the text has no address, or when the address and the message fit their buffers
and the retry with a model finds the record marked. -/
theorem pipelines_reply_alike_iff (p : Processor) {len : ℕ+} {json : CJson} {tokens id : Int}
    {env env₁ env₂ : Externals} {w w₁ w₂ : World} {row₁ row₂ : FileRecord}
    {originalName model : CString} {data : List UInt8} {upload retry withModel : CString}
    (parses : env.Parses p json tokens) (parses₁ : env₁.Parses p json tokens)
    (parses₂ : env₂.Parses p json tokens)
    (uploaded : (processorHandleFile p env w originalName data 4096).2 =
      { outId := id, reply := upload, exit := .summary })
    (held₁ : HoldsRecord p len w₁ id (p.savedName env originalName) row₁)
    (retried : (processorRetryOcr p env₁ w₁ id 4096).2 = { rc := 0, reply := retry })
    (held₂ : HoldsRecord p len w₂ id (p.savedName env originalName) row₂)
    (rerun : (processorRetryOcrWithModel p env₂ w₂ id model 4096).2 =
      { rc := 0, reply := withModel }) :
    OneReply (p.receipt json id tokens (p.savedName env originalName))
        (p.publicUrl (textName (p.savedName env originalName))) upload retry withModel
        (modelSuffix model id) ↔
      ∀ url, p.publicUrl (textName (p.savedName env originalName)) = some url → url ≠ .empty →
        url.length < maxDownloadUrl ∧
          size (replyPieces (p.receipt json id tokens (p.savedName env originalName))) <
            maxReplyTextLen ∧
          row₂.isOcrProcessed ≠ 0 := by
  have upload_eq : upload = (replyBuilderFormatReceipt
      (p.receipt json id tokens (p.savedName env originalName))).text := upload_reply parses uploaded
  have retry_eq := held₁.retry_reply parses₁ retried
  obtain ⟨n, withModel_eq⟩ := held₂.retryWithModel_reply parses₂ rerun
  have address := receipt_ocrUrl json tokens held₂
  rw [upload_eq, retry_eq, withModel_eq]
  exact oneReply_iff rfl address

/-- All three on one record that is marked by its upload. -/
theorem pipelines_reply_alike_iff_receipt : ∃ row : FileRecord, row.isOcrProcessed = 1 ∧
    (OneReply (addressedProcessor.receipt (.object []) 1 0 receiptName)
        (addressedProcessor.publicUrl (textName receiptName)) (uploadResult 4096).reply
        (retryResult 4096 (afterUpload 4096 everythingWorks)).reply
        (rerunResult 4096 (afterUpload 4096 everythingWorks)).reply (modelSuffix (lit "flash") 1) ↔
      ∀ url, addressedProcessor.publicUrl (textName receiptName) = some url → url ≠ .empty →
        url.length < maxDownloadUrl ∧
          size (replyPieces (addressedProcessor.receipt (.object []) 1 0 receiptName)) <
            maxReplyTextLen ∧
          row.isOcrProcessed ≠ 0) := by
  obtain ⟨hid, summary, retried, rerun, state⟩ := upload_succeeds
  obtain ⟨row, held, marked⟩ := holdsRecord_of_run rfl state
  exact ⟨row, marked, pipelines_reply_alike_iff addressedProcessor works_parses works_parses
    works_parses (HandleResult.eq_of hid summary) held (RetryResult.eq_of retried) held
    (RetryResult.eq_of rerun)⟩

/-- The first OCR fails, the one with the model succeeds and stores the text: the reply has no link
of it, the upload that succeeds and the later retry have one. -/
theorem rerun_forgets_text_link :
    (uploadResult 4096).exit = .summary ∧ (uploadResult 4096).outId = 1 ∧
      (retryResult 4096 (afterRerun 4096 textFails)).rc = 0 ∧
      (rerunResult 4096 (afterUpload 4096 textFails)).rc = 0 ∧
      (∃ row, HoldsRecord addressedProcessor 4096 (afterRerun 4096 textFails) 1 receiptName row) ∧
      (∃ row, HoldsRecord addressedProcessor 4096 (afterUpload 4096 textFails) 1 receiptName row) ∧
      ¬ OneReply (addressedProcessor.receipt (.object []) 1 0 receiptName)
        (addressedProcessor.publicUrl (textName receiptName)) (uploadResult 4096).reply
        (retryResult 4096 (afterRerun 4096 textFails)).reply
        (rerunResult 4096 (afterUpload 4096 textFails)).reply
        (modelSuffix (lit "flash") 1) := by
  obtain ⟨hid, summary, -⟩ := upload_succeeds
  obtain ⟨rerun, unmarked, retried, marked⟩ := rerun_succeeds
  obtain ⟨row₁, held₁, -⟩ := holdsRecord_of_run rfl marked
  obtain ⟨row₂, held₂, forgotten⟩ := holdsRecord_of_run rfl unmarked
  refine ⟨summary, hid, retried, rerun, ⟨row₁, held₁⟩, ⟨row₂, held₂⟩, fun one => ?_⟩
  obtain ⟨n, reply⟩ := held₂.retryWithModel_reply works_parses (RetryResult.eq_of rerun)
  change (rerunResult 4096 (afterUpload 4096 textFails)).reply = _ at reply
  have shown := one.linked _ rfl (by decide) _
    (List.mem_cons_of_mem _ (List.mem_cons_of_mem _ List.mem_cons_self))
  rw [reply, if_pos forgotten] at shown
  have fits : size (replyPieces { addressedProcessor.receipt (.object []) 1 0 receiptName with
      ocrUrl := .empty }) < maxReplyTextLen := by decide +kernel
  exact not_showsTextLink_append rfl rfl fits (List.take_prefix _ _) shown

end Kaufbot
