import Kaufbot.Processor.Receipt
import Kaufbot.Processor.World
import Kaufbot.Storage.Names
import Kaufbot.Storage.Sha256
import Mathlib.Data.PNat.Defs

/-!
The three pipelines of the processor: upload, re-parse, and OCR again with a
chosen model. Each returns the world it leaves and what it tells its caller;
`exit` names the return statement an upload ended in.
-/

namespace Kaufbot

open CString

structure Processor where
  zone : TimeZone
  /-- `cJSON_Parse`. -/
  cjsonParse : CString → Option CJson
  /-- `get_public_url` of the storage backend. -/
  publicUrl : CString → Option CString
  /-- The return value and the reply for an existing record and a buffer size. -/
  dupStrategy : FileRecord → ℕ+ → Int × CString

def strategyNotifyAndSkip (existing : FileRecord) (bufLen : ℕ+) : Int × CString :=
  (0, snprintf bufLen (.concat [lit "Duplicate detected\n\nFile: ", existing.savedFileName,
    lit "\nUploaded: ", existing.createdAt, lit "\nOCR: ",
    if existing.isOcrProcessed ≠ 0 then lit "done" else lit "pending", lit "\nID: ",
    printInt existing.id, lit "\n\nThis file was already uploaded."]))

/-- `processor_new`: without a strategy the built-in one is used. -/
def processorNew (zone : TimeZone) (cjsonParse : CString → Option CJson)
    (publicUrl : CString → Option CString)
    (dupStrategy : Option (FileRecord → ℕ+ → Int × CString)) : Processor where
  zone := zone
  cjsonParse := cjsonParse
  publicUrl := publicUrl
  dupStrategy := dupStrategy.getD strategyNotifyAndSkip

/-- A processor over the local backend of a machine in UTC, for texts whose JSON is `{}`. -/
def localProcessor : Processor :=
  processorNew .utc (fun s => if s = lit "\x7b\x7d" then some (.object []) else none)
    localGetPublicUrl none

inductive HandleExit where
  | duplicate
  | lookupFailed
  | saveFailed
  | ocrFailed
  | parseFailed
  | invalidJson
  | summary
deriving DecidableEq

/-- `*out_id`, the reply buffer, and where the function returned. -/
structure HandleResult where
  outId : Int
  reply : CString
  exit : HandleExit
deriving DecidableEq

def Processor.savedName (p : Processor) (env : Externals) (originalName : CString) : CString :=
  storageGenFilename p.zone env.nameTime (uploadExtension originalName) maxFilename

/-- The record on success, the reply on failure. -/
def processorSaveFile (p : Processor) (env : Externals) (w : World) (originalName : CString)
    (data : List UInt8) (hash : CString) (replyLen : ℕ+) : World × Except CString FileRecord :=
  let savedName := p.savedName env originalName
  let (storage, rc) := localSaveFile env.saveFile w.storage savedName data
  let w := { w with storage := storage }
  if rc ≠ 0 then (w, .error (snprintf replyLen (lit "Failed to save file to storage.")))
  else
    let record : FileRecord :=
      { id := 0, originalFileName := snprintf dbOrigNameLen originalName,
        fileSizeBytes := data.length, savedFileName := snprintf dbFilenameLen savedName,
        fileHash := snprintf dbHashLen hash, isOcrProcessed := 0, ocrFileName := .empty,
        createdAt := .empty, updatedAt := .empty }
    match dbRepoInsert env.insert env.insertTime w.db originalName hash savedName with
    | (db, .error _) =>
        ({ w with db := db },
          .error (snprintf replyLen (lit "Database error while saving file record.")))
    | (db, .ok newId) => ({ w with db := db }, .ok { record with id := newId })

/-- The extracted text on success, the reply on failure. -/
def processorRunOcr (env : Externals) (w : World) (originalName : CString) (data : List UInt8)
    (savedName : CString) (rec : FileRecord) (replyLen : ℕ+) : World × Except CString CString :=
  let w := w.request (.extractText data originalName)
  match env.extract.accepted with
  | none =>
      (w, .error (snprintf replyLen (.concat [lit "🔴 *OCR Failed*\n\n📄 File: `", savedName,
        lit "`\n📏 Original: `", originalName, lit "`\n📏 Size: `", printNat data.length,
        lit " bytes`\n\n🔄 Use the button below to retry OCR."])))
  | some ocrText =>
      let ocrFilename := storageOcrFilename savedName maxFilename
      let w := { w with storage := (localSaveText env.saveText w.storage ocrFilename ocrText).1 }
      let w := { w with
        db := (dbRepoMarkOcrComplete env.markOcr env.markOcrTime w.db rec.id ocrFilename).1 }
      (w, .ok ocrText)

/-- The parsed JSON on success, the reply on failure. -/
def processorParseReceipt (env : Externals) (w : World) (fileId : Int)
    (ocrText savedName ocrFilename originalName : CString) (dataLen : Nat) (replyLen : ℕ+) :
    World × Except CString CString :=
  let w := w.request (.parseReceipt ocrText)
  match env.parse.accepted with
  | none =>
      (w, .error (snprintf replyLen (.concat [lit "⚠️ *Parsing Failed*\n\n📄 File: `", savedName,
        lit "`\n📄 OCR saved: `", ocrFilename, lit "`\n📏 Original: `", originalName,
        lit "`\n📏 Size: `", printNat dataLen,
        lit " bytes`\n\nOCR data is saved, parsing can be retried later."])))
  | some parsedJson =>
      let w := { w with
        db := (dbRepoMarkParsingComplete env.checkParsed env.writeParsed env.markParsingTime w.db
          fileId parsedJson).1 }
      (w, .ok parsedJson)

/-- `processor_handle_file` after the duplicate check. -/
def processorStoreFile (p : Processor) (env : Externals) (w : World) (originalName : CString)
    (data : List UInt8) (hash : CString) (replyLen : ℕ+) : World × HandleResult :=
  match processorSaveFile p env w originalName data hash replyLen with
  | (w, .error reply) => (w, { outId := 0, reply := reply, exit := .saveFailed })
  | (w, .ok rec) =>
  match processorRunOcr env w originalName data rec.savedFileName rec replyLen with
  | (w, .error reply) => (w, { outId := rec.id, reply := reply, exit := .ocrFailed })
  | (w, .ok ocrText) =>
  let ocrFilename := storageOcrFilename rec.savedFileName maxFilename
  match processorParseReceipt env w rec.id ocrText rec.savedFileName ocrFilename originalName
    data.length replyLen with
  | (w, .error reply) => (w, { outId := rec.id, reply := reply, exit := .parseFailed })
  | (w, .ok parsedJson) =>
  match p.cjsonParse parsedJson with
  | none =>
      (w, { outId := rec.id, exit := .invalidJson, reply := snprintf replyLen (.concat
        [lit "⚠️ *Parse Warning*\n\n📄 File: `", rec.savedFileName, lit "`\n📄 OCR saved: `",
          ocrFilename, lit "`\n📏 Original: `", originalName, lit "`\n📏 Size: `",
          printNat data.length, lit " bytes`\n\nSaved to database but JSON was invalid.\n\n🔑 ID: `",
          printInt rec.id, lit "`"]) })
  | some json =>
      let msg := processorBuildReply Float json rec.id env.lastTokens p.publicUrl rec.savedFileName
        ocrFilename
      (w, { outId := rec.id, reply := snprintf replyLen msg.text, exit := .summary })

def processorHandleFile (p : Processor) (env : Externals) (w : World) (originalName : CString)
    (data : List UInt8) (replyLen : ℕ+) : World × HandleResult :=
  let hash := storageSha256Hex data
  match dbRepoFindByHash env.findByHash w.db hash with
  | .ok existing =>
      let (proceed, reply) := p.dupStrategy existing replyLen
      if proceed = 0 then (w, { outId := 0, reply := reply, exit := .duplicate })
      else processorStoreFile p env w originalName data hash replyLen
  | .error .notFound => processorStoreFile p env w originalName data hash replyLen
  | .error _ =>
      (w, { outId := 0, exit := .lookupFailed,
            reply := snprintf replyLen (lit "Database error while checking for duplicates.") })

structure RetryResult where
  rc : Int
  reply : CString
deriving DecidableEq

def processorRetryOcr (p : Processor) (env : Externals) (w : World) (fileId : Int)
    (replyLen : ℕ+) : World × RetryResult :=
  match dbRepoFindById env.findById w.db fileId with
  | .error _ =>
      (w, { rc := -1, reply := snprintf replyLen (.concat [lit "File with ID ", printInt fileId,
        lit " not found."]) })
  | .ok rec =>
  if rec.ocrFileName.bytes.isEmpty then
    (w, { rc := -1, reply := snprintf replyLen (.concat [lit "Cannot Retry\n\nFile: ",
      rec.originalFileName, lit "\nID: ", printInt fileId,
      lit "\n\nNo OCR text available. Please re-upload the file."]) })
  else
  match localReadText env.readText w.storage rec.ocrFileName with
  | none =>
      (w, { rc := -1, reply := snprintf replyLen (.concat [lit "Cannot Retry\n\nFile: ",
        rec.originalFileName, lit "\nID: ", printInt fileId,
        lit "\n\nOCR text file is missing. Please re-upload the file."]) })
  | some ocrText =>
  let w := w.request (.parseReceipt ocrText)
  match env.parse.accepted with
  | none =>
      (w, { rc := -1, reply := snprintf replyLen (.concat [lit "Retry failed\n\nFile: ",
        rec.originalFileName, lit "\nID: ", printInt fileId,
        lit "\n\nParsing failed again."]) })
  | some parsedJson =>
  let w := { w with
    db := (dbRepoMarkParsingComplete env.checkParsed env.writeParsed env.markParsingTime w.db
      fileId parsedJson).1 }
  match p.cjsonParse parsedJson with
  | none =>
      (w, { rc := 0, reply := snprintf replyLen (.concat [lit "Retry: Invalid JSON\n\nFile: ",
        rec.originalFileName, lit "\nID: ", printInt fileId]) })
  | some json =>
      let msg := processorBuildReply Float json rec.id env.lastTokens p.publicUrl rec.savedFileName
        rec.ocrFileName
      (w, { rc := 0, reply := snprintf replyLen msg.text })

/-- The summary with the id and the model appended, where both buffers have room for them. -/
def retryWithModelText (text model : CString) (id : Int) (replyLen : ℕ+) : CString :=
  let text :=
    if text.length + 64 < replyLen then
      text ++ snprintf (maxReplyTextLen - text.length) (.concat [lit "\n\n🔑 ID: `",
        printInt id, lit "`\n🤖 Model: `", model, lit "`"])
    else text
  snprintf replyLen text

def processorRetryOcrWithModel (p : Processor) (env : Externals) (w : World) (fileId : Int)
    (model : CString) (replyLen : ℕ+) : World × RetryResult :=
  match dbRepoFindById env.findById w.db fileId with
  | .error _ =>
      (w, { rc := -1, reply := snprintf replyLen (.concat [lit "🔴 File with ID `",
        printInt fileId, lit "` not found."]) })
  | .ok rec =>
  let data := (localReadBinary env.readBinary w.storage rec.savedFileName).getD []
  if data.isEmpty then
    (w, { rc := -1, reply := snprintf replyLen (.concat [lit "🔴 *Cannot Retry*\n\n📄 File: `",
      rec.originalFileName, lit "`\n🔑 ID: `", printInt fileId,
      lit "`\n\nOriginal file is missing from storage."]) })
  else
  let w := w.request (.extractTextWithModel data rec.originalFileName model)
  match env.extract.accepted with
  | none =>
      (w, { rc := -1, reply := snprintf replyLen (.concat [lit "🔴 *OCR Failed*\n\n📄 File: `",
        rec.originalFileName, lit "`\n🔑 ID: `", printInt fileId, lit "`\n🤖 Model: `", model,
        lit "`\n\nOCR extraction failed with model `", model, lit "`."]) })
  | some newOcrText =>
  let ocrFilename := storageOcrFilename rec.savedFileName maxFilename
  let w := { w with storage := (localSaveText env.saveText w.storage ocrFilename newOcrText).1 }
  let w := { w with
    db := (dbRepoMarkOcrComplete env.markOcr env.markOcrTime w.db rec.id ocrFilename).1 }
  let w := w.request (.parseReceipt newOcrText)
  match env.parse.accepted with
  | none =>
      (w, { rc := -1, reply := snprintf replyLen (.concat [lit "⚠️ *Parsing Failed*\n\n📄 File: `",
        rec.originalFileName, lit "`\n🔑 ID: `", printInt fileId, lit "`\n🤖 Model: `", model,
        lit "`\n\nOCR succeeded but parsing failed."]) })
  | some parsedJson =>
  let w := { w with
    db := (dbRepoMarkParsingComplete env.checkParsed env.writeParsed env.markParsingTime w.db
      fileId parsedJson).1 }
  match p.cjsonParse parsedJson with
  | none =>
      (w, { rc := 0, reply := snprintf replyLen (.concat [lit "⚠️ *Invalid JSON*\n\n📄 File: `",
        rec.originalFileName, lit "`\n🔑 ID: `", printInt fileId, lit "`\n🤖 Model: `", model,
        lit "`"]) })
  | some json =>
      let msg := processorBuildReply Float json rec.id env.lastTokens p.publicUrl rec.savedFileName
        rec.ocrFileName
      (w, { rc := 0, reply := retryWithModelText msg.text model rec.id replyLen })

end Kaufbot
