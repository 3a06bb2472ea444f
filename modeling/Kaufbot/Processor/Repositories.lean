import Kaufbot.Processor.Pipeline
import Kaufbot.Infra.MemoryRepository

/-!
The upload over either file repository. The calls of the pipeline go through
the table of the repository it was given: the one over the database, or the one
in memory, which has no clock and fails only when it is full. Over a database
this is the upload pipeline itself.
-/

namespace Kaufbot

open CString

inductive FileRepository where
  | database (db : Database)
  | memory (repo : MemoryFileRepository)

namespace FileRepository

def rows : FileRepository → List FileRecord
  | .database db => db.files
  | .memory repo => repo.records.toList

/-- Some row has the hash in its column. -/
def Records (repo : FileRepository) (hash : CString) : Prop :=
  ∃ row ∈ repo.rows, row.fileHash = hash

end FileRepository

def fileRepoFindByHash (env : Externals) (repo : FileRepository) (hash : CString) :
    Except FileRepoError FileRecord :=
  match repo with
  | .database db => dbRepoFindByHash env.findByHash db hash
  | .memory repo => memRepoFindByHash repo hash

def fileRepoInsert (env : Externals) (repo : FileRepository)
    (originalName hash savedFilename : CString) : FileRepository × Except FileRepoError Int :=
  match repo with
  | .database db =>
      let (db, result) := dbRepoInsert env.insert env.insertTime db originalName hash savedFilename
      (.database db, result)
  | .memory repo =>
      let (repo, result) := memRepoInsert repo originalName hash savedFilename
      (.memory repo, result)

def fileRepoMarkOcrComplete (env : Externals) (repo : FileRepository) (id : Int)
    (ocrFilename : CString) : FileRepository × Except FileRepoError Unit :=
  match repo with
  | .database db =>
      let (db, result) := dbRepoMarkOcrComplete env.markOcr env.markOcrTime db id ocrFilename
      (.database db, result)
  | .memory repo =>
      let (repo, result) := memRepoMarkOcrComplete repo id ocrFilename
      (.memory repo, result)

def fileRepoMarkParsingComplete (env : Externals) (repo : FileRepository) (id : Int)
    (parsedJson : CString) : FileRepository × Except FileRepoError Unit :=
  match repo with
  | .database db =>
      let (db, result) := dbRepoMarkParsingComplete env.checkParsed env.writeParsed
        env.markParsingTime db id parsedJson
      (.database db, result)
  | .memory repo =>
      let (repo, result) := memRepoMarkParsingComplete repo id parsedJson
      (.memory repo, result)

/-- A world with either repository in the place of the database. -/
structure RepoWorld where
  repo : FileRepository
  storage : Storage
  requests : List Request

def World.throughRepo (w : World) : RepoWorld where
  repo := .database w.db
  storage := w.storage
  requests := w.requests

namespace RepoWorld

def request (w : RepoWorld) (r : Request) : RepoWorld := { w with requests := w.requests ++ [r] }

/-- The record on success, the reply on failure. -/
def processorSaveFile (p : Processor) (env : Externals) (w : RepoWorld) (originalName : CString)
    (data : List UInt8) (hash : CString) (replyLen : ℕ+) :
    RepoWorld × Except CString FileRecord :=
  let savedName := p.savedName env originalName
  let (storage, rc) := localSaveFile env.saveFile w.storage savedName data
  let w := { w with storage := storage }
  if rc ≠ 0 then (w, .error (snprintf replyLen (lit "Failed to save file to storage.")))
  else
    let record : FileRecord :=
      { id := 0, originalFileName := snprintf dbOrigNameLen originalName,
        fileSizeBytes := data.length, savedFileName := snprintf dbFilenameLen savedName,
        fileHash := snprintf dbHashLen hash, isOcrProcessed := 0, ocrFileName := .empty,
        createdAt := .empty, updatedAt := .empty }
    match fileRepoInsert env w.repo originalName hash savedName with
    | (repo, .error _) =>
        ({ w with repo := repo },
          .error (snprintf replyLen (lit "Database error while saving file record.")))
    | (repo, .ok newId) => ({ w with repo := repo }, .ok { record with id := newId })

/-- The extracted text on success, the reply on failure. -/
def processorRunOcr (env : Externals) (w : RepoWorld) (originalName : CString) (data : List UInt8)
    (savedName : CString) (rec : FileRecord) (replyLen : ℕ+) : RepoWorld × Except CString CString :=
  let w := w.request (.extractText data originalName)
  match env.extract.accepted with
  | none =>
      (w, .error (snprintf replyLen (.concat [lit "🔴 *OCR Failed*\n\n📄 File: `", savedName,
        lit "`\n📏 Original: `", originalName, lit "`\n📏 Size: `", printNat data.length,
        lit " bytes`\n\n🔄 Use the button below to retry OCR."])))
  | some ocrText =>
      let ocrFilename := storageOcrFilename savedName maxFilename
      let w := { w with storage := (localSaveText env.saveText w.storage ocrFilename ocrText).1 }
      let w := { w with repo := (fileRepoMarkOcrComplete env w.repo rec.id ocrFilename).1 }
      (w, .ok ocrText)

/-- The parsed JSON on success, the reply on failure. -/
def processorParseReceipt (env : Externals) (w : RepoWorld) (fileId : Int)
    (ocrText savedName ocrFilename originalName : CString) (dataLen : Nat) (replyLen : ℕ+) :
    RepoWorld × Except CString CString :=
  let w := w.request (.parseReceipt ocrText)
  match env.parse.accepted with
  | none =>
      (w, .error (snprintf replyLen (.concat [lit "⚠️ *Parsing Failed*\n\n📄 File: `", savedName,
        lit "`\n📄 OCR saved: `", ocrFilename, lit "`\n📏 Original: `", originalName,
        lit "`\n📏 Size: `", printNat dataLen,
        lit " bytes`\n\nOCR data is saved, parsing can be retried later."])))
  | some parsedJson =>
      let w := { w with repo := (fileRepoMarkParsingComplete env w.repo fileId parsedJson).1 }
      (w, .ok parsedJson)

/-- `processor_handle_file` after the duplicate check. -/
def processorStoreFile (p : Processor) (env : Externals) (w : RepoWorld) (originalName : CString)
    (data : List UInt8) (hash : CString) (replyLen : ℕ+) : RepoWorld × HandleResult :=
  match processorSaveFile p env w originalName data hash replyLen with
  | (w, .error reply) => (w, { outId := 0, reply := reply, exit := .saveFailed })
  | (w, .ok rec) =>
  match processorRunOcr env w originalName data rec.savedFileName rec replyLen with
  | (w, .error reply) => (w, { outId := rec.id, reply := reply, exit := .ocrFailed })
  | (w, .ok ocrText) =>
  let ocrFilename := storageOcrFilename rec.savedFileName maxFilename
  match processorParseReceipt env w rec.id ocrText rec.savedFileName ocrFilename originalName
    data.length replyLen with
  | (w, .error reply) => (w, { outId := rec.id, reply := reply, exit := .parseFailed })
  | (w, .ok parsedJson) =>
  match p.cjsonParse parsedJson with
  | none =>
      (w, { outId := rec.id, exit := .invalidJson, reply := snprintf replyLen (.concat
        [lit "⚠️ *Parse Warning*\n\n📄 File: `", rec.savedFileName, lit "`\n📄 OCR saved: `",
          ocrFilename, lit "`\n📏 Original: `", originalName, lit "`\n📏 Size: `",
          printNat data.length, lit " bytes`\n\nSaved to database but JSON was invalid.\n\n🔑 ID: `",
          printInt rec.id, lit "`"]) })
  | some json =>
      let msg := processorBuildReply Float json rec.id env.lastTokens p.publicUrl rec.savedFileName
        ocrFilename
      (w, { outId := rec.id, reply := snprintf replyLen msg.text, exit := .summary })

def processorHandleFile (p : Processor) (env : Externals) (w : RepoWorld) (originalName : CString)
    (data : List UInt8) (replyLen : ℕ+) : RepoWorld × HandleResult :=
  let hash := storageSha256Hex data
  match fileRepoFindByHash env w.repo hash with
  | .ok existing =>
      let (proceed, reply) := p.dupStrategy existing replyLen
      if proceed = 0 then (w, { outId := 0, reply := reply, exit := .duplicate })
      else processorStoreFile p env w originalName data hash replyLen
  | .error .notFound => processorStoreFile p env w originalName data hash replyLen
  | .error _ =>
      (w, { outId := 0, exit := .lookupFailed,
            reply := snprintf replyLen (lit "Database error while checking for duplicates.") })

end RepoWorld

section Database
variable (p : Processor) (env : Externals) (w : World) (originalName : CString)
  (data : List UInt8) (replyLen : ℕ+)

theorem throughRepo_saveFile (hash : CString) :
    RepoWorld.processorSaveFile p env w.throughRepo originalName data hash replyLen =
      ((processorSaveFile p env w originalName data hash replyLen).1.throughRepo,
        (processorSaveFile p env w originalName data hash replyLen).2) := by
  simp only [RepoWorld.processorSaveFile, processorSaveFile, fileRepoInsert, World.throughRepo]
  by_cases saved :
      (localSaveFile env.saveFile w.storage (p.savedName env originalName) data).2 = 0
  · simp only [saved, ne_eq, not_true_eq_false, if_false]
    rcases dbRepoInsert env.insert env.insertTime w.db originalName hash
      (p.savedName env originalName) with ⟨db, _ | newId⟩ <;> rfl
  · simp only [saved, ne_eq, not_false_eq_true, if_true]

theorem throughRepo_runOcr (savedName : CString) (rec : FileRecord) :
    RepoWorld.processorRunOcr env w.throughRepo originalName data savedName rec replyLen =
      ((processorRunOcr env w originalName data savedName rec replyLen).1.throughRepo,
        (processorRunOcr env w originalName data savedName rec replyLen).2) := by
  simp only [RepoWorld.processorRunOcr, processorRunOcr]
  cases env.extract.accepted <;> rfl

theorem throughRepo_parseReceipt (fileId : Int) (ocrText savedName ocrFilename : CString)
    (dataLen : Nat) :
    RepoWorld.processorParseReceipt env w.throughRepo fileId ocrText savedName ocrFilename
        originalName dataLen replyLen =
      ((processorParseReceipt env w fileId ocrText savedName ocrFilename originalName dataLen
          replyLen).1.throughRepo,
        (processorParseReceipt env w fileId ocrText savedName ocrFilename originalName dataLen
          replyLen).2) := by
  simp only [RepoWorld.processorParseReceipt, processorParseReceipt]
  cases env.parse.accepted <;> rfl

theorem throughRepo_storeFile (hash : CString) :
    RepoWorld.processorStoreFile p env w.throughRepo originalName data hash replyLen =
      ((processorStoreFile p env w originalName data hash replyLen).1.throughRepo,
        (processorStoreFile p env w originalName data hash replyLen).2) := by
  simp only [RepoWorld.processorStoreFile, processorStoreFile, throughRepo_saveFile]
  rcases processorSaveFile p env w originalName data hash replyLen with ⟨w₁, reply | rec⟩
  · rfl
  simp only [throughRepo_runOcr]
  rcases processorRunOcr env w₁ originalName data rec.savedFileName rec replyLen with
    ⟨w₂, reply | ocrText⟩
  · rfl
  simp only [throughRepo_parseReceipt]
  rcases processorParseReceipt env w₂ rec.id ocrText rec.savedFileName
    (storageOcrFilename rec.savedFileName maxFilename) originalName data.length replyLen with
    ⟨w₃, reply | parsedJson⟩
  · rfl
  · simp only
    cases p.cjsonParse parsedJson <;> rfl

/-- Over a database the pipeline is the one that talks to the database. -/
theorem throughRepo_handleFile :
    RepoWorld.processorHandleFile p env w.throughRepo originalName data replyLen =
      ((processorHandleFile p env w originalName data replyLen).1.throughRepo,
        (processorHandleFile p env w originalName data replyLen).2) := by
  simp only [RepoWorld.processorHandleFile, processorHandleFile, throughRepo_storeFile]
  have lookups : fileRepoFindByHash env w.throughRepo.repo (storageSha256Hex data) =
      dbRepoFindByHash env.findByHash w.db (storageSha256Hex data) := rfl
  rw [lookups]
  rcases dbRepoFindByHash env.findByHash w.db (storageSha256Hex data) with error | existing
  · cases error <;> rfl
  · simp only
    split <;> rfl

end Database

end Kaufbot
