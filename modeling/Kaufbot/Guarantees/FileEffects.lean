import Kaufbot.Guarantees.BotRuns

/-!
Everything an operation on stored files can do to the world, said once: which
rows and files it changes, on what condition, and what it asks the service.
What follows is what every run keeps: the ids of the table are handed out once
and for good, and what was written into a row when it got its id never changes.
-/

namespace Kaufbot

open CString Runs

/-- Ask for the receipt of a text that was read back, and record it. -/
def World.reparse (w : World) (env : Externals) (id : Int) (text : CString) : World :=
  match env.parse.accepted with
  | none => w.request (.parseReceipt text)
  | some json => (w.request (.parseReceipt text)).recordParsed env id json

inductive FileEffect (p : Processor) (env : Externals) (w : World) : FileOp → World → Prop
  | nothing (op : FileOp) : FileEffect p env w op w
  /-- The file was written, in whole or in part, and no row was inserted. -/
  | refused (originalName : CString) (data : List UInt8)
      (new : ∃ replyLen, ¬ Skipped p env w data replyLen)
      (refused : ¬ Accepted p env w originalName data) :
      FileEffect p env w (.upload originalName data)
        { w with storage :=
            (localSaveFile env.saveFile w.storage (p.savedName env originalName) data).1 }
  | stored (originalName : CString) (data : List UInt8)
      (accepted : Accepted p env w originalName data) (db : Database)
      (files : db.files = w.db.files ++ [p.uploadRow env w originalName data])
      (filesSeq : db.filesSeq = w.db.filesSeq + 1) (receipts : db.receipts = w.db.receipts)
      (receiptsSeq : db.receiptsSeq = w.db.receiptsSeq) :
      FileEffect p env w (.upload originalName data)
        (World.analyse
          { w with
            db := db
            storage :=
              (localSaveFile env.saveFile w.storage (p.savedName env originalName) data).1 }
          env (w.db.filesSeq + 1) (storageOcrFilename (p.savedName env originalName) maxFilename)
          (.extractText data originalName))
  | reparsed (id : Int) (row : FileRecord) (text : CString) (found : w.db.file? id = some row)
      (there : localReadText env.readText w.storage (readColumns row).ocrFileName = some text) :
      FileEffect p env w (.retry id) (w.reparse env id text)
  | reread (id : Int) (model : CString) (row : FileRecord) (data : List UInt8)
      (found : w.db.file? id = some row)
      (there : localReadBinary env.readBinary w.storage (readColumns row).savedFileName =
        some data) :
      FileEffect p env w (.retryWithModel id model)
        (w.analyse env id (storageOcrFilename (readColumns row).savedFileName maxFilename)
          (.extractTextWithModel data (readColumns row).originalFileName model))
  | discarded (id : Int) (row : FileRecord) (found : w.db.file? id = some row) :
      FileEffect p env w (.delete id) (w.discard env id (readColumns row))

section Effect
variable (p : Processor) (env : Externals) (w : World) (replyLen : ℕ+)

@[simp] theorem sqliteMarkOcrDone_filesSeq (outcome : SqlOutcome) (now : Int) (db : Database)
    (id : Int) (name : CString) :
    (sqliteMarkOcrDone outcome now db id name).1.filesSeq = db.filesSeq := by
  simp only [sqliteMarkOcrDone]
  split <;> rfl

@[simp] theorem sqliteMarkParsingDone_filesSeq (check write : SqlOutcome) (now : Int)
    (db : Database) (id : Int) (json : CString) :
    (sqliteMarkParsingDone check write now db id json).1.filesSeq = db.filesSeq := by
  simp only [sqliteMarkParsingDone, sqliteUpdateParsed, sqliteInsertParsed]
  repeat' split
  all_goals rfl

@[simp] theorem sqliteDeleteFile_filesSeq (outcome : SqlOutcome) (db : Database) (id : Int) :
    (sqliteDeleteFile outcome db id).1.filesSeq = db.filesSeq := by
  simp only [sqliteDeleteFile]
  split <;> rfl

theorem reparse_filesSeq (id : Int) (text : CString) :
    (w.reparse env id text).db.filesSeq = w.db.filesSeq := by
  simp only [World.reparse]
  cases env.parse.accepted <;> simp [World.recordParsed]

theorem discard_filesSeq (id : Int) (rec : FileRecord) :
    (w.discard env id rec).db.filesSeq = w.db.filesSeq := sqliteDeleteFile_filesSeq ..

theorem analyse_filesSeq (id : Int) (ocrName : CString) (ask : Request) :
    (w.analyse env id ocrName ask).db.filesSeq = w.db.filesSeq := by
  simp only [World.analyse]
  cases env.extract.accepted with
  | none => rfl
  | some text =>
      cases env.parse.accepted <;>
        simp [World.recordText, World.recordParsed]

theorem processorStoreFile_filesSeq {originalName : CString} {data : List UInt8}
    (h : Accepted p env w originalName data) :
    (processorStoreFile p env w originalName data (storageSha256Hex data) replyLen).1.db.filesSeq =
      w.db.filesSeq + 1 := by
  obtain ⟨hreported, hok, hfree⟩ := h
  have hsave : (localSaveFile env.saveFile w.storage (p.savedName env originalName) data).2 = 0 :=
    localSaveFile_eq_zero_iff.mpr hreported
  obtain ⟨db, hins, _, hcount, _⟩ := dbRepoInsert_of_free env.insertTime originalName
    (storageSha256Hex data) (p.savedName env originalName) hok (by simpa using hfree)
  simp only [processorStoreFile, processorSaveFile, hsave, hins, ne_eq, not_true_eq_false, if_false,
    processorRunOcr]
  cases env.extract.accepted with
  | none => exact hcount
  | some text =>
      simp only [processorParseReceipt]
      cases env.parse.accepted with
      | none => simp [dbRepoMarkOcrComplete, hcount]
      | some json =>
          cases hjson : p.cjsonParse json <;>
            simp [dbRepoMarkOcrComplete, dbRepoMarkParsingComplete, hjson, hcount]

theorem upload_effect (originalName : CString) (data : List UInt8) :
    FileEffect p env w (.upload originalName data)
      (processorHandleFile p env w originalName data replyLen).1 := by
  by_cases hskip : Skipped p env w data replyLen
  · obtain ⟨existing, hfound, hstop⟩ := hskip
    rw [processorHandleFile_of_skipped p env w originalName data replyLen hfound hstop]
    exact .nothing _
  · rw [processorHandleFile_of_not_skipped p env w originalName data replyLen hskip]
    by_cases hacc : Accepted p env w originalName data
    · obtain ⟨db, hfiles, hreceipts, hseq, hworld, _⟩ :=
        processorStoreFile_of_accepted p env w originalName data replyLen hacc
      have counted := processorStoreFile_filesSeq p env w replyLen hacc
      rw [hworld, analyse_filesSeq] at counted
      rw [hworld]
      exact .stored originalName data hacc db hfiles counted hreceipts hseq
    · rw [(processorStoreFile_of_not_accepted p env w originalName data replyLen hacc).1]
      exact .refused originalName data ⟨replyLen, hskip⟩ hacc

theorem retry_effect (id : Int) :
    FileEffect p env w (.retry id) (processorRetryOcr p env w id replyLen).1 := by
  simp only [processorRetryOcr]
  cases hfind : dbRepoFindById env.findById w.db id with
  | error e => exact .nothing _
  | ok rec =>
      obtain ⟨_, row, hrow, rfl⟩ := dbRepoFindById_eq_ok.mp hfind
      simp only
      split
      · exact .nothing _
      · cases htext : localReadText env.readText w.storage (readColumns row).ocrFileName with
        | none => exact .nothing _
        | some text =>
            have effect : FileEffect p env w (.retry id) (w.reparse env id text) :=
              .reparsed id row text hrow htext
            simp only [World.reparse] at effect
            cases hparse : env.parse.accepted with
            | none => simpa only [hparse] using effect
            | some json =>
                simp only [hparse] at effect
                simp only
                cases p.cjsonParse json <;> exact effect

theorem retryWithModel_effect (id : Int) (model : CString) :
    FileEffect p env w (.retryWithModel id model)
      (processorRetryOcrWithModel p env w id model replyLen).1 := by
  cases himage : retryImage env w id with
  | none =>
      rw [(processorRetryOcrWithModel_of_no_image p env w id model replyLen himage).2]
      exact .nothing _
  | some found =>
      obtain ⟨rec, data⟩ := found
      obtain ⟨row, hrow, rfl⟩ := file?_of_retryImage himage
      rw [(processorRetryOcrWithModel_of_image p env w id model replyLen himage).2]
      refine .reread id model row data hrow ?_
      cases hfind : dbRepoFindById env.findById w.db id with
      | error e => simp [retryImage, hfind] at himage
      | ok found =>
          obtain ⟨hne, rfl, hdata⟩ :
              (localReadBinary env.readBinary w.storage found.savedFileName).getD [] ≠ [] ∧
                found = readColumns row ∧
                (localReadBinary env.readBinary w.storage found.savedFileName).getD [] = data := by
            simpa [retryImage, hfind] using himage
          cases hread : localReadBinary env.readBinary w.storage (readColumns row).savedFileName with
          | none => exact absurd (by rw [hread]; rfl) hne
          | some bytes =>
              rw [hread] at hdata
              exact congrArg some hdata

/-- Every operation has one of these effects, whatever its calls answer. -/
theorem FileOp.apply_effect (op : FileOp) :
    FileEffect p env w op (op.apply p env w replyLen) := by
  cases op with
  | upload originalName data => exact upload_effect p env w replyLen originalName data
  | retry id => exact retry_effect p env w replyLen id
  | retryWithModel id model => exact retryWithModel_effect p env w replyLen id model
  | delete id =>
      change FileEffect p env w (.delete id) (doDeleteFile env w id replyLen).1
      by_cases hfound : env.findById = .ok ∧ ∃ row, w.db.file? id = some row
      · obtain ⟨hok, row, hrow⟩ := hfound
        rw [doDeleteFile_of_row replyLen hok hrow]
        exact .discarded id row hrow
      · rw [doDeleteFile_of_no_row replyLen hfound]
        exact .nothing _

end Effect

end Kaufbot
