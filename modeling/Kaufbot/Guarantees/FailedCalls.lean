import Kaufbot.Guarantees.Upload

/-!
Calls that fail and should have done nothing. A duplicate lookup that the
database could not answer is taken for "not found", so the upload goes on; a
retry with a model records the new text before it asks for the receipt, so a
refused receipt leaves the text behind. Both are stated with the exact
condition under which nothing happened all the same.
-/

namespace Kaufbot

open CString

section Lookup
variable (p : Processor) (env : Externals) (w : World) (originalName : CString)
  (data : List UInt8) (replyLen : ℕ+)

/-- The sender is told of an error, there is no id, and the database, the storage and the
service have not been touched. -/
def UploadWithoutEffect : Prop :=
  let result := processorHandleFile p env w originalName data replyLen
  (result.2.exit = .lookupFailed ∨ result.2.exit = .saveFailed) ∧ result.2.outId = 0 ∧
    result.1 = w

variable {p env w originalName data replyLen}

theorem not_skipped_of_lookupFailed
    (h : sqliteFindByHash env.findByHash w.db (storageSha256Hex data) = .failed) :
    ¬ Skipped p env w data replyLen := by
  rintro ⟨existing, hfound, _⟩
  simp [dbRepoFindByHash, h, fileRepoLookup] at hfound

end Lookup

/-- After a lookup that failed, the upload is without effect exactly when it is not stored for
another reason and the write has changed nothing. -/
theorem uploadWithoutEffect_iff (p : Processor) (env : Externals) (w : World)
    (originalName : CString) (data : List UInt8) (replyLen : ℕ+)
    (h : sqliteFindByHash env.findByHash w.db (storageSha256Hex data) = .failed) :
    UploadWithoutEffect p env w originalName data replyLen ↔
      ¬ Accepted p env w originalName data ∧ WriteChangesNothing p env w originalName data := by
  have hskip : ¬ Skipped p env w data replyLen := not_skipped_of_lookupFailed h
  by_cases hacc : Accepted p env w originalName data
  · refine iff_of_false ?_ (fun hcond => hcond.1 hacc)
    rintro ⟨_, hzero, _⟩
    have := hacc.outId_pos hskip
    omega
  · obtain ⟨hworld, hid, hexit⟩ :=
      processorStoreFile_of_not_accepted p env w originalName data replyLen hacc
    have unchanged : ({ w with storage :=
        (localSaveFile env.saveFile w.storage (p.savedName env originalName) data).1 } : World) = w ↔
        WriteChangesNothing p env w originalName data := by
      rw [World.ext_iff]
      simp only [true_and, and_true, WriteChangesNothing, localSaveFile]
      cases env.saveFile.contents data with
      | none => simp
      | some written => simp [Storage.put_eq_self_iff]
    simp only [UploadWithoutEffect,
      processorHandleFile_of_not_skipped p env w originalName data replyLen hskip, hworld, hid,
      hexit, or_true, true_and, unchanged, hacc, not_false_eq_true]

/-- The database does not answer the lookup, and the disk is full. -/
def lookupDown : Externals :=
  { Externals.working 0 (lit "MILK 1.00") (lit "\x7b\x7d") with
    findByHash := .stepFailed, saveFile := .openFailed }

theorem uploadWithoutEffect_lookupDown :
    UploadWithoutEffect localProcessor lookupDown .empty (lit "receipt.jpg") [1, 2, 3] 4096 ↔
      ¬ Accepted localProcessor lookupDown .empty (lit "receipt.jpg") [1, 2, 3] ∧
        WriteChangesNothing localProcessor lookupDown .empty (lit "receipt.jpg") [1, 2, 3] :=
  uploadWithoutEffect_iff _ _ _ _ _ _ rfl

/-- Only the lookup goes unanswered. -/
def lookupUnanswered : Externals :=
  { Externals.working 0 (lit "MILK 1.00") (lit "\x7b\x7d") with findByHash := .stepFailed }

/-- With a disk that works, an unanswered lookup ends in a new record. -/
theorem failed_lookup_stores_upload :
    sqliteFindByHash .stepFailed World.empty.db (storageSha256Hex [1, 2, 3]) = .failed ∧
      ¬ UploadWithoutEffect localProcessor lookupUnanswered .empty (lit "receipt.jpg") [1, 2, 3]
        4096 := by
  refine ⟨rfl, ?_⟩
  rintro ⟨_, hzero, _⟩
  have hskip : ¬ Skipped localProcessor lookupUnanswered .empty [1, 2, 3] 4096 :=
    not_skipped_of_lookupFailed rfl
  have hacc : Accepted localProcessor lookupUnanswered .empty (lit "receipt.jpg") [1, 2, 3] := by
    decide
  have stored := hacc.outId_pos hskip
  omega

inductive Retry where
  | stored
  | withModel (model : CString)
deriving DecidableEq

def Retry.run (p : Processor) (env : Externals) (w : World) (id : Int) (replyLen : ℕ+) :
    Retry → World × RetryResult
  | .stored => processorRetryOcr p env w id replyLen
  | .withModel model => processorRetryOcrWithModel p env w id model replyLen

/-- The files, the receipts and the stored files of one world are those of the other. -/
def StoredAlike (w w' : World) : Prop :=
  w'.db.files = w.db.files ∧ w'.db.receipts = w.db.receipts ∧ w'.storage = w.storage

def Retry.FailsCleanly (p : Processor) (env : Externals) (w : World) (id : Int) (replyLen : ℕ+)
    (retry : Retry) : Prop :=
  (retry.run p env w id replyLen).2.rc = -1 → StoredAlike w (retry.run p env w id replyLen).1

/-- Recording the text under this name leaves the file and the row as they are. -/
def TextRecorded (env : Externals) (w : World) (id : Int) (ocrName text : CString) : Prop :=
  (∀ written, env.saveText.contents text.bytes = some written → w.storage ocrName = some written) ∧
    (env.markOcr = .ok → ∀ row ∈ w.db.files, row.id = id →
      row.markOcrDone ocrName env.markOcrTime = row)

/-- A retry with a model that gets a text but no receipt has nothing new to record. -/
def Retry.RecordsNothing (env : Externals) (w : World) (id : Int) : Retry → Prop
  | .stored => True
  | .withModel _ =>
      ∀ rec data text, retryImage env w id = some (rec, data) →
        env.extract.accepted = some text → env.parse.accepted = none →
          TextRecorded env w id (storageOcrFilename rec.savedFileName maxFilename) text

section Failures
variable {env : Externals} {w : World} {id : Int}

theorem storedAlike_refl (w : World) : StoredAlike w w := ⟨rfl, rfl, rfl⟩

theorem files_markedRow_iff {outcome : SqlOutcome} {now : Int} {name : CString}
    (files : List FileRecord) :
    files.map (markedRow outcome now id name) = files ↔
      (outcome = .ok → ∀ row ∈ files, row.id = id → row.markOcrDone name now = row) := by
  have each (row : FileRecord) : markedRow outcome now id name row = row ↔
      (outcome = .ok → row.id = id → row.markOcrDone name now = row) := by
    by_cases hrow : outcome = .ok ∧ row.id = id
    · simp [markedRow, hrow]
    · simp only [markedRow, if_neg hrow, true_iff]
      exact fun hok hid => absurd ⟨hok, hid⟩ hrow
  have rows : files.map (markedRow outcome now id name) = files ↔
      ∀ row ∈ files, markedRow outcome now id name row = row := by
    simpa only [List.map_id'] using
      List.map_eq_map_iff (f := markedRow outcome now id name) (g := fun row => row) (l := files)
  simp only [rows, each]
  exact ⟨fun h hok row hrow => h row hrow hok, fun h row hrow hok => h hok row hrow⟩

/-- What an analysis without a receipt leaves is what it finds, exactly when it records nothing. -/
theorem storedAlike_analyse_iff {ocrName text : CString} (ask : Request)
    (hextract : env.extract.accepted = some text) (hparse : env.parse.accepted = none) :
    StoredAlike w (w.analyse env id ocrName ask) ↔ TextRecorded env w id ocrName text := by
  have receipts : (w.analyse env id ocrName ask).db.receipts = w.db.receipts := by
    simp only [World.analyse, hextract, hparse, World.request_db, World.recordText,
      sqliteMarkOcrDone_receipts]
  have written : (localSaveText env.saveText w.storage ocrName text).1 = w.storage ↔
      ∀ written, env.saveText.contents text.bytes = some written →
        w.storage ocrName = some written := by
    simp only [localSaveText, localSaveFile]
    cases env.saveText.contents text.bytes with
    | none => simp
    | some written => simp [Storage.put_eq_self_iff]
  simp only [StoredAlike, receipts, World.analyse_files, World.analyse_storage, hextract,
    Option.isSome_some, if_true, files_markedRow_iff, written, TextRecorded, true_and]
  exact and_comm

end Failures

/-- A failed retry changes nothing exactly when it gets to no text, or the text it gets is
recorded already. -/
theorem retry_failsCleanly_iff (p : Processor) (env : Externals) (w : World) (id : Int)
    (replyLen : ℕ+) (retry : Retry) :
    retry.FailsCleanly p env w id replyLen ↔ retry.RecordsNothing env w id := by
  cases retry with
  | stored =>
      refine iff_of_true ?_ trivial
      intro hfailed
      obtain ⟨_, hdb, hstorage⟩ | ⟨_, _, _, _, _, _, hzero, _⟩ :=
        processorRetryOcr_cases p env w id replyLen
      · exact ⟨congrArg Database.files hdb, congrArg Database.receipts hdb, hstorage⟩
      · exact absurd (hzero.symm.trans hfailed) (by decide)
  | withModel model =>
      simp only [Retry.FailsCleanly, Retry.RecordsNothing, Retry.run]
      cases himage : retryImage env w id with
      | none =>
          obtain ⟨_, hworld⟩ :=
            processorRetryOcrWithModel_of_no_image p env w id model replyLen himage
          simp [hworld, storedAlike_refl]
      | some image =>
          obtain ⟨rec, data⟩ := image
          obtain ⟨hrc, hworld⟩ :=
            processorRetryOcrWithModel_of_image p env w id model replyLen himage
          have hfailed := processorRetryOcrWithModel_failed_iff p env w id model replyLen
          rw [hrc] at hfailed
          rw [hworld, hfailed]
          cases hextract : env.extract.accepted with
          | none =>
              have untouched (ocrName : CString) (ask : Request) :
                  StoredAlike w (w.analyse env id ocrName ask) := by
                simp only [World.analyse, hextract]
                exact storedAlike_refl w
              simp [untouched]
          | some text =>
              cases hparse : env.parse.accepted with
              | none => simp [storedAlike_analyse_iff _ hextract hparse]
              | some json => simp

/-- Another model reads the image differently, and its text is not made a receipt. -/
def secondOpinion : Externals :=
  { Externals.working 60 (lit "SOUP 2.00") (lit "\x7b\x7d") with
    parse := { error := .api, text := none } }

set_option maxRecDepth 100000 in
/-- The retry says that it failed, and the text is the other model's. -/
theorem failed_retry_replaces_text :
    ¬ (Retry.withModel (lit "gemini-2.5-pro")).FailsCleanly localProcessor secondOpinion
      firstUpload.1 1 4096 := by
  intro h
  have replaced :
      ((Retry.withModel (lit "gemini-2.5-pro")).run localProcessor secondOpinion firstUpload.1 1
        4096).2.rc = -1 ∧
      ((Retry.withModel (lit "gemini-2.5-pro")).run localProcessor secondOpinion firstUpload.1 1
        4096).1.storage (lit "upload_1970-01-01_00_00_00_ocr_result.txt") ≠
        firstUpload.1.storage (lit "upload_1970-01-01_00_00_00_ocr_result.txt") := by
    decide +kernel
  exact replaced.2 (congrFun (h replaced.1).2.2 _)

end Kaufbot
