import Kaufbot.Library.Runs
import Kaufbot.Processor.Effects
import Kaufbot.Telegram.BotCommands

/-!
Runs of the operations on stored files: upload, retry, retry with a model and
delete, each with its own answers from the surroundings. The invariant every
run keeps is about single records: their fields fit the buffers they are read
into, and their names are the ones the storage module generates.
-/

namespace Kaufbot

open CString

inductive FileOp where
  | upload (originalName : CString) (data : List UInt8)
  | retry (id : Int)
  | retryWithModel (id : Int) (model : CString)
  | delete (id : Int)
deriving DecidableEq

def FileOp.apply (p : Processor) (env : Externals) (w : World) (replyLen : ℕ+) : FileOp → World
  | .upload originalName data => (processorHandleFile p env w originalName data replyLen).1
  | .retry id => (processorRetryOcr p env w id replyLen).1
  | .retryWithModel id model => (processorRetryOcrWithModel p env w id model replyLen).1
  | .delete id => (doDeleteFile env w id replyLen).1

def fileStep (p : Processor) (replyLen : ℕ+) (w : World) (op : FileOp × Externals) : World :=
  op.1.apply p op.2 w replyLen

section Delete
variable (env : Externals) (w : World) (id : Int) (msgLen : Nat)

/-- Both files are removed first, then the row, whatever became of the files. -/
def World.discard (rec : FileRecord) : World where
  db := (sqliteDeleteFile env.deleteRow w.db id).1
  storage :=
    let storage := if rec.savedFileName.bytes.isEmpty then w.storage
      else (localDeleteFile env.deleteSaved w.storage rec.savedFileName).1
    if rec.ocrFileName.bytes.isEmpty then storage
    else (localDeleteFile env.deleteOcr storage rec.ocrFileName).1
  requests := w.requests

variable {env w id}

theorem doDeleteFile_of_row {row : FileRecord} (hok : env.findById = .ok)
    (hrow : w.db.file? id = some row) :
    (doDeleteFile env w id msgLen).1 = w.discard env id (readColumns row) := by
  have hfound : sqliteFindById env.findById w.db id = .found (readColumns row) :=
    sqliteFindById_found.mpr ⟨hok, row, hrow, rfl⟩
  simp only [doDeleteFile, hfound]
  split <;> rfl

theorem doDeleteFile_of_no_row (h : ¬ (env.findById = .ok ∧ ∃ row, w.db.file? id = some row)) :
    (doDeleteFile env w id msgLen).1 = w := by
  simp only [doDeleteFile]
  split
  · next rec hfound =>
      obtain ⟨hok, row, hrow, _⟩ := sqliteFindById_found.mp hfound
      exact absurd ⟨hok, row, hrow⟩ h
  · rfl

theorem World.discard_storage_of_ne {rec : FileRecord} {name : CString}
    (hsaved : name ≠ rec.savedFileName)
    (hocr : rec.ocrFileName = .empty ∨ name ≠ rec.ocrFileName) :
    (w.discard env id rec).storage name = w.storage name := by
  have saved : (if rec.savedFileName.bytes.isEmpty then w.storage
      else (localDeleteFile env.deleteSaved w.storage rec.savedFileName).1) name =
        w.storage name := by
    split
    · rfl
    · exact localDeleteFile_of_ne hsaved
  simp only [World.discard]
  rcases hocr with hempty | hne
  · simpa [hempty] using saved
  · split
    · exact saved
    · rw [localDeleteFile_of_ne hne]
      exact saved

end Delete

/-- What holds of every row: no column is cut when it is read, the image has a generated name,
and a row is marked exactly when it names the text derived from that. -/
structure RecordFits (row : FileRecord) : Prop where
  columns : readColumns row = row
  named : ∃ stem ext, SavedName stem ext ∧ row.savedFileName.bytes = stem ++ ext
  text : row.isOcrProcessed = 0 ∧ row.ocrFileName = .empty ∨
    row.isOcrProcessed = 1 ∧ row.ocrFileName = storageOcrFilename row.savedFileName maxFilename

def World.Fits (w : World) : Prop := ∀ row ∈ w.db.files, RecordFits row

theorem World.empty_fits : World.empty.Fits := fun _ h => absurd h List.not_mem_nil

section Fits
variable {p : Processor} {env : Externals} {w : World} {id : Int} {row : FileRecord}

theorem RecordFits.savedFileName_ne_empty (h : RecordFits row) : row.savedFileName ≠ .empty := by
  obtain ⟨stem, ext, hname, hbytes⟩ := h.named
  obtain ⟨init, b, rfl, _⟩ := hname.endsInDigit
  intro hempty
  simp [hempty] at hbytes

theorem RecordFits.ocrName_ne_empty (h : RecordFits row) :
    storageOcrFilename row.savedFileName maxFilename ≠ .empty := by
  obtain ⟨stem, ext, hname, hbytes⟩ := h.named
  exact storageOcrFilename_ne_empty hname hbytes

/-- No record's text is stored under the name of a record's image. -/
theorem RecordFits.ocrName_ne_savedName {other : FileRecord} (h : RecordFits row)
    (h' : RecordFits other) :
    storageOcrFilename row.savedFileName maxFilename ≠ other.savedFileName := by
  obtain ⟨stem, ext, hname, hbytes⟩ := h.named
  obtain ⟨stem', ext', hname', hbytes'⟩ := h'.named
  exact storageOcrFilename_ne_savedName hname hbytes hname' hbytes'

theorem RecordFits.ocrFileName_ne_savedName {other : FileRecord} (h : RecordFits row)
    (h' : RecordFits other) : row.ocrFileName ≠ other.savedFileName := by
  rcases h.text with ⟨_, hempty⟩ | ⟨_, hname⟩
  · rw [hempty]
    exact h'.savedFileName_ne_empty.symm
  · rw [hname]
    exact h.ocrName_ne_savedName h'

theorem recordFits_uploadRow (originalName : CString) (data : List UInt8) :
    RecordFits (p.uploadRow env w originalName data) where
  columns := by
    simp [readColumns, Processor.uploadRow, insertedRow, dbRepoRecord, nowIso8601, CString.ext_iff]
  named := by
    simpa [Processor.uploadRow, insertedRow, dbRepoRecord] using savedName_bytes p env originalName
  text := Or.inl ⟨rfl, rfl⟩

theorem RecordFits.markedRow (h : RecordFits row) {outcome : SqlOutcome} {now : Int}
    {ocrName : CString}
    (hname : row.id = id → ocrName = storageOcrFilename row.savedFileName maxFilename) :
    RecordFits (markedRow outcome now id ocrName row) := by
  simp only [Kaufbot.markedRow]
  split
  · next hsel =>
      obtain rfl := hname hsel.2
      refine ⟨readColumns_markOcrDone h.columns ?_ now, h.named, Or.inr ⟨rfl, rfl⟩⟩
      simp [storageOcrFilename, dbOcrFilenameLen, maxFilename]
  · exact h

theorem World.Fits.analyse (h : w.Fits) {ocrName : CString} {ask : Request}
    (hname : ∀ row ∈ w.db.files, row.id = id →
      ocrName = storageOcrFilename row.savedFileName maxFilename) :
    (w.analyse env id ocrName ask).Fits := by
  intro row hrow
  rw [World.analyse_files] at hrow
  split at hrow
  · obtain ⟨old, hold, rfl⟩ := List.mem_map.mp hrow
    exact (h old hold).markedRow (hname old hold)
  · exact h row hrow

theorem World.Fits.discard (h : w.Fits) (rec : FileRecord) : (w.discard env id rec).Fits := by
  intro row hrow
  simp only [World.discard, sqliteDeleteFile_files] at hrow
  split at hrow
  · exact h row (List.mem_of_mem_filter hrow)
  · exact h row hrow

theorem World.Fits.stored (h : w.Fits) {originalName : CString} {data : List UInt8}
    {db : Database} (hfiles : db.files = w.db.files ++ [p.uploadRow env w originalName data])
    (storage : Storage) : ({ w with db := db, storage := storage } : World).Fits := by
  intro row hrow
  rcases List.mem_append.mp (hfiles ▸ hrow) with hold | hnew
  · exact h row hold
  · obtain rfl := List.mem_singleton.mp hnew
    exact recordFits_uploadRow originalName data

theorem World.Fits.upload (h : w.Fits) (originalName : CString) (data : List UInt8)
    (replyLen : ℕ+) : (processorHandleFile p env w originalName data replyLen).1.Fits := by
  rcases processorHandleFile_cases p env w originalName data replyLen with
    hdb | ⟨_, _, db, hfiles, hworld⟩
  · intro row hrow
    exact h row (hdb ▸ hrow)
  · rw [hworld]
    refine (h.stored hfiles _).analyse (fun row hrow hid => ?_)
    rcases List.mem_append.mp (hfiles ▸ hrow) with hold | hnew
    · exact absurd hid (Database.id_ne_next hold)
    · obtain rfl := List.mem_singleton.mp hnew
      simp [Processor.uploadRow, insertedRow, dbRepoRecord]

theorem World.Fits.retry (h : w.Fits) (replyLen : ℕ+) :
    (processorRetryOcr p env w id replyLen).1.Fits := by
  rcases processorRetryOcr_cases p env w id replyLen with
    ⟨_, hdb, _⟩ | ⟨_, text, json, _, _, _, _, hworld⟩
  · intro row hrow
    exact h row (hdb ▸ hrow)
  · intro row hrow
    rw [hworld] at hrow
    exact h row (by simpa [World.recordParsed] using hrow)

theorem World.Fits.retryWithModel (h : w.Fits) (model : CString) (replyLen : ℕ+) :
    (processorRetryOcrWithModel p env w id model replyLen).1.Fits := by
  cases himage : retryImage env w id with
  | none =>
      rw [(processorRetryOcrWithModel_of_no_image p env w id model replyLen himage).2]
      exact h
  | some found =>
      obtain ⟨rec, data⟩ := found
      obtain ⟨row, hrow, hrec⟩ := file?_of_retryImage himage
      obtain ⟨hmem, hid⟩ := Database.file?_eq_some.mp hrow
      rw [(processorRetryOcrWithModel_of_image p env w id model replyLen himage).2]
      refine h.analyse ?_
      intro other hother hotherId
      obtain rfl : other = row := w.db.schema.fileIds.eq_of_key_eq hother hmem
        (hotherId.trans hid.symm)
      rw [← hrec, (h other hmem).columns]

end Fits

theorem World.Fits.fileStep {p : Processor} {replyLen : ℕ+} {w : World} (h : w.Fits)
    (op : FileOp × Externals) : (fileStep p replyLen w op).Fits := by
  obtain ⟨op, env⟩ := op
  cases op with
  | upload originalName data => exact h.upload originalName data replyLen
  | retry id => exact h.retry replyLen
  | retryWithModel id model => exact h.retryWithModel model replyLen
  | delete id =>
      change (doDeleteFile env w id replyLen).1.Fits
      by_cases hfound : env.findById = .ok ∧ ∃ row, w.db.file? id = some row
      · obtain ⟨hok, row, hrow⟩ := hfound
        rw [doDeleteFile_of_row replyLen hok hrow]
        exact h.discard _
      · rw [doDeleteFile_of_no_row replyLen hfound]
        exact h

section Rows
variable (p : Processor) {env : Externals} {w : World} {row : FileRecord}

theorem retry_keeps_row (hrow : row ∈ w.db.files) (id : Int) (replyLen : ℕ+) :
    row ∈ (processorRetryOcr p env w id replyLen).1.db.files := by
  rcases processorRetryOcr_cases p env w id replyLen with
    ⟨_, hdb, _⟩ | ⟨_, _, _, _, _, _, _, hworld⟩
  · rwa [hdb]
  · rw [hworld]
    simpa [World.recordParsed] using hrow

theorem retryWithModel_keeps_row (hrow : row ∈ w.db.files) (id : Int) (model : CString)
    (replyLen : ℕ+) :
    ∃ row' ∈ (processorRetryOcrWithModel p env w id model replyLen).1.db.files,
      row'.identity = row.identity := by
  cases himage : retryImage env w id with
  | none =>
      rw [(processorRetryOcrWithModel_of_no_image p env w id model replyLen himage).2]
      exact ⟨row, hrow, rfl⟩
  | some found =>
      obtain ⟨rec, data⟩ := found
      rw [(processorRetryOcrWithModel_of_image p env w id model replyLen himage).2]
      exact exists_row_of_identities (World.analyse_identities _ env _ _ _) hrow

end Rows

end Kaufbot
