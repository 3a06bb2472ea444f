import Kaufbot.Guarantees.Operations

/-!
Reported success and what is persisted. The pipelines only log it when the mark
or the receipt is not written, so a summary or a return value 0 means that the
service answered, not that the answer is in the database. The exact conditions
are on the answers of the database calls and on the rows there before.
-/

namespace Kaufbot

open CString

def FileOp.reportedId (p : Processor) (env : Externals) (w : World) (replyLen : ℕ+) :
    FileOp → Option Int
  | .upload originalName data =>
      let result := (processorHandleFile p env w originalName data replyLen).2
      if result.exit = .summary then some result.outId else none
  | .retry id => if (processorRetryOcr p env w id replyLen).2.rc = 0 then some id else none
  | .retryWithModel id model =>
      if (processorRetryOcrWithModel p env w id model replyLen).2.rc = 0 then some id else none
  | .delete _ => none

def FileRecord.OcrDone (row : FileRecord) : Prop :=
  row.isOcrProcessed = 1 ∧ row.ocrFileName ≠ .empty

def Database.HoldsReceipt (db : Database) (id : Int) (json : CString) : Prop :=
  ∃ receipt, db.receipt? id = some receipt ∧ receipt.parsedJson = json

/-- The parsed JSON the service returned is the receipt of the file, and the record is done. -/
def Persisted (env : Externals) (w : World) (id : Int) : Prop :=
  (∃ json, env.parse.accepted = some json ∧ w.db.HoldsReceipt id json) ∧
    ∃ row, w.db.file? id = some row ∧ row.OcrDone

/-- The receipt is written, or the same receipt is there already. -/
def ReceiptKept (env : Externals) (w : World) (id : Int) : Prop :=
  w.db.AcceptsReceipt env.checkParsed env.writeParsed id ∨
    ∃ json, env.parse.accepted = some json ∧ w.db.HoldsReceipt id json

/-- When a pipeline that reports success has persisted what it reports. -/
def FileOp.Persists (env : Externals) (w : World) : FileOp → Prop
  | .upload _ _ =>
      env.markOcr = .ok ∧ env.checkParsed ≠ .prepareFailed ∧ env.writeParsed = .ok ∧
        w.db.receiptsSeq < maxRowid
  | .retry id => (∃ row, w.db.file? id = some row ∧ row.isOcrProcessed = 1) ∧ ReceiptKept env w id
  | .retryWithModel id _ =>
      (env.markOcr = .ok ∨ ∃ row, w.db.file? id = some row ∧ row.OcrDone) ∧ ReceiptKept env w id
  | .delete _ => True

theorem storageOcrFilename_nonempty (name : CString) :
    storageOcrFilename name maxFilename ≠ .empty := by
  intro hempty
  have bytes := congrArg CString.bytes hempty
  have literal : (lit "_ocr_result.txt").bytes ≠ [] := by decide
  simp [storageOcrFilename, maxFilename, literal] at bytes

section Steps
variable {env : Externals} {db : Database} {id : Int} {json name : CString}

theorem holdsReceipt_markParsing_iff {check write : SqlOutcome} {now : Int} :
    (sqliteMarkParsingDone check write now db id json).1.HoldsReceipt id json ↔
      db.AcceptsReceipt check write id ∨ db.HoldsReceipt id json := by
  by_cases hacc : db.AcceptsReceipt check write id
  · exact iff_of_true (sqliteMarkParsingDone_of_accepts now json hacc) (Or.inl hacc)
  · rw [sqliteMarkParsingDone_of_refused now json hacc]
    simp [hacc]

theorem acceptsReceipt_markOcr_iff {outcome check write : SqlOutcome} {now j : Int} :
    (sqliteMarkOcrDone outcome now db id name).1.AcceptsReceipt check write j ↔
      db.AcceptsReceipt check write j := by
  have files : (∃ file ∈ (sqliteMarkOcrDone outcome now db id name).1.files, file.id = j) ↔
      ∃ file ∈ db.files, file.id = j := by
    simp [sqliteMarkOcrDone_files]
  simp only [Database.AcceptsReceipt, Database.FreeForReceipt, sqliteMarkOcrDone_receipt?,
    sqliteMarkOcrDone_receipts, sqliteMarkOcrDone_receiptsSeq, files]

theorem ocrDone_markOcr_iff (outcome : SqlOutcome) (now : Int) {row : FileRecord}
    (hrow : db.file? id = some row) (hname : name ≠ .empty) :
    (∃ row, (sqliteMarkOcrDone outcome now db id name).1.file? id = some row ∧ row.OcrDone) ↔
      outcome = .ok ∨ row.OcrDone := by
  have hid : row.id = id := (Database.file?_eq_some.mp hrow).2
  simp only [sqliteMarkOcrDone_file?, hrow, Option.map_some, Option.some.injEq, exists_eq_left']
  by_cases hok : outcome = .ok
  · simp [markedRow, hok, hid, FileRecord.OcrDone, FileRecord.markOcrDone, hname]
  · simp [markedRow, hok]

theorem persisted_analyse_iff {w : World} {ask : Request} (row : FileRecord) {text : CString}
    (hrow : w.db.file? id = some row) (hname : name ≠ .empty)
    (hextract : env.extract.accepted = some text) (hparse : env.parse.accepted = some json) :
    Persisted env (w.analyse env id name ask) id ↔
      (env.markOcr = .ok ∨ row.OcrDone) ∧ ReceiptKept env w id := by
  have done := ocrDone_markOcr_iff env.markOcr env.markOcrTime hrow hname
  simp only [Persisted, ReceiptKept, World.analyse, hextract, hparse, World.recordParsed,
    World.recordText, World.request_db, sqliteMarkParsingDone_file?, done, Option.some.injEq,
    exists_eq_left', holdsReceipt_markParsing_iff, acceptsReceipt_markOcr_iff]
  simp only [Database.HoldsReceipt, sqliteMarkOcrDone_receipt?]
  exact and_comm

theorem receiptKept_fresh_iff {w : World} {row : FileRecord} (hrow : w.db.file? id = some row)
    (hnone : w.db.receipt? id = none) :
    ReceiptKept env w id ↔
      env.checkParsed ≠ .prepareFailed ∧ env.writeParsed = .ok ∧ w.db.receiptsSeq < maxRowid := by
  obtain ⟨hmem, hid⟩ := Database.file?_eq_some.mp hrow
  have parent : ∃ file ∈ w.db.files, file.id = id := ⟨row, hmem, hid⟩
  have free : ∀ old ∈ w.db.receipts, old.fileId ≠ id := Keyed.lookup_eq_none.mp hnone
  simp only [ReceiptKept, Database.AcceptsReceipt, Database.HoldsReceipt, hnone,
    Database.FreeForReceipt, parent, and_true]
  constructor
  · rintro (⟨hcheck, hwrite, hexists | ⟨hroom, _⟩⟩ | ⟨json, _, receipt, hreceipt, _⟩)
    · exact absurd hexists.2 (by simp)
    · exact ⟨hcheck, hwrite, hroom⟩
    · exact absurd hreceipt (by simp)
  · rintro ⟨hcheck, hwrite, hroom⟩
    exact Or.inl ⟨hcheck, hwrite, Or.inr ⟨hroom, free⟩⟩

end Steps

section Pipelines
variable {p : Processor} {env : Externals} {w : World} {replyLen : ℕ+} {id : Int}

theorem analysisExit_eq_summary (h : analysisExit p env = .summary) :
    ∃ text json, env.extract.accepted = some text ∧ env.parse.accepted = some json := by
  cases hextract : env.extract.accepted with
  | none => simp [analysisExit, hextract] at h
  | some text =>
      cases hparse : env.parse.accepted with
      | none => simp [analysisExit, hextract, hparse] at h
      | some json => exact ⟨text, json, rfl, rfl⟩

/-- Only an upload that is stored and analysed ends in a summary. -/
theorem accepted_of_summary {originalName : CString} {data : List UInt8}
    (h : (processorHandleFile p env w originalName data replyLen).2.exit = .summary) :
    ¬ Skipped p env w data replyLen ∧ Accepted p env w originalName data := by
  obtain ⟨hskip, hacc, _⟩ := accepted_of_exit p env w originalName data replyLen
    (by simp [h]) (by simp [h])
  exact ⟨hskip, hacc⟩

theorem upload_persisted_iff {originalName : CString} {data : List UInt8}
    (h : (FileOp.upload originalName data).reportedId p env w replyLen = some id) :
    Persisted env ((FileOp.upload originalName data).apply p env w replyLen) id ↔
      (FileOp.upload originalName data).Persists env w := by
  simp only [FileOp.reportedId] at h
  split at h
  · next hsummary =>
      obtain rfl := Option.some.inj h
      obtain ⟨hskip, hacc⟩ := accepted_of_summary hsummary
      simp only [FileOp.apply,
        processorHandleFile_of_not_skipped p env w originalName data replyLen hskip]
        at hsummary ⊢
      obtain ⟨db, hfiles, hreceipts, hseq, hworld, hid, hexit⟩ :=
        processorStoreFile_of_accepted p env w originalName data replyLen hacc
      obtain ⟨text, json, hextract, hparse⟩ := analysisExit_eq_summary (hexit ▸ hsummary)
      rw [hworld, hid]
      have hrow : db.file? (w.db.filesSeq + 1) = some (p.uploadRow env w originalName data) := by
        rw [Database.file?_eq_some, hfiles]
        exact ⟨by simp, rfl⟩
      have hnone : db.receipt? (w.db.filesSeq + 1) = none := by
        simp only [Database.receipt?, hreceipts]
        exact Database.receipt?_eq_none (fun _ h => Database.id_ne_next h)
      have fresh : ¬ (p.uploadRow env w originalName data).OcrDone :=
        fun hdone => absurd (show (0 : Int) = 1 from hdone.1) (by decide)
      rw [persisted_analyse_iff (p.uploadRow env w originalName data) hrow
        (storageOcrFilename_nonempty _) hextract hparse, receiptKept_fresh_iff hrow hnone]
      simp only [fresh, or_false, hseq, FileOp.Persists]
  · exact absurd h (by simp)

theorem retry_persisted_iff {fileId : Int}
    (h : (FileOp.retry fileId).reportedId p env w replyLen = some id) :
    Persisted env ((FileOp.retry fileId).apply p env w replyLen) id ↔
      (FileOp.retry fileId).Persists env w := by
  simp only [FileOp.reportedId] at h
  split at h
  · next hrc =>
      obtain rfl := Option.some.inj h
      rcases processorRetryOcr_cases p env w fileId replyLen with
        ⟨hfail, _⟩ | ⟨row, text, json, hrow, hname, hparse, _, hworld⟩
      · omega
      · have hocr : row.ocrFileName ≠ .empty := by
          intro hempty
          apply hname
          simp [readColumns, hempty, CString.ext_iff]
        simp only [FileOp.apply, FileOp.Persists, hworld, Persisted, ReceiptKept,
          World.recordParsed, World.request_db, sqliteMarkParsingDone_file?, hrow,
          FileRecord.OcrDone, hparse, Option.some.injEq, exists_eq_left',
          holdsReceipt_markParsing_iff]
        simp [hocr, and_comm]
  · exact absurd h (by simp)

theorem retryWithModel_persisted_iff {fileId : Int} {model : CString}
    (h : (FileOp.retryWithModel fileId model).reportedId p env w replyLen = some id) :
    Persisted env ((FileOp.retryWithModel fileId model).apply p env w replyLen) id ↔
      (FileOp.retryWithModel fileId model).Persists env w := by
  simp only [FileOp.reportedId] at h
  split at h
  · next hrc =>
      obtain rfl := Option.some.inj h
      cases himage : retryImage env w fileId with
      | none =>
          have := (processorRetryOcrWithModel_of_no_image p env w fileId model replyLen himage).1
          omega
      | some found =>
          obtain ⟨rec, data⟩ := found
          obtain ⟨hzero, hworld⟩ :=
            processorRetryOcrWithModel_of_image p env w fileId model replyLen himage
          obtain ⟨row, hrow, _⟩ := file?_of_retryImage himage
          obtain ⟨hextract, hparse⟩ := hzero.mp hrc
          obtain ⟨text, hextract⟩ := Option.isSome_iff_exists.mp hextract
          obtain ⟨json, hparse⟩ := Option.isSome_iff_exists.mp hparse
          simp only [FileOp.apply, hworld, FileOp.Persists, hrow, Option.some.injEq,
            exists_eq_left']
          exact persisted_analyse_iff row hrow (storageOcrFilename_nonempty _) hextract hparse
  · exact absurd h (by simp)

end Pipelines

/-- A pipeline that reports success has persisted what it reports exactly under `Persists`. -/
theorem reported_persisted_iff (p : Processor) (env : Externals) (w : World) (replyLen : ℕ+)
    (op : FileOp) (id : Int) (h : op.reportedId p env w replyLen = some id) :
    Persisted env (op.apply p env w replyLen) id ↔ op.Persists env w := by
  cases op with
  | upload originalName data => exact upload_persisted_iff h
  | retry fileId => exact retry_persisted_iff h
  | retryWithModel fileId model => exact retryWithModel_persisted_iff h
  | delete fileId => exact absurd h (by simp [FileOp.reportedId])

def receiptUpload : FileOp := .upload (lit "receipt.jpg") [1, 2, 3]

def everythingWorks : Externals := .working 0 (lit "MILK 1.00") (lit "\x7b\x7d")

theorem reported_persisted_iff_receiptUpload :
    receiptUpload.reportedId localProcessor everythingWorks .empty 4096 = some 1 ∧
      (Persisted everythingWorks (receiptUpload.apply localProcessor everythingWorks .empty 4096) 1 ↔
        receiptUpload.Persists everythingWorks .empty) := by
  have reported : receiptUpload.reportedId localProcessor everythingWorks .empty 4096 = some 1 := by
    decide +kernel
  exact ⟨reported, reported_persisted_iff _ _ _ _ _ _ reported⟩

/-- The row is not marked, and the user gets the summary. -/
theorem summary_without_mark :
    receiptUpload.reportedId localProcessor { everythingWorks with markOcr := .stepFailed } .empty
        4096 = some 1 ∧
      ¬ Persisted { everythingWorks with markOcr := .stepFailed }
        (receiptUpload.apply localProcessor { everythingWorks with markOcr := .stepFailed } .empty
          4096) 1 := by
  have reported : receiptUpload.reportedId localProcessor
      { everythingWorks with markOcr := .stepFailed } .empty 4096 = some 1 := by
    decide +kernel
  refine ⟨reported, fun persisted => ?_⟩
  have := (upload_persisted_iff reported).mp persisted
  exact absurd this.1 (by decide)

end Kaufbot
