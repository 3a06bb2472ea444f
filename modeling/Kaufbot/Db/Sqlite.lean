import Kaufbot.Db.Tables
import Kaufbot.Library.Calendar

/-!
The SQLite backend: the prepared statements over the tables. Foreign keys are
switched on; a statement that would break a constraint fails in its step and
changes nothing. Every statement takes the outcome of its own prepare and step,
and every timestamp the clock reading it is made from.
-/

namespace Kaufbot

open CString Keyed

/-- What happens to one statement before any constraint is looked at. -/
inductive SqlOutcome where
  | ok
  | prepareFailed
  | stepFailed
deriving DecidableEq

/-- What a lookup returns: 0 with the record filled in, 1, or -1. -/
inductive SelectResult where
  | found (record : FileRecord)
  | absent
  | failed
deriving DecidableEq

def nowIso8601 (t : Int) : CString :=
  let tm := gmtime t
  snprintf dbDateLen (.concat [printPadded 4 (tm.year + 1900), lit "-",
    printPadded 2 (tm.mon + 1), lit "-", printPadded 2 tm.mday, lit "T", printPadded 2 tm.hour,
    lit ":", printPadded 2 tm.min, lit ":", printPadded 2 tm.sec, lit "Z"])

/-- The columns of a row, each copied into its buffer of the record. -/
def readColumns (row : FileRecord) : FileRecord where
  id := row.id
  originalFileName := snprintf dbOrigNameLen row.originalFileName
  fileSizeBytes := row.fileSizeBytes
  savedFileName := snprintf dbFilenameLen row.savedFileName
  fileHash := snprintf dbHashLen row.fileHash
  isOcrProcessed := row.isOcrProcessed
  ocrFileName := snprintf dbOcrFilenameLen row.ocrFileName
  createdAt := snprintf dbDateLen row.createdAt
  updatedAt := snprintf dbDateLen row.updatedAt

/-- `sqlite_find_by_hash` and `sqlite_find_by_id` differ in the column they select on. -/
def sqliteSelectFile {κ : Type} [DecidableEq κ] (column : FileRecord → κ) (outcome : SqlOutcome)
    (db : Database) (key : κ) : SelectResult :=
  match outcome, lookup column key db.files with
  | .ok, some row => .found (readColumns row)
  | .ok, none => .absent
  | _, _ => .failed

def sqliteFindByHash (outcome : SqlOutcome) (db : Database) (hash : CString) : SelectResult :=
  sqliteSelectFile FileRecord.fileHash outcome db hash

def sqliteFindById (outcome : SqlOutcome) (db : Database) (id : Int) : SelectResult :=
  sqliteSelectFile FileRecord.id outcome db id

inductive ReceiptResult where
  | found (receipt : ParsedReceipt)
  | absent
  | failed
deriving DecidableEq

def readReceiptColumns (row : ParsedReceipt) : ParsedReceipt where
  id := row.id
  fileId := row.fileId
  parsedJson := snprintf dbJsonLen row.parsedJson
  createdAt := snprintf dbDateLen row.createdAt
  updatedAt := snprintf dbDateLen row.updatedAt

def sqliteGetParsedReceipt (outcome : SqlOutcome) (db : Database) (fileId : Int) :
    ReceiptResult :=
  match outcome, db.receipt? fileId with
  | .ok, some row => .found (readReceiptColumns row)
  | .ok, none => .absent
  | _, _ => .failed

/-- `ORDER BY created_at DESC`: byte order of the text, equal timestamps in table order. -/
def createdNoEarlier (a b : FileRecord) : Bool := !decide (a.createdAt.bytes < b.createdAt.bytes)

/-- The records `sqlite_list` delivers; the statement may fail after some of them. -/
def sqliteList (delivered : Option Nat) (db : Database) : List FileRecord :=
  let rows := (db.files.mergeSort createdNoEarlier).map readColumns
  match delivered with
  | none => rows
  | some n => rows.take n

def Database.FreeFor (db : Database) (savedFileName fileHash : CString) : Prop :=
  db.filesSeq < maxRowid ∧
    ∀ old ∈ db.files, old.savedFileName ≠ savedFileName ∧ old.fileHash ≠ fileHash

instance (db : Database) (savedFileName fileHash : CString) :
    Decidable (db.FreeFor savedFileName fileHash) := by
  unfold Database.FreeFor
  infer_instance

def insertedRow (now : Int) (db : Database) (rec : FileRecord) : FileRecord :=
  { rec with id := db.filesSeq + 1, createdAt := nowIso8601 now, updatedAt := nowIso8601 now }

def sqliteInsert (outcome : SqlOutcome) (now : Int) (db : Database) (rec : FileRecord) :
    Database × Option FileRecord :=
  if h : outcome = .ok ∧ db.FreeFor rec.savedFileName rec.fileHash then
    (db.appendFile (insertedRow now db rec) h.2.1 rfl h.2.2, some (insertedRow now db rec))
  else (db, none)

def FileRecord.markOcrDone (ocrFileName : CString) (now : Int) (row : FileRecord) : FileRecord :=
  { row with isOcrProcessed := 1, ocrFileName := ocrFileName, updatedAt := nowIso8601 now }

/-- Marking a row that no column is cut of cuts none. -/
theorem readColumns_markOcrDone {row : FileRecord} {ocrFileName : CString}
    (columns : readColumns row = row)
    (fits : snprintf dbOcrFilenameLen ocrFileName = ocrFileName) (now : Int) :
    readColumns (row.markOcrDone ocrFileName now) = row.markOcrDone ocrFileName now := by
  have marked : readColumns (row.markOcrDone ocrFileName now) =
      { readColumns row with
        isOcrProcessed := 1
        ocrFileName := snprintf dbOcrFilenameLen ocrFileName
        updatedAt := snprintf dbDateLen (nowIso8601 now) } := rfl
  rw [marked, columns, fits, nowIso8601, snprintf_snprintf]
  rfl

/-- An update that selects no row succeeds as well. -/
def sqliteMarkOcrDone (outcome : SqlOutcome) (now : Int) (db : Database) (id : Int)
    (ocrFileName : CString) : Database × Int :=
  if outcome = .ok then
    (db.updateFiles (fun row => row.id = id) (FileRecord.markOcrDone ocrFileName now)
      (fun _ => ⟨rfl, rfl, rfl⟩), 0)
  else (db, -1)

/-- -1 when the statement cannot be prepared; a failing step counts as absence. -/
def sqliteCheckParsedExists (outcome : SqlOutcome) (db : Database) (fileId : Int) : Int :=
  match outcome with
  | .prepareFailed => -1
  | .stepFailed => 0
  | .ok => if (db.receipt? fileId).isSome then 1 else 0

def ParsedReceipt.setJson (parsedJson : CString) (now : Int) (row : ParsedReceipt) :
    ParsedReceipt :=
  { row with parsedJson := parsedJson, updatedAt := nowIso8601 now }

def sqliteUpdateParsed (outcome : SqlOutcome) (now : Int) (db : Database) (fileId : Int)
    (parsedJson : CString) : Database × Int :=
  if outcome = .ok then
    (db.updateReceipts (fun row => row.fileId = fileId) (ParsedReceipt.setJson parsedJson now)
      (fun _ => ⟨rfl, rfl⟩), 0)
  else (db, -1)

/-- No constraint of `parsed_receipts` refuses a receipt for the file. -/
def Database.FreeForReceipt (db : Database) (fileId : Int) : Prop :=
  db.receiptsSeq < maxRowid ∧ (∀ old ∈ db.receipts, old.fileId ≠ fileId) ∧
    ∃ file ∈ db.files, file.id = fileId

instance (db : Database) (fileId : Int) : Decidable (db.FreeForReceipt fileId) := by
  unfold Database.FreeForReceipt
  infer_instance

def insertedReceipt (now : Int) (db : Database) (fileId : Int) (parsedJson : CString) :
    ParsedReceipt where
  id := db.receiptsSeq + 1
  fileId := fileId
  parsedJson := parsedJson
  createdAt := nowIso8601 now
  updatedAt := nowIso8601 now

def sqliteInsertParsed (outcome : SqlOutcome) (now : Int) (db : Database) (fileId : Int)
    (parsedJson : CString) : Database × Int :=
  if h : outcome = .ok ∧ db.FreeForReceipt fileId then
    (db.appendReceipt (insertedReceipt now db fileId parsedJson) h.2.1 rfl h.2.2.1 h.2.2.2, 0)
  else (db, -1)

def sqliteMarkParsingDone (check write : SqlOutcome) (now : Int) (db : Database) (fileId : Int)
    (parsedJson : CString) : Database × Int :=
  let found := sqliteCheckParsedExists check db fileId
  if found < 0 then (db, -1)
  else if found ≠ 0 then sqliteUpdateParsed write now db fileId parsedJson
  else sqliteInsertParsed write now db fileId parsedJson

/-- 0 when a row was deleted, 1 when there was none, -1 on failure. -/
def sqliteDeleteFile (outcome : SqlOutcome) (db : Database) (id : Int) : Database × Int :=
  if outcome = .ok then (db.removeFile id, if (db.file? id).isSome then 0 else 1)
  else (db, -1)

section Select

theorem sqliteSelectFile_found {κ : Type} [DecidableEq κ] {column : FileRecord → κ}
    {outcome : SqlOutcome} {db : Database} {key : κ} {rec : FileRecord} :
    sqliteSelectFile column outcome db key = .found rec ↔
      outcome = .ok ∧ ∃ row, lookup column key db.files = some row ∧ readColumns row = rec := by
  cases outcome with
  | ok => cases h : lookup column key db.files <;> simp [sqliteSelectFile, h]
  | prepareFailed | stepFailed => simp [sqliteSelectFile]

theorem sqliteFindById_found {outcome : SqlOutcome} {db : Database} {id : Int}
    {rec : FileRecord} :
    sqliteFindById outcome db id = .found rec ↔
      outcome = .ok ∧ ∃ row, db.file? id = some row ∧ readColumns row = rec :=
  sqliteSelectFile_found

end Select

section Insert
variable {outcome : SqlOutcome} (now : Int) {db : Database} (rec : FileRecord)

theorem sqliteInsert_of_free (hok : outcome = .ok)
    (hfree : db.FreeFor rec.savedFileName rec.fileHash) :
    ∃ db', sqliteInsert outcome now db rec = (db', some (insertedRow now db rec)) ∧
      db'.files = db.files ++ [insertedRow now db rec] ∧ db'.filesSeq = db.filesSeq + 1 ∧
      db'.receipts = db.receipts ∧ db'.receiptsSeq = db.receiptsSeq :=
  ⟨_, dif_pos ⟨hok, hfree⟩, rfl, rfl, rfl, rfl⟩

theorem sqliteInsert_of_refused
    (h : ¬ (outcome = .ok ∧ db.FreeFor rec.savedFileName rec.fileHash)) :
    sqliteInsert outcome now db rec = (db, none) :=
  dif_neg h

end Insert

section MarkOcr
variable (outcome : SqlOutcome) (now : Int) (db : Database) (id : Int) (name : CString)

@[simp] theorem sqliteMarkOcrDone_receipts :
    (sqliteMarkOcrDone outcome now db id name).1.receipts = db.receipts := by
  simp only [sqliteMarkOcrDone]
  split <;> rfl

@[simp] theorem sqliteMarkOcrDone_receiptsSeq :
    (sqliteMarkOcrDone outcome now db id name).1.receiptsSeq = db.receiptsSeq := by
  simp only [sqliteMarkOcrDone]
  split <;> rfl

@[simp] theorem sqliteMarkOcrDone_receipt? (j : Int) :
    (sqliteMarkOcrDone outcome now db id name).1.receipt? j = db.receipt? j := by
  simp only [Database.receipt?, sqliteMarkOcrDone_receipts]

def markedRow (row : FileRecord) : FileRecord :=
  if outcome = .ok ∧ row.id = id then row.markOcrDone name now else row

theorem sqliteMarkOcrDone_files :
    (sqliteMarkOcrDone outcome now db id name).1.files =
      db.files.map (markedRow outcome now id name) := by
  simp only [sqliteMarkOcrDone]
  split
  · next hok =>
      apply List.map_congr_left
      intro row _
      simp [markedRow, hok]
  · next hfail =>
      conv_lhs => rw [← List.map_id db.files]
      apply List.map_congr_left
      intro row _
      simp [markedRow, hfail]

theorem markedRow_keys (row : FileRecord) :
    (markedRow outcome now id name row).id = row.id ∧
      (markedRow outcome now id name row).savedFileName = row.savedFileName ∧
      (markedRow outcome now id name row).fileHash = row.fileHash := by
  simp only [markedRow]
  split <;> exact ⟨rfl, rfl, rfl⟩

@[simp] theorem markedRow_id (row : FileRecord) :
    (markedRow outcome now id name row).id = row.id := (markedRow_keys outcome now id name row).1

@[simp] theorem markedRow_savedFileName (row : FileRecord) :
    (markedRow outcome now id name row).savedFileName = row.savedFileName :=
  (markedRow_keys outcome now id name row).2.1

@[simp] theorem markedRow_fileHash (row : FileRecord) :
    (markedRow outcome now id name row).fileHash = row.fileHash :=
  (markedRow_keys outcome now id name row).2.2

theorem markedRow_of_ne {row : FileRecord} (h : row.id ≠ id) :
    markedRow outcome now id name row = row := by
  simp [markedRow, h]

theorem sqliteMarkOcrDone_file? (j : Int) :
    (sqliteMarkOcrDone outcome now db id name).1.file? j =
      (db.file? j).map (markedRow outcome now id name) := by
  simp only [Database.file?, lookup, sqliteMarkOcrDone_files, List.find?_map, Function.comp_def,
    markedRow_id]

theorem sqliteMarkOcrDone_file?_of_ne {j : Int} (h : j ≠ id) :
    (sqliteMarkOcrDone outcome now db id name).1.file? j = db.file? j := by
  rw [sqliteMarkOcrDone_file?]
  cases hrow : db.file? j with
  | none => rfl
  | some row =>
      obtain ⟨_, rfl⟩ := Database.file?_eq_some.mp hrow
      exact congrArg some (markedRow_of_ne outcome now id name h)

end MarkOcr

section MarkParsing
variable (check write : SqlOutcome) (now : Int) (db : Database) (id : Int) (json : CString)

/-- The statements of `sqlite_mark_parsing_done` go through and no constraint refuses them. -/
def Database.AcceptsReceipt : Prop :=
  check ≠ .prepareFailed ∧ write = .ok ∧
    (check = .ok ∧ (db.receipt? id).isSome ∨ db.FreeForReceipt id)

instance : Decidable (db.AcceptsReceipt check write id) := by
  unfold Database.AcceptsReceipt
  infer_instance

theorem sqliteUpdateParsed_files : (sqliteUpdateParsed write now db id json).1.files = db.files := by
  simp only [sqliteUpdateParsed]
  split <;> rfl

theorem sqliteInsertParsed_files : (sqliteInsertParsed write now db id json).1.files = db.files := by
  simp only [sqliteInsertParsed]
  split <;> rfl

@[simp] theorem sqliteMarkParsingDone_files :
    (sqliteMarkParsingDone check write now db id json).1.files = db.files := by
  simp only [sqliteMarkParsingDone]
  split
  · rfl
  · split
    · exact sqliteUpdateParsed_files write now db id json
    · exact sqliteInsertParsed_files write now db id json

@[simp] theorem sqliteMarkParsingDone_file? (j : Int) :
    (sqliteMarkParsingDone check write now db id json).1.file? j = db.file? j := by
  simp only [Database.file?, sqliteMarkParsingDone_files]

theorem sqliteUpdateParsed_receipt? (hok : write = .ok) (j : Int) :
    (sqliteUpdateParsed write now db id json).1.receipt? j =
      (db.receipt? j).map (fun row => if row.fileId = id then row.setJson json now else row) := by
  simp only [sqliteUpdateParsed, hok, if_true, Database.receipt?, Database.updateReceipts]
  rw [lookup_updateWhere]
  · simp only [decide_eq_true_eq]
  · exact fun _ => rfl

theorem sqliteUpdateParsed_receipt?_of_ne {j : Int} (h : j ≠ id) :
    (sqliteUpdateParsed write now db id json).1.receipt? j = db.receipt? j := by
  by_cases hok : write = .ok
  · rw [sqliteUpdateParsed_receipt? write now db id json hok]
    cases hrow : db.receipt? j with
    | none => rfl
    | some row =>
        obtain ⟨_, rfl⟩ := Database.receipt?_eq_some.mp hrow
        simp [h]
  · simp [sqliteUpdateParsed, hok]

theorem sqliteInsertParsed_receipt?_of_ne {j : Int} (h : j ≠ id) :
    (sqliteInsertParsed write now db id json).1.receipt? j = db.receipt? j := by
  simp only [sqliteInsertParsed]
  split
  · exact lookup_append _ (Ne.symm h)
  · rfl

/-- A receipt that is written is the receipt of that file and of no other. -/
theorem sqliteMarkParsingDone_receipt?_of_ne {j : Int} (h : j ≠ id) :
    (sqliteMarkParsingDone check write now db id json).1.receipt? j = db.receipt? j := by
  simp only [sqliteMarkParsingDone]
  split
  · rfl
  · split
    · exact sqliteUpdateParsed_receipt?_of_ne write now db id json h
    · exact sqliteInsertParsed_receipt?_of_ne write now db id json h

variable {check write db id}

theorem sqliteMarkParsingDone_of_accepts (h : db.AcceptsReceipt check write id) :
    ∃ receipt, (sqliteMarkParsingDone check write now db id json).1.receipt? id = some receipt ∧
      receipt.parsedJson = json := by
  obtain ⟨hcheck, hwrite, hcase⟩ := h
  by_cases hexists : check = .ok ∧ (db.receipt? id).isSome
  · obtain ⟨rfl, hsome⟩ := hexists
    obtain ⟨receipt, hreceipt⟩ := Option.isSome_iff_exists.mp hsome
    obtain ⟨_, hid⟩ := Database.receipt?_eq_some.mp hreceipt
    refine ⟨receipt.setJson json now, ?_, rfl⟩
    simp only [sqliteMarkParsingDone, sqliteCheckParsedExists, hsome, if_true]
    change (sqliteUpdateParsed write now db id json).1.receipt? id = _
    rw [sqliteUpdateParsed_receipt? write now db id json hwrite, hreceipt]
    simp [hid]
  · have hfree : db.FreeForReceipt id := hcase.resolve_left hexists
    have hnone : db.receipt? id = none := lookup_eq_none.mpr hfree.2.1
    have hzero : sqliteCheckParsedExists check db id = 0 := by
      cases check with
      | ok => simp [sqliteCheckParsedExists, hnone]
      | prepareFailed => exact absurd rfl hcheck
      | stepFailed => rfl
    refine ⟨insertedReceipt now db id json, ?_, rfl⟩
    rw [Database.receipt?_eq_some]
    simp only [sqliteMarkParsingDone, hzero, sqliteInsertParsed, hwrite, hfree]
    simp [Database.appendReceipt, insertedReceipt]

theorem sqliteMarkParsingDone_of_refused (h : ¬ db.AcceptsReceipt check write id) :
    (sqliteMarkParsingDone check write now db id json).1 = db := by
  simp only [Database.AcceptsReceipt, not_and, not_or] at h
  cases check with
  | prepareFailed => rfl
  | stepFailed =>
      have refused : ¬ (write = .ok ∧ db.FreeForReceipt id) :=
        fun hw => (h (by decide) hw.1).2 hw.2
      simp [sqliteMarkParsingDone, sqliteCheckParsedExists, sqliteInsertParsed, refused]
  | ok =>
      cases hexists : (db.receipt? id).isSome with
      | true =>
          have refused : write ≠ .ok := fun hw => (h (by decide) hw).1 rfl hexists
          simp [sqliteMarkParsingDone, sqliteCheckParsedExists, hexists, sqliteUpdateParsed, refused]
      | false =>
          have refused : ¬ (write = .ok ∧ db.FreeForReceipt id) :=
            fun hw => (h (by decide) hw.1).2 hw.2
          simp [sqliteMarkParsingDone, sqliteCheckParsedExists, hexists, sqliteInsertParsed, refused]

/-- Without failures of the engine: the first receipt of a file is inserted, … -/
theorem sqliteMarkParsingDone_of_free (h : db.FreeForReceipt id) :
    ∃ db', sqliteMarkParsingDone .ok .ok now db id json = (db', 0) ∧ db'.files = db.files ∧
      db'.filesSeq = db.filesSeq ∧
      db'.receipts = db.receipts ++ [insertedReceipt now db id json] ∧
      db'.receiptsSeq = db.receiptsSeq + 1 := by
  have hnone : db.receipt? id = none := lookup_eq_none.mpr h.2.1
  refine ⟨db.appendReceipt (insertedReceipt now db id json) h.1 rfl h.2.1 h.2.2, ?_, rfl, rfl, rfl,
    rfl⟩
  simp [sqliteMarkParsingDone, sqliteCheckParsedExists, hnone, sqliteInsertParsed, h]

/-- … a later one replaces it, … -/
theorem sqliteMarkParsingDone_of_existing (h : (db.receipt? id).isSome) :
    ∃ db', sqliteMarkParsingDone .ok .ok now db id json = (db', 0) ∧ db'.files = db.files ∧
      db'.filesSeq = db.filesSeq ∧
      db'.receipts =
        updateWhere (fun row => row.fileId = id) (ParsedReceipt.setJson json now) db.receipts ∧
      db'.receiptsSeq = db.receiptsSeq := by
  refine ⟨db.updateReceipts (fun row => row.fileId = id) (ParsedReceipt.setJson json now)
    (fun _ => ⟨rfl, rfl⟩), ?_, rfl, rfl, rfl, rfl⟩
  simp [sqliteMarkParsingDone, sqliteCheckParsedExists, h, sqliteUpdateParsed]

/-- … and any other is refused. -/
theorem sqliteMarkParsingDone_eq_refused (hfree : ¬ db.FreeForReceipt id)
    (hnone : db.receipt? id = none) :
    sqliteMarkParsingDone .ok .ok now db id json = (db, -1) := by
  simp [sqliteMarkParsingDone, sqliteCheckParsedExists, hnone, sqliteInsertParsed, hfree]

/-- Together: the receipt of a file that is there is stored, and no other. -/
theorem sqliteMarkParsingDone_of_live (room : db.receiptsSeq < maxRowid)
    (live : ∃ file ∈ db.files, file.id = id) :
    ∃ db', sqliteMarkParsingDone .ok .ok now db id json = (db', 0) ∧
      db.StoresReceipt db' id json := by
  cases hreceipt : db.receipt? id with
  | none =>
      obtain ⟨db', hdone, hfiles, hfilesSeq, hreceipts, hseq⟩ :=
        sqliteMarkParsingDone_of_free now json ⟨room, lookup_eq_none.mp hreceipt, live⟩
      exact ⟨db', hdone, .of_append hreceipt rfl rfl rfl hfiles hfilesSeq hreceipts hseq⟩
  | some receipt =>
      have present : (db.receipt? id).isSome := Option.isSome_of_eq_some hreceipt
      obtain ⟨db', hdone, hfiles, hfilesSeq, hreceipts, hseq⟩ :=
        sqliteMarkParsingDone_of_existing now json present
      refine ⟨db', hdone, .of_update present ?_ ?_ hfiles hfilesSeq hreceipts
        (Int.le_of_eq hseq.symm)⟩
      · exact fun _ => ⟨rfl, rfl⟩
      · exact fun _ => rfl

theorem sqliteMarkParsingDone_of_dead (dead : ∀ file ∈ db.files, file.id ≠ id) :
    sqliteMarkParsingDone .ok .ok now db id json = (db, -1) := by
  refine sqliteMarkParsingDone_eq_refused now json (fun free => ?_) (Database.receipt?_eq_none dead)
  obtain ⟨file, hfile, hid⟩ := free.2.2
  exact dead file hfile hid

end MarkParsing

section Delete
variable (outcome : SqlOutcome) (db : Database) (id : Int)

theorem sqliteDeleteFile_files :
    (sqliteDeleteFile outcome db id).1.files =
      if outcome = .ok then db.files.filter (fun row => row.id ≠ id) else db.files := by
  simp only [sqliteDeleteFile]
  split <;> rfl

theorem sqliteDeleteFile_file? (other : Int) :
    (sqliteDeleteFile outcome db id).1.file? other =
      if outcome = .ok ∧ other = id then none else db.file? other := by
  by_cases hok : outcome = .ok
  · simp [sqliteDeleteFile, hok, Database.removeFile_file?]
  · simp [sqliteDeleteFile, hok]

theorem sqliteDeleteFile_receipt? (fileId : Int) :
    (sqliteDeleteFile outcome db id).1.receipt? fileId =
      if outcome = .ok ∧ fileId = id then none else db.receipt? fileId := by
  by_cases hok : outcome = .ok
  · simp [sqliteDeleteFile, hok, Database.removeFile_receipt?]
  · simp [sqliteDeleteFile, hok]

theorem sqliteDeleteFile_file?_of_ne {other : Int} (h : other ≠ id) :
    (sqliteDeleteFile outcome db id).1.file? other = db.file? other := by
  simp [sqliteDeleteFile_file?, h]

theorem sqliteDeleteFile_receipt?_of_ne {other : Int} (h : other ≠ id) :
    (sqliteDeleteFile outcome db id).1.receipt? other = db.receipt? other := by
  simp [sqliteDeleteFile_receipt?, h]

end Delete

end Kaufbot
