import Kaufbot.Library.Keyed
import Kaufbot.Library.CString
import Mathlib.Algebra.Ring.Int.Defs
import Mathlib.Algebra.Ring.Nat

/-!
The `files` and `parsed_receipts` tables. A `Database` carries the constraints
of the schema, so a state the database would have refused cannot be built; what
a statement may do to the rows is one of the operations below. The two schemas
have the same constraints. The prompts table is outside what the file pipelines
read.
-/

namespace Kaufbot

open CString Keyed

def dbOcrFilenameLen : Nat := 256
def dbHashLen : Nat := 65
def dbFilenameLen : Nat := 256
def dbOrigNameLen : Nat := 512
def dbDateLen : Nat := 32
def dbJsonLen : Nat := 65536

structure FileRecord where
  id : Int
  originalFileName : CString
  fileSizeBytes : Int
  savedFileName : CString
  fileHash : CString
  isOcrProcessed : Int
  ocrFileName : CString
  createdAt : CString
  updatedAt : CString
deriving DecidableEq

def FileRecord.untimed (rec : FileRecord) : FileRecord :=
  { rec with createdAt := .empty, updatedAt := .empty }

structure ParsedReceipt where
  id : Int
  fileId : Int
  parsedJson : CString
  createdAt : CString
  updatedAt : CString
deriving DecidableEq

/-- The largest row id. An `AUTOINCREMENT` key past it fails with `SQLITE_FULL`, and so does the
`nextval` of a sequence. -/
def maxRowid : Int := 2 ^ 63 - 1

/-- The constraints of the two tables and the counters their keys come from. -/
structure Schema (files : List FileRecord) (filesSeq : Int) (receipts : List ParsedReceipt)
    (receiptsSeq : Int) : Prop where
  fileIds : UniqueOn FileRecord.id files
  fileIdRange : ∀ row ∈ files, 1 ≤ row.id ∧ row.id ≤ filesSeq
  filesSeq : 0 ≤ filesSeq ∧ filesSeq ≤ maxRowid
  savedNames : UniqueOn FileRecord.savedFileName files
  hashes : UniqueOn FileRecord.fileHash files
  receiptIds : UniqueOn ParsedReceipt.id receipts
  receiptIdRange : ∀ row ∈ receipts, 1 ≤ row.id ∧ row.id ≤ receiptsSeq
  receiptsSeq : 0 ≤ receiptsSeq ∧ receiptsSeq ≤ maxRowid
  receiptFiles : UniqueOn ParsedReceipt.fileId receipts
  foreignKey : ∀ receipt ∈ receipts, ∃ row ∈ files, row.id = receipt.fileId

@[ext] structure Database where
  files : List FileRecord
  filesSeq : Int
  receipts : List ParsedReceipt
  receiptsSeq : Int
  schema : Schema files filesSeq receipts receiptsSeq

namespace Database

def empty : Database where
  files := []
  filesSeq := 0
  receipts := []
  receiptsSeq := 0
  schema := by
    constructor <;> simp [uniqueOn_nil, maxRowid]

instance : Inhabited Database := ⟨empty⟩

variable (db : Database)

def file? (id : Int) : Option FileRecord := lookup FileRecord.id id db.files

def receipt? (fileId : Int) : Option ParsedReceipt := lookup ParsedReceipt.fileId fileId db.receipts

def appendFile (row : FileRecord) (room : db.filesSeq < maxRowid)
    (hid : row.id = db.filesSeq + 1)
    (free : ∀ old ∈ db.files, old.savedFileName ≠ row.savedFileName ∧ old.fileHash ≠ row.fileHash) :
    Database where
  files := db.files ++ [row]
  filesSeq := db.filesSeq + 1
  receipts := db.receipts
  receiptsSeq := db.receiptsSeq
  schema :=
    { fileIds := db.schema.fileIds.append row (fun old h => by
        have := db.schema.fileIdRange old h
        omega)
      fileIdRange := by
        have := db.schema.filesSeq
        intro old h
        rcases List.mem_append.mp h with h | h
        · have := db.schema.fileIdRange old h
          omega
        · obtain rfl := List.mem_singleton.mp h
          omega
      filesSeq := by
        have := db.schema.filesSeq
        omega
      savedNames := db.schema.savedNames.append row (fun old h => (free old h).1)
      hashes := db.schema.hashes.append row (fun old h => (free old h).2)
      receiptIds := db.schema.receiptIds
      receiptIdRange := db.schema.receiptIdRange
      receiptsSeq := db.schema.receiptsSeq
      receiptFiles := db.schema.receiptFiles
      foreignKey := by
        intro receipt h
        obtain ⟨old, hold, heq⟩ := db.schema.foreignKey receipt h
        exact ⟨old, List.mem_append_left _ hold, heq⟩ }

/-- An id is handed out and no row gets it, as a sequence does when the statement fails later. -/
def burnFileId (room : db.filesSeq < maxRowid) : Database where
  files := db.files
  filesSeq := db.filesSeq + 1
  receipts := db.receipts
  receiptsSeq := db.receiptsSeq
  schema :=
    { db.schema with
      fileIdRange := fun row h => by
        have := db.schema.fileIdRange row h
        omega
      filesSeq := by
        have := db.schema.filesSeq
        omega }

def burnReceiptId (room : db.receiptsSeq < maxRowid) : Database where
  files := db.files
  filesSeq := db.filesSeq
  receipts := db.receipts
  receiptsSeq := db.receiptsSeq + 1
  schema :=
    { db.schema with
      receiptIdRange := fun row h => by
        have := db.schema.receiptIdRange row h
        omega
      receiptsSeq := by
        have := db.schema.receiptsSeq
        omega }

/-- Rewrite columns of the selected rows that no constraint is about. -/
def updateFiles (sel : FileRecord → Bool) (f : FileRecord → FileRecord)
    (kept : ∀ row, (f row).id = row.id ∧ (f row).savedFileName = row.savedFileName ∧
      (f row).fileHash = row.fileHash) : Database where
  files := updateWhere sel f db.files
  filesSeq := db.filesSeq
  receipts := db.receipts
  receiptsSeq := db.receiptsSeq
  schema :=
    { db.schema with
      fileIds := db.schema.fileIds.updateWhere (fun row _ _ => (kept row).1)
      fileIdRange := by
        intro row h
        obtain ⟨old, hold, rfl⟩ := mem_updateWhere.mp h
        have := db.schema.fileIdRange old hold
        split
        · simpa only [(kept old).1] using this
        · exact this
      savedNames := db.schema.savedNames.updateWhere (fun row _ _ => (kept row).2.1)
      hashes := db.schema.hashes.updateWhere (fun row _ _ => (kept row).2.2)
      foreignKey := by
        intro receipt h
        obtain ⟨old, hold, heq⟩ := db.schema.foreignKey receipt h
        refine ⟨_, mem_updateWhere.mpr ⟨old, hold, rfl⟩, ?_⟩
        split
        · exact (kept old).1.trans heq
        · exact heq }

/-- Remove the rows of a file; `ON DELETE CASCADE` removes its receipt. -/
def removeFile (id : Int) : Database where
  files := db.files.filter (fun row => row.id ≠ id)
  filesSeq := db.filesSeq
  receipts := db.receipts.filter (fun receipt => receipt.fileId ≠ id)
  receiptsSeq := db.receiptsSeq
  schema :=
    { fileIds := db.schema.fileIds.filter _
      fileIdRange := fun row h => db.schema.fileIdRange row (List.mem_of_mem_filter h)
      filesSeq := db.schema.filesSeq
      savedNames := db.schema.savedNames.filter _
      hashes := db.schema.hashes.filter _
      receiptIds := db.schema.receiptIds.filter _
      receiptIdRange := fun row h => db.schema.receiptIdRange row (List.mem_of_mem_filter h)
      receiptsSeq := db.schema.receiptsSeq
      receiptFiles := db.schema.receiptFiles.filter _
      foreignKey := by
        intro receipt h
        obtain ⟨hmem, hne⟩ := List.mem_filter.mp h
        obtain ⟨old, hold, heq⟩ := db.schema.foreignKey receipt hmem
        refine ⟨old, List.mem_filter.mpr ⟨hold, ?_⟩, heq⟩
        simpa [heq] using hne }

def appendReceipt (row : ParsedReceipt) (room : db.receiptsSeq < maxRowid)
    (hid : row.id = db.receiptsSeq + 1)
    (free : ∀ old ∈ db.receipts, old.fileId ≠ row.fileId)
    (parent : ∃ file ∈ db.files, file.id = row.fileId) : Database where
  files := db.files
  filesSeq := db.filesSeq
  receipts := db.receipts ++ [row]
  receiptsSeq := db.receiptsSeq + 1
  schema :=
    { db.schema with
      receiptIds := db.schema.receiptIds.append row (fun old h => by
        have := db.schema.receiptIdRange old h
        omega)
      receiptIdRange := by
        have := db.schema.receiptsSeq
        intro old h
        rcases List.mem_append.mp h with h | h
        · have := db.schema.receiptIdRange old h
          omega
        · obtain rfl := List.mem_singleton.mp h
          omega
      receiptsSeq := by
        have := db.schema.receiptsSeq
        omega
      receiptFiles := db.schema.receiptFiles.append row free
      foreignKey := by
        intro receipt h
        rcases List.mem_append.mp h with h | h
        · exact db.schema.foreignKey receipt h
        · obtain rfl := List.mem_singleton.mp h
          exact parent }

def updateReceipts (sel : ParsedReceipt → Bool) (f : ParsedReceipt → ParsedReceipt)
    (kept : ∀ row, (f row).id = row.id ∧ (f row).fileId = row.fileId) : Database where
  files := db.files
  filesSeq := db.filesSeq
  receipts := updateWhere sel f db.receipts
  receiptsSeq := db.receiptsSeq
  schema :=
    { db.schema with
      receiptIds := db.schema.receiptIds.updateWhere (fun row _ _ => (kept row).1)
      receiptIdRange := by
        intro row h
        obtain ⟨old, hold, rfl⟩ := mem_updateWhere.mp h
        have := db.schema.receiptIdRange old hold
        split
        · simpa only [(kept old).1] using this
        · exact this
      receiptFiles := db.schema.receiptFiles.updateWhere (fun row _ _ => (kept row).2)
      foreignKey := by
        intro row h
        obtain ⟨old, hold, rfl⟩ := mem_updateWhere.mp h
        split
        · simpa only [(kept old).2] using db.schema.foreignKey old hold
        · exact db.schema.foreignKey old hold }

section Lookup
variable {db}

theorem file?_eq_some {id : Int} {row : FileRecord} :
    db.file? id = some row ↔ row ∈ db.files ∧ row.id = id :=
  db.schema.fileIds.lookup_eq_some

theorem receipt?_eq_some {fileId : Int} {receipt : ParsedReceipt} :
    db.receipt? fileId = some receipt ↔ receipt ∈ db.receipts ∧ receipt.fileId = fileId :=
  db.schema.receiptFiles.lookup_eq_some

/-- A file that is not in the table has no receipt. -/
theorem receipt?_eq_none {fileId : Int} (h : ∀ row ∈ db.files, row.id ≠ fileId) :
    db.receipt? fileId = none := by
  apply lookup_eq_none.mpr
  intro receipt hmem heq
  obtain ⟨row, hrow, hid⟩ := db.schema.foreignKey receipt hmem
  exact h row hrow (hid.trans heq)

theorem id_ne_next {row : FileRecord} (h : row ∈ db.files) : row.id ≠ db.filesSeq + 1 := by
  have := db.schema.fileIdRange row h
  omega

/-- A receipt belongs to one file. -/
theorem receipt?_inj {i j : Int} {receipt receipt' : ParsedReceipt}
    (h : db.receipt? i = some receipt) (h' : db.receipt? j = some receipt')
    (same : receipt.id = receipt'.id) : i = j := by
  obtain ⟨hmem, rfl⟩ := receipt?_eq_some.mp h
  obtain ⟨hmem', rfl⟩ := receipt?_eq_some.mp h'
  rw [db.schema.receiptIds.eq_of_key_eq hmem hmem' same]

theorem receipt?_id_le {fileId : Int} {receipt : ParsedReceipt}
    (h : db.receipt? fileId = some receipt) : receipt.id ≤ db.receiptsSeq :=
  (db.schema.receiptIdRange receipt (receipt?_eq_some.mp h).1).2

theorem removeFile_file? (id other : Int) :
    (db.removeFile id).file? other = if other = id then none else db.file? other :=
  lookup_filter_ne FileRecord.id id other db.files

theorem removeFile_receipt? (id fileId : Int) :
    (db.removeFile id).receipt? fileId = if fileId = id then none else db.receipt? fileId :=
  lookup_filter_ne ParsedReceipt.fileId id fileId db.receipts

end Lookup

/-- The database holds `text` as the receipt of the file, in the row that was there or in a new
one, and everything else as before. -/
structure StoresReceipt (db db' : Database) (fileId : Int) (text : CString) : Prop where
  files : db'.files = db.files
  filesSeq : db'.filesSeq = db.filesSeq
  receiptsSeq : db.receiptsSeq ≤ db'.receiptsSeq
  others : ∀ other, other ≠ fileId → db'.receipt? other = db.receipt? other
  stored : ∃ receipt, db'.receipt? fileId = some receipt ∧ receipt.parsedJson = text ∧
    receipt.id = ((db.receipt? fileId).map ParsedReceipt.id).getD (db.receiptsSeq + 1)

section Stores
variable {db db' : Database} {fileId : Int} {text : CString}

theorem StoresReceipt.of_append {row : ParsedReceipt} (absent : db.receipt? fileId = none)
    (hid : row.id = db.receiptsSeq + 1) (hfile : row.fileId = fileId)
    (htext : row.parsedJson = text) (files : db'.files = db.files)
    (filesSeq : db'.filesSeq = db.filesSeq) (receipts : db'.receipts = db.receipts ++ [row])
    (receiptsSeq : db'.receiptsSeq = db.receiptsSeq + 1) : StoresReceipt db db' fileId text where
  files := files
  filesSeq := filesSeq
  receiptsSeq := by omega
  others other hne := by
    rw [receipt?, receipts]
    exact lookup_append row (fun heq => hne (heq.symm.trans hfile))
  stored := by
    refine ⟨row, receipt?_eq_some.mpr ⟨by simp [receipts], hfile⟩, htext, ?_⟩
    rw [absent, hid]
    rfl

theorem StoresReceipt.of_update {f : ParsedReceipt → ParsedReceipt}
    (present : (db.receipt? fileId).isSome)
    (kept : ∀ row, (f row).id = row.id ∧ (f row).fileId = row.fileId)
    (htext : ∀ row, (f row).parsedJson = text) (files : db'.files = db.files)
    (filesSeq : db'.filesSeq = db.filesSeq)
    (receipts : db'.receipts = updateWhere (fun row => row.fileId = fileId) f db.receipts)
    (receiptsSeq : db.receiptsSeq ≤ db'.receiptsSeq) : StoresReceipt db db' fileId text := by
  have lookups (other : Int) : db'.receipt? other =
      (db.receipt? other).map (fun row => if row.fileId = fileId then f row else row) := by
    rw [receipt?, receipts, lookup_updateWhere other db.receipts (fun row => (kept row).2)]
    simp [receipt?]
  refine ⟨files, filesSeq, receiptsSeq, fun other hne => ?_, ?_⟩
  · rw [lookups]
    cases hrow : db.receipt? other with
    | none => rfl
    | some row =>
        obtain ⟨_, rfl⟩ := receipt?_eq_some.mp hrow
        simp [hne]
  · obtain ⟨old, hold⟩ := Option.isSome_iff_exists.mp present
    have hfile := (receipt?_eq_some.mp hold).2
    refine ⟨f old, ?_, htext old, ?_⟩
    · rw [lookups, hold]
      simp [hfile]
    · rw [hold, (kept old).1]
      rfl

end Stores

end Database

end Kaufbot
