import Kaufbot.Db.Sqlite
import Kaufbot.Library.Printf

/-!
The PostgreSQL backend. Its two tables have the constraints of the SQLite
schema, but their ids come from sequences, which do not take back an id when
the statement fails; a receipt is JSONB, so only text that is JSON gets in, and
comes out as the server prints it; a flag is BOOLEAN. Every statement is one
round trip, `executed` unless the connection or the server gives out.
-/

namespace Kaufbot

open CString Keyed

/-- What the server computes: `text::jsonb::text`, if the text is JSON, and `to_char` of an
instant in the time zone of the session. -/
structure PostgresEngine where
  jsonb : CString → Option CString
  toChar : Int → CString

/-- The server takes a text parameter only if it is UTF-8. -/
def ValidUtf8 (s : CString) : Prop := ByteArray.IsValidUTF8 ⟨s.bytes.toArray⟩

instance (s : CString) : Decidable (ValidUtf8 s) := by
  unfold ValidUtf8
  infer_instance

/-- The flag printed into two bytes, read as a BOOLEAN; 1 stands for `t` and 0 for `f`. -/
def boolParam (flag : Int) : Option Int :=
  let isOcrStr := snprintf 2 (printInt flag)
  if isOcrStr = lit "1" then some 1 else if isOcrStr = lit "0" then some 0 else none

variable (engine : PostgresEngine) (executed : Bool)

def postgresSelectFile {κ : Type} [DecidableEq κ] (column : FileRecord → κ) (db : Database)
    (key : κ) : SelectResult :=
  if executed then
    match lookup column key db.files with
    | some row => .found (readColumns row)
    | none => .absent
  else .failed

def postgresFindByHash (db : Database) (hash : CString) : SelectResult :=
  if ValidUtf8 hash then postgresSelectFile executed FileRecord.fileHash db hash else .failed

def postgresFindById (db : Database) (id : Int) : SelectResult :=
  postgresSelectFile executed FileRecord.id db id

def FileRecord.TextsValid (rec : FileRecord) : Prop :=
  ValidUtf8 rec.originalFileName ∧ ValidUtf8 rec.savedFileName ∧ ValidUtf8 rec.fileHash ∧
    ValidUtf8 rec.ocrFileName

instance (rec : FileRecord) : Decidable rec.TextsValid := by
  unfold FileRecord.TextsValid
  infer_instance

def postgresRow (flag now : Int) (db : Database) (rec : FileRecord) : FileRecord :=
  { rec with
    id := db.filesSeq + 1
    isOcrProcessed := flag
    createdAt := engine.toChar now
    updatedAt := engine.toChar now }

/-- The parameters are read before an id is taken, the constraints are checked after. -/
def postgresInsert (now : Int) (db : Database) (rec : FileRecord) : Database × Option FileRecord :=
  match boolParam rec.isOcrProcessed with
  | none => (db, none)
  | some flag =>
      if accepted : executed ∧ rec.TextsValid ∧ db.filesSeq < maxRowid then
        if free : ∀ old ∈ db.files,
            old.savedFileName ≠ rec.savedFileName ∧ old.fileHash ≠ rec.fileHash then
          (db.appendFile (postgresRow engine flag now db rec) accepted.2.2 rfl free,
            some (insertedRow now db rec))
        else (db.burnFileId accepted.2.2, none)
      else (db, none)

def postgresMarkOcrDone (now : Int) (db : Database) (id : Int) (ocrFileName : CString) :
    Database × Int :=
  if executed ∧ ValidUtf8 ocrFileName then
    (db.updateFiles (fun row => row.id = id)
      (fun row =>
        { row with
          isOcrProcessed := 1
          ocrFileName := ocrFileName
          updatedAt := engine.toChar now })
      (fun _ => ⟨rfl, rfl, rfl⟩), 0)
  else (db, -1)

/-- `INSERT … ON CONFLICT (file_id) DO UPDATE`, which takes an id in either case. -/
def postgresMarkParsingDone (now : Int) (db : Database) (fileId : Int) (parsedJson : CString) :
    Database × Int :=
  match engine.jsonb parsedJson with
  | none => (db, -1)
  | some stored =>
      if accepted : executed ∧ ValidUtf8 parsedJson ∧ db.receiptsSeq < maxRowid then
        let burnt := db.burnReceiptId accepted.2.2
        if absent : ∀ old ∈ db.receipts, old.fileId ≠ fileId then
          if parent : ∃ file ∈ db.files, file.id = fileId then
            let row : ParsedReceipt :=
              { id := db.receiptsSeq + 1
                fileId := fileId
                parsedJson := stored
                createdAt := engine.toChar now
                updatedAt := engine.toChar now }
            (db.appendReceipt row accepted.2.2 rfl absent parent, 0)
          else (burnt, -1)
        else
          (burnt.updateReceipts (fun row => row.fileId = fileId)
            (fun row => { row with parsedJson := stored, updatedAt := engine.toChar now })
            (fun _ => ⟨rfl, rfl⟩), 0)
      else (db, -1)

def postgresGetParsedReceipt (db : Database) (fileId : Int) : ReceiptResult :=
  if executed then
    match db.receipt? fileId with
    | some row => .found (readReceiptColumns row)
    | none => .absent
  else .failed

/-- 0 when a row was deleted, 1 when there was none, -1 on failure. -/
def postgresDeleteFile (db : Database) (id : Int) : Database × Int :=
  if executed then (db.removeFile id, if (db.file? id).isSome then 0 else 1) else (db, -1)

section Insert
variable (now : Int) {db : Database} {rec : FileRecord} {flag : Int}

theorem postgresInsert_of_free (hflag : boolParam rec.isOcrProcessed = some flag)
    (valid : rec.TextsValid) (free : db.FreeFor rec.savedFileName rec.fileHash) :
    ∃ db', postgresInsert engine true now db rec = (db', some (insertedRow now db rec)) ∧
      db'.files = db.files ++ [postgresRow engine flag now db rec] ∧
      db'.filesSeq = db.filesSeq + 1 ∧ db'.receipts = db.receipts ∧
      db'.receiptsSeq = db.receiptsSeq := by
  refine ⟨db.appendFile (postgresRow engine flag now db rec) free.1 rfl free.2, ?_, rfl, rfl, rfl,
    rfl⟩
  simp only [postgresInsert, hflag]
  rw [dif_pos ⟨trivial, valid, free.1⟩, dif_pos free.2]

/-- A refused row has cost an id. -/
theorem postgresInsert_of_taken (hflag : boolParam rec.isOcrProcessed = some flag)
    (valid : rec.TextsValid) (room : db.filesSeq < maxRowid)
    (taken : ¬ db.FreeFor rec.savedFileName rec.fileHash) :
    postgresInsert engine true now db rec = (db.burnFileId room, none) := by
  have refused : ¬ ∀ old ∈ db.files,
      old.savedFileName ≠ rec.savedFileName ∧ old.fileHash ≠ rec.fileHash :=
    fun free => taken ⟨room, free⟩
  simp only [postgresInsert, hflag]
  rw [dif_pos ⟨trivial, valid, room⟩, dif_neg refused]

end Insert

section MarkParsing
variable {engine} (now : Int) {db : Database} {fileId : Int} {parsedJson stored : CString}

/-- A text that is not JSON is refused before anything happens. -/
theorem postgresMarkParsingDone_of_rejected (h : engine.jsonb parsedJson = none) :
    postgresMarkParsingDone engine executed now db fileId parsedJson = (db, -1) := by
  simp only [postgresMarkParsingDone, h]

variable (hstored : engine.jsonb parsedJson = some stored) (valid : ValidUtf8 parsedJson)
include hstored valid

theorem postgresMarkParsingDone_of_free (free : db.FreeForReceipt fileId) :
    ∃ db' row, postgresMarkParsingDone engine true now db fileId parsedJson = (db', 0) ∧
      row.id = db.receiptsSeq + 1 ∧ row.fileId = fileId ∧ row.parsedJson = stored ∧
      db'.files = db.files ∧ db'.filesSeq = db.filesSeq ∧
      db'.receipts = db.receipts ++ [row] ∧ db'.receiptsSeq = db.receiptsSeq + 1 := by
  refine ⟨db.appendReceipt
    ⟨db.receiptsSeq + 1, fileId, stored, engine.toChar now, engine.toChar now⟩
    free.1 rfl free.2.1 free.2.2, _, ?_, rfl, rfl, rfl, rfl, rfl, rfl, rfl⟩
  simp only [postgresMarkParsingDone, hstored]
  rw [dif_pos ⟨trivial, valid, free.1⟩, dif_pos free.2.1, dif_pos free.2.2]

theorem postgresMarkParsingDone_of_existing (room : db.receiptsSeq < maxRowid)
    (h : (db.receipt? fileId).isSome) :
    ∃ db', postgresMarkParsingDone engine true now db fileId parsedJson = (db', 0) ∧
      db'.files = db.files ∧ db'.filesSeq = db.filesSeq ∧
      db'.receipts = updateWhere (fun row => row.fileId = fileId)
        (fun row => { row with parsedJson := stored, updatedAt := engine.toChar now })
        db.receipts ∧
      db'.receiptsSeq = db.receiptsSeq + 1 := by
  have present : ¬ ∀ old ∈ db.receipts, old.fileId ≠ fileId := by
    intro absent
    rw [Database.receipt?, lookup_eq_none.mpr absent] at h
    cases h
  refine ⟨(db.burnReceiptId room).updateReceipts (fun row => row.fileId = fileId)
    (fun row => { row with parsedJson := stored, updatedAt := engine.toChar now })
    (fun _ => ⟨rfl, rfl⟩), ?_, rfl, rfl, rfl, rfl⟩
  simp only [postgresMarkParsingDone, hstored]
  rw [dif_pos ⟨trivial, valid, room⟩, dif_neg present]

theorem postgresMarkParsingDone_of_orphan (room : db.receiptsSeq < maxRowid)
    (orphan : ¬ ∃ file ∈ db.files, file.id = fileId) :
    postgresMarkParsingDone engine true now db fileId parsedJson =
      (db.burnReceiptId room, -1) := by
  have absent : ∀ old ∈ db.receipts, old.fileId ≠ fileId := by
    rintro old hold rfl
    exact orphan (db.schema.foreignKey old hold)
  simp only [postgresMarkParsingDone, hstored]
  rw [dif_pos ⟨trivial, valid, room⟩, dif_pos absent, dif_neg orphan]

/-- Together, as for the other backend. -/
theorem postgresMarkParsingDone_of_live (room : db.receiptsSeq < maxRowid)
    (live : ∃ file ∈ db.files, file.id = fileId) :
    ∃ db', postgresMarkParsingDone engine true now db fileId parsedJson = (db', 0) ∧
      db.StoresReceipt db' fileId stored := by
  cases hreceipt : db.receipt? fileId with
  | none =>
      obtain ⟨db', row, hdone, hid, hfile, htext, hfiles, hfilesSeq, hreceipts, hseq⟩ :=
        postgresMarkParsingDone_of_free now hstored valid
          ⟨room, lookup_eq_none.mp hreceipt, live⟩
      exact ⟨db', hdone, .of_append hreceipt hid hfile htext hfiles hfilesSeq hreceipts hseq⟩
  | some receipt =>
      have present : (db.receipt? fileId).isSome := Option.isSome_of_eq_some hreceipt
      obtain ⟨db', hdone, hfiles, hfilesSeq, hreceipts, hseq⟩ :=
        postgresMarkParsingDone_of_existing now hstored valid room present
      refine ⟨db', hdone, .of_update present ?_ ?_ hfiles hfilesSeq hreceipts (by omega)⟩
      · exact fun _ => ⟨rfl, rfl⟩
      · exact fun _ => rfl

end MarkParsing

end Kaufbot
