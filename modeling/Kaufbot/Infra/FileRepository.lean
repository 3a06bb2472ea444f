import Kaufbot.Db.Sqlite

/-!
The database-backed file repository: the layer the pipelines talk to. It maps
the backend's return codes to its own and rebuilds the record it inserts.
-/

namespace Kaufbot

open CString

inductive FileRepoError where
  | memory
  | notFound
  | duplicate
  | invalidArg
  | db
  | storage
deriving DecidableEq

/-- Any result of the backend but 0 is reported as "not found". -/
def fileRepoLookup : SelectResult → Except FileRepoError FileRecord
  | .found record => .ok record
  | _ => .error .notFound

def dbRepoFindByHash (outcome : SqlOutcome) (db : Database) (hash : CString) :
    Except FileRepoError FileRecord :=
  fileRepoLookup (sqliteFindByHash outcome db hash)

def dbRepoFindById (outcome : SqlOutcome) (db : Database) (id : Int) :
    Except FileRepoError FileRecord :=
  fileRepoLookup (sqliteFindById outcome db id)

/-- The record `db_repo_insert` hands to the backend: zeroed, then three fields copied in. -/
def dbRepoRecord (originalName hash savedFilename : CString) : FileRecord where
  id := 0
  originalFileName := snprintf dbOrigNameLen originalName
  fileSizeBytes := 0
  savedFileName := snprintf dbFilenameLen savedFilename
  fileHash := snprintf dbHashLen hash
  isOcrProcessed := 0
  ocrFileName := .empty
  createdAt := .empty
  updatedAt := .empty

def dbRepoInsert (outcome : SqlOutcome) (now : Int) (db : Database)
    (originalName hash savedFilename : CString) : Database × Except FileRepoError Int :=
  match sqliteInsert outcome now db (dbRepoRecord originalName hash savedFilename) with
  | (db, some rec) => (db, .ok rec.id)
  | (db, none) => (db, .error .db)

def fileRepoStatus (rc : Int) : Except FileRepoError Unit := if rc = 0 then .ok () else .error .db

def dbRepoMarkOcrComplete (outcome : SqlOutcome) (now : Int) (db : Database) (id : Int)
    (ocrFilename : CString) : Database × Except FileRepoError Unit :=
  let (db, rc) := sqliteMarkOcrDone outcome now db id ocrFilename
  (db, fileRepoStatus rc)

def dbRepoMarkParsingComplete (check write : SqlOutcome) (now : Int) (db : Database) (id : Int)
    (parsedJson : CString) : Database × Except FileRepoError Unit :=
  let (db, rc) := sqliteMarkParsingDone check write now db id parsedJson
  (db, fileRepoStatus rc)

def dbRepoDeleteById (outcome : SqlOutcome) (db : Database) (id : Int) :
    Database × Except FileRepoError Unit :=
  let (db, rc) := sqliteDeleteFile outcome db id
  (db, fileRepoStatus rc)

theorem fileRepoLookup_eq_ok {result : SelectResult} {rec : FileRecord} :
    fileRepoLookup result = .ok rec ↔ result = .found rec := by
  cases result <;> simp [fileRepoLookup]

/-- A lookup that finds nothing and one that fails are told apart by no caller. -/
theorem fileRepoLookup_cases (result : SelectResult) :
    (∃ rec, fileRepoLookup result = .ok rec) ∨ fileRepoLookup result = .error .notFound := by
  cases result with
  | found rec => exact Or.inl ⟨rec, rfl⟩
  | absent | failed => exact Or.inr rfl

theorem dbRepoFindByHash_eq_ok {outcome : SqlOutcome} {db : Database} {hash : CString}
    {rec : FileRecord} :
    dbRepoFindByHash outcome db hash = .ok rec ↔
      outcome = .ok ∧ ∃ row, Keyed.lookup FileRecord.fileHash hash db.files = some row ∧
        readColumns row = rec := by
  rw [dbRepoFindByHash, fileRepoLookup_eq_ok, sqliteFindByHash, sqliteSelectFile_found]

theorem dbRepoFindById_eq_ok {outcome : SqlOutcome} {db : Database} {id : Int}
    {rec : FileRecord} :
    dbRepoFindById outcome db id = .ok rec ↔
      outcome = .ok ∧ ∃ row, db.file? id = some row ∧ readColumns row = rec := by
  rw [dbRepoFindById, fileRepoLookup_eq_ok, sqliteFindById_found]

theorem dbRepoInsert_of_free {outcome : SqlOutcome} (now : Int) {db : Database}
    (originalName hash savedFilename : CString) (hok : outcome = .ok)
    (hfree : db.FreeFor (snprintf dbFilenameLen savedFilename) (snprintf dbHashLen hash)) :
    ∃ db', dbRepoInsert outcome now db originalName hash savedFilename =
        (db', .ok (db.filesSeq + 1)) ∧
      db'.files =
        db.files ++ [insertedRow now db (dbRepoRecord originalName hash savedFilename)] ∧
      db'.filesSeq = db.filesSeq + 1 ∧ db'.receipts = db.receipts ∧
      db'.receiptsSeq = db.receiptsSeq := by
  obtain ⟨db', hins, after⟩ := sqliteInsert_of_free now
    (dbRepoRecord originalName hash savedFilename) hok hfree
  refine ⟨db', ?_, after⟩
  simp only [dbRepoInsert, hins]
  rfl

theorem dbRepoInsert_of_refused {outcome : SqlOutcome} {now : Int} {db : Database}
    {originalName hash savedFilename : CString}
    (h : ¬ (outcome = .ok ∧
      db.FreeFor (snprintf dbFilenameLen savedFilename) (snprintf dbHashLen hash))) :
    dbRepoInsert outcome now db originalName hash savedFilename = (db, .error .db) := by
  have hins := sqliteInsert_of_refused now (dbRepoRecord originalName hash savedFilename) h
  simp only [dbRepoInsert, hins]

end Kaufbot
