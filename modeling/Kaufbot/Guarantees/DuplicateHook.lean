import Kaufbot.Processor.Effects
import Kaufbot.Processor.Repositories
import Kaufbot.Guarantees.TestDouble

/-!
What comes of a duplicate strategy that says to go on. Both repositories refuse
a hash they hold, so the upload stops at its insert whatever the strategy
answers: no id, no request, and the file it wrote stays behind without a row.
-/

namespace Kaufbot

open CString

/-- The upload gets an id, the service is asked for its text, and the rows and files there were
are there unchanged. -/
structure LetThrough (w w' : RepoWorld) (originalName : CString) (data : List UInt8)
    (result : HandleResult) : Prop where
  stored : 0 < result.outId
  asked : ∃ later, w'.requests = w.requests ++ later ∧ .extractText data originalName ∈ later
  rows : ∀ row ∈ w.repo.rows, row ∈ w'.repo.rows
  files : ∀ row ∈ w.repo.rows, w'.storage row.savedFileName = w.storage row.savedFileName ∧
    w'.storage row.ocrFileName = w.storage row.ocrFileName

section Repository
variable (env : Externals) {repo : FileRepository} {hash : CString}

/-- Neither repository reports anything but a row or its absence. -/
theorem fileRepoFindByHash_cases (repo : FileRepository) (hash : CString) :
    (∃ existing, fileRepoFindByHash env repo hash = .ok existing) ∨
      fileRepoFindByHash env repo hash = .error .notFound := by
  cases repo with
  | database db => exact fileRepoLookup_cases _
  | memory repo =>
      simp only [fileRepoFindByHash, memRepoFindByHash, memRepoFind]
      cases repo.records.findFirst (fun rec => rec.fileHash = hash) with
      | some existing => exact Or.inl ⟨existing, rfl⟩
      | none => exact Or.inr rfl

theorem memRepoInsert_of_recorded {repo : MemoryFileRepository} {row : FileRecord}
    (hrow : row ∈ repo.records.toList) (hhash : row.fileHash = hash)
    (originalName savedFilename : CString) :
    ∃ error, memRepoInsert repo originalName hash savedFilename = (repo, .error error) := by
  have found : (repo.records.search (fun rec => rec.fileHash = hash)).isSome := by
    rw [Slots.search_isSome, List.any_eq_true]
    exact ⟨row, hrow, by simpa using hhash⟩
  by_cases room : repo.records.count < maxMemoryRecords
  · exact ⟨.duplicate, by rw [memRepoInsert, dif_pos room, if_pos found]⟩
  · exact ⟨.memory, by rw [memRepoInsert, dif_neg room]⟩

/-- A hash is taken once: an insert that brings it again changes nothing. -/
theorem fileRepoInsert_of_recorded (fits : snprintf dbHashLen hash = hash)
    (recorded : repo.Records hash) (originalName savedFilename : CString) :
    ∃ error, fileRepoInsert env repo originalName hash savedFilename = (repo, .error error) := by
  obtain ⟨row, hrow, hhash⟩ := recorded
  cases repo with
  | database db =>
      have refused : ¬ (env.insert = .ok ∧
          db.FreeFor (snprintf dbFilenameLen savedFilename) (snprintf dbHashLen hash)) := by
        rintro ⟨_, _, free⟩
        rw [fits] at free
        exact (free row hrow).2 hhash
      exact ⟨.db, by simp only [fileRepoInsert, dbRepoInsert_of_refused refused]⟩
  | memory repo =>
      obtain ⟨error, refused⟩ := memRepoInsert_of_recorded hrow hhash originalName savedFilename
      exact ⟨error, by simp only [fileRepoInsert, refused]⟩

end Repository

section Upload
variable (p : Processor) (env : Externals) {w : RepoWorld} (originalName : CString)
  {data : List UInt8} (replyLen : ℕ+)

/-- Storing a file whose hash is held writes the file and stops. -/
theorem storeFile_of_recorded (recorded : w.repo.Records (storageSha256Hex data)) :
    ∃ reply, w.processorStoreFile p env originalName data (storageSha256Hex data) replyLen =
        ({ w with storage :=
            (localSaveFile env.saveFile w.storage (p.savedName env originalName) data).1 },
          { outId := 0, reply := reply, exit := .saveFailed }) := by
  obtain ⟨error, refused⟩ := fileRepoInsert_of_recorded env (snprintf_storageSha256Hex data)
    recorded originalName (p.savedName env originalName)
  by_cases saved :
      (localSaveFile env.saveFile w.storage (p.savedName env originalName) data).2 = 0
  · refine ⟨snprintf replyLen (lit "Database error while saving file record."), ?_⟩
    simp only [RepoWorld.processorStoreFile, RepoWorld.processorSaveFile, saved, refused, ne_eq,
      not_true_eq_false, if_false]
  · refine ⟨snprintf replyLen (lit "Failed to save file to storage."), ?_⟩
    simp only [RepoWorld.processorStoreFile, RepoWorld.processorSaveFile, saved, ne_eq,
      not_false_eq_true, if_true]

theorem outId_of_recorded (recorded : w.repo.Records (storageSha256Hex data)) :
    (w.processorHandleFile p env originalName data replyLen).2.outId = 0 := by
  obtain ⟨reply, stopped⟩ := storeFile_of_recorded p env originalName replyLen recorded
  rcases fileRepoFindByHash_cases env w.repo (storageSha256Hex data) with
    ⟨existing, found⟩ | absent
  · simp only [RepoWorld.processorHandleFile, found]
    split
    · rfl
    · rw [stopped]
  · simp only [RepoWorld.processorHandleFile, absent, stopped]

end Upload

/-- A double that follows the database knows the same files. -/
theorem Doubles.records_iff {repo : MemoryFileRepository} {db : Database} (h : Doubles (repo, db))
    (hash : CString) :
    (FileRepository.memory repo).Records hash ↔ (FileRepository.database db).Records hash := by
  have held : repo.records.toList = db.files.map FileRecord.untimed := h.records.records
  simp only [FileRepository.Records, FileRepository.rows, held, List.mem_map, exists_exists_and_eq_and]
  rfl

section Sample

/-- A strategy that lets every file through. -/
def proceedingProcessor : Processor :=
  processorNew .utc (fun s => if s = lit "\x7b\x7d" then some (.object []) else none)
    localGetPublicUrl (some (fun _ bufLen => (1, snprintf bufLen (lit "Stored once more."))))

def sampleUpload : List UInt8 := [0xFF, 0xD8, 0xFF]

/-- Both repositories after one insert under the hash, at the beginning of the epoch. -/
def databaseHolding (hash : CString) : Database :=
  (dbRepoInsert .ok 0 .empty (lit "a.jpg") hash (lit "19700101_000000.jpg")).1

def doubleHolding (hash : CString) : MemoryFileRepository :=
  (memRepoInsert fileRepositoryMemoryNew (lit "a.jpg") hash (lit "19700101_000000.jpg")).1

theorem files_databaseHolding (hash : CString) : (databaseHolding hash).files =
    [insertedRow 0 .empty (dbRepoRecord (lit "a.jpg") hash (lit "19700101_000000.jpg"))] := by
  have free : Database.empty.FreeFor (snprintf dbFilenameLen (lit "19700101_000000.jpg"))
      (snprintf dbHashLen hash) :=
    ⟨by decide, fun _ h => absurd h List.not_mem_nil⟩
  obtain ⟨db, inserted, hfiles, _⟩ := dbRepoInsert_of_free 0 (lit "a.jpg") hash
    (lit "19700101_000000.jpg") (rfl : SqlOutcome.ok = .ok) free
  rw [databaseHolding, inserted, hfiles]
  rfl

theorem databaseHolding_records {hash : CString} (fits : hash.length < dbHashLen) :
    (FileRepository.database (databaseHolding hash)).Records hash :=
  ⟨_, by rw [FileRepository.rows, files_databaseHolding]; exact List.mem_singleton_self _,
    snprintf_of_length_lt fits⟩

theorem doubleHolding_records {hash : CString} (fits : hash.length < dbHashLen) :
    (FileRepository.memory (doubleHolding hash)).Records hash := by
  have insertFits : InsertFits (lit "a.jpg") hash (lit "19700101_000000.jpg") :=
    ⟨by decide, fits, by decide⟩
  have same := (doubles_new.insert 0 insertFits (by decide)
    ⟨by decide, fun _ h => absurd h List.not_mem_nil⟩).2
  exact (same.records_iff hash).mpr (databaseHolding_records fits)

/-- The upload the repository knows is in the storage directory. -/
def uploadedOnce (repo : FileRepository) : RepoWorld where
  repo := repo
  storage := Storage.empty.put (lit "19700101_000000.jpg") sampleUpload
  requests := []

def uploadedAgain (w : RepoWorld) (replyLen : ℕ+) : RepoWorld × HandleResult :=
  w.processorHandleFile proceedingProcessor (.working 60 (lit "Milk") (lit "\x7b\x7d")) (lit "a.jpg")
    sampleUpload replyLen

theorem length_sampleHash : (storageSha256Hex sampleUpload).length < dbHashLen := by
  rw [length_storageSha256Hex]
  decide

end Sample

/-- No answer of the strategy gets a known file processed. -/
theorem known_file_never_processed (p : Processor) (env : Externals) {w : RepoWorld}
    (originalName : CString) {data : List UInt8} (replyLen : ℕ+)
    (recorded : w.repo.Records (storageSha256Hex data)) :
    ¬ LetThrough w (w.processorHandleFile p env originalName data replyLen).1 originalName data
      (w.processorHandleFile p env originalName data replyLen).2 := by
  intro through
  have positive := through.stored
  rw [outId_of_recorded p env originalName replyLen recorded] at positive
  exact absurd positive (Int.lt_irrefl 0)

/-- In the double. -/
theorem known_file_never_processed_double :
    ¬ LetThrough (uploadedOnce (.memory (doubleHolding (storageSha256Hex sampleUpload))))
      (uploadedAgain
        (uploadedOnce (.memory (doubleHolding (storageSha256Hex sampleUpload)))) 4096).1
      (lit "a.jpg") sampleUpload
      (uploadedAgain
        (uploadedOnce (.memory (doubleHolding (storageSha256Hex sampleUpload)))) 4096).2 :=
  known_file_never_processed proceedingProcessor _ (lit "a.jpg") 4096
    (w := uploadedOnce (.memory (doubleHolding (storageSha256Hex sampleUpload))))
    (doubleHolding_records length_sampleHash)

/-- In the database: the strategy lets every file through, every call works, and the clock has
moved on since the first upload. -/
theorem proceeding_strategy_overruled :
    (∀ existing bufLen, (proceedingProcessor.dupStrategy existing bufLen).1 ≠ 0) ∧
      (FileRepository.database (databaseHolding (storageSha256Hex sampleUpload))).Records
        (storageSha256Hex sampleUpload) ∧
      (databaseHolding (storageSha256Hex sampleUpload)).files.map FileRecord.createdAt =
        [nowIso8601 0] ∧
      (nowIso8601 0).bytes < (nowIso8601 60).bytes ∧
      ¬ LetThrough (uploadedOnce (.database (databaseHolding (storageSha256Hex sampleUpload))))
        (uploadedAgain
          (uploadedOnce (.database (databaseHolding (storageSha256Hex sampleUpload)))) 4096).1
        (lit "a.jpg") sampleUpload
        (uploadedAgain
          (uploadedOnce (.database (databaseHolding (storageSha256Hex sampleUpload)))) 4096).2 := by
  refine ⟨fun _ _ => Int.one_ne_zero, databaseHolding_records length_sampleHash, ?_, by decide,
    fun through => ?_⟩
  · rw [files_databaseHolding]
    rfl
  · have positive := through.stored
    rw [uploadedAgain, outId_of_recorded proceedingProcessor _ _ _
      (databaseHolding_records length_sampleHash)] at positive
    exact absurd positive (Int.lt_irrefl 0)

end Kaufbot
