import Kaufbot.Infra.FileRepository
import Kaufbot.Library.Slots

/-!
The in-memory file repository the tests run against: two arrays of a hundred
slots, searched from the front, with a counter for the ids of each. Removing a
record shifts those behind it; nothing ever removes a receipt. The counters are
exact: one would have to hand out 2^63 ids before it overflows.
-/

namespace Kaufbot

open CString

def maxMemoryRecords : Nat := 100
def maxMemoryReceipts : Nat := 100

structure MemoryFileRepository where
  records : Slots FileRecord maxMemoryRecords
  receipts : Slots ParsedReceipt maxMemoryReceipts
  nextId : Int
  nextReceiptId : Int

def FileRecord.zero : FileRecord where
  id := 0
  originalFileName := .empty
  fileSizeBytes := 0
  savedFileName := .empty
  fileHash := .empty
  isOcrProcessed := 0
  ocrFileName := .empty
  createdAt := .empty
  updatedAt := .empty

def ParsedReceipt.zero : ParsedReceipt where
  id := 0
  fileId := 0
  parsedJson := .empty
  createdAt := .empty
  updatedAt := .empty

def fileRepositoryMemoryNew : MemoryFileRepository where
  records := .zeroed .zero
  receipts := .zeroed .zero
  nextId := 1
  nextReceiptId := 1

def memRepoFind (repo : MemoryFileRepository) (p : FileRecord → Bool) :
    Except FileRepoError FileRecord :=
  match repo.records.findFirst p with
  | some rec => .ok rec
  | none => .error .notFound

def memRepoFindByHash (repo : MemoryFileRepository) (hash : CString) :
    Except FileRepoError FileRecord :=
  memRepoFind repo (fun rec => rec.fileHash = hash)

def memRepoFindById (repo : MemoryFileRepository) (id : Int) : Except FileRepoError FileRecord :=
  memRepoFind repo (fun rec => rec.id = id)

/-- The record `mem_repo_insert` writes into the cleared slot. -/
def memRepoRecord (id : Int) (originalName hash savedFilename : CString) : FileRecord :=
  { FileRecord.zero with
    id := id
    originalFileName := strncpy (dbOrigNameLen - 1) originalName
    fileHash := strncpy (dbHashLen - 1) hash
    savedFileName := strncpy (dbFilenameLen - 1) savedFilename }

def memRepoInsert (repo : MemoryFileRepository) (originalName hash savedFilename : CString) :
    MemoryFileRepository × Except FileRepoError Int :=
  if room : repo.records.count < maxMemoryRecords then
    if (repo.records.search (fun rec => rec.fileHash = hash)).isSome then
      (repo, .error .duplicate)
    else
      let record := memRepoRecord repo.nextId originalName hash savedFilename
      ({ repo with records := repo.records.push record room, nextId := repo.nextId + 1 },
        .ok repo.nextId)
  else (repo, .error .memory)

def FileRecord.setOcr (ocrFilename : CString) (rec : FileRecord) : FileRecord :=
  { rec with
    isOcrProcessed := 1
    ocrFileName := strncpy (dbOcrFilenameLen - 1) ocrFilename }

def memRepoMarkOcrComplete (repo : MemoryFileRepository) (id : Int) (ocrFilename : CString) :
    MemoryFileRepository × Except FileRepoError Unit :=
  match repo.records.modifyFirst (fun rec => rec.id = id) (FileRecord.setOcr ocrFilename) with
  | some records => ({ repo with records := records }, .ok ())
  | none => (repo, .error .notFound)

/-- The receipt is stored behind those there are, also when the file has one already. -/
def memRepoMarkParsingComplete (repo : MemoryFileRepository) (id : Int) (parsedJson : CString) :
    MemoryFileRepository × Except FileRepoError Unit :=
  if (repo.records.search (fun rec => rec.id = id)).isNone then (repo, .error .notFound)
  else if room : repo.receipts.count < maxMemoryReceipts then
    let receipt : ParsedReceipt :=
      { ParsedReceipt.zero with
        id := repo.nextReceiptId
        fileId := id
        parsedJson := strncpy (dbJsonLen - 1) parsedJson }
    ({ repo with
        receipts := repo.receipts.push receipt room
        nextReceiptId := repo.nextReceiptId + 1 }, .ok ())
  else (repo, .error .memory)

def memRepoDeleteById (repo : MemoryFileRepository) (id : Int) :
    MemoryFileRepository × Except FileRepoError Unit :=
  match repo.records.eraseFirst (fun rec => rec.id = id) with
  | some records => ({ repo with records := records }, .ok ())
  | none => (repo, .error .notFound)

/-- The records the callback is given, in order. -/
def memRepoList (repo : MemoryFileRepository) (limit : Int) : List FileRecord :=
  let max := if 0 < limit ∧ limit < repo.records.count then limit.toNat else repo.records.count
  repo.records.visitDown max repo.records.count (Nat.le_refl _) 0

def fileRepositoryMemoryClear (repo : MemoryFileRepository) : MemoryFileRepository where
  records := repo.records.clear
  receipts := repo.receipts.clear
  nextId := 1
  nextReceiptId := 1

end Kaufbot
