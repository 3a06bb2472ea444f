import Kaufbot.Guarantees.MemoryMap

/-!
The in-memory repository as a stand-in for the database. Both run the same
calls side by side; they agree while their answers are the same apart from
timestamps and they hold the same receipts. The exact condition on a call says
where the double parts from the real one: a refused insert, an id that is not
there, a second receipt for a file, the removal of a file with a receipt.
-/

namespace Kaufbot

open CString Keyed Machine Runs

inductive FileRepoOp where
  | insert (originalName hash savedFilename : CString)
  | findByHash (hash : CString)
  | findById (id : Int)
  | markOcrComplete (id : Int) (ocrFilename : CString)
  | markParsingComplete (id : Int) (parsedJson : CString)
  | deleteById (id : Int)

inductive FileRepoAnswer where
  | found (result : Except FileRepoError FileRecord)
  | inserted (result : Except FileRepoError Int)
  | done (result : Except FileRepoError Unit)

/-- No argument is cut when it is stored. -/
def FileRepoOp.Fits : FileRepoOp → Prop
  | .insert originalName hash savedFilename => InsertFits originalName hash savedFilename
  | .markOcrComplete _ ocrFilename => ocrFilename.length < dbOcrFilenameLen
  | .markParsingComplete _ parsedJson => parsedJson.length < dbJsonLen
  | .findByHash _ | .findById _ | .deleteById _ => True

/-- A call of the in-memory repository, which has no clock. -/
def memRepoStep (repo : MemoryFileRepository) (call : FileRepoOp × Int) :
    MemoryFileRepository × FileRepoAnswer :=
  match call.1 with
  | .insert originalName hash savedFilename =>
      let (repo, result) := memRepoInsert repo originalName hash savedFilename
      (repo, .inserted result)
  | .findByHash hash => (repo, .found (memRepoFindByHash repo hash))
  | .findById id => (repo, .found (memRepoFindById repo id))
  | .markOcrComplete id ocrFilename =>
      let (repo, result) := memRepoMarkOcrComplete repo id ocrFilename
      (repo, .done result)
  | .markParsingComplete id parsedJson =>
      let (repo, result) := memRepoMarkParsingComplete repo id parsedJson
      (repo, .done result)
  | .deleteById id =>
      let (repo, result) := memRepoDeleteById repo id
      (repo, .done result)

/-- A call of the database-backed repository at a clock reading; SQLite itself does not fail. -/
def dbRepoStep (db : Database) (call : FileRepoOp × Int) : Database × FileRepoAnswer :=
  match call.1 with
  | .insert originalName hash savedFilename =>
      let (db, result) := dbRepoInsert .ok call.2 db originalName hash savedFilename
      (db, .inserted result)
  | .findByHash hash => (db, .found (dbRepoFindByHash .ok db hash))
  | .findById id => (db, .found (dbRepoFindById .ok db id))
  | .markOcrComplete id ocrFilename =>
      let (db, result) := dbRepoMarkOcrComplete .ok call.2 db id ocrFilename
      (db, .done result)
  | .markParsingComplete id parsedJson =>
      let (db, result) := dbRepoMarkParsingComplete .ok .ok call.2 db id parsedJson
      (db, .done result)
  | .deleteById id =>
      let (db, result) := dbRepoDeleteById .ok db id
      (db, .done result)

def FileRepoAnswer.untimed : FileRepoAnswer → FileRepoAnswer
  | .found (.ok rec) => .found (.ok rec.untimed)
  | answer => answer

/-- What a receipt says, apart from its own id and timestamps. -/
def ParsedReceipt.entry (receipt : ParsedReceipt) : Int × CString :=
  (receipt.fileId, receipt.parsedJson)

/-- The answers are the same apart from timestamps, and the same receipts are held. -/
def SameAnswers (state : MemoryFileRepository × Database)
    (answers : FileRepoAnswer × FileRepoAnswer) : Prop :=
  answers.1.untimed = answers.2.untimed ∧
    (state.1.receipts.toList.map ParsedReceipt.entry).Perm
      (state.2.receipts.map ParsedReceipt.entry)

/-- Where the double follows: an insert the database accepts and there is room for, an existing
id, and for a file that is parsed or removed no receipt so far. -/
def DoubleFollows (state : MemoryFileRepository × Database) (call : FileRepoOp × Int) : Prop :=
  match call.1 with
  | .insert _ hash savedFilename =>
      state.2.files.length < maxMemoryRecords ∧ state.2.FreeFor savedFilename hash
  | .findByHash _ | .findById _ => True
  | .markOcrComplete id _ => ∃ row ∈ state.2.files, row.id = id
  | .markParsingComplete id _ => state.2.FreeForReceipt id
  | .deleteById id =>
      (∃ row ∈ state.2.files, row.id = id) ∧ ∀ receipt ∈ state.2.receipts, receipt.fileId ≠ id

/-- The records of a database as the ordered map the double implements. -/
def Database.recordMap (db : Database) : RecordMap where
  records := db.files.map FileRecord.untimed
  nextId := db.filesSeq + 1

/-- The double holds what the database holds. -/
structure Doubles (state : MemoryFileRepository × Database) : Prop where
  records : HoldsMap state.1 state.2.recordMap
  columns : ∀ row ∈ state.2.files, readColumns row = row
  receipts : state.1.receipts.toList.map ParsedReceipt.entry =
    state.2.receipts.map ParsedReceipt.entry

section Steps
variable {repo : MemoryFileRepository} {db : Database}

theorem doubles_new : Doubles (fileRepositoryMemoryNew, .empty) where
  records := holdsMap_new
  columns := fun _ h => absurd h List.not_mem_nil
  receipts := by simp [fileRepositoryMemoryNew, Database.empty]

theorem any_untimed (p : FileRecord → Bool) (kept : ∀ rec, p rec.untimed = p rec) :
    db.recordMap.records.any p = db.files.any p := by
  simp [Database.recordMap, List.any_map, Function.comp_def, kept]

theorem SameAnswers.of_doubles {state : MemoryFileRepository × Database}
    {answers : FileRepoAnswer × FileRepoAnswer} (h : Doubles state)
    (same : answers.1.untimed = answers.2.untimed) : SameAnswers state answers :=
  ⟨same, by rw [h.receipts]⟩

section Insert
variable {originalName hash savedFilename : CString} (now : Int)

theorem InsertFits.snprintf_eq (fits : InsertFits originalName hash savedFilename) :
    snprintf dbOrigNameLen originalName = originalName ∧ snprintf dbHashLen hash = hash ∧
      snprintf dbFilenameLen savedFilename = savedFilename :=
  ⟨snprintf_of_length_lt fits.1, snprintf_of_length_lt fits.2.1, snprintf_of_length_lt fits.2.2⟩

/-- An insert the database accepts is the insert of the map. -/
theorem Doubles.insert (h : Doubles (repo, db))
    (fits : InsertFits originalName hash savedFilename)
    (room : db.files.length < maxMemoryRecords) (free : db.FreeFor savedFilename hash) :
    (memRepoInsert repo originalName hash savedFilename).2 =
        (dbRepoInsert .ok now db originalName hash savedFilename).2 ∧
      Doubles ((memRepoInsert repo originalName hash savedFilename).1,
        (dbRepoInsert .ok now db originalName hash savedFilename).1) := by
  obtain ⟨horiginal, hhash, hsaved⟩ := fits.snprintf_eq
  obtain ⟨db', hins, hfiles, hfilesSeq, hreceipts, _⟩ := dbRepoInsert_of_free now originalName hash
    savedFilename (rfl : SqlOutcome.ok = .ok) (by rwa [hhash, hsaved])
  obtain ⟨same, holds⟩ := h.records.insert fits
  have habsent : db.recordMap.records.any (fun rec => rec.fileHash = hash) = false := by
    rw [any_untimed _ (fun _ => rfl), List.any_eq_false]
    exact fun row hrow => by simpa using (free.2 row hrow).2
  have hmap : db.recordMap.insert originalName hash savedFilename =
      (db'.recordMap, .ok (db.filesSeq + 1)) := by
    have hroom : ¬ maxMemoryRecords ≤ db.recordMap.records.length := by
      simpa [Database.recordMap] using room
    rw [RecordMap.insert, if_neg hroom, habsent, if_neg Bool.false_ne_true]
    simp [Database.recordMap, hfiles, hfilesSeq, insertedRow, dbRepoRecord,
      FileRecord.untimed, FileRecord.zero, horiginal, hhash, hsaved]
  rw [hmap] at same holds
  rw [hins]
  refine ⟨same, holds, fun row hrow => ?_, ?_⟩
  · rcases List.mem_append.mp (hfiles ▸ hrow) with hold | hnew
    · exact h.columns row hold
    · obtain rfl := List.mem_singleton.mp hnew
      simp [readColumns, insertedRow, dbRepoRecord, nowIso8601, CString.ext_iff]
  · rw [hreceipts, ← h.receipts]
    simp only [memRepoInsert]
    split
    · split <;> rfl
    · rfl

/-- A refused insert is "database error" on one side and something else on the other. -/
theorem Doubles.insert_refused (h : Doubles (repo, db))
    (fits : InsertFits originalName hash savedFilename)
    (hrefused : ¬ (db.files.length < maxMemoryRecords ∧ db.FreeFor savedFilename hash)) :
    (memRepoInsert repo originalName hash savedFilename).2 ≠
      (dbRepoInsert .ok now db originalName hash savedFilename).2 := by
  obtain ⟨_, hhash, hsaved⟩ := fits.snprintf_eq
  rw [(h.records.insert fits).1]
  by_cases free : db.FreeFor savedFilename hash
  · have full : maxMemoryRecords ≤ db.recordMap.records.length := by
      simpa [Database.recordMap] using fun room => hrefused ⟨room, free⟩
    obtain ⟨db', hins, _⟩ := dbRepoInsert_of_free now originalName hash savedFilename
      (rfl : SqlOutcome.ok = .ok) (by rwa [hhash, hsaved])
    rw [RecordMap.insert, if_pos full, hins]
    simp
  · rw [dbRepoInsert_of_refused (by simpa [hhash, hsaved] using free)]
    simp only [RecordMap.insert]
    split
    · simp
    · split <;> simp

end Insert

section Marks
variable {id : Int} (now : Int)

theorem any_id_iff : db.recordMap.records.any (fun rec => rec.id = id) = true ↔
    ∃ row ∈ db.files, row.id = id := by
  rw [any_untimed _ (fun _ => rfl), List.any_eq_true]
  simp

theorem Doubles.markOcr (h : Doubles (repo, db)) {ocrFilename : CString}
    (fits : ocrFilename.length < dbOcrFilenameLen) (live : ∃ row ∈ db.files, row.id = id) :
    (memRepoMarkOcrComplete repo id ocrFilename).2 =
        (dbRepoMarkOcrComplete .ok now db id ocrFilename).2 ∧
      Doubles ((memRepoMarkOcrComplete repo id ocrFilename).1,
        (dbRepoMarkOcrComplete .ok now db id ocrFilename).1) := by
  obtain ⟨same, holds⟩ := h.records.markOcr id fits
  have hmap : db.recordMap.update id (RecordMap.markOcr ocrFilename) =
      ((dbRepoMarkOcrComplete .ok now db id ocrFilename).1.recordMap, .ok ()) := by
    rw [RecordMap.update, if_pos (any_id_iff.mpr live)]
    simp only [Database.recordMap, dbRepoMarkOcrComplete, sqliteMarkOcrDone, if_true,
      Database.updateFiles, updateWhere, List.map_map, Prod.mk.injEq, RecordMap.mk.injEq,
      and_true]
    apply List.map_congr_left
    intro row _
    by_cases hid : row.id = id <;>
      simp [hid, FileRecord.untimed, RecordMap.markOcr, FileRecord.markOcrDone]
  rw [hmap] at same holds
  refine ⟨same, holds, fun row hrow => ?_, ?_⟩
  · obtain ⟨old, hold, rfl⟩ := mem_updateWhere.mp hrow
    split
    · exact readColumns_markOcrDone (h.columns old hold) (snprintf_of_length_lt fits) now
    · exact h.columns old hold
  · have unchanged : (memRepoMarkOcrComplete repo id ocrFilename).1.receipts = repo.receipts := by
      simp only [memRepoMarkOcrComplete]
      split <;> rfl
    rw [unchanged, h.receipts]
    rfl

theorem Doubles.markOcr_refused (h : Doubles (repo, db)) {ocrFilename : CString}
    (fits : ocrFilename.length < dbOcrFilenameLen) (dead : ¬ ∃ row ∈ db.files, row.id = id) :
    (memRepoMarkOcrComplete repo id ocrFilename).2 ≠
      (dbRepoMarkOcrComplete .ok now db id ocrFilename).2 := by
  rw [(h.records.markOcr id fits).1, RecordMap.update, if_neg (any_id_iff.not.mpr dead)]
  simp [dbRepoMarkOcrComplete, sqliteMarkOcrDone, fileRepoStatus]

/-- No more receipts than files, and one fewer while a file has none. -/
theorem length_receipts_lt (live : ∃ row ∈ db.files, row.id = id)
    (hnone : ∀ receipt ∈ db.receipts, receipt.fileId ≠ id) :
    db.receipts.length < db.files.length := by
  obtain ⟨row, hrow, rfl⟩ := live
  have inside : ∀ receipt ∈ db.receipts, receipt.fileId ∈ db.files.map FileRecord.id := by
    intro receipt hreceipt
    obtain ⟨file, hfile, heq⟩ := db.schema.foreignKey receipt hreceipt
    exact List.mem_map.mpr ⟨file, hfile, heq⟩
  have fewer := db.schema.receiptFiles.length_lt inside (List.mem_map_of_mem hrow) hnone
  rwa [List.length_map] at fewer

/-- The slots behind the receipts of the double. -/
theorem Doubles.count_receipts (h : Doubles (repo, db)) :
    repo.receipts.count = db.receipts.length := by
  have := congrArg List.length h.receipts
  simpa using this

theorem Doubles.length_files_le (h : Doubles (repo, db)) : db.files.length ≤ maxMemoryRecords := by
  simpa [Database.recordMap] using h.records.ordered.bounded

theorem Doubles.search_id (h : Doubles (repo, db)) :
    (repo.records.search (fun rec => rec.id = id)).isSome ↔ ∃ row ∈ db.files, row.id = id := by
  rw [Slots.search_isSome, h.records.records, any_id_iff]

theorem Doubles.markParsing (h : Doubles (repo, db)) {parsedJson : CString}
    (fits : parsedJson.length < dbJsonLen) (free : db.FreeForReceipt id) :
    (memRepoMarkParsingComplete repo id parsedJson).2 =
        (dbRepoMarkParsingComplete .ok .ok now db id parsedJson).2 ∧
      Doubles ((memRepoMarkParsingComplete repo id parsedJson).1,
        (dbRepoMarkParsingComplete .ok .ok now db id parsedJson).1) := by
  obtain ⟨hseq, hnone, live⟩ := free
  have room : repo.receipts.count < maxMemoryReceipts := by
    have := length_receipts_lt live hnone
    have := h.length_files_le
    rw [h.count_receipts]
    simp only [maxMemoryReceipts, maxMemoryRecords] at *
    omega
  have found : (repo.records.search (fun rec => rec.id = id)).isNone = false := by
    rw [← Option.not_isSome, h.search_id.mpr live]
    rfl
  obtain ⟨db', hdone, hfiles, hfilesSeq, hreceipts, _⟩ :=
    sqliteMarkParsingDone_of_free now parsedJson ⟨hseq, hnone, live⟩
  have hmap : db'.recordMap = db.recordMap := by simp only [Database.recordMap, hfiles, hfilesSeq]
  simp only [memRepoMarkParsingComplete, found, Bool.false_eq_true, if_false, dif_pos room,
    dbRepoMarkParsingComplete, hdone, fileRepoStatus, if_true, true_and]
  refine ⟨?_, by simpa only [hfiles] using h.columns, ?_⟩
  · rw [hmap]
    exact ⟨h.records.records, h.records.nextId, h.records.ordered⟩
  · rw [Slots.toList_push, hreceipts, List.map_append, List.map_append, h.receipts]
    simp [ParsedReceipt.entry, insertedReceipt, strncpy_of_length_lt fits]

theorem memRepoMarkParsingComplete_cases (repo : MemoryFileRepository) (id : Int)
    (parsedJson : CString) :
    ((memRepoMarkParsingComplete repo id parsedJson).2 = .ok () ∧
      (memRepoMarkParsingComplete repo id parsedJson).1.receipts.count =
        repo.receipts.count + 1) ∨
    ∃ e, e ≠ .db ∧ (memRepoMarkParsingComplete repo id parsedJson).2 = .error e := by
  simp only [memRepoMarkParsingComplete]
  split
  · exact Or.inr ⟨.notFound, by decide, rfl⟩
  · split
    · exact Or.inl ⟨rfl, rfl⟩
    · exact Or.inr ⟨.memory, by decide, rfl⟩

/-- The double stores a second receipt behind the first, the database replaces it. -/
theorem Doubles.markParsing_refused (h : Doubles (repo, db)) (parsedJson : CString)
    (hrefused : ¬ db.FreeForReceipt id) :
    ¬ SameAnswers ((memRepoMarkParsingComplete repo id parsedJson).1,
        (dbRepoMarkParsingComplete .ok .ok now db id parsedJson).1)
      (.done (memRepoMarkParsingComplete repo id parsedJson).2,
        .done (dbRepoMarkParsingComplete .ok .ok now db id parsedJson).2) := by
  rintro ⟨same, hperm⟩
  have hlen := hperm.length_eq
  simp only [List.length_map, Slots.length_toList] at hlen
  simp only [FileRepoAnswer.untimed, FileRepoAnswer.done.injEq] at same
  have hcount := h.count_receipts
  cases hreceipt : db.receipt? id with
  | some receipt =>
      obtain ⟨db', hdone, _, _, hreceipts, _⟩ :=
        sqliteMarkParsingDone_of_existing now parsedJson (Option.isSome_of_eq_some hreceipt)
      have hdb : dbRepoMarkParsingComplete .ok .ok now db id parsedJson = (db', .ok ()) := by
        simp only [dbRepoMarkParsingComplete, hdone, fileRepoStatus, if_true]
      simp only [hdb, hreceipts, updateWhere, List.length_map] at same hlen
      rcases memRepoMarkParsingComplete_cases repo id parsedJson with ⟨_, hmore⟩ | ⟨e, _, herror⟩
      · omega
      · rw [herror] at same
        cases same
  | none =>
      have hdb : dbRepoMarkParsingComplete .ok .ok now db id parsedJson = (db, .error .db) := by
        simp [dbRepoMarkParsingComplete, sqliteMarkParsingDone_eq_refused now parsedJson hrefused
          hreceipt, fileRepoStatus]
      simp only [hdb] at same
      rcases memRepoMarkParsingComplete_cases repo id parsedJson with ⟨hok, _⟩ | ⟨e, hne, herror⟩
      · rw [hok] at same
        cases same
      · rw [herror] at same
        exact hne (Except.error.inj same)

end Marks

section Delete
variable {id : Int}

theorem dbRepoDeleteById_of_live (live : ∃ row ∈ db.files, row.id = id) :
    dbRepoDeleteById .ok db id = (db.removeFile id, .ok ()) := by
  obtain ⟨row, hrow, hid⟩ := live
  have hfound : (db.file? id).isSome :=
    Option.isSome_of_eq_some (Database.file?_eq_some.mpr ⟨hrow, hid⟩)
  simp [dbRepoDeleteById, sqliteDeleteFile, hfound, fileRepoStatus]

theorem memRepoDeleteById_receipts (repo : MemoryFileRepository) (id : Int) :
    (memRepoDeleteById repo id).1.receipts = repo.receipts := by
  simp only [memRepoDeleteById]
  split <;> rfl

theorem Doubles.delete (h : Doubles (repo, db)) (live : ∃ row ∈ db.files, row.id = id)
    (hnone : ∀ receipt ∈ db.receipts, receipt.fileId ≠ id) :
    (memRepoDeleteById repo id).2 = (dbRepoDeleteById .ok db id).2 ∧
      Doubles ((memRepoDeleteById repo id).1, (dbRepoDeleteById .ok db id).1) := by
  obtain ⟨same, holds⟩ := h.records.delete id
  have hmap : db.recordMap.delete id = ((db.removeFile id).recordMap, .ok ()) := by
    rw [RecordMap.delete, if_pos (any_id_iff.mpr live)]
    simp [Database.recordMap, Database.removeFile, List.filter_map, Function.comp_def]
    rfl
  rw [hmap] at same holds
  rw [dbRepoDeleteById_of_live live]
  refine ⟨same, holds, fun row hrow => h.columns row (List.mem_of_mem_filter hrow), ?_⟩
  have kept : (db.removeFile id).receipts = db.receipts :=
    List.filter_eq_self.mpr (fun receipt hmem => by simpa using hnone receipt hmem)
  rw [memRepoDeleteById_receipts, kept, h.receipts]

/-- The double keeps the receipt of a removed file, the database does not. -/
theorem Doubles.delete_refused (h : Doubles (repo, db))
    (hrefused : ¬ ((∃ row ∈ db.files, row.id = id) ∧
      ∀ receipt ∈ db.receipts, receipt.fileId ≠ id)) :
    ¬ SameAnswers ((memRepoDeleteById repo id).1, (dbRepoDeleteById .ok db id).1)
      (.done (memRepoDeleteById repo id).2, .done (dbRepoDeleteById .ok db id).2) := by
  rintro ⟨same, hperm⟩
  by_cases live : ∃ row ∈ db.files, row.id = id
  · have hlen := hperm.length_eq
    rw [dbRepoDeleteById_of_live live, memRepoDeleteById_receipts] at hlen
    simp only [List.length_map, Slots.length_toList, h.count_receipts, Database.removeFile] at hlen
    have kept := List.length_filter_eq_length_iff.mp hlen.symm
    exact hrefused ⟨live, fun receipt hmem => by simpa using kept receipt hmem⟩
  · have habsent : db.file? id = none :=
      lookup_eq_none.mpr (fun row hrow hid => live ⟨row, hrow, hid⟩)
    simp only [FileRepoAnswer.untimed, FileRepoAnswer.done.injEq] at same
    rw [(h.records.delete id).1, RecordMap.delete, if_neg (any_id_iff.not.mpr live)] at same
    simp [dbRepoDeleteById, sqliteDeleteFile, habsent, fileRepoStatus] at same

end Delete

theorem Doubles.find {κ : Type} [DecidableEq κ] (h : Doubles (repo, db)) (key : FileRecord → κ)
    (kept : ∀ rec, key rec.untimed = key rec) (k : κ) :
    (FileRepoAnswer.found (memRepoFind repo (fun rec => key rec = k))).untimed =
      (FileRepoAnswer.found (fileRepoLookup (sqliteSelectFile key .ok db k))).untimed := by
  rw [h.records.find, RecordMap.find]
  simp only [Database.recordMap, lookup, List.find?_map, Function.comp_def, kept, sqliteSelectFile]
  cases hrow : db.files.find? (fun row => decide (key row = k)) with
  | none => rfl
  | some row =>
      have columns := h.columns row (List.mem_of_find?_eq_some hrow)
      simp only [Option.map_some, fileRepoLookup, columns]
      rfl

end Steps

/-- The two machines side by side, starting empty. -/
def doubleStep (state : MemoryFileRepository × Database) (call : FileRepoOp × Int) :
    (MemoryFileRepository × Database) × (FileRepoAnswer × FileRepoAnswer) :=
  pair memRepoStep dbRepoStep state call

theorem Doubles.step {state : MemoryFileRepository × Database} (h : Doubles state)
    {call : FileRepoOp × Int} (fits : call.1.Fits) (follows : DoubleFollows state call) :
    Doubles (doubleStep state call).1 ∧
      (doubleStep state call).2.1.untimed = (doubleStep state call).2.2.untimed := by
  obtain ⟨repo, db⟩ := state
  obtain ⟨op, now⟩ := call
  cases op with
  | insert originalName hash savedFilename =>
      obtain ⟨same, next⟩ := h.insert now fits follows.1 follows.2
      exact ⟨next, congrArg _ (congrArg FileRepoAnswer.inserted same)⟩
  | findByHash hash => exact ⟨h, h.find FileRecord.fileHash (fun _ => rfl) hash⟩
  | findById id => exact ⟨h, h.find FileRecord.id (fun _ => rfl) id⟩
  | markOcrComplete id ocrFilename =>
      obtain ⟨same, next⟩ := h.markOcr now fits follows
      exact ⟨next, congrArg _ (congrArg FileRepoAnswer.done same)⟩
  | markParsingComplete id parsedJson =>
      obtain ⟨same, next⟩ := h.markParsing now fits follows
      exact ⟨next, congrArg _ (congrArg FileRepoAnswer.done same)⟩
  | deleteById id =>
      obtain ⟨same, next⟩ := h.delete follows.1 follows.2
      exact ⟨next, congrArg _ (congrArg FileRepoAnswer.done same)⟩

/-- On a call where the double does not follow the difference shows at once. -/
theorem Doubles.step_refused {state : MemoryFileRepository × Database} (h : Doubles state)
    {call : FileRepoOp × Int} (fits : call.1.Fits) (parts : ¬ DoubleFollows state call) :
    ¬ SameAnswers (doubleStep state call).1 (doubleStep state call).2 := by
  obtain ⟨repo, db⟩ := state
  obtain ⟨op, now⟩ := call
  cases op with
  | insert originalName hash savedFilename =>
      exact fun same => h.insert_refused now fits parts (FileRepoAnswer.inserted.inj same.1)
  | findByHash | findById => exact absurd trivial parts
  | markOcrComplete id ocrFilename =>
      exact fun same => h.markOcr_refused now fits parts (FileRepoAnswer.done.inj same.1)
  | markParsingComplete id parsedJson => exact h.markParsing_refused now parsedJson parts
  | deleteById id => exact h.delete_refused parts

/-- The double and the database-backed repository give the same answers and hold the same
receipts all along a run exactly when every call is one on which the double follows. -/
theorem testDouble_faithful_iff (calls : List (FileRepoOp × Int))
    (fits : ∀ call ∈ calls, call.1.Fits) :
    EveryStep doubleStep SameAnswers (fileRepositoryMemoryNew, .empty) calls ↔
      Guarded (next doubleStep) DoubleFollows (fileRepositoryMemoryNew, .empty) calls := by
  refine everyStep_iff_guarded Doubles (fun call => call.1.Fits)
    (fun _ _ fits h follows => (h.step fits follows).1) (fun state call fits h => ?_)
    calls fits doubles_new
  refine ⟨fun same => ?_, fun follows => ?_⟩
  · by_contra parts
    exact h.step_refused fits parts same
  · obtain ⟨next, same⟩ := h.step fits follows
    exact SameAnswers.of_doubles next same

/-- One upload and a lookup by its id. -/
theorem testDouble_faithful_iff_upload :
    EveryStep doubleStep SameAnswers (fileRepositoryMemoryNew, .empty)
        [(.insert (lit "a.jpg") (lit "ab") (lit "s.jpg"), 0), (.findById 1, 1)] ↔
      Guarded (next doubleStep) DoubleFollows (fileRepositoryMemoryNew, .empty)
        [(.insert (lit "a.jpg") (lit "ab") (lit "s.jpg"), 0), (.findById 1, 1)] :=
  testDouble_faithful_iff _ (by
    intro call hcall
    rcases List.mem_pair.mp hcall with rfl | rfl
    · exact ⟨by decide, by decide, by decide⟩
    · trivial)

/-- Marking an id that no file has is "not found" in the double and success in the database. -/
theorem testDouble_unknown_id :
    ¬ EveryStep doubleStep SameAnswers (fileRepositoryMemoryNew, .empty)
      [(.markOcrComplete 1 (lit "a.txt"), 0)] := by
  rintro ⟨⟨same, _⟩, _⟩
  have dead : ¬ ∃ row ∈ Database.empty.files, row.id = 1 := by simp [Database.empty]
  have fits : (lit "a.txt").length < dbOcrFilenameLen := by decide
  exact doubles_new.markOcr_refused 0 fits dead (FileRepoAnswer.done.inj same)

end Kaufbot
