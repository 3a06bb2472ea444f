import Kaufbot.Db.Postgres
import Kaufbot.Infra.FileRepository
import Kaufbot.Library.Machine
import Kaufbot.Library.Pairing

/-!
The two database backends under the same calls. Each hands out ids of its own,
so a call carries a pair of ids: two that came from the same insert, or two
that neither backend has handed out. The backends agree on everything but a
receipt whose text is not JSON. That one goes into a TEXT column and not into a
JSONB column, and a receipt that is read back is the text that went in on one
side and the same JSON as the server prints it on the other.
-/

namespace Kaufbot

open CString Keyed Machine Runs

/-- The arguments of a call, with ids of type `ι`. -/
inductive DbOp (ι : Type) where
  | insert (rec : FileRecord)
  | findByHash (hash : CString)
  | findById (id : ι)
  | markOcrDone (id : ι) (ocrFileName : CString)
  | markParsingDone (fileId : ι) (parsedJson : CString)
  | getParsedReceipt (fileId : ι)
  | deleteFile (id : ι)

inductive DbAnswer where
  | record (result : SelectResult)
  | inserted (result : Option FileRecord)
  | status (rc : Int)
  | receipt (result : ReceiptResult)

def sqliteStep (now : Int) (db : Database) : DbOp Int → Database × DbAnswer
  | .insert rec =>
      let (db, result) := sqliteInsert .ok now db rec
      (db, .inserted result)
  | .findByHash hash => (db, .record (sqliteFindByHash .ok db hash))
  | .findById id => (db, .record (sqliteFindById .ok db id))
  | .markOcrDone id ocrFileName =>
      let (db, rc) := sqliteMarkOcrDone .ok now db id ocrFileName
      (db, .status rc)
  | .markParsingDone fileId parsedJson =>
      let (db, rc) := sqliteMarkParsingDone .ok .ok now db fileId parsedJson
      (db, .status rc)
  | .getParsedReceipt fileId => (db, .receipt (sqliteGetParsedReceipt .ok db fileId))
  | .deleteFile id =>
      let (db, rc) := sqliteDeleteFile .ok db id
      (db, .status rc)

/-- `now` is the clock of the bot, `serverNow` the one behind `NOW()`. -/
def postgresStep (engine : PostgresEngine) (now serverNow : Int) (db : Database) :
    DbOp Int → Database × DbAnswer
  | .insert rec =>
      let (db, result) := postgresInsert engine true now db rec
      (db, .inserted result)
  | .findByHash hash => (db, .record (postgresFindByHash true db hash))
  | .findById id => (db, .record (postgresFindById true db id))
  | .markOcrDone id ocrFileName =>
      let (db, rc) := postgresMarkOcrDone engine true serverNow db id ocrFileName
      (db, .status rc)
  | .markParsingDone fileId parsedJson =>
      let (db, rc) := postgresMarkParsingDone engine true serverNow db fileId parsedJson
      (db, .status rc)
  | .getParsedReceipt fileId => (db, .receipt (postgresGetParsedReceipt true db fileId))
  | .deleteFile id =>
      let (db, rc) := postgresDeleteFile true db id
      (db, .status rc)

def DbOp.map {ι κ : Type} (f : ι → κ) : DbOp ι → DbOp κ
  | .insert rec => .insert rec
  | .findByHash hash => .findByHash hash
  | .findById id => .findById (f id)
  | .markOcrDone id ocrFileName => .markOcrDone (f id) ocrFileName
  | .markParsingDone fileId parsedJson => .markParsingDone (f fileId) parsedJson
  | .getParsedReceipt fileId => .getParsedReceipt (f fileId)
  | .deleteFile id => .deleteFile (f id)

def DbOp.id? {ι : Type} : DbOp ι → Option ι
  | .insert _ | .findByHash _ => none
  | .findById id | .markOcrDone id _ | .markParsingDone id _ | .getParsedReceipt id
  | .deleteFile id => some id

/-- Strings in UTF-8 that fit, and a flag that is one. -/
def DbOp.Fits {ι : Type} : DbOp ι → Prop
  | .insert rec => rec.TextsValid ∧ (rec.isOcrProcessed = 0 ∨ rec.isOcrProcessed = 1)
  | .findByHash hash => ValidUtf8 hash
  | .markOcrDone _ ocrFileName => ValidUtf8 ocrFileName
  | .markParsingDone _ parsedJson => ValidUtf8 parsedJson ∧ parsedJson.length < dbJsonLen
  | .findById _ | .getParsedReceipt _ | .deleteFile _ => True

/-- A call on both backends, with the id each of them knows. -/
structure DbCall where
  op : DbOp (Int × Int)
  now : Int
  serverNow : Int

/-- The two databases, and which ids have been handed out for the same row. -/
structure Backends where
  sqlite : Database
  postgres : Database
  fileIds : Pairing Int Int
  receiptIds : Pairing Int Int

def Backends.new : Backends := ⟨.empty, .empty, .empty, .empty⟩

/-- The ids an insert hands out are a pair from then on. -/
def pairInserted (ids : Pairing Int Int) : DbAnswer → DbAnswer → Pairing Int Int
  | .inserted (some rec), .inserted (some rec') => ids.extend rec.id rec'.id
  | _, _ => ids

/-- So are the ids of the two receipts of a file, once both exist. -/
def pairReceipts (ids : Pairing Int Int) : Option ParsedReceipt → Option ParsedReceipt →
    Pairing Int Int
  | some receipt, some receipt' => ids.extend receipt.id receipt'.id
  | _, _ => ids

def backendsStep (engine : PostgresEngine) (b : Backends) (call : DbCall) :
    Backends × (DbOp (Int × Int) × DbAnswer × DbAnswer) :=
  let (sqlite, answer) := sqliteStep call.now b.sqlite (call.op.map Prod.fst)
  let (postgres, answer') :=
    postgresStep engine call.now call.serverNow b.postgres (call.op.map Prod.snd)
  ({ sqlite := sqlite
     postgres := postgres
     fileIds := pairInserted b.fileIds answer answer'
     receiptIds := match call.op with
      | .markParsingDone (fileId, fileId') _ =>
          pairReceipts b.receiptIds (sqlite.receipt? fileId) (postgres.receipt? fileId')
      | _ => b.receiptIds },
    (call.op, answer, answer'))

/-- Everything a record says but its id and its timestamps. -/
def FileRecord.content (rec : FileRecord) : FileRecord := { rec.untimed with id := 0 }

def SameRecord (ids : Pairing Int Int) (rec rec' : FileRecord) : Prop :=
  ids.Rel rec.id rec'.id ∧ rec.content = rec'.content

/-- What the second backend returns for a receipt when the first one returns this. -/
def ReceiptsAgree (engine : PostgresEngine) (b : Backends) : ReceiptResult → ReceiptResult → Prop
  | .absent, result' => result' = .absent
  | .found receipt, .found receipt' =>
      b.receiptIds.Rel receipt.id receipt'.id ∧ b.fileIds.Rel receipt.fileId receipt'.fileId ∧
        ∀ stored, engine.jsonb receipt.parsedJson = some stored →
          receipt'.parsedJson = snprintf dbJsonLen stored
  | .found receipt, .absent => engine.jsonb receipt.parsedJson = none
  | _, _ => False

/-- The same status and the same record up to ids and timestamps, except that a text which is not
JSON is refused by the second backend. -/
def BackendsSame (engine : PostgresEngine) (b : Backends) :
    DbOp (Int × Int) × DbAnswer × DbAnswer → Prop
  | (_, .record .absent, .record .absent) => True
  | (_, .record (.found rec), .record (.found rec')) => SameRecord b.fileIds rec rec'
  | (_, .inserted none, .inserted none) => True
  | (_, .inserted (some rec), .inserted (some rec')) => SameRecord b.fileIds rec rec'
  | (.markParsingDone _ parsedJson, .status rc, .status rc') =>
      if (engine.jsonb parsedJson).isSome then rc = rc' else rc' = -1
  | (_, .status rc, .status rc') => rc = rc'
  | (_, .receipt result, .receipt result') => ReceiptsAgree engine b result result'
  | _ => False

/-- The ids of the call mean the same, and neither backend has run out of ids. -/
def Renamed (b : Backends) (call : DbCall) : Prop :=
  (∀ ids ∈ call.op.id?, b.fileIds.Names ids.1 ids.2) ∧
    b.sqlite.filesSeq < maxRowid ∧ b.postgres.filesSeq < maxRowid ∧
    b.sqlite.receiptsSeq < maxRowid ∧ b.postgres.receiptsSeq < maxRowid

/-- The receipts of a file in the two databases: the text the first one holds is JSON only if the
second one holds it too. -/
def ReceiptsMatch (engine : PostgresEngine) (ids : Pairing Int Int) :
    Option ParsedReceipt → Option ParsedReceipt → Prop
  | none, other => other = none
  | some receipt, none => engine.jsonb receipt.parsedJson = none ∧ ∀ id, ¬ ids.Rel receipt.id id
  | some receipt, some receipt' =>
      ids.Rel receipt.id receipt'.id ∧
        ∀ stored, engine.jsonb receipt.parsedJson = some stored → receipt'.parsedJson = stored

theorem ReceiptsMatch.grow {engine : PostgresEngine} {ids ids' : Pairing Int Int}
    {held held' : Option ParsedReceipt} (h : ReceiptsMatch engine ids held held')
    (grown : ∀ i j, ids.Rel i j → ids'.Rel i j)
    (kept : ∀ receipt, held = some receipt → ∀ j, ids'.Rel receipt.id j → ids.Rel receipt.id j) :
    ReceiptsMatch engine ids' held held' := by
  cases held with
  | none => exact h
  | some receipt =>
      cases held' with
      | none => exact ⟨h.1, fun j related => h.2 j (kept receipt rfl j related)⟩
      | some receipt' => exact ⟨grown _ _ h.1, h.2⟩

/-- Row by row the two databases hold the same files. -/
structure Mirrors (engine : PostgresEngine) (b : Backends) : Prop where
  files : List.Forall₂ (SameRecord b.fileIds) b.sqlite.files b.postgres.files
  fileSeqs : ∀ i j, b.fileIds.Rel i j → i ≤ b.sqlite.filesSeq ∧ j ≤ b.postgres.filesSeq
  receipts : ∀ i j, b.fileIds.Rel i j →
    ReceiptsMatch engine b.receiptIds (b.sqlite.receipt? i) (b.postgres.receipt? j)
  receiptSeqs : ∀ i j, b.receiptIds.Rel i j → i ≤ b.sqlite.receiptsSeq ∧ j ≤ b.postgres.receiptsSeq
  fits : ∀ i receipt, b.sqlite.receipt? i = some receipt → receipt.parsedJson.length < dbJsonLen

/-- The step keeps the databases alike and is answered alike. -/
def KeepsPace (engine : PostgresEngine) (b : Backends) (call : DbCall) : Prop :=
  Mirrors engine (backendsStep engine b call).1 ∧
    BackendsSame engine (backendsStep engine b call).1 (backendsStep engine b call).2

theorem mirrors_new (engine : PostgresEngine) : Mirrors engine .new where
  files := .nil
  fileSeqs := fun _ _ h => absurd h Pairing.not_rel_empty
  receipts := fun _ _ h => absurd h Pairing.not_rel_empty
  receiptSeqs := fun _ _ h => absurd h Pairing.not_rel_empty
  fits := fun _ _ h => absurd h (by simp [Backends.new, Database.empty, Database.receipt?, lookup])

theorem SameRecord.readColumns {ids : Pairing Int Int} {rec rec' : FileRecord}
    (h : SameRecord ids rec rec') :
    SameRecord ids (Kaufbot.readColumns rec) (Kaufbot.readColumns rec') := by
  have content (row : FileRecord) : (Kaufbot.readColumns row).content =
      (Kaufbot.readColumns row.content).content := rfl
  exact ⟨h.1, by rw [content, content rec', h.2]⟩

theorem SameRecord.mono {ids ids' : Pairing Int Int} {rec rec' : FileRecord}
    (h : SameRecord ids rec rec') (grown : ∀ i j, ids.Rel i j → ids'.Rel i j) :
    SameRecord ids' rec rec' :=
  ⟨grown _ _ h.1, h.2⟩

theorem SameRecord.keys {ids : Pairing Int Int} {rec rec' : FileRecord}
    (h : SameRecord ids rec rec') :
    rec.savedFileName = rec'.savedFileName ∧ rec.fileHash = rec'.fileHash := by
  have saved : rec.content.savedFileName = rec'.content.savedFileName := by rw [h.2]
  have hash : rec.content.fileHash = rec'.content.fileHash := by rw [h.2]
  exact ⟨saved, hash⟩

/-- What the two backends make of rows that correspond. -/
theorem select_same {engine : PostgresEngine} {b : Backends} {κ κ' : Type} [DecidableEq κ]
    [DecidableEq κ'] {column : FileRecord → κ} {column' : FileRecord → κ'} {k : κ} {k' : κ'}
    (op : DbOp (Int × Int))
    (rows : Option.Rel (SameRecord b.fileIds) (lookup column k b.sqlite.files)
      (lookup column' k' b.postgres.files)) :
    BackendsSame engine b (op, .record (sqliteSelectFile column .ok b.sqlite k),
      .record (postgresSelectFile true column' b.postgres k')) := by
  simp only [sqliteSelectFile, postgresSelectFile, if_true]
  revert rows
  generalize lookup column k b.sqlite.files = found
  generalize lookup column' k' b.postgres.files = found'
  rintro (same | _)
  · exact same.readColumns
  · trivial

/-- A flag reaches a BOOLEAN column as it is. -/
theorem boolParam_of_fits {rec : FileRecord} (fits : (DbOp.insert rec : DbOp (Int × Int)).Fits) :
    boolParam rec.isOcrProcessed = some rec.isOcrProcessed := by
  rcases fits.2 with hzero | hone
  · rw [hzero]
    decide
  · rw [hone]
    decide

section Steps
variable {engine : PostgresEngine} {b : Backends} (h : Mirrors engine b)
include h

theorem Mirrors.file?_rel {i j : Int} (names : b.fileIds.Names i j) :
    Option.Rel (SameRecord b.fileIds) (b.sqlite.file? i) (b.postgres.file? j) :=
  lookup_forall₂ h.files (fun _ _ same => same.1.eq_iff names)

theorem Mirrors.live_iff {i j : Int} (names : b.fileIds.Names i j) :
    (∃ row ∈ b.sqlite.files, row.id = i) ↔ ∃ row ∈ b.postgres.files, row.id = j := by
  have dead : (∀ row ∈ b.sqlite.files, row.id ≠ i) ↔ ∀ row ∈ b.postgres.files, row.id ≠ j :=
    forall_mem_iff_of_forall₂ h.files (fun _ _ same => not_congr (same.1.eq_iff names))
  simpa using not_congr dead

/-- Ids nobody was given have no rows. -/
theorem Mirrors.dead_of_unknown {i j : Int} (left : ∀ j', ¬ b.fileIds.Rel i j')
    (right : ∀ i', ¬ b.fileIds.Rel i' j) :
    (∀ row ∈ b.sqlite.files, row.id ≠ i) ∧ ∀ row ∈ b.postgres.files, row.id ≠ j := by
  have dead : ∀ row ∈ b.sqlite.files, row.id ≠ i := by
    refine (forall_mem_iff_of_forall₂ h.files (fun row row' same => ?_)).mpr
      (fun _ _ => trivial : ∀ row ∈ b.postgres.files, True)
    refine iff_of_true ?_ trivial
    rintro rfl
    exact left row'.id same.1
  have dead' : ∀ row ∈ b.postgres.files, row.id ≠ j :=
    (forall_mem_iff_of_forall₂ h.files
      (fun _ _ same => not_congr (same.1.eq_iff (Or.inr ⟨left, right⟩)))).mp dead
  exact ⟨dead, dead'⟩

/-- An id that has a row was handed out. -/
theorem Mirrors.rel_of_live {i j : Int} (names : b.fileIds.Names i j)
    (live : ∃ row ∈ b.sqlite.files, row.id = i) : b.fileIds.Rel i j := by
  refine names.resolve_right fun ⟨left, right⟩ => ?_
  obtain ⟨row, hrow, hid⟩ := live
  exact (h.dead_of_unknown left right).1 row hrow hid

theorem Mirrors.receipts_match {i j : Int} (names : b.fileIds.Names i j) :
    ReceiptsMatch engine b.receiptIds (b.sqlite.receipt? i) (b.postgres.receipt? j) := by
  rcases names with related | ⟨left, right⟩
  · exact h.receipts i j related
  · obtain ⟨dead, dead'⟩ := h.dead_of_unknown left right
    rw [Database.receipt?_eq_none dead, Database.receipt?_eq_none dead']
    rfl

theorem Mirrors.free_iff (rec : FileRecord) (room : b.sqlite.filesSeq < maxRowid)
    (room' : b.postgres.filesSeq < maxRowid) :
    b.sqlite.FreeFor rec.savedFileName rec.fileHash ↔
      b.postgres.FreeFor rec.savedFileName rec.fileHash := by
  simp only [Database.FreeFor, room, room', true_and]
  refine forall_mem_iff_of_forall₂ h.files (fun row row' same => ?_)
  rw [same.keys.1, same.keys.2]

theorem Mirrors.findByHash {hash : CString} (valid : ValidUtf8 hash) (now serverNow : Int) :
    KeepsPace engine b ⟨.findByHash hash, now, serverNow⟩ := by
  refine ⟨h, ?_⟩
  have answer' : postgresFindByHash true b.postgres hash =
      postgresSelectFile true FileRecord.fileHash b.postgres hash := if_pos valid
  simp only [backendsStep, DbOp.map, sqliteStep, postgresStep, pairInserted, answer']
  refine select_same (.findByHash hash) (lookup_forall₂ h.files (fun row row' same => ?_))
  rw [same.keys.2]

theorem Mirrors.findById {i j : Int} (names : b.fileIds.Names i j) (now serverNow : Int) :
    KeepsPace engine b ⟨.findById (i, j), now, serverNow⟩ :=
  ⟨h, select_same (.findById (i, j)) (h.file?_rel names)⟩

/-- The next ids of the two sequences are in no pair yet. -/
theorem Mirrors.fresh_file : (∀ j, ¬ b.fileIds.Rel (b.sqlite.filesSeq + 1) j) ∧
    ∀ i, ¬ b.fileIds.Rel i (b.postgres.filesSeq + 1) := by
  constructor <;> intro id old <;> have := h.fileSeqs _ _ old <;> omega

section Insert
variable {rec : FileRecord} (fits : (DbOp.insert rec : DbOp (Int × Int)).Fits)
  (room : b.sqlite.filesSeq < maxRowid) (room' : b.postgres.filesSeq < maxRowid)
  (now serverNow : Int)
include fits room room'

/-- Where the name and the hash are free both append a row, and the two ids are a pair from
then on. -/
theorem Mirrors.insert_free (free : b.sqlite.FreeFor rec.savedFileName rec.fileHash) :
    KeepsPace engine b ⟨.insert rec, now, serverNow⟩ := by
  obtain ⟨db, hins, hfiles, hseq, hreceipts, hrseq⟩ :=
    sqliteInsert_of_free now rec (rfl : SqlOutcome.ok = .ok) free
  obtain ⟨db', hins', hfiles', hseq', hreceipts', hrseq'⟩ := postgresInsert_of_free
    engine now (boolParam_of_fits fits) fits.1 ((h.free_iff rec room room').mp free)
  have step : backendsStep engine b ⟨.insert rec, now, serverNow⟩ =
      ({ sqlite := db
         postgres := db'
         fileIds := b.fileIds.extend (b.sqlite.filesSeq + 1) (b.postgres.filesSeq + 1)
         receiptIds := b.receiptIds },
        (.insert rec, .inserted (some (insertedRow now b.sqlite rec)),
          .inserted (some (insertedRow now b.postgres rec)))) := by
    simp only [backendsStep, DbOp.map, sqliteStep, postgresStep, hins, hins', pairInserted]
    rfl
  obtain ⟨left, right⟩ := h.fresh_file
  have related {i j : Int} := Pairing.rel_extend left right (c := i) (d := j)
  rw [KeepsPace, step]
  refine ⟨⟨?_, fun i j new => ?_, fun i j new => ?_, ?_, ?_⟩, related.mpr (Or.inl ⟨rfl, rfl⟩),
    rfl⟩
  · simp only [hfiles, hfiles']
    refine List.rel_append (h.files.imp (fun _ _ same => same.mono fun i j old =>
      related.mpr (Or.inr old))) (.cons ⟨related.mpr (Or.inl ⟨rfl, rfl⟩), rfl⟩ .nil)
  · simp only [hseq, hseq']
    rcases related.mp new with ⟨rfl, rfl⟩ | old
    · omega
    · have := h.fileSeqs i j old
      omega
  · simp only [Database.receipt?, hreceipts, hreceipts']
    rcases related.mp new with ⟨rfl, rfl⟩ | old
    · exact h.receipts_match (Or.inr ⟨left, right⟩)
    · exact h.receipts i j old
  · simpa only [hrseq, hrseq'] using h.receiptSeqs
  · simpa only [Database.receipt?, hreceipts] using h.fits

/-- Elsewhere both refuse the row; the sequence of the second one has moved on. -/
theorem Mirrors.insert_taken (taken : ¬ b.sqlite.FreeFor rec.savedFileName rec.fileHash) :
    KeepsPace engine b ⟨.insert rec, now, serverNow⟩ := by
  have step : backendsStep engine b ⟨.insert rec, now, serverNow⟩ =
      ({ b with postgres := b.postgres.burnFileId room' },
        (.insert rec, .inserted none, .inserted none)) := by
    simp only [backendsStep, DbOp.map, sqliteStep, postgresStep,
      sqliteInsert_of_refused now rec (fun accepted => taken accepted.2),
      postgresInsert_of_taken engine now (boolParam_of_fits fits) fits.1 room'
        (fun free' => taken ((h.free_iff rec room room').mpr free')), pairInserted]
  rw [KeepsPace, step]
  refine ⟨{ h with fileSeqs := fun i j related => ?_ }, trivial⟩
  have := h.fileSeqs i j related
  change i ≤ b.sqlite.filesSeq ∧ j ≤ b.postgres.filesSeq + 1
  omega

theorem Mirrors.insert : KeepsPace engine b ⟨.insert rec, now, serverNow⟩ := by
  by_cases free : b.sqlite.FreeFor rec.savedFileName rec.fileHash
  · exact h.insert_free fits room room' now serverNow free
  · exact h.insert_taken fits room room' now serverNow free

end Insert

theorem Mirrors.markOcrDone {i j : Int} (names : b.fileIds.Names i j) {ocrFileName : CString}
    (valid : ValidUtf8 ocrFileName) (now serverNow : Int) :
    KeepsPace engine b ⟨.markOcrDone (i, j) ocrFileName, now, serverNow⟩ := by
  simp only [KeepsPace, backendsStep, DbOp.map, sqliteStep, postgresStep, sqliteMarkOcrDone,
    postgresMarkOcrDone, valid, and_self, if_true, pairInserted]
  refine ⟨{ h with files := ?_ }, rfl⟩
  refine updateWhere_forall₂ h.files (fun row row' same => ?_) (fun row row' same => ⟨same.1, ?_⟩)
  · exact decide_eq_decide.mpr (same.1.eq_iff names)
  · have content := same.2
    simp only [FileRecord.content, FileRecord.untimed, FileRecord.mk.injEq] at content
    simp [FileRecord.content, FileRecord.untimed, FileRecord.markOcrDone, content]

theorem Mirrors.deleteFile {i j : Int} (names : b.fileIds.Names i j) (now serverNow : Int) :
    KeepsPace engine b ⟨.deleteFile (i, j), now, serverNow⟩ := by
  have found : (b.sqlite.file? i).isSome = (b.postgres.file? j).isSome :=
    isSome_eq_of_rel (h.file?_rel names)
  simp only [KeepsPace, backendsStep, DbOp.map, sqliteStep, postgresStep, sqliteDeleteFile,
    postgresDeleteFile, if_true, pairInserted, found]
  refine ⟨⟨?_, h.fileSeqs, fun i' j' related => ?_, h.receiptSeqs, fun i' receipt held => ?_⟩, rfl⟩
  · refine filter_forall₂ h.files (fun row row' same => ?_)
    exact decide_eq_decide.mpr (not_congr (same.1.eq_iff names))
  · rw [Database.removeFile_receipt?, Database.removeFile_receipt?]
    by_cases heq : i' = i
    · rw [if_pos heq, if_pos ((related.eq_iff names).mp heq)]
      rfl
    · rw [if_neg heq, if_neg (fun heq' => heq ((related.eq_iff names).mpr heq'))]
      exact h.receipts i' j' related
  · rw [Database.removeFile_receipt?] at held
    split at held
    · cases held
    · exact h.fits i' receipt held

theorem Mirrors.getParsedReceipt {i j : Int} (names : b.fileIds.Names i j) (now serverNow : Int) :
    KeepsPace engine b ⟨.getParsedReceipt (i, j), now, serverNow⟩ := by
  refine ⟨h, ?_⟩
  have agree := h.receipts_match names
  simp only [backendsStep, DbOp.map, sqliteStep, postgresStep, sqliteGetParsedReceipt,
    postgresGetParsedReceipt, if_true, pairInserted]
  cases held : b.sqlite.receipt? i with
  | none =>
      rw [held] at agree
      rw [show b.postgres.receipt? j = none from agree]
      rfl
  | some receipt =>
      have whole : snprintf dbJsonLen receipt.parsedJson = receipt.parsedJson :=
        snprintf_of_length_lt (h.fits i receipt held)
      obtain ⟨hmem, rfl⟩ := Database.receipt?_eq_some.mp held
      have related := h.rel_of_live names (b.sqlite.schema.foreignKey receipt hmem)
      rw [held] at agree
      cases held' : b.postgres.receipt? j with
      | none =>
          rw [held'] at agree
          simpa [BackendsSame, ReceiptsAgree, readReceiptColumns, whole] using agree.1
      | some receipt' =>
          rw [held'] at agree
          obtain ⟨_, rfl⟩ := Database.receipt?_eq_some.mp held'
          refine ⟨agree.1, related, fun stored json => ?_⟩
          simp only [readReceiptColumns, whole] at json ⊢
          rw [agree.2 stored json]

/-- The next receipt id of the second backend is in no pair yet. -/
theorem Mirrors.fresh_receipt : (∀ j, ¬ b.receiptIds.Rel (b.sqlite.receiptsSeq + 1) j) ∧
    ∀ i, ¬ b.receiptIds.Rel i (b.postgres.receiptsSeq + 1) := by
  constructor <;> intro id old <;> have := h.receiptSeqs _ _ old <;> omega

theorem Mirrors.fits_of_stores {db : Database} {i : Int} {parsedJson : CString}
    (stores : b.sqlite.StoresReceipt db i parsedJson) (fits : parsedJson.length < dbJsonLen)
    {i' : Int} {receipt : ParsedReceipt} (held : db.receipt? i' = some receipt) :
    receipt.parsedJson.length < dbJsonLen := by
  by_cases heq : i' = i
  · obtain ⟨stored, hstored, rfl, _⟩ := stores.stored
    rw [heq, hstored] at held
    rwa [← Option.some.inj held]
  · rw [stores.others i' heq] at held
    exact h.fits i' receipt held

section Store
variable {i j : Int} (related : b.fileIds.Rel i j) {db db' : Database} {parsedJson : CString}
  (stores : b.sqlite.StoresReceipt db i parsedJson)
include related stores

/-- A receipt that replaces one keeps its id, and the others take the next ids: the two ids are a
pair or in none. -/
theorem Mirrors.names_of_stores {receipt receipt' : ParsedReceipt} {stored : CString}
    (held : db.receipt? i = some receipt) (stores' : b.postgres.StoresReceipt db' j stored)
    (held' : db'.receipt? j = some receipt') :
    b.receiptIds.Names receipt.id receipt'.id := by
  obtain ⟨_, hsome, _, hid⟩ := stores.stored
  obtain ⟨_, hsome', _, hid'⟩ := stores'.stored
  obtain rfl := Option.some.inj (held.symm.trans hsome)
  obtain rfl := Option.some.inj (held'.symm.trans hsome')
  have before := h.receipts i j related
  obtain ⟨left, right⟩ := h.fresh_receipt
  cases old : b.sqlite.receipt? i with
  | none =>
      rw [old] at before hid
      rw [show b.postgres.receipt? j = none from before] at hid'
      rw [hid, hid']
      exact Or.inr ⟨left, right⟩
  | some row =>
      rw [old] at before hid
      cases old' : b.postgres.receipt? j with
      | none =>
          rw [old'] at before hid'
          rw [hid, hid']
          exact Or.inr ⟨before.2, right⟩
      | some row' =>
          rw [old'] at before hid'
          rw [hid, hid']
          exact Or.inl before.1

/-- A text that is not JSON matches whatever the other side has, the receipt it may replace too. -/
theorem Mirrors.receiptsMatch_text (rejected : engine.jsonb parsedJson = none) :
    ReceiptsMatch engine b.receiptIds (db.receipt? i) (b.postgres.receipt? j) := by
  obtain ⟨receipt, held, htext, hid⟩ := stores.stored
  have before := h.receipts i j related
  have noJson : engine.jsonb receipt.parsedJson = none := by rw [htext, rejected]
  rw [held]
  cases old : b.sqlite.receipt? i with
  | none =>
      rw [old] at before hid
      rw [show b.postgres.receipt? j = none from before]
      exact ⟨noJson, by rw [hid]; exact h.fresh_receipt.1⟩
  | some row =>
      rw [old] at before hid
      cases old' : b.postgres.receipt? j with
      | none =>
          rw [old'] at before
          exact ⟨noJson, by rw [hid]; exact before.2⟩
      | some row' =>
          rw [old'] at before
          refine ⟨by rw [hid]; exact before.1, fun stored json => ?_⟩
          rw [noJson] at json
          cases json

section Fits
variable (fits : parsedJson.length < dbJsonLen)
include fits

/-- A text that is JSON is stored on both sides, and the two rows are a pair from then on. -/
theorem Mirrors.store_both {stored : CString} (json : engine.jsonb parsedJson = some stored)
    (stores' : b.postgres.StoresReceipt db' j stored) :
    Mirrors engine ⟨db, db', b.fileIds,
      pairReceipts b.receiptIds (db.receipt? i) (db'.receipt? j)⟩ := by
  obtain ⟨receipt, held, htext, _⟩ := stores.stored
  obtain ⟨receipt', held', htext', _⟩ := stores'.stored
  have names := h.names_of_stores related stores held stores' held'
  have paired {c d : Int} : (pairReceipts b.receiptIds (db.receipt? i) (db'.receipt? j)).Rel c d ↔
      c = receipt.id ∧ d = receipt'.id ∨ b.receiptIds.Rel c d := by
    rw [held, held', pairReceipts]
    exact names.rel_extend
  refine ⟨?_, fun i' j' old => ?_, fun i' j' old => ?_, fun c d new => ?_,
    fun i' row => h.fits_of_stores stores fits⟩
  · simpa only [stores.files, stores'.files] using h.files
  · simpa only [stores.filesSeq, stores'.filesSeq] using h.fileSeqs i' j' old
  · by_cases heq : i' = i
    · subst heq
      obtain rfl := old.eq_right related
      simp only [held, held']
      refine ⟨by simpa [held, held'] using paired.mpr (Or.inl ⟨rfl, rfl⟩), fun text htexts => ?_⟩
      rw [htext, json] at htexts
      rw [htext', Option.some.inj htexts]
    · have heq' : j' ≠ j := fun hj => heq ((old.eq_iff (Or.inl related)).mpr hj)
      simp only [stores.others i' heq, stores'.others j' heq']
      refine (h.receipts i' j' old).grow (fun _ _ known => paired.mpr (Or.inr known)) ?_
      intro row hrow d new
      refine (paired.mp new).resolve_left fun ⟨same, _⟩ => heq ?_
      exact Database.receipt?_inj ((stores.others i' heq).trans hrow) held same
  · rcases paired.mp new with ⟨rfl, rfl⟩ | old
    · exact ⟨Database.receipt?_id_le held, Database.receipt?_id_le held'⟩
    · obtain ⟨left, right⟩ := h.receiptSeqs c d old
      exact ⟨Int.le_trans left stores.receiptsSeq, Int.le_trans right stores'.receiptsSeq⟩

/-- A text that is not JSON is stored on one side, in a row that is in no new pair. -/
theorem Mirrors.store_text (rejected : engine.jsonb parsedJson = none) :
    Mirrors engine ⟨db, b.postgres, b.fileIds,
      pairReceipts b.receiptIds (db.receipt? i) (b.postgres.receipt? j)⟩ := by
  have matched := h.receiptsMatch_text related stores rejected
  have unpaired : pairReceipts b.receiptIds (db.receipt? i) (b.postgres.receipt? j) =
      b.receiptIds := by
    obtain ⟨receipt, held, -⟩ := stores.stored
    rw [held] at matched ⊢
    cases old' : b.postgres.receipt? j with
    | none => rfl
    | some row' =>
        rw [old'] at matched
        exact Pairing.extend_of_rel matched.1
  rw [unpaired]
  refine ⟨?_, fun i' j' old => ?_, fun i' j' old => ?_, fun c d old => ?_,
    fun i' row => h.fits_of_stores stores fits⟩
  · simpa only [stores.files] using h.files
  · simpa only [stores.filesSeq] using h.fileSeqs i' j' old
  · by_cases heq : i' = i
    · subst heq
      obtain rfl := old.eq_right related
      exact matched
    · simpa only [stores.others i' heq] using h.receipts i' j' old
  · obtain ⟨left, right⟩ := h.receiptSeqs c d old
    exact ⟨Int.le_trans left stores.receiptsSeq, right⟩

end Fits

end Store

theorem Mirrors.markParsingDone {i j : Int} (names : b.fileIds.Names i j) {parsedJson : CString}
    (valid : ValidUtf8 parsedJson) (fits : parsedJson.length < dbJsonLen)
    (room : b.sqlite.receiptsSeq < maxRowid) (room' : b.postgres.receiptsSeq < maxRowid)
    (now serverNow : Int) :
    KeepsPace engine b ⟨.markParsingDone (i, j) parsedJson, now, serverNow⟩ := by
  simp only [KeepsPace, backendsStep, DbOp.map, sqliteStep, postgresStep, pairInserted]
  by_cases live : ∃ row ∈ b.sqlite.files, row.id = i
  · have related := h.rel_of_live names live
    obtain ⟨db, hdone, stores⟩ := sqliteMarkParsingDone_of_live now parsedJson room live
    cases json : engine.jsonb parsedJson with
    | none =>
        simp only [hdone, postgresMarkParsingDone_of_rejected true serverNow json]
        exact ⟨h.store_text related stores fits json, by simp [BackendsSame, json]⟩
    | some stored =>
        obtain ⟨db', hdone', stores'⟩ := postgresMarkParsingDone_of_live serverNow json
          valid room' ((h.live_iff names).mp live)
        simp only [hdone, hdone']
        exact ⟨h.store_both related stores fits json stores', by simp [BackendsSame, json]⟩
  · have dead : ∀ row ∈ b.sqlite.files, row.id ≠ i := fun row hrow hid => live ⟨row, hrow, hid⟩
    have unpaired (other : Option ParsedReceipt) :
        pairReceipts b.receiptIds (b.sqlite.receipt? i) other = b.receiptIds := by
      rw [Database.receipt?_eq_none dead]
      rfl
    cases json : engine.jsonb parsedJson with
    | none =>
        simp only [sqliteMarkParsingDone_of_dead now parsedJson dead,
          postgresMarkParsingDone_of_rejected true serverNow json, unpaired]
        exact ⟨h, by simp [BackendsSame, json]⟩
    | some stored =>
        simp only [sqliteMarkParsingDone_of_dead now parsedJson dead,
          postgresMarkParsingDone_of_orphan serverNow json valid room'
            ((h.live_iff names).not.mp live), unpaired]
        refine ⟨{ h with receiptSeqs := fun i' j' old => ?_ }, by simp [BackendsSame, json]⟩
        have := h.receiptSeqs i' j' old
        change i' ≤ b.sqlite.receiptsSeq ∧ j' ≤ b.postgres.receiptsSeq + 1
        omega

theorem Mirrors.step {call : DbCall} (fits : call.op.Fits) (renamed : Renamed b call) :
    KeepsPace engine b call := by
  obtain ⟨op, now, serverNow⟩ := call
  obtain ⟨ids, filesRoom, filesRoom', receiptsRoom, receiptsRoom'⟩ := renamed
  cases op with
  | insert rec => exact h.insert fits filesRoom filesRoom' now serverNow
  | findByHash hash => exact h.findByHash fits now serverNow
  | findById id => exact h.findById (ids id rfl) now serverNow
  | markOcrDone id ocrFileName => exact h.markOcrDone (ids id rfl) fits now serverNow
  | markParsingDone id parsedJson =>
      exact h.markParsingDone (ids id rfl) fits.1 fits.2 receiptsRoom receiptsRoom' now serverNow
  | getParsedReceipt id => exact h.getParsedReceipt (ids id rfl) now serverNow
  | deleteFile id => exact h.deleteFile (ids id rfl) now serverNow

end Steps

/-- From empty tables the two backends answer alike all along a run. -/
theorem databaseBackends_agree (engine : PostgresEngine) (calls : List DbCall)
    (fits : ∀ call ∈ calls, call.op.Fits)
    (renamed : Guarded (next (backendsStep engine)) Renamed .new calls) :
    EveryStep (backendsStep engine) (BackendsSame engine) .new calls :=
  everyStep_of_guarded (Mirrors engine) (fun call => call.op.Fits)
    (fun _ _ fits h renamed => h.step fits renamed) calls fits (mirrors_new engine) renamed

/-- The server as it is on one receipt: it prints an array with blanks, and nothing else here is
JSON. -/
def sampleEngine : PostgresEngine where
  jsonb text := if text = lit "[1,2]" then some (lit "[1, 2]") else none
  toChar _ := lit "2024-01-01T00:00:00Z"

/-- An upload, its receipt, and both read back. -/
def sampleCalls : List DbCall :=
  [⟨.insert (dbRepoRecord (lit "a.jpg") (lit "ab") (lit "s.jpg")), 0, 0⟩,
    ⟨.markParsingDone (1, 1) (lit "[1,2]"), 1, 1⟩, ⟨.getParsedReceipt (1, 1), 2, 2⟩,
    ⟨.deleteFile (1, 1), 3, 3⟩]

theorem databaseBackends_agree_sample :
    EveryStep (backendsStep sampleEngine) (BackendsSame sampleEngine) .new sampleCalls := by
  refine databaseBackends_agree sampleEngine sampleCalls ?_ ?_
  · intro call hcall
    simp only [sampleCalls, List.mem_cons, List.not_mem_nil, or_false] at hcall
    rcases hcall with rfl | rfl | rfl | rfl
    · exact ⟨by decide, Or.inl rfl⟩
    · exact ⟨by decide, by decide⟩
    · trivial
    · trivial
  · have paired (ids : Pairing Int Int) (given : (1, 1) ∈ ids.pairs) :
        ∀ pair ∈ some ((1 : Int), (1 : Int)), ids.Names pair.1 pair.2 := by
      rintro _ ⟨⟩
      exact Or.inl given
    refine ⟨⟨fun _ h => absurd h (by simp [DbOp.id?]), by decide, by decide, by decide, by decide⟩,
      ⟨paired _ ?_, by decide, by decide, by decide, by decide⟩,
      ⟨paired _ ?_, by decide, by decide, by decide, by decide⟩,
      ⟨paired _ ?_, by decide, by decide, by decide, by decide⟩, trivial⟩
    · decide
    · decide
    · decide

/-- The return code of the call. -/
def DbAnswer.rc : DbAnswer → Int
  | .record (.found _) | .inserted (some _) | .receipt (.found _) => 0
  | .record .absent | .receipt .absent => 1
  | .record .failed | .inserted none | .receipt .failed => -1
  | .status rc => rc

/-- Where the return codes differ: a receipt that is no JSON, and a flag that is none. -/
theorem databaseBackends_differ :
    (¬ EveryStep (backendsStep sampleEngine) (fun _ answer => answer.2.1.rc = answer.2.2.rc) .new
      [⟨.insert (dbRepoRecord (lit "a.jpg") (lit "ab") (lit "s.jpg")), 0, 0⟩,
        ⟨.markParsingDone (1, 1) (lit "milk 1,09"), 1, 1⟩]) ∧
    ¬ EveryStep (backendsStep sampleEngine) (fun _ answer => answer.2.1.rc = answer.2.2.rc) .new
      [⟨.insert { dbRepoRecord (lit "a.jpg") (lit "ab") (lit "s.jpg") with isOcrProcessed := 2 },
        0, 0⟩] := by
  constructor
  · rintro ⟨_, same, _⟩
    exact absurd same (by decide)
  · rintro ⟨same, _⟩
    exact absurd same (by decide)

end Kaufbot
