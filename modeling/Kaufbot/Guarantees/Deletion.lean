import Kaufbot.Guarantees.Operations
import Kaufbot.Guarantees.Upload

/-!
Deleting a record is meant to be all or nothing. The two files go first and
nobody looks at what became of them; the row goes last and alone decides the
answer. The exact condition on the three outcomes says when the answer is also
true of the files.
-/

namespace Kaufbot

open CString

/-- The names a record has given to files in the storage. -/
def FileRecord.storedNames (rec : FileRecord) : List CString :=
  [rec.savedFileName, rec.ocrFileName].filter (fun name => !name.bytes.isEmpty)

/-- The stored files of the record with this id, as a lookup reads it. -/
def Database.storedNames (db : Database) (id : Int) : List CString :=
  match db.file? id with
  | none => []
  | some row => (readColumns row).storedNames

section AllOrNothing
variable (env : Externals) (w : World) (id : Int) (msgLen : Nat)

/-- Everything that belongs to the record is as it was before. -/
def RecordUntouched (after : World) : Prop :=
  after.db.file? id = w.db.file? id ∧ after.db.receipt? id = w.db.receipt? id ∧
    ∀ name ∈ w.db.storedNames id, after.storage name = w.storage name

def RecordGone (after : World) : Prop :=
  after.db.file? id = none ∧ after.db.receipt? id = none ∧
    ∀ name ∈ w.db.storedNames id, after.storage name = none

def DeleteAllOrNothing : Prop :=
  let after := doDeleteFile env w id msgLen
  (after.2.rc = -1 → RecordUntouched w id after.1) ∧ (after.2.rc = 0 → RecordGone w id after.1)

/-- The delete call for this name of the record is done. -/
def RemovalDone (rec : FileRecord) (name : CString) : Prop :=
  name = rec.savedFileName ∧ env.deleteSaved = .done ∨
    name = rec.ocrFileName ∧ env.deleteOcr = .done

instance (rec : FileRecord) (name : CString) : Decidable (RemovalDone env rec name) := by
  unfold RemovalDone
  infer_instance

/-- Each stored file that exists is removed exactly when the row is. -/
def RemovalsAgree : Prop :=
  env.findById = .ok → ∀ row, w.db.file? id = some row →
    ∀ name ∈ (readColumns row).storedNames, w.storage name ≠ none →
      (RemovalDone env (readColumns row) name ↔ env.deleteRow = .ok)

variable {env w id}

theorem FileRecord.mem_storedNames {rec : FileRecord} {name : CString} :
    name ∈ rec.storedNames ↔
      (name = rec.savedFileName ∨ name = rec.ocrFileName) ∧ name.bytes ≠ [] := by
  simp [FileRecord.storedNames]

theorem Database.storedNames_of_row {db : Database} {row : FileRecord}
    (h : db.file? id = some row) : db.storedNames id = (readColumns row).storedNames := by
  simp only [Database.storedNames, h]

theorem discard_storage_of_stored {rec : FileRecord} {name : CString}
    (h : name ∈ rec.storedNames) :
    (w.discard env id rec).storage name =
      if RemovalDone env rec name then none else w.storage name := by
  obtain ⟨_, hne⟩ := FileRecord.mem_storedNames.mp h
  -- A file under the empty name is never asked for, and `name` is not empty.
  have step (outcome : RemoveOutcome) (storage : Storage) (target : CString) :
      (if target.bytes.isEmpty then storage
        else (localDeleteFile outcome storage target).1) name =
        if name = target ∧ outcome = .done then none else storage name := by
    by_cases hempty : target.bytes = []
    · have hother : name ≠ target := by
        rintro rfl
        exact hne hempty
      simp [hempty, hother]
    · simp only [List.isEmpty_iff, hempty, if_false]
      exact localDeleteFile_apply outcome storage target name
  simp only [World.discard, RemovalDone]
  rw [step, step]
  by_cases hocr : name = rec.ocrFileName ∧ env.deleteOcr = .done
  · simp only [hocr, and_self, if_true, or_true]
  · simp only [hocr, if_false, or_false]

theorem discard_file? (rec : FileRecord) :
    (w.discard env id rec).db.file? id =
      if env.deleteRow = .ok then none else w.db.file? id := by
  simp only [World.discard, sqliteDeleteFile_file?, and_true]

theorem discard_receipt? (rec : FileRecord) :
    (w.discard env id rec).db.receipt? id =
      if env.deleteRow = .ok then none else w.db.receipt? id := by
  simp only [World.discard, sqliteDeleteFile_receipt?, and_true]

theorem doDeleteFile_rc_of_row {row : FileRecord} (hok : env.findById = .ok)
    (hrow : w.db.file? id = some row) :
    (doDeleteFile env w id msgLen).2.rc = if env.deleteRow = .ok then 0 else -1 := by
  have hfound : sqliteFindById env.findById w.db id = .found (readColumns row) :=
    sqliteFindById_found.mpr ⟨hok, row, hrow, rfl⟩
  simp only [doDeleteFile, hfound, sqliteDeleteFile]
  by_cases hdelete : env.deleteRow = .ok
  · simp [hdelete, hrow]
  · simp [hdelete]

theorem doDeleteFile_rc_of_no_row
    (h : ¬ (env.findById = .ok ∧ ∃ row, w.db.file? id = some row)) :
    (doDeleteFile env w id msgLen).2.rc = -1 := by
  simp only [doDeleteFile]
  split
  · next rec hfound =>
      obtain ⟨hok, row, hrow, _⟩ := sqliteFindById_found.mp hfound
      exact absurd ⟨hok, row, hrow⟩ h
  · rfl

/-- With a record found, the answer tells the truth about a file that exists exactly when the
file is removed along with the row. -/
theorem deleteAllOrNothing_of_row_iff {row : FileRecord} (hok : env.findById = .ok)
    (hrow : w.db.file? id = some row) :
    DeleteAllOrNothing env w id msgLen ↔
      ∀ name ∈ (readColumns row).storedNames, w.storage name ≠ none →
        (RemovalDone env (readColumns row) name ↔ env.deleteRow = .ok) := by
  simp only [DeleteAllOrNothing, doDeleteFile_rc_of_row msgLen hok hrow,
    doDeleteFile_of_row msgLen hok hrow, RecordUntouched, RecordGone, discard_file?, discard_receipt?,
    Database.storedNames_of_row hrow]
  by_cases hdelete : env.deleteRow = .ok
  · simp only [hdelete, if_true, iff_true, true_and, true_imp_iff]
    constructor
    · rintro ⟨_, hgone⟩ name hname hthere
      by_contra hkept
      have := hgone name hname
      rw [discard_storage_of_stored hname, if_neg hkept] at this
      exact hthere this
    · intro hdone
      refine ⟨fun h => absurd h (by decide), fun name hname => ?_⟩
      rw [discard_storage_of_stored hname]
      by_cases hthere : w.storage name = none
      · rw [hthere, ite_self]
      · rw [if_pos (hdone name hname hthere)]
  · simp only [hdelete, if_false, iff_false, true_and, true_imp_iff]
    constructor
    · rintro ⟨hsame, _⟩ name hname hthere hdone
      have := hsame name hname
      rw [discard_storage_of_stored hname, if_pos hdone] at this
      exact hthere this.symm
    · intro hkept
      refine ⟨fun name hname => ?_, fun h => absurd h (by decide)⟩
      rw [discard_storage_of_stored hname]
      by_cases hthere : w.storage name = none
      · rw [hthere, ite_self]
      · rw [if_neg (hkept name hname hthere)]

end AllOrNothing

/-- A delete is all or nothing exactly when the outcome of the row is the outcome of every file
the record has in the storage. -/
theorem deleteAllOrNothing_iff (env : Externals) (w : World) (id : Int) (msgLen : Nat) :
    DeleteAllOrNothing env w id msgLen ↔ RemovalsAgree env w id := by
  by_cases hfound : env.findById = .ok ∧ ∃ row, w.db.file? id = some row
  · obtain ⟨hok, row, hrow⟩ := hfound
    rw [deleteAllOrNothing_of_row_iff msgLen hok hrow]
    constructor
    · intro h _ other hother
      obtain rfl := Option.some.inj (hrow.symm.trans hother)
      exact h
    · exact fun h => h hok row hrow
  · refine iff_of_true ⟨fun _ => ?_, fun hzero => ?_⟩ (fun hok row hrow => ?_)
    · rw [doDeleteFile_of_no_row msgLen hfound]
      exact ⟨rfl, rfl, fun _ _ => rfl⟩
    · rw [doDeleteFile_rc_of_no_row msgLen hfound] at hzero
      exact absurd hzero (by decide)
    · exact absurd ⟨hok, row, hrow⟩ hfound

/-- Whatever was uploaded, a delete whose row fails after the image went says "failed" of a
record that has lost its image. -/
theorem not_deleteAllOrNothing_of_stored {p : Processor} {env : Externals} {w : World}
    {originalName : CString} {data : List UInt8} {replyLen : ℕ+} {answers : Externals}
    (hskip : ¬ Skipped p env w data replyLen) (hacc : Accepted p env w originalName data)
    (hfind : answers.findById = .ok) (hremoved : answers.deleteSaved = .done)
    (hkept : answers.deleteRow ≠ .ok) (msgLen : Nat) :
    ¬ DeleteAllOrNothing answers (processorHandleFile p env w originalName data replyLen).1
      (w.db.filesSeq + 1) msgLen := by
  rw [processorHandleFile_of_not_skipped p env w originalName data replyLen hskip]
  obtain ⟨rec, hfound, _, hidentity⟩ := hacc.record replyLen
  obtain ⟨_, row, hrow, rfl⟩ := dbRepoFindById_eq_ok.mp hfound
  have hsaved : (readColumns row).savedFileName = p.savedName env originalName := by
    have := congrArg FileIdentity.savedFileName hidentity
    simpa [FileRecord.identity, readColumns, Processor.uploadRow, insertedRow, dbRepoRecord]
      using this
  have hnamed : p.savedName env originalName ∈ (readColumns row).storedNames := by
    obtain ⟨stem, ext, hname, hbytes⟩ := savedName_bytes p env originalName
    obtain ⟨init, b, rfl, _⟩ := hname.endsInDigit
    exact FileRecord.mem_storedNames.mpr ⟨Or.inl hsaved.symm, by simp [hbytes]⟩
  rw [deleteAllOrNothing_of_row_iff msgLen hfind hrow]
  intro h
  obtain ⟨contents, hcontents⟩ := hacc.1.exists_contents
  have hthere := (hacc.storage_savedName replyLen).trans hcontents
  exact hkept ((h _ hnamed (by simp [hthere])).mp (Or.inl ⟨hsaved.symm, hremoved⟩))

/-- The row of the first upload cannot be deleted, and its image is gone all the same. -/
theorem failed_delete_loses_image :
    ¬ DeleteAllOrNothing { Externals.working 60 (lit "") (lit "") with deleteRow := .stepFailed }
      firstUpload.1 1 maxReplyLen :=
  not_deleteAllOrNothing_of_stored firstUpload_accepted.1 firstUpload_accepted.2 rfl rfl
    (by decide) maxReplyLen

end Kaufbot
