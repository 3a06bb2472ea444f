import Kaufbot.Processor.Effects

/-!
What one upload promises whatever fails: that a failed one leaves nothing
behind, and that a stored one can be looked up as it was sent. The code keeps
the first only when the file it wrote was wanted or changed nothing, and the
second but for the size; both conditions are exact.
-/

namespace Kaufbot

open CString

section Cleanup
variable (p : Processor) (env : Externals) (w : World) (originalName : CString)
  (data : List UInt8) (replyLen : ℕ+)

/-- A call that ends with `*out_id = 0` has changed neither the files table nor the storage. -/
def LeavesNothingBehind : Prop :=
  (processorHandleFile p env w originalName data replyLen).2.outId = 0 →
    (processorHandleFile p env w originalName data replyLen).1.db.files = w.db.files ∧
      (processorHandleFile p env w originalName data replyLen).1.storage = w.storage

/-- What the write left under the generated name was there before. -/
def WriteChangesNothing : Prop :=
  ∀ written, env.saveFile.contents data = some written →
    w.storage (p.savedName env originalName) = some written

variable {p env w originalName data replyLen}

theorem Skipped.leavesNothingBehind (h : Skipped p env w data replyLen) :
    LeavesNothingBehind p env w originalName data replyLen := by
  obtain ⟨existing, hfound, hskip⟩ := h
  intro _
  rw [processorHandleFile_of_skipped p env w originalName data replyLen hfound hskip]
  exact ⟨rfl, rfl⟩

theorem not_skipped_of_fresh (h : ∀ row ∈ w.db.files, row.fileHash ≠ storageSha256Hex data) :
    ¬ Skipped p env w data replyLen := by
  rintro ⟨existing, hfound, _⟩
  obtain ⟨_, row, hrow, _⟩ := dbRepoFindByHash_eq_ok.mp hfound
  obtain ⟨hmem, hhash⟩ := Keyed.mem_of_lookup hrow
  exact h row hmem hhash

theorem Accepted.outId_pos (hskip : ¬ Skipped p env w data replyLen)
    (h : Accepted p env w originalName data) :
    0 < (processorHandleFile p env w originalName data replyLen).2.outId := by
  obtain ⟨_, _, _, _, _, hid, _⟩ :=
    processorStoreFile_of_accepted p env w originalName data replyLen h
  rw [processorHandleFile_of_not_skipped p env w originalName data replyLen hskip, hid]
  have := w.db.schema.filesSeq
  omega

theorem leavesNothingBehind_of_refused_iff (hskip : ¬ Skipped p env w data replyLen)
    (h : ¬ Accepted p env w originalName data) :
    LeavesNothingBehind p env w originalName data replyLen ↔
      WriteChangesNothing p env w originalName data := by
  obtain ⟨hworld, hid, _⟩ :=
    processorStoreFile_of_not_accepted p env w originalName data replyLen h
  simp only [LeavesNothingBehind, WriteChangesNothing,
    processorHandleFile_of_not_skipped p env w originalName data replyLen hskip, hworld, hid,
    true_and, true_imp_iff, localSaveFile]
  cases env.saveFile.contents data with
  | none => simp
  | some written => simp [Storage.put_eq_self_iff]

end Cleanup

/-- A failed upload leaves nothing behind exactly when it is skipped as a duplicate, is in fact
accepted, or wrote nothing new under the generated name. -/
theorem leavesNothingBehind_iff (p : Processor) (env : Externals) (w : World)
    (originalName : CString) (data : List UInt8) (replyLen : ℕ+) :
    LeavesNothingBehind p env w originalName data replyLen ↔
      Skipped p env w data replyLen ∨ Accepted p env w originalName data ∨
        WriteChangesNothing p env w originalName data := by
  by_cases hskip : Skipped p env w data replyLen
  · exact iff_of_true hskip.leavesNothingBehind (Or.inl hskip)
  · by_cases hacc : Accepted p env w originalName data
    · refine iff_of_true (fun hzero => ?_) (Or.inr (Or.inl hacc))
      have := hacc.outId_pos hskip
      omega
    · rw [leavesNothingBehind_of_refused_iff hskip hacc]
      simp only [hskip, hacc, false_or]

/-- The insert fails on an empty database, and the image stays in the storage without a row. -/
theorem failed_insert_leaves_orphan :
    ¬ LeavesNothingBehind localProcessor
      { Externals.working 0 (lit "MILK 1.00") (lit "\x7b\x7d") with insert := .stepFailed }
      World.empty (lit "receipt.jpg") [1, 2, 3] 4096 := by
  rw [leavesNothingBehind_of_refused_iff]
  · intro h
    exact absurd (h [1, 2, 3] rfl) (by simp [World.empty, Storage.empty])
  · exact not_skipped_of_fresh (fun row h => absurd h List.not_mem_nil)
  · rintro ⟨_, hok, _⟩
    exact absurd hok (by simp)

section Fidelity
variable (p : Processor) (env : Externals) (w : World) (originalName : CString)
  (data : List UInt8) (replyLen : ℕ+)

/-- Looked up by id and by hash, the record is the upload, and the storage holds its bytes. -/
def RecordFaithful : Prop :=
  let after := processorHandleFile p env w originalName data replyLen
  ∃ rec, dbRepoFindById .ok after.1.db after.2.outId = .ok rec ∧
    dbRepoFindByHash .ok after.1.db (storageSha256Hex data) = .ok rec ∧
    rec.originalFileName = snprintf dbOrigNameLen originalName ∧
    rec.fileSizeBytes = data.length ∧
    rec.fileHash = storageSha256Hex data ∧
    rec.savedFileName = p.savedName env originalName ∧
    after.1.storage rec.savedFileName = some data

variable {p env w originalName data}

theorem Accepted.record (h : Accepted p env w originalName data) :
    ∃ rec, dbRepoFindById .ok
        (processorStoreFile p env w originalName data (storageSha256Hex data) replyLen).1.db
        (w.db.filesSeq + 1) = .ok rec ∧
      dbRepoFindByHash .ok
        (processorStoreFile p env w originalName data (storageSha256Hex data) replyLen).1.db
        (storageSha256Hex data) = .ok rec ∧
      rec.identity = (readColumns (p.uploadRow env w originalName data)).identity := by
  obtain ⟨db, hfiles, _, _, hworld, _⟩ :=
    processorStoreFile_of_accepted p env w originalName data replyLen h
  rw [hworld]
  generalize hstored : ({ w with
    db := db
    storage :=
      (localSaveFile env.saveFile w.storage (p.savedName env originalName) data).1 } : World) = stored
  have hrow : p.uploadRow env w originalName data ∈ stored.db.files := by
    simp [← hstored, hfiles]
  obtain ⟨row, hmem, hidentity⟩ :=
    exists_row_of_identities (stored.analyse_identities env _ _ _) hrow
  have hid : row.id = w.db.filesSeq + 1 := congrArg FileIdentity.id hidentity
  have hhash : row.fileHash = storageSha256Hex data := by
    refine (congrArg FileIdentity.fileHash hidentity).trans ?_
    exact snprintf_storageSha256Hex data
  refine ⟨readColumns row, ?_, ?_, ?_⟩
  · exact dbRepoFindById_eq_ok.mpr ⟨rfl, row, Database.file?_eq_some.mpr ⟨hmem, hid⟩, rfl⟩
  · rw [dbRepoFindByHash_eq_ok]
    exact ⟨rfl, row, (Database.schema _).hashes.lookup_eq_some.mpr ⟨hmem, hhash⟩, rfl⟩
  · simp only [FileRecord.identity, FileIdentity.mk.injEq] at hidentity ⊢
    simp only [readColumns, hidentity, and_self]

/-- The analysis writes the text under another name, so the image stays what was written. -/
theorem Accepted.storage_savedName (h : Accepted p env w originalName data) :
    (processorStoreFile p env w originalName data (storageSha256Hex data) replyLen).1.storage
      (p.savedName env originalName) = env.saveFile.contents data := by
  obtain ⟨db, _, _, _, hworld, _⟩ :=
    processorStoreFile_of_accepted p env w originalName data replyLen h
  obtain ⟨stem, ext, hname, hbytes⟩ := savedName_bytes p env originalName
  rw [hworld, World.analyse_storage_of_ne]
  · obtain ⟨contents, hcontents⟩ := h.1.exists_contents
    simp only [localSaveFile, hcontents]
    exact Storage.put_same ..
  · exact (storageOcrFilename_ne_savedName hname hbytes hname hbytes).symm

theorem accepted_of_outId_pos
    (h : 0 < (processorHandleFile p env w originalName data replyLen).2.outId) :
    ¬ Skipped p env w data replyLen ∧ Accepted p env w originalName data := by
  have hskip : ¬ Skipped p env w data replyLen := by
    rintro ⟨existing, hfound, hskip⟩
    rw [processorHandleFile_of_skipped p env w originalName data replyLen hfound hskip] at h
    exact absurd h (by simp)
  refine ⟨hskip, ?_⟩
  by_contra hacc
  rw [processorHandleFile_of_not_skipped p env w originalName data replyLen hskip,
    (processorStoreFile_of_not_accepted p env w originalName data replyLen hacc).2.1] at h
  exact absurd h (by simp)

/-- `db_repo_insert` rebuilds the record without its size. -/
theorem recordFaithful_iff_of_accepted (hskip : ¬ Skipped p env w data replyLen)
    (h : Accepted p env w originalName data) :
    RecordFaithful p env w originalName data replyLen ↔ data = [] := by
  obtain ⟨rec, hbyId, hbyHash, hidentity⟩ := h.record replyLen
  obtain ⟨_, _, _, _, _, hid, _⟩ :=
    processorStoreFile_of_accepted p env w originalName data replyLen h
  simp only [FileRecord.identity, FileIdentity.mk.injEq, readColumns, Processor.uploadRow,
    insertedRow, dbRepoRecord, snprintf_snprintf, snprintf_savedName,
    snprintf_storageSha256Hex] at hidentity
  obtain ⟨_, horig, hsize, hsaved, hhash⟩ := hidentity
  simp only [RecordFaithful,
    processorHandleFile_of_not_skipped p env w originalName data replyLen hskip, hid]
  constructor
  · rintro ⟨rec', hbyId', _, _, hsize', _⟩
    obtain rfl : rec = rec' := Except.ok.inj (hbyId.symm.trans hbyId')
    rw [hsize] at hsize'
    exact List.length_eq_zero_iff.mp (Int.ofNat_eq_zero.mp hsize'.symm)
  · rintro rfl
    refine ⟨rec, hbyId, hbyHash, horig, hsize, hhash, hsaved, ?_⟩
    obtain ⟨contents, hcontents⟩ := h.1.exists_contents
    rw [hsaved, h.storage_savedName replyLen, hcontents]
    -- the beginning of nothing is nothing
    rw [List.prefix_nil.mp (WriteOutcome.contents_prefix hcontents)]

end Fidelity

/-- Whenever an upload is stored, its record is faithful exactly when the upload is empty. -/
theorem recordFaithful_iff (p : Processor) (env : Externals) (w : World)
    (originalName : CString) (data : List UInt8) (replyLen : ℕ+)
    (h : 0 < (processorHandleFile p env w originalName data replyLen).2.outId) :
    RecordFaithful p env w originalName data replyLen ↔ data = [] := by
  obtain ⟨hskip, hacc⟩ := accepted_of_outId_pos replyLen h
  exact recordFaithful_iff_of_accepted replyLen hskip hacc

def firstUpload : World × HandleResult :=
  processorHandleFile localProcessor (.working 0 (lit "MILK 1.00") (lit "\x7b\x7d")) .empty
    (lit "receipt.jpg") [1, 2, 3] 4096

theorem firstUpload_accepted :
    ¬ Skipped localProcessor (.working 0 (lit "MILK 1.00") (lit "\x7b\x7d")) .empty
        [1, 2, 3] 4096 ∧
      Accepted localProcessor (.working 0 (lit "MILK 1.00") (lit "\x7b\x7d")) .empty
        (lit "receipt.jpg") [1, 2, 3] :=
  ⟨not_skipped_of_fresh (fun row h => absurd h List.not_mem_nil), by decide⟩

theorem firstUpload_outId_pos : 0 < firstUpload.2.outId :=
  firstUpload_accepted.2.outId_pos firstUpload_accepted.1

theorem recordFaithful_iff_firstUpload :
    RecordFaithful localProcessor (.working 0 (lit "MILK 1.00") (lit "\x7b\x7d")) .empty
      (lit "receipt.jpg") [1, 2, 3] 4096 ↔ ([1, 2, 3] : List UInt8) = [] :=
  recordFaithful_iff _ _ _ _ _ _ firstUpload_outId_pos

theorem firstUpload_not_faithful :
    0 < firstUpload.2.outId ∧
      ¬ RecordFaithful localProcessor (.working 0 (lit "MILK 1.00") (lit "\x7b\x7d")) .empty
        (lit "receipt.jpg") [1, 2, 3] 4096 := by
  refine ⟨firstUpload_outId_pos, ?_⟩
  rw [recordFaithful_iff_of_accepted 4096 firstUpload_accepted.1 firstUpload_accepted.2]
  decide

end Kaufbot
