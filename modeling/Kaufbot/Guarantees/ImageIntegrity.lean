import Kaufbot.Guarantees.Operations

/-!
Stored-image integrity over runs of uploads. The name of an image has a
resolution of one second, the file is written before the row is inserted, and
the write overwrites; so the images are intact exactly as long as no upload
that gets past the duplicate check lands on the name of another content.
-/

namespace Kaufbot

open CString Runs

/-- Under every record's name lie bytes with the record's hash. -/
def Intact (w : World) : Prop :=
  ∀ row ∈ w.db.files, ∃ content, w.storage row.savedFileName = some content ∧
    storageSha256Hex content = row.fileHash

structure Upload where
  originalName : CString
  data : List UInt8
  env : Externals

def uploadStep (p : Processor) (replyLen : ℕ+) (w : World) (u : Upload) : World :=
  (processorHandleFile p u.env w u.originalName u.data replyLen).1

/-- Unless it is skipped as a duplicate, the upload finds its name free, or taken by records of
the same content. -/
def NameFree (p : Processor) (replyLen : ℕ+) (w : World) (u : Upload) : Prop :=
  ¬ Skipped p u.env w u.data replyLen →
    ∀ row ∈ w.db.files, row.savedFileName = p.savedName u.env u.originalName →
      row.fileHash = storageSha256Hex u.data

theorem intact_of_identities {w w' : World}
    (hrows : w'.db.files.map FileRecord.identity = w.db.files.map FileRecord.identity)
    (hstorage : ∀ row ∈ w.db.files, w'.storage row.savedFileName = w.storage row.savedFileName) :
    Intact w' ↔ Intact w := by
  have transfer {a b : World}
      (hrows : b.db.files.map FileRecord.identity = a.db.files.map FileRecord.identity)
      (hstorage : ∀ row ∈ a.db.files, b.storage row.savedFileName = a.storage row.savedFileName)
      (h : Intact a) : Intact b := by
    intro row hrow
    obtain ⟨old, hold, hidentity⟩ := exists_row_of_identities hrows.symm hrow
    have hname : old.savedFileName = row.savedFileName :=
      congrArg FileIdentity.savedFileName hidentity
    have hhash : old.fileHash = row.fileHash := congrArg FileIdentity.fileHash hidentity
    obtain ⟨content, hcontent, hsha⟩ := h old hold
    refine ⟨content, ?_, hsha.trans hhash⟩
    rw [← hname, hstorage old hold, hcontent]
  refine ⟨transfer hrows.symm fun row hrow => ?_, transfer hrows hstorage⟩
  obtain ⟨old, hold, hidentity⟩ := exists_row_of_identities hrows.symm hrow
  have hname : old.savedFileName = row.savedFileName :=
    congrArg FileIdentity.savedFileName hidentity
  rw [← hname, hstorage old hold]

section Step
variable {p : Processor} {replyLen : ℕ+} {w : World} {u : Upload}

theorem intact_put_iff {name : CString} {data : List UInt8} (h : Intact w) :
    Intact { w with storage := w.storage.put name data } ↔
      ∀ row ∈ w.db.files, row.savedFileName = name → row.fileHash = storageSha256Hex data := by
  constructor
  · rintro hput row hrow rfl
    obtain ⟨content, hcontent, hsha⟩ := hput row hrow
    have same : some data = some content := (Storage.put_same ..).symm.trans hcontent
    rw [← hsha, Option.some.inj same]
  · intro hname row hrow
    by_cases heq : row.savedFileName = name
    · refine ⟨data, ?_, (hname row hrow heq).symm⟩
      rw [← heq]
      exact Storage.put_same ..
    · obtain ⟨content, hcontent, hsha⟩ := h row hrow
      exact ⟨content, (Storage.put_of_ne _ _ heq).trans hcontent, hsha⟩

/-- The image that is stored with its row is not touched by the reading of it. -/
theorem intact_stored (hfits : w.Fits) (h : Intact w)
    (hacc : Accepted p u.env w u.originalName u.data) {db : Database}
    (hfiles : db.files = w.db.files ++ [p.uploadRow u.env w u.originalName u.data]) (ask : Request) :
    Intact (World.analyse
      { w with db := db, storage := w.storage.put (p.savedName u.env u.originalName) u.data }
      u.env (w.db.filesSeq + 1)
      (storageOcrFilename (p.savedName u.env u.originalName) maxFilename) ask) := by
  obtain ⟨stem, ext, hname, hbytes⟩ := savedName_bytes p u.env u.originalName
  have hsaved : (p.uploadRow u.env w u.originalName u.data).savedFileName =
      p.savedName u.env u.originalName := snprintf_savedName p u.env u.originalName
  have hhash : (p.uploadRow u.env w u.originalName u.data).fileHash = storageSha256Hex u.data :=
    snprintf_storageSha256Hex u.data
  rw [intact_of_identities (World.analyse_identities _ u.env _ _ _)]
  · intro row hrow
    rcases List.mem_append.mp (hfiles ▸ hrow) with hold | hnew
    · obtain ⟨content, hcontent, hsha⟩ := h row hold
      have hne := (hacc.2.2.2 row hold).1
      exact ⟨content, (Storage.put_of_ne _ _ hne).trans hcontent, hsha⟩
    · obtain rfl := List.mem_singleton.mp hnew
      refine ⟨u.data, ?_, hhash.symm⟩
      rw [hsaved]
      exact Storage.put_same ..
  · intro row hrow
    apply World.analyse_storage_of_ne
    rcases List.mem_append.mp (hfiles ▸ hrow) with hold | hnew
    · obtain ⟨stem', ext', hname', hbytes'⟩ := (hfits row hold).named
      exact (storageOcrFilename_ne_savedName hname hbytes hname' hbytes').symm
    · obtain rfl := List.mem_singleton.mp hnew
      rw [hsaved]
      exact (storageOcrFilename_ne_savedName hname hbytes hname hbytes).symm

theorem intact_accepted (hsave : u.env.saveFile = .complete) (hfits : w.Fits) (h : Intact w)
    (hacc : Accepted p u.env w u.originalName u.data) :
    Intact (processorStoreFile p u.env w u.originalName u.data (storageSha256Hex u.data)
      replyLen).1 := by
  obtain ⟨db, hfiles, _, _, hworld, _⟩ :=
    processorStoreFile_of_accepted p u.env w u.originalName u.data replyLen hacc
  rw [hworld, hsave, localSaveFile_complete]
  exact intact_stored hfits h hacc hfiles _

theorem intact_uploadStep_iff (hsave : u.env.saveFile = .complete) (hfits : w.Fits)
    (h : Intact w) : Intact (uploadStep p replyLen w u) ↔ NameFree p replyLen w u := by
  by_cases hskip : Skipped p u.env w u.data replyLen
  · refine iff_of_true ?_ (fun hnot => absurd hskip hnot)
    obtain ⟨existing, hfound, hgo⟩ := hskip
    rw [uploadStep,
      processorHandleFile_of_skipped p u.env w u.originalName u.data replyLen hfound hgo]
    exact h
  · rw [uploadStep,
      processorHandleFile_of_not_skipped p u.env w u.originalName u.data replyLen hskip]
    by_cases hacc : Accepted p u.env w u.originalName u.data
    · refine iff_of_true (intact_accepted hsave hfits h hacc) (fun _ row hrow heq => ?_)
      exact absurd heq (hacc.2.2.2 row hrow).1
    · rw [(processorStoreFile_of_not_accepted p u.env w u.originalName u.data replyLen hacc).1,
        hsave, localSaveFile_complete, intact_put_iff h]
      simp only [NameFree, hskip, not_false_eq_true, true_imp_iff]

end Step

/-- From the empty state, every image stays intact exactly when every upload finds its name
free. -/
theorem intact_always_iff (p : Processor) (replyLen : ℕ+) (uploads : List Upload)
    (hsave : ∀ u ∈ uploads, u.env.saveFile = .complete) :
    Always (uploadStep p replyLen) Intact .empty uploads ↔
      Guarded (uploadStep p replyLen) (NameFree p replyLen) .empty uploads :=
  always_iff_guarded World.Fits (fun u => u.env.saveFile = .complete)
    (fun _ u h => h.upload u.originalName u.data replyLen)
    (fun _ _ hu hfits h => intact_uploadStep_iff hu hfits h)
    .empty uploads hsave World.empty_fits (fun _ h => absurd h List.not_mem_nil)

/-- Two photos sent within one second. -/
def burst : List Upload :=
  [{ originalName := lit "photo.jpg", data := [1], env := .working 0 (lit "A") (lit "\x7b\x7d") },
   { originalName := lit "photo.jpg", data := [2], env := .working 0 (lit "B") (lit "\x7b\x7d") }]

theorem intact_always_iff_burst :
    Always (uploadStep localProcessor 4096) Intact .empty burst ↔
      Guarded (uploadStep localProcessor 4096) (NameFree localProcessor 4096) .empty burst :=
  intact_always_iff localProcessor 4096 burst (by simp [burst, Externals.working])

set_option maxRecDepth 100000 in
/-- The second photo replaces the bytes of the first, whose record stays. -/
theorem burst_replaces_image : ¬ Always (uploadStep localProcessor 4096) Intact .empty burst := by
  intro h
  have intact := (always_iff_prefixes _ _ _ _).mp h burst List.prefix_rfl
  have replaced : ∃ row ∈ (run (uploadStep localProcessor 4096) .empty burst).db.files,
      ((run (uploadStep localProcessor 4096) .empty burst).storage row.savedFileName).map
        storageSha256Hex ≠ some row.fileHash := by
    decide +kernel
  obtain ⟨row, hrow, hne⟩ := replaced
  obtain ⟨content, hcontent, hsha⟩ := intact row hrow
  exact hne (by rw [hcontent, Option.map_some, hsha])

end Kaufbot
