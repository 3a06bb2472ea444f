import Kaufbot.Guarantees.Operations

/-!
Cross-record isolation over runs of all operations. The database keeps the
names of the images apart, but nothing keeps the names of the texts apart:
these drop the extension. As long as no upload is stored under the text name of
another record, whatever is done to one record leaves every other one alone.
-/

namespace Kaufbot

open CString Keyed Runs

/-- The record an operation is about; an upload is about none that exists. -/
def FileOp.target : FileOp → Option Int
  | .upload _ _ => none
  | .retry id => some id
  | .retryWithModel id _ => some id
  | .delete id => some id

structure Untouched (w w' : World) (row : FileRecord) : Prop where
  file : w'.db.file? row.id = w.db.file? row.id
  receipt : w'.db.receipt? row.id = w.db.receipt? row.id
  image : w'.storage row.savedFileName = w.storage row.savedFileName
  text : w'.storage row.ocrFileName = w.storage row.ocrFileName

/-- Whatever is done to one record, with whatever answers, leaves the others untouched. -/
def Isolated (p : Processor) (replyLen : ℕ+) (w : World) : Prop :=
  ∀ i ∈ w.db.files, ∀ j ∈ w.db.files, i ≠ j → ∀ (op : FileOp) (env : Externals),
    op.target = some i.id → Untouched w (op.apply p env w replyLen) j

def FileRecord.ocrName (row : FileRecord) : CString :=
  storageOcrFilename row.savedFileName maxFilename

/-- An upload that stores a record derives a text name no other record derives. -/
def OcrNameFree (p : Processor) (replyLen : ℕ+) (w : World) (op : FileOp × Externals) : Prop :=
  match op with
  | (.upload originalName data, env) =>
      ¬ Skipped p env w data replyLen → Accepted p env w originalName data →
        ∀ row ∈ w.db.files,
          row.ocrName ≠ storageOcrFilename (p.savedName env originalName) maxFilename
  | _ => True

def World.OcrNamesUnique (w : World) : Prop := UniqueOn FileRecord.ocrName w.db.files

theorem ocrNamesUnique_of_identities {w w' : World}
    (hrows : w'.db.files.map FileRecord.identity = w.db.files.map FileRecord.identity)
    (h : w.OcrNamesUnique) : w'.OcrNamesUnique := by
  have names := congrArg (List.map fun identity : FileIdentity =>
    storageOcrFilename identity.savedFileName maxFilename) hrows
  simp only [List.map_map] at names
  change (w'.db.files.map FileRecord.ocrName) = w.db.files.map FileRecord.ocrName at names
  simpa only [World.OcrNamesUnique, UniqueOn, names] using h

section Step
variable {p : Processor} {replyLen : ℕ+} {env : Externals} {w : World} {i j : FileRecord}

theorem RecordFits.ocrFileName_ne (h : RecordFits j) {name : CString} (hempty : name ≠ .empty)
    (hne : j.ocrName ≠ name) : j.ocrFileName ≠ name := by
  rcases h.text with ⟨_, hnone⟩ | ⟨_, hname⟩
  · rw [hnone]
    exact hempty.symm
  · rw [hname]
    exact hne

theorem untouched_retry (hij : j.id ≠ i.id) :
    Untouched w (processorRetryOcr p env w i.id replyLen).1 j := by
  rcases processorRetryOcr_cases p env w i.id replyLen with
    ⟨_, hdb, hstorage⟩ | ⟨_, text, json, _, _, _, _, hworld⟩
  · exact ⟨by rw [hdb], by rw [hdb], by rw [hstorage], by rw [hstorage]⟩
  · rw [hworld]
    exact ⟨sqliteMarkParsingDone_file? .., sqliteMarkParsingDone_receipt?_of_ne _ _ _ _ _ _ hij,
      rfl, rfl⟩

theorem untouched_analyse (hij : j.id ≠ i.id) (hi : RecordFits i) (hj : RecordFits j)
    (hne : j.ocrName ≠ i.ocrName) (ask : Request) :
    Untouched w (w.analyse env i.id i.ocrName ask) j where
  file := w.analyse_file?_of_ne env i.id i.ocrName ask hij
  receipt := w.analyse_receipt?_of_ne env i.id i.ocrName ask hij
  image := w.analyse_storage_of_ne env i.id i.ocrName ask (hi.ocrName_ne_savedName hj).symm
  text := w.analyse_storage_of_ne env i.id i.ocrName ask
    (hj.ocrFileName_ne hi.ocrName_ne_empty hne)

theorem untouched_retryWithModel (himem : i ∈ w.db.files) (hij : j.id ≠ i.id) (hi : RecordFits i)
    (hj : RecordFits j) (hne : j.ocrName ≠ i.ocrName) (model : CString) :
    Untouched w (processorRetryOcrWithModel p env w i.id model replyLen).1 j := by
  cases himage : retryImage env w i.id with
  | none =>
      rw [(processorRetryOcrWithModel_of_no_image p env w i.id model replyLen himage).2]
      exact ⟨rfl, rfl, rfl, rfl⟩
  | some found =>
      obtain ⟨rec, data⟩ := found
      obtain ⟨row, hrow, hrec⟩ := file?_of_retryImage himage
      rw [Database.file?_eq_some.mpr ⟨himem, rfl⟩, Option.some_inj] at hrow
      obtain rfl := hrow
      obtain rfl : i = rec := hi.columns.symm.trans hrec
      rw [(processorRetryOcrWithModel_of_image p env w i.id model replyLen himage).2]
      exact untouched_analyse hij hi hj hne _

theorem untouched_delete (himem : i ∈ w.db.files) (hjmem : j ∈ w.db.files) (hij : j.id ≠ i.id)
    (hi : RecordFits i) (hj : RecordFits j) (hne : j.ocrName ≠ i.ocrName) :
    Untouched w (doDeleteFile env w i.id replyLen).1 j := by
  by_cases hfound : env.findById = .ok ∧ ∃ row, w.db.file? i.id = some row
  · have hrow : w.db.file? i.id = some i := Database.file?_eq_some.mpr ⟨himem, rfl⟩
    rw [doDeleteFile_of_row replyLen hfound.1 hrow, hi.columns]
    have saved : j.savedFileName ≠ i.savedFileName := fun heq => hij
      (congrArg FileRecord.id (w.db.schema.savedNames.eq_of_key_eq hjmem himem heq))
    refine ⟨sqliteDeleteFile_file?_of_ne _ _ _ hij, sqliteDeleteFile_receipt?_of_ne _ _ _ hij,
      World.discard_storage_of_ne saved ?_,
      World.discard_storage_of_ne (hj.ocrFileName_ne_savedName hi) ?_⟩
    · exact Or.inr (hi.ocrFileName_ne_savedName hj).symm
    · rcases hi.text with ⟨_, hempty⟩ | ⟨_, hname⟩
      · exact Or.inl hempty
      · right
        rw [hname]
        exact hj.ocrFileName_ne hi.ocrName_ne_empty hne
  · rw [doDeleteFile_of_no_row replyLen hfound]
    exact ⟨rfl, rfl, rfl, rfl⟩

theorem isolated_of_unique (hfits : w.Fits) (h : w.OcrNamesUnique) : Isolated p replyLen w := by
  intro i hi j hj hne op env htarget
  have hij : j.id ≠ i.id := fun heq => hne (w.db.schema.fileIds.eq_of_key_eq hi hj heq.symm)
  have names : j.ocrName ≠ i.ocrName := fun heq => hne (h.eq_of_key_eq hi hj heq.symm)
  cases op with
  | upload originalName data => exact absurd htarget (by simp [FileOp.target])
  | retry id =>
      obtain rfl : id = i.id := Option.some.inj htarget
      exact untouched_retry hij
  | retryWithModel id model =>
      obtain rfl : id = i.id := Option.some.inj htarget
      exact untouched_retryWithModel hi hij (hfits i hi) (hfits j hj) names model
  | delete id =>
      obtain rfl : id = i.id := Option.some.inj htarget
      exact untouched_delete hi hj hij (hfits i hi) (hfits j hj) names

theorem ocrNamesUnique_upload (h : w.OcrNamesUnique) {originalName : CString} {data : List UInt8}
    (hfree : OcrNameFree p replyLen w (.upload originalName data, env)) :
    (processorHandleFile p env w originalName data replyLen).1.OcrNamesUnique := by
  rcases processorHandleFile_cases p env w originalName data replyLen with
    hdb | ⟨hskip, hacc, db, hfiles, hworld⟩
  · simpa only [World.OcrNamesUnique, hdb] using h
  · rw [hworld]
    refine ocrNamesUnique_of_identities (World.analyse_identities _ env _ _ _) ?_
    simp only [World.OcrNamesUnique, hfiles]
    refine h.append _ (fun row hrow => ?_)
    have := hfree hskip hacc row hrow
    simpa [FileRecord.ocrName, Processor.uploadRow, insertedRow, dbRepoRecord] using this

theorem ocrNamesUnique_fileStep (h : w.OcrNamesUnique) (op : FileOp × Externals)
    (hfree : OcrNameFree p replyLen w op) : (fileStep p replyLen w op).OcrNamesUnique := by
  obtain ⟨op, env⟩ := op
  cases op with
  | upload originalName data => exact ocrNamesUnique_upload h hfree
  | retry id =>
      change (processorRetryOcr p env w id replyLen).1.OcrNamesUnique
      rcases processorRetryOcr_cases p env w id replyLen with
        ⟨_, hdb, _⟩ | ⟨_, _, _, _, _, _, _, hworld⟩
      · simpa only [World.OcrNamesUnique, hdb] using h
      · simpa [World.OcrNamesUnique, hworld, World.recordParsed] using h
  | retryWithModel id model =>
      change (processorRetryOcrWithModel p env w id model replyLen).1.OcrNamesUnique
      cases himage : retryImage env w id with
      | none =>
          rw [(processorRetryOcrWithModel_of_no_image p env w id model replyLen himage).2]
          exact h
      | some found =>
          obtain ⟨rec, data⟩ := found
          rw [(processorRetryOcrWithModel_of_image p env w id model replyLen himage).2]
          exact ocrNamesUnique_of_identities (World.analyse_identities _ env _ _ _) h
  | delete id =>
      change (doDeleteFile env w id replyLen).1.OcrNamesUnique
      by_cases hfound : env.findById = .ok ∧ ∃ row, w.db.file? id = some row
      · obtain ⟨hok, row, hrow⟩ := hfound
        rw [doDeleteFile_of_row replyLen hok hrow]
        simp only [World.OcrNamesUnique, World.discard, sqliteDeleteFile_files]
        split
        · exact UniqueOn.filter h _
        · exact h
      · rw [doDeleteFile_of_no_row replyLen hfound]
        exact h

end Step

/-- In every run from the empty state whose uploads derive free text names, all records are
isolated from each other in every state reached. -/
theorem isolated_always (p : Processor) (replyLen : ℕ+) (ops : List (FileOp × Externals))
    (h : Guarded (fileStep p replyLen) (OcrNameFree p replyLen) .empty ops) :
    Always (fileStep p replyLen) (Isolated p replyLen) .empty ops := by
  refine always_of_guarded (fun w : World => w.Fits ∧ w.OcrNamesUnique)
    (fun w op inv hfree => ?_) (fun w inv => isolated_of_unique inv.1 inv.2) World.empty ops ?_ h
  · exact ⟨inv.1.fileStep op, ocrNamesUnique_fileStep inv.2 op hfree⟩
  · exact ⟨World.empty_fits, uniqueOn_nil _⟩

/-- A photo and its scan, uploaded a minute apart, and a retry of the first. -/
def spacedUploads : List (FileOp × Externals) :=
  [(.upload (lit "milk.jpg") [1], .working 0 (lit "A") (lit "\x7b\x7d")),
   (.upload (lit "milk.png") [2], .working 60 (lit "B") (lit "\x7b\x7d")),
   (.retry 1, .working 120 (lit "A") (lit "\x7b\x7d"))]

set_option maxRecDepth 100000 in
theorem isolated_always_spacedUploads :
    Always (fileStep localProcessor 4096) (Isolated localProcessor 4096) .empty spacedUploads := by
  refine isolated_always localProcessor 4096 spacedUploads ⟨?_, ?_, trivial, trivial⟩
  · exact fun _ _ row hrow => absurd hrow List.not_mem_nil
  · intro _ _
    decide +kernel

/-- The same photo and scan within one second. -/
def burstOfTwoKinds : List (FileOp × Externals) :=
  [(.upload (lit "milk.jpg") [1], .working 0 (lit "A") (lit "\x7b\x7d")),
   (.upload (lit "milk.png") [2], .working 0 (lit "B") (lit "\x7b\x7d"))]

set_option maxRecDepth 100000 in
/-- Their texts share one file, and deleting the photo takes the text of the scan with it. -/
theorem burst_not_isolated :
    ¬ Always (fileStep localProcessor 4096) (Isolated localProcessor 4096) .empty
      burstOfTwoKinds := by
  intro h
  have isolated := (always_iff_prefixes _ _ _ _).mp h burstOfTwoKinds List.prefix_rfl
  have taken : ∃ i ∈ (run (fileStep localProcessor 4096) .empty burstOfTwoKinds).db.files,
      ∃ j ∈ (run (fileStep localProcessor 4096) .empty burstOfTwoKinds).db.files, i ≠ j ∧
        ((FileOp.delete i.id).apply localProcessor (.working 1 (lit "") (lit ""))
          (run (fileStep localProcessor 4096) .empty burstOfTwoKinds) 4096).storage
            j.ocrFileName ≠
          (run (fileStep localProcessor 4096) .empty burstOfTwoKinds).storage j.ocrFileName := by
    decide +kernel
  obtain ⟨i, hi, j, hj, hne, hlost⟩ := taken
  exact hlost (isolated i hi j hj hne (.delete i.id) _ rfl).text

end Kaufbot
