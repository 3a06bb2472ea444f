import Kaufbot.Guarantees.Operations

/-!
"OCR done" and the text it promises, over runs of all operations and every
pattern of failures. The text is written and the row is marked by two calls
that do not look at each other, and a delete removes the text before the row;
the exact condition on a step says which of their answers keep the promise.
The text last extracted for a record is kept as a ghost next to the world.
-/

namespace Kaufbot

open CString Runs

/-- If the row is marked as done, it names a text that reads back as the one last extracted. -/
def RowTextThere (storage : Storage) (last : Int → Option CString) (row : FileRecord) : Prop :=
  row.isOcrProcessed = 1 →
    row.ocrFileName ≠ .empty ∧ ∃ text, last row.id = some text ∧
      localReadText .complete storage row.ocrFileName = some text

def OcrTextThere (w : World) (last : Int → Option CString) : Prop :=
  ∀ row ∈ w.db.files, RowTextThere w.storage last row

/-- A world and the text last extracted for each id. -/
structure Traced where
  world : World
  last : Int → Option CString

def Traced.empty : Traced := { world := .empty, last := fun _ => none }

def FileOp.extracted (p : Processor) (env : Externals) (w : World) (replyLen : ℕ+) :
    FileOp → Option (Int × CString)
  | .upload originalName data =>
      let result := (processorHandleFile p env w originalName data replyLen).2
      if 0 < result.outId then env.extract.accepted.map (fun text => (result.outId, text)) else none
  | .retryWithModel id _ =>
      if (retryImage env w id).isSome then env.extract.accepted.map (fun text => (id, text))
      else none
  | _ => none

def noteText (last : Int → Option CString) : Option (Int × CString) → Int → Option CString
  | none, j => last j
  | some (id, text), j => if j = id then some text else last j

@[simp] theorem noteText_none (last : Int → Option CString) : noteText last none = last := rfl

def tracedStep (p : Processor) (replyLen : ℕ+) (s : Traced) (op : FileOp × Externals) :
    Traced where
  world := fileStep p replyLen s.world op
  last := noteText s.last (op.1.extracted p op.2 s.world replyLen)

/-- The text is not empty and is written in full, or its file cannot be opened and reads as the
text already. -/
def TextArrives (env : Externals) (old : Option (List UInt8)) (text : CString) : Prop :=
  match env.saveText.contents text.bytes with
  | some written => written = text.bytes ∧ written ≠ []
  | none => ∃ bytes, old = some bytes ∧ bytes ≠ [] ∧ ofBytes bytes = text

/-- What a write puts in the place of the old contents reads as they did. -/
def TextUnchanged (env : Externals) (old : Option (List UInt8)) (text : CString) : Prop :=
  ∀ written, env.saveText.contents text.bytes = some written →
    written ≠ [] ∧ ∃ bytes, old = some bytes ∧ ofBytes bytes = ofBytes written

/-- If the row is or becomes done its text arrives, and no other done record of that text name
gets another text. -/
def TextWritten (env : Externals) (w : World) (id : Int) (done : Prop)
    (ocrName text : CString) : Prop :=
  (env.markOcr = .ok ∨ done → TextArrives env (w.storage ocrName) text) ∧
    ∀ row ∈ w.db.files, row.id ≠ id → row.isOcrProcessed = 1 → row.ocrFileName = ocrName →
      TextUnchanged env (w.storage ocrName) text

/-- The text file goes only together with the row, and only if no other done record names it. -/
def TextReleased (env : Externals) (w : World) (row : FileRecord) : Prop :=
  env.deleteOcr = .done → ∀ other ∈ w.db.files, other.isOcrProcessed = 1 →
    other.ocrFileName = row.ocrFileName → other.id = row.id ∧ env.deleteRow = .ok

/-- The condition on one step. -/
def TextKept (p : Processor) (replyLen : ℕ+) (w : World) (op : FileOp × Externals) : Prop :=
  match op with
  | (.upload originalName data, env) =>
      ¬ Skipped p env w data replyLen → Accepted p env w originalName data →
        ∀ text, env.extract.accepted = some text →
          TextWritten env w (w.db.filesSeq + 1) False
            (storageOcrFilename (p.savedName env originalName) maxFilename) text
  | (.retry _, _) => True
  | (.retryWithModel id _, env) =>
      ∀ found, retryImage env w id = some found → ∀ text, env.extract.accepted = some text →
        TextWritten env w id (found.1.isOcrProcessed = 1)
          (storageOcrFilename found.1.savedFileName maxFilename) text
  | (.delete id, env) =>
      env.findById = .ok → ∀ row, w.db.file? id = some row → TextReleased env w row

section Reading
variable {storage storage' : Storage} {name text : CString} {env : Externals}

theorem localReadText_congr (outcome : ReadOutcome) (h : storage name = storage' name) :
    localReadText outcome storage name = localReadText outcome storage' name := by
  simp only [localReadText, h]

theorem localSaveText_same (outcome : WriteOutcome) :
    (localSaveText outcome storage name text).1 name =
      (outcome.contents text.bytes).or (storage name) := by
  simp only [localSaveText, localSaveFile]
  cases outcome.contents text.bytes with
  | none => rfl
  | some written => exact Storage.put_same ..

theorem localReadText_eq_some :
    localReadText .complete storage name = some text ↔
      ∃ bytes, storage name = some bytes ∧ bytes ≠ [] ∧ ofBytes bytes = text := by
  cases h : storage name with
  | none => simp [localReadText, h]
  | some bytes =>
      by_cases hempty : bytes = [] <;> simp [localReadText, h, hempty, ReadOutcome.delivered]

/-- What a write leaves of a text has no NUL either. -/
theorem ofBytes_written {outcome : WriteOutcome} {written : List UInt8}
    (h : outcome.contents text.bytes = some written) : (ofBytes written).bytes = written := by
  have nulFree : 0 ∉ written := fun hzero => text.nulFree (outcome.contents_subset h hzero)
  exact congrArg CString.bytes (ofBytes_bytes ⟨written, nulFree⟩)

theorem localSaveText_own_iff :
    localReadText .complete (localSaveText env.saveText storage name text).1 name = some text ↔
      TextArrives env (storage name) text := by
  rw [localReadText_eq_some, localSaveText_same, TextArrives]
  cases hcontents : env.saveText.contents text.bytes with
  | none => simp only [Option.none_or]
  | some written =>
      have whole := ofBytes_written hcontents
      simp only [Option.some_or, Option.some.injEq, exists_eq_left']
      constructor
      · rintro ⟨hne, rfl⟩
        exact ⟨whole.symm, hne⟩
      · rintro ⟨rfl, hne⟩
        exact ⟨hne, ofBytes_bytes text⟩

/-- Another text under the same name survives the write exactly when it reads the same. -/
theorem localSaveText_other_iff {before : CString}
    (hbefore : localReadText .complete storage name = some before) :
    localReadText .complete (localSaveText env.saveText storage name text).1 name =
        localReadText .complete storage name ↔
      TextUnchanged env (storage name) text := by
  rw [hbefore, localReadText_eq_some, localSaveText_same, TextUnchanged]
  obtain ⟨old, hold, hne, rfl⟩ := localReadText_eq_some.mp hbefore
  cases env.saveText.contents text.bytes with
  | none => simp [hold, hne]
  | some written => simp [hold, eq_comm]

end Reading

section Rows
variable {storage storage' : Storage} {last : Int → Option CString} {row other : FileRecord}
  {text : CString}

theorem rowTextThere_congr (hname : storage' row.ocrFileName = storage row.ocrFileName)
    (h : RowTextThere storage last row) : RowTextThere storage' last row := by
  intro hdone
  rw [localReadText_congr .complete hname]
  exact h hdone

theorem rowTextThere_own_iff (storage : Storage) (last : Int → Option CString)
    (text : CString) (hfits : RecordFits row) (outcome : SqlOutcome) (now : Int) :
    RowTextThere storage (noteText last (some (row.id, text)))
        (markedRow outcome now row.id (storageOcrFilename row.savedFileName maxFilename) row) ↔
      (outcome = .ok ∨ row.isOcrProcessed = 1 →
        localReadText .complete storage (storageOcrFilename row.savedFileName maxFilename) =
          some text) := by
  have named := hfits.ocrName_ne_empty
  by_cases hok : outcome = .ok
  · simp [RowTextThere, markedRow, hok, FileRecord.markOcrDone, noteText, named]
  · rcases hfits.text with ⟨hzero, _⟩ | ⟨hone, hname⟩
    · simp [RowTextThere, markedRow, hok, hzero]
    · simp [RowTextThere, markedRow, hok, hone, hname, noteText, named]

/-- A row that owned a readable text before keeps it exactly when its text name still reads the
same. -/
theorem rowTextThere_other_iff (storage' : Storage) (ocrName text : CString) (hid : other.id ≠ row.id)
    (h : RowTextThere storage last other)
    (hstorage : ∀ name, name ≠ ocrName → storage' name = storage name) :
    RowTextThere storage' (noteText last (some (row.id, text))) other ↔
      (other.isOcrProcessed = 1 → other.ocrFileName = ocrName →
        localReadText .complete storage' ocrName = localReadText .complete storage ocrName) := by
  constructor
  · rintro hafter hdone rfl
    obtain ⟨_, now, hnow, hread⟩ := hafter hdone
    obtain ⟨_, before, hbefore, hreadBefore⟩ := h hdone
    rw [noteText, if_neg hid, hbefore] at hnow
    rw [hread, hreadBefore, hnow]
  · intro hsame hdone
    obtain ⟨hempty, before, hbefore, hread⟩ := h hdone
    refine ⟨hempty, before, by rw [noteText, if_neg hid, hbefore], ?_⟩
    by_cases heq : other.ocrFileName = ocrName
    · rw [heq, hsame hdone heq, ← heq, hread]
    · rw [localReadText_congr .complete (hstorage _ heq), hread]

end Rows

section Analyse
variable {env : Externals} {w : World} {last : Int → Option CString} {row : FileRecord}
  {text : CString}

/-- The analysis of a record that extracts a text keeps the promise exactly when the text is
written as `TextWritten` says. -/
theorem ocrTextThere_analyse_iff (hfits : w.Fits) (h : OcrTextThere w last)
    (hrow : row ∈ w.db.files) (hextract : env.extract.accepted = some text) (ask : Request) :
    OcrTextThere
        (w.analyse env row.id (storageOcrFilename row.savedFileName maxFilename) ask)
        (noteText last (some (row.id, text))) ↔
      TextWritten env w row.id (row.isOcrProcessed = 1)
        (storageOcrFilename row.savedFileName maxFilename) text := by
  let ocrName := storageOcrFilename row.savedFileName maxFilename
  let after := (localSaveText env.saveText w.storage ocrName text).1
  have own := rowTextThere_own_iff after last text (hfits row hrow) env.markOcr env.markOcrTime
  rw [localSaveText_own_iff] at own
  have others (other : FileRecord) (hother : other ∈ w.db.files) (hid : other.id ≠ row.id) :
      RowTextThere after (noteText last (some (row.id, text))) other ↔
        (other.isOcrProcessed = 1 → other.ocrFileName = ocrName →
          TextUnchanged env (w.storage ocrName) text) := by
    rw [rowTextThere_other_iff after ocrName text hid (h other hother)
      (fun name hne => localSaveFile_of_ne hne)]
    refine forall_congr' fun hdone => forall_congr' fun hname => ?_
    obtain ⟨_, before, _, hread⟩ := h other hother hdone
    rw [hname] at hread
    exact localSaveText_other_iff hread
  simp only [OcrTextThere, World.analyse_files, World.analyse_storage, hextract,
    Option.isSome_some, if_true, List.forall_mem_map, TextWritten]
  constructor
  · intro hafter
    refine ⟨own.mp (hafter row hrow), fun other hother hid hdone hname => ?_⟩
    have := hafter other hother
    rw [markedRow_of_ne _ _ _ _ hid] at this
    exact (others other hother hid).mp this hdone hname
  · rintro ⟨hown, hothers⟩ other hother
    by_cases hid : other.id = row.id
    · obtain rfl := w.db.schema.fileIds.eq_of_key_eq hother hrow hid
      exact own.mpr hown
    · rw [markedRow_of_ne _ _ _ _ hid]
      exact (others other hother hid).mpr (fun hdone hname => hothers other hother hid hdone hname)

end Analyse

section Step
variable {p : Processor} {env : Externals} {w : World} {last : Int → Option CString}
  {replyLen : ℕ+}

theorem ocrTextThere_image (p : Processor) (env : Externals) (hfits : w.Fits)
    (h : OcrTextThere w last) (originalName : CString) (outcome : WriteOutcome)
    (data : List UInt8) :
    ∀ row ∈ w.db.files, RowTextThere
      (localSaveFile outcome w.storage (p.savedName env originalName) data).1 last row := by
  intro row hrow
  obtain ⟨stem, ext, hname, hbytes⟩ := savedName_bytes p env originalName
  intro hdone
  have hne : row.ocrFileName ≠ p.savedName env originalName := by
    rcases (hfits row hrow).text with ⟨hzero, _⟩ | ⟨_, hocr⟩
    · omega
    · obtain ⟨stem', ext', hname', hbytes'⟩ := (hfits row hrow).named
      rw [hocr]
      exact storageOcrFilename_ne_savedName hname' hbytes' hname hbytes
  exact rowTextThere_congr (localSaveFile_of_ne hne) (h row hrow) hdone

theorem textWritten_stored_iff {db : Database} {originalName : CString} {data : List UInt8}
    {text : CString}
    (hfiles : db.files = w.db.files ++ [p.uploadRow env w originalName data]) :
    TextWritten env
        { w with
          db := db
          storage := (localSaveFile env.saveFile w.storage (p.savedName env originalName) data).1 }
        (w.db.filesSeq + 1) ((p.uploadRow env w originalName data).isOcrProcessed = 1)
        (storageOcrFilename (p.savedName env originalName) maxFilename) text ↔
      TextWritten env w (w.db.filesSeq + 1) False
        (storageOcrFilename (p.savedName env originalName) maxFilename) text := by
  obtain ⟨stem, ext, hname, hbytes⟩ := savedName_bytes p env originalName
  have same : (localSaveFile env.saveFile w.storage (p.savedName env originalName) data).1
      (storageOcrFilename (p.savedName env originalName) maxFilename) =
        w.storage (storageOcrFilename (p.savedName env originalName) maxFilename) :=
    localSaveFile_of_ne (storageOcrFilename_ne_savedName hname hbytes hname hbytes)
  have fresh : ¬ (p.uploadRow env w originalName data).isOcrProcessed = 1 :=
    show ¬ (0 : Int) = 1 by decide
  simp only [TextWritten, same, hfiles, List.forall_mem_append, List.forall_mem_singleton, fresh]
  simp

/-- The new row is not marked, so storing it promises nothing. -/
theorem ocrTextThere_stored (hfits : w.Fits) (h : OcrTextThere w last) {db : Database}
    {originalName : CString} {data : List UInt8}
    (hfiles : db.files = w.db.files ++ [p.uploadRow env w originalName data]) :
    OcrTextThere { w with
      db := db
      storage :=
        (localSaveFile env.saveFile w.storage (p.savedName env originalName) data).1 } last := by
  have old := ocrTextThere_image p env hfits h originalName env.saveFile data
  simp only [OcrTextThere, hfiles, List.forall_mem_append, List.forall_mem_singleton]
  exact ⟨old, fun hdone => absurd (show (0 : Int) = 1 from hdone) (by decide)⟩

theorem ocrTextThere_accepted_iff (hfits : w.Fits) (h : OcrTextThere w last)
    {originalName : CString} {data : List UInt8} (hacc : Accepted p env w originalName data) :
    OcrTextThere
        (processorStoreFile p env w originalName data (storageSha256Hex data) replyLen).1
        (noteText last (env.extract.accepted.map (fun text => (w.db.filesSeq + 1, text)))) ↔
      ∀ text, env.extract.accepted = some text →
        TextWritten env w (w.db.filesSeq + 1) False
          (storageOcrFilename (p.savedName env originalName) maxFilename) text := by
  obtain ⟨db, hfiles, _, _, hworld, _⟩ :=
    processorStoreFile_of_accepted p env w originalName data replyLen hacc
  have hrow : p.uploadRow env w originalName data ∈ db.files := by simp [hfiles]
  have hname : (p.uploadRow env w originalName data).savedFileName =
      p.savedName env originalName := snprintf_savedName p env originalName
  have hstored := ocrTextThere_stored hfits h hfiles
  rw [hworld]
  cases hextract : env.extract.accepted with
  | none => simpa [World.analyse, hextract, OcrTextThere] using hstored
  | some text =>
      have step := ocrTextThere_analyse_iff (hfits.stored hfiles _) hstored hrow hextract
        (.extractText data originalName)
      rw [hname] at step
      simp only [Option.map_some, Option.some.injEq, forall_eq']
      exact step.trans (textWritten_stored_iff hfiles)

theorem ocrTextThere_upload_iff (hfits : w.Fits) (h : OcrTextThere w last)
    (originalName : CString) (data : List UInt8) :
    OcrTextThere (processorHandleFile p env w originalName data replyLen).1
        (noteText last ((FileOp.upload originalName data).extracted p env w replyLen)) ↔
      TextKept p replyLen w (.upload originalName data, env) := by
  by_cases hskip : Skipped p env w data replyLen
  · refine iff_of_true ?_ (fun hnot => absurd hskip hnot)
    obtain ⟨existing, hfound, hgo⟩ := hskip
    simpa [FileOp.extracted,
      processorHandleFile_of_skipped p env w originalName data replyLen hfound hgo]
      using h
  · simp only [FileOp.extracted, TextKept,
      processorHandleFile_of_not_skipped p env w originalName data replyLen hskip]
    by_cases hacc : Accepted p env w originalName data
    · obtain ⟨_, _, _, _, _, hid, _⟩ :=
        processorStoreFile_of_accepted p env w originalName data replyLen hacc
      have hpos : 0 < w.db.filesSeq + 1 := by
        have := w.db.schema.filesSeq
        omega
      rw [hid, if_pos hpos, ocrTextThere_accepted_iff hfits h hacc]
      simp only [hskip, hacc, not_false_eq_true, true_imp_iff]
    · obtain ⟨hworld, hid, _⟩ :=
        processorStoreFile_of_not_accepted p env w originalName data replyLen hacc
      rw [hworld, hid]
      refine iff_of_true ?_ (fun _ hyes => absurd hyes hacc)
      exact ocrTextThere_image p env hfits h originalName env.saveFile data

theorem ocrTextThere_retryWithModel_iff (hfits : w.Fits) (h : OcrTextThere w last) (id : Int)
    (model : CString) :
    OcrTextThere (processorRetryOcrWithModel p env w id model replyLen).1
        (noteText last ((FileOp.retryWithModel id model).extracted p env w replyLen)) ↔
      TextKept p replyLen w (.retryWithModel id model, env) := by
  cases himage : retryImage env w id with
  | none =>
      rw [(processorRetryOcrWithModel_of_no_image p env w id model replyLen himage).2]
      refine iff_of_true ?_ (fun found hfound => absurd (himage.symm.trans hfound) (by simp))
      simpa [FileOp.extracted, himage] using h
  | some found =>
      obtain ⟨rec, data⟩ := found
      obtain ⟨row, hrow, hrec⟩ := file?_of_retryImage himage
      obtain ⟨hmem, rfl⟩ := Database.file?_eq_some.mp hrow
      obtain rfl : row = rec := (hfits row hmem).columns.symm.trans hrec
      rw [(processorRetryOcrWithModel_of_image p env w row.id model replyLen himage).2]
      simp only [FileOp.extracted, himage, Option.isSome_some, if_true, TextKept,
        Option.some.injEq, forall_eq']
      cases hextract : env.extract.accepted with
      | none => simpa [World.analyse, hextract, OcrTextThere] using h
      | some text =>
          simp only [Option.map_some, Option.some.injEq, forall_eq']
          exact ocrTextThere_analyse_iff hfits h hmem hextract _

theorem ocrTextThere_retry (h : OcrTextThere w last) (id : Int) :
    OcrTextThere (processorRetryOcr p env w id replyLen).1 last := by
  rcases processorRetryOcr_cases p env w id replyLen with
    ⟨_, hdb, hstorage⟩ | ⟨_, text, json, _, _, _, _, hworld⟩
  · simpa only [OcrTextThere, hdb, hstorage] using h
  · simpa [OcrTextThere, hworld, World.recordParsed] using h

/-- A removed text is gone for every record that names it. -/
theorem discard_storage_ocrFileName {row : FileRecord} (hempty : row.ocrFileName ≠ .empty)
    (hdone : env.deleteOcr = .done) (id : Int) :
    (w.discard env id row).storage row.ocrFileName = none := by
  have hbytes : row.ocrFileName.bytes ≠ [] := fun h => hempty (CString.ext h)
  simp only [World.discard, hdone, List.isEmpty_iff, hbytes, if_false]
  exact localDeleteFile_done_same ..

theorem discard_storage_of_kept {row : FileRecord} {name : CString}
    (hsaved : name ≠ row.savedFileName) (h : env.deleteOcr = .done → name ≠ row.ocrFileName)
    (id : Int) : (w.discard env id row).storage name = w.storage name := by
  cases hocr : env.deleteOcr with
  | done => exact World.discard_storage_of_ne hsaved (Or.inr (h hocr))
  | failed =>
      simp only [World.discard, hocr, localDeleteFile]
      split <;> split <;> first | rfl | exact localDeleteFile_of_ne hsaved

theorem ocrTextThere_discard_iff (hfits : w.Fits) (h : OcrTextThere w last) {row : FileRecord}
    (hrow : row ∈ w.db.files) :
    OcrTextThere (w.discard env row.id row) last ↔ TextReleased env w row := by
  have files : (w.discard env row.id row).db.files =
      if env.deleteRow = .ok then w.db.files.filter (fun other => other.id ≠ row.id)
      else w.db.files := sqliteDeleteFile_files ..
  constructor
  · intro hafter hocr other hother hdone hname
    by_contra hkept
    have hmem : other ∈ (w.discard env row.id row).db.files := by
      rw [files]
      split
      · next hok =>
          have hne : other.id ≠ row.id := fun heq => hkept ⟨heq, hok⟩
          exact List.mem_filter.mpr ⟨hother, by simpa using hne⟩
      · exact hother
    obtain ⟨hempty, text, _, hread⟩ := hafter other hmem hdone
    rw [hname] at hempty hread
    simp [localReadText, discard_storage_ocrFileName hempty hocr] at hread
  · intro hreleased other hother
    have hmem : other ∈ w.db.files := by
      rw [files] at hother
      split at hother
      · exact List.mem_of_mem_filter hother
      · exact hother
    intro hdone
    refine rowTextThere_congr (discard_storage_of_kept
      ((hfits other hmem).ocrFileName_ne_savedName (hfits row hrow)) ?_ _) (h other hmem) hdone
    intro hocr hname
    obtain ⟨hid, hok⟩ := hreleased hocr other hmem hdone hname
    rw [files, if_pos hok] at hother
    exact absurd hid (by simpa using (List.mem_filter.mp hother).2)

theorem ocrTextThere_delete_iff (hfits : w.Fits) (h : OcrTextThere w last) (id : Int) :
    OcrTextThere (doDeleteFile env w id replyLen).1 last ↔
      TextKept p replyLen w (.delete id, env) := by
  by_cases hfound : env.findById = .ok ∧ ∃ row, w.db.file? id = some row
  · obtain ⟨hok, row, hrow⟩ := hfound
    obtain ⟨hmem, rfl⟩ := Database.file?_eq_some.mp hrow
    rw [doDeleteFile_of_row replyLen hok hrow, (hfits row hmem).columns]
    simp only [TextKept, hok, hrow, Option.some.injEq, forall_eq', true_imp_iff]
    exact ocrTextThere_discard_iff hfits h hmem
  · rw [doDeleteFile_of_no_row replyLen hfound]
    exact iff_of_true h (fun hok row hrow => absurd ⟨hok, row, hrow⟩ hfound)

theorem ocrTextThere_step_iff (s : Traced) (op : FileOp × Externals) (hfits : s.world.Fits)
    (h : OcrTextThere s.world s.last) :
    OcrTextThere (tracedStep p replyLen s op).world (tracedStep p replyLen s op).last ↔
      TextKept p replyLen s.world op := by
  obtain ⟨op, env⟩ := op
  cases op with
  | upload originalName data => exact ocrTextThere_upload_iff hfits h originalName data
  | retry id => exact iff_of_true (ocrTextThere_retry h id) trivial
  | retryWithModel id model => exact ocrTextThere_retryWithModel_iff hfits h id model
  | delete id => exact ocrTextThere_delete_iff hfits h id

end Step

/-- Along a run from the empty state, every record marked as done has its text exactly as long
as every step meets its condition. -/
theorem ocrTextThere_always_iff (p : Processor) (replyLen : ℕ+)
    (ops : List (FileOp × Externals)) :
    Always (tracedStep p replyLen) (fun s => OcrTextThere s.world s.last) .empty ops ↔
      Guarded (tracedStep p replyLen) (fun s op => TextKept p replyLen s.world op) .empty ops :=
  always_iff_guarded (fun s : Traced => s.world.Fits) (fun _ => True)
    (fun _ op hfits => hfits.fileStep op)
    (fun s op _ hfits h => ocrTextThere_step_iff s op hfits h)
    Traced.empty ops (fun _ _ => trivial) World.empty_fits
    (fun _ hrow => absurd hrow List.not_mem_nil)

def uploadWithoutText : List (FileOp × Externals) :=
  [(.upload (lit "receipt.jpg") [1],
    { Externals.working 0 (lit "MILK 1.00") (lit "\x7b\x7d") with saveText := .openFailed })]

set_option maxRecDepth 100000 in
/-- The row is marked as done all the same, and there is nothing to read. -/
theorem uploadWithoutText_marked_done :
    ¬ Always (tracedStep localProcessor 4096) (fun s => OcrTextThere s.world s.last) .empty
      uploadWithoutText := by
  intro h
  have there := (always_iff_prefixes _ _ _ _).mp h uploadWithoutText List.prefix_rfl
  have missing : ∃ row ∈
      (run (tracedStep localProcessor 4096) .empty uploadWithoutText).world.db.files,
      row.isOcrProcessed = 1 ∧ localReadText .complete
        (run (tracedStep localProcessor 4096) .empty uploadWithoutText).world.storage
        row.ocrFileName = none := by
    decide +kernel
  obtain ⟨row, hrow, hdone, hnone⟩ := missing
  obtain ⟨_, text, _, hread⟩ := there row hrow hdone
  exact absurd (hnone.symm.trans hread) (by simp)

end Kaufbot
