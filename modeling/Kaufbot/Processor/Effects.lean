import Kaufbot.Processor.Pipeline

/-!
What each pipeline does to the world, said once. An upload is skipped, or it
writes the file and then fails or inserts a row; the OCR and parse steps after
that are the same for an upload and for a retry with a model. Every property of
the pipelines below is derived from these equations, never from their code.
-/

namespace Kaufbot

open CString

namespace World

/-- The text is written and the row is marked; neither failure stops the pipeline. -/
def recordText (w : World) (env : Externals) (id : Int) (ocrName text : CString) : World where
  db := (sqliteMarkOcrDone env.markOcr env.markOcrTime w.db id ocrName).1
  storage := (localSaveText env.saveText w.storage ocrName text).1
  requests := w.requests

def recordParsed (w : World) (env : Externals) (id : Int) (json : CString) : World where
  db := (sqliteMarkParsingDone env.checkParsed env.writeParsed env.markParsingTime w.db id json).1
  storage := w.storage
  requests := w.requests

/-- Ask the service for the text, record it, ask for the receipt, record that. -/
def analyse (w : World) (env : Externals) (id : Int) (ocrName : CString) (ask : Request) : World :=
  match env.extract.accepted with
  | none => w.request ask
  | some text =>
      let w := ((w.request ask).recordText env id ocrName text).request (.parseReceipt text)
      match env.parse.accepted with
      | none => w
      | some json => w.recordParsed env id json

end World

def analysisExit (p : Processor) (env : Externals) : HandleExit :=
  match env.extract.accepted, env.parse.accepted with
  | none, _ => .ocrFailed
  | some _, none => .parseFailed
  | some _, some json => if (p.cjsonParse json).isSome then .summary else .invalidJson

/-- The hash is known and the strategy says to stop. -/
def Skipped (p : Processor) (env : Externals) (w : World) (data : List UInt8)
    (replyLen : ℕ+) : Prop :=
  ∃ existing, dbRepoFindByHash env.findByHash w.db (storageSha256Hex data) = .ok existing ∧
    (p.dupStrategy existing replyLen).1 = 0

/-- `save_file` reports success and the row is accepted. -/
def Accepted (p : Processor) (env : Externals) (w : World) (originalName : CString)
    (data : List UInt8) : Prop :=
  env.saveFile.Reported data ∧ env.insert = .ok ∧
    w.db.FreeFor (p.savedName env originalName) (storageSha256Hex data)

instance (p : Processor) (env : Externals) (w : World) (originalName : CString)
    (data : List UInt8) : Decidable (Accepted p env w originalName data) := by
  unfold Accepted
  infer_instance

def Processor.uploadRow (p : Processor) (env : Externals) (w : World) (originalName : CString)
    (data : List UInt8) : FileRecord :=
  insertedRow env.insertTime w.db
    (dbRepoRecord originalName (storageSha256Hex data) (p.savedName env originalName))

section Fits
variable (p : Processor) (env : Externals) (originalName : CString) (data : List UInt8)

theorem savedName_bytes :
    ∃ stem ext, SavedName stem ext ∧ (p.savedName env originalName).bytes = stem ++ ext := by
  obtain ⟨ext, hname, hbytes⟩ := storageGenFilename_savedName p.zone env.nameTime originalName
  exact ⟨_, ext, hname, hbytes⟩

@[simp] theorem snprintf_savedName :
    snprintf dbFilenameLen (p.savedName env originalName) = p.savedName env originalName := by
  obtain ⟨stem, ext, hname, hbytes⟩ := savedName_bytes p env originalName
  apply snprintf_of_length_lt
  rw [CString.length, hbytes]
  exact hname.fits

@[simp] theorem snprintf_storageSha256Hex :
    snprintf dbHashLen (storageSha256Hex data) = storageSha256Hex data := by
  apply snprintf_of_length_lt
  rw [length_storageSha256Hex]
  decide

end Fits

section Upload
variable (p : Processor) (env : Externals) (w : World) (originalName : CString)
  (data : List UInt8) (replyLen : ℕ+)

theorem processorHandleFile_of_skipped {existing : FileRecord}
    (h : dbRepoFindByHash env.findByHash w.db (storageSha256Hex data) = .ok existing)
    (hskip : (p.dupStrategy existing replyLen).1 = 0) :
    processorHandleFile p env w originalName data replyLen =
      (w, { outId := 0, reply := (p.dupStrategy existing replyLen).2, exit := .duplicate }) := by
  simp only [processorHandleFile, h, hskip, if_true]

theorem processorHandleFile_of_not_skipped (h : ¬ Skipped p env w data replyLen) :
    processorHandleFile p env w originalName data replyLen =
      processorStoreFile p env w originalName data (storageSha256Hex data) replyLen := by
  rcases fileRepoLookup_cases (sqliteFindByHash env.findByHash w.db (storageSha256Hex data)) with
    ⟨existing, hfound⟩ | habsent
  · change dbRepoFindByHash _ _ _ = _ at hfound
    have hgo : (p.dupStrategy existing replyLen).1 ≠ 0 := fun h0 => h ⟨existing, hfound, h0⟩
    simp only [processorHandleFile, hfound, hgo, if_false]
  · change dbRepoFindByHash _ _ _ = _ at habsent
    simp only [processorHandleFile, habsent]

/-- An upload that is not accepted has still written what it wrote. -/
theorem processorStoreFile_of_not_accepted (h : ¬ Accepted p env w originalName data) :
    (processorStoreFile p env w originalName data (storageSha256Hex data) replyLen).1 =
        { w with storage :=
            (localSaveFile env.saveFile w.storage (p.savedName env originalName) data).1 } ∧
      (processorStoreFile p env w originalName data (storageSha256Hex data) replyLen).2.outId = 0 ∧
      (processorStoreFile p env w originalName data (storageSha256Hex data) replyLen).2.exit =
        .saveFailed := by
  by_cases hsave :
      (localSaveFile env.saveFile w.storage (p.savedName env originalName) data).2 = 0
  · have hrefused : ¬ (env.insert = .ok ∧ w.db.FreeFor
        (snprintf dbFilenameLen (p.savedName env originalName))
        (snprintf dbHashLen (storageSha256Hex data))) := by
      simp only [snprintf_savedName, snprintf_storageSha256Hex]
      exact fun hins => h ⟨localSaveFile_eq_zero_iff.mp hsave, hins⟩
    simp [processorStoreFile, processorSaveFile, hsave, dbRepoInsert_of_refused hrefused]
  · simp [processorStoreFile, processorSaveFile, hsave]

theorem processorStoreFile_of_accepted (h : Accepted p env w originalName data) :
    ∃ db : Database, db.files = w.db.files ++ [p.uploadRow env w originalName data] ∧
      db.receipts = w.db.receipts ∧ db.receiptsSeq = w.db.receiptsSeq ∧
      (processorStoreFile p env w originalName data (storageSha256Hex data) replyLen).1 =
        World.analyse
          { w with
            db := db
            storage :=
              (localSaveFile env.saveFile w.storage (p.savedName env originalName) data).1 }
          env (w.db.filesSeq + 1) (storageOcrFilename (p.savedName env originalName) maxFilename)
          (.extractText data originalName) ∧
      (processorStoreFile p env w originalName data (storageSha256Hex data) replyLen).2.outId =
        w.db.filesSeq + 1 ∧
      (processorStoreFile p env w originalName data (storageSha256Hex data) replyLen).2.exit =
        analysisExit p env := by
  obtain ⟨hreported, hok, hfree⟩ := h
  have hsave : (localSaveFile env.saveFile w.storage (p.savedName env originalName) data).2 = 0 :=
    localSaveFile_eq_zero_iff.mpr hreported
  obtain ⟨db, hins, hfiles, _, hreceipts, hseq⟩ := dbRepoInsert_of_free env.insertTime
    originalName (storageSha256Hex data) (p.savedName env originalName) hok (by simpa using hfree)
  refine ⟨db, hfiles, hreceipts, hseq, ?_⟩
  simp only [processorStoreFile, processorSaveFile, hsave, hins, snprintf_savedName, ne_eq,
    not_true_eq_false, if_false, processorRunOcr, World.analyse, analysisExit]
  cases hextract : env.extract.accepted with
  | none => simp
  | some text =>
      simp only [processorParseReceipt]
      cases hparse : env.parse.accepted with
      | none => exact ⟨rfl, rfl, rfl⟩
      | some json =>
          cases hjson : p.cjsonParse json <;>
            simp [World.recordText, World.recordParsed, dbRepoMarkOcrComplete,
              dbRepoMarkParsingComplete, hjson]

/-- Any other way out has stored the upload, and the analysis decides which it is. -/
theorem accepted_of_exit
    (hdup : (processorHandleFile p env w originalName data replyLen).2.exit ≠ .duplicate)
    (hsave : (processorHandleFile p env w originalName data replyLen).2.exit ≠ .saveFailed) :
    ¬ Skipped p env w data replyLen ∧ Accepted p env w originalName data ∧
      (processorHandleFile p env w originalName data replyLen).2.exit = analysisExit p env := by
  have hskip : ¬ Skipped p env w data replyLen := by
    rintro ⟨existing, hfound, hskip⟩
    rw [processorHandleFile_of_skipped p env w originalName data replyLen hfound hskip] at hdup
    exact hdup rfl
  rw [processorHandleFile_of_not_skipped p env w originalName data replyLen hskip] at hsave ⊢
  by_cases hacc : Accepted p env w originalName data
  · obtain ⟨_, _, _, _, _, _, hexit⟩ :=
      processorStoreFile_of_accepted p env w originalName data replyLen hacc
    exact ⟨hskip, hacc, hexit⟩
  · exact absurd
      (processorStoreFile_of_not_accepted p env w originalName data replyLen hacc).2.2 hsave

/-- An upload is accepted and analysed, or it changes no row. -/
theorem processorHandleFile_cases :
    (processorHandleFile p env w originalName data replyLen).1.db = w.db ∨
    ¬ Skipped p env w data replyLen ∧ Accepted p env w originalName data ∧
      ∃ db : Database, db.files = w.db.files ++ [p.uploadRow env w originalName data] ∧
        (processorHandleFile p env w originalName data replyLen).1 =
          World.analyse
            { w with
              db := db
              storage :=
                (localSaveFile env.saveFile w.storage (p.savedName env originalName) data).1 }
            env (w.db.filesSeq + 1) (storageOcrFilename (p.savedName env originalName) maxFilename)
            (.extractText data originalName) := by
  by_cases hskip : Skipped p env w data replyLen
  · obtain ⟨existing, hfound, hgo⟩ := hskip
    rw [processorHandleFile_of_skipped p env w originalName data replyLen hfound hgo]
    exact Or.inl rfl
  · rw [processorHandleFile_of_not_skipped p env w originalName data replyLen hskip]
    by_cases hacc : Accepted p env w originalName data
    · obtain ⟨db, hfiles, _, _, hworld, _⟩ :=
        processorStoreFile_of_accepted p env w originalName data replyLen hacc
      exact Or.inr ⟨hskip, hacc, db, hfiles, hworld⟩
    · rw [(processorStoreFile_of_not_accepted p env w originalName data replyLen hacc).1]
      exact Or.inl rfl

end Upload

section Retry
variable (p : Processor) (env : Externals) (w : World) (id : Int) (model : CString)
  (replyLen : ℕ+)

/-- A retry finds the record and its text and gets a receipt, or it changes no stored thing. -/
theorem processorRetryOcr_cases :
    ((processorRetryOcr p env w id replyLen).2.rc = -1 ∧
      (processorRetryOcr p env w id replyLen).1.db = w.db ∧
      (processorRetryOcr p env w id replyLen).1.storage = w.storage) ∨
    ∃ row text json, w.db.file? id = some row ∧ (readColumns row).ocrFileName ≠ .empty ∧
      env.parse.accepted = some json ∧
      (processorRetryOcr p env w id replyLen).2.rc = 0 ∧
      (processorRetryOcr p env w id replyLen).1 =
        (w.request (.parseReceipt text)).recordParsed env id json := by
  cases hfind : dbRepoFindById env.findById w.db id with
  | error e => exact Or.inl (by simp [processorRetryOcr, hfind])
  | ok rec =>
      obtain ⟨_, row, hrow, hrec⟩ := dbRepoFindById_eq_ok.mp hfind
      by_cases hname : rec.ocrFileName.bytes = []
      · exact Or.inl (by simp [processorRetryOcr, hfind, hname])
      · cases htext : localReadText env.readText w.storage rec.ocrFileName with
        | none => exact Or.inl (by simp [processorRetryOcr, hfind, hname, htext])
        | some text =>
            cases hparse : env.parse.accepted with
            | none => exact Or.inl (by simp [processorRetryOcr, hfind, hname, htext, hparse])
            | some json =>
                refine Or.inr ⟨row, text, json, hrow, ?_, rfl, ?_⟩
                · intro hempty
                  apply hname
                  rw [← hrec, hempty]
                  rfl
                · simp only [processorRetryOcr, hfind, hname, htext, hparse, List.isEmpty_iff,
                    if_false]
                  cases p.cjsonParse json <;> exact ⟨rfl, rfl⟩

def retryImage : Option (FileRecord × List UInt8) :=
  match dbRepoFindById env.findById w.db id with
  | .error _ => none
  | .ok rec =>
      let data := (localReadBinary env.readBinary w.storage rec.savedFileName).getD []
      if data.isEmpty then none else some (rec, data)

variable {env w id} in
theorem file?_of_retryImage {rec : FileRecord} {data : List UInt8}
    (h : retryImage env w id = some (rec, data)) :
    ∃ row, w.db.file? id = some row ∧ readColumns row = rec := by
  cases hfind : dbRepoFindById env.findById w.db id with
  | error e => simp [retryImage, hfind] at h
  | ok found =>
      obtain ⟨_, row, hrow, hrec⟩ := dbRepoFindById_eq_ok.mp hfind
      obtain ⟨_, rfl, _⟩ : _ ∧ found = rec ∧ _ := by simpa [retryImage, hfind] using h
      exact ⟨row, hrow, hrec⟩

theorem processorRetryOcrWithModel_of_no_image (h : retryImage env w id = none) :
    (processorRetryOcrWithModel p env w id model replyLen).2.rc = -1 ∧
      (processorRetryOcrWithModel p env w id model replyLen).1 = w := by
  cases hfind : dbRepoFindById env.findById w.db id with
  | error e => simp [processorRetryOcrWithModel, hfind]
  | ok rec =>
      have hempty :
          (localReadBinary env.readBinary w.storage rec.savedFileName).getD [] = [] := by
        simpa [retryImage, hfind] using h
      simp [processorRetryOcrWithModel, hfind, hempty]

theorem processorRetryOcrWithModel_of_image {rec : FileRecord} {data : List UInt8}
    (h : retryImage env w id = some (rec, data)) :
    ((processorRetryOcrWithModel p env w id model replyLen).2.rc = 0 ↔
        env.extract.accepted.isSome ∧ env.parse.accepted.isSome) ∧
      (processorRetryOcrWithModel p env w id model replyLen).1 =
        w.analyse env id (storageOcrFilename rec.savedFileName maxFilename)
          (.extractTextWithModel data rec.originalFileName model) := by
  obtain ⟨row, hrow, hcolumns⟩ := file?_of_retryImage h
  have hid : rec.id = id := by
    rw [← hcolumns]
    exact (Database.file?_eq_some.mp hrow).2
  cases hfind : dbRepoFindById env.findById w.db id with
  | error e => simp [retryImage, hfind] at h
  | ok found =>
      obtain ⟨hne, rfl, hdata⟩ :
          (localReadBinary env.readBinary w.storage found.savedFileName).getD [] ≠ [] ∧
            found = rec ∧
            (localReadBinary env.readBinary w.storage found.savedFileName).getD [] = data := by
        simpa [retryImage, hfind] using h
      rw [hdata] at hne
      simp only [processorRetryOcrWithModel, hfind, hdata, List.isEmpty_iff, hne, if_false,
        World.analyse]
      cases hextract : env.extract.accepted with
      | none => simp
      | some text =>
          cases hparse : env.parse.accepted with
          | none => simp [hid, World.recordText, dbRepoMarkOcrComplete]
          | some json =>
              cases hjson : p.cjsonParse json <;>
                simp [hid, World.recordText, World.recordParsed, dbRepoMarkOcrComplete,
                  dbRepoMarkParsingComplete, hjson]

/-- There are two answers. -/
theorem processorRetryOcrWithModel_failed_iff :
    (processorRetryOcrWithModel p env w id model replyLen).2.rc = -1 ↔
      ¬ (processorRetryOcrWithModel p env w id model replyLen).2.rc = 0 := by
  simp only [processorRetryOcrWithModel]
  cases dbRepoFindById env.findById w.db id with
  | error e => simp
  | ok rec =>
      simp only
      split
      · simp
      · cases env.extract.accepted with
        | none => simp
        | some text =>
            cases env.parse.accepted with
            | none => simp
            | some json =>
                simp only
                cases p.cjsonParse json <;> simp

end Retry

/-- The columns no statement rewrites once a row is inserted. -/
structure FileIdentity where
  id : Int
  originalFileName : CString
  fileSizeBytes : Int
  savedFileName : CString
  fileHash : CString
deriving DecidableEq

def FileRecord.identity (row : FileRecord) : FileIdentity where
  id := row.id
  originalFileName := row.originalFileName
  fileSizeBytes := row.fileSizeBytes
  savedFileName := row.savedFileName
  fileHash := row.fileHash

theorem markedRow_identity (outcome : SqlOutcome) (now id : Int) (name : CString)
    (row : FileRecord) : (markedRow outcome now id name row).identity = row.identity := by
  simp only [markedRow]
  split <;> rfl

theorem exists_row_of_identities {rows rows' : List FileRecord}
    (h : rows'.map FileRecord.identity = rows.map FileRecord.identity) {row : FileRecord}
    (hrow : row ∈ rows) : ∃ row' ∈ rows', row'.identity = row.identity := by
  have hmem : row.identity ∈ rows'.map FileRecord.identity := by
    rw [h]
    exact List.mem_map_of_mem hrow
  exact List.mem_map.mp hmem

namespace World

section Analyse
variable (w : World) (env : Externals) (id : Int) (ocrName : CString) (ask : Request)

theorem analyse_files :
    (w.analyse env id ocrName ask).db.files =
      if env.extract.accepted.isSome then
        w.db.files.map (markedRow env.markOcr env.markOcrTime id ocrName)
      else w.db.files := by
  simp only [analyse]
  cases env.extract.accepted with
  | none => rfl
  | some text =>
      cases env.parse.accepted <;>
        simp [recordText, recordParsed, sqliteMarkOcrDone_files]

theorem analyse_identities :
    (w.analyse env id ocrName ask).db.files.map FileRecord.identity =
      w.db.files.map FileRecord.identity := by
  rw [analyse_files]
  split
  · simp only [List.map_map, Function.comp_def, markedRow_identity]
  · rfl

theorem analyse_storage :
    (w.analyse env id ocrName ask).storage =
      match env.extract.accepted with
      | none => w.storage
      | some text => (localSaveText env.saveText w.storage ocrName text).1 := by
  simp only [analyse]
  cases env.extract.accepted with
  | none => rfl
  | some text => cases env.parse.accepted <;> rfl

theorem analyse_storage_of_ne {name : CString} (h : name ≠ ocrName) :
    (w.analyse env id ocrName ask).storage name = w.storage name := by
  rw [analyse_storage]
  cases env.extract.accepted with
  | none => rfl
  | some text => exact localSaveFile_of_ne h

theorem analyse_file?_of_ne {j : Int} (h : j ≠ id) :
    (w.analyse env id ocrName ask).db.file? j = w.db.file? j := by
  simp only [analyse]
  cases env.extract.accepted with
  | none => rfl
  | some text =>
      cases env.parse.accepted <;>
        simp [recordText, recordParsed, sqliteMarkOcrDone_file?_of_ne _ _ _ _ _ h]

theorem analyse_receipt?_of_ne {j : Int} (h : j ≠ id) :
    (w.analyse env id ocrName ask).db.receipt? j = w.db.receipt? j := by
  simp only [analyse]
  cases env.extract.accepted with
  | none => rfl
  | some text =>
      cases env.parse.accepted <;>
        simp [recordText, recordParsed, sqliteMarkParsingDone_receipt?_of_ne _ _ _ _ _ _ h]

end Analyse

end World

end Kaufbot
