import Kaufbot.Guarantees.BotRuns
import Kaufbot.Guarantees.Deletion
import Kaufbot.Guarantees.FileEffects
import Kaufbot.Guarantees.Identifiers
import Kaufbot.Guarantees.ImageIntegrity
import Kaufbot.Library.Inventory

/-!
Tables and storage side by side. While the disk and the database do what they
are asked, the stored files are those of the records, whatever the services,
the clock and the users do: nothing is left behind by a refused upload, a
failed reading or a delete, and no record is left without a file. The file is
the record's own until an upload of another content takes its name.
-/

namespace Kaufbot

open CString Inventory Runs

/-- The calls that write do what they are asked; those that read, and the services, need not. -/
structure Externals.LocalWorks (env : Externals) : Prop where
  findByHash : env.findByHash = .ok
  findById : env.findById = .ok
  insert : env.insert = .ok
  markOcr : env.markOcr = .ok
  deleteRow : env.deleteRow = .ok
  saveFile : env.saveFile = .complete
  saveText : env.saveText = .complete
  deleteSaved : env.deleteSaved = .done
  deleteOcr : env.deleteOcr = .done

/-- The name the text is stored under, if there is one. -/
def FileRecord.textName (row : FileRecord) : Option CString :=
  if row.ocrFileName = .empty then none else some row.ocrFileName

/-- Every stored file is a record's, and there is one under every record's name. -/
def World.Reconciled (w : World) : Prop :=
  InOrder FileRecord.savedFileName FileRecord.textName w.db.files w.storage

theorem FileRecord.textName_eq_some {row : FileRecord} {name : CString} :
    row.textName = some name ↔ row.ocrFileName = name ∧ name ≠ .empty := by
  simp only [FileRecord.textName]
  split
  · next hempty =>
      refine ⟨fun h => absurd h (by simp), fun ⟨hname, hne⟩ => ?_⟩
      exact absurd (hname ▸ hempty) hne
  · next hne =>
      constructor
      · rintro h
        obtain rfl := Option.some.inj h
        exact ⟨rfl, hne⟩
      · rintro ⟨rfl, _⟩
        rfl

section Steps
variable {p : Processor} {env : Externals} {w w' : World} {id : Int}

theorem put_ne_none {storage : Storage} {name other : CString} {bytes : List UInt8}
    (h : storage other ≠ none) : storage.put name bytes other ≠ none := by
  by_cases hname : other = name
  · simp [hname]
  · rwa [Storage.put_of_ne _ _ hname]

/-- Overwriting a file of a record. -/
theorem World.Reconciled.put (h : w.Reconciled) {name : CString} (bytes : List UInt8)
    (owned : ∃ row ∈ w.db.files, name = row.savedFileName ∨ row.textName = some name) :
    InOrder FileRecord.savedFileName FileRecord.textName w.db.files (w.storage.put name bytes) := by
  refine InOrder.write h (fun other there => ?_) (fun other there => put_ne_none there)
  by_cases hname : other = name
  · exact Or.inr (hname ▸ owned)
  · exact Or.inl (by rwa [Storage.put_of_ne _ _ hname] at there)

theorem World.Reconciled.analyse (h : w.Reconciled) (fits : w.Fits) (works : env.LocalWorks)
    {row : FileRecord} (hrow : row ∈ w.db.files) (hid : row.id = id) (ask : Request) :
    (w.analyse env id (storageOcrFilename row.savedFileName maxFilename) ask).Reconciled := by
  have named (other : FileRecord) (hother : other ∈ w.db.files) (hotherId : other.id = id) :
      other = row := w.db.schema.fileIds.eq_of_key_eq hother hrow (hotherId.trans hid.symm)
  simp only [World.Reconciled, World.analyse_files, World.analyse_storage]
  cases env.extract.accepted with
  | none => exact h
  | some text =>
      have marked : InOrder FileRecord.savedFileName FileRecord.textName
          (w.db.files.map (markedRow env.markOcr env.markOcrTime id
            (storageOcrFilename row.savedFileName maxFilename))) w.storage := by
        refine InOrder.map h (fun other _ => markedRow_savedFileName ..) ?_
        intro other hother name hname
        by_cases hsel : other.id = id
        · obtain rfl := named other hother hsel
          obtain ⟨hocr, hne⟩ := FileRecord.textName_eq_some.mp hname
          refine FileRecord.textName_eq_some.mpr ⟨?_, hne⟩
          rcases (fits other hother).text with ⟨_, hempty⟩ | ⟨_, hfull⟩
          · exact absurd (hocr.symm.trans hempty) hne
          · simp only [markedRow, works.markOcr, hsel, and_self, if_true, FileRecord.markOcrDone]
            exact hfull.symm.trans hocr
        · rwa [markedRow_of_ne _ _ _ _ hsel]
      simp only [Option.isSome_some, if_true, works.saveText, localSaveText,
        localSaveFile_complete]
      refine marked.write (fun name there => ?_) (fun name there => put_ne_none there)
      by_cases hname : name = storageOcrFilename row.savedFileName maxFilename
      · refine Or.inr ⟨_, List.mem_map_of_mem hrow, Or.inr ?_⟩
        refine FileRecord.textName_eq_some.mpr ⟨?_, hname ▸ (fits row hrow).ocrName_ne_empty⟩
        simp only [markedRow, works.markOcr, hid, and_self, if_true, FileRecord.markOcrDone]
        exact hname.symm
      · exact Or.inl (by rwa [Storage.put_of_ne _ _ hname] at there)

theorem World.Reconciled.discard (h : w.Reconciled) (fits : w.Fits) (works : env.LocalWorks)
    {row : FileRecord} (found : w.db.file? id = some row) :
    (w.discard env id (readColumns row)).Reconciled := by
  obtain ⟨hrow, hid⟩ := Database.file?_eq_some.mp found
  have columns := (fits row hrow).columns
  have removed (name : CString) (its : name = row.savedFileName ∨ name = row.ocrFileName)
      (hne : name ≠ .empty) : (w.discard env id (readColumns row)).storage name = none := by
    rw [columns, discard_storage_of_stored, if_pos]
    · exact its.imp (⟨·, works.deleteSaved⟩) (⟨·, works.deleteOcr⟩)
    · exact FileRecord.mem_storedNames.mpr ⟨its, fun hbytes => hne (CString.ext_iff.mpr hbytes)⟩
  have files : (w.discard env id (readColumns row)).db.files =
      w.db.files.filter (fun other => other.id ≠ id) := by
    simp only [World.discard, sqliteDeleteFile_files, works.deleteRow, if_true]
  rw [World.Reconciled, files]
  refine InOrder.drop h row ?_ ?_ ⟨?_, ?_⟩ ?_
  · intro other hother
    obtain ⟨hmem, hotherId⟩ := List.mem_filter.mp hother
    have hne : other.id ≠ id := by simpa using hotherId
    refine ⟨hmem, fun hname => ?_, fun hname => ?_⟩
    · obtain rfl := w.db.schema.savedNames.eq_of_key_eq hmem hrow hname
      exact hne hid
    · obtain ⟨hocr, _⟩ := FileRecord.textName_eq_some.mp hname
      exact (fits row hrow).ocrFileName_ne_savedName (fits other hmem) hocr
  · intro other hother hne
    refine List.mem_filter.mpr ⟨hother, ?_⟩
    have hotherId : other.id ≠ id := fun heq =>
      hne (w.db.schema.fileIds.eq_of_key_eq hother hrow (heq.trans hid.symm))
    simpa using hotherId
  · exact removed _ (Or.inl rfl) (fits row hrow).savedFileName_ne_empty
  · intro name hname
    obtain ⟨hocr, hne⟩ := FileRecord.textName_eq_some.mp hname
    exact removed name (Or.inr hocr.symm) hne
  · intro name hsaved hname
    rw [columns]
    refine World.discard_storage_of_ne hsaved ?_
    by_cases hempty : row.ocrFileName = .empty
    · exact Or.inl hempty
    · refine Or.inr fun heq => ?_
      exact hname (FileRecord.textName_eq_some.mpr ⟨heq.symm, heq ▸ hempty⟩)

/-- Skipping duplicates leaves a name that is taken as the only reason to refuse a row. -/
theorem taken_of_refused {originalName : CString} {data : List UInt8} {replyLen : ℕ+}
    (strategy : p.dupStrategy = strategyNotifyAndSkip) (works : env.LocalWorks)
    (room : w.db.filesSeq < maxRowid) (new : ¬ Skipped p env w data replyLen)
    (refused : ¬ Accepted p env w originalName data) :
    ∃ row ∈ w.db.files, row.savedFileName = p.savedName env originalName := by
  by_contra free
  refine refused ⟨works.saveFile ▸ .complete data, works.insert, room, fun row hrow => ⟨?_, ?_⟩⟩
  · exact fun hname => free ⟨row, hrow, hname⟩
  · intro hhash
    have found := dbRepoFindByHash_eq_ok.mpr
      ⟨works.findByHash, row, w.db.schema.hashes.lookup_eq_some.mpr ⟨hrow, hhash⟩, rfl⟩
    exact new ⟨readColumns row, found, by rw [strategy]; rfl⟩

/-- Every operation keeps them in order. -/
theorem FileEffect.reconciled {op : FileOp} (h : FileEffect p env w op w')
    (strategy : p.dupStrategy = strategyNotifyAndSkip) (works : env.LocalWorks)
    (room : w.db.filesSeq < maxRowid) (fits : w.Fits) (ordered : w.Reconciled) :
    w'.Reconciled := by
  cases h with
  | nothing => exact ordered
  | refused originalName data new refused =>
      obtain ⟨replyLen, new⟩ := new
      obtain ⟨row, hrow, hname⟩ := taken_of_refused strategy works room new refused
      simp only [World.Reconciled, works.saveFile, localSaveFile_complete]
      exact ordered.put data ⟨row, hrow, Or.inl hname.symm⟩
  | stored originalName data accepted db files filesSeq receipts receiptsSeq =>
      rw [works.saveFile, localSaveFile_complete]
      have ordered' : ({ w with
          db := db
          storage := w.storage.put (p.savedName env originalName) data } : World).Reconciled := by
        have named : (p.uploadRow env w originalName data).savedFileName =
            p.savedName env originalName := by
          simp [Processor.uploadRow, insertedRow, dbRepoRecord]
        simp only [World.Reconciled, files]
        refine InOrder.add ordered (fun name hname => ?_) ?_
        · exact Storage.put_of_ne _ _ (named ▸ hname)
        · simp [named]
      have fits' := fits.stored files (w.storage.put (p.savedName env originalName) data)
      have hrow : p.uploadRow env w originalName data ∈ db.files := by simp [files]
      have named : storageOcrFilename (p.uploadRow env w originalName data).savedFileName
          maxFilename = storageOcrFilename (p.savedName env originalName) maxFilename := by
        simp [Processor.uploadRow, insertedRow, dbRepoRecord]
      rw [← named]
      exact ordered'.analyse fits' works hrow rfl _
  | reparsed id row text found there =>
      simp only [World.reparse]
      cases env.parse.accepted with
      | none => exact ordered
      | some json =>
          simp only [World.Reconciled, World.recordParsed, sqliteMarkParsingDone_files]
          exact ordered
  | reread id model row data found there =>
      obtain ⟨hrow, hid⟩ := Database.file?_eq_some.mp found
      rw [(fits row hrow).columns]
      exact ordered.analyse fits works hrow hid _
  | discarded id row found => exact ordered.discard fits works found

theorem intact_discard {row : FileRecord} (h : Intact w) (works : env.LocalWorks) (fits : w.Fits)
    (found : w.db.file? id = some row) : Intact (w.discard env id (readColumns row)) := by
  obtain ⟨hrow, hid⟩ := Database.file?_eq_some.mp found
  have mine := fits row hrow
  intro other hother
  simp only [World.discard, sqliteDeleteFile_files, works.deleteRow, if_true] at hother
  obtain ⟨hmem, hne⟩ := List.mem_filter.mp hother
  have hsaved : other.savedFileName ≠ row.savedFileName := fun same => by
    obtain rfl := w.db.schema.savedNames.eq_of_key_eq hmem hrow same
    exact absurd hid (by simpa using hne)
  obtain ⟨content, there, hash⟩ := h other hmem
  refine ⟨content, ?_, hash⟩
  rw [mine.columns, World.discard_storage_of_ne hsaved (Or.inr
    (mine.ocrFileName_ne_savedName (fits other hmem)).symm), there]

/-- As long as no upload takes the name of another content, the images stay what they were. -/
theorem FileEffect.intact {op : FileOp} (h : FileEffect p env w op w') (works : env.LocalWorks)
    (fits : w.Fits) (free : ∀ originalName data, op = .upload originalName data →
      (∃ replyLen, ¬ Skipped p env w data replyLen) → ∀ row ∈ w.db.files,
        row.savedFileName = p.savedName env originalName →
          row.fileHash = storageSha256Hex data) (intact : Intact w) : Intact w' := by
  cases h with
  | nothing => exact intact
  | refused originalName data new refused =>
      rw [works.saveFile, localSaveFile_complete]
      exact (intact_put_iff intact).mpr (free originalName data rfl new)
  | stored originalName data accepted db files filesSeq receipts receiptsSeq =>
      rw [works.saveFile, localSaveFile_complete]
      exact intact_stored (u := { originalName, data, env }) fits intact accepted files _
  | reparsed id row text found there =>
      simp only [World.reparse]
      cases env.parse.accepted with
      | none => exact intact
      | some json =>
          simp only [Intact, World.recordParsed, sqliteMarkParsingDone_files]
          exact intact
  | reread id model row data found there =>
      obtain ⟨hrow, _⟩ := Database.file?_eq_some.mp found
      have mine := fits row hrow
      rw [mine.columns]
      refine (intact_of_identities (World.analyse_identities ..) fun other hother => ?_).mpr intact
      exact World.analyse_storage_of_ne _ _ _ _ _ (mine.ocrName_ne_savedName (fits other hother)).symm
  | discarded id row found => exact intact_discard intact works fits found

theorem FileEffect.filesSeq_le {op : FileOp} (h : FileEffect p env w op w') :
    w'.db.filesSeq ≤ w.db.filesSeq + 1 := by
  cases h with
  | nothing | refused => exact Int.le_of_lt (Int.lt_succ _)
  | stored originalName data accepted db files filesSeq receipts receiptsSeq =>
      rw [analyse_filesSeq]
      exact Int.le_of_eq filesSeq
  | reparsed id row text found there =>
      rw [reparse_filesSeq]
      exact Int.le_of_lt (Int.lt_succ _)
  | reread id model row data found there =>
      rw [analyse_filesSeq]
      exact Int.le_of_lt (Int.lt_succ _)
  | discarded id row found =>
      rw [discard_filesSeq]
      exact Int.le_of_lt (Int.lt_succ _)

end Steps

/-- An upload that gets past the duplicate check finds its name free, or taken by a record of the
same content. -/
def NamesApart (bot : TgBot) (w : World) (op : CJson × Externals) : Prop :=
  ∀ originalName data, (readUpdate bot (some op.1)).fileOp op.2 = some (.upload originalName data) →
    NameFree bot.processor maxReplyLen w { originalName, data, env := op.2 }

/-- The invariant of a run with room for `left` more records. -/
structure InStep (left : Nat) (w : World) : Prop where
  fits : w.Fits
  ordered : w.Reconciled
  room : w.db.filesSeq + left ≤ maxRowid

section Run
variable {bot : TgBot}

theorem InStep.dispatch {left : Nat} {w : World} (h : InStep (left + 1) w)
    (strategy : bot.processor.dupStrategy = strategyNotifyAndSkip) (op : CJson × Externals)
    (works : op.2.LocalWorks) : InStep left (dispatchStep bot w op) := by
  have room := h.room
  have fetched : InStep left (w.requestAll ((readUpdate bot (some op.1)).fetches op.2)) :=
    ⟨h.fits, h.ordered, by simp only [World.requestAll]; push_cast at room; omega⟩
  simp only [dispatchStep, botDispatchUpdate_eq, Instruction.perform_world]
  cases (readUpdate bot (some op.1)).fileOp op.2 with
  | none => exact fetched
  | some fileOp =>
      have effect := FileOp.apply_effect bot.processor op.2
        (w.requestAll ((readUpdate bot (some op.1)).fetches op.2)) maxReplyLen fileOp
      refine ⟨fetched.fits.fileStep (fileOp, op.2), ?_, ?_⟩
      · refine effect.reconciled strategy works ?_ fetched.fits fetched.ordered
        simp only [World.requestAll]
        push_cast at room
        omega
      · have counted := effect.filesSeq_le
        simp only [World.requestAll, Option.elim] at counted ⊢
        push_cast at room
        omega

theorem InStep.run {w : World} (strategy : bot.processor.dupStrategy = strategyNotifyAndSkip)
    (updates : List (CJson × Externals)) (h : InStep updates.length w)
    (works : ∀ op ∈ updates, op.2.LocalWorks) : InStep 0 (run (dispatchStep bot) w updates) := by
  induction updates generalizing w with
  | nil => exact h
  | cons op updates ih =>
      exact ih (h.dispatch strategy op (works op List.mem_cons_self))
        (fun op hop => works op (List.mem_cons_of_mem _ hop))

/-- What an upload may find is the same for every length of a reply. -/
theorem skipped_iff {p : Processor} (strategy : p.dupStrategy = strategyNotifyAndSkip)
    {env : Externals} {w : World} {data : List UInt8} (replyLen replyLen' : ℕ+) :
    Skipped p env w data replyLen ↔ Skipped p env w data replyLen' := by
  simp only [Skipped, strategy, strategyNotifyAndSkip]

theorem intact_run {w : World} (strategy : bot.processor.dupStrategy = strategyNotifyAndSkip)
    (updates : List (CJson × Externals)) (works : ∀ op ∈ updates, op.2.LocalWorks) (fits : w.Fits)
    (intact : Intact w) (apart : Guarded (dispatchStep bot) (NamesApart bot) w updates) :
    Intact (Runs.run (dispatchStep bot) w updates) := by
  induction updates generalizing w with
  | nil => exact intact
  | cons op updates ih =>
      obtain ⟨now, later⟩ := apart
      refine ih (fun op mem => works op (List.mem_cons_of_mem _ mem)) (dispatchStep_fits fits) ?_ later
      simp only [dispatchStep, botDispatchUpdate_eq, Instruction.perform_world]
      cases asked : (readUpdate bot (some op.1)).fileOp op.2 with
      | none => exact intact
      | some fileOp =>
          have effect := FileOp.apply_effect bot.processor op.2
            (w.requestAll ((readUpdate bot (some op.1)).fetches op.2)) maxReplyLen fileOp
          refine effect.intact (works op List.mem_cons_self) fits ?_ intact
          rintro originalName data rfl ⟨replyLen, new⟩
          exact now originalName data asked fun skipped =>
            new ((skipped_iff strategy _ _).mp skipped)

end Run

/-- With the built-in strategy, as long as the disk and the database work and the ids have not run
out: every stored file is the image or the text of a record, under every record's name lies a file,
its own as long as no upload takes the name of another content, and once the last record is deleted
the storage is empty. -/
theorem no_file_left_behind (bot : TgBot) (updates : List (CJson × Externals))
    (strategy : bot.processor.dupStrategy = strategyNotifyAndSkip)
    (works : ∀ op ∈ updates, op.2.LocalWorks) (few : (updates.length : Int) ≤ maxRowid) :
    let w := run (dispatchStep bot) .empty updates
    (∀ name, w.storage name ≠ none → ∃ row ∈ w.db.files,
        name = row.savedFileName ∨ row.isOcrProcessed = 1 ∧ name = row.ocrFileName) ∧
      (∀ row ∈ w.db.files, w.storage row.savedFileName ≠ none) ∧
      (Guarded (dispatchStep bot) (NamesApart bot) .empty updates → Intact w) ∧
      (w.db.files = [] → w.storage = .empty) := by
  intro w
  have start : InStep updates.length .empty :=
    ⟨World.empty_fits, .nil fun _ => rfl, by simpa [World.empty, Database.empty] using few⟩
  obtain ⟨fits, ordered, _⟩ : InStep 0 w := start.run strategy updates works
  refine ⟨fun name there => ?_, ordered.present, fun apart => ?_, fun none => ?_⟩
  · obtain ⟨row, hrow, its⟩ := ordered.owned name there
    refine ⟨row, hrow, its.imp_right fun htext => ?_⟩
    obtain ⟨hname, hne⟩ := FileRecord.textName_eq_some.mp htext
    rcases (fits row hrow).text with ⟨_, hempty⟩ | ⟨hdone, _⟩
    · exact absurd (hname.symm.trans hempty) hne
    · exact ⟨hdone, hname.symm⟩
  · exact intact_run strategy updates works World.empty_fits
      (fun _ none => absurd none List.not_mem_nil) apart
  · funext name
    have empty : InOrder FileRecord.savedFileName FileRecord.textName [] w.storage := none ▸ ordered
    exact empty.empty name

theorem no_file_left_behind_one :
    let w := run (dispatchStep privateBot) .empty [(sentDocument, served)]
    (∀ name, w.storage name ≠ none → ∃ row ∈ w.db.files,
        name = row.savedFileName ∨ row.isOcrProcessed = 1 ∧ name = row.ocrFileName) ∧
      (∀ row ∈ w.db.files, w.storage row.savedFileName ≠ none) ∧
      (Guarded (dispatchStep privateBot) (NamesApart privateBot) .empty
        [(sentDocument, served)] → Intact w) ∧
      (w.db.files = [] → w.storage = .empty) := by
  refine no_file_left_behind privateBot [(sentDocument, served)] rfl (fun op hop => ?_) (by decide)
  obtain rfl := List.mem_singleton.mp hop
  exact ⟨rfl, rfl, rfl, rfl, rfl, rfl, rfl, rfl, rfl⟩

end Kaufbot
