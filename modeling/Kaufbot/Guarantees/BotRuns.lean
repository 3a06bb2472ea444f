import Kaufbot.Telegram.Instruction

/-!
Runs of the bot are runs of the operations on stored files. An update fetches
from Telegram at most, and then performs one operation or none; so whatever
every run of the operations keeps, every run of the bot keeps, and the database
and the storage it leaves are those of the operations alone.
-/

namespace Kaufbot

open CString Runs

/-- A request for a file, which changes nothing; the others are billed. -/
def Request.isFetch : Request → Bool
  | .getFilePath _ | .downloadFile _ => true
  | _ => false

namespace World

def requestAll (w : World) (rs : List Request) : World := { w with requests := w.requests ++ rs }

/-- The same world with a longer past. -/
def logged (rs : List Request) (w : World) : World := { w with requests := rs ++ w.requests }

@[simp] theorem logged_db (rs : List Request) (w : World) : (w.logged rs).db = w.db := rfl

@[simp] theorem logged_storage (rs : List Request) (w : World) :
    (w.logged rs).storage = w.storage := rfl

theorem logged_request (rs : List Request) (w : World) (r : Request) :
    (w.logged rs).request r = (w.request r).logged rs := by
  simp [logged, request]

end World

/-- What is fetched before the file is handled. -/
def Instruction.fetches (env : Externals) : Instruction → List Request
  | .upload _ fileId _ => .getFilePath fileId :: (env.filePath.map .downloadFile).toList
  | _ => []

/-- The operation on the stored files; an upload needs a download that is not empty. -/
def Instruction.fileOp (env : Externals) : Instruction → Option FileOp
  | .reply _ | .list _ => none
  | .upload _ _ originalName =>
      match env.filePath, env.download with
      | some _, some data => if data.isEmpty then none else some (.upload originalName data)
      | _, _ => none
  | .delete _ id | .deletePressed _ _ id => some (.delete id)
  | .retry _ _ id => some (.retry id)
  | .retryWithModel _ _ id model => some (.retryWithModel id model)

section Logged
variable (p : Processor) (env : Externals) (w : World) (rs : List Request) (replyLen : ℕ+)

theorem processorSaveFile_logged (originalName : CString) (data : List UInt8) (hash : CString) :
    processorSaveFile p env (w.logged rs) originalName data hash replyLen =
      ((processorSaveFile p env w originalName data hash replyLen).1.logged rs,
        (processorSaveFile p env w originalName data hash replyLen).2) := by
  simp only [processorSaveFile, World.logged_db, World.logged_storage]
  by_cases saved :
      (localSaveFile env.saveFile w.storage (p.savedName env originalName) data).2 = 0
  · simp only [saved, ne_eq, not_true_eq_false, if_false]
    rcases dbRepoInsert env.insert env.insertTime w.db originalName hash
      (p.savedName env originalName) with ⟨db, _ | newId⟩ <;> rfl
  · simp only [saved, ne_eq, not_false_eq_true, if_true]
    rfl

theorem processorRunOcr_logged (originalName : CString) (data : List UInt8) (savedName : CString)
    (rec : FileRecord) :
    processorRunOcr env (w.logged rs) originalName data savedName rec replyLen =
      ((processorRunOcr env w originalName data savedName rec replyLen).1.logged rs,
        (processorRunOcr env w originalName data savedName rec replyLen).2) := by
  simp only [processorRunOcr, World.logged_request]
  cases env.extract.accepted <;> rfl

theorem processorParseReceipt_logged (fileId : Int)
    (ocrText savedName ocrFilename originalName : CString) (dataLen : Nat) :
    processorParseReceipt env (w.logged rs) fileId ocrText savedName ocrFilename originalName
        dataLen replyLen =
      ((processorParseReceipt env w fileId ocrText savedName ocrFilename originalName dataLen
          replyLen).1.logged rs,
        (processorParseReceipt env w fileId ocrText savedName ocrFilename originalName dataLen
          replyLen).2) := by
  simp only [processorParseReceipt, World.logged_request]
  cases env.parse.accepted <;> rfl

theorem processorStoreFile_logged (originalName : CString) (data : List UInt8) (hash : CString) :
    processorStoreFile p env (w.logged rs) originalName data hash replyLen =
      ((processorStoreFile p env w originalName data hash replyLen).1.logged rs,
        (processorStoreFile p env w originalName data hash replyLen).2) := by
  simp only [processorStoreFile, processorSaveFile_logged]
  rcases processorSaveFile p env w originalName data hash replyLen with ⟨w₁, reply | rec⟩
  · rfl
  simp only [processorRunOcr_logged]
  rcases processorRunOcr env w₁ originalName data rec.savedFileName rec replyLen with
    ⟨w₂, reply | ocrText⟩
  · rfl
  simp only [processorParseReceipt_logged]
  rcases processorParseReceipt env w₂ rec.id ocrText rec.savedFileName
    (storageOcrFilename rec.savedFileName maxFilename) originalName data.length replyLen with
    ⟨w₃, reply | parsedJson⟩
  · rfl
  · simp only
    cases p.cjsonParse parsedJson <;> rfl

theorem processorHandleFile_logged (originalName : CString) (data : List UInt8) :
    (processorHandleFile p env (w.logged rs) originalName data replyLen).1 =
      (processorHandleFile p env w originalName data replyLen).1.logged rs := by
  simp only [processorHandleFile, processorStoreFile_logged, World.logged_db]
  rcases dbRepoFindByHash env.findByHash w.db (storageSha256Hex data) with error | existing
  · cases error <;> rfl
  · simp only
    split <;> rfl

theorem processorRetryOcr_logged (id : Int) :
    (processorRetryOcr p env (w.logged rs) id replyLen).1 =
      (processorRetryOcr p env w id replyLen).1.logged rs := by
  simp only [processorRetryOcr, World.logged_db, World.logged_storage, World.logged_request]
  cases dbRepoFindById env.findById w.db id with
  | error e => rfl
  | ok rec =>
      simp only
      split
      · rfl
      · cases localReadText env.readText w.storage rec.ocrFileName with
        | none => rfl
        | some text =>
            cases env.parse.accepted with
            | none => rfl
            | some json =>
                simp only
                cases p.cjsonParse json <;> rfl

theorem processorRetryOcrWithModel_logged (id : Int) (model : CString) :
    (processorRetryOcrWithModel p env (w.logged rs) id model replyLen).1 =
      (processorRetryOcrWithModel p env w id model replyLen).1.logged rs := by
  cases himage : retryImage env w id with
  | none =>
      have himage' : retryImage env (w.logged rs) id = none := himage
      rw [(processorRetryOcrWithModel_of_no_image p env w id model replyLen himage).2,
        (processorRetryOcrWithModel_of_no_image p env _ id model replyLen himage').2]
  | some found =>
      obtain ⟨rec, data⟩ := found
      have himage' : retryImage env (w.logged rs) id = some (rec, data) := himage
      rw [(processorRetryOcrWithModel_of_image p env w id model replyLen himage).2,
        (processorRetryOcrWithModel_of_image p env _ id model replyLen himage').2]
      simp only [World.analyse]
      cases env.extract.accepted with
      | none => exact World.logged_request ..
      | some text =>
          cases env.parse.accepted <;>
            simp [World.logged, World.request, World.recordText, World.recordParsed]

theorem doDeleteFile_logged (id : Int) (msgLen : Nat) :
    (doDeleteFile env (w.logged rs) id msgLen).1 = (doDeleteFile env w id msgLen).1.logged rs := by
  by_cases hfound : env.findById = .ok ∧ ∃ row, w.db.file? id = some row
  · obtain ⟨hok, row, hrow⟩ := hfound
    have hrow' : (w.logged rs).db.file? id = some row := hrow
    rw [doDeleteFile_of_row msgLen hok hrow, doDeleteFile_of_row msgLen hok hrow']
    rfl
  · have hfound' : ¬ (env.findById = .ok ∧ ∃ row, (w.logged rs).db.file? id = some row) := hfound
    rw [doDeleteFile_of_no_row msgLen hfound, doDeleteFile_of_no_row msgLen hfound']

/-- No operation looks at what was requested before. -/
theorem FileOp.apply_logged (op : FileOp) :
    op.apply p env (w.logged rs) replyLen = (op.apply p env w replyLen).logged rs := by
  cases op with
  | upload originalName data => exact processorHandleFile_logged p env w rs replyLen _ _
  | retry id => exact processorRetryOcr_logged p env w rs replyLen id
  | retryWithModel id model => exact processorRetryOcrWithModel_logged p env w rs replyLen id model
  | delete id => exact doDeleteFile_logged env w rs id replyLen

end Logged

section Perform
variable (bot : TgBot) (env : Externals) (w : World)

theorem handleFile_world (chatId : Int) (fileId originalName : CString) :
    (handleFile bot env w chatId fileId originalName).1 =
      (((Instruction.upload chatId fileId originalName).fileOp env).elim
        (w.requestAll ((Instruction.upload chatId fileId originalName).fetches env)) fun op =>
          op.apply bot.processor env
            (w.requestAll ((Instruction.upload chatId fileId originalName).fetches env))
            maxReplyLen) := by
  simp only [handleFile, Instruction.fileOp, Instruction.fetches]
  cases env.filePath with
  | none => rfl
  | some filePath =>
      cases env.download with
      | none => simp [World.requestAll, World.request]
      | some data =>
          simp only
          split
          · simp [World.requestAll, World.request]
          · simp [World.requestAll, World.request, FileOp.apply]

/-- An instruction leaves the world its operation leaves after the fetches. -/
theorem Instruction.perform_world (instruction : Instruction) :
    (instruction.perform bot env w).1 =
      ((instruction.fileOp env).elim (w.requestAll (instruction.fetches env)) fun op =>
        op.apply bot.processor env (w.requestAll (instruction.fetches env)) maxReplyLen) := by
  have same : w.requestAll [] = w := by simp [World.requestAll]
  cases instruction with
  | upload chatId fileId originalName => exact handleFile_world bot env w chatId fileId originalName
  | reply messages | list chatId | delete chatId id | retry before chatId id
  | retryWithModel before chatId id model =>
      simp only [Instruction.fetches, same]
      rfl
  | deletePressed cbId message id =>
      simp only [Instruction.fetches, same, Instruction.perform, Instruction.fileOp, Option.elim,
        FileOp.apply]
      split <;> rfl

end Perform

/-- The operation an update asks for, with the answers it gets; the others only fetch and answer. -/
def fileOpOf (bot : TgBot) (op : CJson × Externals) : Option (FileOp × Externals) :=
  ((readUpdate bot op.1).fileOp op.2).map (·, op.2)

/-- The same tables, the same files, and the same requests apart from the fetches. -/
structure SameEffects (w v : World) : Prop where
  db : w.db = v.db
  storage : w.storage = v.storage
  billed : w.requests.filter (fun r => !r.isFetch) = v.requests.filter (fun r => !r.isFetch)

section Runs
variable {bot : TgBot} {w v : World}

theorem Instruction.fetches_isFetch (env : Externals) (instruction : Instruction) :
    ∀ r ∈ instruction.fetches env, r.isFetch = true := by
  cases instruction with
  | upload chatId fileId originalName =>
      intro r hr
      rcases List.mem_cons.mp hr with rfl | hdownload
      · rfl
      · obtain ⟨path, _, rfl⟩ := Option.map_eq_some_iff.mp (Option.mem_toList.mp hdownload)
        rfl
  | reply _ | list _ | delete _ _ | deletePressed _ _ _ | retry _ _ _ | retryWithModel _ _ _ _ =>
      exact fun _ hr => absurd hr List.not_mem_nil

theorem SameEffects.fetch (h : SameEffects w v) {rs : List Request}
    (fetches : ∀ r ∈ rs, r.isFetch = true) : SameEffects (w.requestAll rs) v := by
  refine ⟨h.db, h.storage, ?_⟩
  have none : rs.filter (fun r => !r.isFetch) = [] := by
    rw [List.filter_eq_nil_iff]
    intro r hr
    simp [fetches r hr]
  rw [World.requestAll, List.filter_append, none, List.append_nil]
  exact h.billed

/-- Both worlds are one world with different requests before it. -/
theorem SameEffects.apply (h : SameEffects w v) (p : Processor) (env : Externals) (replyLen : ℕ+)
    (op : FileOp) : SameEffects (op.apply p env w replyLen) (op.apply p env v replyLen) := by
  let silent : World := { db := v.db, storage := v.storage, requests := [] }
  have hw : w = silent.logged w.requests := by
    simp [silent, World.logged, ← h.db, ← h.storage]
  have hv : v = silent.logged v.requests := by simp [silent, World.logged]
  rw [hw, hv, FileOp.apply_logged, FileOp.apply_logged]
  refine ⟨rfl, rfl, ?_⟩
  simp only [World.logged, List.filter_append, h.billed]

theorem SameEffects.dispatch (h : SameEffects w v) (op : CJson × Externals) :
    SameEffects (dispatchStep bot w op)
      ((fileOpOf bot op).elim v (fileStep bot.processor maxReplyLen v)) := by
  obtain ⟨update, env⟩ := op
  have fetched := h.fetch ((readUpdate bot (some update)).fetches_isFetch env)
  simp only [dispatchStep, botDispatchUpdate_eq, Instruction.perform_world, fileOpOf]
  cases (readUpdate bot (some update)).fileOp env with
  | none => exact fetched
  | some op => exact fetched.apply bot.processor env maxReplyLen op

theorem dispatchStep_fits {op : CJson × Externals} {w : World} (h : w.Fits) : (dispatchStep bot w op).Fits := by
  have fits : (w.requestAll ((readUpdate bot (some op.1)).fetches op.2)).Fits := h
  simp only [dispatchStep, botDispatchUpdate_eq, Instruction.perform_world]
  cases (readUpdate bot (some op.1)).fileOp op.2 with
  | none => exact fits
  | some fileOp => exact fits.fileStep (fileOp, op.2)

end Runs

/-- A run of the bot leaves the tables and the files, and asks the service for what, the run of its
file operations does. -/
theorem bot_run_refines (bot : TgBot) (w : World) (updates : List (CJson × Externals)) :
    SameEffects (run (dispatchStep bot) w updates)
      (run (fileStep bot.processor maxReplyLen) w (updates.filterMap (fileOpOf bot))) :=
  run_refines (R := SameEffects) (fun _ _ op h => h.dispatch op) updates ⟨rfl, rfl, rfl⟩

end Kaufbot
