import Kaufbot.Guarantees.Upload
import Kaufbot.Telegram.Keyboard
import Kaufbot.Telegram.Mediation

/-!
What the bot tells the user after a failed text extraction: press the button,
or upload the file again. Neither helps. The button re-parses a text that was
never stored, and the upload is turned away by the hash of the record it should
replace, so the database stays as the failed upload left it however often
either is tried.
-/

namespace Kaufbot

open CString Runs

/-- The updates the replies ask for: the attached button, or the same file again. -/
inductive FollowsAdvice (data : List UInt8) (id : Int) : CJson × Externals → Prop
  | press (update : CJson) (env : Externals)
      (button : CJson.stringValue? (member (member (some update) "callback_query") "data") =
        some (retryData id)) :
      FollowsAdvice data id (update, env)
  | reupload (update : CJson) (env : Externals)
      (noButton : member (some update) "callback_query" = none)
      (noText : CJson.stringValue? (member (member (some update) "message") "text") = none)
      (same : ∀ bytes, env.download = some bytes → bytes = data) :
      FollowsAdvice data id (update, env)

def OcrSucceeds (env : Externals) : Prop :=
  env.extract.accepted.isSome ∧ env.parse.accepted.isSome

def Recovered (w : World) (id : Int) : Prop :=
  (∃ row, w.db.file? id = some row ∧ row.isOcrProcessed = 1) ∧ (w.db.receipt? id).isSome

/-- Some sequence of the advised updates, with a service that answers, completes the record. -/
def RecoveryWorks (bot : TgBot) (w : World) (data : List UInt8) (id : Int) : Prop :=
  ∃ updates : List (CJson × Externals),
    (∀ op ∈ updates, FollowsAdvice data id op ∧ OcrSucceeds op.2) ∧
      Recovered (run (dispatchStep bot) w updates) id

/-- What a failed extraction leaves: the hash is taken, and there is no text and no receipt. -/
structure Abandoned (db : Database) (id : Int) (hash : CString) (row : FileRecord) : Prop where
  found : db.file? id = some row
  hash : row.fileHash = hash
  notDone : row.isOcrProcessed = 0
  noText : row.ocrFileName = .empty
  noReceipt : db.receipt? id = none
  idRange : 1 ≤ id ∧ id ≤ maxRowid

section Steps
variable {p : Processor} {env : Externals} {w : World} {id : Int} {data : List UInt8}
  {row : FileRecord}

/-- Bytes whose hash is taken are stored by no duplicate strategy. -/
theorem upload_db_of_known_hash (hrow : row ∈ w.db.files)
    (hhash : row.fileHash = storageSha256Hex data) (originalName : CString) (replyLen : ℕ+) :
    (processorHandleFile p env w originalName data replyLen).1.db = w.db := by
  by_cases hskip : Skipped p env w data replyLen
  · obtain ⟨existing, hfound, hskip⟩ := hskip
    rw [processorHandleFile_of_skipped p env w originalName data replyLen hfound hskip]
  · have hrefused : ¬ Accepted p env w originalName data := by
      rintro ⟨_, _, _, hfree⟩
      exact (hfree row hrow).2 hhash
    rw [processorHandleFile_of_not_skipped p env w originalName data replyLen hskip,
      (processorStoreFile_of_not_accepted p env w originalName data replyLen hrefused).1]

theorem retry_db_of_no_text (hrow : w.db.file? id = some row) (hname : row.ocrFileName = .empty)
    (replyLen : ℕ+) : (processorRetryOcr p env w id replyLen).1.db = w.db := by
  rcases processorRetryOcr_cases p env w id replyLen with
    ⟨_, hdb, _⟩ | ⟨other, _, _, hother, hnamed, _⟩
  · exact hdb
  · obtain rfl := Option.some.inj (hrow.symm.trans hother)
    exact absurd (by simp [readColumns, hname, CString.ext_iff]) hnamed

variable {bot : TgBot}

theorem handleFile_db (same : ∀ bytes, env.download = some bytes → bytes = data)
    (hrow : row ∈ w.db.files) (hhash : row.fileHash = storageSha256Hex data) (chatId : Int)
    (fileId originalName : CString) :
    (handleFile bot env w chatId fileId originalName).1.db = w.db := by
  cases hpath : env.filePath with
  | none => simp [handleFile, hpath]
  | some path =>
      cases hdownload : env.download with
      | none => simp [handleFile, hpath, hdownload]
      | some bytes =>
          obtain rfl := same bytes hdownload
          by_cases hempty : bytes = []
          · simp [handleFile, hpath, hdownload, hempty]
          · have hseen : row ∈
                ((w.request (.getFilePath fileId)).request (.downloadFile path)).db.files := hrow
            have kept : (processorHandleFile bot.processor env
                ((w.request (.getFilePath fileId)).request (.downloadFile path)) originalName bytes
                maxReplyLen).1.db = w.db :=
              upload_db_of_known_hash hseen hhash originalName maxReplyLen
            simpa [handleFile, hpath, hdownload, hempty] using kept

/-- Without a text, a message is a photo, a document, or refused. -/
theorem dispatchMessage_db (same : ∀ bytes, env.download = some bytes → bytes = data)
    (hrow : row ∈ w.db.files) (hhash : row.fileHash = storageSha256Hex data)
    {message : Option CJson} (noText : CJson.stringValue? (member message "text") = none) :
    (dispatchMessage bot env w message).1.db = w.db := by
  have stored (chatId : Int) (fileId originalName : CString) :
      (handleFile bot env w chatId fileId originalName).1.db = w.db :=
    handleFile_db same hrow hhash chatId fileId originalName
  simp only [dispatchMessage, noText]
  split
  · rfl
  · split
    · rfl
    · split
      · rfl
      · split
        · simp only [dispatchPhoto]
          split
          · rfl
          · split
            · exact stored _ _ _
            · rfl
        · split
          · simp only [dispatchDocument]
            split
            · rfl
            · split
              · exact stored _ _ _
              · rfl
          · rfl

theorem dispatchCallback_retry_db (habandoned : Abandoned w.db id (storageSha256Hex data) row)
    {query : Option CJson}
    (button : CJson.stringValue? (member query "data") = some (retryData id)) :
    (dispatchCallback bot env w query).1.db = w.db := by
  unfold dispatchCallback
  split
  · next pressedData cbId cbFrom cbMessage hdata _ _ _ =>
      obtain rfl : retryData id = pressedData := Option.some.inj (button.symm.trans hdata)
      split
      · rfl
      · split
        · rfl
        · have hid : (strtoll ((retryData id).drop 6)).1 = id := by
            have hdrop : (retryData id).drop 6 = printInt id := by
              apply CString.ext
              simp [retryData, drop, show (lit "retry:").bytes.length = 6 by decide]
            have := habandoned.idRange
            rw [hdrop, strtoll_printInt (by omega) (by simp only [maxRowid] at this; omega)]
          change (callbackRetry bot env w (some cbMessage) cbId (retryData id)).1.db = w.db
          simp only [callbackRetry, hid]
          split
          · exact retry_db_of_no_text habandoned.found habandoned.noText maxReplyLen
          · rfl
  · rfl

theorem dispatchStep_db (habandoned : Abandoned w.db id (storageSha256Hex data) row)
    {op : CJson × Externals} (h : FollowsAdvice data id op) :
    (dispatchStep bot w op).db = w.db := by
  obtain ⟨hrow, _⟩ := Database.file?_eq_some.mp habandoned.found
  cases h with
  | press update env button =>
      simp only [dispatchStep, botDispatchUpdate]
      cases hquery : member (some update) "callback_query" with
      | none =>
          rw [hquery] at button
          exact absurd button (by simp [member, CJson.getObjectItem, CJson.stringValue?])
      | some query => exact dispatchCallback_retry_db habandoned (hquery ▸ button)
  | reupload update env noButton noText same =>
      simp only [dispatchStep, botDispatchUpdate, noButton, Option.isSome_none,
        Bool.false_eq_true, if_false]
      split
      · exact dispatchMessage_db same hrow habandoned.hash noText
      · rfl

/-- However often the advice is followed, the database stays what the failed upload left. -/
theorem run_advice_db (habandoned : Abandoned w.db id (storageSha256Hex data) row)
    (updates : List (CJson × Externals)) (h : ∀ op ∈ updates, FollowsAdvice data id op) :
    (run (dispatchStep bot) w updates).db = w.db := by
  have kept (last : World) (op : CJson × Externals) (hop : FollowsAdvice data id op)
      (hlast : last.db = w.db) : (dispatchStep bot last op).db = w.db := by
    rw [dispatchStep_db (hlast ▸ habandoned) hop, hlast]
  exact @run_invariant _ _ _ (fun last => last.db = w.db) _ kept w updates h rfl

theorem Abandoned.not_recoveryWorks (habandoned : Abandoned w.db id (storageSha256Hex data) row) :
    ¬ RecoveryWorks bot w data id := by
  rintro ⟨updates, advised, ⟨_, _⟩, hreceipt⟩
  rw [run_advice_db habandoned updates (fun op hop => (advised op hop).1),
    habandoned.noReceipt] at hreceipt
  exact absurd hreceipt (by simp)

end Steps

section Upload
variable {p : Processor} {env : Externals} {w : World} {originalName : CString}
  {data : List UInt8} {replyLen : ℕ+}

theorem analysisExit_eq_ocrFailed : analysisExit p env = .ocrFailed ↔ env.extract.accepted = none := by
  cases hextract : env.extract.accepted with
  | none => simp [analysisExit, hextract]
  | some text =>
      cases hparse : env.parse.accepted with
      | none => simp [analysisExit, hextract, hparse]
      | some json => cases hjson : p.cjsonParse json <;> simp [analysisExit, hextract, hparse, hjson]

theorem accepted_of_ocrFailed
    (h : (processorHandleFile p env w originalName data replyLen).2.exit = .ocrFailed) :
    ¬ Skipped p env w data replyLen ∧ Accepted p env w originalName data ∧
      env.extract.accepted = none := by
  obtain ⟨hskip, hacc, hexit⟩ := accepted_of_exit p env w originalName data replyLen
    (by simp [h]) (by simp [h])
  exact ⟨hskip, hacc, analysisExit_eq_ocrFailed.mp (hexit.symm.trans h)⟩

theorem abandoned_of_no_text (hskip : ¬ Skipped p env w data replyLen)
    (hacc : Accepted p env w originalName data) (hextract : env.extract.accepted = none) :
    let after := processorHandleFile p env w originalName data replyLen
    Abandoned after.1.db after.2.outId (storageSha256Hex data)
      (p.uploadRow env w originalName data) := by
  obtain ⟨db, hfiles, hreceipts, _, hworld, hid, _⟩ :=
    processorStoreFile_of_accepted p env w originalName data replyLen hacc
  have hdb : (processorStoreFile p env w originalName data (storageSha256Hex data)
      replyLen).1.db = db := by
    rw [hworld]
    simp only [World.analyse, hextract, World.request_db]
  simp only [processorHandleFile_of_not_skipped p env w originalName data replyLen hskip, hdb, hid]
  have room := w.db.schema.filesSeq
  have free := hacc.2.2.1
  constructor
  · exact Database.file?_eq_some.mpr ⟨by simp [hfiles], rfl⟩
  · exact snprintf_storageSha256Hex data
  · rfl
  · rfl
  · simp only [Database.receipt?, hreceipts]
    exact Database.receipt?_eq_none (fun _ h => Database.id_ne_next h)
  · omega

end Upload

/-- After every upload that was stored and whose extraction failed, no sequence of the advised
updates completes the record, whatever the service answers from then on. -/
theorem recovery_never_works (bot : TgBot) (env : Externals) (w : World) (originalName : CString)
    (data : List UInt8) (replyLen : ℕ+)
    (h : (processorHandleFile bot.processor env w originalName data replyLen).2.exit =
      .ocrFailed) :
    let after := processorHandleFile bot.processor env w originalName data replyLen
    ¬ RecoveryWorks bot after.1 data after.2.outId := by
  obtain ⟨hskip, hacc, hextract⟩ := accepted_of_ocrFailed h
  exact (abandoned_of_no_text hskip hacc hextract).not_recoveryWorks

section Witness

/-- The service is down while the upload is handled. -/
def serviceDown : Externals :=
  { Externals.working 0 (lit "") (lit "") with extract := { error := .api, text := none } }

theorem serviceDown_accepted :
    ¬ Skipped localProcessor serviceDown .empty [1, 2, 3] 4096 ∧
      Accepted localProcessor serviceDown .empty (lit "receipt.jpg") [1, 2, 3] :=
  ⟨not_skipped_of_fresh (fun row h => absurd h List.not_mem_nil), by decide⟩

theorem serviceDown_exit :
    (processorHandleFile localProcessor serviceDown .empty (lit "receipt.jpg") [1, 2, 3]
      4096).2.exit = .ocrFailed := by
  obtain ⟨_, _, _, _, _, _, hexit⟩ := processorStoreFile_of_accepted localProcessor serviceDown
    .empty (lit "receipt.jpg") [1, 2, 3] 4096 serviceDown_accepted.2
  rw [processorHandleFile_of_not_skipped _ _ _ _ _ _ serviceDown_accepted.1, hexit]
  rfl

theorem recovery_never_works_serviceDown :
    ¬ RecoveryWorks localBot
      (processorHandleFile localProcessor serviceDown .empty (lit "receipt.jpg") [1, 2, 3] 4096).1
      [1, 2, 3]
      (processorHandleFile localProcessor serviceDown .empty (lit "receipt.jpg") [1, 2, 3]
        4096).2.outId :=
  recovery_never_works localBot serviceDown .empty (lit "receipt.jpg") [1, 2, 3] 4096
    serviceDown_exit

/-- The upload is stored, its reply points to the button, and nothing it asks for helps. -/
theorem failed_extraction_is_final :
    let after :=
      processorHandleFile localBot.processor serviceDown .empty (lit "receipt.jpg") [1, 2, 3] 4096
    after.2.exit = .ocrFailed ∧ ¬ RecoveryWorks localBot after.1 [1, 2, 3] after.2.outId :=
  ⟨serviceDown_exit,
    (abandoned_of_no_text serviceDown_accepted.1 serviceDown_accepted.2 rfl).not_recoveryWorks⟩

end Witness

end Kaufbot
