import Kaufbot.Guarantees.Addressing
import Kaufbot.Guarantees.Deletion
import Kaufbot.Guarantees.FileEffects
import Kaufbot.Guarantees.Isolation
import Kaufbot.Guarantees.Upload
import Kaufbot.Library.Numbering

/-!
What an id means over a run of the bot. The table never hands out an id twice
and never rewrites what it stored under one, so the buttons under a message stay
on the file the message is about, and those of a deleted file do nothing.
-/

namespace Kaufbot

open CString Numbering Runs

/-- The records by id, each without the marks that change. -/
def World.book (w : World) : Book FileIdentity.id where
  entries := w.db.files.map FileRecord.identity
  last := w.db.filesSeq
  numbered := by
    intro e he
    obtain ⟨row, hrow, rfl⟩ := List.mem_map.mp he
    exact (w.db.schema.fileIdRange row hrow).2
  unique := by
    rw [List.map_map]
    exact w.db.schema.fileIds

section Book
variable {p : Processor} {env : Externals} {w w' : World} {id : Int}

theorem later_of_identities (filesSeq : w'.db.filesSeq = w.db.filesSeq)
    (rows : w'.db.files.map FileRecord.identity = w.db.files.map FileRecord.identity) :
    Later w.book w'.book := by
  refine .of_subset filesSeq fun e he => ?_
  change e ∈ w.db.files.map FileRecord.identity
  rw [← rows]
  exact he

theorem later_of_files (db : w'.db = w.db) : Later w.book w'.book :=
  later_of_identities (by rw [db]) (by rw [db])

theorem reparse_later (text : CString) : Later w.book (w.reparse env id text).book := by
  refine later_of_identities (reparse_filesSeq ..) ?_
  simp only [World.reparse]
  cases env.parse.accepted <;> simp [World.recordParsed]

theorem discard_later (rec : FileRecord) : Later w.book (w.discard env id rec).book := by
  refine .of_subset (discard_filesSeq ..) fun e he => ?_
  obtain ⟨row, hrow, rfl⟩ := List.mem_map.mp he
  refine List.mem_map_of_mem ?_
  simp only [World.discard, sqliteDeleteFile_files] at hrow
  split at hrow
  · exact List.mem_of_mem_filter hrow
  · exact hrow

/-- Every operation keeps the meaning of the ids. -/
theorem FileEffect.later {op : FileOp} (h : FileEffect p env w op w') : Later w.book w'.book := by
  cases h with
  | nothing => exact .refl _
  | refused => exact later_of_files rfl
  | stored originalName data accepted db files filesSeq receipts receiptsSeq =>
      refine .of_append (e := (p.uploadRow env w originalName data).identity) ?_ ?_ ?_
      · change (World.analyse _ _ _ _ _).db.filesSeq = _
        rw [analyse_filesSeq]
        exact filesSeq
      · change (World.analyse _ _ _ _ _).db.files.map FileRecord.identity = _
        rw [World.analyse_identities, files, List.map_append]
        rfl
      · rfl
  | reparsed id row text => exact reparse_later text
  | reread id model row data =>
      exact later_of_identities (analyse_filesSeq ..) (World.analyse_identities ..)
  | discarded id row => exact discard_later _

end Book

section Bot
variable (bot : TgBot)

theorem dispatchStep_later (w : World) (op : CJson × Externals) :
    Later w.book (dispatchStep bot w op).book := by
  simp only [dispatchStep, botDispatchUpdate_eq, Instruction.perform_world]
  have fetched : Later w.book (w.requestAll ((readUpdate bot (some op.1)).fetches op.2)).book :=
    later_of_files rfl
  cases (readUpdate bot (some op.1)).fileOp op.2 with
  | none => exact fetched
  | some fileOp =>
      exact fetched.trans (FileOp.apply_effect bot.processor op.2 _ maxReplyLen fileOp).later

theorem botRun_later (w : World) (updates : List (CJson × Externals)) :
    Later w.book (run (dispatchStep bot) w updates).book := by
  have kept (w' : World) (op : CJson × Externals) (_ : True) (h : Later w.book w'.book) :
      Later w.book (dispatchStep bot w' op).book := h.trans (dispatchStep_later bot w' op)
  exact run_invariant kept w updates (fun _ _ => trivial) (.refl _)

variable {bot} in
/-- The row under an id is the row that was under it before. -/
theorem sameIdentity {w w' : World} (later : Later w.book w'.book) {id : Int}
    {row row' : FileRecord} (before : w.db.file? id = some row)
    (after : w'.db.file? id = some row') : row'.identity = row.identity := by
  obtain ⟨hmem, hid⟩ := Database.file?_eq_some.mp before
  obtain ⟨hmem', hid'⟩ := Database.file?_eq_some.mp after
  exact later.same (List.mem_map_of_mem hmem) (List.mem_map_of_mem hmem') (hid'.trans hid.symm)

end Bot

section Keyboard
variable (bot : TgBot) (env : Externals) (w : World)

theorem upload_row {p : Processor} {originalName : CString} {data : List UInt8} {replyLen : ℕ+}
    (h : 0 < (processorHandleFile p env w originalName data replyLen).2.outId) :
    ∃ row, (processorHandleFile p env w originalName data replyLen).1.db.file?
      (processorHandleFile p env w originalName data replyLen).2.outId = some row := by
  obtain ⟨hskip, hacc⟩ := accepted_of_outId_pos replyLen h
  obtain ⟨_, _, _, _, _, hid, _⟩ :=
    processorStoreFile_of_accepted p env w originalName data replyLen hacc
  obtain ⟨rec, hfound, _⟩ := hacc.record replyLen
  obtain ⟨_, row, hrow, _⟩ := dbRepoFindById_eq_ok.mp hfound
  rw [processorHandleFile_of_not_skipped p env w originalName data replyLen hskip, hid]
  exact ⟨row, hrow⟩

theorem retry_row {id : Int} (h : (processorRetryOcr bot.processor env w id maxReplyLen).2.rc = 0) :
    ∃ row, (processorRetryOcr bot.processor env w id maxReplyLen).1.db.file? id = some row := by
  rcases processorRetryOcr_cases bot.processor env w id maxReplyLen with
    ⟨hrc, _⟩ | ⟨row, _, _, hrow, _⟩
  · rw [hrc] at h
    exact absurd h (by decide)
  · obtain ⟨hmem, hid⟩ := Database.file?_eq_some.mp hrow
    exact ⟨row, Database.file?_eq_some.mpr
      ⟨retry_keeps_row bot.processor hmem id maxReplyLen, hid⟩⟩

theorem retryWithModel_row {id : Int} {model : CString}
    (h : (processorRetryOcrWithModel bot.processor env w id model maxReplyLen).2.rc = 0) :
    ∃ row, (processorRetryOcrWithModel bot.processor env w id model maxReplyLen).1.db.file? id =
      some row := by
  cases himage : retryImage env w id with
  | none =>
      rw [(processorRetryOcrWithModel_of_no_image bot.processor env w id model maxReplyLen
        himage).1] at h
      exact absurd h (by decide)
  | some found =>
      obtain ⟨row, hrow, _⟩ := file?_of_retryImage himage
      obtain ⟨hmem, hid⟩ := Database.file?_eq_some.mp hrow
      obtain ⟨row', hmem', hidentity⟩ :=
        retryWithModel_keeps_row bot.processor hmem id model maxReplyLen
      exact ⟨row', Database.file?_eq_some.mpr
        ⟨hmem', (congrArg FileIdentity.id hidentity).trans hid⟩⟩

theorem upload_keyboard {chatId : Int} {fileId originalName : CString} {message : Outgoing}
    {id : Int} (h : message ∈ (handleFile bot env w chatId fileId originalName).2)
    (hid : message.keyboardId = some id) :
    ∃ row, (handleFile bot env w chatId fileId originalName).1.db.file? id = some row := by
  have bare (text : CString) : message ≠ .sendMessage chatId text := by
    rintro rfl
    exact absurd hid (by simp [Outgoing.keyboardId])
  simp only [handleFile] at h ⊢
  cases hpath : env.filePath with
  | none => simp [hpath, bare] at h
  | some filePath =>
      cases hdata : env.download with
      | none => simp [hpath, hdata, bare] at h
      | some data =>
          simp only [hpath, hdata] at h ⊢
          by_cases hempty : data.isEmpty = true
          · simp [hempty, bare] at h
          · simp only [hempty, Bool.false_eq_true, if_false] at h ⊢
            by_cases hout : 0 < (processorHandleFile bot.processor env
                ((w.request (.getFilePath fileId)).request (.downloadFile filePath)) originalName
                data maxReplyLen).2.outId
            · obtain rfl : message = .sendMessageWithKeyboard chatId _ _ := by
                simpa [bare, hout] using h
              rw [← Option.some.inj hid]
              exact upload_row env _ hout
            · simp [bare, hout] at h

theorem sendRetryResult_keyboard {chatId id id' : Int} {result : RetryResult} {message : Outgoing}
    (h : message ∈ sendRetryResult chatId id result) (hid : message.keyboardId = some id') :
    id' = id ∧ result.rc = 0 := by
  simp only [sendRetryResult] at h
  split at h
  · next hrc =>
      obtain rfl := List.mem_singleton.mp h
      exact ⟨(Option.some.inj hid).symm, hrc⟩
  · obtain rfl := List.mem_singleton.mp h
    exact absurd hid (by simp [Outgoing.keyboardId])

/-- The buttons are about a record of the table. -/
theorem Instruction.AnswersTo.keyboard {instruction : Instruction} {update : Option CJson}
    (h : instruction.AnswersTo update) {message : Outgoing} {id : Int}
    (hmem : message ∈ (instruction.perform bot env w).2) (hid : message.keyboardId = some id) :
    ∃ row, (instruction.perform bot env w).1.db.file? id = some row := by
  have plain {messages : List Outgoing} (hplain : ∀ message ∈ messages, Plain update message) :
      message ∉ messages := fun hmem => by
    rw [(hplain message hmem).bare] at hid
    exact absurd hid (by simp)
  cases h with
  | reply hplain answered => exact absurd hmem (plain hplain)
  | list chat silent =>
      obtain rfl := List.mem_singleton.mp hmem
      exact absurd hid (by simp [Outgoing.keyboardId])
  | upload chat silent => exact upload_keyboard bot env w hmem hid
  | delete chat silent =>
      obtain rfl := List.mem_singleton.mp hmem
      exact absurd hid (by simp [Outgoing.keyboardId])
  | @deletePressed cbId under id query hunder =>
      simp only [Instruction.perform] at hmem
      split at hmem
      · cases under with
        | none =>
            obtain rfl := List.mem_singleton.mp hmem
            exact absurd hid (by simp [Outgoing.keyboardId])
        | some place =>
            rcases List.mem_cons.mp hmem with rfl | hmem
            · exact absurd hid (by simp [Outgoing.keyboardId])
            · obtain rfl := List.mem_singleton.mp hmem
              exact absurd hid (by simp [Outgoing.keyboardId])
      · obtain rfl := List.mem_singleton.mp hmem
        exact absurd hid (by simp [Outgoing.keyboardId])
  | retry hplain answered chat =>
      rcases List.mem_append.mp hmem with hbefore | hresult
      · exact absurd hbefore (plain hplain)
      · obtain ⟨rfl, hrc⟩ := sendRetryResult_keyboard hresult hid
        exact retry_row bot env w hrc
  | retryWithModel hplain answered chat =>
      rcases List.mem_append.mp hmem with hbefore | hresult
      · exact absurd hbefore (plain hplain)
      · obtain ⟨rfl, hrc⟩ := sendRetryResult_keyboard hresult hid
        exact retryWithModel_row bot env w hrc

end Keyboard

/-- Buttons are sent under a record that is there, and from then on their id is this record or
nothing, whatever the bot is told and whatever its calls answer. -/
theorem buttons_stay_on_their_file (bot : TgBot) (env : Externals) (w : World)
    (update : Option CJson) {message : Outgoing} {id : Int}
    (hmem : message ∈ (botDispatchUpdate bot env w update).2) (hid : message.keyboardId = some id)
    (updates : List (CJson × Externals)) :
    ∃ row, (botDispatchUpdate bot env w update).1.db.file? id = some row ∧
      ∀ row', (run (dispatchStep bot) (botDispatchUpdate bot env w update).1 updates).db.file? id =
        some row' → row'.identity = row.identity := by
  obtain ⟨row, hrow⟩ : ∃ row, (botDispatchUpdate bot env w update).1.db.file? id = some row := by
    rw [botDispatchUpdate_eq] at hmem ⊢
    exact readUpdate_answersTo.keyboard bot env w hmem hid
  refine ⟨row, hrow, fun row' hrow' => ?_⟩
  exact sameIdentity (botRun_later bot _ updates) hrow hrow'

def privateBot : TgBot where
  cfg := { allowedUsers := [7], geminiModels := [], maxFileSizeBytes := 1000 }
  processor := localProcessor

/-- A document sent by user 7 in chat 5. -/
def sentDocument : CJson := .object [(lit "message", .object [
  (lit "from", .object [(lit "id", .number 7)]), (lit "chat", .object [(lit "id", .number 5)]),
  (lit "document", .object [(lit "file_id", .string (lit "d"))])])]

def served : Externals :=
  { Externals.working 0 (lit "MILK 1.00") (lit "\x7b\x7d") with
    filePath := some (lit "documents/1"), download := some [1, 2, 3] }

theorem buttons_stay_on_their_file_first :
    ∃ message ∈ (botDispatchUpdate privateBot served .empty sentDocument).2,
      message.keyboardId = some 1 ∧
      ∃ row, (botDispatchUpdate privateBot served .empty sentDocument).1.db.file? 1 = some row ∧
        ∀ row', (run (dispatchStep privateBot)
          (botDispatchUpdate privateBot served .empty sentDocument).1
          [(sentDocument, served)]).db.file? 1 = some row' → row'.identity = row.identity := by
  have sent : (botDispatchUpdate privateBot served .empty sentDocument).2.any
      (fun message => message.keyboardId == some 1) = true := by decide +kernel
  obtain ⟨message, hmem, hid⟩ := List.any_eq_true.mp sent
  have hid : message.keyboardId = some 1 := by simpa using hid
  exact ⟨message, hmem, hid, buttons_stay_on_their_file _ _ _ _ hmem hid _⟩

section Deleted
variable {p : Processor} {env : Externals} {w w' : World} {id : Int}

theorem FileEffect.of_absent {op : FileOp} (h : FileEffect p env w op w')
    (target : op.target = some id) (absent : w.db.file? id = none) : w' = w := by
  have nowhere {id' : Int} {row : FileRecord} (htarget : some id' = some id)
      (found : w.db.file? id' = some row) : w' = w := by
    obtain rfl := Option.some.inj htarget
    rw [absent] at found
    exact absurd found (by simp)
  cases h with
  | nothing => rfl
  | refused originalName data new refused => exact absurd target (by simp [FileOp.target])
  | stored originalName data accepted db files filesSeq receipts receiptsSeq =>
      exact absurd target (by simp [FileOp.target])
  | reparsed id' row text found there => exact nowhere target found
  | reread id' model row data found there => exact nowhere target found
  | discarded id' row found => exact nowhere target found

/-- An operation on a record that is not there is not even worth a request. -/
theorem dispatchStep_of_absent {bot : TgBot} {op : CJson × Externals} {fileOp : FileOp}
    (reads : (readUpdate bot (some op.1)).fileOp op.2 = some fileOp)
    (target : fileOp.target = some id) (absent : w.db.file? id = none) :
    dispatchStep bot w op = w := by
  have fetches : (readUpdate bot (some op.1)).fetches op.2 = [] := by
    cases hread : readUpdate bot (some op.1) with
    | upload chatId fileId originalName =>
        rw [hread] at reads
        simp only [Instruction.fileOp] at reads
        split at reads
        · split at reads
          · exact absurd reads (by simp)
          · obtain rfl := Option.some.inj reads
            exact absurd target (by simp [FileOp.target])
        · exact absurd reads (by simp)
    | _ => rfl
  simp only [dispatchStep, botDispatchUpdate_eq, Instruction.perform_world, reads, Option.elim]
  have same : w.requestAll [] = w := by simp [World.requestAll]
  rw [fetches, same]
  exact (FileOp.apply_effect bot.processor op.2 w maxReplyLen fileOp).of_absent target absent

theorem Database.file?_eq_none_iff {db : Database} {id : Int} :
    db.file? id = none ↔ ∀ row ∈ db.files, row.id ≠ id := Keyed.lookup_eq_none

/-- No receipt without its file. -/
theorem Database.receipt?_of_absent {db : Database} {id : Int} (absent : db.file? id = none) :
    db.receipt? id = none := by
  refine Keyed.lookup_eq_none.mpr fun receipt hreceipt hid => ?_
  obtain ⟨row, hrow, hrowId⟩ := db.schema.foreignKey receipt hreceipt
  exact Database.file?_eq_none_iff.mp absent row hrow (hrowId.trans hid)

end Deleted

/-- After a successful delete neither the record nor its receipt ever comes back, and whatever is
asked of the id later, by a button that is still shown or by an update delivered again, changes
nothing and asks the service for nothing. -/
theorem deleted_for_good (bot : TgBot) (env : Externals) (w : World) (id : Int) (msgLen : Nat)
    (deleted : (doDeleteFile env w id msgLen).2.rc = 0) (updates : List (CJson × Externals)) :
    let w' := run (dispatchStep bot) (doDeleteFile env w id msgLen).1 updates
    w'.db.file? id = none ∧ w'.db.receipt? id = none ∧
      ∀ op fileOp, (readUpdate bot (some op.1)).fileOp op.2 = some fileOp →
        fileOp.target = some id → dispatchStep bot w' op = w' := by
  intro w'
  have hfound : env.findById = .ok ∧ ∃ row, w.db.file? id = some row := by
    by_contra hmissing
    rw [doDeleteFile_rc_of_no_row msgLen hmissing] at deleted
    exact absurd deleted (by decide)
  obtain ⟨hok, row, hrow⟩ := hfound
  have hdeleted : env.deleteRow = .ok := by
    by_contra hfailed
    rw [doDeleteFile_rc_of_row msgLen hok hrow, if_neg hfailed] at deleted
    exact absurd deleted (by decide)
  have gone : (doDeleteFile env w id msgLen).1.db.file? id = none := by
    rw [doDeleteFile_of_row msgLen hok hrow, discard_file?, if_pos hdeleted]
  have used : id ≤ (doDeleteFile env w id msgLen).1.book.last := by
    obtain ⟨hmem, hid⟩ := Database.file?_eq_some.mp hrow
    rw [doDeleteFile_of_row msgLen hok hrow]
    have counted : w.book.last ≤ (w.discard env id (readColumns row)).book.last :=
      (discard_later (readColumns row)).counted
    exact Int.le_trans (hid ▸ (w.db.schema.fileIdRange row hmem).2) counted
  have absent : w'.db.file? id = none := by
    refine Database.file?_eq_none_iff.mpr fun row' hrow' => ?_
    refine (botRun_later bot _ updates).free used (fun e he => ?_) _ (List.mem_map_of_mem hrow')
    obtain ⟨row'', hrow'', rfl⟩ := List.mem_map.mp he
    exact Database.file?_eq_none_iff.mp gone row'' hrow''
  exact ⟨absent, Database.receipt?_of_absent absent,
    fun op fileOp reads target => dispatchStep_of_absent reads target absent⟩

theorem deleted_for_good_first :
    (run (dispatchStep privateBot)
        (doDeleteFile (.working 60 (lit "") (lit "")) firstUpload.1 1 4096).1
        [(sentDocument, served)]).db.file? 1 = none :=
  (deleted_for_good privateBot _ firstUpload.1 1 4096 (by decide +kernel) _).1

end Kaufbot
