import Kaufbot.Guarantees.Addressing
import Kaufbot.Guarantees.Billing

/-!
Where everything the bot keeps or sends comes from. Whatever fails on the way,
a stored image is what a user sent or the beginning of it, a stored text is
what the service read or the beginning of it, a receipt is a whole answer of
the parser, and nothing else ever leaves the process. The names keep the two
kinds of files apart, so a text is never sent as an image or the other way
round.
-/

namespace Kaufbot

open CString Keyed Runs

/-- What there is to be had from outside. -/
structure Origins where
  image : List UInt8 → Prop
  text : CString → Prop
  receipt : CString → Prop

/-- A name generated for an upload. -/
def ImageName (name : CString) : Prop := ∃ stem ext, SavedName stem ext ∧ name.bytes = stem ++ ext

/-- A name derived from one. -/
def TextName (name : CString) : Prop :=
  ∃ saved, ImageName saved ∧ name = storageOcrFilename saved maxFilename

namespace Origins
variable (o : Origins)

/-- The beginning of an image under the name of an image, or of a text under that of a text. -/
def Explains (name : CString) (bytes : List UInt8) : Prop :=
  ImageName name ∧ (∃ data, o.image data ∧ bytes <+: data) ∨
    TextName name ∧ ∃ text, o.text text ∧ bytes <+: text.bytes

/-- A request carries an image or a text, or asks for one. -/
def Permits : Request → Prop
  | .extractText data _ => o.image data
  | .extractTextWithModel data _ _ => ∃ whole, o.image whole ∧ data <+: whole
  | .parseReceipt text => ∃ whole, o.text whole ∧ text.bytes <+: whole.bytes
  | .getFilePath _ | .downloadFile _ => True

/-- What an operation that sends `sent` brings in. -/
structure Covers (env : Externals) (op : FileOp) (sent : List Request) : Prop where
  image : ∀ originalName data, op = .upload originalName data → o.image data
  text : ∀ ask ∈ sent, ask.IsReading → ∀ text, env.extract.accepted = some text → o.text text
  receipt : ∀ text, Request.parseReceipt text ∈ sent →
    ∀ json, env.parse.accepted = some json → o.receipt json

end Origins

structure World.Explained (o : Origins) (w : World) : Prop where
  files : ∀ name bytes, w.storage name = some bytes → o.Explains name bytes
  receipts : ∀ receipt ∈ w.db.receipts, o.receipt receipt.parsedJson
  requests : ∀ r ∈ w.requests, o.Permits r

theorem World.empty_explained (o : Origins) : World.empty.Explained o where
  files _ _ h := absurd h (by simp [World.empty, Storage.empty])
  receipts _ h := absurd h List.not_mem_nil
  requests _ h := absurd h List.not_mem_nil

theorem World.Explained.mono {o o' : Origins} {w : World} (h : w.Explained o)
    (image : ∀ data, o.image data → o'.image data) (text : ∀ t, o.text t → o'.text t)
    (receipt : ∀ json, o.receipt json → o'.receipt json) : w.Explained o' where
  files name bytes there := by
    refine (h.files name bytes there).imp (fun isImage => ?_) fun isText => ?_
    · obtain ⟨named, data, source, start⟩ := isImage
      exact ⟨named, data, image data source, start⟩
    · obtain ⟨named, t, source, start⟩ := isText
      exact ⟨named, t, text t source, start⟩
  receipts r hr := receipt _ (h.receipts r hr)
  requests r hr := by
    have permitted := h.requests r hr
    cases r with
    | extractText data _ => exact image data permitted
    | extractTextWithModel data _ _ =>
        obtain ⟨whole, source, start⟩ := permitted
        exact ⟨whole, image whole source, start⟩
    | parseReceipt t =>
        obtain ⟨whole, source, start⟩ := permitted
        exact ⟨whole, text whole source, start⟩
    | getFilePath _ | downloadFile _ => trivial

section Names
variable {name : CString}

theorem ImageName.ne_empty (h : ImageName name) : name ≠ .empty := by
  obtain ⟨stem, ext, hname, hbytes⟩ := h
  obtain ⟨init, b, rfl, _⟩ := hname.endsInDigit
  intro hempty
  simp [hempty] at hbytes

theorem TextName.not_image (h : TextName name) : ¬ ImageName name := by
  rintro ⟨stem, ext, hname, hbytes⟩
  obtain ⟨saved, ⟨stem', ext', hsaved, hsavedBytes⟩, rfl⟩ := h
  exact storageOcrFilename_ne_savedName hsaved hsavedBytes hname hbytes rfl

theorem RecordFits.imageName {row : FileRecord} (h : RecordFits row) :
    ImageName row.savedFileName := h.named

theorem RecordFits.not_image {row : FileRecord} (h : RecordFits row) :
    ¬ ImageName row.ocrFileName := by
  rcases h.text with ⟨_, hempty⟩ | ⟨_, hname⟩
  · exact fun image => image.ne_empty hempty
  · exact TextName.not_image ⟨row.savedFileName, h.imageName, hname⟩

end Names

section Storage
variable {Q : CString → List UInt8 → Prop} {storage : Storage} {name : CString}

/-- `Q` holds of every stored file. -/
def Storage.All (Q : CString → List UInt8 → Prop) (storage : Storage) : Prop :=
  ∀ name bytes, storage name = some bytes → Q name bytes

theorem Storage.All.put (h : storage.All Q) {bytes : List UInt8} (here : Q name bytes) :
    (storage.put name bytes).All Q := by
  intro other found there
  by_cases hname : other = name
  · subst hname
    rw [Storage.put_same] at there
    exact Option.some.inj there ▸ here
  · rw [Storage.put_of_ne _ _ hname] at there
    exact h other found there

/-- A write that fails half way has still written a beginning. -/
theorem Storage.All.saveFile (h : storage.All Q) (outcome : WriteOutcome) {data : List UInt8}
    (here : ∀ written, written <+: data → Q name written) :
    (localSaveFile outcome storage name data).1.All Q := by
  simp only [localSaveFile]
  cases hcontents : outcome.contents data with
  | none => exact h
  | some written => exact h.put (here written (WriteOutcome.contents_prefix hcontents))

theorem Storage.All.deleteFile (h : storage.All Q) (outcome : RemoveOutcome) :
    (localDeleteFile outcome storage name).1.All Q := by
  intro other bytes there
  rw [localDeleteFile_apply] at there
  split at there
  · cases there
  · exact h other bytes there

theorem Storage.All.readBinary (h : storage.All Q) {outcome : ReadOutcome} {data : List UInt8}
    (read : localReadBinary outcome storage name = some data) :
    ∃ bytes, Q name bytes ∧ data <+: bytes := by
  cases there : storage name with
  | none => cases outcome <;> simp [localReadBinary, there] at read
  | some bytes =>
      refine ⟨bytes, h name bytes there, ?_⟩
      cases outcome with
      | failed => simp [localReadBinary] at read
      | complete =>
          obtain ⟨_, rfl⟩ : _ ∧ bytes = data := by
            simpa [localReadBinary, there, ReadOutcome.delivered] using read
          exact List.prefix_refl _
      | shortRead count =>
          obtain ⟨_, rfl⟩ : _ ∧ bytes.take count = data := by
            simpa [localReadBinary, there, ReadOutcome.delivered] using read
          exact List.take_prefix count bytes

/-- A text is what a binary read would give, up to its first NUL. -/
theorem localReadText_eq (outcome : ReadOutcome) (storage : Storage) (name : CString) :
    localReadText outcome storage name = (localReadBinary outcome storage name).map .ofBytes := by
  cases there : storage name with
  | none => cases outcome <;> simp [localReadText, localReadBinary, there]
  | some bytes =>
      cases outcome with
      | failed => rfl
      | complete | shortRead _ =>
          simp only [localReadText, localReadBinary, there]
          split <;> rfl

end Storage

section Receipts
variable (check write : SqlOutcome) (now : Int) (db : Database) (id : Int) (json : CString)

/-- What is recorded is the text it was given, in the row that was there or in a new one; the
other receipts stay as they are. -/
theorem sqliteMarkParsingDone_receipts {receipt : ParsedReceipt}
    (h : receipt ∈ (sqliteMarkParsingDone check write now db id json).1.receipts) :
    receipt ∈ db.receipts ∨ (∃ old ∈ db.receipts, receipt = old.setJson json now) ∨
      receipt = insertedReceipt now db id json := by
  simp only [sqliteMarkParsingDone] at h
  split at h
  · exact Or.inl h
  · split at h
    · simp only [sqliteUpdateParsed] at h
      split at h
      · obtain ⟨old, hold, rfl⟩ := mem_updateWhere.mp h
        split
        · exact Or.inr (Or.inl ⟨old, hold, rfl⟩)
        · exact Or.inl hold
      · exact Or.inl h
    · simp only [sqliteInsertParsed] at h
      split at h
      · rcases List.mem_append.mp h with hold | hnew
        · exact Or.inl hold
        · exact Or.inr (Or.inr (List.mem_singleton.mp hnew))
      · exact Or.inl h

end Receipts

section Steps
variable {o : Origins} {p : Processor} {env : Externals} {w w' : World} {op : FileOp}
  {sent : List Request}

theorem World.Explained.readImage (h : w.Explained o) (fits : w.Fits) {id : Int}
    {row : FileRecord} (found : w.db.file? id = some row) {data : List UInt8}
    (read : localReadBinary env.readBinary w.storage (readColumns row).savedFileName = some data) :
    ∃ whole, o.image whole ∧ data <+: whole := by
  have rowFits := fits row (Database.file?_eq_some.mp found).1
  rw [rowFits.columns] at read
  obtain ⟨bytes, explained, start⟩ := Storage.All.readBinary h.files read
  rcases explained with ⟨_, whole, hwhole, hbytes⟩ | ⟨isText, _⟩
  · exact ⟨whole, hwhole, start.trans hbytes⟩
  · exact absurd rowFits.imageName isText.not_image

theorem World.Explained.readText (h : w.Explained o) (fits : w.Fits) {id : Int}
    {row : FileRecord} (found : w.db.file? id = some row) {text : CString}
    (read : localReadText env.readText w.storage (readColumns row).ocrFileName = some text) :
    ∃ whole, o.text whole ∧ text.bytes <+: whole.bytes := by
  have rowFits := fits row (Database.file?_eq_some.mp found).1
  rw [rowFits.columns, localReadText_eq] at read
  obtain ⟨data, hdata, rfl⟩ := Option.map_eq_some_iff.mp read
  obtain ⟨bytes, explained, start⟩ := Storage.All.readBinary h.files hdata
  rcases explained with ⟨isImage, _⟩ | ⟨_, whole, hwhole, hbytes⟩
  · exact absurd isImage rowFits.not_image
  · have beginning := start.trans hbytes
    refine ⟨whole, hwhole, ?_⟩
    rwa [ofBytes_of_nulFree fun nul => whole.nulFree (beginning.subset nul)]

theorem World.Explained.permits (h : w.Explained o) (fits : w.Fits) (covers : o.Covers env op sent)
    {r : Request} (sends : op.Sends env w sent r) : o.Permits r := by
  cases r with
  | extractText data originalName => exact covers.image originalName data sends
  | extractTextWithModel data originalName model =>
      obtain ⟨id, row, _, found, _, read⟩ := sends
      exact h.readImage fits found read
  | parseReceipt text =>
      rcases sends with ⟨⟨ask, asked, reading⟩, accepted⟩ | ⟨id, row, _, found, read⟩
      · exact ⟨text, covers.text ask asked reading text accepted, List.prefix_refl _⟩
      · exact h.readText fits found read
  | getFilePath _ | downloadFile _ => trivial

theorem recordParsed_receipts {id : Int} {json : CString} (answered : o.receipt json)
    (before : ∀ receipt ∈ w.db.receipts, o.receipt receipt.parsedJson) :
    ∀ receipt ∈ (w.recordParsed env id json).db.receipts, o.receipt receipt.parsedJson := by
  intro receipt hreceipt
  obtain hold | ⟨_, _, rfl⟩ | rfl := sqliteMarkParsingDone_receipts _ _ _ _ _ _ hreceipt
  · exact before receipt hold
  · exact answered
  · exact answered

theorem analyse_receipts (id : Int) (ocrName : CString) (ask : Request)
    (answered : ∀ text, env.extract.accepted = some text →
      ∀ json, env.parse.accepted = some json → o.receipt json)
    (before : ∀ receipt ∈ w.db.receipts, o.receipt receipt.parsedJson) :
    ∀ receipt ∈ (w.analyse env id ocrName ask).db.receipts, o.receipt receipt.parsedJson := by
  simp only [World.analyse]
  cases hextract : env.extract.accepted with
  | none => exact before
  | some text =>
      have marked : ∀ receipt ∈
          ((w.request ask).recordText env id ocrName text).db.receipts,
          o.receipt receipt.parsedJson := by
        simpa [World.recordText] using before
      cases hparse : env.parse.accepted with
      | none => exact marked
      | some json => exact recordParsed_receipts (answered text hextract json hparse) marked

theorem analyse_files_explained (id : Int) {ocrName : CString} (named : TextName ocrName)
    (ask : Request) (answered : ∀ text, env.extract.accepted = some text → o.text text)
    (before : w.storage.All o.Explains) :
    (w.analyse env id ocrName ask).storage.All o.Explains := by
  rw [World.analyse_storage]
  cases haccepted : env.extract.accepted with
  | none => exact before
  | some text =>
      exact before.saveFile _ fun written start =>
        Or.inr ⟨named, text, answered text haccepted, start⟩

theorem discard_files_explained (id : Int) (rec : FileRecord) (before : w.storage.All o.Explains) :
    (w.discard env id rec).storage.All o.Explains := by
  simp only [World.discard]
  have saved : (if rec.savedFileName.bytes.isEmpty then w.storage
      else (localDeleteFile env.deleteSaved w.storage rec.savedFileName).1).All o.Explains := by
    split
    · exact before
    · exact before.deleteFile _
  split
  · exact saved
  · exact saved.deleteFile _

theorem discard_receipts_subset (id : Int) (rec : FileRecord) :
    (w.discard env id rec).db.receipts ⊆ w.db.receipts := by
  intro receipt h
  simp only [World.discard, sqliteDeleteFile] at h
  split at h
  · exact List.mem_of_mem_filter h
  · exact h

/-- A reading and the parse after it bring in what they cover. -/
theorem analyse_explained {v : World} {id : Int} {ocrName : CString} {ask : Request}
    (covers : o.Covers env op sent) (reading : ask.IsReading) (named : TextName ocrName)
    (requests : v.requests = w.requests)
    (log : (v.analyse env id ocrName ask).requests = w.requests ++ sent)
    (files : v.storage.All o.Explains) (receipts : ∀ receipt ∈ v.db.receipts,
      o.receipt receipt.parsedJson) :
    (v.analyse env id ocrName ask).storage.All o.Explains ∧
      ∀ receipt ∈ (v.analyse env id ocrName ask).db.receipts, o.receipt receipt.parsedJson := by
  rw [analyse_requests, requests] at log
  obtain rfl := List.append_cancel_left log
  have read := covers.text ask List.mem_cons_self reading
  refine ⟨analyse_files_explained id named ask read files,
    analyse_receipts id ocrName ask (fun text extracted => covers.receipt text ?_) receipts⟩
  simp [extracted]

/-- Every operation brings in what it covers and mixes nothing up. -/
theorem FileEffect.explained (h : FileEffect p env w op w')
    (log : w'.requests = w.requests ++ sent) (covers : o.Covers env op sent) (fits : w.Fits)
    (before : w.Explained o) : w'.Explained o := by
  have requests : ∀ r ∈ w'.requests, o.Permits r := by
    obtain ⟨new, billed⟩ := h.sent
    obtain rfl := List.append_cancel_left (billed.log.symm.trans log)
    intro r hr
    rw [log] at hr
    rcases List.mem_append.mp hr with hold | hnew
    · exact before.requests r hold
    · exact before.permits fits covers (billed.sends r hnew)
  suffices kept : w'.storage.All o.Explains ∧
      ∀ receipt ∈ w'.db.receipts, o.receipt receipt.parsedJson from
    ⟨kept.1, kept.2, requests⟩
  cases h with
  | nothing => exact ⟨before.files, before.receipts⟩
  | refused originalName data new refused =>
      refine ⟨Storage.All.saveFile before.files _ fun written start => ?_, before.receipts⟩
      exact Or.inl ⟨savedName_bytes p env originalName, data, covers.image _ data rfl, start⟩
  | stored originalName data accepted db files filesSeq receipts receiptsSeq =>
      have named : ImageName (p.savedName env originalName) := savedName_bytes p env originalName
      refine analyse_explained covers rfl ⟨_, named, rfl⟩ rfl log ?_ ?_
      · exact Storage.All.saveFile before.files _ fun written start =>
          Or.inl ⟨named, data, covers.image _ data rfl, start⟩
      · simpa [receipts] using before.receipts
  | reparsed id row text found there =>
      rw [reparse_requests] at log
      obtain rfl := List.append_cancel_left log
      simp only [World.reparse]
      cases hparse : env.parse.accepted with
      | none => exact ⟨before.files, before.receipts⟩
      | some json =>
          have answered := covers.receipt text List.mem_cons_self json hparse
          exact ⟨before.files, recordParsed_receipts answered before.receipts⟩
  | reread id model row data found there =>
      have rowFits := fits row (Database.file?_eq_some.mp found).1
      rw [rowFits.columns] at log ⊢
      exact analyse_explained covers rfl ⟨_, rowFits.imageName, rfl⟩ rfl log before.files
        before.receipts
  | discarded id row found =>
      exact ⟨discard_files_explained id _ before.files,
        fun receipt hreceipt => before.receipts receipt (discard_receipts_subset id _ hreceipt)⟩

end Steps

/-- What these updates brought: the files allowed users sent, as they were downloaded, and the
answers to what allowed users asked for. -/
def received (bot : TgBot) (updates : List (CJson × Externals)) : Origins where
  image data := ∃ op ∈ updates, authorised bot.cfg op.1 = true ∧ op.2.download = some data ∧
    ∃ chatId fileId originalName, readUpdate bot (some op.1) = .upload chatId fileId originalName
  text text := ∃ op ∈ updates, authorised bot.cfg op.1 = true ∧ op.2.extract.accepted = some text
  receipt json := ∃ op ∈ updates, authorised bot.cfg op.1 = true ∧
    op.2.parse.accepted = some json

section Run
variable {bot : TgBot} {updates : List (CJson × Externals)} {op : CJson × Externals}

theorem authorised_of_fileOp {fileOp : FileOp}
    (h : (readUpdate bot (some op.1)).fileOp op.2 = some fileOp) :
    authorised bot.cfg op.1 = true := by
  cases hauth : authorised bot.cfg op.1 with
  | true => rfl
  | false =>
      obtain ⟨messages, hread, _⟩ := readUpdate_of_unauthorised hauth
      rw [hread] at h
      cases h

theorem Instruction.fileOp_eq_upload {instruction : Instruction} {env : Externals}
    {originalName : CString} {data : List UInt8}
    (h : instruction.fileOp env = some (.upload originalName data)) :
    (∃ path, env.filePath = some path) ∧ env.download = some data ∧
      ∃ chatId fileId, instruction = .upload chatId fileId originalName := by
  cases instruction with
  | upload chatId fileId name =>
      simp only [Instruction.fileOp] at h
      split at h
      · next path bytes hpath hdownload =>
          split at h
          · cases h
          · obtain ⟨rfl, rfl⟩ := FileOp.upload.inj (Option.some.inj h)
            exact ⟨⟨path, hpath⟩, hdownload, chatId, fileId, rfl⟩
      · cases h
  | reply _ | list _ => cases h
  | delete _ _ | deletePressed _ _ _ | retry _ _ _ | retryWithModel _ _ _ _ => cases h

theorem dispatchStep_explained {o : Origins} {w : World}
    (covers : ∀ fileOp, (readUpdate bot (some op.1)).fileOp op.2 = some fileOp →
      ∀ sent, (dispatchStep bot w op).requests =
        (w.requestAll ((readUpdate bot (some op.1)).fetches op.2)).requests ++ sent →
      o.Covers op.2 fileOp sent)
    (h : w.Fits ∧ w.Explained o) :
    (dispatchStep bot w op).Fits ∧ (dispatchStep bot w op).Explained o := by
  have fetched : (w.requestAll ((readUpdate bot (some op.1)).fetches op.2)).Explained o := by
    refine ⟨h.2.files, h.2.receipts, fun r hr => ?_⟩
    rcases List.mem_append.mp hr with hold | hfetch
    · exact h.2.requests r hold
    · have isFetch := (readUpdate bot (some op.1)).fetches_isFetch op.2 r hfetch
      cases r with
      | getFilePath _ | downloadFile _ => trivial
      | extractText _ _ | extractTextWithModel _ _ _ | parseReceipt _ => cases isFetch
  have fits : (w.requestAll ((readUpdate bot (some op.1)).fetches op.2)).Fits := h.1
  refine ⟨dispatchStep_fits h.1, ?_⟩
  simp only [dispatchStep, botDispatchUpdate_eq, Instruction.perform_world] at covers ⊢
  cases hread : (readUpdate bot (some op.1)).fileOp op.2 with
  | none => exact fetched
  | some fileOp =>
      rw [hread] at covers
      have effect := FileOp.apply_effect bot.processor op.2
        (w.requestAll ((readUpdate bot (some op.1)).fetches op.2)) maxReplyLen fileOp
      obtain ⟨sent, billed⟩ := effect.sent
      exact effect.explained billed.log (covers fileOp rfl sent billed.log) fits fetched

/-- A run keeps to what its updates bring in. -/
theorem botRun_explained {o : Origins}
    (covers : ∀ op ∈ updates, ∀ fileOp, (readUpdate bot (some op.1)).fileOp op.2 = some fileOp →
      ∀ sent, o.Covers op.2 fileOp sent) : (run (dispatchStep bot) .empty updates).Explained o := by
  have kept (w : World) (op : CJson × Externals) (hop : op ∈ updates)
      (h : w.Fits ∧ w.Explained o) :
      (dispatchStep bot w op).Fits ∧ (dispatchStep bot w op).Explained o :=
    dispatchStep_explained (fun fileOp hread sent _ => covers op hop fileOp hread sent) h
  exact (run_invariant kept .empty updates (fun _ hop => hop)
    ⟨World.empty_fits, World.empty_explained o⟩).2

theorem received_covers (hop : op ∈ updates) {fileOp : FileOp}
    (h : (readUpdate bot (some op.1)).fileOp op.2 = some fileOp) (sent : List Request) :
    (received bot updates).Covers op.2 fileOp sent where
  image originalName data hupload := by
    obtain ⟨_, hdownload, chatId, fileId, hread⟩ := Instruction.fileOp_eq_upload (hupload ▸ h)
    exact ⟨op, hop, authorised_of_fileOp h, hdownload, chatId, fileId, originalName, hread⟩
  text _ _ _ text accepted := ⟨op, hop, authorised_of_fileOp h, accepted⟩
  receipt _ _ json accepted := ⟨op, hop, authorised_of_fileOp h, accepted⟩

end Run

/-- Whatever happens in a run of the bot, and whatever fails: every stored file is what an allowed
user sent or what the service read for one, or the beginning of it, under a name of its kind; every
receipt is a whole answer of the parser; and every image or text that was sent out is one of
those. -/
theorem everything_has_a_source (bot : TgBot) (updates : List (CJson × Externals)) :
    (run (dispatchStep bot) .empty updates).Explained (received bot updates) :=
  botRun_explained fun _ hop _ hread sent => received_covers hop hread sent

end Kaufbot
