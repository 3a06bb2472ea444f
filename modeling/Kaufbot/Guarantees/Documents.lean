import Kaufbot.Infra.DocumentStore
import Kaufbot.Library.Ledger
import Kaufbot.Library.Machine

/-!
The document store as a store of documents and texts that stay apart. Each of
them has a file, named by the id alone or by the id and the kind of text, and
the ledger of a run says what the calls so far have promised of it. What the
store answers and what its files hold agree with the ledger exactly as long as
no call touches the file of something else that was promised.
-/

namespace Kaufbot

open CString Ledger Machine Runs

inductive DocumentItem where
  | document (docId : CString)
  | text (docId textType : CString)
deriving DecidableEq

namespace DocumentItem

def docId : DocumentItem → CString
  | .document docId | .text docId _ => docId

/-- The bytes of a document, and the string that `read_text` returns. -/
def Reading : DocumentItem → Type
  | .document _ => Option (List UInt8)
  | .text _ _ => Option CString

def layout : Layout DocumentItem CString (List UInt8) Reading where
  name
    | .document docId => docId
    | .text docId textType => storageDocTextFilename docId textType
  read
    | .document _, contents => contents
    | .text _ _, contents => (contents.filter (· ≠ [])).map .ofBytes

theorem read_text (docId textType text : CString) :
    layout.read (.text docId textType) (some text.bytes) =
      if text = .empty then none else some text := by
  have read : ((some text.bytes).filter (· ≠ [])).map CString.ofBytes =
      if text = .empty then none else some text := by
    by_cases blank : text = .empty
    · simp [blank, Option.filter]
    · have written : text.bytes ≠ [] := fun h => blank (CString.ext h)
      simp [blank, written, Option.filter]
  exact read

end DocumentItem

open DocumentItem (layout)

/-- A buffer for a document id has at least 64 bytes. -/
structure DocIdBuffer where
  size : Nat
  documented : 64 ≤ size

/-- The storage is a map, which may refuse a file and otherwise holds it as it was given. -/
inductive DocumentOp where
  | storeDocument (refused : Bool) (now : Int) (originalName : CString) (data : List UInt8)
      (buffer : DocIdBuffer)
  | storeText (refused : Bool) (docId textType text : CString)
  | readText (docId textType : CString)
  | deleteDocument (docId : CString)
  | documentExists (docId : CString)

inductive DocumentAnswer where
  | stored (result : Except DocStoreError CString)
  | done (result : Except DocStoreError Unit)
  | read (text : Option CString)
  | found (rc : Int)

def mapWrite (refused : Bool) : WriteOutcome := if refused then .openFailed else .complete

def documentStep (zone : TimeZone) (storage : Storage) : DocumentOp → Storage × DocumentAnswer
  | .storeDocument refused now originalName data buffer =>
      let (storage, result) :=
        storageDocStoreDocument (mapWrite refused) zone now storage originalName data buffer.size
      (storage, .stored result)
  | .storeText refused docId textType text =>
      let (storage, result) := storageDocStoreText (mapWrite refused) storage docId textType text
      (storage, .done result)
  | .readText docId textType =>
      (storage, .read (storageDocReadText .complete storage docId textType))
  | .deleteDocument docId =>
      let (storage, result) := storageDocDelete .done .done .done storage docId
      (storage, .done result)
  | .documentExists docId => (storage, .found (storageDocExists storage docId))

abbrev DocumentLedger := (item : DocumentItem) → Option item.Reading

/-- What has to be read once a call has succeeded: what was stored last, where an empty text counts
as none, and nothing of all that was stored for a deleted document. -/
def DocumentLedger.record (ledger : DocumentLedger) : DocumentOp → DocumentAnswer → DocumentLedger
  | .storeDocument _ _ _ data _, .stored (.ok docId) =>
      promise ledger (.document docId) (some data)
  | .storeText _ docId textType text, .done (.ok ()) =>
      promise ledger (.text docId textType) (if text = .empty then none else some text)
  | .deleteDocument docId, .done (.ok ()) =>
      layout.revoke (fun item => item.docId = docId) ledger
  | _, _ => ledger

structure DocumentRun where
  storage : Storage
  ledger : DocumentLedger

def recordedStep (zone : TimeZone) (s : DocumentRun) (op : DocumentOp) :
    DocumentRun × DocumentAnswer :=
  let (storage, answer) := documentStep zone s.storage op
  (⟨storage, s.ledger.record op answer⟩, answer)

/-- A document that was stored and not deleted since. -/
def DocumentRun.Live (s : DocumentRun) (docId : CString) : Prop :=
  ∃ data, s.ledger (.document docId) = some (some data)

/-- Every document and every text is found as the ledger has it, and not found once deleted. -/
structure DocumentRun.Faithful (s : DocumentRun) : Prop where
  documents : ∀ docId bytes, s.ledger (.document docId) = some bytes →
    s.storage docId = bytes ∧ storageDocExists s.storage docId = if bytes.isSome then 1 else 0
  texts : ∀ docId textType text, s.ledger (.text docId textType) = some text →
    storageDocReadText .complete s.storage docId textType = text

/-- A new document gets an id that no live one has, a deleted one does not exist whether it was
stored or not, and everything is found as it should be. -/
structure KeepsApart (zone : TimeZone) (s : DocumentRun) (op : DocumentOp) : Prop where
  fresh : ∀ docId, (recordedStep zone s op).2 = .stored (.ok docId) → ¬ s.Live docId
  deleted : ∀ docId, op = .deleteDocument docId →
    storageDocExists (next (recordedStep zone) s op).storage docId = 0
  faithful : (next (recordedStep zone) s op).Faithful

/-- Nothing else that was promised reads differently from a file `name` with these contents. -/
def DocumentRun.Unshared (s : DocumentRun) (item : DocumentItem) (name : CString)
    (contents : List UInt8) : Prop :=
  ∀ other, other ≠ item → layout.name other = name → ∀ promised, s.ledger other = some promised →
    layout.read other (some contents) = promised

/-- The id fits its buffer and is not a live one, and the new file is nothing else's; a deletion
removes the files of all that was stored for the document and of nothing else. -/
def Separate (zone : TimeZone) (s : DocumentRun) : DocumentOp → Prop
  | .storeDocument false now originalName data buffer =>
      let savedName := storageDocSavedName zone now originalName
      let docId := snprintf buffer.size savedName
      (savedName.length < buffer.size ∨ s.storage docId = some data) ∧ ¬ s.Live docId ∧
        s.Unshared (.document docId) savedName data
  | .storeText false docId textType text =>
      s.Unshared (.text docId textType) (storageDocTextFilename docId textType) text.bytes
  | .deleteDocument docId =>
      ∀ item reading, s.ledger item = some reading →
        (item.docId = docId ↔ layout.name item ∈ storageDocFiles docId) ∨
          reading = layout.gone item
  | _ => True

theorem faithful_iff_kept (s : DocumentRun) : s.Faithful ↔ layout.Kept s.ledger s.storage := by
  constructor
  · intro h item reading entry
    cases item with
    | document docId => exact (h.documents docId reading entry).1
    | text docId textType =>
        have read := h.texts docId textType reading entry
        rwa [storageDocReadText, localReadText_complete, localReadBinary_complete] at read
  · intro kept
    constructor
    · intro docId bytes entry
      have file : s.storage docId = bytes := kept (.document docId) bytes entry
      exact ⟨file, by rw [storageDocExists, localFileExists, file]⟩
    · intro docId textType text entry
      rw [storageDocReadText, localReadText_complete, localReadBinary_complete]
      exact kept (.text docId textType) text entry

section Step
variable {zone : TimeZone} {s : DocumentRun}

theorem storageDocExists_of_deleted (docId : CString) :
    storageDocExists (next (recordedStep zone) s (.deleteDocument docId)).storage docId = 0 := by
  have removed : docId ∈ storageDocFiles docId := List.mem_cons_self
  have absent : (storageDocDelete .done .done .done s.storage docId).1 docId = none :=
    (storageDocDelete_done s.storage docId docId).trans (if_pos removed)
  change storageDocExists (storageDocDelete .done .done .done s.storage docId).1 docId = 0
  rw [storageDocExists, localFileExists, absent]
  rfl

theorem keepsApart_iff_kept {op : DocumentOp} {storage : Storage} {ledger : DocumentLedger}
    {answer : DocumentAnswer} (step : recordedStep zone s op = (⟨storage, ledger⟩, answer)) :
    KeepsApart zone s op ↔
      (∀ docId, answer = .stored (.ok docId) → ¬ s.Live docId) ∧ layout.Kept ledger storage := by
  have after : next (recordedStep zone) s op = ⟨storage, ledger⟩ := congrArg Prod.fst step
  constructor
  · intro apart
    have fresh := apart.fresh
    have faithful := apart.faithful
    rw [step] at fresh
    rw [after, faithful_iff_kept] at faithful
    exact ⟨fresh, faithful⟩
  · intro ⟨fresh, kept⟩
    refine ⟨?_, ?_, ?_⟩
    · rw [step]
      exact fresh
    · intro docId deletion
      subst deletion
      exact storageDocExists_of_deleted docId
    · rw [after, faithful_iff_kept]
      exact kept

/-- A call that changes nothing and stores no document leaves everything as it was. -/
theorem keepsApart_of_unchanged {op : DocumentOp} {answer : DocumentAnswer} (h : s.Faithful)
    (step : recordedStep zone s op = (s, answer))
    (other : ∀ docId, answer ≠ .stored (.ok docId)) : KeepsApart zone s op :=
  (keepsApart_iff_kept step).mpr
    ⟨fun docId stored => absurd stored (other docId), (faithful_iff_kept s).mp h⟩

theorem recordedStep_storeDocument (now : Int) (originalName : CString) (data : List UInt8)
    (buffer : DocIdBuffer) {savedName docId : CString}
    (named : storageDocSavedName zone now originalName = savedName)
    (filled : snprintf buffer.size savedName = docId) :
    recordedStep zone s (.storeDocument false now originalName data buffer) =
      (⟨s.storage.put savedName data, promise s.ledger (.document docId) (some data)⟩,
        .stored (.ok docId)) := by
  simp [recordedStep, documentStep, storageDocStoreDocument, mapWrite, DocumentLedger.record,
    named, filled]

theorem live_storeDocument (now : Int) (originalName : CString) (data : List UInt8)
    (buffer : DocIdBuffer) {savedName docId : CString}
    (named : storageDocSavedName zone now originalName = savedName)
    (filled : snprintf buffer.size savedName = docId) :
    (next (recordedStep zone) s
      (.storeDocument false now originalName data buffer)).Live docId := by
  rw [next, recordedStep_storeDocument now originalName data buffer named filled]
  exact ⟨data, promise_same s.ledger (.document docId) (some data)⟩

theorem storeDocument_keepsApart_iff (h : s.Faithful) (now : Int) (originalName : CString)
    (data : List UInt8) (buffer : DocIdBuffer) :
    KeepsApart zone s (.storeDocument false now originalName data buffer) ↔
      Separate zone s (.storeDocument false now originalName data buffer) := by
  rw [Separate]
  generalize named : storageDocSavedName zone now originalName = savedName
  generalize filled : snprintf buffer.size savedName = docId
  have elsewhere (n : CString) (ne : n ≠ savedName) :
      s.storage.put savedName data n = s.storage n := Storage.put_of_ne _ _ ne
  have found : s.storage.put savedName data docId = some data ↔
      savedName.length < buffer.size ∨ s.storage docId = some data := by
    by_cases fits : savedName.length < buffer.size
    · have whole : docId = savedName := filled ▸ snprintf_of_length_lt fits
      simp [whole, fits]
    · have cut : docId ≠ savedName := by
        intro whole
        have room : 0 < buffer.size := Nat.lt_of_lt_of_le (by decide) buffer.documented
        have short := length_snprintf_lt room savedName
        rw [filled, whole] at short
        exact fits short
      rw [elsewhere docId cut]
      exact (or_iff_right fits).symm
  have kept := ((faithful_iff_kept s).mp h).write_iff (.document docId) (some data)
    (Storage.put_same ..) elsewhere
  rw [keepsApart_iff_kept (recordedStep_storeDocument now originalName data buffer named filled),
    kept]
  constructor
  · intro ⟨fresh, itself, others⟩
    exact ⟨found.mp itself, fresh docId rfl, others⟩
  · intro ⟨fits, dead, unshared⟩
    refine ⟨?_, found.mpr fits, unshared⟩
    intro id stored
    cases stored
    exact dead

theorem storeText_keepsApart_iff (h : s.Faithful) (docId textType text : CString) :
    KeepsApart zone s (.storeText false docId textType text) ↔
      Separate zone s (.storeText false docId textType text) := by
  have step : recordedStep zone s (.storeText false docId textType text) =
      (⟨s.storage.put (storageDocTextFilename docId textType) text.bytes,
        promise s.ledger (.text docId textType) (if text = .empty then none else some text)⟩,
        .done (.ok ())) := by
    simp [recordedStep, documentStep, storageDocStoreText, localSaveText, mapWrite,
      DocumentLedger.record]
  have written := Storage.put_same s.storage (storageDocTextFilename docId textType) text.bytes
  have kept := ((faithful_iff_kept s).mp h).write_iff (.text docId textType)
    (if text = .empty then none else some text) written
    (fun n ne => Storage.put_of_ne _ _ ne)
  rw [keepsApart_iff_kept step, kept, Separate]
  constructor
  · intro ⟨_, _, others⟩
    exact others
  · intro unshared
    refine ⟨nofun, ?_, unshared⟩
    exact (congrArg (layout.read (.text docId textType)) written).trans
      (DocumentItem.read_text docId textType text)

theorem deleteDocument_keepsApart_iff (h : s.Faithful) (docId : CString) :
    KeepsApart zone s (.deleteDocument docId) ↔ Separate zone s (.deleteDocument docId) := by
  have step : recordedStep zone s (.deleteDocument docId) =
      (⟨(storageDocDelete .done .done .done s.storage docId).1,
        layout.revoke (fun item => item.docId = docId) s.ledger⟩, .done (.ok ())) := rfl
  have kept := ((faithful_iff_kept s).mp h).remove_iff (fun item => item.docId = docId)
    (fun n gone => (storageDocDelete_done s.storage docId n).trans (if_pos gone))
    (fun n stays => (storageDocDelete_done s.storage docId n).trans (if_neg stays))
  rw [keepsApart_iff_kept step, kept, Separate]
  exact and_iff_right nofun

/-- One call keeps documents and texts apart exactly when it is separate. -/
theorem keepsApart_iff_separate (h : s.Faithful) (op : DocumentOp) :
    KeepsApart zone s op ↔ Separate zone s op := by
  have unchanged {op : DocumentOp} {answer : DocumentAnswer}
      (step : recordedStep zone s op = (s, answer))
      (other : ∀ docId, answer ≠ .stored (.ok docId)) : KeepsApart zone s op ↔ True :=
    iff_true_intro (keepsApart_of_unchanged h step other)
  cases op with
  | storeDocument refused now originalName data buffer =>
      cases refused with
      | false => exact storeDocument_keepsApart_iff h now originalName data buffer
      | true => exact @unchanged _ (.stored (.error .storage)) rfl nofun
  | storeText refused docId textType text =>
      cases refused with
      | false => exact storeText_keepsApart_iff h docId textType text
      | true => exact @unchanged _ (.done (.error .storage)) rfl nofun
  | readText docId textType => exact unchanged rfl nofun
  | deleteDocument docId => exact deleteDocument_keepsApart_iff h docId
  | documentExists docId => exact unchanged rfl nofun

end Step

/-- Whatever the storage holds at first, a run keeps its documents and texts apart exactly when
every call is separate from what was promised before it. -/
theorem documents_apart_iff (zone : TimeZone) (storage : Storage) (ops : List DocumentOp) :
    Guarded (next (recordedStep zone)) (KeepsApart zone) ⟨storage, blank⟩ ops ↔
      Guarded (next (recordedStep zone)) (Separate zone) ⟨storage, blank⟩ ops :=
  guarded_iff_guarded DocumentRun.Faithful
    (fun _ op h separate => ((keepsApart_iff_separate h op).mpr separate).faithful)
    (fun _ op h => keepsApart_iff_separate h op) ops
    ((faithful_iff_kept _).mpr (layout.kept_blank storage))

/-- Two documents stored in one second under one extension have one id, and the first is lost. -/
theorem documents_of_one_second :
    ¬ Guarded (next (recordedStep .utc)) (KeepsApart .utc) ⟨.empty, blank⟩
      [.storeDocument false 1700000000 (lit "a.jpg") [1] ⟨64, by decide⟩,
        .storeDocument false 1700000000 (lit "b.jpg") [2] ⟨64, by decide⟩] := by
  intro ⟨_, second, _⟩
  have extension : uploadExtension (lit "a.jpg") = uploadExtension (lit "b.jpg") := by decide
  have oneName : storageDocSavedName .utc 1700000000 (lit "a.jpg") =
      storageDocSavedName .utc 1700000000 (lit "b.jpg") := by
    rw [storageDocSavedName, extension]
    rfl
  exact second.fresh _ rfl (live_storeDocument _ _ _ _ oneName rfl)

end Kaufbot
