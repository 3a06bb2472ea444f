import Kaufbot.Library.Machine
import Kaufbot.Storage.Supabase

/-!
The two storage backends under the same calls. They return the same as long as
every call is about a file both can name, asks for the existence or the removal
of a file that is there, stores what it was given, and reads an empty file only
when the client is handed nothing for it. A missing file is where they part:
the local backend says so, the other reports an error.
-/

namespace Kaufbot

open CString Machine Runs

/-- The arguments of a call; `data` is what the memory holds from the pointer on. -/
inductive StorageOp where
  | saveFile (filename : CString) (data : List UInt8) (len : Nat)
  | saveText (filename text : CString)
  | readText (filename : CString)
  | readBinary (filename : CString)
  | fileExists (filename : CString)
  | deleteFile (filename : CString)

inductive StorageAnswer where
  | status (rc : Int)
  | text (contents : Option CString)
  | binary (contents : Option (List UInt8))

def StorageOp.filename : StorageOp → CString
  | .saveFile filename _ _ | .saveText filename _ | .readText filename | .readBinary filename
  | .fileExists filename | .deleteFile filename => filename

/-- The local backend on a disk without errors. -/
def localStorageStep (basePath : CString) (disk : Storage) (op : StorageOp) :
    Storage × StorageAnswer :=
  let fullPath := localFullPath basePath op.filename
  match op with
  | .saveFile _ data len =>
      let (disk, rc) := localSaveFile .complete disk fullPath (data.take len)
      (disk, .status rc)
  | .saveText _ text =>
      let (disk, rc) := localSaveText .complete disk fullPath text
      (disk, .status rc)
  | .readText _ => (disk, .text (localReadText .complete disk fullPath))
  | .readBinary _ => (disk, .binary (localReadBinary .complete disk fullPath))
  | .fileExists _ => (disk, .status (localFileExists disk fullPath))
  | .deleteFile _ =>
      let (disk, rc) := localDeleteFile .done disk fullPath
      (disk, .status rc)

variable {σ : Type}

def supabaseStorageStep (storage : SupabaseStorage) (service : ObjectService σ) (s : σ)
    (op : StorageOp) : σ × StorageAnswer :=
  match op with
  | .saveFile filename data len =>
      let (s, rc) := supabaseSaveFile storage service s filename data len
      (s, .status rc)
  | .saveText filename text =>
      let (s, rc) := supabaseSaveText storage service s filename text
      (s, .status rc)
  | .readText filename =>
      let (s, contents) := supabaseReadText storage service s filename
      (s, .text contents)
  | .readBinary filename =>
      let (s, contents) := supabaseReadBinary storage service s filename
      (s, .binary contents)
  | .fileExists filename =>
      let (s, rc) := supabaseFileExists storage service s filename
      (s, .status rc)
  | .deleteFile filename =>
      let (s, rc) := supabaseDeleteFile storage service s filename
      (s, .status rc)

section Agreement
variable (basePath : CString) (storage : SupabaseStorage) (service : ObjectService σ)

/-- Neither buffer the name goes into cuts it. -/
def NameFits (filename : CString) : Prop :=
  (CString.concat [basePath, lit "/", filename]).length < maxPathLen * 2 ∧
    (objectAddress storage filename).length < maxComposedUrl

instance (filename : CString) : Decidable (NameFits basePath storage filename) := by
  unfold NameFits
  infer_instance

/-- Nothing is written to the buffer when the object is fetched. -/
def NothingReceived (s : σ) (filename : CString) : Prop :=
  (service.answer s (configureCurl (objectRequest storage .get filename))).2.body = none

/-- The calls on which the backends agree. -/
def BackendsAgree (state : Storage × σ) (op : StorageOp) : Prop :=
  NameFits basePath storage op.filename ∧
    match op with
    | .saveFile _ data len => len = 0 → (ofBytes data).bytes = []
    | .saveText _ _ => True
    | .readText filename | .readBinary filename =>
        state.1 (localFullPath basePath filename) = some [] →
          NothingReceived storage service state.2 filename
    | .fileExists filename | .deleteFile filename =>
        (state.1 (localFullPath basePath filename)).isSome

/-- Under every name that is not cut the two backends hold the same. -/
def SameFiles (state : Storage × σ) : Prop :=
  ∀ filename, NameFits basePath storage filename →
    state.1 (localFullPath basePath filename) = service.objects state.2 filename

/-- A call returns the same from both and leaves them with the same. -/
def StepAgrees (state : Storage × σ) (op : StorageOp) : Prop :=
  (localStorageStep basePath state.1 op).2 = (supabaseStorageStep storage service state.2 op).2 ∧
    SameFiles basePath storage service
      (next (pair (localStorageStep basePath) (supabaseStorageStep storage service)) state op)

variable {basePath storage service}

theorem SameFiles.put {disk : Storage} {s s' : σ} {filename : CString} {data : List UInt8}
    (h : SameFiles basePath storage service (disk, s)) (fits : NameFits basePath storage filename)
    (objects : service.objects s' = (service.objects s).put filename data) :
    SameFiles basePath storage service (disk.put (localFullPath basePath filename) data, s') := by
  intro other otherFits
  have held : disk (localFullPath basePath other) = service.objects s other := h other otherFits
  simp only [objects, Storage.put, localFullPath_inj otherFits.1 fits.1, held]

theorem SameFiles.remove {disk : Storage} {s s' : σ} {filename : CString}
    (h : SameFiles basePath storage service (disk, s)) (fits : NameFits basePath storage filename)
    (objects : service.objects s' = (service.objects s).remove filename) :
    SameFiles basePath storage service (disk.remove (localFullPath basePath filename), s') := by
  intro other otherFits
  have held : disk (localFullPath basePath other) = service.objects s other := h other otherFits
  simp only [objects, Storage.remove, localFullPath_inj otherFits.1 fits.1, held]

theorem SameFiles.kept {disk : Storage} {s s' : σ} (h : SameFiles basePath storage service (disk, s))
    (objects : service.objects s' = service.objects s) :
    SameFiles basePath storage service (disk, s') := by
  intro other otherFits
  rw [objects]
  exact h other otherFits

theorem postFields_eq_take {data : List UInt8} {len : Nat} :
    postFields data len = data.take len ↔ (len = 0 → (ofBytes data).bytes = []) := by
  rw [postFields]
  split
  · next hlen => simp [Nat.pos_iff_ne_zero.mp hlen]
  · next hlen => simp [Nat.eq_zero_of_not_pos hlen]

section Step
variable (serves : service.Serves storage) {disk : Storage} {s : σ} {filename : CString}
  (plain : PlainName filename) (fits : NameFits basePath storage filename)
  (h : SameFiles basePath storage service (disk, s))
include serves plain fits h

theorem readBinary_agrees
    (received : disk (localFullPath basePath filename) = some [] →
      NothingReceived storage service s filename) :
    (supabaseReadBinary storage service s filename).2 =
      localReadBinary .complete disk (localFullPath basePath filename) := by
  have held : disk (localFullPath basePath filename) = service.objects s filename :=
    h filename fits
  obtain ⟨result, contents, _⟩ := supabaseReadBinary_spec serves plain fits.2 (s := s)
  rw [result, localReadBinary_complete, held]
  rw [held] at received
  cases found : service.objects s filename with
  | none => rfl
  | some bytes =>
      cases bytes with
      | nil => exact received found
      | cons b bytes =>
          have body := contents (b :: bytes) found
          cases hbody : (service.answer s (configureCurl
            (objectRequest storage .get filename))).2.body with
          | none => simp [hbody] at body
          | some got =>
              rw [hbody, Option.getD_some] at body
              simp [body, Option.filter]

/-- An empty file is null for the local backend, and not for the other one once its client has
been handed an empty body. -/
theorem readBinary_parts (hempty : disk (localFullPath basePath filename) = some [])
    (handed : ¬ NothingReceived storage service s filename) :
    (supabaseReadBinary storage service s filename).2.isSome ∧
      localReadBinary .complete disk (localFullPath basePath filename) = none := by
  have held : disk (localFullPath basePath filename) = service.objects s filename :=
    h filename fits
  rw [(supabaseReadBinary_spec serves plain fits.2).1, ← held, hempty]
  exact ⟨Option.isSome_iff_ne_none.mpr handed, by simp [hempty, Option.filter]⟩

theorem saveFile_iff (data : List UInt8) (len : Nat) :
    StepAgrees basePath storage service (disk, s) (.saveFile filename data len) ↔
      BackendsAgree basePath storage service (disk, s) (.saveFile filename data len) := by
  obtain ⟨rc, objects⟩ := supabaseSaveFile_spec serves plain fits.2 data len (s := s)
  simp only [StepAgrees, BackendsAgree, next, pair, localStorageStep, supabaseStorageStep,
    StorageOp.filename, localSaveFile_complete, rc, true_and]
  refine ⟨fun same => ⟨fits, postFields_eq_take.mp ?_⟩, fun ⟨_, whole⟩ => ?_⟩
  · have stored := same filename fits
    simp only [objects, Storage.put_same, Option.some.injEq] at stored
    exact stored.symm
  · exact h.put fits (objects.trans (by rw [postFields_eq_take.mpr whole]))

theorem saveText_iff (text : CString) :
    StepAgrees basePath storage service (disk, s) (.saveText filename text) ↔
      BackendsAgree basePath storage service (disk, s) (.saveText filename text) := by
  obtain ⟨rc, objects⟩ := supabaseSaveFile_spec serves plain fits.2 text.bytes text.length (s := s)
  rw [postFields_text] at objects
  simp only [StepAgrees, BackendsAgree, next, pair, localStorageStep, supabaseStorageStep,
    StorageOp.filename, localSaveText, localSaveFile_complete, supabaseSaveText, rc, true_and]
  exact iff_of_true (h.put fits objects) ⟨fits, trivial⟩

theorem readBinary_iff :
    StepAgrees basePath storage service (disk, s) (.readBinary filename) ↔
      BackendsAgree basePath storage service (disk, s) (.readBinary filename) := by
  obtain ⟨_, _, objects⟩ := supabaseReadBinary_spec serves plain fits.2 (s := s)
  simp only [StepAgrees, BackendsAgree, next, pair, localStorageStep, supabaseStorageStep,
    StorageOp.filename, StorageAnswer.binary.injEq]
  refine ⟨fun ⟨same, _⟩ => ⟨fits, fun hempty => ?_⟩, fun ⟨_, received⟩ => ?_⟩
  · by_contra handed
    obtain ⟨given, null⟩ := readBinary_parts serves plain fits h hempty handed
    rw [← same, null] at given
    cases given
  · exact ⟨(readBinary_agrees serves plain fits h received).symm, h.kept objects⟩

theorem readText_iff :
    StepAgrees basePath storage service (disk, s) (.readText filename) ↔
      BackendsAgree basePath storage service (disk, s) (.readText filename) := by
  obtain ⟨_, _, objects⟩ := supabaseReadBinary_spec serves plain fits.2 (s := s)
  simp only [StepAgrees, BackendsAgree, next, pair, localStorageStep, supabaseStorageStep,
    StorageOp.filename, supabaseReadText_eq, localReadText_complete, StorageAnswer.text.injEq]
  refine ⟨fun ⟨same, _⟩ => ⟨fits, fun hempty => ?_⟩, fun ⟨_, received⟩ => ?_⟩
  · by_contra handed
    obtain ⟨given, null⟩ := readBinary_parts serves plain fits h hempty handed
    rw [null, Option.map_none, eq_comm, Option.map_eq_none_iff] at same
    rw [same] at given
    cases given
  · rw [readBinary_agrees serves plain fits h received]
    exact ⟨rfl, h.kept objects⟩

theorem fileExists_iff :
    StepAgrees basePath storage service (disk, s) (.fileExists filename) ↔
      BackendsAgree basePath storage service (disk, s) (.fileExists filename) := by
  have held : disk (localFullPath basePath filename) = service.objects s filename :=
    h filename fits
  obtain ⟨rc, objects⟩ := supabaseFileExists_spec serves plain fits.2 (s := s)
  simp only [StepAgrees, BackendsAgree, next, pair, localStorageStep, supabaseStorageStep,
    StorageOp.filename, localFileExists, rc, StorageAnswer.status.injEq, held]
  cases (service.objects s filename).isSome with
  | false => simp
  | true => simp [h.kept objects, fits]

theorem deleteFile_iff :
    StepAgrees basePath storage service (disk, s) (.deleteFile filename) ↔
      BackendsAgree basePath storage service (disk, s) (.deleteFile filename) := by
  have held : disk (localFullPath basePath filename) = service.objects s filename :=
    h filename fits
  obtain ⟨rc, objects⟩ := supabaseDeleteFile_spec serves plain fits.2 (s := s)
  simp only [StepAgrees, BackendsAgree, next, pair, localStorageStep, supabaseStorageStep,
    StorageOp.filename, localDeleteFile_done, rc, StorageAnswer.status.injEq, held]
  cases (service.objects s filename).isSome with
  | false => simp
  | true => simp [h.remove fits objects, fits]

end Step

/-- A call about a name that is not cut agrees exactly when it is one of those listed. -/
theorem storageStep_iff (serves : service.Serves storage) {state : Storage × σ}
    (h : SameFiles basePath storage service state) {op : StorageOp} (plain : PlainName op.filename)
    (fits : NameFits basePath storage op.filename) :
    StepAgrees basePath storage service state op ↔
      BackendsAgree basePath storage service state op := by
  cases op with
  | saveFile filename data len => exact saveFile_iff serves plain fits h data len
  | saveText filename text => exact saveText_iff serves plain fits h text
  | readText filename => exact readText_iff serves plain fits h
  | readBinary filename => exact readBinary_iff serves plain fits h
  | fileExists filename => exact fileExists_iff serves plain fits h
  | deleteFile filename => exact deleteFile_iff serves plain fits h

/-- From empty storage the two backends return the same at every step of a run whose calls are all
ones on which they agree. -/
theorem storageBackends_agree (serves : service.Serves storage) (s : σ)
    (new : service.objects s = .empty) (ops : List StorageOp)
    (plain : ∀ op ∈ ops, PlainName op.filename)
    (agree : Guarded (next (pair (localStorageStep basePath) (supabaseStorageStep storage service)))
      (BackendsAgree basePath storage service) (.empty, s) ops) :
    trace (localStorageStep basePath) .empty ops =
      trace (supabaseStorageStep storage service) s ops := by
  have start : SameFiles basePath storage service (.empty, s) := by
    intro filename _
    rw [new]
    rfl
  refine trace_eq_of_guarded (SameFiles basePath storage service)
    (fun op => PlainName op.filename) (fun state op hplain h here => ?_) ops plain start agree
  exact (storageStep_iff serves h hplain here.1).mpr here

end Agreement

def sampleSupabase : SupabaseStorage :=
  supabaseOpen (lit "https://db.supabase.co") (lit "service-key") (lit "receipts")

/-- A text is stored, found, read and removed. -/
theorem storageBackends_agree_text :
    trace (localStorageStep (lit "data")) .empty
        [.saveText (lit "a.txt") (lit "milk"), .fileExists (lit "a.txt"), .readText (lit "a.txt"),
          .deleteFile (lit "a.txt")] =
      trace (supabaseStorageStep sampleSupabase (keyedService sampleSupabase)) .empty
        [.saveText (lit "a.txt") (lit "milk"), .fileExists (lit "a.txt"), .readText (lit "a.txt"),
          .deleteFile (lit "a.txt")] := by
  have plain : PlainName (lit "a.txt") := by decide
  have fits : NameFits (lit "data") sampleSupabase (lit "a.txt") := by decide
  refine storageBackends_agree keyedService_serves .empty rfl _ ?_ ?_
  · intro op hop
    simp only [List.mem_cons, List.not_mem_nil, or_false] at hop
    rcases hop with rfl | rfl | rfl | rfl <;> exact plain
  · exact ⟨⟨fits, trivial⟩, ⟨fits, by decide⟩, ⟨fits, fun h => absurd h (by decide)⟩,
      ⟨fits, by decide⟩, trivial⟩

/-- A file that was never saved: the local backend answers 0 and 1, the other one -1 twice. -/
theorem storageBackends_missing_file :
    trace (localStorageStep (lit "data")) .empty
        [.fileExists (lit "a.txt"), .deleteFile (lit "a.txt")] ≠
      trace (supabaseStorageStep sampleSupabase (keyedService sampleSupabase)) .empty
        [.fileExists (lit "a.txt"), .deleteFile (lit "a.txt")] := by
  intro same
  have plain : PlainName (lit "a.txt") := by decide
  have fits : NameFits (lit "data") sampleSupabase (lit "a.txt") := by decide
  have absent : (keyedService sampleSupabase).objects .empty (lit "a.txt") = none := rfl
  have answer := (supabaseFileExists_spec keyedService_serves plain fits.2 (s := .empty)).1
  rw [absent, if_neg (by decide)] at answer
  simp [trace, localStorageStep, supabaseStorageStep, localFileExists, answer, Storage.empty] at same

end Kaufbot
