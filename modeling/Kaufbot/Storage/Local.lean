import Kaufbot.Library.CString

/-!
The local storage backend. A directory is a partial function from names (or
full paths) to contents; what the operating system does with one call is given
by the outcome that call carries. Opening a file for writing empties it, so a write that
is cut short leaves a prefix of the data under the name, whether it is noticed or not:
what `fwrite` takes is checked, what `fclose` then brings to the disk is not.
-/

namespace Kaufbot

abbrev Storage := CString → Option (List UInt8)

namespace Storage

def empty : Storage := fun _ => none

def put (storage : Storage) (name : CString) (bytes : List UInt8) : Storage :=
  fun n => if n = name then some bytes else storage n

def remove (storage : Storage) (name : CString) : Storage :=
  fun n => if n = name then none else storage n

variable (storage : Storage) (name other : CString) (bytes : List UInt8)

@[simp] theorem put_same : storage.put name bytes name = some bytes := by simp [put]

@[simp] theorem remove_same : storage.remove name name = none := by simp [remove]

variable {other name}

theorem put_of_ne (h : other ≠ name) : storage.put name bytes other = storage other := by
  simp [put, h]

theorem remove_of_ne (h : other ≠ name) : storage.remove name other = storage other := by
  simp [remove, h]

variable {storage bytes}

theorem put_eq_self (h : storage name = some bytes) : storage.put name bytes = storage := by
  funext n
  by_cases hn : n = name
  · rw [hn, put_same, h]
  · exact put_of_ne storage bytes hn

theorem put_eq_self_iff : storage.put name bytes = storage ↔ storage name = some bytes := by
  refine ⟨fun h => ?_, put_eq_self⟩
  rw [← h, put_same]

end Storage

/-- What happens to one call that writes a file. `fwrite` may take less than it is given, and the
bytes it has taken may be lost when `fclose` flushes them. -/
inductive WriteOutcome where
  | complete
  | openFailed
  | shortWrite (accepted : Nat)
  | flushFailed (kept : Nat)
deriving DecidableEq

/-- What happens to one call that reads a file which exists. -/
inductive ReadOutcome where
  | complete
  | failed
  | shortRead (count : Nat)
deriving DecidableEq

inductive RemoveOutcome where
  | done
  | failed
deriving DecidableEq

/-- The contents of the file after the write, unless it could not be opened. -/
def WriteOutcome.contents (outcome : WriteOutcome) (data : List UInt8) : Option (List UInt8) :=
  match outcome with
  | .complete => some data
  | .openFailed => none
  | .shortWrite accepted => some (data.take accepted)
  | .flushFailed kept => some (data.take kept)

/-- The number of bytes `fwrite` says it has written. -/
def WriteOutcome.written (outcome : WriteOutcome) (data : List UInt8) : Nat :=
  match outcome with
  | .complete | .flushFailed _ => data.length
  | .openFailed => 0
  | .shortWrite accepted => min accepted data.length

/-- The file is opened and `fwrite` takes every byte. -/
def WriteOutcome.Reported (outcome : WriteOutcome) (data : List UInt8) : Prop :=
  outcome ≠ .openFailed ∧ outcome.written data = data.length

instance (outcome : WriteOutcome) (data : List UInt8) : Decidable (outcome.Reported data) := by
  unfold WriteOutcome.Reported
  infer_instance

def ReadOutcome.delivered (outcome : ReadOutcome) (bytes : List UInt8) : List UInt8 :=
  match outcome with
  | .shortRead count => bytes.take count
  | _ => bytes

def maxPathLen : Nat := 512

def localOpen (storagePath : CString) : CString := CString.snprintf maxPathLen storagePath

/-- The path of a file, which every operation composes anew. -/
def localFullPath (basePath filename : CString) : CString :=
  CString.snprintf (maxPathLen * 2) (.concat [basePath, CString.lit "/", filename])

def localSaveFile (outcome : WriteOutcome) (storage : Storage) (filename : CString)
    (data : List UInt8) : Storage × Int :=
  match outcome.contents data with
  | none => (storage, -1)
  | some contents =>
      -- the result of `fclose` is ignored
      (storage.put filename contents, if outcome.written data ≠ data.length then -1 else 0)

def localSaveText (outcome : WriteOutcome) (storage : Storage) (filename text : CString) :
    Storage × Int :=
  localSaveFile outcome storage filename text.bytes

def localReadText (outcome : ReadOutcome) (storage : Storage) (filename : CString) :
    Option CString :=
  match outcome, storage filename with
  | .failed, _ | _, none => none
  | outcome, some bytes =>
      if bytes.isEmpty then none else some (.ofBytes (outcome.delivered bytes))

/-- The buffer and its length `*out_len`. -/
def localReadBinary (outcome : ReadOutcome) (storage : Storage) (filename : CString) :
    Option (List UInt8) :=
  match outcome, storage filename with
  | .failed, _ | _, none => none
  | outcome, some bytes => if bytes.isEmpty then none else some (outcome.delivered bytes)

def localFileExists (storage : Storage) (filename : CString) : Int :=
  if (storage filename).isSome then 1 else 0

/-- 0 when the file was removed, 1 when there was none, -1 on failure. -/
def localDeleteFile (outcome : RemoveOutcome) (storage : Storage) (filename : CString) :
    Storage × Int :=
  match outcome, storage filename with
  | .failed, _ => (storage, -1)
  | .done, none => (storage, 1)
  | .done, some _ => (storage.remove filename, 0)

/-- Local files have no public address. -/
def localGetPublicUrl (_filename : CString) : Option CString := none

@[simp] theorem localSaveFile_complete (storage : Storage) (filename : CString)
    (data : List UInt8) :
    localSaveFile .complete storage filename data = (storage.put filename data, 0) := by
  simp [localSaveFile, WriteOutcome.contents, WriteOutcome.written]

theorem WriteOutcome.contents_prefix {outcome : WriteOutcome} {data written : List UInt8}
    (h : outcome.contents data = some written) : written <+: data := by
  cases outcome with
  | complete => exact (Option.some.inj h) ▸ List.prefix_refl _
  | openFailed => cases h
  | shortWrite count | flushFailed count => exact (Option.some.inj h) ▸ List.take_prefix count data

theorem WriteOutcome.contents_subset {outcome : WriteOutcome} {data written : List UInt8}
    (h : outcome.contents data = some written) : written ⊆ data := by
  cases outcome with
  | complete => exact (Option.some.inj h) ▸ List.Subset.refl _
  | openFailed => cases h
  | shortWrite count | flushFailed count => exact (Option.some.inj h) ▸ List.take_subset count data

/-- Zero is returned for what `fwrite` took, whatever the file holds then. -/
theorem localSaveFile_eq_zero_iff {outcome : WriteOutcome} {storage : Storage}
    {filename : CString} {data : List UInt8} :
    (localSaveFile outcome storage filename data).2 = 0 ↔ outcome.Reported data := by
  have rc (n : Nat) : (if n ≠ data.length then (-1 : Int) else 0) = 0 ↔ n = data.length := by
    by_cases h : n = data.length <;> simp [h]
  cases outcome with
  | openFailed => simp [localSaveFile, WriteOutcome.contents, WriteOutcome.Reported]
  | complete | shortWrite | flushFailed => exact (rc _).trans (by simp [WriteOutcome.Reported])

theorem WriteOutcome.Reported.complete (data : List UInt8) : WriteOutcome.complete.Reported data :=
  ⟨by decide, rfl⟩

theorem WriteOutcome.Reported.exists_contents {outcome : WriteOutcome} {data : List UInt8}
    (h : outcome.Reported data) : ∃ contents, outcome.contents data = some contents := by
  cases outcome with
  | openFailed => exact absurd rfl h.1
  | complete | shortWrite | flushFailed => exact ⟨_, rfl⟩

theorem localSaveFile_of_ne {outcome : WriteOutcome} {storage : Storage} {filename other : CString}
    {data : List UInt8} (h : other ≠ filename) :
    (localSaveFile outcome storage filename data).1 other = storage other := by
  simp only [localSaveFile]
  cases outcome.contents data with
  | none => rfl
  | some contents => exact Storage.put_of_ne _ _ h

theorem localDeleteFile_of_ne {outcome : RemoveOutcome} {storage : Storage}
    {filename other : CString} (h : other ≠ filename) :
    (localDeleteFile outcome storage filename).1 other = storage other := by
  cases outcome with
  | failed => rfl
  | done =>
      simp only [localDeleteFile]
      cases storage filename with
      | none => rfl
      | some bytes => exact Storage.remove_of_ne _ h

/-- A delete that is done takes the file away if there is one; any other changes nothing. -/
theorem localDeleteFile_apply (outcome : RemoveOutcome) (storage : Storage)
    (filename name : CString) :
    (localDeleteFile outcome storage filename).1 name =
      if name = filename ∧ outcome = .done then none else storage name := by
  cases outcome with
  | failed => simp [localDeleteFile]
  | done =>
      cases h : storage filename with
      | none =>
          by_cases hname : name = filename
          · simp [localDeleteFile, h, hname]
          · simp [localDeleteFile, h, hname]
      | some bytes => simp [localDeleteFile, h, Storage.remove]

theorem localDeleteFile_done_same (storage : Storage) (filename : CString) :
    (localDeleteFile .done storage filename).1 filename = none := by
  simp only [localDeleteFile]
  cases h : storage filename with
  | none => exact h
  | some bytes => exact Storage.remove_same ..

@[simp] theorem localReadBinary_complete (storage : Storage) (filename : CString) :
    localReadBinary .complete storage filename = (storage filename).filter (· ≠ []) := by
  cases h : storage filename with
  | none => simp [localReadBinary, h]
  | some bytes => cases bytes <;> simp [localReadBinary, h, ReadOutcome.delivered, Option.filter]

@[simp] theorem localReadText_complete (storage : Storage) (filename : CString) :
    localReadText .complete storage filename =
      (localReadBinary .complete storage filename).map .ofBytes := by
  cases h : storage filename with
  | none => simp [localReadText, h]
  | some bytes => cases bytes <;> simp [localReadText, h, ReadOutcome.delivered, Option.filter]

theorem localDeleteFile_done (storage : Storage) (filename : CString) :
    localDeleteFile .done storage filename =
      (storage.remove filename, if (storage filename).isSome then 0 else 1) := by
  cases h : storage filename with
  | some bytes => simp [localDeleteFile, h]
  | none =>
      have unchanged : storage.remove filename = storage := by
        funext name
        by_cases hname : name = filename <;> simp [Storage.remove, hname, h]
      simp [localDeleteFile, h, unchanged]

/-- Names that are not cut have paths of their own. -/
theorem localFullPath_inj {basePath filename other : CString}
    (fits : (CString.concat [basePath, .lit "/", filename]).length < maxPathLen * 2)
    (otherFits : (CString.concat [basePath, .lit "/", other]).length < maxPathLen * 2) :
    localFullPath basePath filename = localFullPath basePath other ↔ filename = other := by
  rw [localFullPath, localFullPath, CString.snprintf_of_length_lt fits,
    CString.snprintf_of_length_lt otherFits, CString.ext_iff, CString.ext_iff]
  simp

end Kaufbot
