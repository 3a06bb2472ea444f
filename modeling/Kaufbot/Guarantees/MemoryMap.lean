import Kaufbot.Infra.MemoryRepository
import Kaufbot.Library.Keyed
import Kaufbot.Library.Machine

/-!
The in-memory repository as an ordered map: a sequence of at most a hundred
records with increasing ids and distinct hashes. The array with its searches
and its shifting removal answers every sequence of calls as the sequence does.
Arguments fit the fields they are copied into; receipts are left to the
comparison with the database.
-/

namespace Kaufbot

open CString Keyed Machine Runs

inductive MapOp where
  | insert (originalName hash savedFilename : CString)
  | markOcrComplete (id : Int) (ocrFilename : CString)
  | deleteById (id : Int)
  | findByHash (hash : CString)
  | findById (id : Int)
  | list (limit : Int)
  | clear

inductive MapAnswer where
  | found (result : Except FileRepoError FileRecord)
  | inserted (result : Except FileRepoError Int)
  | done (result : Except FileRepoError Unit)
  | visited (records : List FileRecord)
  | cleared

def InsertFits (originalName hash savedFilename : CString) : Prop :=
  originalName.length < dbOrigNameLen ∧ hash.length < dbHashLen ∧
    savedFilename.length < dbFilenameLen

/-- No argument is cut when it is stored. -/
def MapOp.Fits : MapOp → Prop
  | .insert originalName hash savedFilename => InsertFits originalName hash savedFilename
  | .markOcrComplete _ ocrFilename => ocrFilename.length < dbOcrFilenameLen
  | _ => True

instance (originalName hash savedFilename : CString) :
    Decidable (InsertFits originalName hash savedFilename) := by
  unfold InsertFits
  infer_instance

instance : DecidablePred MapOp.Fits
  | .insert originalName hash savedFilename =>
      inferInstanceAs (Decidable (InsertFits originalName hash savedFilename))
  | .markOcrComplete _ ocrFilename =>
      inferInstanceAs (Decidable (ocrFilename.length < dbOcrFilenameLen))
  | .deleteById _ | .findByHash _ | .findById _ | .list _ | .clear => isTrue trivial

def memStep (repo : MemoryFileRepository) : MapOp → MemoryFileRepository × MapAnswer
  | .insert originalName hash savedFilename =>
      let (repo, result) := memRepoInsert repo originalName hash savedFilename
      (repo, .inserted result)
  | .markOcrComplete id ocrFilename =>
      let (repo, result) := memRepoMarkOcrComplete repo id ocrFilename
      (repo, .done result)
  | .deleteById id =>
      let (repo, result) := memRepoDeleteById repo id
      (repo, .done result)
  | .findByHash hash => (repo, .found (memRepoFindByHash repo hash))
  | .findById id => (repo, .found (memRepoFindById repo id))
  | .list limit => (repo, .visited (memRepoList repo limit))
  | .clear => (fileRepositoryMemoryClear repo, .cleared)

/-- What the repository is for: the live records, oldest first, and the next id. -/
structure RecordMap where
  records : List FileRecord
  nextId : Int

namespace RecordMap

def empty : RecordMap := { records := [], nextId := 1 }

def insert (map : RecordMap) (originalName hash savedFilename : CString) :
    RecordMap × Except FileRepoError Int :=
  if maxMemoryRecords ≤ map.records.length then (map, .error .memory)
  else if map.records.any (fun rec => rec.fileHash = hash) then (map, .error .duplicate)
  else
    let record : FileRecord :=
      { FileRecord.zero with
        id := map.nextId
        originalFileName := originalName
        fileHash := hash
        savedFileName := savedFilename }
    ({ records := map.records ++ [record], nextId := map.nextId + 1 }, .ok map.nextId)

/-- `f` of the record with the id, the others as they are. -/
def update (map : RecordMap) (id : Int) (f : FileRecord → FileRecord) :
    RecordMap × Except FileRepoError Unit :=
  if map.records.any (fun rec => rec.id = id) then
    ({ map with records := updateWhere (fun rec => rec.id = id) f map.records }, .ok ())
  else (map, .error .notFound)

def markOcr (ocrFilename : CString) (rec : FileRecord) : FileRecord :=
  { rec with isOcrProcessed := 1, ocrFileName := ocrFilename }

def delete (map : RecordMap) (id : Int) : RecordMap × Except FileRepoError Unit :=
  if map.records.any (fun rec => rec.id = id) then
    ({ map with records := map.records.filter (fun rec => rec.id ≠ id) }, .ok ())
  else (map, .error .notFound)

def find {κ : Type} [DecidableEq κ] (key : FileRecord → κ) (map : RecordMap) (k : κ) :
    Except FileRepoError FileRecord :=
  match lookup key k map.records with
  | some rec => .ok rec
  | none => .error .notFound

/-- The newest records first; all of them unless the limit is positive. -/
def newest (map : RecordMap) (limit : Int) : List FileRecord :=
  if limit ≤ 0 then map.records.reverse else map.records.reverse.take limit.toNat

def step (map : RecordMap) : MapOp → RecordMap × MapAnswer
  | .insert originalName hash savedFilename =>
      let (map, result) := map.insert originalName hash savedFilename
      (map, .inserted result)
  | .markOcrComplete id ocrFilename =>
      let (map, result) := map.update id (markOcr ocrFilename)
      (map, .done result)
  | .deleteById id =>
      let (map, result) := map.delete id
      (map, .done result)
  | .findByHash hash => (map, .found (map.find FileRecord.fileHash hash))
  | .findById id => (map, .found (map.find FileRecord.id id))
  | .list limit => (map, .visited (map.newest limit))
  | .clear => (empty, .cleared)

/-- At most a hundred records, in the order of their ids, which are below the next one, and no two
with one hash. -/
structure Ordered (map : RecordMap) : Prop where
  bounded : map.records.length ≤ maxMemoryRecords
  ids : (map.records.map FileRecord.id).Pairwise (· < ·)
  below : ∀ rec ∈ map.records, rec.id < map.nextId
  hashes : UniqueOn FileRecord.fileHash map.records

theorem ordered_empty : empty.Ordered where
  bounded := Nat.zero_le _
  ids := List.Pairwise.nil
  below := fun _ h => absurd h List.not_mem_nil
  hashes := uniqueOn_nil _

variable {map : RecordMap}

theorem Ordered.uniqueIds (h : map.Ordered) : UniqueOn FileRecord.id map.records :=
  h.ids.imp (fun hlt => Int.ne_of_lt hlt)

theorem Ordered.insert (h : map.Ordered) (originalName hash savedFilename : CString) :
    (map.insert originalName hash savedFilename).1.Ordered := by
  simp only [RecordMap.insert]
  split
  · exact h
  · next room =>
      split
      · exact h
      · next fresh =>
          constructor
          · simp only [List.length_append, List.length_singleton]
            omega
          · simp only [List.map_append, List.map_cons, List.map_nil]
            refine List.pairwise_append.mpr ⟨h.ids, List.pairwise_singleton _ _, ?_⟩
            intro id hid next hnext
            obtain ⟨rec, hrec, rfl⟩ := List.mem_map.mp hid
            obtain rfl := List.mem_singleton.mp hnext
            exact h.below rec hrec
          · intro rec hrec
            rcases List.mem_append.mp hrec with hold | hnew
            · exact Int.lt_trans (h.below rec hold) (Int.lt_succ _)
            · obtain rfl := List.mem_singleton.mp hnew
              exact Int.lt_succ _
          · refine h.hashes.append _ (fun other hother heq => fresh ?_)
            exact List.any_eq_true.mpr ⟨other, hother, by simpa using heq⟩

theorem Ordered.update (h : map.Ordered) (id : Int) {f : FileRecord → FileRecord}
    (kept : ∀ rec, (f rec).id = rec.id ∧ (f rec).fileHash = rec.fileHash) :
    (map.update id f).1.Ordered := by
  simp only [RecordMap.update]
  split
  · constructor
    · simpa only [updateWhere, List.length_map] using h.bounded
    · rw [map_updateWhere _ (fun rec _ _ => (kept rec).1)]
      exact h.ids
    · intro rec hrec
      obtain ⟨old, hold, rfl⟩ := mem_updateWhere.mp hrec
      split
      · rw [(kept old).1]
        exact h.below old hold
      · exact h.below old hold
    · exact h.hashes.updateWhere (fun rec _ _ => (kept rec).2)
  · exact h

theorem Ordered.delete (h : map.Ordered) (id : Int) : (map.delete id).1.Ordered := by
  simp only [RecordMap.delete]
  split
  · exact
      { bounded := (List.length_filter_le _ _).trans h.bounded
        ids := h.ids.sublist (List.filter_sublist.map _)
        below := fun rec hrec => h.below rec (List.mem_of_mem_filter hrec)
        hashes := h.hashes.filter _ }
  · exact h

end RecordMap

/-- The slots in use are the records of the map, in order. -/
structure HoldsMap (repo : MemoryFileRepository) (map : RecordMap) : Prop where
  records : repo.records.toList = map.records
  nextId : repo.nextId = map.nextId
  ordered : map.Ordered

section Refinement
variable {repo : MemoryFileRepository} {map : RecordMap}

theorem holdsMap_new : HoldsMap fileRepositoryMemoryNew .empty where
  records := Slots.toList_zeroed _
  nextId := rfl
  ordered := RecordMap.ordered_empty

theorem HoldsMap.count (h : HoldsMap repo map) : repo.records.count = map.records.length := by
  rw [← Slots.length_toList, h.records]

theorem strncpy_of_length_lt {n : Nat} {s : CString} (h : s.length < n) : strncpy (n - 1) s = s :=
  snprintf_of_length_lt h

theorem HoldsMap.insert (h : HoldsMap repo map) {originalName hash savedFilename : CString}
    (fits : InsertFits originalName hash savedFilename) :
    (memRepoInsert repo originalName hash savedFilename).2 =
        (map.insert originalName hash savedFilename).2 ∧
      HoldsMap (memRepoInsert repo originalName hash savedFilename).1
        (map.insert originalName hash savedFilename).1 := by
  have ordered := h.ordered.insert originalName hash savedFilename
  obtain ⟨hname, hhash, hsaved⟩ := fits
  simp only [memRepoInsert, RecordMap.insert, h.count, Slots.search_isSome, h.records] at ordered ⊢
  by_cases room : map.records.length < maxMemoryRecords
  · rw [dif_pos room, if_neg (Nat.not_le.mpr room)]
    rw [if_neg (Nat.not_le.mpr room)] at ordered
    split
    · exact ⟨rfl, h⟩
    · next fresh =>
        rw [if_neg fresh] at ordered
        refine ⟨congrArg Except.ok h.nextId, ?_, congrArg (· + 1) h.nextId, ordered⟩
        rw [Slots.toList_push, h.records, h.nextId]
        simp only [memRepoRecord, strncpy_of_length_lt hname, strncpy_of_length_lt hhash,
          strncpy_of_length_lt hsaved]
  · rw [dif_neg room, if_pos (Nat.not_lt.mp room)]
    exact ⟨rfl, h⟩

theorem HoldsMap.markOcr (h : HoldsMap repo map) (id : Int) {ocrFilename : CString}
    (fits : ocrFilename.length < dbOcrFilenameLen) :
    (memRepoMarkOcrComplete repo id ocrFilename).2 =
        (map.update id (RecordMap.markOcr ocrFilename)).2 ∧
      HoldsMap (memRepoMarkOcrComplete repo id ocrFilename).1
        (map.update id (RecordMap.markOcr ocrFilename)).1 := by
  have ordered := h.ordered.update id (f := RecordMap.markOcr ocrFilename) (fun _ => ⟨rfl, rfl⟩)
  have unique := h.ordered.uniqueIds
  have found := repo.records.modifyFirst_isSome (fun rec => decide (rec.id = id))
    (FileRecord.setOcr ocrFilename)
  rw [h.records] at found
  have same : FileRecord.setOcr ocrFilename = RecordMap.markOcr ocrFilename := by
    funext rec
    simp only [FileRecord.setOcr, RecordMap.markOcr, strncpy_of_length_lt fits]
  simp only [memRepoMarkOcrComplete, RecordMap.update] at ordered ⊢
  cases hmodify : repo.records.modifyFirst (fun rec => decide (rec.id = id))
      (FileRecord.setOcr ocrFilename) with
  | none =>
      rw [hmodify, Option.isSome_none] at found
      rw [if_neg (by simp [← found])]
      exact ⟨rfl, h⟩
  | some records =>
      rw [hmodify, Option.isSome_some] at found
      rw [if_pos found.symm] at ordered ⊢
      refine ⟨rfl, ?_, h.nextId, ordered⟩
      rw [← h.records] at unique
      rw [Slots.toList_modifyFirst unique hmodify, h.records, same]

theorem HoldsMap.delete (h : HoldsMap repo map) (id : Int) :
    (memRepoDeleteById repo id).2 = (map.delete id).2 ∧
      HoldsMap (memRepoDeleteById repo id).1 (map.delete id).1 := by
  have ordered := h.ordered.delete id
  have unique := h.ordered.uniqueIds
  have found := repo.records.eraseFirst_isSome (fun rec => decide (rec.id = id))
  rw [h.records] at found
  simp only [memRepoDeleteById, RecordMap.delete] at ordered ⊢
  cases herase : repo.records.eraseFirst (fun rec => decide (rec.id = id)) with
  | none =>
      rw [herase, Option.isSome_none] at found
      rw [if_neg (by simp [← found])]
      exact ⟨rfl, h⟩
  | some records =>
      rw [herase, Option.isSome_some] at found
      rw [if_pos found.symm] at ordered ⊢
      refine ⟨rfl, ?_, h.nextId, ordered⟩
      rw [← h.records] at unique
      rw [Slots.toList_eraseFirst unique herase, h.records]

theorem HoldsMap.find {κ : Type} [DecidableEq κ] (h : HoldsMap repo map) (key : FileRecord → κ)
    (k : κ) : memRepoFind repo (fun rec => key rec = k) = map.find key k := by
  have found : repo.records.findFirst (fun rec => key rec = k) = lookup key k map.records := by
    rw [Slots.findFirst_eq, h.records, lookup]
  cases hrow : lookup key k map.records with
  | none => simp only [memRepoFind, RecordMap.find, found, hrow]
  | some row => simp only [memRepoFind, RecordMap.find, found, hrow]

theorem HoldsMap.newest (h : HoldsMap repo map) (limit : Int) :
    memRepoList repo limit = map.newest limit := by
  have whole : map.records.reverse.take map.records.length = map.records.reverse :=
    List.take_of_length_le (by simp)
  simp only [memRepoList, RecordMap.newest, Slots.visitDown_eq, h.count, h.records,
    List.take_length, Nat.sub_zero]
  by_cases hpos : limit ≤ 0
  · rw [if_neg (by omega), if_pos hpos, whole]
  · rw [if_neg hpos]
    split
    · rfl
    · rw [whole, List.take_of_length_le]
      rw [List.length_reverse]
      omega

/-- One call of the repository is one step of the map. -/
theorem HoldsMap.step (h : HoldsMap repo map) {op : MapOp} (fits : op.Fits) :
    (memStep repo op).2 = (map.step op).2 ∧ HoldsMap (memStep repo op).1 (map.step op).1 := by
  cases op with
  | insert originalName hash savedFilename =>
      obtain ⟨same, next⟩ := h.insert fits
      exact ⟨congrArg MapAnswer.inserted same, next⟩
  | markOcrComplete id ocrFilename =>
      obtain ⟨same, next⟩ := h.markOcr id fits
      exact ⟨congrArg MapAnswer.done same, next⟩
  | deleteById id =>
      obtain ⟨same, next⟩ := h.delete id
      exact ⟨congrArg MapAnswer.done same, next⟩
  | findByHash hash => exact ⟨congrArg MapAnswer.found (h.find FileRecord.fileHash hash), h⟩
  | findById id => exact ⟨congrArg MapAnswer.found (h.find FileRecord.id id), h⟩
  | list limit => exact ⟨congrArg MapAnswer.visited (h.newest limit), h⟩
  | clear => exact ⟨rfl, Slots.toList_clear _, rfl, RecordMap.ordered_empty⟩

/-- Every sequence of calls on a new repository is answered as by the map, and leaves the slots
holding its records. -/
theorem memoryRepository_ordered_map (ops : List MapOp) (fits : ∀ op ∈ ops, op.Fits) :
    trace memStep fileRepositoryMemoryNew ops = trace RecordMap.step .empty ops ∧
      HoldsMap (run (next memStep) fileRepositoryMemoryNew ops)
        (run (next RecordMap.step) .empty ops) :=
  simulation MapOp.Fits (fun _ _ _ fits h => h.step fits) ops fits holdsMap_new

/-- A record, one with the same hash, a mark, a listing and a removal. -/
def fewCalls : List MapOp :=
  [.insert (lit "a.jpg") (lit "aa") (lit "u1.jpg"), .insert (lit "b.jpg") (lit "aa") (lit "u2.jpg"),
    .markOcrComplete 1 (lit "u1_ocr_result.txt"), .list 5, .deleteById 1, .findById 1]

theorem memoryRepository_ordered_map_fewCalls :
    trace memStep fileRepositoryMemoryNew fewCalls = trace RecordMap.step .empty fewCalls ∧
      HoldsMap (run (next memStep) fileRepositoryMemoryNew fewCalls)
        (run (next RecordMap.step) .empty fewCalls) :=
  memoryRepository_ordered_map fewCalls (by decide)

end Refinement

end Kaufbot
