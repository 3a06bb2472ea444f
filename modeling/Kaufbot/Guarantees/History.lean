import Kaufbot.Guarantees.Identifiers
import Kaufbot.Guarantees.ListReply
import Kaufbot.Guarantees.Provenance
import Kaufbot.Library.CalendarOrder

/-!
The table tells when things happened. Timestamps are kept and sorted as text, and
the order of the texts is the order of the times; so as long as the clock does
not go back nothing is updated before it was created, no receipt is older than
its file, and `/list` starts with the latest uploads.
-/

namespace Kaufbot

open CString Runs Keyed

section Texts

theorem printPadded_bytes {n : Int} (nonneg : 0 ≤ n) (width : Nat) :
    (printPadded width n).bytes = padBytes width n.toNat := by
  obtain ⟨k, rfl⟩ := Int.eq_ofNat_of_zero_le nonneg
  rfl

theorem nowIso8601_bytes {t : Int} (start : 0 ≤ t) (last : t < yearTenThousand) :
    (nowIso8601 t).bytes =
      padBytes 4 ((gmtime t).year + 1900).toNat ++ 45 :: (padBytes 2 ((gmtime t).mon + 1).toNat ++
        45 :: (padBytes 2 (gmtime t).mday.toNat ++ 84 :: (padBytes 2 (gmtime t).hour.toNat ++
          58 :: (padBytes 2 (gmtime t).min.toNat ++ 58 :: (padBytes 2 (gmtime t).sec.toNat ++
            [90]))))) := by
  obtain ⟨year, mon, mday, hour, min, sec⟩ := gmtime_ranges start last
  have dash : (lit "-").bytes = [45] := by decide
  have letter : (lit "T").bytes = [84] := by decide
  have colon : (lit ":").bytes = [58] := by decide
  have zone : (lit "Z").bytes = [90] := by decide
  have four {n : Int} (range : 0 ≤ n ∧ n < 10000) : (padBytes 4 n.toNat).length = 4 :=
    length_padBytes (by decide) (by omega)
  have two {n : Int} (range : 0 ≤ n ∧ n < 100) : (padBytes 2 n.toNat).length = 2 :=
    length_padBytes (by decide) (by omega)
  rw [nowIso8601]
  rw [snprintf_of_length_lt]
  · simp [bytes_concat, printPadded_bytes, year.1, mon.1, mday.1, hour.1, min.1, sec.1, dash, letter,
      colon, zone]
  · simp [CString.length, bytes_concat, printPadded_bytes, year.1, mon.1, mday.1, hour.1, min.1,
      sec.1, dash, letter, colon, zone, four year, two mon, two mday, two hour, two min, two sec,
      dbDateLen]

/-- Of two readings of the clock the later one has the later text. -/
theorem nowIso8601_lt {t t' : Int} (start : 0 ≤ t) (h : t < t') (last : t' < yearTenThousand) :
    (nowIso8601 t).bytes < (nowIso8601 t').bytes := by
  obtain ⟨year, mon, mday, hour, min, sec⟩ := gmtime_ranges start (by omega)
  obtain ⟨year', mon', mday', hour', min', sec'⟩ := gmtime_ranges (show 0 ≤ t' by omega) last
  have field {width : Nat} {n k : Int} {r s : List UInt8} (some : 0 < width)
      (range : 0 ≤ n ∧ n < (10 ^ width : Nat)) (range' : 0 ≤ k ∧ k < (10 ^ width : Nat))
      (b : UInt8) (h : n < k ∨ n = k ∧ r < s) :
      padBytes width n.toNat ++ b :: r < padBytes width k.toNat ++ b :: s := by
    refine padBytes_append_lt some (by omega) (by omega) (h.imp (by omega) ?_)
    rintro ⟨rfl, rest⟩
    exact ⟨rfl, List.cons_lt_cons_iff.mpr (.inr ⟨rfl, rest⟩)⟩
  rw [nowIso8601_bytes start (by omega), nowIso8601_bytes (by omega) last]
  refine field (by decide) year year' 45 ((gmtime_before h).imp (by omega) (.imp (by omega) ?_))
  refine fun h => field (by decide) mon mon' 45 (h.imp (by omega) (.imp (by omega) ?_))
  refine fun h => field (by decide) mday mday' 84 (h.imp id (.imp id ?_))
  refine fun h => field (by decide) hour hour' 58 (h.imp id (.imp id ?_))
  refine fun h => field (by decide) min min' 58 (h.imp id (.imp id ?_))
  exact fun h => field (by decide) sec sec' 90 (.inl h)

end Texts

/-- The texts of two readings of the clock up to now, the second not before the first. -/
def Dated (now : Int) (first second : CString) : Prop :=
  ∃ s t, 0 ≤ s ∧ s ≤ t ∧ t ≤ now ∧ first = nowIso8601 s ∧ second = nowIso8601 t

/-- Rows stand in the order they were inserted in, and their dates agree with it. -/
structure Database.Timely (now : Int) (db : Database) : Prop where
  files : ∀ row ∈ db.files, Dated now row.createdAt row.updatedAt
  receipts : ∀ receipt ∈ db.receipts, Dated now receipt.createdAt receipt.updatedAt
  order : db.files.Pairwise fun a b => a.id < b.id ∧ Dated now a.createdAt b.createdAt
  parents : ∀ receipt ∈ db.receipts, ∀ row ∈ db.files, row.id = receipt.fileId →
    Dated now row.createdAt receipt.createdAt

/-- The readings of the clock while an update is handled, none of them before `now`. -/
structure Externals.Ticks (env : Externals) (now : Int) : Prop where
  insert : now ≤ env.insertTime
  markOcr : env.insertTime ≤ env.markOcrTime
  markParsing : env.markOcrTime ≤ env.markParsingTime

/-- The clock does not go back, and does not reach the year 10000. -/
def Clocked : Int → List (CJson × Externals) → Prop
  | now, [] => now < yearTenThousand
  | now, op :: ops => op.2.Ticks now ∧ Clocked op.2.markParsingTime ops

section Dates
variable {now later : Int} {first second : CString}

theorem Dated.mono (h : Dated now first second) (ticks : now ≤ later) :
    Dated later first second := by
  obtain ⟨s, t, start, between, last, texts⟩ := h
  exact ⟨s, t, start, between, last.trans ticks, texts⟩

/-- The later text may be made anew. -/
theorem Dated.renew (h : Dated now first second) (ticks : now ≤ later) :
    Dated later first (nowIso8601 later) := by
  obtain ⟨s, t, start, between, last, text, -⟩ := h
  exact ⟨s, later, start, (between.trans last).trans ticks, le_refl _, text, rfl⟩

theorem Dated.fresh (start : 0 ≤ now) : Dated now (nowIso8601 now) (nowIso8601 now) :=
  ⟨now, now, start, le_refl _, le_refl _, rfl, rfl⟩

theorem Dated.le (h : Dated now first second) (last : now < yearTenThousand) :
    first.bytes ≤ second.bytes := by
  obtain ⟨s, t, start, between, upTo, rfl, rfl⟩ := h
  rcases Int.lt_or_eq_of_le between with less | rfl
  · exact List.le_of_lt (nowIso8601_lt start less (by omega))
  · exact List.le_refl _

end Dates

section Statements
variable {now later : Int} {db : Database}

theorem Database.Timely.mono (h : db.Timely now) (ticks : now ≤ later) : db.Timely later where
  files row mem := (h.files row mem).mono ticks
  receipts receipt mem := (h.receipts receipt mem).mono ticks
  order := h.order.imp fun ⟨ids, dates⟩ => ⟨ids, dates.mono ticks⟩
  parents receipt mem row mem' same := (h.parents receipt mem row mem' same).mono ticks

theorem Database.Timely.append (h : db.Timely now) (start : 0 ≤ now) (ticks : now ≤ later)
    {db' : Database} {row : FileRecord} (files : db'.files = db.files ++ [row])
    (receipts : db'.receipts = db.receipts) (id : row.id = db.filesSeq + 1)
    (created : row.createdAt = nowIso8601 later) (updated : row.updatedAt = nowIso8601 later) :
    db'.Timely later := by
  have dated : Dated later row.createdAt row.updatedAt := by
    rw [created, updated]
    exact Dated.fresh (start.trans ticks)
  refine ⟨?_, ?_, ?_, ?_⟩
  · rw [files]
    intro old mem
    rcases List.mem_append.mp mem with before | new
    · exact (h.files old before).mono ticks
    · obtain rfl := List.mem_singleton.mp new
      exact dated
  · rw [receipts]
    exact (h.mono ticks).receipts
  · rw [files, List.pairwise_append]
    refine ⟨(h.mono ticks).order, List.pairwise_singleton _ _, ?_⟩
    intro old before new mem
    obtain rfl := List.mem_singleton.mp mem
    have range := db.schema.fileIdRange old before
    refine ⟨by omega, ?_⟩
    rw [created]
    exact (h.files old before).renew ticks
  · rw [files, receipts]
    intro receipt mem old place same
    rcases List.mem_append.mp place with before | new
    · exact (h.parents receipt mem old before same).mono ticks
    · -- an id that has just been handed out has no receipt
      obtain rfl := List.mem_singleton.mp new
      obtain ⟨parent, before, key⟩ := db.schema.foreignKey receipt mem
      have range := db.schema.fileIdRange parent before
      omega

theorem markedRow_createdAt (outcome : SqlOutcome) (t id : Int) (name : CString)
    (row : FileRecord) : (markedRow outcome t id name row).createdAt = row.createdAt := by
  rw [markedRow]
  split <;> rfl

theorem Database.Timely.markOcr (h : db.Timely now) (ticks : now ≤ later) (outcome : SqlOutcome)
    (id : Int) (name : CString) :
    (sqliteMarkOcrDone outcome later db id name).1.Timely later := by
  refine ⟨?_, ?_, ?_, ?_⟩
  · rw [sqliteMarkOcrDone_files]
    intro row mem
    obtain ⟨old, before, rfl⟩ := List.mem_map.mp mem
    rw [markedRow]
    split
    · exact (h.files old before).renew ticks
    · exact (h.files old before).mono ticks
  · rw [sqliteMarkOcrDone_receipts]
    exact (h.mono ticks).receipts
  · rw [sqliteMarkOcrDone_files, List.pairwise_map]
    simpa only [markedRow_id, markedRow_createdAt] using (h.mono ticks).order
  · rw [sqliteMarkOcrDone_files, sqliteMarkOcrDone_receipts]
    intro receipt mem row place same
    obtain ⟨old, before, rfl⟩ := List.mem_map.mp place
    rw [markedRow_createdAt]
    rw [markedRow_id] at same
    exact (h.parents receipt mem old before same).mono ticks

theorem Database.Timely.markParsing (h : db.Timely now) (start : 0 ≤ now) (ticks : now ≤ later)
    (check write : SqlOutcome) (id : Int) (json : CString) :
    (sqliteMarkParsingDone check write later db id json).1.Timely later := by
  refine ⟨?_, ?_, ?_, ?_⟩
  · rw [sqliteMarkParsingDone_files]
    exact (h.mono ticks).files
  · intro receipt mem
    obtain before | ⟨old, before, rfl⟩ | rfl := sqliteMarkParsingDone_receipts _ _ _ _ _ _ mem
    · exact (h.receipts receipt before).mono ticks
    · exact (h.receipts old before).renew ticks
    · exact Dated.fresh (start.trans ticks)
  · rw [sqliteMarkParsingDone_files]
    exact (h.mono ticks).order
  · rw [sqliteMarkParsingDone_files]
    intro receipt mem row place same
    obtain before | ⟨old, before, rfl⟩ | rfl := sqliteMarkParsingDone_receipts _ _ _ _ _ _ mem
    · exact (h.parents receipt before row place same).mono ticks
    · exact (h.parents old before row place same).mono ticks
    · exact (h.files row place).renew ticks

theorem Database.Timely.delete (h : db.Timely now) (outcome : SqlOutcome) (id : Int) :
    (sqliteDeleteFile outcome db id).1.Timely now := by
  rw [sqliteDeleteFile]
  split
  · refine ⟨?_, ?_, h.order.filter _, ?_⟩
    · exact fun row mem => h.files row (List.mem_of_mem_filter mem)
    · exact fun receipt mem => h.receipts receipt (List.mem_of_mem_filter mem)
    · exact fun receipt mem row place =>
        h.parents receipt (List.mem_of_mem_filter mem) row (List.mem_of_mem_filter place)
  · exact h

end Statements

section Steps
variable {p : Processor} {env : Externals} {w w' : World} {op : FileOp} {now : Int}

theorem Database.Timely.recordParsed (h : w.db.Timely now) (start : 0 ≤ now)
    (ticks : now ≤ env.markParsingTime) (id : Int) (json : CString) :
    (w.recordParsed env id json).db.Timely env.markParsingTime :=
  h.markParsing start ticks ..

theorem Database.Timely.analyse (h : w.db.Timely now) (start : 0 ≤ now)
    (markOcr : now ≤ env.markOcrTime) (markParsing : env.markOcrTime ≤ env.markParsingTime)
    (id : Int) (ocrName : CString) (ask : Request) :
    (w.analyse env id ocrName ask).db.Timely env.markParsingTime := by
  rw [World.analyse]
  cases env.extract.accepted with
  | none => exact h.mono (markOcr.trans markParsing)
  | some text =>
      have marked : ((w.request ask).recordText env id ocrName text).db.Timely env.markOcrTime :=
        h.markOcr markOcr ..
      cases env.parse.accepted with
      | none => exact marked.mono markParsing
      | some json =>
          exact Database.Timely.markParsing marked (start.trans markOcr) markParsing ..

/-- Whatever an operation does, it dates what it writes. -/
theorem FileEffect.timely (h : FileEffect p env w op w') (ticks : env.Ticks now) (start : 0 ≤ now)
    (before : w.db.Timely now) : w'.db.Timely env.markParsingTime := by
  have markOcr : now ≤ env.markOcrTime := ticks.insert.trans ticks.markOcr
  have markParsing : now ≤ env.markParsingTime := markOcr.trans ticks.markParsing
  cases h with
  | nothing => exact before.mono markParsing
  | refused => exact before.mono markParsing
  | stored originalName data accepted db files filesSeq receipts receiptsSeq =>
      have inserted : db.Timely env.insertTime :=
        before.append start ticks.insert files receipts rfl rfl rfl
      exact Database.Timely.analyse inserted (start.trans ticks.insert) ticks.markOcr
        ticks.markParsing ..
  | reparsed id row text found there =>
      rw [World.reparse]
      cases env.parse.accepted with
      | none => exact before.mono markParsing
      | some json => exact Database.Timely.recordParsed before start markParsing id json
  | reread id model row data found there =>
      exact before.analyse start markOcr ticks.markParsing ..
  | discarded id row found => exact (before.delete ..).mono markParsing

end Steps

section Run
variable {bot : TgBot} {w : World} {now : Int}

theorem dispatchStep_timely {op : CJson × Externals} (ticks : op.2.Ticks now) (start : 0 ≤ now)
    (h : w.db.Timely now) : (dispatchStep bot w op).db.Timely op.2.markParsingTime := by
  simp only [dispatchStep, botDispatchUpdate_eq, Instruction.perform_world]
  cases (readUpdate bot (some op.1)).fileOp op.2 with
  | none => exact h.mono ((ticks.insert.trans ticks.markOcr).trans ticks.markParsing)
  | some fileOp =>
      exact (FileOp.apply_effect bot.processor op.2 _ maxReplyLen fileOp).timely ticks start h

theorem run_timely (updates : List (CJson × Externals)) (clock : Clocked now updates)
    (start : 0 ≤ now) (h : w.db.Timely now) :
    ∃ later, later < yearTenThousand ∧ (run (dispatchStep bot) w updates).db.Timely later := by
  induction updates generalizing w now with
  | nil => exact ⟨now, clock, h⟩
  | cons op updates ih =>
      have ticks := clock.1
      have forward := (ticks.insert.trans ticks.markOcr).trans ticks.markParsing
      exact ih clock.2 (start.trans forward) (dispatchStep_timely ticks start h)

end Run

section Listing
variable {now : Int} {db : Database}

theorem createdNoEarlier_iff (a b : FileRecord) :
    createdNoEarlier a b = true ↔ b.createdAt.bytes ≤ a.createdAt.bytes := by
  rw [createdNoEarlier, Bool.not_eq_true', decide_eq_false_iff_not, List.not_lt]

theorem mergeSort_createdNoEarlier (files : List FileRecord) :
    (files.mergeSort createdNoEarlier).Pairwise
      fun a b => b.createdAt.bytes ≤ a.createdAt.bytes := by
  refine (List.pairwise_mergeSort ?_ ?_ files).imp fun {a b} sorted =>
    (createdNoEarlier_iff a b).mp sorted
  · intro a b c
    simp only [createdNoEarlier_iff]
    exact fun first second => List.le_trans second first
  · intro a b
    rw [Bool.or_eq_true, createdNoEarlier_iff, createdNoEarlier_iff]
    exact List.le_total _ _

/-- Of two records the one that got its id first was created first. -/
theorem Database.Timely.created_le (h : db.Timely now) (last : now < yearTenThousand)
    {a b : FileRecord} (memA : a ∈ db.files) (memB : b ∈ db.files) (ids : a.id < b.id) :
    a.createdAt.bytes ≤ b.createdAt.bytes := by
  refine List.Pairwise.forall_of_forall_of_flip
    (R := fun x y => x.id < y.id → x.createdAt.bytes ≤ y.createdAt.bytes) ?_ ?_ ?_ memA memB ids
  · exact fun x _ less => absurd less (Int.lt_irrefl _)
  · exact h.order.imp fun ⟨_, dates⟩ _ => dates.le last
  · exact h.order.imp fun ⟨before, _⟩ after => absurd after (by omega)

end Listing

/-- Nothing of a record that fits is cut when it is read. -/
theorem World.Fits.sqliteList {w : World} (fits : w.Fits) :
    sqliteList none w.db = w.db.files.mergeSort createdNoEarlier := by
  refine (List.map_congr_left fun row mem => ?_).trans (List.map_id _)
  exact (fits row (List.mem_mergeSort.mp mem)).columns

/-- A query that fails has delivered the beginning of the list. -/
theorem sqliteList_cut (delivered : Option Nat) (db : Database) :
    sqliteList delivered db <+: sqliteList none db := by
  cases delivered with
  | none => exact List.prefix_rfl
  | some n => exact List.take_prefix n _

/-- Whatever was uploaded, read again or deleted, and whatever failed: nothing was updated before
it was created, no receipt is older than its file, and the list of the uploads has every one of
them, the latest first. `/list` shows the first ten entries of it, as far as the query got and the
message has room. -/
theorem newest_uploads_first (bot : TgBot) (updates : List (CJson × Externals))
    (clock : Clocked 0 updates) :
    let w := run (dispatchStep bot) .empty updates
    (∀ row ∈ w.db.files, row.createdAt.bytes ≤ row.updatedAt.bytes) ∧
      (∀ receipt ∈ w.db.receipts, receipt.createdAt.bytes ≤ receipt.updatedAt.bytes ∧
        ∀ row ∈ w.db.files, row.id = receipt.fileId →
          row.createdAt.bytes ≤ receipt.createdAt.bytes) ∧
      (sqliteList none w.db).Perm w.db.files ∧
      ((sqliteList none w.db).Pairwise fun a b =>
        b.createdAt.bytes ≤ a.createdAt.bytes ∧ (a.id < b.id → a.createdAt = b.createdAt)) ∧
      ∀ env chatId text, strStartsWith text (lit "/list") = true →
        sqliteList env.listDelivered w.db <+: sqliteList none w.db ∧
        handleCommand bot env w chatId text =
          (w, [.sendMessage chatId
            (snprintf maxReplyLen (listText (sqliteList env.listDelivered w.db)))]) := by
  intro w
  have empty : World.empty.db.Timely 0 :=
    ⟨fun _ none => absurd none List.not_mem_nil, fun _ none => absurd none List.not_mem_nil,
      List.Pairwise.nil, fun _ none => absurd none List.not_mem_nil⟩
  obtain ⟨now, last, timely⟩ := run_timely updates clock (Int.le_refl 0) empty
  have kept (w : World) (op : CJson × Externals) (_ : True) (h : w.Fits) :
      (dispatchStep bot w op).Fits := dispatchStep_fits h
  have fits : w.Fits := run_invariant kept .empty updates (fun _ _ => trivial) World.empty_fits
  have uncut := fits.sqliteList
  refine ⟨fun row mem => (timely.files row mem).le last,
    fun receipt mem => ⟨(timely.receipts receipt mem).le last, fun row place same =>
      (timely.parents receipt mem row place same).le last⟩, ?_, ?_, fun env chatId text command =>
    ⟨sqliteList_cut env.listDelivered w.db, handleCommand_listText bot env w chatId command⟩⟩
  · rw [uncut]
    exact List.mergeSort_perm _ _
  · rw [uncut]
    refine (mergeSort_createdNoEarlier w.db.files).imp_of_mem fun {a b} memA memB sorted => ?_
    refine ⟨sorted, fun ids => CString.ext (List.le_antisymm ?_ sorted)⟩
    exact timely.created_le last (List.mem_mergeSort.mp memA) (List.mem_mergeSort.mp memB) ids

theorem newest_uploads_first_two :
    let w := run (dispatchStep privateBot) .empty
      [(sentDocument, served), (sentDocument,
        { Externals.working 60 (lit "BREAD 2.00") (lit "\x7b\x7d") with
          filePath := some (lit "documents/2"), download := some [4, 5, 6] })]
    (∀ row ∈ w.db.files, row.createdAt.bytes ≤ row.updatedAt.bytes) ∧
      (∀ receipt ∈ w.db.receipts, receipt.createdAt.bytes ≤ receipt.updatedAt.bytes ∧
        ∀ row ∈ w.db.files, row.id = receipt.fileId →
          row.createdAt.bytes ≤ receipt.createdAt.bytes) ∧
      (sqliteList none w.db).Perm w.db.files ∧
      ((sqliteList none w.db).Pairwise fun a b =>
        b.createdAt.bytes ≤ a.createdAt.bytes ∧ (a.id < b.id → a.createdAt = b.createdAt)) ∧
      ∀ env chatId text, strStartsWith text (lit "/list") = true →
        sqliteList env.listDelivered w.db <+: sqliteList none w.db ∧
        handleCommand privateBot env w chatId text =
          (w, [.sendMessage chatId
            (snprintf maxReplyLen (listText (sqliteList env.listDelivered w.db)))]) :=
  newest_uploads_first privateBot _
    ⟨⟨by decide, by decide, by decide⟩, ⟨by decide, by decide, by decide⟩,
      (by decide : (60 : Int) < yearTenThousand)⟩

end Kaufbot
