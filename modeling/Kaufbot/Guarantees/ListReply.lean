import Kaufbot.Library.TextBuffer
import Kaufbot.Telegram.BotCommands

/-!
The reply to `/list`: the callback as it writes into the reply buffer on the
stack, for every list of records it may be called with. The offset never leaves
the buffer, and what is sent is one cut of the whole text.
-/

namespace Kaufbot

open CString

def listHeader : CString := lit "Recent uploads:\n\n"

def listEntry (rec : FileRecord) : CString :=
  .concat [lit "#", printInt rec.id, lit " - ", rec.savedFileName, lit "\n   ",
    rec.originalFileName, lit " | ", printInt rec.fileSizeBytes, lit " bytes | ",
    if rec.isOcrProcessed ≠ 0 then lit "done" else lit "pending", lit "\n\n"]

/-- `ListCtx` with the memory its `buf` points to. -/
structure ListBuffer where
  mem : List UInt8
  pos : Int
  cap : Int
  count : Nat

/-- `list_cb`; none when a write leaves the buffer. -/
def listCbBuffer (c : ListBuffer) (rec : FileRecord) : Option ListBuffer :=
  if c.count ≥ maxListEntries then some c
  else
    let remaining := c.cap - c.pos
    if remaining ≤ 0 then some c
    else do
      let written := (listEntry rec).length
      let mem ← snprintfAt c.mem c.pos remaining.toNat (listEntry rec)
      some { c with
        mem
        pos := if 0 < written ∧ (written : Int) < remaining then c.pos + written else c.cap - 1
        count := c.count + 1 }

/-- `handle_command` for `/list` in a stack frame that holds `stack`, after some of the records. -/
def listReplyBuffer (stack : Nat → UInt8) (records : List FileRecord) : Option ListBuffer := do
  let mem ← snprintfAt ((List.range maxReplyLen).map stack) 0 maxReplyLen listHeader
  records.foldlM listCbBuffer
    { mem, pos := listHeader.length, cap := (maxReplyLen : Nat), count := 0 }

/-- The whole text: the header and the entries of the first ten records. -/
def listText (records : List FileRecord) : CString :=
  .concat (listHeader :: (records.take maxListEntries).map listEntry)

/-- The context with its buffer read as a string. -/
def ListBuffer.view (c : ListBuffer) : ListCtx where
  buf := ofBytes c.mem
  pos := c.pos
  cap := c.cap
  count := c.count

/-- The buffer holds the beginning of a text, and the next write goes to its end. -/
structure ListBuffer.Filled (c : ListBuffer) (text : CString) : Prop where
  size : c.mem.length = maxReplyLen
  cap : c.cap = c.mem.length
  pos : c.pos = (snprintf c.mem.length text).length
  holds : Holds c.mem text

section Entries
variable {c : ListBuffer} {text : CString} {rec : FileRecord}

theorem listEntry_nonempty (rec : FileRecord) : 0 < (listEntry rec).length := by
  obtain ⟨rest, heq⟩ : ∃ rest : CString, listEntry rec = lit "#" ++ rest := ⟨_, rfl⟩
  have total : (lit "#" ++ rest).length = (lit "#").length + rest.length := List.length_append
  have hash : (lit "#").length = 1 := by decide
  rw [heq, total, hash]
  omega

/-- One record while there is a slot left: its entry is appended and counted. -/
theorem listCbBuffer_append (rec : FileRecord) (filled : c.Filled text) (slots : c.count < maxListEntries) :
    ∃ after, listCbBuffer c rec = some after ∧ after.Filled (text ++ listEntry rec) ∧
      after.count = c.count + 1 ∧ listCb c.view rec = after.view := by
  have inside := filled.holds.length_lt
  obtain ⟨written, heq, length, longer⟩ := filled.holds.append (listEntry rec)
  have remaining : ((c.mem.length : Int) - (snprintf c.mem.length text).length).toNat =
      c.mem.length - (snprintf c.mem.length text).length := by omega
  have room : ¬ ((c.mem.length : Int) - (snprintf c.mem.length text).length ≤ 0) := by omega
  rw [listCbBuffer, if_neg (Nat.not_le.mpr slots)]
  simp only [filled.cap, filled.pos, if_neg room, remaining, heq, Option.bind_eq_bind,
    Option.bind_some]
  have nonempty := listEntry_nonempty rec
  refine ⟨_, rfl, ⟨length.trans filled.size, congrArg Nat.cast length.symm, ?_, longer⟩, rfl, ?_⟩
  · have cut (s : CString) : (snprintf c.mem.length s).length = min (c.mem.length - 1) s.length :=
      List.length_take
    have total : (text ++ listEntry rec).length = text.length + (listEntry rec).length :=
      List.length_append
    simp only [length, cut, total] at inside ⊢
    split <;> omega
  · have buf : ofBytes c.mem ++ snprintf (c.mem.length - (snprintf c.mem.length text).length)
        (listEntry rec) = ofBytes written := by
      rw [filled.holds.ofBytes_eq, longer.ofBytes_eq, length, snprintf_append (by omega)]
    have free : ¬ c.view.count ≥ maxListEntries := Nat.not_le.mpr slots
    rw [listCb, if_neg free]
    simp only [ListBuffer.view, filled.cap, filled.pos, if_neg room, remaining, nonempty, true_and]
    rw [← buf]
    rfl

theorem listCbBuffer_full (full : maxListEntries ≤ c.count) : listCbBuffer c rec = some c := by
  rw [listCbBuffer, if_pos full]

theorem listCb_full (full : maxListEntries ≤ c.count) : listCb c.view rec = c.view := by
  rw [listCb, if_pos]
  exact full

/-- Any number of records: the entries of those there is a slot for are appended. -/
theorem foldlM_listCbBuffer (records : List FileRecord) (filled : c.Filled text)
    (slots : c.count ≤ maxListEntries) :
    ∃ after, records.foldlM listCbBuffer c = some after ∧
      after.Filled (text ++
        .concat ((records.take (maxListEntries - c.count)).map listEntry)) ∧
      records.foldl listCb c.view = after.view := by
  induction records generalizing c text with
  | nil =>
      rw [List.take_nil, List.map_nil]
      exact ⟨c, rfl, (append_empty text).symm ▸ filled, rfl⟩
  | cons rec records ih =>
      rcases Nat.lt_or_eq_of_le slots with free | full
      · obtain ⟨next, heq, filled, count, viewed⟩ := listCbBuffer_append rec filled free
        obtain ⟨after, run, filled, views⟩ := ih filled (by omega)
        have left : maxListEntries - c.count = maxListEntries - next.count + 1 := by omega
        refine ⟨after, by rw [List.foldlM_cons, heq]; exact run, ?_, ?_⟩
        · rw [left, List.take_succ_cons, List.map_cons]
          rwa [CString.append_assoc] at filled
        · rw [List.foldl_cons, viewed, views]
      · rw [List.foldlM_cons, List.foldl_cons, listCbBuffer_full (Nat.le_of_eq full.symm),
          listCb_full (Nat.le_of_eq full.symm)]
        have none : maxListEntries - c.count = 0 := by omega
        have rest := ih filled slots
        rw [none, List.take_zero] at rest ⊢
        exact rest

end Entries

/-- Where the callback stands after some of the records. -/
theorem listReplyBuffer_filled (stack : Nat → UInt8) (records : List FileRecord) :
    ∃ c, listReplyBuffer stack records = some c ∧ c.Filled (listText records) ∧
      records.foldl listCb
        { buf := listHeader, pos := listHeader.length, cap := maxReplyLen, count := 0 } = c.view := by
  have frame : ((List.range maxReplyLen).map stack).length = maxReplyLen := by simp
  obtain ⟨mem, first, length, holds⟩ := holds_first ((List.range maxReplyLen).map stack)
    listHeader (by rw [frame]; exact maxReplyLen.pos)
  rw [frame] at first length
  have fits : snprintf mem.length listHeader = listHeader :=
    snprintf_of_length_lt (by rw [length]; decide +kernel)
  have start : ListBuffer.Filled
      { mem, pos := listHeader.length, cap := (maxReplyLen : Nat), count := 0 } listHeader :=
    ⟨length, congrArg Nat.cast length.symm, by simp only [fits], holds⟩
  obtain ⟨c, run, filled, views⟩ := foldlM_listCbBuffer records start (Nat.zero_le _)
  refine ⟨c, by rw [listReplyBuffer, first]; exact run, filled, ?_⟩
  rw [← views, ListBuffer.view, holds.ofBytes_eq, fits]

theorem strStartsWith_list {text : CString} (h : strStartsWith text (lit "/list") = true)
    {cmd : CString} (other : ¬ (lit "/list").bytes <+: cmd.bytes ∧ ¬ cmd.bytes <+: (lit "/list").bytes) :
    strStartsWith text cmd = false := by
  have starts {cmd : CString} (h : strStartsWith text cmd = true) : cmd.bytes <+: text.bytes := by
    simp only [strStartsWith, startsWith, Bool.and_eq_true, List.isPrefixOf_iff_prefix] at h
    exact h.1
  by_contra both
  rcases List.prefix_or_prefix_of_prefix (starts h) (starts (by simpa using both)) with le | le
  · exact other.1 le
  · exact other.2 le

/-- The offset is inside the buffer, with a NUL at or before its end. -/
theorem ListBuffer.Filled.inside {c : ListBuffer} {text : CString} (filled : c.Filled text) :
    c.cap = 4096 ∧ 0 ≤ c.pos ∧ c.pos ≤ c.cap - 1 ∧
      ∃ i : Nat, (i : Int) ≤ c.cap - 1 ∧ c.mem[i]? = some 0 := by
  have inside := filled.holds.length_lt
  have nul := filled.holds.getElem?
  have cap := filled.cap
  have pos := filled.pos
  rw [filled.size] at cap
  refine ⟨cap, by omega, by rw [filled.cap, pos]; omega, _, ?_, nul⟩
  rw [filled.cap]
  omega

theorem ListBuffer.Filled.sent {c : ListBuffer} {text : CString} (filled : c.Filled text) :
    ofBytes c.mem = snprintf maxReplyLen text := by
  rw [filled.holds.ofBytes_eq, filled.size]

/-- The other commands before it in the chain do not begin with it. -/
theorem handleCommand_list (bot : TgBot) (env : Externals) (w : World) (chatId : Int) {text : CString}
    (command : strStartsWith text (lit "/list") = true) :
    handleCommand bot env w chatId text = (w, listUploads env w chatId) := by
  have not (cmd : String) (h : ¬ (lit "/list").bytes <+: (lit cmd).bytes ∧
      ¬ (lit cmd).bytes <+: (lit "/list").bytes) : strStartsWith text (lit cmd) = false :=
    strStartsWith_list command h
  rw [handleCommand, not "/start" (by decide), not "/help" (by decide), not "/models" (by decide),
    command]
  rfl

/-- What is sent is what there is room for of the header and the entries of ten records. -/
theorem handleCommand_listText (bot : TgBot) (env : Externals) (w : World) (chatId : Int)
    {text : CString} (command : strStartsWith text (lit "/list") = true) :
    handleCommand bot env w chatId text =
      (w, [.sendMessage chatId
        (snprintf maxReplyLen (listText (sqliteList env.listDelivered w.db)))]) := by
  obtain ⟨c, _, filled, views⟩ :=
    listReplyBuffer_filled (fun _ => 0) (sqliteList env.listDelivered w.db)
  rw [handleCommand_list bot env w chatId command, ← filled.sent]
  exact congrArg (fun view : ListCtx => (w, [Outgoing.sendMessage chatId view.buf])) views

/-- For every stack frame, every list of records and every form of the command: after each record
the offset is inside the buffer with a NUL at or before its end, and the text sent is the first
4095 bytes of the header with the entries of the first ten records. -/
theorem listReply_eq (stack : Nat → UInt8) (records : List FileRecord) :
    (∀ seen rest, records = seen ++ rest → ∃ c, listReplyBuffer stack seen = some c ∧
      c.cap = 4096 ∧ 0 ≤ c.pos ∧ c.pos ≤ c.cap - 1 ∧
      ∃ i : Nat, (i : Int) ≤ c.cap - 1 ∧ c.mem[i]? = some 0) ∧
    (∃ c, listReplyBuffer stack records = some c ∧
      (ofBytes c.mem).bytes = (listText records).bytes.take 4095) ∧
    ∀ bot env w chatId text, strStartsWith text (lit "/list") = true →
      sqliteList env.listDelivered w.db = records → ∃ c, listReplyBuffer stack records = some c ∧
        handleCommand bot env w chatId text = (w, [.sendMessage chatId (ofBytes c.mem)]) := by
  refine ⟨?_, ?_, ?_⟩
  · rintro seen rest rfl
    obtain ⟨c, run, filled, -⟩ := listReplyBuffer_filled stack seen
    exact ⟨c, run, filled.inside⟩
  · obtain ⟨c, run, filled, -⟩ := listReplyBuffer_filled stack records
    exact ⟨c, run, congrArg CString.bytes filled.sent⟩
  · intro bot env w chatId text command delivered
    obtain ⟨c, run, filled, -⟩ := listReplyBuffer_filled stack records
    refine ⟨c, run, ?_⟩
    rw [handleCommand_listText bot env w chatId command, delivered, filled.sent]

end Kaufbot
