import Kaufbot.Processor.Receipt
import Mathlib.Algebra.Order.Ring.Rat
import Mathlib.Tactic.SplitIfs

/-!
The receipt reply as the list of its pieces. The builder prints the pieces one
after another without looking whether the last one fitted, except among the
line items, where it stops when the buffer is full.
-/

namespace Kaufbot

open CString CDouble

def printAll (pieces : List CString) (w : ReplyWriter) : ReplyWriter := pieces.foldl .print w

/-- The bytes the pieces come to. -/
def size (pieces : List CString) : Nat := (pieces.map length).sum

variable {α : Type} [CDouble α]

section Pieces
variable (data : ReceiptData α)

def replyHeadPieces : List CString :=
  (if data.isReceipt then [] else [lit "❌ *Not a receipt*\n\n"]) ++
    [.concat [lit "🏪 *", orDefault data.storeName (lit "Unknown"), lit "*\n"]] ++
    (if data.imageQuality ≥ 0 then [replyQuality data.imageQuality] else []) ++
    [replyItemCount data, lit "\n"]

def lineTotal (item : ReplyLineItem α) : α := item.price * item.amount - item.discount

def replyItemPieces (items : List (ReplyLineItem α × Nat)) : List CString :=
  items.flatMap fun (item, i) => [replyItemHeader (i + 1) item, replyPriceLine item (lineTotal item)]

def replyTotalLine : CString :=
  .concat [lit "\n💰 *Total:* `", printFixed2 data.totalSum, lit " EUR`"]

def replyWarning (calculated : α) : CString :=
  .concat [lit "\n⚠️ Calculated `", printFixed2 calculated, lit " EUR` — check totals"]

def replyLinkPieces (label url : CString) : List CString :=
  if url.bytes.isEmpty then [] else [.concat [lit "\n📄 [", label, lit "](", url, lit ")"]]

/-- The token count and the links. -/
def replyBackPieces : List CString :=
  (if data.tokensUsed > 0 then
      [.concat [lit "\n⚡ Tokens: `", printInt data.tokensUsed, lit "`"]]
    else []) ++
    (if data.originalUrl.bytes.isEmpty && data.ocrUrl.bytes.isEmpty && data.jsonUrl.bytes.isEmpty then
      []
    else
      lit "\n" :: (replyLinkPieces (lit "Original") data.originalUrl ++
        replyLinkPieces (lit "OCR text") data.ocrUrl ++ replyLinkPieces (lit "JSON") data.jsonUrl))

/-- What follows the line items, when they came to `calculated`. -/
def replyTailPieces (calculated : α) : List CString :=
  replyTotalLine data :: ((if diffIsSignificant calculated data.totalSum then
      [replyWarning calculated] else []) ++ replyBackPieces data)

/-- The writer the reply is read from. -/
def replyWriter : ReplyWriter :=
  let (w, calculated) := replyLineItems data.items.zipIdx (printAll (replyHeadPieces data) .start) 0.0
  printAll (replyTailPieces data calculated) w

theorem printAll_append (front back : List CString) (w : ReplyWriter) :
    printAll (front ++ back) w = printAll back (printAll front w) :=
  List.foldl_append

theorem link_eq (w : ReplyWriter) (label url : CString) :
    w.link label url = printAll (replyLinkPieces label url) w := by
  rw [ReplyWriter.link, replyLinkPieces]
  split <;> rfl

theorem printAll_cons (piece : CString) (rest : List CString) (w : ReplyWriter) :
    printAll (piece :: rest) w = printAll rest (w.print piece) := rfl

theorem printAll_ite (c : Prop) [Decidable c] (yes no : List CString) (w : ReplyWriter) :
    printAll (if c then yes else no) w = if c then printAll yes w else printAll no w := by
  split <;> rfl

/-- The builder prints the pieces. -/
theorem replyBuilderFormatReceipt_eq :
    replyBuilderFormatReceipt data = { text := (replyWriter data).text, fileId := data.fileId } := by
  have links (c : Bool) (some none : ReplyWriter) :
      (if (!c) = true then some else none) = if c = true then none else some := by
    cases c <;> rfl
  simp only [replyBuilderFormatReceipt, replyWriter, replyHeadPieces, replyTailPieces,
    replyBackPieces, printAll_append, printAll_cons, printAll_ite, link_eq, links]
  rfl

end Pieces

section Positions
variable {pieces front back : List CString} {w : ReplyWriter} {pos : Int}

theorem size_append (front back : List CString) : size (front ++ back) = size front + size back := by
  simp [size]

theorem size_cons (piece : CString) (rest : List CString) :
    size (piece :: rest) = piece.length + size rest := rfl

/-- A position behind the first piece, counted from the piece after it. -/
theorem size_take_succ (pos : Int) (piece : CString) (rest : List CString) (j : Nat) :
    pos + size ((piece :: rest).take (j + 1)) = pos + piece.length + size (rest.take j) := by
  rw [List.take_succ_cons, size_cons]
  push_cast
  rw [Int.add_assoc]

theorem size_take_le (pieces : List CString) (j : Nat) : size (pieces.take j) ≤ size pieces := by
  have whole := congrArg size (List.take_append_drop j pieces)
  rw [size_append] at whole
  omega

theorem printAll_pos (pieces : List CString) (w : ReplyWriter) :
    (printAll pieces w).pos = w.pos + size pieces := by
  induction pieces generalizing w with
  | nil => simp [printAll, size]
  | cons piece rest ih =>
      rw [printAll_cons, ih, size_cons, ReplyWriter.print]
      push_cast
      omega

/-- Every piece is printed at a position inside the buffer or at its end. -/
def Inside (pos : Int) (pieces : List CString) : Prop :=
  ∀ j < pieces.length, pos + size (pieces.take j) ≤ 4096

theorem inside_cons (pos : Int) (piece : CString) (rest : List CString) :
    Inside pos (piece :: rest) ↔ pos ≤ 4096 ∧ Inside (pos + piece.length) rest := by
  constructor
  · intro h
    refine ⟨by simpa [size] using h 0 (by simp), fun j hj => ?_⟩
    have later := h (j + 1) (by simpa using hj)
    rwa [size_take_succ] at later
  · rintro ⟨here, later⟩ j hj
    cases j with
    | zero => simpa [size] using here
    | succ j =>
        rw [size_take_succ]
        exact later j (by simpa using hj)

theorem printAll_overran (pieces : List CString) (w : ReplyWriter) :
    (printAll pieces w).overran = false ↔ w.overran = false ∧ Inside w.pos pieces := by
  induction pieces generalizing w with
  | nil => simp [printAll, Inside]
  | cons piece rest ih =>
      rw [printAll_cons, ih, inside_cons]
      simp only [ReplyWriter.print, Bool.or_eq_false_iff, decide_eq_false_iff_not]
      simp only [ReplyWriter.remaining, maxReplyTextLen]
      constructor
      · rintro ⟨⟨before, here⟩, later⟩
        exact ⟨before, by omega, later⟩
      · rintro ⟨before, here, later⟩
        exact ⟨⟨before, by omega⟩, later⟩

/-- Only the last piece may end past the buffer. -/
theorem inside_iff (pos : Int) (h : pieces ≠ []) :
    Inside pos pieces ↔ pos + size pieces.dropLast ≤ 4096 := by
  rw [List.dropLast_eq_take]
  have some := List.length_pos_iff.mpr h
  constructor
  · intro inside
    exact inside (pieces.length - 1) (by omega)
  · intro last j hj
    have shorter := size_take_le (pieces.take (pieces.length - 1)) j
    rw [List.take_take, Nat.min_eq_left (by omega)] at shorter
    omega

/-- The loop finds the buffer full before the piece `k`. -/
structure StopsAt (pos : Int) (pieces : List CString) (k : Nat) : Prop where
  left : k < pieces.length
  full : 4096 ≤ pos + size (pieces.take k)
  before : ∀ j < k, pos + size (pieces.take j) < 4096

/-- The loop finds room before every piece. -/
def RunsThrough (pos : Int) (pieces : List CString) : Prop :=
  ∀ j < pieces.length, pos + size (pieces.take j) < 4096

theorem StopsAt.zero {piece : CString} {rest : List CString} (full : 4096 ≤ pos) :
    StopsAt pos (piece :: rest) 0 where
  left := Nat.succ_pos _
  full := by simpa [size] using full
  before j hj := absurd hj (Nat.not_lt_zero j)

theorem StopsAt.cons {piece : CString} {rest : List CString} {k : Nat} (here : pos < 4096)
    (h : StopsAt (pos + piece.length) rest k) : StopsAt pos (piece :: rest) (k + 1) where
  left := by simpa using h.left
  full := by
    rw [size_take_succ]
    exact h.full
  before j hj := by
    cases j with
    | zero => simpa [size] using here
    | succ j =>
        rw [size_take_succ]
        exact h.before j (by omega)

theorem RunsThrough.cons {piece : CString} {rest : List CString} (here : pos < 4096)
    (h : RunsThrough (pos + piece.length) rest) : RunsThrough pos (piece :: rest) := by
  intro j hj
  cases j with
  | zero => simpa [size] using here
  | succ j =>
      rw [size_take_succ]
      exact h j (by simpa using hj)

/-- The items added to `total` one after another, as the order matters to doubles. -/
def addItems (total : α) (items : List (ReplyLineItem α × Nat)) : α :=
  items.foldl (fun total item => total + lineTotal item.1) total

def itemsTotal (items : List (ReplyLineItem α × Nat)) : α := addItems 0.0 items

theorem addItems_cons (total : α) (item : ReplyLineItem α) (i : Nat)
    (rest : List (ReplyLineItem α × Nat)) :
    addItems total ((item, i) :: rest) = addItems (total + lineTotal item) rest := rfl

theorem addItems_take_one (total : α) (item : ReplyLineItem α) (i : Nat)
    (rest : List (ReplyLineItem α × Nat)) :
    addItems total (((item, i) :: rest).take 1) = total + lineTotal item := by
  rw [List.take_succ_cons, List.take_zero, addItems_cons]
  rfl

theorem remaining_le_zero_iff (w : ReplyWriter) : w.remaining ≤ 0 ↔ 4096 ≤ w.pos := by
  simp only [ReplyWriter.remaining, maxReplyTextLen]
  omega

/-- The loop prints the pieces of the items up to the first that finds the buffer full, and its
sum counts the items it has begun. -/
theorem replyLineItems_spec (items : List (ReplyLineItem α × Nat)) (w : ReplyWriter) (total : α) :
    (∃ k, StopsAt w.pos (replyItemPieces items) k ∧
      replyLineItems items w total =
        (printAll ((replyItemPieces items).take k) w, addItems total (items.take (k / 2 + 1)))) ∨
    (RunsThrough w.pos (replyItemPieces items) ∧
      replyLineItems items w total =
        (printAll (replyItemPieces items) w, addItems total items)) := by
  induction items generalizing w total with
  | nil =>
      refine .inr ⟨fun j hj => absurd hj (Nat.not_lt_zero j), ?_⟩
      rfl
  | cons first items ih =>
      obtain ⟨item, i⟩ := first
      have pieces : replyItemPieces ((item, i) :: items) = replyItemHeader (i + 1) item ::
          replyPriceLine item (lineTotal item) :: replyItemPieces items := rfl
      rw [pieces, replyLineItems]
      by_cases full : w.remaining ≤ 0
      · rw [if_pos full]
        refine .inl ⟨0, .zero ((remaining_le_zero_iff w).mp full), ?_⟩
        exact Prod.ext rfl (addItems_take_one total item i items).symm
      · have here : w.pos < 4096 := Int.lt_of_not_ge fun h => full ((remaining_le_zero_iff w).mpr h)
        rw [if_neg full]
        by_cases full' : (w.print (replyItemHeader (i + 1) item)).remaining ≤ 0
        · rw [if_pos full']
          refine .inl ⟨1, (StopsAt.zero ((remaining_le_zero_iff _).mp full')).cons here, ?_⟩
          exact Prod.ext rfl (addItems_take_one total item i items).symm
        · have here' := Int.lt_of_not_ge fun h => full' ((remaining_le_zero_iff _).mpr h)
          rw [if_neg full']
          rcases ih ((w.print (replyItemHeader (i + 1) item)).print
            (replyPriceLine item (lineTotal item))) (total + lineTotal item) with
            ⟨k, stops, result⟩ | ⟨through, result⟩
          · refine .inl ⟨k + 1 + 1, (stops.cons here').cons here, result.trans ?_⟩
            have begun : (k + 1 + 1) / 2 + 1 = k / 2 + 1 + 1 := by omega
            rw [begun]
            rfl
          · refine .inr ⟨(through.cons here').cons here, result.trans ?_⟩
            rfl

/-- The loop prints no piece past the buffer. -/
theorem StopsAt.inside {k : Nat} (h : StopsAt pos pieces k) : Inside pos (pieces.take k) := by
  intro j hj
  have left := h.left
  rw [List.length_take] at hj
  have before := h.before j (by omega)
  rw [List.take_take, Nat.min_eq_left (by omega)]
  omega

theorem RunsThrough.inside (h : RunsThrough pos pieces) : Inside pos pieces :=
  fun j hj => Int.le_of_lt (h j hj)

theorem size_take_lt (some : ∀ piece ∈ pieces, 0 < piece.length) {j j' : Nat} (hj : j < j')
    (left : j < pieces.length) : size (pieces.take j) < size (pieces.take j') := by
  have next : pieces.take (j + 1) = pieces.take j ++ [pieces[j]] := List.take_succ_eq_append_getElem left
  have longer := size_take_le (pieces.take j') (j + 1)
  have one := some _ (List.getElem_mem left)
  rw [List.take_take, Nat.min_eq_left hj, next, size_append, size_cons] at longer
  omega

/-- A cut that fills the buffer exactly is where the loop stops. -/
theorem StopsAt.eq_of_exact {k k' : Nat} (some : ∀ piece ∈ pieces, 0 < piece.length)
    (h : StopsAt pos pieces k) (exact : pos + size (pieces.take k') = 4096) : k = k' := by
  rcases Nat.lt_trichotomy k k' with earlier | same | later
  · have shorter := size_take_lt some earlier h.left
    have full := h.full
    omega
  · exact same
  · have before := h.before k' later
    omega

theorem length_concat_pos {first : CString} (h : 0 < first.length) (rest : List CString) :
    0 < (concat (first :: rest)).length := by
  rw [length, bytes_concat, List.flatMap_cons, List.length_append]
  exact Nat.add_pos_left h _

theorem length_replyItemPieces (items : List (ReplyLineItem α × Nat)) :
    ∀ piece ∈ replyItemPieces items, 0 < piece.length := by
  have header : 0 < (lit "  `").length := by decide
  have price : 0 < (lit "      `").length := by decide
  intro piece hpiece
  obtain ⟨⟨item, i⟩, -, hpiece⟩ := List.mem_flatMap.mp hpiece
  rcases List.mem_pair.mp hpiece with rfl | rfl
  · rw [replyItemHeader]
    split <;> exact length_concat_pos header _
  · rw [replyPriceLine]
    split_ifs <;> exact length_concat_pos price _

end Positions

section Bounds
variable (data : ReceiptData α)

/-- All pieces of the reply, with room for every one of them. -/
def replyPieces : List CString :=
  replyHeadPieces data ++ replyItemPieces data.items.zipIdx ++
    replyTailPieces data (itemsTotal data.items.zipIdx)

/-- No `snprintf` is called with a position past the buffer, and what is written stays in it. -/
structure ReplyInBounds : Prop where
  offsets : (replyWriter data).overran = false
  position : 0 ≤ (replyWriter data).pos
  bytes : (replyWriter data).text.length ≤ 4095

/-- The line items fill the buffer to its last byte while some are left, and the total is all that
is printed after them. -/
def FilledExactly : Prop :=
  ∃ k < (replyItemPieces data.items.zipIdx).length,
    size (replyHeadPieces data ++ (replyItemPieces data.items.zipIdx).take k) = 4096 ∧
    diffIsSignificant (itemsTotal (data.items.zipIdx.take (k / 2 + 1))) data.totalSum = false ∧
    replyBackPieces data = []

theorem length_text_print {w : ReplyWriter} (piece : CString)
    (h : w.text.length ≤ 4095 ∧ (w.text.length : Int) ≤ w.pos) :
    (w.print piece).text.length ≤ 4095 ∧ ((w.print piece).text.length : Int) ≤ (w.print piece).pos := by
  have added : (w.print piece).text.length =
      w.text.length + min (w.remaining.toNat - 1) piece.length := by
    simp [ReplyWriter.print, length, List.length_take]
  have moved : (w.print piece).pos = w.pos + piece.length := rfl
  have cap : w.remaining = 4096 - w.pos := rfl
  omega

theorem length_text_printAll (pieces : List CString) {w : ReplyWriter}
    (h : w.text.length ≤ 4095 ∧ (w.text.length : Int) ≤ w.pos) :
    (printAll pieces w).text.length ≤ 4095 ∧
      ((printAll pieces w).text.length : Int) ≤ (printAll pieces w).pos := by
  induction pieces generalizing w with
  | nil => exact h
  | cons piece rest ih => exact ih (length_text_print piece h)

/-- The two ways the reply is written. -/
theorem replyWriter_cases :
    (∃ k, StopsAt (size (replyHeadPieces data)) (replyItemPieces data.items.zipIdx) k ∧
      replyWriter data = printAll (replyHeadPieces data ++
        (replyItemPieces data.items.zipIdx).take k ++
          replyTailPieces data (itemsTotal (data.items.zipIdx.take (k / 2 + 1)))) .start) ∨
    (RunsThrough (size (replyHeadPieces data)) (replyItemPieces data.items.zipIdx) ∧
      replyWriter data = printAll (replyPieces data) .start) := by
  have position : (printAll (replyHeadPieces data) .start).pos = size (replyHeadPieces data) := by
    rw [printAll_pos]
    exact Int.zero_add _
  rw [← position]
  rcases replyLineItems_spec data.items.zipIdx (printAll (replyHeadPieces data) .start) 0.0 with
    ⟨k, stops, result⟩ | ⟨through, result⟩
  · refine .inl ⟨k, stops, ?_⟩
    rw [replyWriter, result, printAll_append, printAll_append]
    rfl
  · refine .inr ⟨through, ?_⟩
    rw [replyWriter, result, replyPieces, printAll_append, printAll_append]
    rfl

theorem inside_append (pos : Int) (front back : List CString) :
    Inside pos (front ++ back) ↔ Inside pos front ∧ Inside (pos + size front) back := by
  induction front generalizing pos with
  | nil => simp [Inside, size]
  | cons piece front ih =>
      rw [List.cons_append, inside_cons, inside_cons, ih, and_assoc, size_cons]
      push_cast
      rw [Int.add_assoc]

/-- The offsets are those of the pieces that are printed. -/
theorem replyInBounds_of_printed {printed : List CString}
    (h : replyWriter data = printAll printed .start) : ReplyInBounds data ↔ Inside 0 printed := by
  have written := length_text_printAll printed (w := .start) ⟨by decide, by decide⟩
  rw [← h] at written
  have overran := printAll_overran printed .start
  rw [← h] at overran
  constructor
  · intro inBounds
    exact (overran.mp inBounds.offsets).2
  · intro inside
    exact ⟨overran.mpr ⟨rfl, inside⟩, by omega, written.1⟩

theorem size_dropLast_le (pieces : List CString) : size pieces.dropLast ≤ size pieces := by
  rw [List.dropLast_eq_take]
  exact size_take_le pieces _

omit [CDouble α] in
theorem replyHeadPieces_inside (h : size (replyHeadPieces data) ≤ 4096) :
    Inside 0 (replyHeadPieces data) := by
  have some : replyHeadPieces data ≠ [] := by simp [replyHeadPieces]
  have shorter := size_dropLast_le (replyHeadPieces data)
  rw [inside_iff 0 some]
  omega

/-- Where the buffer is full before the end, the total fits only at its very end and alone. -/
theorem replyTailPieces_inside_full {pos : Int} (full : 4096 ≤ pos) (calculated : α) :
    Inside pos (replyTailPieces data calculated) ↔
      pos = 4096 ∧ diffIsSignificant calculated data.totalSum = false ∧ replyBackPieces data = [] := by
  have total : 0 < (replyTotalLine data).length := length_concat_pos (by decide) _
  rw [replyTailPieces, inside_cons]
  constructor
  · rintro ⟨here, later⟩
    have nothing : (if diffIsSignificant calculated data.totalSum = true then
        [replyWarning calculated] else []) ++ replyBackPieces data = [] := by
      by_contra some
      have next := later 0 (List.length_pos_iff.mpr some)
      simp only [List.take_zero] at next
      have zero : size [] = 0 := rfl
      omega
    obtain ⟨no_warning, no_back⟩ := List.append_eq_nil_iff.mp nothing
    exact ⟨by omega, by simpa using no_warning, no_back⟩
  · rintro ⟨rfl, insignificant, no_back⟩
    rw [insignificant, no_back]
    exact ⟨Int.le_refl _, fun j hj => absurd hj (Nat.not_lt_zero j)⟩

/-- The offsets stay inside the buffer exactly if all pieces but the last fit, or the line items
happen to fill it to the last byte and only the total follows. -/
theorem replyInBounds_iff :
    ReplyInBounds data ↔ size (replyPieces data).dropLast ≤ 4096 ∨ FilledExactly data := by
  have some := length_replyItemPieces data.items.zipIdx
  have tail_ne : replyTailPieces data (itemsTotal data.items.zipIdx) ≠ [] := List.cons_ne_nil _ _
  have pieces_ne : replyPieces data ≠ [] := List.append_ne_nil_of_right_ne_nil _ tail_ne
  rcases replyWriter_cases data with ⟨k, stops, written⟩ | ⟨through, written⟩
  · rw [replyInBounds_of_printed data written, inside_append, inside_append]
    have full : 4096 ≤ (0 : Int) +
        size (replyHeadPieces data ++ (replyItemPieces data.items.zipIdx).take k) := by
      have := stops.full
      rw [size_append]
      push_cast
      omega
    rw [replyTailPieces_inside_full data full]
    constructor
    · rintro ⟨-, exact, insignificant, no_back⟩
      exact .inr ⟨k, stops.left, by omega, insignificant, no_back⟩
    · rintro (fits | ⟨k', left, exact, insignificant, no_back⟩)
      · have longer := size_take_lt some stops.left stops.left
        have reached := stops.full
        rw [List.take_length] at longer
        rw [replyPieces, List.dropLast_append_of_ne_nil tail_ne, size_append, size_append] at fits
        omega
      · rw [size_append] at exact
        obtain rfl : k = k' := stops.eq_of_exact some (by omega)
        refine ⟨⟨replyHeadPieces_inside data (by omega), ?_⟩, ?_, insignificant, no_back⟩
        · rw [Int.zero_add]
          exact stops.inside
        · rw [size_append]
          omega
  · rw [replyInBounds_of_printed data written, inside_iff 0 pieces_ne, Int.zero_add]
    constructor
    · exact fun fits => .inl (by omega)
    · rintro (fits | ⟨k, left, exact, -⟩)
      · omega
      · have before := through k left
        rw [size_append] at exact
        omega

end Bounds

section Overrun

/-- An item whose name and category fill their fields. -/
def longItem : CJson :=
  .object [(lit "original_name", .string (ofBytes (List.replicate 127 97))),
    (lit "category", .string (ofBytes (List.replicate 63 98)))]

def longReceipt : CJson := .object [(lit "line_items", .array (List.replicate 30 longItem))]

/-- Thirty such items run past the buffer, and the total is printed behind it. -/
theorem longReceipt_overruns :
    ¬ ReplyInBounds (fillReceiptData Float longReceipt 1 0 (fun _ => none) .empty .empty) := by
  intro inBounds
  have overran : (replyWriter (fillReceiptData Float longReceipt 1 0 (fun _ => none) .empty
      .empty)).overran = true := by decide +kernel
  rw [inBounds.offsets] at overran
  exact absurd overran (by decide)

end Overrun

end Kaufbot
