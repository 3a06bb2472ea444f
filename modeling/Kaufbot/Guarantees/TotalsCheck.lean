import Kaufbot.Guarantees.ReplyBounds
import Mathlib.Algebra.Order.Ring.Abs
import Mathlib.Algebra.Order.Ring.Rat
import Mathlib.Tactic.NormNum

/-!
The totals check against the whole receipt. The sum it compares is that of the
line items that were copied; the reply says so for every receipt whose text
fits, and the condition says when that is the sum of all of them. The check is
about exact amounts, so the doubles are numbers here that are never rounded.
-/

namespace Kaufbot

open CString

variable {α : Type} [CDouble α]

/-- The total and the sum are more than one and a half cents apart. -/
def Mismatch (total sum : Rat) : Prop := 0.015 < |total - sum|

/-- The text has the layout of the reply with a warning line, whatever sum the line names. -/
def CarriesWarning (data : ReceiptData α) (text : CString) : Prop :=
  ∃ calculated : α, text = concat (replyHeadPieces data ++ replyItemPieces data.items.zipIdx ++
    replyTotalLine data :: replyWarning calculated :: replyBackPieces data)

section Warning

theorem diffIsSignificant_iff (a b : Rat) : diffIsSignificant a b = true ↔ Mismatch b a := by
  have zero : (0.0 : Rat) = 0 := by norm_num
  rw [Mismatch, abs_sub_comm, diffIsSignificant, zero]
  by_cases negative : a - b < 0
  · simp only [negative, if_true, abs_of_neg negative, gt_iff_lt, decide_eq_true_eq]
  · simp only [negative, if_false, abs_of_nonneg (not_lt.mp negative), gt_iff_lt, decide_eq_true_eq]

theorem length_concat (pieces : List CString) : (concat pieces).length = size pieces := by
  rw [length, bytes_concat, List.length_flatMap]
  rfl

theorem printAll_text (pieces : List CString) {w : ReplyWriter}
    (whole : w.pos = w.text.length) (fits : w.text.length + size pieces < 4096) :
    (printAll pieces w).text.bytes = w.text.bytes ++ (concat pieces).bytes := by
  induction pieces generalizing w with
  | nil => simp [printAll]
  | cons piece rest ih =>
      rw [size_cons] at fits
      have uncut : snprintf w.remaining.toNat piece = piece := by
        apply snprintf_of_length_lt
        have cap : w.remaining = 4096 - w.pos := rfl
        omega
      have text : (w.print piece).text = w.text ++ piece := congrArg (w.text ++ ·) uncut
      have longer : (w.print piece).text.length = w.text.length + piece.length := by
        rw [text]
        exact List.length_append
      have moved : (w.print piece).pos = w.pos + piece.length := rfl
      rw [printAll_cons, ih (by omega) (by omega), text]
      simp

/-- A reply that fits is all of its pieces. -/
theorem replyWriter_text (data : ReceiptData α) (fits : size (replyPieces data) < 4096) :
    (replyWriter data).text = concat (replyPieces data) := by
  have written : replyWriter data = printAll (replyPieces data) .start := by
    rcases replyWriter_cases data with ⟨k, stops, -⟩ | ⟨-, written⟩
    · have full := stops.full
      have shorter := size_take_le (replyItemPieces data.items.zipIdx) k
      rw [replyPieces, size_append, size_append] at fits
      omega
    · exact written
  rw [written]
  apply CString.ext
  rw [printAll_text (replyPieces data) rfl (by simpa [ReplyWriter.start, length] using fits)]
  rfl

theorem carriesWarning_iff (data : ReceiptData Rat) (fits : size (replyPieces data) < 4096) :
    CarriesWarning data (replyWriter data).text ↔
      Mismatch data.totalSum (itemsTotal data.items.zipIdx) := by
  rw [replyWriter_text data fits, ← diffIsSignificant_iff]
  constructor
  · rintro ⟨calculated, text⟩
    by_contra insignificant
    have lengths := congrArg CString.length text
    have warning : 0 < (replyWarning calculated).length := length_concat_pos (by decide) _
    rw [length_concat, length_concat, replyPieces, replyTailPieces, if_neg insignificant,
      List.nil_append] at lengths
    simp only [size_append, size_cons] at lengths
    omega
  · intro significant
    refine ⟨itemsTotal data.items.zipIdx, ?_⟩
    rw [replyPieces, replyTailPieces, if_pos significant]
    rfl

end Warning

/-- The entries of `line_items`. -/
def lineItems (json : CJson) : List CJson :=
  let items := CJson.getObjectItem json (lit "line_items")
  if CJson.isArray items then CJson.children items else []

/-- The entries the reply is made of. -/
def countedItems (json : CJson) : List CJson := (lineItems json).take (lineItemCount json).toNat

def receiptTotal (items : List CJson) : Rat :=
  (items.map fun item => lineTotal (fillLineItem Rat item)).sum

section Receipt
variable {json : CJson}

theorem countedItems_eq (few : (lineItems json).length ≤ 30) : countedItems json = lineItems json := by
  refine List.take_of_length_le ?_
  simp only [lineItems, lineItemCount] at few ⊢
  split at few
  · next array =>
      rw [if_pos array]
      simp only [array, if_true, CJson.getArraySize, wrapInt32, maxReplyItems] at few ⊢
      omega
  · next other =>
      rw [if_neg other]
      exact Nat.zero_le _

theorem fillReceiptData_items (fileId tokens : Int) (publicUrl : CString → Option CString)
    (savedName ocrName : CString) :
    (fillReceiptData α json fileId tokens publicUrl savedName ocrName).items =
      (countedItems json).map (fillLineItem α) := by
  simp only [fillReceiptData, CJson.firstItems, countedItems, lineItems, lineItemCount]
  split <;> rfl

theorem addItems_eq_sum (items : List (ReplyLineItem Rat × Nat)) (total : Rat) :
    addItems total items = total + (items.map fun item => lineTotal item.1).sum := by
  induction items generalizing total with
  | nil => exact (add_zero total).symm
  | cons item items ih =>
      rw [addItems_cons, ih, List.map_cons, List.sum_cons]
      exact add_assoc total (lineTotal item.1) _

theorem itemsTotal_zipIdx (items : List CJson) :
    itemsTotal (items.map (fillLineItem Rat)).zipIdx = receiptTotal items := by
  have column : (items.map (fillLineItem Rat)).zipIdx.map (fun item => lineTotal item.1) =
      ((items.map (fillLineItem Rat)).zipIdx.map Prod.fst).map lineTotal := by
    rw [List.map_map]
    rfl
  have zero : (0.0 : Rat) = 0 := by norm_num
  rw [itemsTotal, addItems_eq_sum, column, List.zipIdx_map_fst, List.map_map, zero, zero_add]
  rfl

/-- For a reply that fits, the warning is right exactly if there are no more line items than are
copied, or the others do not move the sum across the threshold. -/
theorem reply_warns_iff (json : CJson) (fileId tokens : Int) (publicUrl : CString → Option CString)
    (savedName ocrName : CString)
    (fits : size (replyPieces (fillReceiptData Rat json fileId tokens publicUrl savedName ocrName))
      < 4096) :
    (CarriesWarning (fillReceiptData Rat json fileId tokens publicUrl savedName ocrName)
        (processorBuildReply Rat json fileId tokens publicUrl savedName ocrName).text ↔
      Mismatch (numberField json "total_sum" 0) (receiptTotal (lineItems json))) ↔
    ((lineItems json).length ≤ 30 ∨
      (Mismatch (numberField json "total_sum" 0) (receiptTotal (countedItems json)) ↔
        Mismatch (numberField json "total_sum" 0) (receiptTotal (lineItems json)))) := by
  have carries := carriesWarning_iff _ fits
  rw [fillReceiptData_items, itemsTotal_zipIdx] at carries
  rw [processorBuildReply, replyBuilderFormatReceipt_eq]
  constructor
  · exact fun right => .inr (carries.symm.trans right)
  · rintro (few | same)
    · rw [countedItems_eq few] at carries
      exact carries
    · exact carries.trans same

/-- An entry with a price and nothing else. -/
def pricedItem (price : Rat) : CJson := .object [(lit "price", .number price)]

def pricedReceipt (count : Nat) (total : Rat) : CJson :=
  .object [(lit "line_items", .array (List.replicate count (pricedItem 1))),
    (lit "total_sum", .number total)]

theorem reply_warns_two_items :
    (CarriesWarning (fillReceiptData Rat (pricedReceipt 2 5) 1 0 (fun _ => none) .empty .empty)
        (processorBuildReply Rat (pricedReceipt 2 5) 1 0 (fun _ => none) .empty .empty).text ↔
      Mismatch (numberField (pricedReceipt 2 5) "total_sum" 0)
        (receiptTotal (lineItems (pricedReceipt 2 5)))) ↔
    ((lineItems (pricedReceipt 2 5)).length ≤ 30 ∨
      (Mismatch (numberField (pricedReceipt 2 5) "total_sum" 0)
          (receiptTotal (countedItems (pricedReceipt 2 5))) ↔
        Mismatch (numberField (pricedReceipt 2 5) "total_sum" 0)
          (receiptTotal (lineItems (pricedReceipt 2 5))))) :=
  reply_warns_iff (pricedReceipt 2 5) 1 0 (fun _ => none) .empty .empty (by decide +kernel)

/-- Thirty-one items of one euro and a total of thirty-one: the totals agree, and the reply warns. -/
theorem long_receipt_warns :
    size (replyPieces (fillReceiptData Rat (pricedReceipt 31 31) 1 0 (fun _ => none) .empty .empty))
        < 4096 ∧
      CarriesWarning (fillReceiptData Rat (pricedReceipt 31 31) 1 0 (fun _ => none) .empty .empty)
        (processorBuildReply Rat (pricedReceipt 31 31) 1 0 (fun _ => none) .empty .empty).text ∧
      ¬ Mismatch (numberField (pricedReceipt 31 31) "total_sum" 0)
        (receiptTotal (lineItems (pricedReceipt 31 31))) := by
  have fits : size (replyPieces (fillReceiptData Rat (pricedReceipt 31 31) 1 0 (fun _ => none) .empty
      .empty)) < 4096 := by decide +kernel
  have total : numberField (pricedReceipt 31 31) "total_sum" 0 = 31 := by decide +kernel
  have counted : receiptTotal (countedItems (pricedReceipt 31 31)) = 30 := by decide +kernel
  have all : receiptTotal (lineItems (pricedReceipt 31 31)) = 31 := by decide +kernel
  have carries := carriesWarning_iff _ fits
  have copied : (fillReceiptData Rat (pricedReceipt 31 31) 1 0 (fun _ => none) .empty .empty).totalSum =
      31 := total
  rw [fillReceiptData_items, itemsTotal_zipIdx, counted, copied] at carries
  rw [processorBuildReply, replyBuilderFormatReceipt_eq, total, all]
  refine ⟨fits, carries.mpr ?_, ?_⟩
  · norm_num [Mismatch]
  · norm_num [Mismatch]

end Receipt

end Kaufbot
