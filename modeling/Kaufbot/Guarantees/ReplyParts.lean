import Kaufbot.Guarantees.TotalsCheck

/-!
The receipt reply as text of the builder's own with the receipt's strings and
the download addresses in it. What the pieces of the reply are is said once
more, with the three kinds apart; a reply that fits is these parts in their
order.
-/

namespace Kaufbot

open CString CDouble

variable {α : Type} [CDouble α]

inductive ReplyPart where
  | text (s : CString)
  | data (s : CString)
  | url (s : CString)

def ReplyPart.string : ReplyPart → CString
  | .text s | .data s | .url s => s

def partsBytes (parts : List ReplyPart) : List UInt8 := parts.flatMap (·.string.bytes)

def replyStoreParts (data : ReceiptData α) : List ReplyPart :=
  [.text (lit "🏪 *"), .data (orDefault data.storeName (lit "Unknown")), .text (lit "*\n")]

def replyQualityParts (q : Int) : List ReplyPart :=
  [.text (if q ≥ 80 then lit "🟢" else if q ≥ 50 then lit "🟡" else lit "🔴"),
    .text (lit " Quality: `"), .text (printInt q), .text (lit "%`\n")]

def replyItemCountParts (data : ReceiptData α) : List ReplyPart :=
  if data.reportedItemCount ≥ 0 then
    [.text (lit "📋 Items: `"), .text (printInt data.itemCount), .text (lit "` (receipt says `"),
      .text (printInt data.reportedItemCount), .text (lit "`)\n")]
  else [.text (lit "📋 Items: `"), .text (printInt data.itemCount), .text (lit "`\n")]

def displayName (item : ReplyLineItem α) : CString :=
  orDefault item.englishTranslation item.originalName

def replyHeaderParts (number : Nat) (item : ReplyLineItem α) : List ReplyPart :=
  [.text (lit "  `"), .text (printNat number), .text (lit ".` "), .data (displayName item)] ++
    if item.category.bytes.isEmpty then [.text (lit "\n")]
    else [.text (lit " _"), .data item.category, .text (lit "_\n")]

def replyPriceParts (item : ReplyLineItem α) (lt : α) : List ReplyPart :=
  let uom := orDefault item.unitOfMeasure (lit "pcs")
  if item.discount > 0.005 ∧ item.amount > 1.005 then
    [.text (lit "      `"), .text (printFixed2 item.price), .text (lit "` x `"),
      .text (printFixed2 item.amount), .text (lit " "), .data uom, .text (lit "` - `"),
      .text (printFixed2 item.discount), .text (lit "` = `"), .text (printFixed2 lt),
      .text (lit " EUR`\n")]
  else if item.discount > 0.005 then
    [.text (lit "      `"), .text (printFixed2 item.price), .text (lit " EUR` - `"),
      .text (printFixed2 item.discount), .text (lit "` = `"), .text (printFixed2 lt),
      .text (lit " EUR`\n")]
  else if item.amount > 1.005 then
    [.text (lit "      `"), .text (printFixed2 item.price), .text (lit "` x `"),
      .text (printFixed2 item.amount), .text (lit " "), .data uom, .text (lit "` = `"),
      .text (printFixed2 lt), .text (lit " EUR`\n")]
  else [.text (lit "      `"), .text (printFixed2 lt), .text (lit " EUR`\n")]

def replyTotalParts (data : ReceiptData α) : List ReplyPart :=
  [.text (lit "\n💰 *Total:* `"), .text (printFixed2 data.totalSum), .text (lit " EUR`")]

def replyWarningParts (calculated : α) : List ReplyPart :=
  [.text (lit "\n⚠️ Calculated `"), .text (printFixed2 calculated),
    .text (lit " EUR` — check totals")]

def replyTokenParts (tokens : Int) : List ReplyPart :=
  [.text (lit "\n⚡ Tokens: `"), .text (printInt tokens), .text (lit "`")]

def replyLinkParts (label url : CString) : List ReplyPart :=
  if url.bytes.isEmpty then []
  else [.text (lit "\n📄 ["), .text label, .text (lit "]("), .url url, .text (lit ")")]

/-- The links, which end the reply. -/
def replyLinksParts (data : ReceiptData α) : List ReplyPart :=
  if data.originalUrl.bytes.isEmpty && data.ocrUrl.bytes.isEmpty && data.jsonUrl.bytes.isEmpty then []
  else .text (lit "\n") :: (replyLinkParts (lit "Original") data.originalUrl ++
    replyLinkParts (lit "OCR text") data.ocrUrl ++ replyLinkParts (lit "JSON") data.jsonUrl)

def replyItemsParts (items : List (ReplyLineItem α × Nat)) : List ReplyPart :=
  items.flatMap fun (item, i) => replyHeaderParts (i + 1) item ++ replyPriceParts item (lineTotal item)

/-- All that comes before the links. -/
def replyBodyParts (data : ReceiptData α) : List ReplyPart :=
  (if data.isReceipt then [] else [.text (lit "❌ *Not a receipt*\n\n")]) ++ replyStoreParts data ++
    (if data.imageQuality ≥ 0 then replyQualityParts data.imageQuality else []) ++
    replyItemCountParts data ++ [.text (lit "\n")] ++ replyItemsParts data.items.zipIdx ++
    replyTotalParts data ++
    (if diffIsSignificant (itemsTotal data.items.zipIdx) data.totalSum then
      replyWarningParts (itemsTotal data.items.zipIdx) else []) ++
    (if data.tokensUsed > 0 then replyTokenParts data.tokensUsed else [])

def replyParts (data : ReceiptData α) : List ReplyPart := replyBodyParts data ++ replyLinksParts data

omit [CDouble α] in
theorem forall_zipIdx (items : List (ReplyLineItem α)) (P : ReplyLineItem α → Prop) :
    (∀ item ∈ items.zipIdx, P item.1) ↔ ∀ item ∈ items, P item := by
  conv_rhs => rw [← List.zipIdx_map_fst 0 items]
  rw [List.forall_mem_map]

section Pieces
variable (data : ReceiptData α)

theorem partsBytes_append (front back : List ReplyPart) :
    partsBytes (front ++ back) = partsBytes front ++ partsBytes back := List.flatMap_append

theorem partsBytes_nil : partsBytes [] = [] := rfl

theorem partsBytes_ite (c : Prop) [Decidable c] (yes no : List ReplyPart) :
    partsBytes (if c then yes else no) = if c then partsBytes yes else partsBytes no := by
  split <;> rfl

theorem flatMap_bytes_ite (c : Prop) [Decidable c] (yes no : List CString) :
    (if c then yes else no).flatMap bytes = if c then yes.flatMap bytes else no.flatMap bytes := by
  split <;> rfl

omit [CDouble α] in
theorem replyItemHeader_bytes (number : Nat) (item : ReplyLineItem α) :
    (replyItemHeader number item).bytes = partsBytes (replyHeaderParts number item) := by
  rw [replyItemHeader, replyHeaderParts]
  split <;> simp [partsBytes, ReplyPart.string, displayName]

theorem replyPriceLine_bytes (item : ReplyLineItem α) (lt : α) :
    (replyPriceLine item lt).bytes = partsBytes (replyPriceParts item lt) := by
  simp only [replyPriceLine, replyPriceParts]
  split_ifs <;> simp [partsBytes, ReplyPart.string]

theorem replyItemPieces_bytes (items : List (ReplyLineItem α × Nat)) :
    (replyItemPieces items).flatMap bytes = partsBytes (replyItemsParts items) := by
  induction items with
  | nil => rfl
  | cons item items ih =>
      obtain ⟨item, i⟩ := item
      change (replyItemHeader (i + 1) item).bytes ++ ((replyPriceLine item (lineTotal item)).bytes ++
        (replyItemPieces items).flatMap bytes) = partsBytes ((replyHeaderParts (i + 1) item ++
          replyPriceParts item (lineTotal item)) ++ replyItemsParts items)
      rw [ih, replyItemHeader_bytes, replyPriceLine_bytes, partsBytes_append, partsBytes_append,
        List.append_assoc]

omit [CDouble α] in
theorem replyHeadPieces_bytes :
    (replyHeadPieces data).flatMap bytes =
      partsBytes ((if data.isReceipt then [] else [.text (lit "❌ *Not a receipt*\n\n")]) ++
        replyStoreParts data ++
        (if data.imageQuality ≥ 0 then replyQualityParts data.imageQuality else []) ++
        replyItemCountParts data ++ [.text (lit "\n")]) := by
  have count : (replyItemCount data).bytes = partsBytes (replyItemCountParts data) := by
    simp only [replyItemCount, replyItemCountParts]
    split <;> simp [partsBytes, ReplyPart.string]
  simp only [replyHeadPieces, List.flatMap_append, flatMap_bytes_ite, partsBytes_append,
    partsBytes_ite, List.flatMap_cons, List.flatMap_nil, count]
  simp [partsBytes, ReplyPart.string, replyStoreParts, replyQuality, replyQualityParts]

theorem replyLinkPieces_bytes (label url : CString) :
    (replyLinkPieces label url).flatMap bytes = partsBytes (replyLinkParts label url) := by
  rw [replyLinkPieces, replyLinkParts]
  split <;> simp [partsBytes, ReplyPart.string]

theorem replyTailPieces_bytes (calculated : α) :
    (replyTailPieces data calculated).flatMap bytes =
      partsBytes (replyTotalParts data ++
        (if diffIsSignificant calculated data.totalSum then replyWarningParts calculated else []) ++
        (if data.tokensUsed > 0 then replyTokenParts data.tokensUsed else []) ++
        replyLinksParts data) := by
  have total : (replyTotalLine data).bytes = partsBytes (replyTotalParts data) := by
    simp [replyTotalLine, replyTotalParts, partsBytes, ReplyPart.string]
  have warning : (replyWarning calculated).bytes = partsBytes (replyWarningParts calculated) := by
    simp [replyWarning, replyWarningParts, partsBytes, ReplyPart.string]
  have tokens : (concat [lit "\n⚡ Tokens: `", printInt data.tokensUsed, lit "`"]).bytes =
      partsBytes (replyTokenParts data.tokensUsed) := by
    simp [replyTokenParts, partsBytes, ReplyPart.string]
  have break_ (parts : List ReplyPart) :
      partsBytes (.text (lit "\n") :: parts) = (lit "\n").bytes ++ partsBytes parts := rfl
  simp only [replyTailPieces, replyBackPieces, replyLinksParts, List.flatMap_cons,
    List.flatMap_append, flatMap_bytes_ite, partsBytes_append, partsBytes_ite, List.flatMap_nil,
    List.append_nil, partsBytes_nil, replyLinkPieces_bytes, total, warning, tokens, break_,
    List.append_assoc]

/-- All pieces of the reply are its parts in their order. -/
theorem replyPieces_bytes : (concat (replyPieces data)).bytes = partsBytes (replyParts data) := by
  rw [bytes_concat, replyPieces, List.flatMap_append, List.flatMap_append, replyHeadPieces_bytes,
    replyItemPieces_bytes, replyTailPieces_bytes]
  simp only [replyParts, replyBodyParts, partsBytes_append, List.append_assoc]

/-- A reply that fits is its parts. -/
theorem replyBuilderFormatReceipt_bytes (fits : size (replyPieces data) < 4096) :
    (replyBuilderFormatReceipt data).text.bytes = partsBytes (replyParts data) := by
  rw [replyBuilderFormatReceipt_eq]
  change (replyWriter data).text.bytes = _
  rw [replyWriter_text data fits, replyPieces_bytes]

end Pieces

end Kaufbot
