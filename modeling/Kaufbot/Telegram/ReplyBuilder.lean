import Kaufbot.Cjson
import Kaufbot.Library.Doubles

/-!
The receipt reply. The message is printed piece by piece into one buffer at a
running position; a piece past the end is cut, and the position moves on by the
length the piece would have had. Prices and totals are doubles of any type of
them: the code is this with `Float`, and with `Rat` it is the code without rounding.
-/

namespace Kaufbot

open CString CDouble

def maxReplyItems : Nat := 30
def maxReplyTextLen : Nat := 4096

structure ReplyLineItem (α : Type) where
  originalName : CString
  englishTranslation : CString
  unitOfMeasure : CString
  category : CString
  price : α
  amount : α
  discount : α

structure ReceiptData (α : Type) where
  storeName : CString
  isReceipt : Bool
  imageQuality : Int
  reportedItemCount : Int
  totalSum : α
  items : List (ReplyLineItem α)
  itemCount : Int
  fileId : Int
  tokensUsed : Int
  originalUrl : CString
  ocrUrl : CString
  jsonUrl : CString

structure ReplyMessage where
  text : CString
  fileId : Int

/-- The buffer, the position `pos`, and whether a piece was printed past the end. -/
structure ReplyWriter where
  text : CString
  pos : Int
  overran : Bool

namespace ReplyWriter

def start : ReplyWriter := { text := .empty, pos := 0, overran := false }

/-- `(int)len - pos`. -/
def remaining (w : ReplyWriter) : Int := maxReplyTextLen - w.pos

/-- `pos += snprintf(buf + pos, len - pos, …)`. -/
def print (w : ReplyWriter) (piece : CString) : ReplyWriter where
  text := w.text ++ snprintf w.remaining.toNat piece
  pos := w.pos + piece.length
  overran := w.overran || w.remaining < 0

end ReplyWriter

section Text
variable {α : Type} [CDouble α]

def diffIsSignificant (a b : α) : Bool :=
  let diff := a - b
  let diff := if diff < 0.0 then -diff else diff
  diff > 0.015

/-- A text field with the default the source prints for an empty one. -/
def orDefault (field default : CString) : CString := if field.bytes.isEmpty then default else field

def replyItemHeader (number : Nat) (item : ReplyLineItem α) : CString :=
  let displayName := orDefault item.englishTranslation item.originalName
  if item.category.bytes.isEmpty then
    .concat [lit "  `", printNat number, lit ".` ", displayName, lit "\n"]
  else
    .concat [lit "  `", printNat number, lit ".` ", displayName, lit " _", item.category,
      lit "_\n"]

def replyPriceLine (item : ReplyLineItem α) (lt : α) : CString :=
  let uom := orDefault item.unitOfMeasure (lit "pcs")
  if item.discount > 0.005 ∧ item.amount > 1.005 then
    .concat [lit "      `", printFixed2 item.price, lit "` x `", printFixed2 item.amount, lit " ",
      uom, lit "` - `", printFixed2 item.discount, lit "` = `", printFixed2 lt, lit " EUR`\n"]
  else if item.discount > 0.005 then
    .concat [lit "      `", printFixed2 item.price, lit " EUR` - `", printFixed2 item.discount,
      lit "` = `", printFixed2 lt, lit " EUR`\n"]
  else if item.amount > 1.005 then
    .concat [lit "      `", printFixed2 item.price, lit "` x `", printFixed2 item.amount, lit " ",
      uom, lit "` = `", printFixed2 lt, lit " EUR`\n"]
  else
    .concat [lit "      `", printFixed2 lt, lit " EUR`\n"]

def replyLineItems : List (ReplyLineItem α × Nat) → ReplyWriter → α → ReplyWriter × α
  | [], w, total => (w, total)
  | (item, i) :: rest, w, total =>
      let lt := item.price * item.amount - item.discount
      if w.remaining ≤ 0 then (w, total + lt)
      else
        let w := w.print (replyItemHeader (i + 1) item)
        if w.remaining ≤ 0 then (w, total + lt)
        else replyLineItems rest (w.print (replyPriceLine item lt)) (total + lt)

def replyQuality (q : Int) : CString :=
  let emoji := if q ≥ 80 then lit "🟢" else if q ≥ 50 then lit "🟡"
    else lit "🔴"
  .concat [emoji, lit " Quality: `", printInt q, lit "%`\n"]

def replyItemCount (data : ReceiptData α) : CString :=
  let count := printInt data.itemCount
  if data.reportedItemCount ≥ 0 then
    .concat [lit "📋 Items: `", count, lit "` (receipt says `",
      printInt data.reportedItemCount, lit "`)\n"]
  else .concat [lit "📋 Items: `", count, lit "`\n"]

def ReplyWriter.link (w : ReplyWriter) (label url : CString) : ReplyWriter :=
  if url.bytes.isEmpty then w
  else w.print (.concat [lit "\n📄 [", label, lit "](", url, lit ")"])

def replyBuilderFormatReceipt (data : ReceiptData α) : ReplyMessage :=
  let w := ReplyWriter.start
  let w := if data.isReceipt then w else w.print (lit "❌ *Not a receipt*\n\n")
  let w := w.print (.concat [lit "🏪 *", orDefault data.storeName (lit "Unknown"),
    lit "*\n"])
  let w := if data.imageQuality ≥ 0 then w.print (replyQuality data.imageQuality) else w
  let w := w.print (replyItemCount data)
  let w := w.print (lit "\n")
  let (w, calculated) := replyLineItems data.items.zipIdx w 0.0
  let w := w.print (.concat [lit "\n💰 *Total:* `", printFixed2 data.totalSum,
    lit " EUR`"])
  let w := if diffIsSignificant calculated data.totalSum then
      w.print (.concat [lit "\n⚠️ Calculated `", printFixed2 calculated,
        lit " EUR` — check totals"])
    else w
  let w := if data.tokensUsed > 0 then
      w.print (.concat [lit "\n⚡ Tokens: `", printInt data.tokensUsed, lit "`"])
    else w
  let hasLink := !(data.originalUrl.bytes.isEmpty && data.ocrUrl.bytes.isEmpty &&
    data.jsonUrl.bytes.isEmpty)
  let w := if hasLink then
      (((w.print (lit "\n")).link (lit "Original") data.originalUrl).link (lit "OCR text")
        data.ocrUrl).link (lit "JSON") data.jsonUrl
    else w
  { text := w.text, fileId := data.fileId }

end Text

end Kaufbot
