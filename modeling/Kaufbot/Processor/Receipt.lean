import Kaufbot.Telegram.ReplyBuilder

/-!
From the parsed receipt to the reply: every field is copied into a buffer of
fixed size, at most thirty line items are taken, and absent fields keep the
defaults of the zeroed structure. The type of the doubles comes first.
-/

namespace Kaufbot

open CString CDouble

def maxItemNameLen : Nat := 128
def maxStoreNameLen : Nat := 128
def maxDownloadUrl : Nat := 512

/-- A string member copied into a buffer of `size` bytes, empty when there is none. -/
def stringField (json : Option CJson) (name : String) (size : Nat) : CString :=
  match CJson.stringValue? (CJson.getObjectItem json (lit name)) with
  | some s => snprintf size s
  | none => .empty

def numberField (json : Option CJson) (name : String) (default : Rat) : Rat :=
  (CJson.numberValue? (CJson.getObjectItem json (lit name))).getD default

def intField (json : Option CJson) (name : String) (default : Int) : Int :=
  ((CJson.numberValue? (CJson.getObjectItem json (lit name))).map doubleToIntSat).getD default

section Fill
variable (α : Type) [CDouble α]

def fillLineItem (item : CJson) : ReplyLineItem α where
  originalName := stringField item "original_name" maxItemNameLen
  englishTranslation := stringField item "english_translation" maxItemNameLen
  unitOfMeasure := stringField item "unit_of_measure" 32
  category := stringField item "category" 64
  price := ofRat (numberField item "price" 0)
  amount := ofRat (numberField item "amount" 1)
  discount := ofRat (numberField item "discount" 0)

/-- The address of a stored file, when its name is not empty and the backend has one. -/
def downloadUrl (publicUrl : CString → Option CString) (name : CString) : CString :=
  if name.bytes.isEmpty then .empty
  else match publicUrl name with
    | some url => snprintf maxDownloadUrl url
    | none => .empty

/-- The number of line items taken: at most thirty, none without an array. -/
def lineItemCount (json : CJson) : Int :=
  let items := CJson.getObjectItem json (lit "line_items")
  if CJson.isArray items then min (CJson.getArraySize items) maxReplyItems else 0

def fillReceiptData (json : CJson) (fileId tokens : Int) (publicUrl : CString → Option CString)
    (savedName ocrName : CString) : ReceiptData α where
  storeName :=
    stringField (CJson.getObjectItem json (lit "store_information")) "name" maxStoreNameLen
  isReceipt := !CJson.isFalse (CJson.getObjectItem json (lit "is_receipt"))
  imageQuality := intField json "image_quality" (-1)
  reportedItemCount := intField json "reported_item_count" (-1)
  totalSum := ofRat (numberField json "total_sum" 0)
  items :=
    (CJson.firstItems (CJson.getObjectItem json (lit "line_items")) (lineItemCount json)).map
      (fillLineItem α)
  itemCount := lineItemCount json
  fileId := fileId
  tokensUsed := tokens
  originalUrl := downloadUrl publicUrl savedName
  ocrUrl := downloadUrl publicUrl ocrName
  jsonUrl := .empty

def processorBuildReply (json : CJson) (fileId tokens : Int)
    (publicUrl : CString → Option CString) (savedName ocrName : CString) : ReplyMessage :=
  replyBuilderFormatReceipt (fillReceiptData α json fileId tokens publicUrl savedName ocrName)

end Fill

end Kaufbot
