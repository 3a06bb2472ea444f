import Kaufbot.Cjson

/-!
The texts that go to Gemini and what is read from its answers: the prompts, the
request body with the picture in base64, the text of a response, its token
counts, and the code fences models put around JSON.
-/

namespace Kaufbot

open CString

def geminiMaxModelLen : Nat := 128

def ocrPrompt : CString :=
  .concat [
    lit "Extract ALL text from this image or document. This document is a receipt from one of ",
    lit "the well-know german supermarkets.",
    lit "Preserve the original layout and formatting as closely as possible. ",
    lit "Items on the same line in the image/pdf should stay on the same line in the output ",
    lit "text.",
    lit "If the line starts with the blank text - use spaces to align text with the text ",
    lit "position on the image/document.",
    lit "If there is no text, respond with: [NO TEXT FOUND]. ",
    lit "Output only the extracted text, nothing else."]

def parsePrompt : CString :=
  .concat [
    lit "You are an expert German supermarket receipt parsing tool. You are given text ",
    lit "extracted from a receipt photo via OCR. The layout is important, as item ",
    lit "descriptions often span multiple lines.\n\n",
    lit "Your task is to extract the data and return it strictly as a JSON document ",
    lit "matching the schema below. IMPORTANT: Return ONLY the raw JSON. Do NOT wrap it ",
    lit "in markdown code blocks (```json). Do NOT include any conversational text, ",
    lit "explanations, or formatting before or after the JSON.\n\n",
    lit "Extraction Rules:\n\n",
    lit "Multi-line Items: Item names often wrap to the next line (e.g., an ID and ",
    lit "partial name on line 1, and the rest of the name on line 2). Merge these into ",
    lit "a single original_name string.\n\n",
    lit "Translation: Provide an accurate English translation for the full item name.\n\n",
    lit "Categorization: Intelligently assign a broad category (e.g., Electronics, ",
    lit "Household, Groceries) and a more specific sub_category.\n\n",
    lit "Amounts and Units: If an amount isn't explicitly stated, default to 1. Extract ",
    lit "the unit of measure (e.g., pieces, kg, g, m) from the item name if possible.\n\n",
    lit "Discounts: If an item has a discount shown on the receipt (e.g., 'AKTION', ",
    lit "'RABATT', '-', or a negative price line), include it as the discount field with ",
    lit "the discount amount as a positive number. If no discount, set to null.\n\n",
    lit "is_receipt: Set to true if the image appears to be a valid receipt. Set to false ",
    lit "if the image is not a receipt or the text is unreadable.\n\n",
    lit "image_quality: Assess the OCR text quality as a number 0-100. ",
    lit "100 = perfect OCR, every character clear. 50 = roughly half readable. ",
    lit "0 = completely unreadable/garbled.\n\n",
    lit "reported_item_count: If the receipt explicitly states the number of items ",
    lit "(e.g., 'Anzahl', 'Stück', 'Menge'), report it. Otherwise null.\n\n",
    lit "Other Info: Group all remaining data (payment details, taxes, dates, times, ",
    lit "terminal IDs) into the other object.\n\n",
    lit "Required JSON Schema:\n\n",
    lit "\x7b\n",
    lit "  \"is_receipt\": true,\n",
    lit "  \"image_quality\": 85,\n",
    lit "  \"store_information\": \x7b\n",
    lit "    \"name\": \"string\",\n",
    lit "    \"address\": \"string\"\n",
    lit "  \x7d,\n",
    lit "  \"line_items\": [\n",
    lit "    \x7b\n",
    lit "      \"id\": \"string (if present)\",\n",
    lit "      \"original_name\": \"string\",\n",
    lit "      \"english_translation\": \"string\",\n",
    lit "      \"category\": \"string\",\n",
    lit "      \"sub_category\": \"string\",\n",
    lit "      \"price\": number,\n",
    lit "      \"discount\": number|null,\n",
    lit "      \"tax_group\": \"string (if identifiable, else null)\",\n",
    lit "      \"amount\": number,\n",
    lit "      \"unit_of_measure\": \"string (e.g., pieces, m, cm, pack)\"\n",
    lit "    \x7d\n",
    lit "  ],\n",
    lit "  \"total_sum\": number,\n",
    lit "  \"reported_item_count\": number|null,\n",
    lit "  \"other\": \x7b\n",
    lit "    \"date\": \"string\",\n",
    lit "    \"time\": \"string\",\n",
    lit "    \"receipt_number\": \"string\",\n",
    lit "    \"payment_method\": \"string\",\n",
    lit "    \"tax_details\": \x7b\x7d,\n",
    lit "    \"card_details\": \x7b\x7d,\n",
    lit "    \"raw_unmapped_text\": \"string (optional)\"\n",
    lit "  \x7d\n",
    lit "\x7d\n\n",
    lit "Input Text:\n"]

def b64Chars : List UInt8 :=
  (lit "ABCDEFGHIJKLMNOPQRSTUVWXYZabcdefghijklmnopqrstuvwxyz0123456789+/").bytes

/-- The four characters for three bytes. -/
def base64Group (a b c : UInt8) : List UInt8 :=
  let triple := a.toNat * 65536 + b.toNat * 256 + c.toNat
  [triple / 262144 % 64, triple / 4096 % 64, triple / 64 % 64, triple % 64].map
    fun i => b64Chars.getD i 0

def base64Bytes : List UInt8 → List UInt8
  | [] => []
  | [a] => (base64Group a 0 0).take 2 ++ [61, 61]
  | [a, b] => (base64Group a b 0).take 3 ++ [61]
  | a :: b :: c :: rest => base64Group a b c ++ base64Bytes rest

def base64Encode (src : List UInt8) : CString := ofBytes (base64Bytes src)

example : base64Encode (lit "Kauf").bytes = lit "S2F1Zg==" := by decide +kernel

def storageMimeType (filename : CString) : CString :=
  match filename.strrchr 46 with
  | none => lit "application/octet-stream"
  | some ext =>
      let oneOf (exts : List String) : Bool := exts.any fun e => caseInsensitiveEq ext (lit e)
      if oneOf [".jpg", ".jpeg"] then lit "image/jpeg"
      else if oneOf [".png"] then lit "image/png"
      else if oneOf [".gif"] then lit "image/gif"
      else if oneOf [".webp"] then lit "image/webp"
      else if oneOf [".bmp"] then lit "image/bmp"
      else if oneOf [".tiff", ".tif"] then lit "image/tiff"
      else if oneOf [".pdf"] then lit "application/pdf"
      else lit "application/octet-stream"

def inlineDataPart (data : List UInt8) (filename : CString) : CJson :=
  .object [(lit "inline_data", .object [
    (lit "mime_type", .string (storageMimeType filename)),
    (lit "data", .string (base64Encode data))])]

def textPart (text : CString) : CJson := .object [(lit "text", .string text)]

/-- The body `gemini_build_body_and_post` builds. -/
def geminiBody (parts : List CJson) (prompt : CString) (extraText : Option CString) : CJson :=
  .object [
    (lit "contents", .array [.object [
      (lit "parts", .array (parts ++ [textPart prompt] ++ (extraText.map textPart).toList))]]),
    (lit "generationConfig", .object [(lit "temperature", .number 0)])]

/-- The node with the text of a response, unless the response is an error or lacks a level. -/
def geminiCheckError (json : Option CJson) : Option CString :=
  if (member json "error").isSome then none
  else
    let candidates := member json "candidates"
    if !CJson.isArray candidates || CJson.getArraySize candidates == 0 then none
    else
      let cont := member (CJson.getArrayItem candidates 0) "content"
      let parts := member cont "parts"
      if !CJson.isArray parts || CJson.getArraySize parts == 0 then none
      else CJson.stringValue? (member (CJson.getArrayItem parts 0) "text")

def geminiParseApiResponse (cjsonParse : CString → Option CJson) (apiJson : Option CString) :
    Option CString :=
  match apiJson with
  | none => none
  | some apiJson =>
      if apiJson.bytes.isEmpty then none
      else
        match cjsonParse apiJson with
        | none => none
        | some json => geminiCheckError (some json)

structure TokenUsage where
  promptTokens : Int
  completionTokens : Int
  totalTokens : Int
deriving DecidableEq

def TokenUsage.zero : TokenUsage :=
  { promptTokens := 0, completionTokens := 0, totalTokens := 0 }

/-- The counts in `usageMetadata`; what is missing or no number counts as 0. -/
def tokenUsage (json : Option CJson) : TokenUsage :=
  let usage := member json "usageMetadata"
  let count (name : String) : Int :=
    ((CJson.numberValue? (member usage name)).map doubleToIntSat).getD 0
  { promptTokens := count "promptTokenCount"
    completionTokens := count "candidatesTokenCount"
    totalTokens := count "totalTokenCount" }

def isLineBreak (b : UInt8) : Bool := b == 10 || b == 13

def isJsonSpace (b : UInt8) : Bool := b == 32 || b == 9 || isLineBreak b

/-- What is left of a string that is cut at the first occurrence of `needle`. -/
def cutAt (needle : List UInt8) : List UInt8 → List UInt8
  | [] => []
  | b :: l => if needle.isPrefixOf (b :: l) then [] else b :: cutAt needle l

def stripMarkdownJson (raw : CString) : CString :=
  let start :=
    if raw.startsWith (lit "```json") then (raw.bytes.drop 7).dropWhile isLineBreak
    else if raw.startsWith (lit "```") then (raw.bytes.drop 3).dropWhile isLineBreak
    else raw.bytes
  let body := (cutAt (lit "```").bytes start).dropWhile isJsonSpace
  ofBytes (body.reverse.dropWhile isJsonSpace).reverse

example : stripMarkdownJson (lit "```json\n[1, 2]\n```\n") = lit "[1, 2]" := by decide +kernel

end Kaufbot
