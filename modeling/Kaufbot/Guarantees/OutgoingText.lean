import Kaufbot.Guarantees.ReplyParts
import Kaufbot.Library.Utf8
import Kaufbot.Processor.Effects

/-!
Which of the texts the bot sends or stores are UTF-8. Strings are cut by
counting bytes, so a text is damaged exactly where a cut falls inside a
character; the conditions say so for the strings as they come in.
-/

namespace Kaufbot

open CString CDouble Utf8

/-- The first byte of the text, if it has one, is ASCII, and it has one. -/
def StartsAscii (s : CString) : Prop := ∃ b rest, s.bytes = b :: rest ∧ b < 128

/-- The text of the builder is UTF-8, and what is filled in has such a text behind it. -/
def Spaced : List ReplyPart → Prop
  | [] => True
  | .text s :: parts => Valid s.bytes ∧ Spaced parts
  | .data _ :: .text s :: parts | .url _ :: .text s :: parts =>
      (StartsAscii s ∧ Valid s.bytes) ∧ Spaced parts
  | .data _ :: _ | .url _ :: _ => False

theorem startsAscii_of_head {s : CString} (h : s.bytes.head?.any (· < 128)) : StartsAscii s := by
  cases hs : s.bytes with
  | nil => simp [hs] at h
  | cons b rest => exact ⟨b, rest, hs, by simpa [hs] using h⟩

/-- The strings that are filled in. -/
def filled (parts : List ReplyPart) : List CString :=
  parts.filterMap fun
    | .text _ => none
    | .data s | .url s => some s

section Parts
variable {parts front back : List ReplyPart}

theorem valid_filled_iff {s : CString} (start : StartsAscii s) (d rest : List UInt8) :
    Valid (d ++ (s.bytes ++ rest)) ↔ Valid d ∧ Valid (s.bytes ++ rest) := by
  obtain ⟨b, later, hs, ascii⟩ := start
  rw [hs]
  exact valid_split (isUTF8FirstByte_of_ascii ascii)

theorem partsBytes_cons (part : ReplyPart) (parts : List ReplyPart) :
    partsBytes (part :: parts) = part.string.bytes ++ partsBytes parts := rfl

/-- What is filled in decides. -/
theorem valid_partsBytes_iff (h : Spaced parts) :
    Valid (partsBytes parts) ↔ ∀ s ∈ filled parts, Valid s.bytes := by
  fun_induction Spaced parts with
  | case1 => exact iff_of_true valid_nil (by simp [filled])
  | case2 s parts ih =>
      rw [partsBytes_cons, ReplyPart.string, valid_append_iff h.1, ih h.2]
      rfl
  | case3 d s parts ih | case4 d s parts ih =>
      obtain ⟨⟨start, valid⟩, later⟩ := h
      rw [partsBytes_cons, partsBytes_cons, ReplyPart.string, ReplyPart.string,
        valid_filled_iff start, valid_append_iff valid, ih later]
      change _ ↔ ∀ t ∈ d :: filled parts, Valid t.bytes
      rw [List.forall_mem_cons]
  | case5 | case6 => exact h.elim

theorem Spaced.append (h : Spaced front) (h' : Spaced back) : Spaced (front ++ back) := by
  fun_induction Spaced front with
  | case1 => exact h'
  | case2 s parts ih => exact ⟨h.1, ih h.2⟩
  | case3 d s parts ih | case4 d s parts ih => exact ⟨h.1, ih h.2⟩
  | case5 | case6 => exact h.elim

end Parts

variable {α : Type} [CDouble α]

section Reply
variable (data : ReceiptData α)

theorem valid_of_numberText {s : CString} (h : NumberText s) : Valid s.bytes := by
  refine valid_of_ascii fun b hb => ?_
  rcases h b hb with digit | other
  · exact Nat.lt_of_le_of_lt digit.2 (by decide)
  · simp only [List.mem_cons, List.not_mem_nil, or_false] at other
    rcases other with rfl | rfl | rfl | rfl | rfl | rfl <;> decide

theorem valid_printNat (n : Nat) : Valid (printNat n).bytes :=
  valid_of_numberText (numberText_printNat n)

theorem valid_printInt (n : Int) : Valid (printInt n).bytes :=
  valid_of_numberText (numberText_printInt n)

theorem valid_printFixed2 (x : α) : Valid (printFixed2 x).bytes :=
  valid_of_numberText (CDouble.numberText x)

theorem spaced_linkParts (label url : CString) (h : Valid label.bytes) :
    Spaced (replyLinkParts label url) := by
  have close : StartsAscii (lit ")") := startsAscii_of_head (by decide)
  rw [replyLinkParts]
  split
  · trivial
  · exact ⟨valid_lit _, h, valid_lit _, ⟨close, valid_lit _⟩, trivial⟩

omit [CDouble α] in
theorem spaced_headerParts (number : Nat) (item : ReplyLineItem α) :
    Spaced (replyHeaderParts number item) := by
  have line : StartsAscii (lit "\n") := startsAscii_of_head (by decide)
  have category : StartsAscii (lit " _") := startsAscii_of_head (by decide)
  have close : StartsAscii (lit "_\n") := startsAscii_of_head (by decide)
  rw [replyHeaderParts]
  split
  · exact ⟨valid_lit _, valid_printNat _, valid_lit _, ⟨line, valid_lit _⟩, trivial⟩
  · exact ⟨valid_lit _, valid_printNat _, valid_lit _, ⟨category, valid_lit _⟩,
      ⟨close, valid_lit _⟩, trivial⟩

theorem spaced_priceParts (item : ReplyLineItem α) (lt : α) : Spaced (replyPriceParts item lt) := by
  have minus : StartsAscii (lit "` - `") := startsAscii_of_head (by decide)
  have equal : StartsAscii (lit "` = `") := startsAscii_of_head (by decide)
  simp only [replyPriceParts]
  split_ifs <;> simp only [Spaced, valid_lit, valid_printFixed2, minus, equal, and_self]

theorem spaced_itemsParts (items : List (ReplyLineItem α × Nat)) : Spaced (replyItemsParts items) := by
  induction items with
  | nil => trivial
  | cons item items ih =>
      obtain ⟨item, i⟩ := item
      exact ((spaced_headerParts (i + 1) item).append (spaced_priceParts item _)).append ih

theorem spaced_replyParts : Spaced (replyParts data) := by
  have close : StartsAscii (lit "*\n") := startsAscii_of_head (by decide)
  have ite {c : Prop} [Decidable c] {parts : List ReplyPart} (h : Spaced parts) :
      Spaced (if c then parts else []) := by
    split
    · exact h
    · trivial
  have warned : Spaced (if data.isReceipt then [] else [.text (lit "❌ *Not a receipt*\n\n")]) := by
    split
    · trivial
    · exact ⟨valid_lit _, trivial⟩
  have store : Spaced (replyStoreParts data) := ⟨valid_lit _, ⟨close, valid_lit _⟩, trivial⟩
  have quality (q : Int) : Spaced (replyQualityParts q) := by
    refine ⟨?_, valid_lit _, valid_printInt _, valid_lit _, trivial⟩
    split_ifs <;> exact valid_lit _
  have count : Spaced (replyItemCountParts data) := by
    rw [replyItemCountParts]
    split <;> simp only [Spaced, valid_lit, valid_printInt, and_self]
  have links : Spaced (replyLinksParts data) := by
    rw [replyLinksParts]
    split
    · trivial
    · exact ⟨valid_lit _, ((spaced_linkParts _ _ (valid_lit _)).append
        (spaced_linkParts _ _ (valid_lit _))).append (spaced_linkParts _ _ (valid_lit _))⟩
  have total : Spaced (replyTotalParts data) := ⟨valid_lit _, valid_printFixed2 _, valid_lit _, trivial⟩
  have warning (q : α) : Spaced (replyWarningParts q) :=
    ⟨valid_lit _, valid_printFixed2 _, valid_lit _, trivial⟩
  have tokens (n : Int) : Spaced (replyTokenParts n) :=
    ⟨valid_lit _, valid_printInt _, valid_lit _, trivial⟩
  have line : Spaced [.text (lit "\n")] := ⟨valid_lit _, trivial⟩
  exact ((((((((warned.append store).append (ite (quality _))).append count).append line).append
    (spaced_itemsParts _)).append total).append (ite (warning _))).append (ite (tokens _))).append links

theorem filled_append (front back : List ReplyPart) :
    filled (front ++ back) = filled front ++ filled back := List.filterMap_append

theorem filled_texts (parts : List ReplyPart) (h : filled parts = []) (c : Prop) [Decidable c] :
    filled (if c then parts else []) = [] := by
  split
  · exact h
  · rfl

omit [CDouble α] in
theorem filled_headerParts (number : Nat) (item : ReplyLineItem α) :
    filled (replyHeaderParts number item) =
      displayName item :: if item.category.bytes.isEmpty then [] else [item.category] := by
  rw [replyHeaderParts]
  split <;> rfl

theorem filled_priceParts (item : ReplyLineItem α) (lt : α) :
    filled (replyPriceParts item lt) =
      if item.amount > 1.005 then [orDefault item.unitOfMeasure (lit "pcs")] else [] := by
  simp only [replyPriceParts]
  split_ifs <;> first | rfl | simp_all

theorem filled_linkParts (label url : CString) :
    filled (replyLinkParts label url) = if url.bytes.isEmpty then [] else [url] := by
  rw [replyLinkParts]
  split <;> rfl

theorem forall_valid_nonempty (t : CString) :
    (∀ s ∈ (if t.bytes.isEmpty then [] else [t]), Valid s.bytes) ↔ Valid t.bytes := by
  split
  · next empty =>
      rw [List.isEmpty_iff] at empty
      exact iff_of_true (by simp) (empty ▸ valid_nil)
  · simp

theorem valid_orDefault (field : CString) (default : String) :
    Valid (orDefault field (lit default)).bytes ↔ Valid field.bytes := by
  rw [orDefault]
  split
  · next empty =>
      rw [List.isEmpty_iff] at empty
      exact iff_of_true (valid_lit _) (empty ▸ valid_nil)
  · rfl

/-- The strings of the receipt that are printed. -/
structure FieldsValid : Prop where
  storeName : Valid data.storeName.bytes
  items : ∀ item ∈ data.items, Valid (displayName item).bytes ∧ Valid item.category.bytes ∧
    (item.amount > 1.005 → Valid item.unitOfMeasure.bytes)
  originalUrl : Valid data.originalUrl.bytes
  ocrUrl : Valid data.ocrUrl.bytes
  jsonUrl : Valid data.jsonUrl.bytes

theorem filled_itemsParts_valid_iff (items : List (ReplyLineItem α × Nat)) :
    (∀ s ∈ filled (replyItemsParts items), Valid s.bytes) ↔
      ∀ item ∈ items, Valid (displayName item.1).bytes ∧ Valid item.1.category.bytes ∧
        (item.1.amount > 1.005 → Valid item.1.unitOfMeasure.bytes) := by
  induction items with
  | nil => simp [replyItemsParts, filled]
  | cons item items ih =>
      obtain ⟨item, i⟩ := item
      have unit : (∀ s ∈ (if item.amount > 1.005 then [orDefault item.unitOfMeasure (lit "pcs")]
          else []), Valid s.bytes) ↔ (item.amount > 1.005 → Valid item.unitOfMeasure.bytes) := by
        split
        · next printed => simp [valid_orDefault, printed]
        · next silent => simp [silent]
      have first : filled (replyItemsParts ((item, i) :: items)) =
          (displayName item :: if item.category.bytes.isEmpty then [] else [item.category]) ++
            (if item.amount > 1.005 then [orDefault item.unitOfMeasure (lit "pcs")] else []) ++
            filled (replyItemsParts items) := by
        rw [← filled_headerParts (i + 1), ← filled_priceParts item (lineTotal item), ← filled_append,
          ← filled_append]
        rfl
      rw [first, List.forall_mem_append, List.forall_mem_append, List.forall_mem_cons, ih, unit,
        forall_valid_nonempty, List.forall_mem_cons]
      simp only [and_assoc]

omit [CDouble α] in
theorem filled_linksParts :
    filled (replyLinksParts data) =
      (if data.originalUrl.bytes.isEmpty then [] else [data.originalUrl]) ++
        (if data.ocrUrl.bytes.isEmpty then [] else [data.ocrUrl]) ++
        (if data.jsonUrl.bytes.isEmpty then [] else [data.jsonUrl]) := by
  rw [replyLinksParts]
  split
  · next none =>
      simp only [Bool.and_eq_true] at none
      rw [if_pos none.1.1, if_pos none.1.2, if_pos none.2]
      rfl
  · rw [← filled_linkParts (lit "Original"), ← filled_linkParts (lit "OCR text"),
      ← filled_linkParts (lit "JSON"), ← filled_append, ← filled_append]
    rfl

theorem filled_replyParts :
    filled (replyParts data) = orDefault data.storeName (lit "Unknown") ::
      (filled (replyItemsParts data.items.zipIdx) ++ filled (replyLinksParts data)) := by
  have warned : filled (if data.isReceipt then [] else [.text (lit "❌ *Not a receipt*\n\n")]) =
      [] := by
    split <;> rfl
  have count : filled (replyItemCountParts data) = [] := by
    rw [replyItemCountParts]
    split <;> rfl
  have quality := filled_texts (replyQualityParts data.imageQuality) rfl
    (data.imageQuality ≥ 0)
  have warning := filled_texts (replyWarningParts (itemsTotal data.items.zipIdx)) rfl
    (diffIsSignificant (itemsTotal data.items.zipIdx) data.totalSum)
  have tokens := filled_texts (replyTokenParts data.tokensUsed) rfl (data.tokensUsed > 0)
  have store : filled (replyStoreParts data) = [orDefault data.storeName (lit "Unknown")] := rfl
  have total : filled (replyTotalParts data) = [] := rfl
  have line : filled [.text (lit "\n")] = [] := rfl
  simp only [replyParts, replyBodyParts, filled_append, warned, store, quality, count, line, total,
    warning, tokens, List.nil_append, List.append_nil, List.cons_append]

theorem filled_replyParts_valid_iff :
    (∀ s ∈ filled (replyParts data), Valid s.bytes) ↔ FieldsValid data := by
  have items := forall_zipIdx data.items (fun item => Valid (displayName item).bytes ∧
    Valid item.category.bytes ∧ (item.amount > 1.005 → Valid item.unitOfMeasure.bytes))
  rw [filled_replyParts, filled_linksParts, List.forall_mem_cons, List.forall_mem_append,
    List.forall_mem_append, List.forall_mem_append, filled_itemsParts_valid_iff, items,
    valid_orDefault, forall_valid_nonempty, forall_valid_nonempty, forall_valid_nonempty]
  constructor
  · rintro ⟨store, items, ⟨original, ocr⟩, json⟩
    exact ⟨store, items, original, ocr, json⟩
  · intro h
    exact ⟨h.storeName, h.items, ⟨h.originalUrl, h.ocrUrl⟩, h.jsonUrl⟩

end Reply

/-- The string is a value somewhere in the tree. -/
inductive HasString (s : CString) : CJson → Prop where
  | here : HasString s (.string s)
  | item {items : List CJson} {x : CJson} (mem : x ∈ items) (inside : HasString s x) :
      HasString s (.array items)
  | member {members : List (CString × CJson)} {m : CString × CJson} (mem : m ∈ members)
      (inside : HasString s m.2) : HasString s (.object members)

def StringsValid (json : CJson) : Prop := ∀ s, HasString s json → Valid s.bytes

/-- A string member, whole, and empty when there is none. -/
def memberText (json : Option CJson) (name : String) : CString :=
  (CJson.stringValue? (CJson.getObjectItem json (lit name))).getD .empty

/-- The name an item is shown under, whole. -/
def itemName (item : CJson) : CString :=
  orDefault (memberText item "english_translation") (memberText item "original_name")

variable (α) in
/-- Every cut of a string that is printed falls between two characters. -/
structure CutsBetweenCharacters (json : CJson) : Prop where
  storeName : CutsBetween (maxStoreNameLen - 1)
    (memberText (CJson.getObjectItem json (lit "store_information")) "name").bytes
  items : ∀ item ∈ countedItems json,
    CutsBetween (maxItemNameLen - 1) (itemName item).bytes ∧
      CutsBetween 63 (memberText item "category").bytes ∧
      ((ofRat (numberField item "amount" 1) : α) > 1.005 →
        CutsBetween 31 (memberText item "unit_of_measure").bytes)

/-- What is printed of the file's address, when it has a name and an address, is UTF-8. -/
def UrlValid (publicUrl : CString → Option CString) (name : CString) : Prop :=
  name.bytes ≠ [] → ∀ url, publicUrl name = some url → Valid (url.bytes.take (maxDownloadUrl - 1))

section Receipt
variable {json : CJson}

theorem StringsValid.getObjectItem (h : StringsValid json) {name : CString} {x : CJson}
    (found : CJson.getObjectItem json name = some x) : StringsValid x := by
  cases json with
  | object members =>
      obtain ⟨m, hm, rfl⟩ := Option.map_eq_some_iff.mp found
      exact fun s inside => h s (.member (List.mem_of_find?_eq_some hm) inside)
  | null | bool | number | string | array => cases found

theorem StringsValid.memberText (h : StringsValid json) (name : String) :
    Valid (memberText json name).bytes := by
  rw [Kaufbot.memberText]
  cases found : CJson.getObjectItem json (lit name) with
  | none => exact valid_nil
  | some x =>
      cases x with
      | string s => exact h.getObjectItem found s .here
      | null | bool | number | array | object => exact valid_nil

theorem StringsValid.storeName (h : StringsValid json) :
    Valid (Kaufbot.memberText (CJson.getObjectItem json (lit "store_information")) "name").bytes := by
  cases found : CJson.getObjectItem json (lit "store_information") with
  | none => exact valid_nil
  | some x => exact (h.getObjectItem found).memberText "name"

theorem StringsValid.countedItems (h : StringsValid json) :
    ∀ item ∈ countedItems json, StringsValid item := by
  intro item hitem
  have counted := List.mem_of_mem_take hitem
  rw [lineItems] at counted
  cases found : CJson.getObjectItem json (lit "line_items") with
  | none => simp [found, CJson.isArray] at counted
  | some x =>
      rw [found] at counted
      cases x with
      | array items => exact fun s inside => h.getObjectItem found s (.item counted inside)
      | null | bool | number | string | object => simp [CJson.isArray] at counted

theorem stringField_eq (node : Option CJson) (name : String) (size : Nat) :
    stringField node name size = snprintf size (memberText node name) := by
  rw [stringField, memberText]
  cases CJson.stringValue? (CJson.getObjectItem node (lit name)) with
  | none =>
      apply CString.ext
      simp [empty]
  | some s => rfl

theorem snprintf_orDefault {size : Nat} (some : 2 ≤ size) (field other : CString) :
    orDefault (snprintf size field) (snprintf size other) = snprintf size (orDefault field other) := by
  have same : (snprintf size field).bytes.isEmpty = field.bytes.isEmpty := by
    rw [bytes_snprintf]
    obtain ⟨n, rfl⟩ : ∃ n, size = n + 2 := ⟨size - 2, by omega⟩
    cases field.bytes <;> rfl
  rw [orDefault, orDefault, same]
  split <;> rfl

theorem displayName_fillLineItem (item : CJson) :
    displayName (fillLineItem α item) = snprintf maxItemNameLen (itemName item) := by
  simp only [displayName, fillLineItem, stringField_eq, itemName]
  exact snprintf_orDefault (by decide) _ _

theorem valid_snprintf_iff {s : CString} (h : Valid s.bytes) (size : Nat) :
    Valid (snprintf size s).bytes ↔ CutsBetween (size - 1) s.bytes := by
  rw [bytes_snprintf]
  exact h.take_iff _

theorem valid_downloadUrl_iff (publicUrl : CString → Option CString) (name : CString) :
    Valid (downloadUrl publicUrl name).bytes ↔ UrlValid publicUrl name := by
  rw [downloadUrl, UrlValid]
  split
  · next unnamed =>
      rw [List.isEmpty_iff] at unnamed
      exact iff_of_true valid_nil fun named => absurd unnamed named
  · next named =>
      rw [List.isEmpty_iff] at named
      cases publicUrl name with
      | none => simp [named, valid_nil]
      | some url => simp [named]

theorem itemName_valid {item : CJson} (h : StringsValid item) : Valid (itemName item).bytes := by
  rw [itemName, orDefault]
  split
  · exact h.memberText _
  · exact h.memberText _

theorem storeName_valid_iff (h : StringsValid json) :
    Valid (stringField (CJson.getObjectItem json (lit "store_information")) "name"
        maxStoreNameLen).bytes ↔
      CutsBetween (maxStoreNameLen - 1)
        (memberText (CJson.getObjectItem json (lit "store_information")) "name").bytes := by
  rw [stringField_eq, valid_snprintf_iff h.storeName]

theorem lineItem_valid_iff {item : CJson} (h : StringsValid item) :
    (Valid (displayName (fillLineItem α item)).bytes ∧
        Valid (fillLineItem α item).category.bytes ∧
        ((fillLineItem α item).amount > 1.005 →
          Valid (fillLineItem α item).unitOfMeasure.bytes)) ↔
      (CutsBetween (maxItemNameLen - 1) (itemName item).bytes ∧
        CutsBetween 63 (memberText item "category").bytes ∧
        ((ofRat (numberField item "amount" 1) : α) > 1.005 →
          CutsBetween 31 (memberText item "unit_of_measure").bytes)) := by
  have category : (fillLineItem α item).category = snprintf 64 (memberText item "category") :=
    stringField_eq _ _ _
  have unit : (fillLineItem α item).unitOfMeasure =
      snprintf 32 (memberText item "unit_of_measure") := stringField_eq _ _ _
  rw [displayName_fillLineItem, category, unit, valid_snprintf_iff (itemName_valid h),
    valid_snprintf_iff (h.memberText _), valid_snprintf_iff (h.memberText _)]
  rfl

theorem fieldsValid_iff (h : StringsValid json) (fileId tokens : Int)
    (publicUrl : CString → Option CString) (savedName ocrName : CString) :
    FieldsValid (fillReceiptData α json fileId tokens publicUrl savedName ocrName) ↔
      CutsBetweenCharacters α json ∧ UrlValid publicUrl savedName ∧ UrlValid publicUrl ocrName := by
  constructor
  · intro fields
    refine ⟨⟨(storeName_valid_iff h).mp fields.storeName, fun x hx => ?_⟩,
      (valid_downloadUrl_iff _ _).mp fields.originalUrl, (valid_downloadUrl_iff _ _).mp fields.ocrUrl⟩
    refine (lineItem_valid_iff (h.countedItems x hx)).mp (fields.items _ ?_)
    rw [fillReceiptData_items]
    exact List.mem_map_of_mem hx
  · rintro ⟨cuts, original, ocr⟩
    refine ⟨(storeName_valid_iff h).mpr cuts.storeName, fun li hli => ?_,
      (valid_downloadUrl_iff _ _).mpr original, (valid_downloadUrl_iff _ _).mpr ocr, valid_nil⟩
    rw [fillReceiptData_items] at hli
    obtain ⟨x, hx, rfl⟩ := List.mem_map.mp hli
    exact (lineItem_valid_iff (h.countedItems x hx)).mpr (cuts.items x hx)

end Receipt

section Failures
variable (p : Processor) (env : Externals) (w : World) (originalName : CString)
  (data : List UInt8) (replyLen : ℕ+)

/-- The message of a failed step up to the name of the stored file, which it ends with. -/
def failureStart (exit : HandleExit) (savedName : CString) : CString :=
  match exit with
  | .ocrFailed => lit "🔴 *OCR Failed*\n\n📄 File: `" ++ savedName
  | .parseFailed => lit "⚠️ *Parsing Failed*\n\n📄 File: `" ++ savedName
  | .invalidJson => lit "⚠️ *Parse Warning*\n\n📄 File: `" ++ savedName
  | _ => .empty

/-- The rest of the message. -/
def failureRest (exit : HandleExit) (ocrName originalName : CString) (size : Nat) (id : Int) :
    CString :=
  match exit with
  | .ocrFailed => .concat [lit "`\n📏 Original: `", originalName, lit "`\n📏 Size: `", printNat size,
      lit " bytes`\n\n🔄 Use the button below to retry OCR."]
  | .parseFailed => .concat [lit "`\n📄 OCR saved: `", ocrName, lit "`\n📏 Original: `", originalName,
      lit "`\n📏 Size: `", printNat size,
      lit " bytes`\n\nOCR data is saved, parsing can be retried later."]
  | .invalidJson => .concat [lit "`\n📄 OCR saved: `", ocrName, lit "`\n📏 Original: `", originalName,
      lit "`\n📏 Size: `", printNat size,
      lit " bytes`\n\nSaved to database but JSON was invalid.\n\n🔑 ID: `", printInt id, lit "`"]
  | _ => .empty

def Failure (exit : HandleExit) : Prop :=
  exit = .ocrFailed ∨ exit = .parseFailed ∨ exit = .invalidJson

theorem processorStoreFile_failure_reply (h : Accepted p env w originalName data)
    (failure : Failure (analysisExit p env)) :
    (processorStoreFile p env w originalName data (storageSha256Hex data) replyLen).2.reply =
      snprintf replyLen (failureStart (analysisExit p env) (p.savedName env originalName) ++
        failureRest (analysisExit p env)
          (storageOcrFilename (p.savedName env originalName) maxFilename) originalName data.length
          (w.db.filesSeq + 1)) := by
  obtain ⟨hreported, hok, hfree⟩ := h
  have hsave : (localSaveFile env.saveFile w.storage (p.savedName env originalName) data).2 = 0 :=
    localSaveFile_eq_zero_iff.mpr hreported
  obtain ⟨db, hins, -⟩ := dbRepoInsert_of_free env.insertTime
    originalName (storageSha256Hex data) (p.savedName env originalName) hok (by simpa using hfree)
  have joined (start : String) (rest : List CString) :
      concat (lit start :: p.savedName env originalName :: rest) =
        lit start ++ p.savedName env originalName ++ concat rest := by
    apply CString.ext
    simp
  revert failure
  simp only [processorStoreFile, processorSaveFile, hsave, hins, snprintf_savedName, ne_eq,
    not_true_eq_false, if_false, processorRunOcr, analysisExit]
  cases hextract : env.extract.accepted with
  | none => exact fun _ => congrArg (snprintf replyLen) (joined _ _)
  | some text =>
      simp only [processorParseReceipt]
      cases hparse : env.parse.accepted with
      | none => exact fun _ => congrArg (snprintf replyLen) (joined _ _)
      | some json =>
          cases hjson : p.cjsonParse json with
          | none =>
              simp only [hjson, Option.isSome_none, Bool.false_eq_true, if_false]
              exact fun _ => congrArg (snprintf replyLen) (joined _ _)
          | some tree => simp [Failure, hjson]

/-- A failed step leaves its message, cut to the buffer. -/
theorem processorHandleFile_failure_reply
    (h : Failure (processorHandleFile p env w originalName data replyLen).2.exit) :
    Failure (analysisExit p env) ∧
      (processorHandleFile p env w originalName data replyLen).2.reply =
        snprintf replyLen (failureStart (analysisExit p env) (p.savedName env originalName) ++
          failureRest (analysisExit p env)
            (storageOcrFilename (p.savedName env originalName) maxFilename) originalName data.length
            (w.db.filesSeq + 1)) := by
  have notDuplicate : (processorHandleFile p env w originalName data replyLen).2.exit ≠
      .duplicate := by
    rcases h with h | h | h <;> simp [h]
  have saved : (processorHandleFile p env w originalName data replyLen).2.exit ≠ .saveFailed := by
    rcases h with h | h | h <;> simp [h]
  obtain ⟨skip, accepted, exit⟩ := accepted_of_exit p env w originalName data replyLen notDuplicate saved
  rw [exit] at h
  rw [processorHandleFile_of_not_skipped p env w originalName data replyLen skip]
  exact ⟨h, processorStoreFile_failure_reply p env w originalName data replyLen accepted h⟩

/-- The user's extension is UTF-8 where the file name is. -/
theorem valid_uploadExtension (h : Valid originalName.bytes) :
    Valid (uploadExtension originalName).bytes := by
  rw [uploadExtension]
  cases hext : originalName.strrchr dot with
  | none => exact valid_nil
  | some ext =>
      have last := strrchr_eq_some.mp hext
      obtain ⟨rest, hrest, -⟩ := lastFrom_eq_some last
      obtain ⟨front, whole⟩ := lastFrom_suffix last
      rw [← whole, hrest] at h
      rw [Option.getD_some, hrest]
      exact ((valid_split (by decide)).mp h).2

theorem valid_uploadStem (t : Tm) : Valid (uploadStem t).bytes := by
  have number (width : Nat) (n : Int) : Valid (printPadded width n).bytes :=
    valid_of_numberText (numberText_printPadded width n)
  simp only [uploadStem, bytes_concat, List.flatMap_cons, List.flatMap_nil, List.append_nil]
  exact (valid_lit _).append ((number _ _).append ((valid_lit _).append ((number _ _).append
    ((valid_lit _).append ((number _ _).append ((valid_lit _).append ((number _ _).append
      ((valid_lit _).append ((number _ _).append ((valid_lit _).append (number _ _)))))))))))

theorem valid_ocrName : Valid (storageOcrFilename (p.savedName env originalName) maxFilename).bytes := by
  obtain ⟨ext, hname, hsaved⟩ := storageGenFilename_savedName p.zone env.nameTime originalName
  rw [Processor.savedName, storageOcrFilename_bytes hname hsaved]
  exact (valid_uploadStem _).append (valid_lit _)

/-- How many bytes of the extension the stored name has room for. -/
def extensionRoom (p : Processor) (env : Externals) : Nat :=
  maxFilename - 1 - (uploadStem (p.zone.localtime env.nameTime)).length

theorem failureStart_eq {exit : HandleExit} (h : Failure exit) (savedName : CString) :
    ∃ start : String, (failureStart exit savedName).bytes = (lit start).bytes ++ savedName.bytes := by
  rcases h with rfl | rfl | rfl
  · exact ⟨_, bytes_append _ _⟩
  · exact ⟨_, bytes_append _ _⟩
  · exact ⟨_, bytes_append _ _⟩

theorem valid_concat {parts : List CString} (h : ∀ s ∈ parts, Valid s.bytes) :
    Valid (concat parts).bytes := by
  rw [bytes_concat]
  induction parts with
  | nil => exact valid_nil
  | cons s parts ih =>
      obtain ⟨first, rest⟩ := List.forall_mem_cons.mp h
      exact first.append (ih rest)

theorem startsAscii_concat {first : CString} (h : StartsAscii first) (rest : List CString) :
    StartsAscii (concat (first :: rest)) := by
  obtain ⟨b, later, hfirst, ascii⟩ := h
  exact ⟨b, _, by rw [bytes_concat, List.flatMap_cons, hfirst]; rfl, ascii⟩

theorem valid_failureRest {exit : HandleExit} (h : Failure exit) {ocrName : CString}
    (ocr : Valid ocrName.bytes) (name : Valid originalName.bytes) (size : Nat) (id : Int) :
    Valid (failureRest exit ocrName originalName size id).bytes ∧
      StartsAscii (failureRest exit ocrName originalName size id) := by
  have original : StartsAscii (lit "`\n📏 Original: `") := startsAscii_of_head (by decide)
  have saved : StartsAscii (lit "`\n📄 OCR saved: `") := startsAscii_of_head (by decide)
  rcases h with rfl | rfl | rfl
  · exact ⟨valid_concat (by simp [valid_lit, name, valid_printNat]), startsAscii_concat original _⟩
  · exact ⟨valid_concat (by simp [valid_lit, name, ocr, valid_printNat]), startsAscii_concat saved _⟩
  · exact ⟨valid_concat (by simp [valid_lit, name, ocr, valid_printNat, valid_printInt]),
      startsAscii_concat saved _⟩

/-- The cut at the end of the reply falls between two characters of the message, and so does the
one in the stored name, unless the reply ends before that. -/
def FailureCutsBetween (exit : HandleExit) (size : Nat) (id : Int) (n : Nat) : Prop :=
  let start := failureStart exit (p.savedName env originalName)
  let rest := failureRest exit (storageOcrFilename (p.savedName env originalName) maxFilename)
    originalName size id
  (n - 1 < start.length ∨ CutsBetween (extensionRoom p env) (uploadExtension originalName).bytes) ∧
    CutsBetween (n - 1) (start ++ rest).bytes

theorem failure_message_valid_iff (name : Valid originalName.bytes) {exit : HandleExit}
    (h : Failure exit) (size : Nat) (id : Int) (n : Nat) :
    let start := failureStart exit (p.savedName env originalName)
    let rest := failureRest exit (storageOcrFilename (p.savedName env originalName) maxFilename)
      originalName size id
    Valid (snprintf n (start ++ rest)).bytes ↔
      FailureCutsBetween p env originalName exit size id n := by
  intro start rest
  obtain ⟨opening, split⟩ := failureStart_eq h (p.savedName env originalName)
  obtain ⟨restValid, b, later, hrest, -⟩ :=
    valid_failureRest originalName h (valid_ocrName p env originalName) name size id
  have extension := valid_uploadExtension originalName name
  have front : Valid ((lit opening).bytes ++ (uploadStem (p.zone.localtime env.nameTime)).bytes) :=
    (valid_lit _).append (valid_uploadStem _)
  have kept : start.bytes = ((lit opening).bytes ++
      (uploadStem (p.zone.localtime env.nameTime)).bytes) ++
        (uploadExtension originalName).bytes.take (extensionRoom p env) := by
    rw [split, Processor.savedName, storageGenFilename_bytes, List.append_assoc]
    rfl
  have begun : ∃ more, Valid (start.bytes ++ more) := by
    refine ⟨(uploadExtension originalName).bytes.drop (extensionRoom p env), ?_⟩
    rw [kept, List.append_assoc, List.take_append_drop]
    exact front.append extension
  have whole : Valid start.bytes ↔
      CutsBetween (extensionRoom p env) (uploadExtension originalName).bytes := by
    rw [kept, valid_append_iff front, extension.take_iff]
  rw [bytes_snprintf, bytes_append, hrest, valid_take_append_iff begun (hrest ▸ restValid), whole,
    ← hrest, ← bytes_append]
  rfl

theorem failure_reply_valid_iff (name : Valid originalName.bytes)
    (h : Failure (processorHandleFile p env w originalName data replyLen).2.exit) :
    Valid (processorHandleFile p env w originalName data replyLen).2.reply.bytes ↔
      FailureCutsBetween p env originalName (analysisExit p env) data.length (w.db.filesSeq + 1)
        replyLen := by
  obtain ⟨failure, reply⟩ :=
    processorHandleFile_failure_reply p env w originalName data replyLen h
  rw [reply]
  exact failure_message_valid_iff p env originalName name failure _ _ _

end Failures

/-- A reply that fits is UTF-8 exactly if the cuts of what it prints are between characters. -/
theorem receipt_reply_valid_iff (α : Type) [CDouble α] {json : CJson} (strings : StringsValid json) (fileId tokens : Int)
    (publicUrl : CString → Option CString) (savedName ocrName : CString)
    (fits : size (replyPieces (fillReceiptData α json fileId tokens publicUrl savedName ocrName))
      < 4096) :
    Valid (processorBuildReply α json fileId tokens publicUrl savedName ocrName).text.bytes ↔
      CutsBetweenCharacters α json ∧ UrlValid publicUrl savedName ∧ UrlValid publicUrl ocrName := by
  rw [processorBuildReply, replyBuilderFormatReceipt_bytes _ fits,
    valid_partsBytes_iff (spaced_replyParts _), filled_replyParts_valid_iff, fieldsValid_iff strings]

/-- The bytes `db_repo_insert` stores as the file's name, whatever happens to them later. -/
theorem stored_name_valid_iff {originalName : CString} (name : Valid originalName.bytes)
    {outcome : SqlOutcome} {now : Int} {db db' : Database} {hash savedName : CString} {id : Int}
    (h : dbRepoInsert outcome now db originalName hash savedName = (db', .ok id)) :
    ∃ row, db'.files = db.files ++ [row] ∧
      (Valid row.originalFileName.bytes ↔ CutsBetween (dbOrigNameLen - 1) originalName.bytes) := by
  by_cases free : outcome = .ok ∧
      db.FreeFor (snprintf dbFilenameLen savedName) (snprintf dbHashLen hash)
  · obtain ⟨after, hins, hfiles, -⟩ :=
      dbRepoInsert_of_free now originalName hash savedName free.1 free.2
    obtain rfl : after = db' := congrArg Prod.fst (hins.symm.trans h)
    exact ⟨_, hfiles, valid_snprintf_iff name _⟩
  · rw [dbRepoInsert_of_refused free] at h
    cases h

/-- The texts are UTF-8 exactly where the cuts they go through fall between two characters. -/
theorem outgoing_text_valid_iff (α : Type) [CDouble α] {json : CJson} {originalName : CString}
    (strings : StringsValid json) (name : Valid originalName.bytes) :
    (∀ fileId tokens publicUrl savedName ocrName,
      size (replyPieces (fillReceiptData α json fileId tokens publicUrl savedName ocrName)) < 4096 →
        (Valid (processorBuildReply α json fileId tokens publicUrl savedName ocrName).text.bytes ↔
          CutsBetweenCharacters α json ∧ UrlValid publicUrl savedName ∧ UrlValid publicUrl ocrName)) ∧
    (∀ p env w data (replyLen : ℕ+),
      Failure (processorHandleFile p env w originalName data replyLen).2.exit →
        (Valid (processorHandleFile p env w originalName data replyLen).2.reply.bytes ↔
          FailureCutsBetween p env originalName (analysisExit p env) data.length
            (w.db.filesSeq + 1) replyLen)) ∧
    (∀ outcome now db db' hash savedName id,
      dbRepoInsert outcome now db originalName hash savedName = (db', .ok id) →
        ∃ row, db'.files = db.files ++ [row] ∧
          (Valid row.originalFileName.bytes ↔
            CutsBetween (dbOrigNameLen - 1) originalName.bytes)) := by
  refine ⟨?_, ?_, ?_⟩
  · intro fileId tokens publicUrl savedName ocrName fits
    exact receipt_reply_valid_iff α strings fileId tokens publicUrl savedName ocrName fits
  · intro p env w data replyLen failure
    exact failure_reply_valid_iff p env w originalName data replyLen name failure
  · intro outcome now db db' hash savedName id inserted
    exact stored_name_valid_iff name inserted

/-- The service does not answer. -/
def ocrDown : Externals :=
  { Externals.working 0 (lit "MILK 1.00") (lit "\x7b\x7d") with
    extract := { error := .api, text := none } }

theorem stringsValid_string {t : CString} (h : Valid t.bytes) : StringsValid (.string t) := by
  rintro s ⟨⟩
  exact h

theorem stringsValid_number (d : Rat) : StringsValid (.number d) := by
  rintro s ⟨⟩

theorem stringsValid_array {items : List CJson} (h : ∀ x ∈ items, StringsValid x) :
    StringsValid (.array items) := by
  rintro s (_ | ⟨mem, inside⟩)
  exact h _ mem s inside

theorem stringsValid_object {members : List (CString × CJson)}
    (h : ∀ m ∈ members, StringsValid m.2) : StringsValid (.object members) := by
  rintro s (_ | _ | ⟨mem, inside⟩)
  exact h _ mem s inside

def cheeseItem : CJson :=
  .object [(lit "original_name", .string (lit "Käse")), (lit "category", .string (lit "Kühlregal")),
    (lit "price", .number (249 / 100)), (lit "amount", .number 2),
    (lit "unit_of_measure", .string (lit "Stück"))]

/-- A store and an item, with umlauts. -/
def cheeseReceipt : CJson :=
  .object [(lit "store_information", .object [(lit "name", .string (lit "Käseladen"))]),
    (lit "line_items", .array [cheeseItem])]

theorem stringsValid_cheeseReceipt : StringsValid cheeseReceipt := by
  have text (t : String) : StringsValid (.string (lit t)) := stringsValid_string (valid_lit t)
  have item : StringsValid cheeseItem := stringsValid_object (List.forall_mem_cons.mpr
    ⟨text _, List.forall_mem_cons.mpr ⟨text _, List.forall_mem_cons.mpr ⟨stringsValid_number _,
      List.forall_mem_cons.mpr ⟨stringsValid_number _, List.forall_mem_singleton.mpr (text _)⟩⟩⟩⟩)
  have store : StringsValid (.object [(lit "name", .string (lit "Käseladen"))]) :=
    stringsValid_object (List.forall_mem_singleton.mpr (text _))
  exact stringsValid_object (List.forall_mem_cons.mpr ⟨store,
    List.forall_mem_singleton.mpr (stringsValid_array (List.forall_mem_singleton.mpr item))⟩)

theorem outgoing_text_valid_short :
    Valid (processorBuildReply Float cheeseReceipt 1 0 localGetPublicUrl .empty .empty).text.bytes ∧
      Valid (processorHandleFile localProcessor ocrDown .empty (lit "käse.jpg") [1, 2, 3]
        4096).2.reply.bytes ∧
      ∃ db' id row, dbRepoInsert .ok 0 .empty (lit "käse.jpg") (lit "00") (lit "1.jpg") =
        (db', .ok id) ∧ db'.files = Database.empty.files ++ [row] ∧
          Valid row.originalFileName.bytes := by
  obtain ⟨receipt, failure, stored⟩ :=
    outgoing_text_valid_iff Float stringsValid_cheeseReceipt (valid_lit "käse.jpg")
  have fits : size (replyPieces (fillReceiptData Float cheeseReceipt 1 0 localGetPublicUrl .empty .empty)) <
      4096 := by
    decide +kernel
  have exit : (processorHandleFile localProcessor ocrDown .empty (lit "käse.jpg") [1, 2, 3]
      4096).2.exit = .ocrFailed := by
    decide +kernel
  obtain ⟨db', inserted, -⟩ := @dbRepoInsert_of_free .ok 0 .empty (lit "käse.jpg")
    (lit "00") (lit "1.jpg") rfl (by simp [Database.FreeFor, Database.empty, maxRowid])
  obtain ⟨row, added, valid⟩ := stored _ _ _ _ _ _ _ inserted
  have receiptCuts : CutsBetweenCharacters Float cheeseReceipt := by
    refine ⟨cutsBetween_of_length_le (by decide +kernel), List.forall_mem_singleton.mpr ?_⟩
    exact ⟨cutsBetween_of_length_le (by decide +kernel),
      cutsBetween_of_length_le (by decide +kernel), fun _ =>
      cutsBetween_of_length_le (by decide +kernel)⟩
  have noUrl : UrlValid localGetPublicUrl .empty := by
    intro _ url found
    cases found
  have failureCuts : FailureCutsBetween localProcessor ocrDown (lit "käse.jpg")
      (analysisExit localProcessor ocrDown) 3 1 4096 := by
    have failed : analysisExit localProcessor ocrDown = .ocrFailed := rfl
    rw [failed]
    refine ⟨.inr (cutsBetween_of_length_le (by decide +kernel)), cutsBetween_of_length_le ?_⟩
    rw [failureRest]
    decide +kernel
  refine ⟨(receipt 1 0 _ _ _ fits).mpr ⟨receiptCuts, noUrl, noUrl⟩,
    (failure _ _ _ _ _ (.inl exit)).mpr failureCuts, db', _, row, inserted, added,
    valid.mpr (cutsBetween_of_length_le (by decide +kernel))⟩

/-- A name of 126 letters and one umlaut, which is two bytes. -/
def umlautName : CString := lit (String.ofList (List.replicate 126 'a') ++ "ä")

def umlautReceipt : CJson :=
  .object [(lit "store_information", .object [(lit "name", .string umlautName)])]

/-- The store's name is cut within its last letter, so the reply is not UTF-8. -/
theorem umlaut_reply_not_valid :
    StringsValid umlautReceipt ∧
      size (replyPieces (fillReceiptData Float umlautReceipt 1 0 localGetPublicUrl .empty .empty)) < 4096 ∧
      ¬ Valid (processorBuildReply Float umlautReceipt 1 0 localGetPublicUrl .empty .empty).text.bytes := by
  have store : StringsValid (.object [(lit "name", .string umlautName)]) :=
    stringsValid_object (List.forall_mem_singleton.mpr (stringsValid_string (valid_lit _)))
  have strings : StringsValid umlautReceipt :=
    stringsValid_object (List.forall_mem_singleton.mpr store)
  have fits : size (replyPieces (fillReceiptData Float umlautReceipt 1 0 localGetPublicUrl .empty
      .empty)) < 4096 := by
    decide +kernel
  refine ⟨strings, fits, fun valid => ?_⟩
  have cuts := ((receipt_reply_valid_iff Float strings 1 0 _ _ _ fits).mp valid).1
  have inside : (memberText (CJson.getObjectItem umlautReceipt (lit "store_information"))
      "name").bytes[127]? = some 0xa4 := by
    decide +kernel
  exact absurd (cuts.storeName _ inside) (by decide)

end Kaufbot
