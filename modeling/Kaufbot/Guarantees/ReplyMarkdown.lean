import Kaufbot.Guarantees.ReplyParts
import Kaufbot.Library.LegacyMarkdown

/-!
The receipt reply read as legacy Markdown. The builder opens and closes every
entity itself and escapes nothing, so the strings it fills in decide: each is
read in the entity it is printed in, and the addresses one after another.
-/

namespace Kaufbot

open CString CDouble LegacyMarkdown

/-- What is open after the parts, when the strings of the receipt leave open what is open. -/
def openAfter (r : Rule) : List UInt8 → List ReplyPart → List UInt8
  | entities, [] => entities
  | entities, .data _ :: parts => openAfter r entities parts
  | entities, .text s :: parts | entities, .url s :: parts =>
      openAfter r (scan r entities s.bytes).2 parts

/-- The strings of the receipt are plain where they stand, with `rest` behind all. -/
def PlainData (r : Rule) : List UInt8 → List ReplyPart → List UInt8 → Prop
  | _, [], _ => True
  | entities, .data s :: parts, rest =>
      Plain r entities s.bytes (partsBytes parts ++ rest).head? ∧ PlainData r entities parts rest
  | entities, .text s :: parts, rest | entities, .url s :: parts, rest =>
      PlainData r (scan r entities s.bytes).2 parts rest

/-- The strings of the receipt stand for themselves, by what the scan says of each byte. -/
def LiteralData : List ReplyPart → List Bool → Prop
  | [], _ => True
  | .data s :: parts, own =>
      (∀ b ∈ own.take s.bytes.length, b = true) ∧ LiteralData parts (own.drop s.bytes.length)
  | .text s :: parts, own | .url s :: parts, own => LiteralData parts (own.drop s.bytes.length)

/-- The text of the builder has no backslash, and no address stands before a mark. -/
def Tidy : List ReplyPart → List UInt8 → Prop
  | [], _ => True
  | .text s :: parts, rest => backslash ∉ s.bytes ∧ Tidy parts rest
  | .data _ :: parts, rest => Tidy parts rest
  | .url _ :: parts, rest => (∀ c ∈ (partsBytes parts ++ rest).head?, ¬ IsMark c) ∧ Tidy parts rest

section Parts
variable {r : Rule} {entities : List UInt8} {parts : List ReplyPart}

/-- The parts are read as meant exactly if the strings of the receipt are plain where they stand
and nothing is open at the end. -/
theorem literalData_iff (tidy : Tidy parts []) :
    (LiteralData parts (scan r entities (partsBytes parts)).1 ∧
        (scan r entities (partsBytes parts)).2 = []) ↔
      PlainData r entities parts [] ∧ openAfter r entities parts = [] := by
  induction parts generalizing entities with
  | nil => rfl
  | cons part parts ih =>
      cases part with
      | text s =>
          have apart : s.bytes.getLast? = some backslash →
              ∀ c ∈ (partsBytes parts).head?, ¬ IsMark c :=
            fun last => absurd (List.mem_of_getLast? last) tidy.1
          change (LiteralData parts ((scan r entities (s.bytes ++ partsBytes parts)).1.drop
            s.bytes.length) ∧ (scan r entities (s.bytes ++ partsBytes parts)).2 = []) ↔ _
          rw [scan_append apart, List.drop_left' (length_scan ..)]
          exact ih tidy.2
      | url s =>
          have apart := tidy.1
          rw [List.append_nil] at apart
          change (LiteralData parts ((scan r entities (s.bytes ++ partsBytes parts)).1.drop
            s.bytes.length) ∧ (scan r entities (s.bytes ++ partsBytes parts)).2 = []) ↔ _
          rw [scan_append fun _ => apart, List.drop_left' (length_scan ..)]
          exact ih tidy.2
      | data s =>
          have plain := plain_iff r entities s.bytes (partsBytes parts)
          change (LiteralData (.data s :: parts) (scan r entities (s.bytes ++ partsBytes parts)).1 ∧
            (scan r entities (s.bytes ++ partsBytes parts)).2 = []) ↔ _
          rw [LiteralData, PlainData, List.append_nil, ← plain, openAfter, and_assoc, and_assoc]
          refine and_congr_right fun own => ?_
          rw [own.scan, List.drop_left' (List.length_replicate ..)]
          exact ih tidy

theorem openAfter_append (r : Rule) (entities : List UInt8) (front back : List ReplyPart) :
    openAfter r entities (front ++ back) = openAfter r (openAfter r entities front) back := by
  fun_induction openAfter r entities front with
  | case1 => rfl
  | case2 entities s parts ih | case3 entities s parts ih | case4 entities s parts ih => exact ih

theorem plainData_append (r : Rule) (entities : List UInt8) (front back : List ReplyPart)
    (rest : List UInt8) :
    PlainData r entities (front ++ back) rest ↔
      PlainData r entities front (partsBytes back ++ rest) ∧
        PlainData r (openAfter r entities front) back rest := by
  fun_induction openAfter r entities front with
  | case1 => exact (and_iff_right trivial).symm
  | case2 entities s parts ih =>
      rw [List.cons_append, PlainData, PlainData, ih, partsBytes_append, List.append_assoc, and_assoc]
  | case3 entities s parts ih | case4 entities s parts ih => exact ih

theorem Tidy.append {front back : List ReplyPart} {rest : List UInt8}
    (h : Tidy front (partsBytes back ++ rest)) (h' : Tidy back rest) : Tidy (front ++ back) rest := by
  induction front with
  | nil => exact h'
  | cons part front ih =>
      cases part with
      | text s => exact ⟨h.1, ih h.2⟩
      | data s => exact ih h
      | url s =>
          refine ⟨?_, ih h.2⟩
          rw [List.append_eq, partsBytes_append, List.append_assoc]
          exact h.1

end Parts

/-- The parts lead from what is open before them to what is after them, and `P` says when what is
filled in is plain. -/
structure PlainWhen (r : Rule) (before : List UInt8) (parts : List ReplyPart) (after : List UInt8)
    (P : Prop) : Prop where
  tidy : ∀ rest, Tidy parts rest
  opened : openAfter r before parts = after
  plain : ∀ rest, PlainData r before parts rest ↔ P

/-- However it is read, the text of the builder leads from what is open to what is. -/
structure Leads (before : List UInt8) (text : String) (after : List UInt8) : Prop where
  noBackslash : backslash ∉ (lit text).bytes
  scan : ∀ r : Rule, (scan r before (lit text).bytes).2 = after

theorem leads_of_marks {before after : List UInt8} {text : String} (marks : List UInt8)
    (plain : (lit text).bytes.contains backslash = false)
    (same : ((lit text).bytes.filter fun b => decide (IsMark b)) = marks)
    (folds : ∀ r : Rule, marks.foldl r.after before = after) : Leads before text after := by
  rw [List.contains_eq_mem, decide_eq_false_iff_not] at plain
  refine ⟨plain, fun r => ?_⟩
  rw [scan_eq_foldl plain, same, folds]

theorem leads_of_unmarked {text : String} (h : Unmarked (lit text).bytes) (entities : List UInt8) :
    Leads entities text entities :=
  ⟨h.noBackslash, fun r => scan_unmarked h r entities⟩

theorem head?_text {s : CString} {b : UInt8} (h : s.bytes.head? = some b) (parts : List ReplyPart)
    (rest : List UInt8) : (partsBytes (.text s :: parts) ++ rest).head? = some b := by
  obtain ⟨later, hs⟩ := List.head?_eq_some_iff.mp h
  change ((s.bytes ++ partsBytes parts) ++ rest).head? = some b
  rw [hs]
  rfl

theorem unmarked_of_numberText {s : CString} (h : NumberText s) : Unmarked s.bytes := by
  intro b hb
  rcases h b hb with digit | other
  · have small : b.toNat ≤ 57 := digit.2
    refine ⟨?_, by rintro rfl; exact absurd small (by decide)⟩
    rintro (rfl | rfl | rfl)
    all_goals revert digit; decide
  · simp only [List.mem_cons, List.not_mem_nil, or_false] at other
    rcases other with rfl | rfl | rfl | rfl | rfl | rfl <;> decide

theorem scan_of_numberText {s : CString} (h : NumberText s) (r : Rule) (entities : List UInt8) :
    (scan r entities s.bytes).2 = entities := scan_unmarked (unmarked_of_numberText h) r entities

namespace PlainWhen
variable {r : Rule} {before between after : List UInt8} {front back parts : List ReplyPart}
  {P Q : Prop} {t : String} {b : UInt8}

theorem nil : PlainWhen r before [] before True := ⟨fun _ => trivial, rfl, fun _ => Iff.rfl⟩

theorem congr (h : PlainWhen r before parts after P) (same : P ↔ Q) :
    PlainWhen r before parts after Q :=
  ⟨h.tidy, h.opened, fun rest => (h.plain rest).trans same⟩

theorem append (h : PlainWhen r before front between P) (h' : PlainWhen r between back after Q) :
    PlainWhen r before (front ++ back) after (P ∧ Q) where
  tidy rest := (h.tidy _).append (h'.tidy rest)
  opened := by rw [openAfter_append, h.opened, h'.opened]
  plain rest := by rw [plainData_append, h.opened, h.plain, h'.plain]

theorem ite (h : PlainWhen r before parts before True) (c : Prop) [Decidable c] :
    PlainWhen r before (if c then parts else []) before True := by
  split
  · exact h
  · exact nil

theorem text (leads : Leads before t between) (h : PlainWhen r between parts after P) :
    PlainWhen r before (.text (lit t) :: parts) after P where
  tidy rest := ⟨leads.noBackslash, h.tidy rest⟩
  opened := by rw [openAfter, leads.scan, h.opened]
  plain rest := by rw [PlainData, leads.scan, h.plain]

theorem number {n : CString} (digits : NumberText n) (h : PlainWhen r before parts after P) :
    PlainWhen r before (.text n :: parts) after P where
  tidy rest := ⟨(unmarked_of_numberText digits).noBackslash, h.tidy rest⟩
  opened := by rw [openAfter, scan_of_numberText digits, h.opened]
  plain rest := by rw [PlainData, scan_of_numberText digits, h.plain]

/-- A string of the receipt with text of the builder behind it. -/
theorem data {s : CString} (next : (lit t).bytes.head? = some b)
    (h : PlainWhen r before (.text (lit t) :: parts) after P) :
    PlainWhen r before (.data s :: .text (lit t) :: parts) after
      (Plain r before s.bytes (some b) ∧ P) where
  tidy rest := h.tidy rest
  opened := h.opened
  plain rest := by rw [PlainData, h.plain, head?_text next]

/-- An address with text of the builder behind it that does not begin with a mark. -/
theorem url {s : CString} (next : (lit t).bytes.head? = some b) (unmarked : ¬ IsMark b)
    (h : PlainWhen r (LegacyMarkdown.scan r before s.bytes).2 (.text (lit t) :: parts) after P) :
    PlainWhen r before (.url s :: .text (lit t) :: parts) after P where
  tidy rest := by
    refine ⟨fun c hc => ?_, h.tidy rest⟩
    rw [head?_text next] at hc
    exact Option.some.inj hc ▸ unmarked
  opened := h.opened
  plain := h.plain

end PlainWhen

section Reply
variable {α : Type} [CDouble α] {r : Rule}

theorem plainWhen_quality (q : Int) : PlainWhen r [] (replyQualityParts q) [] True := by
  have opening : Leads [] " Quality: `" [backtick] :=
    leads_of_marks [backtick] rfl rfl fun _ => rfl
  have closing : Leads [backtick] "%`\n" [] := leads_of_marks [backtick] rfl rfl fun _ => rfl
  have number : PlainWhen r [] [.text (lit " Quality: `"), .text (printInt q), .text (lit "%`\n")] []
      True :=
    .text opening (.number (numberText_printInt q) (.text closing .nil))
  rw [replyQualityParts]
  split_ifs
  · exact .text (leads_of_marks [] rfl rfl fun _ => rfl) number
  · exact .text (leads_of_marks [] rfl rfl fun _ => rfl) number
  · exact .text (leads_of_marks [] rfl rfl fun _ => rfl) number

omit [CDouble α] in
theorem plainWhen_itemCount (data : ReceiptData α) :
    PlainWhen r [] (replyItemCountParts data) [] True := by
  have opening : Leads [] "📋 Items: `" [backtick] := leads_of_marks [backtick] rfl rfl fun _ => rfl
  have between : Leads [backtick] "` (receipt says `" [backtick] :=
    leads_of_marks [backtick, backtick] rfl rfl fun _ => rfl
  have closing : Leads [backtick] "`)\n" [] := leads_of_marks [backtick] rfl rfl fun _ => rfl
  have ending : Leads [backtick] "`\n" [] := leads_of_marks [backtick] rfl rfl fun _ => rfl
  have count := numberText_printInt data.itemCount
  have reported := numberText_printInt data.reportedItemCount
  rw [replyItemCountParts]
  split
  · exact .text opening (.number count (.text between (.number reported (.text closing .nil))))
  · exact .text opening (.number count (.text ending .nil))

theorem plainWhen_total (data : ReceiptData α) :
    PlainWhen r [] (replyTotalParts data) [] True := by
  have opening : Leads [] "\n💰 *Total:* `" [backtick] :=
    leads_of_marks [asterisk, asterisk, backtick] rfl rfl fun _ => rfl
  have closing : Leads [backtick] " EUR`" [] := leads_of_marks [backtick] rfl rfl fun _ => rfl
  exact .text opening (.number (CDouble.numberText _) (.text closing .nil))

theorem plainWhen_warning (calculated : α) :
    PlainWhen r [] (replyWarningParts calculated) [] True := by
  have opening : Leads [] "\n⚠️ Calculated `" [backtick] :=
    leads_of_marks [backtick] rfl rfl fun _ => rfl
  have closing : Leads [backtick] " EUR` — check totals" [] :=
    leads_of_marks [backtick] rfl rfl fun _ => rfl
  exact .text opening (.number (CDouble.numberText _) (.text closing .nil))

theorem plainWhen_tokens (n : Int) : PlainWhen r [] (replyTokenParts n) [] True := by
  have opening : Leads [] "\n⚡ Tokens: `" [backtick] := leads_of_marks [backtick] rfl rfl fun _ => rfl
  have closing : Leads [backtick] "`" [] := leads_of_marks [backtick] rfl rfl fun _ => rfl
  exact .text opening (.number (numberText_printInt n) (.text closing .nil))

theorem plain_orDefault (field : CString) {default : String}
    (unmarked : Unmarked (lit default).bytes) (entities : List UInt8) (next : Option UInt8) :
    Plain r entities (orDefault field (lit default)).bytes next ↔
      Plain r entities field.bytes next := by
  rw [orDefault]
  split
  · next none =>
      rw [List.isEmpty_iff] at none
      exact iff_of_true (plain_of_unmarked unmarked ..) (none ▸ plain_nil ..)
  · rfl

omit [CDouble α] in
theorem plainWhen_store (data : ReceiptData α) :
    PlainWhen r [] (replyStoreParts data) []
      (Plain r [asterisk] data.storeName.bytes (some asterisk)) := by
  have opening : Leads [] "🏪 *" [asterisk] := leads_of_marks [asterisk] rfl rfl fun _ => rfl
  have closing : Leads [asterisk] "*\n" [] := leads_of_marks [asterisk] rfl rfl fun _ => rfl
  have unknown : Unmarked (lit "Unknown").bytes := unmarked_of_all rfl
  refine (PlainWhen.text opening (.data rfl (.text closing .nil))).congr ?_
  rw [and_true]
  exact plain_orDefault data.storeName unknown ..

/-- The strings of an item are plain: nothing is open around the name, the category is read in
italics, and the unit, where one is printed, in code. -/
def PlainItem (r : Rule) (item : ReplyLineItem α) : Prop :=
  (∀ b ∈ (displayName item).bytes, ¬ IsMark b) ∧
    Plain r [underscore] item.category.bytes (some underscore) ∧
    (item.amount > 1.005 → backtick ∉ item.unitOfMeasure.bytes)

omit [CDouble α] in
theorem plainWhen_header (number : Nat) (item : ReplyLineItem α) :
    PlainWhen r [] (replyHeaderParts number item) []
      ((∀ b ∈ (displayName item).bytes, ¬ IsMark b) ∧
        Plain r [underscore] item.category.bytes (some underscore)) := by
  have opening : Leads [] "  `" [backtick] := leads_of_marks [backtick] rfl rfl fun _ => rfl
  have behind : Leads [backtick] ".` " [] := leads_of_marks [backtick] rfl rfl fun _ => rfl
  have line : Leads [] "\n" [] := leads_of_marks [] rfl rfl fun _ => rfl
  have italic : Leads [] " _" [underscore] := leads_of_marks [underscore] rfl rfl fun _ => rfl
  have closing : Leads [underscore] "_\n" [] := leads_of_marks [underscore] rfl rfl fun _ => rfl
  have digits := numberText_printNat number
  rw [replyHeaderParts]
  split
  · next none =>
      rw [List.isEmpty_iff] at none
      have parts := PlainWhen.text (r := r) opening (.number digits (.text behind
        (.data (s := displayName item) (b := 10) rfl (.text line .nil))))
      refine parts.congr ?_
      rw [plain_closed_iff (by decide), none, and_iff_left trivial]
      exact (and_iff_left (plain_nil ..)).symm
  · have parts := PlainWhen.text (r := r) opening (.number digits (.text behind
      (.data (s := displayName item) (b := 32) rfl (.text italic
        (.data (s := item.category) (b := underscore) rfl (.text closing .nil))))))
    refine parts.congr ?_
    rw [plain_closed_iff (by decide), and_true]

theorem plainWhen_price (item : ReplyLineItem α) (lt : α) :
    PlainWhen r [] (replyPriceParts item lt) []
      (item.amount > 1.005 → backtick ∉ item.unitOfMeasure.bytes) := by
  have opening : Leads [] "      `" [backtick] := leads_of_marks [backtick] rfl rfl fun _ => rfl
  have times : Leads [backtick] "` x `" [backtick] :=
    leads_of_marks [backtick, backtick] rfl rfl fun _ => rfl
  have blank : Leads [backtick] " " [backtick] := leads_of_marks [] rfl rfl fun _ => rfl
  have euro : Leads [backtick] " EUR` - `" [backtick] :=
    leads_of_marks [backtick, backtick] rfl rfl fun _ => rfl
  have minus : Leads [backtick] "` - `" [backtick] :=
    leads_of_marks [backtick, backtick] rfl rfl fun _ => rfl
  have equal : Leads [backtick] "` = `" [backtick] :=
    leads_of_marks [backtick, backtick] rfl rfl fun _ => rfl
  have closing : Leads [backtick] " EUR`\n" [] := leads_of_marks [backtick] rfl rfl fun _ => rfl
  have pieces : Unmarked (lit "pcs").bytes := unmarked_of_all rfl
  have price := CDouble.numberText item.price
  have amount := CDouble.numberText item.amount
  have discount := CDouble.numberText item.discount
  have sum := CDouble.numberText lt
  have silent (h : ¬ item.amount > 1.005) :
      True ↔ (item.amount > 1.005 → backtick ∉ item.unitOfMeasure.bytes) :=
    (iff_true_intro fun printed => absurd printed h).symm
  have unit (h : item.amount > 1.005) :
      (Plain r [backtick] (orDefault item.unitOfMeasure (lit "pcs")).bytes (some backtick) ∧ True) ↔
        (item.amount > 1.005 → backtick ∉ item.unitOfMeasure.bytes) := by
    rw [and_true, plain_orDefault _ pieces, plain_code_iff]
    exact (imp_iff_right h).symm
  simp only [replyPriceParts]
  split_ifs with both reduced several
  · refine (PlainWhen.text opening (.number price (.text times (.number amount (.text blank
      (.data rfl (.text minus (.number discount (.text equal (.number sum
        (.text closing .nil))))))))))).congr ?_
    exact unit both.2
  · refine (PlainWhen.text opening (.number price (.text euro (.number discount (.text equal
      (.number sum (.text closing .nil))))))).congr ?_
    exact silent fun several => both ⟨reduced, several⟩
  · refine (PlainWhen.text opening (.number price (.text times (.number amount (.text blank
      (.data rfl (.text equal (.number sum (.text closing .nil))))))))).congr ?_
    exact unit several
  · refine (PlainWhen.text opening (.number sum (.text closing .nil))).congr ?_
    exact silent several

theorem plainWhen_items (items : List (ReplyLineItem α × Nat)) :
    PlainWhen r [] (replyItemsParts items) [] (∀ item ∈ items, PlainItem r item.1) := by
  induction items with
  | nil => exact PlainWhen.nil.congr (by simp)
  | cons item items ih =>
      obtain ⟨item, i⟩ := item
      have first := (plainWhen_header (r := r) (i + 1) item).append
        (plainWhen_price item (lineTotal item))
      have all := first.append ih
      rw [List.forall_mem_cons, PlainItem, ← and_assoc]
      exact all

/-- All before the links. -/
theorem plainWhen_body (data : ReceiptData α) :
    PlainWhen r [] (replyBodyParts data) []
      (Plain r [asterisk] data.storeName.bytes (some asterisk) ∧
        ∀ item ∈ data.items, PlainItem r item) := by
  have warned : PlainWhen r [] (if data.isReceipt then []
      else [.text (lit "❌ *Not a receipt*\n\n")]) [] True := by
    split
    · exact .nil
    · exact .text (leads_of_marks [asterisk, asterisk] rfl rfl fun _ => rfl) .nil
  have line : PlainWhen r [] [.text (lit "\n")] [] True :=
    .text (leads_of_marks [] rfl rfl fun _ => rfl) .nil
  have all := (((((((warned.append (plainWhen_store data)).append
    ((plainWhen_quality data.imageQuality).ite (data.imageQuality ≥ 0))).append
    (plainWhen_itemCount data)).append line).append (plainWhen_items data.items.zipIdx)).append
    (plainWhen_total data)).append ((plainWhen_warning (itemsTotal data.items.zipIdx)).ite
      (diffIsSignificant (itemsTotal data.items.zipIdx) data.totalSum))).append
    ((plainWhen_tokens data.tokensUsed).ite (data.tokensUsed > 0))
  simp only [true_and, and_true, forall_zipIdx data.items (PlainItem r)] at all
  exact all

/-- What the addresses leave open, read one after another. -/
def openAfterUrls (r : Rule) (entities : List UInt8) (urls : List CString) : List UInt8 :=
  urls.foldl (fun entities url => (scan r entities url.bytes).2) entities

theorem plainWhen_link {label : String} (unmarked : Unmarked (lit label).bytes) (url : CString)
    (before : List UInt8) :
    PlainWhen r before (replyLinkParts (lit label) url) (scan r before url.bytes).2 True := by
  have opening : Unmarked (lit "\n📄 [").bytes := unmarked_of_all rfl
  have middle : Unmarked (lit "](").bytes := unmarked_of_all rfl
  have closing : Unmarked (lit ")").bytes := unmarked_of_all rfl
  rw [replyLinkParts]
  split
  · next none =>
      rw [List.isEmpty_iff] at none
      rw [none]
      exact .nil
  · exact .text (leads_of_unmarked opening _) (.text (leads_of_unmarked unmarked _)
      (.text (leads_of_unmarked middle _) (.url rfl (by decide)
        (.text (leads_of_unmarked closing _) .nil))))

omit [CDouble α] in
theorem plainWhen_links (data : ReceiptData α) :
    PlainWhen r [] (replyLinksParts data)
      (openAfterUrls r [] [data.originalUrl, data.ocrUrl, data.jsonUrl]) True := by
  have line : Leads [] "\n" [] := leads_of_marks [] rfl rfl fun _ => rfl
  rw [replyLinksParts]
  split
  · next none =>
      simp only [Bool.and_eq_true, List.isEmpty_iff] at none
      obtain ⟨⟨original, ocr⟩, json⟩ := none
      simp only [openAfterUrls, List.foldl_cons, List.foldl_nil, original, ocr, json]
      exact .nil
  · have original := @plainWhen_link r "Original" (unmarked_of_all rfl) data.originalUrl []
    have ocr := @plainWhen_link r "OCR text" (unmarked_of_all rfl) data.ocrUrl
    have json := @plainWhen_link r "JSON" (unmarked_of_all rfl) data.jsonUrl
    have links := (original.append (ocr _)).append (json _)
    exact (PlainWhen.text line links).congr (by simp)

/-- The reply's text is the builder's with the strings of the receipt in it, each of which stands
for itself, and no entity is open at its end. -/
def WellFormedReply (r : Rule) (data : ReceiptData α) : Prop :=
  let text := (replyBuilderFormatReceipt data).text.bytes
  text = partsBytes (replyParts data) ∧ LiteralData (replyParts data) (scan r [] text).1 ∧
    (scan r [] text).2 = []

/-- A reply that fits is well formed exactly if every string of the receipt is plain in the entity
it is printed in, and the addresses leave nothing open. -/
theorem wellFormedReply_iff (r : Rule) (data : ReceiptData α)
    (fits : size (replyPieces data) < 4096) :
    WellFormedReply r data ↔
      Plain r [asterisk] data.storeName.bytes (some asterisk) ∧
        (∀ item ∈ data.items, PlainItem r item) ∧
        openAfterUrls r [] [data.originalUrl, data.ocrUrl, data.jsonUrl] = [] := by
  have whole : PlainWhen r [] (replyParts data) _ _ :=
    (plainWhen_body data).append (plainWhen_links data)
  have text := replyBuilderFormatReceipt_bytes data fits
  rw [WellFormedReply, text, and_iff_right rfl, literalData_iff (whole.tidy []),
    whole.plain, whole.opened, and_true, and_assoc]

end Reply

/-- A receipt with one item of that name. -/
def receiptOf (name : CString) : ReceiptData Float where
  storeName := lit "Markt"
  isReceipt := true
  imageQuality := 90
  reportedItemCount := 1
  totalSum := 3.0
  items := [⟨name, .empty, lit "kg", lit "dairy", 1.5, 2.0, 0.0⟩]
  itemCount := 1
  fileId := 1
  tokensUsed := 0
  originalUrl := .empty
  ocrUrl := .empty
  jsonUrl := .empty

theorem wellFormedReply_milk : WellFormedReply ⟨true, true⟩ (receiptOf (lit "Milch 3,5%")) := by
  have fits : size (replyPieces (receiptOf (lit "Milch 3,5%"))) < 4096 := by decide +kernel
  refine (wellFormedReply_iff ⟨true, true⟩ _ fits).mpr ⟨?_, ?_, rfl⟩
  · exact plain_of_unmarked (unmarked_of_all rfl) ..
  · refine List.forall_mem_singleton.mpr ⟨by decide +kernel, ?_, fun _ => by decide +kernel⟩
    exact plain_of_unmarked (unmarked_of_all rfl) ..

/-- The underscore opens an entity that nothing closes, however the marks are read. -/
theorem underscore_leaves_open :
    size (replyPieces (receiptOf (lit "Bio_Milch"))) < 4096 ∧
      ∀ r : Rule, ¬ WellFormedReply r (receiptOf (lit "Bio_Milch")) ∧
        (scan r [] (replyBuilderFormatReceipt (receiptOf (lit "Bio_Milch"))).text.bytes).2 ≠ [] := by
  have leaves : ∀ nested escapesInside : Bool, (scan ⟨nested, escapesInside⟩ []
      (replyBuilderFormatReceipt (receiptOf (lit "Bio_Milch"))).text.bytes).2 ≠ [] := by
    decide +kernel
  refine ⟨by decide +kernel, fun r => ⟨fun formed => ?_, leaves r.nested r.escapesInside⟩⟩
  exact leaves r.nested r.escapesInside formed.2.2

end Kaufbot
