import Kaufbot.Guarantees.Encoding
import Kaufbot.Guarantees.StoredAnswers

/-!
What the model is asked is posted as it was meant: whatever a session has gone
through, the JSON of every request means the bytes of the file of its call with
their type and the prompt, or the prompt and the text of its call. No byte of a
file or a text can end the part it stands in. What the service asks of a
request besides, such as UTF-8, is not modelled.
-/

namespace Kaufbot

open CString Runs

/-- A part of what the model is asked. -/
inductive AskPart where
  | inlineData (mimeType : CString) (data : List UInt8)
  | text (text : CString)
deriving DecidableEq

structure Ask where
  parts : List AskPart
  temperature : Rat
deriving DecidableEq

/-! The other side of the wire, as the service documents its requests. -/

def readPart (json : CJson) : Option AskPart :=
  match member (some json) "inline_data" with
  | some inlineData =>
      (CJson.stringValue? (member (some inlineData) "mime_type")).bind fun mimeType =>
        (CJson.stringValue? (member (some inlineData) "data")).bind fun data =>
          (Base64.decode data.bytes).map (.inlineData mimeType)
  | none => (CJson.stringValue? (member (some json) "text")).map .text

def arrayItems? : Option CJson → Option (List CJson)
  | some (.array items) => some items
  | _ => none

def readAsk (json : CJson) : Option Ask :=
  let content := CJson.getArrayItem (member (some json) "contents") 0
  (arrayItems? (member content "parts")).bind fun parts =>
    (parts.mapM readPart).bind fun parts =>
      (CJson.numberValue? (member (member (some json) "generationConfig") "temperature")).map
        fun temperature => { parts := parts, temperature := temperature }

/-- The question that the posted JSON means. -/
def serviceReceives (lib : CJson.NumberTexts) (request : HttpRequest) : Option Ask :=
  if request.method = .post then
    (request.body.bind fun body => CJson.parse lib (ofBytes body)).bind readAsk
  else none

/-- What a call means to ask. -/
def GeminiOp.ask : GeminiOp → Ask
  | .extractText data filename | .extractTextWithModel data filename _ =>
      { parts := [.inlineData (storageMimeType filename) data, .text ocrPrompt], temperature := 0 }
  | .parseReceipt ocrText => { parts := [.text parsePrompt, .text ocrText], temperature := 0 }

/-- The tree a call posts. -/
def GeminiOp.body : GeminiOp → CJson
  | .extractText data filename | .extractTextWithModel data filename _ =>
      geminiBody [inlineDataPart data filename] ocrPrompt none
  | .parseReceipt ocrText => geminiBody [] parsePrompt (some ocrText)

/-- A file of at most 128 MiB or a text of at most 256 MiB: its body can be printed. -/
def GeminiOp.Small : GeminiOp → Prop
  | .extractText data _ | .extractTextWithModel data _ _ => data.length ≤ 2 ^ 27
  | .parseReceipt ocrText => ocrText.length ≤ 2 ^ 28

section Bodies
variable {lib : CJson.NumberTexts}

theorem readPart_inlineDataPart (data : List UInt8) (filename : CString) :
    readPart (inlineDataPart data filename) =
      some (.inlineData (storageMimeType filename) data) := by
  have read : readPart (inlineDataPart data filename) =
      (Base64.decode (base64Encode data).bytes).map
        (.inlineData (storageMimeType filename)) := rfl
  rw [read, base64Encode_bytes, decode_base64Bytes]
  rfl

theorem readPart_textPart (text : CString) : readPart (textPart text) = some (.text text) := rfl

theorem readAsk_geminiBody (parts : List CJson) (prompt : CString) (extraText : Option CString) :
    readAsk (geminiBody parts prompt extraText) =
      ((parts ++ [textPart prompt] ++ (extraText.map textPart).toList).mapM readPart).map
        fun parts => { parts := parts, temperature := 0 } := by
  have read : readAsk (geminiBody parts prompt extraText) =
      ((parts ++ [textPart prompt] ++ (extraText.map textPart).toList).mapM readPart).bind
        fun parts => some { parts := parts, temperature := 0 } := rfl
  rw [read]
  cases (parts ++ [textPart prompt] ++ (extraText.map textPart).toList).mapM readPart <;> rfl

/-- The tree of a call means what the call asks. -/
theorem readAsk_body (op : GeminiOp) : readAsk op.body = some op.ask := by
  have file (data : List UInt8) (filename : CString) :
      readAsk (geminiBody [inlineDataPart data filename] ocrPrompt none) =
        some { parts := [.inlineData (storageMimeType filename) data, .text ocrPrompt],
               temperature := 0 } := by
    rw [readAsk_geminiBody]
    simp [readPart_inlineDataPart, readPart_textPart]
  cases op with
  | extractText data filename => exact file data filename
  | extractTextWithModel data filename model => exact file data filename
  | parseReceipt ocrText =>
      rw [GeminiOp.body, readAsk_geminiBody]
      simp [readPart_textPart, GeminiOp.ask]

theorem allNumbers_body {P : Rat → Prop} (zero : P 0) (op : GeminiOp) :
    CJson.AllNumbers P op.body := by
  have text (s : CString) : CJson.AllNumbers P (textPart s) :=
    .object (List.forall_mem_singleton.mpr (.string s))
  have body (parts : List CJson) (each : ∀ part ∈ parts, CJson.AllNumbers P part) (prompt : CString)
      (extraText : Option CString) : CJson.AllNumbers P (geminiBody parts prompt extraText) := by
    have all : ∀ part ∈ parts ++ [textPart prompt] ++ (extraText.map textPart).toList,
        CJson.AllNumbers P part := by
      cases extraText with
      | none => simpa [or_imp, forall_and, text] using each
      | some s => simpa [or_imp, forall_and, text] using each
    exact .object (List.forall_mem_cons.mpr
      ⟨.array (List.forall_mem_singleton.mpr (.object (List.forall_mem_singleton.mpr (.array all)))),
        List.forall_mem_singleton.mpr (.object (List.forall_mem_singleton.mpr (.number zero)))⟩)
  have file (data : List UInt8) (filename : CString) :
      CJson.AllNumbers P (inlineDataPart data filename) :=
    .object (List.forall_mem_singleton.mpr (.object
      (List.forall_mem_cons.mpr ⟨.string _, List.forall_mem_singleton.mpr (.string _)⟩)))
  cases op with
  | extractText data filename => exact body _ (List.forall_mem_singleton.mpr (file data filename)) _ _
  | extractTextWithModel data filename model =>
      exact body _ (List.forall_mem_singleton.mpr (file data filename)) _ _
  | parseReceipt ocrText => exact body _ (List.forall_mem_nil _) _ _

theorem nesting_body (op : GeminiOp) : CJson.nesting op.body ≤ CJson.nestingLimit := by
  cases op with
  | extractText _ _ => exact (by decide : 6 ≤ CJson.nestingLimit)
  | extractTextWithModel _ _ _ => exact (by decide : 6 ≤ CJson.nestingLimit)
  | parseReceipt _ => exact (by decide : 5 ≤ CJson.nestingLimit)

theorem length_quoted_le (s : CString) : (CJson.quoted s).length ≤ 6 * s.length + 2 := by
  have escaped (l : List UInt8) : (l.flatMap CJson.escapeByte).length ≤ 6 * l.length := by
    induction l with
    | nil => exact Nat.le_refl _
    | cons b l ih =>
        have one : (CJson.escapeByte b).length ≤ 6 := by
          rw [CJson.length_escapeByte, CJson.escapeCharacters]
          split_ifs <;> omega
        rw [List.flatMap_cons, List.length_append, List.length_cons]
        omega
  have inside := escaped s.bytes
  simp only [CJson.quoted, CString.length, List.length_cons, List.length_append, List.length_nil]
  omega

theorem length_storageMimeType (filename : CString) : (storageMimeType filename).length ≤ 24 := by
  rw [storageMimeType]
  split
  · decide
  · dsimp only
    split_ifs <;> decide

theorem length_lit_le {s : String} {n : Nat} (h : (lit s).length ≤ n) :
    (CJson.quoted (lit s)).length ≤ 6 * n + 2 := by
  have := length_quoted_le (lit s)
  omega

/-- The body of any call with a prompt of this length is printed. -/
theorem room_geminiBody (integers : CJson.ReadsIntegers lib) {prompt : CString}
    (short : prompt.length ≤ 4000) :
    (∀ (bytes : List UInt8) (filename : CString), bytes.length ≤ 2 ^ 27 →
      (CJson.render lib (geminiBody [inlineDataPart bytes filename] prompt none)).length + 2 ≤
        CJson.intMax) ∧
      ∀ text : CString, text.length ≤ 2 ^ 28 →
        (CJson.render lib (geminiBody [] prompt (some text))).length + 2 ≤ CJson.intMax := by
  have zero : (CJson.numberText lib 0).bytes.length ≤ 25 :=
    (integers.readsBack (n := 0) (by decide)).short
  have contents := length_lit_le (show (lit "contents").length ≤ 20 by decide)
  have parts := length_lit_le (show (lit "parts").length ≤ 20 by decide)
  have config := length_lit_le (show (lit "generationConfig").length ≤ 20 by decide)
  have temperature := length_lit_le (show (lit "temperature").length ≤ 20 by decide)
  have text := length_lit_le (show (lit "text").length ≤ 20 by decide)
  have inline := length_lit_le (show (lit "inline_data").length ≤ 20 by decide)
  have mime := length_lit_le (show (lit "mime_type").length ≤ 20 by decide)
  have data := length_lit_le (show (lit "data").length ≤ 20 by decide)
  have written := length_quoted_le prompt
  refine ⟨fun bytes filename few => ?_, fun ocrText few => ?_⟩
  · have type := length_quoted_le (storageMimeType filename)
    have types := length_storageMimeType filename
    have encoded := length_quoted_le (base64Encode bytes)
    have length : (base64Encode bytes).length = 4 * ((bytes.length + 2) / 3) := by
      rw [CString.length, base64Encode_bytes, length_base64Bytes]
    simp only [geminiBody, inlineDataPart, textPart, List.cons_append, List.nil_append,
      Option.map_none, Option.toList_none, List.append_nil, CJson.render, CJson.renderMembers,
      CJson.renderMember, CJson.renderItems, CJson.separator, List.isEmpty_cons,
      Bool.false_eq_true, if_false, List.isEmpty_nil, if_true, List.length_cons,
      List.length_append, List.length_nil, CJson.intMax]
    omega
  · have said := length_quoted_le ocrText
    simp only [geminiBody, textPart, List.nil_append, Option.map_some, Option.toList_some,
      List.cons_append, CJson.render, CJson.renderMembers, CJson.renderMember, CJson.renderItems,
      CJson.separator, List.isEmpty_nil, if_true, List.append_nil, List.isEmpty_cons,
      Bool.false_eq_true, if_false, List.length_cons, List.length_append, List.length_nil,
      CJson.intMax]
    omega

theorem length_ocrPrompt : ocrPrompt.length ≤ 4000 := by decide +kernel

theorem length_parsePrompt : parsePrompt.length ≤ 4000 := by decide +kernel

/-- The body of a call is printed. -/
theorem room_body (integers : CJson.ReadsIntegers lib) {op : GeminiOp} (small : op.Small) :
    (CJson.render lib op.body).length + 2 ≤ CJson.intMax := by
  cases op with
  | extractText bytes filename =>
      rw [GeminiOp.body]
      exact (room_geminiBody integers length_ocrPrompt).1 bytes filename small
  | extractTextWithModel bytes filename model =>
      rw [GeminiOp.body]
      exact (room_geminiBody integers length_ocrPrompt).1 bytes filename small
  | parseReceipt ocrText =>
      rw [GeminiOp.body]
      exact (room_geminiBody integers length_parsePrompt).2 ocrText small

/-- A body that is posted means what the call asks. -/
theorem serviceReceives_body (integers : CJson.ReadsIntegers lib) {op : GeminiOp} {body : CString}
    (printed : CJson.printUnformatted lib op.body = some body) (url : CString) :
    serviceReceives lib (httpPostJsonRequest url body) = some op.ask := by
  have zero : CJson.ReadsBack lib 0 := integers.readsBack (n := 0) (by decide)
  have parsed := CJson.parse_print (allNumbers_body zero op) printed
  rw [if_pos (nesting_body op)] at parsed
  simp only [serviceReceives, httpPostJsonRequest, httpPostRequest, if_true, Option.bind_some,
    ofBytes_bytes, parsed, readAsk_body]

end Bodies

section Session
variable (env : GeminiEnv)

theorem geminiPass_body (input : PassInput) (triedFallback : Bool) (client : GeminiClient)
    (body : CString) :
    ∀ sent ∈ (geminiPass env input triedFallback client body).2.1,
      ∃ url, sent.request = httpPostJsonRequest url body := by
  intro sent mem
  simp only [geminiPass] at mem
  repeat' split at mem
  · exact absurd mem List.not_mem_nil
  all_goals
    obtain rfl := List.mem_singleton.mp mem
    exact ⟨_, rfl⟩

/-- Both passes of a call post the same body. -/
theorem geminiPostAndParse_body (input : CallInput) (client : GeminiClient) (body : CString) :
    ∀ sent ∈ (geminiPostAndParse env input client body).2.sent,
      ∃ url, sent.request = httpPostJsonRequest url body := by
  intro sent mem
  have first := geminiPass_body env input.first false client body
  simp only [geminiPostAndParse] at mem
  split at mem
  · next after requests result pass =>
      rw [pass] at first
      exact first sent mem
  · next after requests pass =>
      rw [pass] at first
      have second := geminiPass_body env input.second true after body
      split at mem
      · next after' again result pass' =>
          rw [pass'] at second
          exact (List.mem_append.mp mem).elim (first sent) (second sent)
      · next after' again pass' =>
          rw [pass'] at second
          exact (List.mem_append.mp mem).elim (first sent) (second sent)

theorem GeminiOp.apply_body (input : CallInput) (client : GeminiClient) (op : GeminiOp) :
    ∀ sent ∈ (op.apply env input client).2.sent,
      ∃ url, sent.request = httpPostJsonRequest url (env.cjsonPrint op.body) := by
  cases op with
  | extractText data filename => exact geminiPostAndParse_body env input client _
  | extractTextWithModel data filename model => exact geminiPostAndParse_body env input _ _
  | parseReceipt ocrText => exact geminiPostAndParse_body env input client _

variable {env} {lib : CJson.NumberTexts}

/-- Every request that leaves the process in one call means what the call asks. -/
def Arrives (lib : CJson.NumberTexts) (op : GeminiOp × CallInput) (call : GeminiCall) : Prop :=
  ∀ sent ∈ call.sent, serviceReceives lib sent.request = some op.1.ask

theorem GeminiOp.apply_arrives (integers : CJson.ReadsIntegers lib)
    (prints : ∀ item text, CJson.printUnformatted lib item = some text → env.cjsonPrint item = text)
    {op : GeminiOp × CallInput} (small : op.1.Small) (client : GeminiClient) :
    Arrives lib op (op.1.apply env op.2 client).2 := by
  intro sent mem
  obtain ⟨url, request⟩ := op.1.apply_body env op.2 client sent mem
  have zero : CJson.ReadsBack lib 0 := integers.readsBack (n := 0) (by decide)
  have printed := CJson.exists_printUnformatted
    ((allNumbers_body zero op.1).imp fun back => back.short) (room_body integers small)
  rw [request, prints _ _ printed]
  exact serviceReceives_body integers printed url

/-- In every session, whatever the service answered and whichever models were tried, each request
of each call means what that call asks: the very bytes of its file or of its text, after the
prompt that belongs to them. -/
theorem asks_arrive (integers : CJson.ReadsIntegers lib)
    (prints : ∀ item text, CJson.printUnformatted lib item = some text → env.cjsonPrint item = text)
    (client : GeminiClient) (ops : List (GeminiOp × CallInput)) (small : ∀ op ∈ ops, op.1.Small) :
    List.Forall₂ (Arrives lib) ops (run (geminiStep env) (.start client) ops).calls := by
  have calls (s : GeminiSession) : ∃ calls, (run (geminiStep env) s ops).calls = s.calls ++ calls ∧
      List.Forall₂ (Arrives lib) ops calls := by
    induction ops generalizing s with
    | nil => exact ⟨[], by simp, .nil⟩
    | cons op ops ih =>
        have first := GeminiOp.apply_arrives integers prints (small op List.mem_cons_self) s.client
        obtain ⟨calls, later, arrive⟩ := ih (fun op mem => small op (List.mem_cons_of_mem _ mem))
          (geminiStep env s op)
        refine ⟨(op.1.apply env op.2 s.client).2 :: calls, ?_, .cons first arrive⟩
        rw [run_cons, later]
        simp [geminiStep]
  obtain ⟨made, same, arrive⟩ := calls (.start client)
  rw [same]
  exact arrive

theorem asks_arrive_milk :
    List.Forall₂ (Arrives CJson.digitTexts)
      [(.extractText [1, 2, 3] (lit "m.jpg"), milkInput), (.parseReceipt (lit "a\"b"), milkInput)]
      (run (geminiStep cjsonGemini) (.start milkService.gemini)
        [(.extractText [1, 2, 3] (lit "m.jpg"), milkInput),
          (.parseReceipt (lit "a\"b"), milkInput)]).calls :=
  asks_arrive CJson.readsIntegers_digitTexts
    (fun _ _ printed => by simp only [cjsonGemini, printed, Option.getD_some]) _ _
    (List.forall_mem_cons.mpr ⟨(by decide : 3 ≤ 2 ^ 27),
      List.forall_mem_singleton.mpr (by decide : (lit "a\"b").length ≤ 2 ^ 28)⟩)

end Session

end Kaufbot
