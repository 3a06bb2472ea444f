import Kaufbot.Cjson
import Kaufbot.Library.Printf

/-!
`cJSON_PrintUnformatted`, with the growing buffer it prints into. The buffer is
what stands before the offset and how long the block is; `malloc` and `realloc`
always find room. How a fraction is printed is a parameter: it is what `%1.15g`
gives, or `%1.17g` where that does not read back.
-/

namespace Kaufbot

open CString

namespace CJson

/-- The conversions between doubles and their texts that the C library makes. -/
structure NumberTexts where
  /-- `sprintf` with `%1.15g`, or with `%1.17g`. -/
  formatDouble : Rat → CString
  /-- `strtod`: the number, and how many characters it took. -/
  strtod : CString → Rat × Nat

def intMax : Nat := 2 ^ 31 - 1

/-- `printbuffer`, with what stands before `offset`. -/
structure PrintBuffer where
  length : Nat
  text : List UInt8

/-- `ensure`: the length of the block, after it has grown where it had to. -/
def ensure (p : PrintBuffer) (needed : Nat) : Option Nat :=
  if 0 < p.length ∧ p.length ≤ p.text.length then none
  else if intMax < needed then none
  else
    let total := needed + p.text.length + 1
    if total ≤ p.length then some p.length
    else if intMax / 2 < total then (if total ≤ intMax then some intMax else none)
    else some (2 * total)

/-- What is written behind the offset after `ensure`, and the offset moved past it. -/
def emit (needed : Nat) (written : List UInt8) (p : PrintBuffer) : Option PrintBuffer :=
  (ensure p needed).map fun length => { length := length, text := p.text ++ written }

/-- The text of `print_number`. -/
def numberText (lib : NumberTexts) (d : Rat) : CString :=
  if d = doubleToIntSat d then printInt (doubleToIntSat d) else lib.formatDouble d

def printNumber (lib : NumberTexts) (d : Rat) (p : PrintBuffer) : Option PrintBuffer :=
  let text := numberText lib d
  if 25 < text.length then none else emit (text.length + 1) text.bytes p

/-- How many characters a byte needs beside itself. -/
def escapeCharacters (b : UInt8) : Nat :=
  if b = 34 ∨ b = 92 ∨ b = 8 ∨ b = 12 ∨ b = 10 ∨ b = 13 ∨ b = 9 then 1
  else if b < 32 then 5
  else 0

/-- What the copying loop of `print_string_ptr` writes for one byte. -/
def escapeByte (b : UInt8) : List UInt8 :=
  if 31 < b ∧ b ≠ 34 ∧ b ≠ 92 then [b]
  else
    92 :: (if b = 92 then [92]
      else if b = 34 then [34]
      else if b = 8 then [98]
      else if b = 12 then [102]
      else if b = 10 then [110]
      else if b = 13 then [114]
      else if b = 9 then [116]
      else [117, 48, 48] ++ (printHex2 b).bytes)

def printStringPtr (input : CString) (p : PrintBuffer) : Option PrintBuffer :=
  let escapes := (input.bytes.map escapeCharacters).sum
  let outputLength := input.length + escapes
  emit (outputLength + 3)
    (34 :: ((if escapes = 0 then input.bytes else input.bytes.flatMap escapeByte) ++ [34])) p

/-- The comma behind an element that is not the last. -/
def separator {α : Type} (later : List α) : List UInt8 := if later.isEmpty then [] else [44]

mutual

def printValue (lib : NumberTexts) : CJson → PrintBuffer → Option PrintBuffer
  | .null => emit 5 [110, 117, 108, 108]
  | .bool false => emit 6 [102, 97, 108, 115, 101]
  | .bool true => emit 5 [116, 114, 117, 101]
  | .number d => printNumber lib d
  | .string s => printStringPtr s
  | .array items => fun p =>
      (emit 1 [91] p).bind fun p => (printItems lib items p).bind (emit 2 [93])
  | .object members => fun p =>
      (emit 2 [123] p).bind fun p => (printMembers lib members p).bind (emit 2 [125])

/-- The loop of `print_array`. -/
def printItems (lib : NumberTexts) : List CJson → PrintBuffer → Option PrintBuffer
  | [] => some
  | item :: items => fun p =>
      (printValue lib item p).bind fun p =>
        (if items.isEmpty then some p else emit 2 (separator items) p).bind (printItems lib items)

/-- The loop of `print_object`. -/
def printMembers (lib : NumberTexts) : List (CString × CJson) → PrintBuffer → Option PrintBuffer
  | [] => some
  | member :: members => fun p =>
      (printMember lib member p).bind fun p =>
        (emit ((separator members).length + 1) (separator members) p).bind
          (printMembers lib members)

def printMember (lib : NumberTexts) : CString × CJson → PrintBuffer → Option PrintBuffer
  | (key, value) => fun p =>
      (printStringPtr key p).bind fun p => (emit 1 [58] p).bind (printValue lib value)

end

/-- `cJSON_PrintUnformatted`. -/
def printUnformatted (lib : NumberTexts) (item : CJson) : Option CString :=
  (printValue lib item { length := 256, text := [] }).map fun p => ofBytes p.text

/-- A string between its quotes, with what must not stand there escaped. -/
def quoted (s : CString) : List UInt8 := 34 :: (s.bytes.flatMap escapeByte ++ [34])

mutual

/-- The text of a tree. -/
def render (lib : NumberTexts) : CJson → List UInt8
  | .null => [110, 117, 108, 108]
  | .bool false => [102, 97, 108, 115, 101]
  | .bool true => [116, 114, 117, 101]
  | .number d => (numberText lib d).bytes
  | .string s => quoted s
  | .array items => 91 :: (renderItems lib items ++ [93])
  | .object members => 123 :: (renderMembers lib members ++ [125])

def renderItems (lib : NumberTexts) : List CJson → List UInt8
  | [] => []
  | item :: items => render lib item ++ separator items ++ renderItems lib items

def renderMembers (lib : NumberTexts) : List (CString × CJson) → List UInt8
  | [] => []
  | member :: members => renderMember lib member ++ separator members ++ renderMembers lib members

def renderMember (lib : NumberTexts) : CString × CJson → List UInt8
  | (key, value) => quoted key ++ 58 :: render lib value

end

/-! Every writer keeps the offset inside the block, and fails only where a text
does not fit into `INT_MAX` bytes. -/

def PrintBuffer.Valid (p : PrintBuffer) : Prop := p.text.length < p.length

/-- A writer that puts this text behind the offset, as long as the block may grow. -/
structure Writes (step : PrintBuffer → Option PrintBuffer) (text : List UInt8) : Prop where
  behind : ∀ {p p'}, p.Valid → step p = some p' → p'.text = p.text ++ text ∧ p'.Valid
  room : ∀ {p}, p.Valid → p.text.length + text.length + 2 ≤ intMax → ∃ p', step p = some p'

theorem ensure_spec {p : PrintBuffer} {needed length : Nat} (valid : p.Valid)
    (h : ensure p needed = some length) : needed + p.text.length < length := by
  simp only [ensure, PrintBuffer.Valid] at h valid
  grind

theorem exists_ensure {p : PrintBuffer} {needed : Nat} (valid : p.Valid)
    (room : needed + p.text.length + 1 ≤ intMax) : ∃ length, ensure p needed = some length := by
  simp only [ensure, PrintBuffer.Valid] at valid ⊢
  rw [if_neg (by omega), if_neg (by omega)]
  split
  · exact ⟨_, rfl⟩
  · split
    · exact ⟨_, rfl⟩
    · exact ⟨_, rfl⟩

theorem writes_emit {needed : Nat} {written : List UInt8} (fits : written.length ≤ needed)
    (close : needed ≤ written.length + 1) : Writes (emit needed written) written where
  behind valid h := by
    obtain ⟨length, grown, rfl⟩ := Option.map_eq_some_iff.mp h
    have large := ensure_spec valid grown
    refine ⟨rfl, ?_⟩
    simp only [PrintBuffer.Valid, List.length_append]
    omega
  room {p} valid short := by
    obtain ⟨length, grown⟩ : ∃ length, ensure p needed = some length :=
      exists_ensure valid (by omega)
    exact ⟨{ length := length, text := p.text ++ written }, by rw [emit, grown]; rfl⟩

theorem writes_some : Writes some [] where
  behind valid h := by
    cases h
    exact ⟨(List.append_nil _).symm, valid⟩
  room _ _ := ⟨_, rfl⟩

theorem Writes.bind {step step' : PrintBuffer → Option PrintBuffer} {text text' : List UInt8}
    (first : Writes step text) (second : Writes step' text') :
    Writes (fun p => (step p).bind step') (text ++ text') where
  behind valid h := by
    obtain ⟨q, before, after⟩ := Option.bind_eq_some_iff.mp h
    obtain ⟨same, validq⟩ := first.behind valid before
    obtain ⟨same', valid'⟩ := second.behind validq after
    exact ⟨by rw [same', same, List.append_assoc], valid'⟩
  room {p} valid short := by
    rw [List.length_append] at short
    obtain ⟨q, before⟩ := first.room valid (by omega)
    obtain ⟨same, validq⟩ := first.behind valid before
    obtain ⟨p', after⟩ := second.room validq (by
      rw [same, List.length_append]
      omega)
    exact ⟨p', by rw [before]; exact after⟩

/-- What a byte is copied to: an escape of one letter, a code, or itself. -/
theorem escapeByte_cases (b : UInt8) :
    ((b = 34 ∨ b = 92 ∨ b = 8 ∨ b = 12 ∨ b = 10 ∨ b = 13 ∨ b = 9) ∧ escapeCharacters b = 1) ∨
      (b < 32 ∧ escapeCharacters b = 5 ∧
        escapeByte b = [92, 117, 48, 48] ++ (printHex2 b).bytes) ∨
      (31 < b ∧ b ≠ 34 ∧ b ≠ 92 ∧ escapeCharacters b = 0 ∧ escapeByte b = [b]) := by
  by_cases letter : b = 34 ∨ b = 92 ∨ b = 8 ∨ b = 12 ∨ b = 10 ∨ b = 13 ∨ b = 9
  · exact .inl ⟨letter, if_pos letter⟩
  · obtain ⟨quote, backslash, bs, ff, nl, cr, tab⟩ : b ≠ 34 ∧ b ≠ 92 ∧ b ≠ 8 ∧ b ≠ 12 ∧ b ≠ 10 ∧
        b ≠ 13 ∧ b ≠ 9 := by simpa using letter
    by_cases low : b < 32
    · have control : ¬ 31 < b := by
        rw [UInt8.lt_iff_toNat_lt] at low ⊢
        change b.toNat < 32 at low
        change ¬ 31 < b.toNat
        omega
      refine .inr (.inl ⟨low, ?_, ?_⟩)
      · rw [escapeCharacters, if_neg letter, if_pos low]
      · simp [escapeByte, control, quote, backslash, bs, ff, nl, cr, tab]
    · have printable : 31 < b := by
        rw [UInt8.lt_iff_toNat_lt] at low ⊢
        change ¬ b.toNat < 32 at low
        change 31 < b.toNat
        omega
      refine .inr (.inr ⟨printable, quote, backslash, ?_, ?_⟩)
      · rw [escapeCharacters, if_neg letter, if_neg low]
      · rw [escapeByte, if_pos ⟨printable, quote, backslash⟩]

theorem length_escapeByte (b : UInt8) : (escapeByte b).length = 1 + escapeCharacters b := by
  obtain ⟨letter, count⟩ | ⟨-, count, code⟩ | ⟨-, -, -, count, plain⟩ := escapeByte_cases b
  · rw [count]
    rcases letter with rfl | rfl | rfl | rfl | rfl | rfl | rfl <;> rfl
  · rw [count, code, List.length_append, length_printHex2]
    rfl
  · rw [count, plain]
    rfl

theorem escapeByte_of_escapeCharacters {b : UInt8} (none : escapeCharacters b = 0) :
    escapeByte b = [b] := by
  obtain ⟨-, count⟩ | ⟨-, count, -⟩ | ⟨-, -, -, -, plain⟩ := escapeByte_cases b
  · omega
  · omega
  · exact plain

/-- The counting loop of `print_string_ptr` foresees what the copying loop writes. -/
theorem length_flatMap_escapeByte (l : List UInt8) :
    (l.flatMap escapeByte).length = l.length + (l.map escapeCharacters).sum := by
  induction l with
  | nil => rfl
  | cons b l ih =>
      simp only [List.flatMap_cons, List.length_append, length_escapeByte, ih, List.length_cons,
        List.map_cons, List.sum_cons]
      omega

/-- Where nothing has to be escaped, copying the whole string writes the same. -/
theorem flatMap_escapeByte_of_sum {l : List UInt8} (none : (l.map escapeCharacters).sum = 0) :
    l.flatMap escapeByte = l := by
  induction l with
  | nil => rfl
  | cons b l ih =>
      rw [List.map_cons, List.sum_cons, Nat.add_eq_zero_iff] at none
      rw [List.flatMap_cons, escapeByte_of_escapeCharacters none.1, ih none.2]
      rfl

theorem writes_printStringPtr (s : CString) : Writes (printStringPtr s) (quoted s) := by
  have inside : (if (s.bytes.map escapeCharacters).sum = 0 then s.bytes
      else s.bytes.flatMap escapeByte) = s.bytes.flatMap escapeByte := by
    split
    · next none => exact (flatMap_escapeByte_of_sum none).symm
    · rfl
  have length : (quoted s).length = s.length + (s.bytes.map escapeCharacters).sum + 2 := by
    rw [quoted, List.length_cons, List.length_append, length_flatMap_escapeByte]
    rfl
  have same : printStringPtr s =
      emit (s.length + (s.bytes.map escapeCharacters).sum + 3) (quoted s) := by
    funext p
    simp only [printStringPtr, inside, quoted]
  rw [same]
  exact writes_emit (by omega) (by omega)

section Trees
variable {lib : NumberTexts} {P : Rat → Prop}

/-- Every number of the tree satisfies this. -/
inductive AllNumbers (P : Rat → Prop) : CJson → Prop where
  | null : AllNumbers P .null
  | bool (value : Bool) : AllNumbers P (.bool value)
  | number {d : Rat} (h : P d) : AllNumbers P (.number d)
  | string (s : CString) : AllNumbers P (.string s)
  | array {items : List CJson} (each : ∀ item ∈ items, AllNumbers P item) :
      AllNumbers P (.array items)
  | object {members : List (CString × CJson)} (each : ∀ member ∈ members, AllNumbers P member.2) :
      AllNumbers P (.object members)

theorem AllNumbers.imp {Q : Rat → Prop} (h : ∀ {d}, P d → Q d) {item : CJson}
    (numbers : AllNumbers P item) : AllNumbers Q item := by
  induction numbers with
  | null => exact .null
  | bool value => exact .bool value
  | number hd => exact .number (h hd)
  | string s => exact .string s
  | array _ ih => exact .array ih
  | object _ ih => exact .object ih

theorem writes_printNumber {d : Rat} (short : (numberText lib d).length ≤ 25) :
    Writes (printNumber lib d) (numberText lib d).bytes := by
  have same : printNumber lib d = emit ((numberText lib d).length + 1) (numberText lib d).bytes := by
    funext p
    exact if_neg (by omega)
  rw [same]
  exact writes_emit (Nat.le_succ _) le_rfl

theorem writes_separator {α : Type} (later : List α) :
    Writes (emit ((separator later).length + 1) (separator later)) (separator later) :=
  writes_emit (Nat.le_succ _) le_rfl

theorem writes_printItems {items : List CJson}
    (each : ∀ item ∈ items, Writes (printValue lib item) (render lib item)) :
    Writes (printItems lib items) (renderItems lib items) := by
  induction items with
  | nil => exact writes_some
  | cons item items ih =>
      have later := ih fun item mem => each item (List.mem_cons_of_mem _ mem)
      have first := each item List.mem_cons_self
      rw [renderItems, List.append_assoc]
      cases items with
      | nil => exact first.bind (writes_some.bind later)
      | cons _ _ => exact first.bind ((writes_separator _).bind later)

theorem writes_printMembers {members : List (CString × CJson)}
    (each : ∀ member ∈ members, Writes (printValue lib member.2) (render lib member.2)) :
    Writes (printMembers lib members) (renderMembers lib members) := by
  induction members with
  | nil => exact writes_some
  | cons member members ih =>
      obtain ⟨key, value⟩ := member
      have later := ih fun member mem => each member (List.mem_cons_of_mem _ mem)
      have colon : Writes (emit 1 [58]) [58] := writes_emit (by simp) (by simp)
      have first : Writes (printMember lib (key, value)) (renderMember lib (key, value)) :=
        (writes_printStringPtr key).bind (colon.bind (each (key, value) List.mem_cons_self))
      rw [renderMembers, List.append_assoc]
      exact first.bind ((writes_separator members).bind later)

/-- The printer writes the text of the tree. -/
theorem writes_printValue {item : CJson}
    (numbers : AllNumbers (fun d => (numberText lib d).length ≤ 25) item) :
    Writes (printValue lib item) (render lib item) := by
  induction numbers with
  | null => exact writes_emit (by simp) (by simp)
  | bool value =>
      cases value with
      | false => exact writes_emit (by simp) (by simp)
      | true => exact writes_emit (by simp) (by simp)
  | number short => exact writes_printNumber short
  | string s => exact writes_printStringPtr s
  | array _ ih =>
      have opening : Writes (emit 1 [91]) [91] := writes_emit (by simp) (by simp)
      have closing : Writes (emit 2 [93]) [93] := writes_emit (by simp) (by simp)
      exact opening.bind ((writes_printItems ih).bind closing)
  | object _ ih =>
      have opening : Writes (emit 2 [123]) [123] := writes_emit (by simp) (by simp)
      have closing : Writes (emit 2 [125]) [125] := writes_emit (by simp) (by simp)
      exact opening.bind ((writes_printMembers ih).bind closing)

theorem zero_notMem_quoted (s : CString) : 0 ∉ quoted s := by
  have inside : 0 ∉ s.bytes.flatMap escapeByte := by
    intro zero
    obtain ⟨b, mem, zero⟩ := List.mem_flatMap.mp zero
    obtain ⟨letter, -⟩ | ⟨-, -, code⟩ | ⟨-, -, -, -, plain⟩ := escapeByte_cases b
    · rcases letter with rfl | rfl | rfl | rfl | rfl | rfl | rfl <;> revert zero <;> decide
    · rw [code, List.mem_append] at zero
      exact zero.elim (by decide) (printHex2 b).nulFree
    · rw [plain, List.mem_singleton] at zero
      exact s.nulFree (zero ▸ mem)
  simp [quoted, inside]

theorem zero_notMem_separator {α : Type} (later : List α) : 0 ∉ separator later := by
  rw [separator]
  split <;> decide

theorem zero_notMem_renderItems {items : List CJson} (each : ∀ item ∈ items, 0 ∉ render lib item) :
    0 ∉ renderItems lib items := by
  induction items with
  | nil => exact List.not_mem_nil
  | cons item items ih =>
      simp [renderItems, each item List.mem_cons_self, zero_notMem_separator,
        ih fun item mem => each item (List.mem_cons_of_mem _ mem)]

theorem zero_notMem_renderMembers {members : List (CString × CJson)}
    (each : ∀ member ∈ members, 0 ∉ render lib member.2) : 0 ∉ renderMembers lib members := by
  induction members with
  | nil => exact List.not_mem_nil
  | cons member members ih =>
      obtain ⟨key, value⟩ := member
      have value := each (key, value) List.mem_cons_self
      simp [renderMembers, renderMember, zero_notMem_quoted, value, zero_notMem_separator,
        ih fun member mem => each member (List.mem_cons_of_mem _ mem)]

/-- The text is a C string of its own. -/
theorem zero_notMem_render {item : CJson} (numbers : AllNumbers P item) :
    0 ∉ render lib item := by
  induction numbers with
  | null => simp [render]
  | bool value => cases value <;> simp [render]
  | @number d _ => exact (numberText lib d).nulFree
  | string s => exact zero_notMem_quoted s
  | array _ ih => simp [render, zero_notMem_renderItems ih]
  | object _ ih => simp [render, zero_notMem_renderMembers ih]

theorem printUnformatted_eq {item : CJson} {text : CString}
    (numbers : AllNumbers (fun d => (numberText lib d).length ≤ 25) item)
    (h : printUnformatted lib item = some text) : text = ofBytes (render lib item) := by
  obtain ⟨p, printed, rfl⟩ := Option.map_eq_some_iff.mp h
  have fresh : PrintBuffer.Valid { length := 256, text := [] } := Nat.succ_pos 255
  rw [((writes_printValue numbers).behind fresh printed).1]
  rfl

/-- A tree is printed unless its text does not fit into `INT_MAX` bytes. -/
theorem exists_printUnformatted {item : CJson}
    (numbers : AllNumbers (fun d => (numberText lib d).length ≤ 25) item)
    (room : (render lib item).length + 2 ≤ intMax) :
    printUnformatted lib item = some (ofBytes (render lib item)) := by
  have fresh : PrintBuffer.Valid { length := 256, text := [] } := Nat.succ_pos 255
  obtain ⟨p, printed⟩ := (writes_printValue numbers).room fresh (by
    change 0 + (render lib item).length + 2 ≤ intMax
    omega)
  have succeeds : printUnformatted lib item = some (ofBytes p.text) := by
    rw [printUnformatted, printed]
    rfl
  rw [succeeds, printUnformatted_eq numbers succeeds]

end Trees

end CJson

end Kaufbot
