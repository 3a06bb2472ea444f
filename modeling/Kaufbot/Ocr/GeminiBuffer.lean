import Kaufbot.Library.StringScan
import Kaufbot.Ocr.GeminiText

/-!
How the code fence is taken off in place: two scans move the start of the
string, a NUL is written over the closing fence, and the end is trimmed byte by
byte. The string is its block of memory up to the NUL, so a result says that no
read and no write left it.
-/

namespace Kaufbot

open CString StringScan GrowArray

/-- Behind an opening fence, with or without the language, and the line breaks after it. -/
def skipFence (mem : List UInt8) : Option Nat := do
  if ← matchesAt (lit "```json").bytes mem then StringScan.skip isLineBreak mem 7
  else if ← matchesAt (lit "```").bytes mem then StringScan.skip isLineBreak mem 3
  else return 0

def cutFence (mem : List UInt8) (start : Nat) : Option (List UInt8) := do
  match ← find (lit "```").bytes mem start with
  | some stop => copyInto mem stop [0]
  | none => return mem

/-- `strip_markdown_json`: the memory afterwards, and where the result starts in it. -/
def stripMarkdownJsonBuffer (mem : List UInt8) : Option (List UInt8 × Nat) := do
  let start ← skipFence mem
  let mem ← cutFence mem start
  let start ← StringScan.skip isJsonSpace mem start
  let len ← StringScan.skip (· != 0) mem start
  let mem ← trimBack isJsonSpace mem start (len - start)
  return (mem, start)

/-- The result for a string that fills its block, read as a string. -/
def stripInPlace (x : CString) : Option CString :=
  (stripMarkdownJsonBuffer (x.bytes ++ [0])).map fun (mem, start) => ofBytes (mem.drop start)

section Buffer
variable {mem text needle : List UInt8} {i : Nat}

/-- The text between an opening fence and the end of the string. -/
def openedText (x : List UInt8) : List UInt8 :=
  if (lit "```json").bytes.isPrefixOf x then (x.drop 7).dropWhile isLineBreak
  else if (lit "```").bytes.isPrefixOf x then (x.drop 3).dropWhile isLineBreak
  else x

theorem openedText_suffix (x : List UInt8) : openedText x <:+ x := by
  rw [openedText]
  split
  · exact (List.dropWhile_suffix _).trans (List.drop_suffix _ _)
  · split
    · exact (List.dropWhile_suffix _).trans (List.drop_suffix _ _)
    · exact List.suffix_refl _

theorem cutAt_starts (needle l : List UInt8) : cutAt needle l <+: l := by
  induction l with
  | nil => exact List.prefix_refl _
  | cons b l ih =>
      rw [cutAt]
      split
      · exact List.nil_prefix
      · exact (List.prefix_cons_inj b).mpr ih

/-- Opened, cut and trimmed at both ends. -/
def strippedBytes (x : List UInt8) : List UInt8 :=
  ((cutAt (lit "```").bytes (openedText x)).dropWhile isJsonSpace).rdropWhile isJsonSpace

theorem strippedBytes_inside (x : List UInt8) : strippedBytes x <:+: x :=
  (List.rdropWhile_prefix _ _).isInfix.trans ((List.dropWhile_suffix _).isInfix.trans
    ((cutAt_starts _ _).isInfix.trans (openedText_suffix x).isInfix))

theorem bytes_stripMarkdownJson (x : CString) :
    (stripMarkdownJson x).bytes = strippedBytes x.bytes :=
  ofBytes_of_nulFree fun h0 => x.nulFree ((strippedBytes_inside x.bytes).subset h0)

theorem skipFence_eq (h : StringAt mem 0 text) :
    ∃ start, skipFence mem = some start ∧ StringAt mem start (openedText text) := by
  have behind (needle : List UInt8) (opened : needle.isPrefixOf text = true) :
      ∃ start, StringScan.skip isLineBreak mem needle.length = some start ∧
        StringAt mem start ((text.drop needle.length).dropWhile isLineBreak) := by
    obtain ⟨back, rfl⟩ := List.isPrefixOf_iff_prefix.mp opened
    have later := h.later
    rw [Nat.zero_add] at later
    rw [List.drop_left]
    exact later.skip (by decide)
  have named : (lit "```json").bytes.length = 7 := by decide
  have plain : (lit "```").bytes.length = 3 := by decide
  simp only [skipFence, h.startsWith (lit "```json").nulFree, h.startsWith (lit "```").nulFree,
    openedText]
  cases language : (lit "```json").bytes.isPrefixOf text with
  | true =>
      have opened := behind _ language
      rw [named] at opened
      exact opened
  | false =>
      cases fence : (lit "```").bytes.isPrefixOf text with
      | true =>
          have opened := behind _ fence
          rw [plain] at opened
          exact opened
      | false => exact ⟨0, rfl, h⟩

theorem cutAt_eq_take (h : occurrence needle text = some i) :
    cutAt needle text = text.take i ∧ i ≤ text.length := by
  induction text generalizing i with
  | nil => cases h
  | cons b text ih =>
      rw [occurrence] at h
      rw [cutAt]
      split at h
      · obtain rfl := Option.some.inj h
        simp [*]
      · obtain ⟨k, hk, rfl⟩ := Option.map_eq_some_iff.mp h
        obtain ⟨cut, inside⟩ := ih hk
        simp [*]

theorem cutAt_eq_self (h : occurrence needle text = none) : cutAt needle text = text := by
  induction text with
  | nil => rfl
  | cons b text ih =>
      rw [occurrence] at h
      rw [cutAt]
      split at h
      · cases h
      · next absent => rw [if_neg absent, ih (Option.map_eq_none_iff.mp h)]

theorem cutFence_eq (h : StringAt mem i text) :
    ∃ mem', cutFence mem i = some mem' ∧ StringAt mem' i (cutAt (lit "```").bytes text) ∧
      mem'.length = mem.length := by
  have nonempty : (lit "```").bytes ≠ [] := by decide
  simp only [cutFence, h.find (lit "```").nulFree nonempty]
  cases first : occurrence (lit "```").bytes text with
  | none => exact ⟨mem, rfl, by rwa [cutAt_eq_self first], rfl⟩
  | some k =>
      obtain ⟨cut, inside⟩ := cutAt_eq_take first
      have at_k : (text.take k).length = k := List.length_take_of_le inside
      rw [← List.take_append_drop k text] at h
      obtain ⟨mem', written, shorter, length⟩ := h.cut
      rw [at_k] at written
      exact ⟨mem', written, by rwa [cut], length⟩

/-- The buffer holds what the string function returns, and no index has left the string. -/
theorem stripMarkdownJsonBuffer_eq (x : CString) :
    ∃ mem start, stripMarkdownJsonBuffer (x.bytes ++ [0]) = some (mem, start) ∧
      StringAt mem start (stripMarkdownJson x).bytes ∧ mem.length = x.length + 1 := by
  have whole : StringAt (x.bytes ++ [0]) 0 x.bytes := ⟨x.nulFree, [], [], rfl, rfl⟩
  obtain ⟨opened, hopened, text⟩ := skipFence_eq whole
  obtain ⟨cut, hcut, body, cutLength⟩ := cutFence_eq text
  obtain ⟨start, hstart, trimmed⟩ := body.skip (p := isJsonSpace) (by decide)
  obtain ⟨mem, hmem, result, length⟩ := trimmed.trimBack (p := isJsonSpace)
  have len := trimmed.strlen
  have steps : stripMarkdownJsonBuffer (x.bytes ++ [0]) = some (mem, start) := by
    simp only [stripMarkdownJsonBuffer, hopened, hcut, hstart, len, Option.bind_eq_bind,
      Option.bind_some, Nat.add_sub_cancel_left, hmem]
    rfl
  refine ⟨mem, start, steps, by rwa [bytes_stripMarkdownJson], ?_⟩
  rw [length, cutLength, List.length_append]
  rfl

theorem stripInPlace_eq (x : CString) : stripInPlace x = some (stripMarkdownJson x) := by
  obtain ⟨mem, start, done, result, -⟩ := stripMarkdownJsonBuffer_eq x
  obtain ⟨rest, split⟩ := result.drop_eq
  simp only [stripInPlace, done, Option.map_some, split, ofBytes_append_nul]

end Buffer

end Kaufbot
