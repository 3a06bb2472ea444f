import Kaufbot.Library.JsonText
import Kaufbot.Ocr.GeminiText

/-!
What is left of a JSON object the model returned bare or inside a code fence.
Whitespace around the object and after the fence never matters. A fence inside
a string of the object cuts it, and anything before the opening fence hides it.
-/

namespace Kaufbot

open CString

def fence : CString := lit "```"

/-- Spaces, tabs and line breaks. -/
structure Blank where
  text : CString
  blank : ∀ b ∈ text.bytes, isJsonSpace b = true

/-- The ways a model returns a text: bare, or in a fence with or without the language. -/
inductive Wrapping where
  | bare (before after : Blank)
  | fenced (language : Bool) (outer before after last : Blank)

def Wrapping.wrap (s : CString) : Wrapping → CString
  | .bare before after => before.text ++ s ++ after.text
  | .fenced language outer before after last =>
      outer.text ++ (if language then lit "```json" else fence) ++ before.text ++ s ++
        after.text ++ fence ++ last.text

/-- Nothing stands before an opening fence. -/
def Wrapping.StartsAtOnce : Wrapping → Prop
  | .bare _ _ => True
  | .fenced _ outer _ _ _ => outer.text = .empty

section Cut
variable {s l rest : List UInt8}

theorem fence_bytes : fence.bytes = [96, 96, 96] := by decide

/-- The cut is at the first occurrence, so not behind any. -/
theorem length_cutAt_le (needle front back : List UInt8) (hne : needle ≠ []) :
    (cutAt needle (front ++ (needle ++ back))).length ≤ front.length := by
  induction front with
  | nil =>
      obtain ⟨b, tail, rfl⟩ := List.exists_cons_of_ne_nil hne
      simp [cutAt, List.isPrefixOf_iff_prefix]
  | cons b front ih =>
      simp only [List.cons_append, cutAt]
      split
      · simp
      · simpa using ih

/-- A text with no fence in it that does not end in a backtick is never cut. -/
theorem cutAt_append (last : ∀ b, l.getLast? = some b → b ≠ 96) (free : ¬ fence.bytes <:+: l)
    (rest : List UInt8) : cutAt fence.bytes (l ++ rest) = l ++ cutAt fence.bytes rest := by
  rw [fence_bytes] at free ⊢
  induction l with
  | nil => rfl
  | cons b l ih =>
      have no_fence : ¬ [96, 96, 96] <+: b :: (l ++ rest) := by
        intro found
        obtain ⟨first, second⟩ := List.cons_prefix_cons.mp found
        match l with
        | [] => exact last b rfl first.symm
        | [c] =>
            have hc := (List.cons_prefix_cons.mp second).1
            exact last c rfl hc.symm
        | c :: d :: tail =>
            obtain ⟨hc, third⟩ := List.cons_prefix_cons.mp second
            have hd := (List.cons_prefix_cons.mp third).1
            subst first hc hd
            exact free ⟨[], tail, rfl⟩
      have tail_last (c : UInt8) (hc : l.getLast? = some c) : c ≠ 96 := by
        refine last c ?_
        rw [List.getLast?_cons, hc]
        rfl
      have tail_free : ¬ [96, 96, 96] <:+: l :=
        fun found => free (found.trans (List.suffix_cons b l).isInfix)
      rw [List.cons_append, cutAt, if_neg (by simpa [List.isPrefixOf_iff_prefix] using no_fence),
        ih tail_last tail_free, List.cons_append]

theorem cutAt_blank (b : Blank) (rest : List UInt8) :
    cutAt fence.bytes (b.text.bytes ++ rest) = b.text.bytes ++ cutAt fence.bytes rest := by
  have no_backtick : (96 : UInt8) ∉ b.text.bytes := fun h => absurd (b.blank 96 h) (by decide)
  refine cutAt_append (fun c hc => ?_) (fun found => ?_) rest
  · rintro rfl
    exact no_backtick (List.mem_of_getLast? hc)
  · refine no_backtick (found.subset ?_)
    rw [fence_bytes]
    exact List.mem_cons_self

@[simp] theorem cutAt_fence (rest : List UInt8) :
    cutAt fence.bytes (fence.bytes ++ rest) = [] := by
  rw [fence_bytes]
  simp [cutAt]

end Cut

section Trim
variable {s : CString} {l : List UInt8}

/-- The bytes between the whitespace at both ends. -/
def trimJsonSpace (l : List UInt8) : List UInt8 :=
  ((l.dropWhile isJsonSpace).reverse.dropWhile isJsonSpace).reverse

theorem Blank.dropWhile_append (b : Blank) (l : List UInt8) :
    (b.text.bytes ++ l).dropWhile isJsonSpace = l.dropWhile isJsonSpace :=
  List.dropWhile_append_of_pos b.blank

theorem length_trimJsonSpace_le (b : Blank) (l : List UInt8) :
    (trimJsonSpace (b.text.bytes ++ l)).length ≤ l.length := by
  rw [trimJsonSpace, b.dropWhile_append, List.length_reverse]
  refine (List.length_dropWhile_le _ _).trans ?_
  rw [List.length_reverse]
  exact List.length_dropWhile_le _ _

theorem trimJsonSpace_object (before after : Blank) (h : JsonText.Object l) :
    trimJsonSpace (before.text.bytes ++ (l ++ after.text.bytes)) = l := by
  obtain ⟨inner, rfl⟩ := h.braces
  have stop_first : isJsonSpace 123 = false := by decide
  have stop_last : isJsonSpace 125 = false := by decide
  have blank_reversed : ∀ b ∈ after.text.bytes.reverse, isJsonSpace b = true :=
    fun b hb => after.blank b (List.mem_reverse.mp hb)
  rw [trimJsonSpace, before.dropWhile_append, List.cons_append,
    List.dropWhile_cons_of_neg (by simp [stop_first]), ← List.cons_append, List.reverse_append,
    List.dropWhile_append_of_pos blank_reversed]
  simp [stop_last]

/-- Line breaks are dropped from the blank before the object only. -/
theorem dropWhile_isLineBreak (b : Blank) (h : JsonText.Object l) (rest : List UInt8) :
    ∃ b' : Blank, (b.text.bytes ++ (l ++ rest)).dropWhile isLineBreak
      = b'.text.bytes ++ (l ++ rest) := by
  obtain ⟨inner, rfl⟩ := h.braces
  have dropped := List.dropWhile_suffix (l := b.text.bytes) isLineBreak
  refine ⟨⟨⟨b.text.bytes.dropWhile isLineBreak, fun h0 => b.text.nulFree (dropped.subset h0)⟩,
    fun c hc => b.blank c (dropped.subset hc)⟩, ?_⟩
  have stop : isLineBreak 123 = false := by decide
  simp only [List.dropWhile_append, List.cons_append]
  split
  · simp_all
  · rfl

end Trim

section Strip
variable {s : CString}

/-- What is cut out of an object between blanks, up to the closing fence or the end. -/
theorem trim_cutAt_iff (h : JsonText.Object s.bytes) (before after : Blank) {rest : List UInt8}
    (closed : cutAt fence.bytes rest = []) :
    ofBytes (trimJsonSpace (cutAt fence.bytes
        (before.text.bytes ++ (s.bytes ++ (after.text.bytes ++ rest))))) = s
      ↔ ¬ fence.bytes <:+: s.bytes := by
  rw [cutAt_blank]
  constructor
  · rintro kept ⟨front, back, found⟩
    have cut := length_cutAt_le fence.bytes front (back ++ (after.text.bytes ++ rest)) (by decide)
    rw [← List.append_assoc fence.bytes, ← List.append_assoc front, ← List.append_assoc front,
      found] at cut
    have trimmed := (length_trimJsonSpace_le before _).trans cut
    have read := congrArg (fun t => t.bytes.length) kept
    have total := congrArg List.length found
    have three : fence.bytes.length = 3 := by decide
    have taken := (List.takeWhile_prefix (· != (0 : UInt8)) (l := trimJsonSpace (before.text.bytes
      ++ cutAt fence.bytes (s.bytes ++ (after.text.bytes ++ rest))))).length_le
    simp only [ofBytes, List.length_append, three] at read total taken
    omega
  · intro free
    have last : ∀ b, s.bytes.getLast? = some b → b ≠ 96 := by
      obtain ⟨inner, object⟩ := h.braces
      intro b hb
      rw [object, ← List.cons_append, List.getLast?_concat, Option.some.injEq] at hb
      subst hb
      decide
    rw [cutAt_append last free, cutAt_blank, closed, List.append_nil,
      trimJsonSpace_object before after h, ofBytes_bytes]

variable {rest : List UInt8}

theorem strip_language (raw : CString) (h : raw.bytes = (lit "```json").bytes ++ rest) :
    stripMarkdownJson raw
      = ofBytes (trimJsonSpace (cutAt fence.bytes (rest.dropWhile isLineBreak))) := by
  have starts : raw.startsWith (lit "```json") = true := by
    simp [startsWith, h, List.isPrefixOf_iff_prefix]
  have seven : (lit "```json").bytes.length = 7 := by decide
  simp only [stripMarkdownJson, starts, if_true, h, ← seven, List.drop_left, trimJsonSpace, fence]

theorem strip_fence (raw : CString) (h : raw.bytes = fence.bytes ++ rest)
    (other : ¬ (lit "json").bytes <+: rest) :
    stripMarkdownJson raw
      = ofBytes (trimJsonSpace (cutAt fence.bytes (rest.dropWhile isLineBreak))) := by
  have starts : raw.startsWith (lit "```") = true := by
    simp [startsWith, h, List.isPrefixOf_iff_prefix, fence]
  have no_language : raw.startsWith (lit "```json") = false := by
    have split : (lit "```json").bytes = fence.bytes ++ (lit "json").bytes := by decide
    rw [startsWith, h, split, ← Bool.not_eq_true, List.isPrefixOf_iff_prefix,
      List.prefix_append_right_inj]
    exact other
  have three : fence.bytes.length = 3 := by decide
  simp only [stripMarkdownJson, starts, no_language, if_true, Bool.false_eq_true, if_false, h,
    ← three, List.drop_left, trimJsonSpace, fence]

theorem strip_bare (raw : CString) (h : ∀ b, raw.bytes.head? = some b → b ≠ 96) :
    stripMarkdownJson raw = ofBytes (trimJsonSpace (cutAt fence.bytes raw.bytes)) := by
  have no_start (t : List UInt8) : (96 :: t).isPrefixOf raw.bytes = false := by
    cases hr : raw.bytes with
    | nil => rfl
    | cons b l =>
        have hb := h b (by rw [hr]; rfl)
        simp [List.isPrefixOf, hb.symm]
  have first : (lit "```json").bytes = 96 :: [96, 96, 106, 115, 111, 110] := by decide
  have second : (lit "```").bytes = 96 :: [96, 96] := by decide
  simp only [stripMarkdownJson, startsWith, first, second, no_start, Bool.false_eq_true, if_false,
    trimJsonSpace, fence]

/-- The contents of a fence, with or without the language after it. -/
theorem strip_fenced (h : JsonText.Object s.bytes) (language : Bool) (before : Blank) (raw : CString)
    (opened : raw.bytes = (if language then lit "```json" else fence).bytes ++
      (before.text.bytes ++ (s.bytes ++ rest))) :
    stripMarkdownJson raw = ofBytes (trimJsonSpace (cutAt fence.bytes
      ((before.text.bytes ++ (s.bytes ++ rest)).dropWhile isLineBreak))) := by
  cases language with
  | true => exact strip_language raw opened
  | false =>
      refine strip_fence raw opened fun named => ?_
      -- what follows the fence starts with a blank or with the brace, not with a letter
      have json : (lit "json").bytes = 106 :: [115, 111, 110] := by decide
      obtain ⟨inner, object⟩ := h.braces
      rw [json, object] at named
      cases hb : before.text.bytes with
      | nil =>
          rw [hb] at named
          exact absurd (List.cons_prefix_cons.mp named).1 (by decide)
      | cons b l =>
          rw [hb] at named
          have blank := before.blank b (by rw [hb]; exact List.mem_cons_self)
          rw [← (List.cons_prefix_cons.mp named).1] at blank
          exact absurd blank (by decide)

/-- A blank before the fence hides it from the tests at the start, and the cut
at the fence leaves nothing. -/
theorem strip_hidden (outer : Blank) (raw : CString) (nonempty : outer.text ≠ .empty)
    (h : raw.bytes = outer.text.bytes ++ (fence.bytes ++ rest)) :
    stripMarkdownJson raw = .empty := by
  have blank_first (b : UInt8) (hb : raw.bytes.head? = some b) : b ≠ 96 := by
    cases ho : outer.text.bytes with
    | nil => exact absurd (CString.ext ho) nonempty
    | cons c l =>
        have blank := outer.blank c (by rw [ho]; exact List.mem_cons_self)
        rw [h, ho, List.cons_append, List.head?_cons, Option.some.injEq] at hb
        subst hb
        rintro rfl
        exact absurd blank (by decide)
  have trimmed := length_trimJsonSpace_le outer []
  rw [strip_bare raw blank_first, h, cutAt_blank, cutAt_fence, List.eq_nil_of_length_eq_zero
    (Nat.le_zero.mp trimmed)]
  rfl

theorem bare_starts (h : JsonText.Object s.bytes) (before : Blank) (rest : List UInt8) :
    ∀ b, (before.text.bytes ++ (s.bytes ++ rest)).head? = some b → b ≠ 96 := by
  obtain ⟨inner, object⟩ := h.braces
  intro b hb
  cases hl : before.text.bytes with
  | nil =>
      rw [hl, object, List.nil_append, List.cons_append, List.head?_cons, Option.some.injEq] at hb
      subst hb
      decide
  | cons c l =>
      have blank := before.blank c (by rw [hl]; exact List.mem_cons_self)
      rw [hl, List.cons_append, List.head?_cons, Option.some.injEq] at hb
      subst hb
      rintro rfl
      exact absurd blank (by decide)

/-- A text before the opening fence hides the object. -/
theorem strip_wrap_hidden (s : CString) (language : Bool) {outer : Blank}
    (before after last : Blank) (some_before : outer.text ≠ .empty) :
    stripMarkdownJson (Wrapping.wrap s (.fenced language outer before after last)) = .empty := by
  have raw_eq : (Wrapping.wrap s (.fenced language outer before after last)).bytes
      = outer.text.bytes ++ ((if language then lit "```json" else fence).bytes ++
        (before.text.bytes ++ (s.bytes ++ (after.text.bytes ++
          (fence.bytes ++ last.text.bytes))))) := by
    simp [Wrapping.wrap]
  cases language with
  | false => exact strip_hidden outer _ some_before raw_eq
  | true =>
      have split : (lit "```json").bytes = fence.bytes ++ (lit "json").bytes := by decide
      rw [if_pos rfl, split, List.append_assoc] at raw_eq
      exact strip_hidden outer _ some_before raw_eq

/-- The object comes back whole exactly if no string in it holds a fence and
nothing stands before the opening fence. -/
theorem stripMarkdownJson_wrap_iff (s : CString) (h : JsonText.Object s.bytes) (w : Wrapping) :
    stripMarkdownJson (w.wrap s) = s ↔ ¬ fence.bytes <:+: s.bytes ∧ w.StartsAtOnce := by
  cases w with
  | bare before after =>
      have raw_eq : (Wrapping.wrap s (.bare before after)).bytes
          = before.text.bytes ++ (s.bytes ++ after.text.bytes) := by
        simp [Wrapping.wrap]
      have nothing_after : cutAt fence.bytes [] = [] := rfl
      have contents := trim_cutAt_iff h before after nothing_after
      rw [List.append_nil, ← raw_eq] at contents
      rw [strip_bare _ (raw_eq ▸ bare_starts h before after.text.bytes), contents]
      exact (and_iff_left trivial).symm
  | fenced language outer before after last =>
      by_cases none_before : outer.text = .empty
      · have raw_eq : (Wrapping.wrap s (.fenced language outer before after last)).bytes
            = (if language then lit "```json" else fence).bytes ++ (before.text.bytes ++
              (s.bytes ++ (after.text.bytes ++ (fence.bytes ++ last.text.bytes)))) := by
          simp [Wrapping.wrap, none_before]
        obtain ⟨before', dropped⟩ := dropWhile_isLineBreak before h
          (after.text.bytes ++ (fence.bytes ++ last.text.bytes))
        rw [strip_fenced h language before _ raw_eq, dropped,
          trim_cutAt_iff h before' after (cutAt_fence _)]
        exact (and_iff_left none_before).symm
      · obtain ⟨inner, object⟩ := h.braces
        rw [strip_wrap_hidden s language before after last none_before]
        constructor
        · rintro rfl
          exact absurd object (by simp)
        · intro kept
          exact absurd kept.2 none_before

def noBlank : Blank := ⟨.empty, fun _ h => absurd h List.not_mem_nil⟩

/-- A blank of one line break. -/
def lineBreak : Blank where
  text := lit "\n"
  blank b hb := by
    have one : (lit "\n").bytes = [10] := by decide
    rw [one, List.mem_singleton] at hb
    subst hb
    decide

theorem stripMarkdownJson_wrap_fenced :
    JsonText.Object (lit "\x7b\x7d").bytes ∧
      (stripMarkdownJson ((Wrapping.fenced true noBlank lineBreak lineBreak
        lineBreak).wrap (lit "\x7b\x7d")) = lit "\x7b\x7d" ↔
      ¬ fence.bytes <:+: (lit "\x7b\x7d").bytes ∧
        (Wrapping.fenced true noBlank lineBreak lineBreak lineBreak).StartsAtOnce) :=
  have object : JsonText.Object (lit "\x7b\x7d").bytes := JsonText.Object.empty JsonText.space_nil
  ⟨object, stripMarkdownJson_wrap_iff _ object _⟩

/-- An object whose only member is the text of a fence. -/
def fencePayload : CString := lit "\x7b\"a\":\"```\"\x7d"

theorem fencePayload_object : JsonText.Object fencePayload.bytes := by
  have plain (b : UInt8) (hb : 32 ≤ b ∧ b ≠ 34 ∧ b ≠ 92) {l : List UInt8}
      (hl : JsonText.Chars l) : JsonText.Chars (b :: l) := .plain hb hl
  have key : JsonText.Quoted [34, 97, 34] := .mk (plain 97 (by decide) .nil)
  have value : JsonText.Quoted [34, 96, 96, 96, 34] :=
    .mk (plain 96 (by decide) (plain 96 (by decide) (plain 96 (by decide) .nil)))
  have member := JsonText.Members.one JsonText.space_nil key JsonText.space_nil JsonText.space_nil
    (.string value) JsonText.space_nil
  exact JsonText.Object.members member

/-- Bare, with no whitespace at all, and still cut inside its string. -/
theorem stripMarkdownJson_cuts_payload :
    JsonText.Object fencePayload.bytes ∧
      stripMarkdownJson ((Wrapping.bare noBlank noBlank).wrap fencePayload)
        = lit "\x7b\"a\":\"" ∧
      stripMarkdownJson ((Wrapping.bare noBlank noBlank).wrap fencePayload)
        ≠ fencePayload :=
  ⟨fencePayload_object, by decide +kernel, by decide +kernel⟩

end Strip

end Kaufbot
