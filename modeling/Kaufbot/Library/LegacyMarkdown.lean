import Mathlib.Data.List.Infix

/-!
Texts with bold, italic and code entities: a mark opens one, and the same mark
closes it. A backslash in front of a mark makes it stand for itself. Between
backticks everything does. Whether marks of another kind open entities inside
bold and italic ones, and whether backslashes escape there, is left open.
-/

namespace LegacyMarkdown

structure Rule where
  /-- Entities open inside bold and italic ones. -/
  nested : Bool
  /-- Backslashes escape inside bold and italic entities. -/
  escapesInside : Bool

def backslash : UInt8 := 92

def asterisk : UInt8 := 42

def underscore : UInt8 := 95

def backtick : UInt8 := 96

def IsMark (b : UInt8) : Prop := b = underscore ∨ b = asterisk ∨ b = backtick

instance : DecidablePred IsMark := fun b =>
  inferInstanceAs (Decidable (b = underscore ∨ b = asterisk ∨ b = backtick))

/-- The byte opens or closes an entity. What is open is given by its marks, innermost first. -/
def Rule.Reads (r : Rule) : List UInt8 → UInt8 → Prop
  | [], b => IsMark b
  | m :: _, b => IsMark b ∧ (b = m ∨ (r.nested = true ∧ m ≠ backtick))

instance (r : Rule) (entities : List UInt8) (b : UInt8) : Decidable (r.Reads entities b) :=
  match entities with
  | [] => inferInstanceAs (Decidable (IsMark b))
  | m :: _ => inferInstanceAs (Decidable (IsMark b ∧ (b = m ∨ (r.nested = true ∧ m ≠ backtick))))

def Rule.Escapes (r : Rule) : List UInt8 → Prop
  | [] => True
  | m :: _ => r.escapesInside = true ∧ m ≠ backtick

instance (r : Rule) (entities : List UInt8) : Decidable (r.Escapes entities) :=
  match entities with
  | [] => .isTrue trivial
  | m :: _ => inferInstanceAs (Decidable (r.escapesInside = true ∧ m ≠ backtick))

/-- What is open after a byte: its own mark closes the innermost entity. -/
def Rule.after (r : Rule) (entities : List UInt8) (b : UInt8) : List UInt8 :=
  if r.Reads entities b then
    match entities with
    | [] => [b]
    | m :: outer => if b = m then outer else b :: m :: outer
  else entities

/-- Which bytes stand for themselves, and what is open at the end. -/
def scan (r : Rule) : List UInt8 → List UInt8 → List Bool × List UInt8
  | entities, [] => ([], entities)
  | entities, [b] => ([decide (¬ r.Reads entities b)], r.after entities b)
  | entities, b :: c :: rest =>
      if b = backslash ∧ IsMark c ∧ r.Escapes entities then
        let later := scan r entities rest
        (false :: true :: later.1, later.2)
      else
        let later := scan r (r.after entities b) (c :: rest)
        (decide (¬ r.Reads entities b) :: later.1, later.2)

/-- The text is literal where `entities` are open and `next` follows it: none of its bytes is a
mark there, and none of its backslashes escapes one. -/
def Plain (r : Rule) (entities text : List UInt8) (next : Option UInt8) : Prop :=
  (∀ b ∈ text, ¬ r.Reads entities b) ∧
    (r.Escapes entities → ∀ c, IsMark c → ¬ [backslash, c] <:+: text ++ next.toList)

/-- No byte of the text opens, closes or escapes anything. -/
def Unmarked (text : List UInt8) : Prop := ∀ b ∈ text, ¬ IsMark b ∧ b ≠ backslash

variable {r : Rule} {entities text rest : List UInt8} {b : UInt8}

theorem Rule.Reads.isMark (h : r.Reads entities b) : IsMark b := by
  cases entities with
  | nil => exact h
  | cons m outer => exact h.1

theorem after_of_not_reads (h : ¬ r.Reads entities b) : r.after entities b = entities := if_neg h

theorem scan_cons (h : ¬ (b = backslash ∧ (∃ c ∈ rest.head?, IsMark c) ∧ r.Escapes entities)) :
    scan r entities (b :: rest) =
      (decide (¬ r.Reads entities b) :: (scan r (r.after entities b) rest).1,
        (scan r (r.after entities b) rest).2) := by
  cases rest with
  | nil => rfl
  | cons c rest => exact if_neg (by simpa using h)

theorem length_scan (r : Rule) (entities text : List UInt8) :
    (scan r entities text).1.length = text.length := by
  fun_induction scan r entities text with
  | case1 | case2 => rfl
  | case3 entities b c rest escape later ih => exact congrArg (· + 2) ih
  | case4 entities b c rest escape later ih => exact congrArg (· + 1) ih

/-- Two texts are read one after the other, unless the first escapes the second's first mark. -/
theorem scan_append (apart : text.getLast? = some backslash → ∀ c ∈ rest.head?, ¬ IsMark c) :
    scan r entities (text ++ rest) =
      ((scan r entities text).1 ++ (scan r (scan r entities text).2 rest).1,
        (scan r (scan r entities text).2 rest).2) := by
  fun_induction scan r entities text with
  | case1 => rfl
  | case2 entities b =>
      refine scan_cons fun escape => ?_
      obtain ⟨rfl, ⟨c, hc, mark⟩, -⟩ := escape
      exact apart rfl c hc mark
  | case3 entities b c text escape later ih =>
      have behind : text.getLast? = some backslash → ∀ c ∈ rest.head?, ¬ IsMark c := by
        intro last
        apply apart
        cases text with
        | nil => cases last
        | cons d text => simpa using last
      have whole : scan r entities (b :: c :: (text ++ rest)) = _ := if_pos escape
      rw [List.cons_append, List.cons_append, whole, ih behind]
      rfl
  | case4 entities b c text escape later ih =>
      have behind : (c :: text).getLast? = some backslash → ∀ c ∈ rest.head?, ¬ IsMark c := by
        intro last
        apply apart
        simpa using last
      have whole : scan r entities (b :: c :: (text ++ rest)) = _ := if_neg escape
      rw [List.cons_append, List.cons_append, whole, ← List.cons_append, ih behind]
      rfl

theorem plain_nil (r : Rule) (entities : List UInt8) (next : Option UInt8) :
    Plain r entities [] next := by
  refine ⟨by simp, fun _ c _ inside => ?_⟩
  have := inside.length_le
  cases next <;> simp at this

theorem plain_cons (next : Option UInt8) :
    Plain r entities (b :: text) next ↔
      (¬ r.Reads entities b ∧
          ¬ (b = backslash ∧ (∃ c ∈ (text ++ next.toList).head?, IsMark c) ∧ r.Escapes entities)) ∧
        Plain r entities text next := by
  have first (c : UInt8) : [backslash, c] <+: b :: (text ++ next.toList) ↔
      backslash = b ∧ c ∈ (text ++ next.toList).head? := by
    rw [List.cons_prefix_cons]
    cases text ++ next.toList with
    | nil => simp
    | cons d rest => simp [eq_comm]
  simp only [Plain, List.forall_mem_cons, List.cons_append, List.infix_cons_iff, first, not_or,
    not_and, forall_and]
  grind

theorem scan_escape {c : UInt8} (mark : IsMark c) (escapes : r.Escapes entities) :
    scan r entities (backslash :: c :: rest) =
      (false :: true :: (scan r entities rest).1, (scan r entities rest).2) :=
  if_pos ⟨rfl, mark, escapes⟩

theorem head?_append_head? (text rest : List UInt8) :
    (text ++ rest.head?.toList).head? = (text ++ rest).head? := by
  cases text with
  | nil => cases rest <;> rfl
  | cons b text => rfl

/-- The text is plain exactly if all its bytes stand for themselves. -/
theorem plain_iff (r : Rule) (entities text rest : List UInt8) :
    Plain r entities text rest.head? ↔
      ∀ own ∈ (scan r entities (text ++ rest)).1.take text.length, own = true := by
  induction text with
  | nil => exact iff_of_true (plain_nil _ _ _) (by simp)
  | cons b text ih =>
      rw [plain_cons, head?_append_head?]
      by_cases escape : b = backslash ∧ (∃ c ∈ (text ++ rest).head?, IsMark c) ∧ r.Escapes entities
      · refine iff_of_false (fun plain => plain.1.2 escape) fun own => ?_
        obtain ⟨rfl, ⟨c, hc, mark⟩, escapes⟩ := escape
        obtain ⟨later, behind⟩ := List.head?_eq_some_iff.mp hc
        rw [List.cons_append, behind, scan_escape mark escapes] at own
        exact absurd (own false (by simp)) (by decide)
      · rw [List.cons_append, scan_cons escape, List.length_cons, List.take_succ_cons,
          List.forall_mem_cons, decide_eq_true_iff]
        by_cases reads : r.Reads entities b
        · exact iff_of_false (fun plain => plain.1.1 reads) fun own => own.1 reads
        · rw [after_of_not_reads reads, ih, and_iff_left escape]

/-- Plain text leaves open what is open. -/
theorem Plain.scan (plain : Plain r entities text rest.head?) :
    scan r entities (text ++ rest) =
      (List.replicate text.length true ++ (scan r entities rest).1, (scan r entities rest).2) := by
  induction text with
  | nil => rfl
  | cons b text ih =>
      rw [plain_cons, head?_append_head?] at plain
      obtain ⟨⟨reads, escape⟩, later⟩ := plain
      rw [List.cons_append, scan_cons escape, after_of_not_reads reads, ih later,
        decide_eq_true reads]
      rfl

theorem unmarked_of_all (h : text.all (fun b => decide (¬ IsMark b ∧ b ≠ backslash)) = true) :
    Unmarked text := by
  rw [List.all_eq_true] at h
  exact fun b hb => of_decide_eq_true (h b hb)

theorem Unmarked.noBackslash (h : Unmarked text) : backslash ∉ text := fun own => (h _ own).2 rfl

theorem plain_of_unmarked (h : Unmarked text) (r : Rule)
    (entities : List UInt8) (next : Option UInt8) : Plain r entities text next := by
  induction text with
  | nil => exact plain_nil ..
  | cons b text ih =>
      obtain ⟨⟨unmarked, other⟩, later⟩ := List.forall_mem_cons.mp h
      exact plain_cons next |>.mpr ⟨⟨fun reads => unmarked reads.isMark, fun escape => other escape.1⟩,
        ih later⟩

theorem scan_unmarked (h : Unmarked text) (r : Rule)
    (entities : List UInt8) : (scan r entities text).2 = entities := by
  have plain : Plain r entities text ([] : List UInt8).head? := plain_of_unmarked h ..
  have whole := plain.scan
  rw [List.append_nil] at whole
  rw [whole]
  rfl

/-- Without backslashes the marks alone say what is open at the end. -/
theorem scan_eq_foldl (h : backslash ∉ text) (r : Rule) (entities : List UInt8) :
    (scan r entities text).2 = (text.filter fun b => decide (IsMark b)).foldl r.after entities := by
  induction text generalizing entities with
  | nil => rfl
  | cons b text ih =>
      obtain ⟨first, later⟩ := not_or.mp (mt List.mem_cons.mpr h)
      rw [scan_cons fun escape => first escape.1.symm, ih later]
      by_cases mark : IsMark b
      · rw [List.filter_cons, if_pos (decide_eq_true mark), List.foldl_cons]
      · rw [List.filter_cons, if_neg (by simpa using mark),
          after_of_not_reads fun reads => mark reads.isMark]

/-- Where nothing is open, text without marks is plain. -/
theorem plain_closed_iff {next : UInt8} (h : ¬ IsMark next) :
    Plain r [] text (some next) ↔ ∀ b ∈ text, ¬ IsMark b := by
  constructor
  · exact fun plain b hb mark => plain.1 b hb mark
  · intro unmarked
    refine ⟨fun b hb reads => unmarked b hb reads.isMark, fun _ c mark inside => ?_⟩
    rcases List.mem_append.mp (inside.subset (List.mem_cons_of_mem _ (List.mem_singleton_self c)))
      with own | behind
    · exact unmarked c own mark
    · obtain rfl : c = next := by simpa using behind
      exact h mark

/-- In code only a backtick is no plain text. -/
theorem plain_code_iff (next : Option UInt8) :
    Plain r [backtick] text next ↔ backtick ∉ text := by
  constructor
  · exact fun plain own => plain.1 backtick own ⟨by decide, .inl rfl⟩
  · intro absent
    refine ⟨fun b hb reads => ?_, fun escapes => absurd rfl escapes.2⟩
    rcases reads.2 with rfl | nested
    · exact absent hb
    · exact nested.2 rfl

end LegacyMarkdown
