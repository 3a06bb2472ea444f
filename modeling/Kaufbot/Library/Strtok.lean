import Kaufbot.Library.Printf
import Mathlib.Data.List.Forall2

/-!
Splitting at a separator: the non-empty pieces of a list, what cutting the list
short does to them, and `strtok_r`, which hands them out one by one. Then what
`strtoll` makes of a text that starts with a number.
-/

section Pieces
variable {α : Type} [DecidableEq α] {sep : α} {l l' : List α}

/-- The non-empty stretches between the separators. -/
def pieces (sep : α) (l : List α) : List (List α) := (l.splitOn sep).filter (· ≠ [])

@[simp] theorem pieces_nil : pieces sep [] = [] := by simp [pieces]

theorem pieces_sep (sep : α) (l : List α) : pieces sep (sep :: l) = pieces sep l := by
  simp [pieces, List.splitOn_eq_splitOnP, List.splitOnP_cons_eq_if_modifyHead]

theorem pieces_dropWhile (sep : α) (l : List α) :
    pieces sep (l.dropWhile (· == sep)) = pieces sep l := by
  induction l with
  | nil => rfl
  | cons a l ih =>
      by_cases ha : a = sep
      · rw [ha, pieces_sep, List.dropWhile_cons_of_pos (by simp), ih]
      · rw [List.dropWhile_cons_of_neg (by simpa using ha)]

/-- The first piece is up to the first separator or the end. -/
theorem pieces_of_head {a : α} (ha : a ≠ sep) (l : List α) :
    pieces sep (a :: l) = (a :: l).takeWhile (· != sep) ::
      pieces sep (((a :: l).dropWhile (· != sep)).drop 1) := by
  have split := List.takeWhile_append_dropWhile (p := (· != sep)) (l := a :: l)
  have first : (a :: l).takeWhile (· != sep) ≠ [] := by simp [ha]
  have apart : ∀ b ∈ (a :: l).takeWhile (· != sep), (b == sep) = false := by
    intro b hb
    simpa using List.mem_takeWhile_imp hb
  cases hd : (a :: l).dropWhile (· != sep) with
  | nil =>
      rw [hd, List.append_nil] at split
      rw [split] at apart first ⊢
      simp [pieces, List.splitOn_eq_splitOnP, List.splitOnP_eq_singleton apart]
  | cons b rest =>
      have hb : (b == sep) = true := by
        have stopped := List.head?_dropWhile_not (· != sep) (a :: l)
        simpa [hd] using stopped
      rw [hd] at split
      have first_split : pieces sep (a :: l)
          = (a :: l).takeWhile (· != sep) :: pieces sep rest := by
        conv_lhs => rw [← split]
        rw [pieces, List.splitOn_eq_splitOnP,
          List.splitOnP_append_cons_of_forall_mem apart b hb rest,
          List.filter_cons_of_pos (by simpa using first)]
        rfl
      exact first_split

/-- The pieces of a beginning of a list are its first pieces, the last of them perhaps cut. -/
theorem splitOn_prefix (sep : α) (h : l' <+: l) :
    ∃ whole last full rest, l'.splitOn sep = whole ++ [last] ∧
      l.splitOn sep = whole ++ full :: rest ∧ last <+: full := by
  induction l' generalizing l with
  | nil =>
      obtain ⟨full, rest, split⟩ := List.exists_cons_of_ne_nil (l := l.splitOn sep)
        (by simp [List.splitOn_eq_splitOnP])
      exact ⟨[], [], full, rest, by simp, split, List.nil_prefix⟩
  | cons a l' ih =>
      obtain ⟨tail, rfl⟩ := h
      obtain ⟨whole, last, full, rest, short, long, cut⟩ := ih (List.prefix_append l' tail)
      simp only [List.splitOn_eq_splitOnP, List.cons_append,
        List.splitOnP_cons_eq_if_modifyHead] at short long ⊢
      by_cases ha : a = sep
      · exact ⟨[] :: whole, last, full, rest, by simp [ha, short], by simp [ha, long], cut⟩
      · cases whole with
        | nil =>
            exact ⟨[], a :: last, a :: full, rest, by simp [ha, short], by simp [ha, long],
              (List.prefix_cons_inj a).mpr cut⟩
        | cons first whole =>
            exact ⟨(a :: first) :: whole, last, full, rest, by simp [ha, short],
              by simp [ha, long], cut⟩

theorem pieces_prefix (sep : α) (h : l' <+: l) :
    ∃ full rest, pieces sep l = full ++ rest ∧ List.Forall₂ (· <+: ·) (pieces sep l') full := by
  obtain ⟨whole, last, full, rest, short, long, cut⟩ := splitOn_prefix sep h
  have same : List.Forall₂ (· <+: ·) (whole.filter (· ≠ [])) (whole.filter (· ≠ [])) :=
    List.forall₂_same.mpr fun piece _ => List.prefix_refl piece
  simp only [pieces, short, long, List.filter_append]
  by_cases empty : last = []
  · exact ⟨whole.filter (· ≠ []), _, rfl, by simp [empty]⟩
  · have full_ne : full ≠ [] := fun hf => empty (List.prefix_nil.mp (hf ▸ cut))
    refine ⟨whole.filter (· ≠ []) ++ [full], rest.filter (· ≠ []), by simp [full_ne], ?_⟩
    have both := List.rel_append same (.cons cut .nil)
    simpa [empty] using both

end Pieces

namespace CString

section Strtok
variable {s token rest : CString} {c : UInt8}

/-- `strtok_r` with one delimiter: the next token and what is left for the next call. -/
def strtokR (c : UInt8) (s : CString) : Option (CString × CString) :=
  let start := s.skip c
  if start.bytes.isEmpty then none
  else
    some (⟨start.bytes.takeWhile (· != c),
        fun h => start.nulFree ((List.takeWhile_prefix _).subset h)⟩,
      ⟨(start.bytes.dropWhile (· != c)).drop 1,
        fun h => start.nulFree ((List.dropWhile_suffix _).subset (List.mem_of_mem_drop h))⟩)

theorem strtokR_none (h : strtokR c s = none) : pieces c s.bytes = [] := by
  have skipped : (s.skip c).bytes = [] := by
    by_contra hne
    simp [strtokR, hne] at h
  rw [← pieces_dropWhile]
  exact (congrArg (pieces c) skipped).trans pieces_nil

theorem strtokR_some (h : strtokR c s = some (token, rest)) :
    pieces c s.bytes = token.bytes :: pieces c rest.bytes := by
  have skipped : (s.skip c).bytes ≠ [] := by
    intro hnil
    simp [strtokR, hnil] at h
  obtain ⟨a, l, hal⟩ := List.exists_cons_of_ne_nil skipped
  have ha : a ≠ c := by
    have cons : s.bytes.dropWhile (· == c) = a :: l := hal
    have stopped := List.head?_dropWhile_not (· == c) s.bytes
    simpa [cons] using stopped
  simp only [strtokR, hal, List.isEmpty_cons, Bool.false_eq_true, if_false, Option.some.injEq,
    Prod.mk.injEq] at h
  obtain ⟨rfl, rfl⟩ := h
  rw [← pieces_dropWhile]
  exact (congrArg (pieces c) hal).trans (pieces_of_head ha l)

theorem length_lt_of_strtokR (h : strtokR c s = some (token, rest)) : rest.length < s.length := by
  have skipped : (s.skip c).bytes ≠ [] := by
    intro hnil
    simp [strtokR, hnil] at h
  obtain ⟨a, l, hal⟩ := List.exists_cons_of_ne_nil skipped
  simp only [strtokR, hal, List.isEmpty_cons, Bool.false_eq_true, if_false, Option.some.injEq,
    Prod.mk.injEq] at h
  obtain ⟨-, rfl⟩ := h
  have start : (a :: l).length ≤ s.bytes.length := hal ▸ (List.dropWhile_suffix _).length_le
  have tail : ((a :: l).dropWhile (· != c)).length ≤ (a :: l).length :=
    (List.dropWhile_suffix _).length_le
  simp only [length, List.length_drop, List.length_cons] at start tail ⊢
  omega

end Strtok

section Number
variable {s : CString} {l space sign digits rest : List UInt8}

def digitsValue (digits : List UInt8) : Nat := digits.foldl (fun acc b => acc * 10 + (b.toNat - 48)) 0

def signedValue (sign : List UInt8) (n : Nat) : Int := if sign = [45] then -n else n

/-- The text `l` starts with a decimal number, after whitespace. -/
structure Number (l space sign digits rest : List UInt8) : Prop where
  text : l = space ++ (sign ++ (digits ++ rest))
  blank : ∀ b ∈ space, isSpace b = true
  signed : sign = [] ∨ sign = [43] ∨ sign = [45]
  digit : ∀ b ∈ digits, IsDigit b
  nonempty : digits ≠ []
  ends : ∀ b, rest.head? = some b → ¬ IsDigit b

theorem Number.head (h : Number l space sign digits rest) :
    ∃ d ds, digits = d :: ds ∧ IsDigit d := by
  obtain ⟨d, ds, rfl⟩ := List.exists_cons_of_ne_nil h.nonempty
  exact ⟨d, ds, rfl, h.digit d List.mem_cons_self⟩

theorem Number.trimmed (h : Number l space sign digits rest) :
    l.dropWhile isSpace = sign ++ (digits ++ rest) := by
  obtain ⟨d, ds, cons, hd⟩ := h.head
  rw [h.text, List.dropWhile_append_of_pos h.blank]
  rcases h.signed with rfl | rfl | rfl
  · rw [cons, List.nil_append, List.cons_append,
      List.dropWhile_cons_of_neg (by simp [not_isSpace_of_isDigit hd])]
  · rfl
  · rfl

theorem Number.takeWhile (h : Number l space sign digits rest) :
    (digits ++ rest).takeWhile (fun b => decide (IsDigit b)) = digits := by
  rw [List.takeWhile_append_of_pos fun b hb => decide_eq_true (h.digit b hb)]
  cases hr : rest with
  | nil => simp
  | cons b rest =>
      have stop := h.ends b (by rw [hr]; rfl)
      rw [List.takeWhile_cons_of_neg (by simpa using stop), List.append_nil]

theorem strtoll_number (h : Number s.bytes space sign digits rest) :
    strtoll s = (max (-(2 ^ 63)) (min (signedValue sign (digitsValue digits)) (2 ^ 63 - 1)), rest) := by
  obtain ⟨d, ds, cons, hd⟩ := h.head
  have not_sign : d ≠ 45 ∧ d ≠ 43 := by
    constructor <;> (rintro rfl; exact absurd hd (by decide))
  have first : (digits ++ rest).head? = some d := by simp [cons]
  simp only [strtoll, h.trimmed]
  rcases h.signed with rfl | rfl | rfl
  · simp [first, not_sign, h.takeWhile, h.nonempty, signedValue, digitsValue]
  · simp [h.takeWhile, h.nonempty, signedValue, digitsValue]
  · simp [h.takeWhile, h.nonempty, signedValue, digitsValue]

/-- `end` is moved exactly by the texts that start with a number. -/
theorem strtoll_end_iff :
    (strtoll s).2 ≠ s.bytes ↔ ∃ space sign digits rest, Number s.bytes space sign digits rest := by
  constructor
  · intro moved
    have space_split := List.takeWhile_append_dropWhile (p := isSpace) (l := s.bytes)
    have blank : ∀ b ∈ s.bytes.takeWhile isSpace, isSpace b = true :=
      fun b hb => List.mem_takeWhile_imp hb
    -- the three ways the text can go on after the whitespace
    have number (sign unsigned : List UInt8) (signed : sign = [] ∨ sign = [43] ∨ sign = [45])
        (text : s.bytes.dropWhile isSpace = sign ++ unsigned)
        (nonempty : unsigned.takeWhile (fun b => decide (IsDigit b)) ≠ []) :
        ∃ space sign digits rest, Number s.bytes space sign digits rest := by
      refine ⟨_, sign, unsigned.takeWhile (fun b => decide (IsDigit b)),
        unsigned.dropWhile (fun b => decide (IsDigit b)), ?_, blank, signed, ?_, nonempty, ?_⟩
      · rw [List.takeWhile_append_dropWhile, ← text, space_split]
      · intro b hb
        simpa using List.mem_takeWhile_imp hb
      · intro b hb
        have stopped := List.head?_dropWhile_not (fun b => decide (IsDigit b)) unsigned
        rw [hb] at stopped
        simpa using stopped
    by_cases minus : (s.bytes.dropWhile isSpace).head? = some 45
    · obtain ⟨tail, cons⟩ := List.head?_eq_some_iff.mp minus
      refine number [45] tail (.inr (.inr rfl)) cons fun none => moved ?_
      simp [strtoll, cons, none]
    · by_cases plus : (s.bytes.dropWhile isSpace).head? = some 43
      · obtain ⟨tail, cons⟩ := List.head?_eq_some_iff.mp plus
        refine number [43] tail (.inr (.inl rfl)) cons fun none => moved ?_
        simp [strtoll, cons, none]
      · refine number [] _ (.inl rfl) rfl fun none => moved ?_
        simp [strtoll, minus, plus, none]
  · rintro ⟨space, sign, digits, rest, h⟩ still
    rw [strtoll_number h] at still
    have shorter := congrArg List.length (still.trans h.text)
    have some := List.length_pos_iff.mpr h.nonempty
    simp only [List.length_append] at shorter
    omega

/-- With more text behind it the number is the same, or goes on where the text ended. -/
theorem Number.extend (h : Number l space sign digits rest) (tail : List UInt8) :
    ∃ more rest', Number (l ++ tail) space sign (digits ++ more) rest' ∧
      rest ++ tail = more ++ rest' ∧ (rest = [] ∨ more = []) := by
  cases rest with
  | nil =>
      have split := List.takeWhile_append_dropWhile (p := fun b => decide (IsDigit b)) (l := tail)
      refine ⟨_, _, ⟨?_, h.blank, h.signed, ?_, ?_, ?_⟩, split.symm, .inl rfl⟩
      · simp only [h.text, List.append_nil, List.append_assoc, split]
      · intro b hb
        rcases List.mem_append.mp hb with hb | hb
        · exact h.digit b hb
        · simpa using List.mem_takeWhile_imp hb
      · exact List.append_ne_nil_of_left_ne_nil h.nonempty _
      · intro b hb
        have stopped := List.head?_dropWhile_not (fun b => decide (IsDigit b)) tail
        rw [hb] at stopped
        simpa using stopped
  | cons b rest =>
      refine ⟨[], b :: rest ++ tail, ⟨?_, h.blank, h.signed, ?_, ?_, ?_⟩, rfl, .inr rfl⟩
      · simp only [h.text, List.append_nil, List.append_assoc]
      · simpa using h.digit
      · simpa using h.nonempty
      · exact h.ends

/-- The first character after the whitespace says what the sign is. -/
theorem Number.sign_eq (h : Number l space sign digits rest) :
    sign = ((l.dropWhile isSpace).take 1).filter (fun b => b = 43 ∨ b = 45) := by
  obtain ⟨d, ds, cons, hd⟩ := h.head
  have not_sign : d ≠ 43 ∧ d ≠ 45 := by
    constructor <;> (rintro rfl; exact absurd hd (by decide))
  rw [h.trimmed]
  rcases h.signed with rfl | rfl | rfl
  · simp [cons, not_sign]
  · simp
  · simp

/-- There is one way to read a number off the start of a text. -/
theorem Number.unique {space' sign' digits' rest' : List UInt8}
    (h : Number l space sign digits rest) (h' : Number l space' sign' digits' rest') :
    space = space' ∧ sign = sign' ∧ digits = digits' ∧ rest = rest' := by
  have same := h.trimmed.symm.trans h'.trimmed
  have spaces : space = space' := by
    have both := h.text.symm.trans h'.text
    rw [same] at both
    exact List.append_cancel_right both
  have signs : sign = sign' := h.sign_eq.trans h'.sign_eq.symm
  rw [signs] at same
  have tails := List.append_cancel_left same
  have numbers : digits = digits' := by rw [← h.takeWhile, tails, h'.takeWhile]
  rw [numbers] at tails
  exact ⟨spaces, signs, numbers, List.append_cancel_left tails⟩

theorem digitsValue_append_le (digits more : List UInt8) :
    digitsValue digits ≤ digitsValue (digits ++ more) := by
  rw [digitsValue, digitsValue, List.foldl_append]
  generalize List.foldl (fun acc (b : UInt8) => acc * 10 + (b.toNat - 48)) 0 digits = n
  induction more generalizing n with
  | nil => exact Nat.le_refl n
  | cons b more ih => exact (show n ≤ n * 10 + (b.toNat - 48) by omega).trans (ih _)

/-- Skipping blanks before the number changes nothing. -/
theorem number_skip :
    (∃ space, Number (s.skip 32).bytes space sign digits rest) ↔
      ∃ space, Number s.bytes space sign digits rest := by
  have dropped := List.takeWhile_append_dropWhile (p := (· == (32 : UInt8))) (l := s.bytes)
  constructor
  · rintro ⟨space, h⟩
    refine ⟨s.bytes.takeWhile (· == 32) ++ space, ?_, ?_, h.signed, h.digit, h.nonempty, h.ends⟩
    · have tail : s.bytes.dropWhile (· == 32) = space ++ (sign ++ (digits ++ rest)) := h.text
      rw [tail] at dropped
      rw [List.append_assoc, dropped]
    · intro b hb
      rcases List.mem_append.mp hb with hb | hb
      · have hb : b = 32 := by simpa using List.mem_takeWhile_imp hb
        rw [hb]
        rfl
      · exact h.blank b hb
  · rintro ⟨space, h⟩
    refine ⟨space.dropWhile (· == 32), ?_, ?_, h.signed, h.digit, h.nonempty, h.ends⟩
    · have stop : (sign ++ (digits ++ rest)).dropWhile (· == 32) = sign ++ (digits ++ rest) := by
        obtain ⟨d, ds, cons, hd⟩ := h.head
        have hne : d ≠ 32 := by
          rintro rfl
          exact absurd hd (by decide)
        rcases h.signed with rfl | rfl | rfl
        · rw [cons, List.nil_append, List.cons_append, List.dropWhile_cons_of_neg (by simpa using hne)]
        · rfl
        · rfl
      have text : (s.skip 32).bytes = (space ++ (sign ++ (digits ++ rest))).dropWhile (· == 32) :=
        congrArg (List.dropWhile (· == 32)) h.text
      rw [text, List.dropWhile_append]
      split
      · next none => rw [stop, List.isEmpty_iff.mp none, List.nil_append]
      · rfl
    · exact fun b hb => h.blank b ((List.dropWhile_suffix _).subset hb)

end Number

end CString
