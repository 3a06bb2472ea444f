import Mathlib.Data.List.Basic
import Mathlib.Data.Rat.Defs

/-!
The texts of RFC 8259: which byte strings are JSON values and objects. Nothing
is parsed here and no tree is built; a text is what the grammar derives. Bytes
above 127 are accepted in strings whether or not they are UTF-8.
-/

namespace JsonText

def isSpace (b : UInt8) : Bool := b == 32 || b == 9 || b == 10 || b == 13

def isDigit (b : UInt8) : Bool := 48 ≤ b && b ≤ 57

def isHexDigit (b : UInt8) : Bool := isDigit b || (65 ≤ b && b ≤ 70) || (97 ≤ b && b ≤ 102)

/-- The characters that may follow a backslash alone. -/
def escapes : List UInt8 := [34, 92, 47, 98, 102, 110, 114, 116]

def Space (l : List UInt8) : Prop := ∀ b ∈ l, isSpace b = true

def Digits (l : List UInt8) : Prop := l ≠ [] ∧ ∀ b ∈ l, isDigit b = true

inductive Integer : List UInt8 → Prop where
  | zero : Integer [48]
  | digits {d : UInt8} {ds : List UInt8} (lead : 49 ≤ d ∧ d ≤ 57)
      (rest : ∀ b ∈ ds, isDigit b = true) : Integer (d :: ds)

inductive Fraction : List UInt8 → Prop where
  | none : Fraction []
  | some {ds : List UInt8} (digits : Digits ds) : Fraction (46 :: ds)

inductive Exponent : List UInt8 → Prop where
  | none : Exponent []
  | some {e : UInt8} {sign ds : List UInt8} (mark : e = 69 ∨ e = 101)
      (signed : sign = [] ∨ sign = [43] ∨ sign = [45]) (digits : Digits ds) :
      Exponent (e :: (sign ++ ds))

inductive Number : List UInt8 → Prop where
  | mk {sign int frac exp : List UInt8} (signed : sign = [] ∨ sign = [45])
      (integer : Integer int) (fraction : Fraction frac) (exponent : Exponent exp) :
      Number (sign ++ int ++ frac ++ exp)

/-- The characters between the quotes of a string. -/
inductive Chars : List UInt8 → Prop where
  | nil : Chars []
  | plain {b : UInt8} {l : List UInt8} (printable : 32 ≤ b ∧ b ≠ 34 ∧ b ≠ 92) (rest : Chars l) :
      Chars (b :: l)
  | escaped {b : UInt8} {l : List UInt8} (escape : b ∈ escapes) (rest : Chars l) :
      Chars (92 :: b :: l)
  | unicode {code l : List UInt8} (four : code.length = 4)
      (hex : ∀ b ∈ code, isHexDigit b = true) (rest : Chars l) : Chars (92 :: 117 :: (code ++ l))

inductive Quoted : List UInt8 → Prop where
  | mk {chars : List UInt8} (inside : Chars chars) : Quoted (34 :: (chars ++ [34]))

mutual

inductive Value : List UInt8 → Prop where
  | null : Value [110, 117, 108, 108]
  | true : Value [116, 114, 117, 101]
  | false : Value [102, 97, 108, 115, 101]
  | number {sign int frac exp : List UInt8} (signed : sign = [] ∨ sign = [45])
      (integer : Integer int) (fraction : Fraction frac) (exponent : Exponent exp) :
      Value (sign ++ int ++ frac ++ exp)
  | string {l : List UInt8} (quoted : Quoted l) : Value l
  | emptyArray {w : List UInt8} (space : Space w) : Value (91 :: (w ++ [93]))
  | array {l : List UInt8} (elements : Elements l) : Value (91 :: (l ++ [93]))
  | object {l : List UInt8} (object : Object l) : Value l

/-- One or more values with commas between them, and space around each. -/
inductive Elements : List UInt8 → Prop where
  | one {w v w' : List UInt8} (before : Space w) (value : Value v) (after : Space w') :
      Elements (w ++ v ++ w')
  | more {w v w' rest : List UInt8} (before : Space w) (value : Value v) (after : Space w')
      (later : Elements rest) : Elements (w ++ v ++ w' ++ 44 :: rest)

inductive Object : List UInt8 → Prop where
  | empty {w : List UInt8} (space : Space w) : Object (123 :: (w ++ [125]))
  | members {l : List UInt8} (members : Members l) : Object (123 :: (l ++ [125]))

/-- One or more members with commas between them, and space around each part. -/
inductive Members : List UInt8 → Prop where
  | one {w k w' x v x' : List UInt8} (before : Space w) (key : Quoted k) (after : Space w')
      (before' : Space x) (value : Value v) (after' : Space x') :
      Members (w ++ k ++ w' ++ 58 :: (x ++ v ++ x'))
  | more {w k w' x v x' rest : List UInt8} (before : Space w) (key : Quoted k) (after : Space w')
      (before' : Space x) (value : Value v) (after' : Space x') (later : Members rest) :
      Members (w ++ k ++ w' ++ 58 :: (x ++ v ++ x') ++ 44 :: rest)

end

/-- The escapes of one letter, and the characters they stand for. -/
def letters : List (UInt8 × UInt8) :=
  [(34, 34), (92, 92), (47, 47), (98, 8), (102, 12), (110, 10), (114, 13), (116, 9)]

def digitValue (b : UInt8) : Nat :=
  if isDigit b then b.toNat - 48 else if b ≤ 70 then b.toNat - 55 else b.toNat - 87

/-- The number that the digits of a text are, whatever stands between them. -/
def natural (l : List UInt8) : Nat :=
  (l.filter isDigit).foldl (fun n b => 10 * n + digitValue b) 0

/-- The texts of numbers and the numbers they are: an integer and a fraction times a power
of ten. -/
inductive Decimal : List UInt8 → Rat → Prop where
  | mk {sign int frac exp : List UInt8} (signed : sign = [] ∨ sign = [45])
      (integer : Integer int) (fraction : Fraction frac) (exponent : Exponent exp) :
      Decimal (sign ++ int ++ frac ++ exp)
        ((if sign = [45] then -1 else 1) *
          (natural int + natural frac / 10 ^ (frac.length - 1)) *
          10 ^ (if 45 ∈ exp then -(natural exp : Int) else natural exp))

/-- Four hexadecimal digits, and the UTF-16 code unit they are. -/
structure CodeUnit (code : List UInt8) (unit : Nat) : Prop where
  four : code.length = 4
  hex : ∀ b ∈ code, isHexDigit b = true
  value : code.foldl (fun n b => 16 * n + digitValue b) 0 = unit

/-- What the characters between the quotes stand for, in UTF-8. A surrogate without its
other half stands for nothing. -/
inductive Stands : List UInt8 → List UInt8 → Prop where
  | nil : Stands [] []
  | plain {b : UInt8} {l m : List UInt8} (printable : 32 ≤ b ∧ b ≠ 34 ∧ b ≠ 92)
      (rest : Stands l m) : Stands (b :: l) (b :: m)
  | letter {b c : UInt8} {l m : List UInt8} (letter : (b, c) ∈ letters) (rest : Stands l m) :
      Stands (92 :: b :: l) (c :: m)
  | unicode {code l m : List UInt8} {c : Char} (unit : CodeUnit code c.toNat)
      (rest : Stands l m) : Stands (92 :: 117 :: (code ++ l)) (String.utf8EncodeChar c ++ m)
  | pair {first second l m : List UInt8} {c : Char} {high low : Nat}
      (one : CodeUnit first (0xD800 + high)) (other : CodeUnit second (0xDC00 + low))
      (small : high < 0x400 ∧ low < 0x400) (char : c.toNat = 0x10000 + 0x400 * high + low)
      (rest : Stands l m) :
      Stands (92 :: 117 :: (first ++ 92 :: 117 :: (second ++ l))) (String.utf8EncodeChar c ++ m)

theorem Stands.chars {l m : List UInt8} (h : Stands l m) : Chars l := by
  induction h with
  | nil => exact .nil
  | plain printable _ ih => exact .plain printable ih
  | letter letter _ ih => exact .escaped (List.mem_map_of_mem (f := Prod.fst) letter) ih
  | unicode unit _ ih => exact .unicode unit.four unit.hex ih
  | pair one other _ _ _ ih =>
      exact .unicode one.four one.hex (.unicode other.four other.hex ih)

theorem Stands.append {l l' m m' : List UInt8} (h : Stands l m) (h' : Stands l' m') :
    Stands (l ++ l') (m ++ m') := by
  induction h with
  | nil => exact h'
  | plain printable _ ih => exact .plain printable ih
  | letter letter _ ih => exact .letter letter ih
  | unicode unit _ ih =>
      rw [List.cons_append, List.cons_append, List.append_assoc, List.append_assoc]
      exact .unicode unit ih
  | pair one other small char _ ih =>
      simp only [List.cons_append, List.append_assoc]
      exact .pair one other small char ih

theorem Decimal.number {l : List UInt8} {q : Rat} (h : Decimal l q) : Number l := by
  obtain ⟨signed, integer, fraction, exponent⟩ := h
  exact .mk signed integer fraction exponent

/-- What is no `e`. -/
def inMantissa (b : UInt8) : Bool := b != 69 && b != 101

/-- The number that a text is, computed: an `e` ends the mantissa, and a point its integer. -/
def decimalValue (l : List UInt8) : Rat :=
  let mantissa := l.takeWhile inMantissa
  let integer := mantissa.takeWhile (· != 46)
  let frac := mantissa.drop integer.length
  let exp := l.drop mantissa.length
  (if l.head? = some 45 then -1 else 1) *
    (natural integer + natural frac / 10 ^ (frac.length - 1)) *
    10 ^ (if 45 ∈ exp then -(natural exp : Int) else natural exp)

section Decimals
variable {l : List UInt8} {b : UInt8}

theorem Integer.digits_all (h : Integer l) : ∀ b ∈ l, isDigit b = true := by
  cases h with
  | zero => exact List.forall_mem_singleton.mpr rfl
  | @digits d ds lead rest =>
      have lower : 48 ≤ d := UInt8.le_trans (by decide) lead.1
      exact List.forall_mem_cons.mpr ⟨by simp [isDigit, lower, lead.2], rest⟩

theorem bne_of_isDigit (h : isDigit b = true) (c : UInt8) (other : isDigit c = false) :
    (b != c) = true := by
  rw [bne_iff_ne]
  rintro rfl
  exact absurd h (by simp [other])

theorem inMantissa_of_isDigit (h : isDigit b = true) : inMantissa b = true := by
  rw [inMantissa, bne_of_isDigit h 69 rfl, bne_of_isDigit h 101 rfl, Bool.and_self]

/-- A fraction is none or starts with its point, … -/
theorem Fraction.point (h : Fraction l) : ∀ b ∈ l.head?, (b != 46) = false := by
  cases h with
  | none => exact fun _ none => absurd none (by simp)
  | some _ => exact fun b head => by cases head; rfl

theorem Fraction.inMantissa (h : Fraction l) : ∀ b ∈ l, inMantissa b = true := by
  cases h with
  | none => exact List.forall_mem_nil _
  | some digits =>
      exact List.forall_mem_cons.mpr ⟨rfl, fun b mem => inMantissa_of_isDigit (digits.2 b mem)⟩

/-- … and an exponent with its `e`. -/
theorem Exponent.letter (h : Exponent l) : ∀ b ∈ l.head?, JsonText.inMantissa b = false := by
  cases h with
  | none => exact fun _ none => absurd none (by simp)
  | some letter _ _ =>
      rcases letter with rfl | rfl <;> exact fun b head => by cases head; rfl

/-- What is read up to a mark ends there when no mark stands in it. -/
theorem takeWhile_mark {keep : UInt8 → Bool} {rest : List UInt8} (all : ∀ b ∈ l, keep b = true)
    (mark : ∀ b ∈ rest.head?, keep b = false) : (l ++ rest).takeWhile keep = l := by
  rw [List.takeWhile_append_of_pos all]
  cases rest with
  | nil => simp
  | cons b rest => simp [mark b rfl]

theorem head?_number {sign integer rest : List UInt8} (signed : sign = [] ∨ sign = [45])
    (int : Integer integer) : (sign ++ integer ++ rest).head? = some 45 ↔ sign = [45] := by
  rcases signed with rfl | rfl
  · cases int with
    | zero => simp
    | @digits d ds lead more =>
        have digits := (Integer.digits lead more).digits_all
        simpa using bne_of_isDigit (digits d List.mem_cons_self) 45 rfl
  · simp

/-- The text of a number is split where its parts were put together. -/
theorem decimalValue_eq {q : Rat} (h : Decimal l q) : decimalValue l = q := by
  obtain @⟨sign, integer, frac, exp, signed, int, fraction, exponent⟩ := h
  have digits := int.digits_all
  have mantissa : ∀ b ∈ sign ++ integer ++ frac, inMantissa b = true := by
    simp only [List.forall_mem_append]
    refine ⟨⟨?_, fun b mem => inMantissa_of_isDigit (digits b mem)⟩, fraction.inMantissa⟩
    rcases signed with rfl | rfl <;> exact List.all_eq_true.mp rfl
  have noPoint : ∀ b ∈ sign ++ integer, (b != 46) = true := by
    rw [List.forall_mem_append]
    refine ⟨?_, fun b mem => bne_of_isDigit (digits b mem) 46 rfl⟩
    rcases signed with rfl | rfl <;> exact List.all_eq_true.mp rfl
  have minus : natural (sign ++ integer) = natural integer := by
    rcases signed with rfl | rfl <;> rfl
  have negative : (sign ++ integer ++ frac ++ exp).head? = some 45 ↔ sign = [45] := by
    rw [List.append_assoc (sign ++ integer)]
    exact head?_number signed int
  simp only [decimalValue, takeWhile_mark mantissa exponent.letter,
    takeWhile_mark noPoint fraction.point, List.drop_left, minus, negative]

end Decimals

theorem eq_of_isSpace {b : UInt8} (h : isSpace b = true) : b = 32 ∨ b = 9 ∨ b = 10 ∨ b = 13 := by
  simpa [isSpace, or_assoc] using h

theorem space_nil : Space [] := fun _ h => absurd h List.not_mem_nil

/-- An object starts and ends with its braces. -/
theorem Object.braces {l : List UInt8} (h : Object l) : ∃ inner, l = 123 :: (inner ++ [125]) := by
  cases h with
  | empty _ => exact ⟨_, rfl⟩
  | members _ => exact ⟨_, rfl⟩

end JsonText
