import Kaufbot.Library.Printf

/-!
What a C program does with a `double`: it adds, subtracts, multiplies, compares
and prints it. A program written over `CDouble` has its meaning in C with
`Float`, which is IEEE 754 binary64, and with `Rat` the meaning it would have
if nothing were rounded; what is proved for every `CDouble` holds of both.
-/

namespace CString

/-- The bytes of a printed number: digits, a minus sign and a decimal point, or the letters of
`inf` and `nan`. -/
def NumberText (s : CString) : Prop :=
  ∀ b ∈ s.bytes, IsDigit b ∨ b ∈ ([45, 46, 97, 102, 105, 110] : List UInt8)

theorem numberText_printNat (n : Nat) : NumberText (printNat n) :=
  fun _ hb => Or.inl (isDigit_of_mem_digitBytes hb)

theorem numberText_printPadded (width : Nat) (n : Int) : NumberText (printPadded width n) := by
  intro b hb
  refine (mem_printPadded hb).imp_right ?_
  rintro rfl
  decide

theorem numberText_printInt (n : Int) : NumberText (printInt n) := numberText_printPadded 0 n

theorem numberText_lit {text : String}
    (h : (lit text).bytes.all (fun b => decide (b ∈ ([45, 46, 97, 102, 105, 110] : List UInt8)))) :
    NumberText (lit text) :=
  fun b hb => Or.inr (of_decide_eq_true (List.all_eq_true.mp h b hb))

theorem NumberText.append {s t : CString} (hs : NumberText s) (ht : NumberText t) :
    NumberText (s ++ t) := by
  intro b hb
  rw [bytes_append] at hb
  exact (List.mem_append.mp hb).elim (hs b) (ht b)

theorem numberText_printHundredths (negative : Bool) (q : Rat) :
    NumberText (printHundredths negative q) := by
  have sign : NumberText (if negative then lit "-" else empty) := by
    split
    · exact numberText_lit rfl
    · exact fun _ hb => absurd hb List.not_mem_nil
  exact ((sign.append (numberText_printNat _)).append (numberText_lit rfl)).append
    (numberText_printPadded 2 _)

end CString

open CString

/-- A type of doubles. -/
class CDouble (α : Type) extends Add α, Sub α, Mul α, Neg α, LT α, OfScientific α where
  decLt : DecidableLT α
  /-- The double nearest to a number. -/
  ofRat : Rat → α
  /-- `%.2f`. -/
  printFixed2 : α → CString
  numberText : ∀ x, NumberText (printFixed2 x)

instance CDouble.decidableLT {α : Type} [CDouble α] : DecidableLT α := CDouble.decLt

/-- The doubles without their rounding. -/
instance : CDouble Rat where
  decLt := inferInstance
  ofRat := id
  printFixed2 q := printHundredths (q < 0) q
  numberText q := numberText_printHundredths _ q

namespace Binary64

open Float.Model UnpackedFloat

/-- The double nearest to a number, ties to the even one. -/
def nearest (q : Rat) : Float :=
  if h : q.num.natAbs = 0 then 0.0
  else
    let sign : Sign := if q.num < 0 then .negative else .positive
    .ofModel (.pack (UnpackedFloat.div Format.binary64
      (.finite sign q.num.natAbs 0 (Nat.pos_of_ne_zero h)) (.finite .positive q.den 0 q.den_pos)))

/-- The number that a finite double is. -/
def toRat? (x : Float) : Option Rat :=
  match x.toModel.unpack with
  | .zero _ => some 0
  | .finite sign m e _ =>
      let magnitude := mkRat (m * 2 ^ e.toNat) (2 ^ (-e).toNat)
      some (if sign == .negative then -magnitude else magnitude)
  | .infinity _ => none
  | .notANumber => none

/-- `%.2f`: a finite double is printed from its exact value, with the sign of a zero. A NaN has
the sign that x86-64 gives the one it makes. -/
def printFixed2 (x : Float) : CString :=
  match x.toModel.unpack with
  | .zero sign => printHundredths (sign == .negative) 0
  | .finite sign m e _ =>
      printHundredths (sign == .negative) (mkRat (m * 2 ^ e.toNat) (2 ^ (-e).toNat))
  | .infinity sign => if sign == .negative then lit "-inf" else lit "inf"
  | .notANumber => lit "-nan"

theorem numberText_printFixed2 (x : Float) : NumberText (printFixed2 x) := by
  rw [printFixed2]
  split
  · exact numberText_printHundredths _ _
  · exact numberText_printHundredths _ _
  · split
    · exact numberText_lit rfl
    · exact numberText_lit rfl
  · exact numberText_lit rfl

instance : CDouble Float where
  decLt := inferInstance
  ofRat := nearest
  printFixed2 := printFixed2
  numberText := numberText_printFixed2

/-- A zero keeps its sign, and a hundredth is not always the number it is written as. -/
example : printFixed2 (-1.0 * 0.0) = lit "-0.00" ∧ decide (nearest 0.005 > 0.005) = false ∧
    decide ((0.1 * 3.0 - 0.3 : Float) > 0.0) = true := by
  decide +kernel

end Binary64
