import Kaufbot.Guarantees.JsonRoundTrip

/-!
What the printer prints is a JSON text: every tree is rendered as a value of the
grammar, and so is every number that fits an `int`. Any reader of the format can
read it, not only this parser.
-/

namespace Kaufbot

open CString

namespace CJson

open JsonText

/-- The text of the number is one of the grammar. -/
def JsonNumber (lib : NumberTexts) (d : Rat) : Prop := Value (numberText lib d).bytes

theorem isDigit_eq_true {b : UInt8} (h : IsDigit b) : JsonText.isDigit b = true := by
  obtain ⟨lower, upper⟩ := h
  simp only [JsonText.isDigit, Bool.and_eq_true, decide_eq_true_eq]
  exact ⟨UInt8.le_iff_toNat_le.mpr lower, UInt8.le_iff_toNat_le.mpr upper⟩

theorem integer_digitBytes (n : Nat) : Integer (digitBytes n) := by
  cases n with
  | zero => exact .zero
  | succ n =>
      obtain ⟨d, ds, text, lead⟩ := digitBytes_lead n.succ_pos
      have digits : ∀ b ∈ digitBytes (n + 1), JsonText.isDigit b = true :=
        fun b mem => isDigit_eq_true (isDigit_of_mem_digitBytes mem)
      rw [text] at digits ⊢
      exact .digits lead fun b mem => digits b (List.mem_cons_of_mem _ mem)

/-- `%d` prints a JSON number. -/
theorem value_printInt (n : Int) : Value (printInt n).bytes := by
  cases n with
  | ofNat k =>
      have text : (printInt (Int.ofNat k)).bytes = [] ++ digitBytes k ++ [] ++ [] := by
        simp [printInt, printPadded, padBytes]
      rw [text]
      exact .number (.inl rfl) (integer_digitBytes k) .none .none
  | negSucc k =>
      have text : (printInt (Int.negSucc k)).bytes = [45] ++ digitBytes (k + 1) ++ [] ++ [] := by
        simp [printInt, printPadded, padBytes]
      rw [text]
      exact .number (.inr rfl) (integer_digitBytes (k + 1)) .none .none

theorem jsonNumber_of_int {lib : NumberTexts} {d : Rat} (whole : d = doubleToIntSat d) :
    JsonNumber lib d := by
  rw [JsonNumber, numberText, if_pos whole]
  exact value_printInt _

section Trees
variable {lib : NumberTexts}

/-- What is printed is a text of RFC 8259. -/
theorem printed_is_json {item : CJson} {text : CString}
    (numbers : AllNumbers (fun d => (numberText lib d).length ≤ 25 ∧ JsonNumber lib d) item)
    (printed : printUnformatted lib item = some text) : Value text.bytes := by
  rw [printUnformatted_eq (numbers.imp fun h => h.1) printed,
    ofBytes_of_nulFree (zero_notMem_render numbers)]
  have means : Means (fun l _ => Value l) (render lib item) item :=
    means_render (numbers.imp fun h => h.2)
  exact means.value id

theorem printed_is_json_bell : Value (lit "[-7,\"\\u0007\"]").bytes := by
  have seven : (numberText digitTexts (-7)).length ≤ 25 ∧ JsonNumber digitTexts (-7) :=
    ⟨by decide, jsonNumber_of_int rfl⟩
  have numbers : AllNumbers (fun d => (numberText digitTexts d).length ≤ 25 ∧
      JsonNumber digitTexts d) (.array [.number (-7), .string ⟨[7], by decide⟩]) := by
    refine .array ?_
    simp only [List.forall_mem_cons]
    exact ⟨.number seven, .string _, fun _ none => absurd none List.not_mem_nil⟩
  exact printed_is_json numbers rfl

end Trees

end CJson

end Kaufbot
