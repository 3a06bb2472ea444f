import Kaufbot.Guarantees.FenceStripping
import Kaufbot.Ocr.GeminiBuffer

/-!
What is left after the fence has been taken off: a part of the text without
blanks around it and without a fence in it. Such a text is taken as it is, so
taking the fence off a second time changes nothing.
-/

namespace Kaufbot

open CString StringScan

/-- No blank at either end, and no three backticks in a row. -/
structure Normal (l : List UInt8) : Prop where
  first : ∀ b, l.head? = some b → isJsonSpace b = false
  last : ∀ b, l.getLast? = some b → isJsonSpace b = false
  noFence : ¬ fence.bytes <:+: l

section Trim
variable {l : List UInt8} {p : UInt8 → Bool} {b : UInt8}

theorem head_dropWhile (h : (l.dropWhile p).head? = some b) : p b = false := by
  have first := List.head?_dropWhile_not p l
  rw [h] at first
  exact first

theorem last_rdropWhile (h : (l.rdropWhile p).getLast? = some b) : p b = false := by
  rw [List.rdropWhile, List.getLast?_reverse] at h
  exact head_dropWhile h

/-- Trimming the end does not change how a text starts. -/
theorem head_rdropWhile (h : (l.rdropWhile p).head? = some b) : l.head? = some b := by
  obtain ⟨rest, split⟩ := List.rdropWhile_prefix p l
  rw [← split, List.head?_append, h, Option.some_or]

theorem dropWhile_eq_self (h : ∀ b, l.head? = some b → p b = false) : l.dropWhile p = l := by
  cases l with
  | nil => rfl
  | cons b l => rw [List.dropWhile_cons_of_neg (by simp [h b rfl])]

theorem rdropWhile_eq_self (h : ∀ b, l.getLast? = some b → p b = false) :
    l.rdropWhile p = l := by
  rw [List.rdropWhile, dropWhile_eq_self, List.reverse_reverse]
  intro b hb
  exact h b (by rwa [List.head?_reverse] at hb)

end Trim

section Fence
variable {needle l : List UInt8}

/-- Nothing in front of the first occurrence holds another. -/
theorem not_infix_cutAt (nonempty : needle ≠ []) (l : List UInt8) :
    ¬ needle <:+: cutAt needle l := by
  induction l with
  | nil => exact fun found => nonempty (List.infix_nil.mp found)
  | cons b l ih =>
      rw [cutAt]
      split
      · exact fun found => nonempty (List.infix_nil.mp found)
      · next absent =>
          intro found
          rcases List.infix_cons_iff.mp found with here | later
          · have longer := here.trans ((List.prefix_cons_inj b).mpr (cutAt_starts needle l))
            exact absent (List.isPrefixOf_iff_prefix.mpr longer)
          · exact ih later

theorem occurrence_eq_none (h : ¬ needle <:+: l) : occurrence needle l = none := by
  induction l with
  | nil => rfl
  | cons b l ih =>
      have later : ¬ needle <:+: l := fun found => h (found.trans (List.suffix_cons b l).isInfix)
      have here : ¬ needle.isPrefixOf (b :: l) = true :=
        fun found => h (List.isPrefixOf_iff_prefix.mp found).isInfix
      rw [occurrence, if_neg here, ih later]
      rfl

theorem openedText_eq_self (h : ¬ fence.bytes <:+: l) : openedText l = l := by
  have plain : ¬ (lit "```").bytes.isPrefixOf l = true :=
    fun found => h (List.isPrefixOf_iff_prefix.mp found).isInfix
  have split : (lit "```json").bytes = fence.bytes ++ (lit "json").bytes := by decide
  have named : ¬ (lit "```json").bytes.isPrefixOf l = true := by
    rw [split]
    exact fun found => h ((List.prefix_append _ _).trans (List.isPrefixOf_iff_prefix.mp found)).isInfix
  rw [openedText, if_neg named, if_neg plain]

end Fence

theorem normal_strippedBytes (x : List UInt8) : Normal (strippedBytes x) where
  first _ hb := head_dropWhile (head_rdropWhile hb)
  last _ hb := last_rdropWhile hb
  noFence found := by
    refine not_infix_cutAt (by decide) (openedText x) (found.trans ?_)
    exact (List.rdropWhile_prefix _ _).isInfix.trans (List.dropWhile_suffix _).isInfix

theorem Normal.strippedBytes_eq {l : List UInt8} (h : Normal l) : strippedBytes l = l := by
  have uncut : cutAt (lit "```").bytes l = l := cutAt_eq_self (occurrence_eq_none h.noFence)
  rw [strippedBytes, openedText_eq_self h.noFence, uncut, dropWhile_eq_self h.first,
    rdropWhile_eq_self h.last]

/-- On every string the scans stay inside it; what they leave is a normal part of it, and taking
the fence off that leaves it as it is. -/
theorem stripInPlace_normalises (x : CString) :
    ∃ result, stripInPlace x = some result ∧ result.bytes <:+: x.bytes ∧ Normal result.bytes ∧
      stripInPlace result = some result := by
  have bytes := bytes_stripMarkdownJson x
  have normal : Normal (stripMarkdownJson x).bytes := by
    rw [bytes]
    exact normal_strippedBytes x.bytes
  refine ⟨stripMarkdownJson x, stripInPlace_eq x, ?_, normal, ?_⟩
  · rw [bytes]
    exact strippedBytes_inside x.bytes
  · have again : stripMarkdownJson (stripMarkdownJson x) = stripMarkdownJson x := by
      apply CString.ext
      rw [bytes_stripMarkdownJson, normal.strippedBytes_eq]
    rw [stripInPlace_eq, again]

end Kaufbot
