import Kaufbot.GrowBuf
import Kaufbot.Library.Runs

/-!
What a response body is once libcurl has handed over all of it. Beside the
buffer a run carries the chunks that were accepted, one behind the other; every
call appends its chunk to both, or to neither when it gets no memory.
-/

namespace Kaufbot

open Runs

/-- A call, and the text of the chunks accepted so far. -/
def appendStep (rounds : Nat) (s : GrowBuf × List UInt8) (call : WriteCall) :
    GrowBuf × List UInt8 :=
  let buf := match call.write rounds s.1 with
    | some (buf, _) => buf
    | none => s.1
  (buf, if Refused s.1 call then s.2 else s.2 ++ call.ptr)

/-- The call finds its capacity, and it appends the chunk or changes nothing. -/
def WriteRight (rounds : Nat) (s : GrowBuf × List UInt8) (call : WriteCall) : Prop :=
  (s.1.cap < s.1.len + call.ptr.length + 1 →
    s.1.GrowsExactly rounds (s.1.len + call.ptr.length + 1)) ∧
  ∃ after written, call.write rounds s.1 = some (after, written) ∧
    if Refused s.1 call then written = 0 ∧ after = s.1
    else written = call.size * call.nmemb ∧ after.Holds (s.2 ++ call.ptr) ∧ after.len < after.cap

section Step
variable {rounds : Nat} {s : GrowBuf × List UInt8} {call : WriteCall}

theorem appended_zero : GrowBuf.zero.Appended [] := Or.inl ⟨rfl, rfl⟩

theorem GrowBuf.Appended.step (h : s.1.Appended s.2) (call : WriteCall)
    (fits : s.2.length + call.ptr.length + 1 ≤ 2 ^ 63) (enough : 64 ≤ rounds) :
    WriteRight rounds s call ∧
      (appendStep rounds s call).1.Appended (appendStep rounds s call).2 := by
  have grows (short : s.1.cap < s.1.len + call.ptr.length + 1) :
      s.1.GrowsExactly rounds (s.1.len + call.ptr.length + 1) :=
    (h.newCap short (by rwa [h.len_eq]) enough).1
  have written := h.write call fits enough
  simp only [WriteRight, appendStep]
  split at written
  · next refused =>
      refine ⟨⟨grows, _, _, written, ?_⟩, ?_⟩
      · rw [if_pos refused]
        exact ⟨rfl, rfl⟩
      · rw [written, if_pos refused]
        exact h
  · next accepted =>
      obtain ⟨after, done, holds, doubled⟩ := written
      refine ⟨⟨grows, _, _, done, ?_⟩, ?_⟩
      · rw [if_neg accepted]
        exact ⟨rfl, holds, holds.len_lt⟩
      · rw [done, if_neg accepted]
        exact Or.inr ⟨holds, doubled⟩

theorem length_appendStep_le (rounds : Nat) (s : GrowBuf × List UInt8) (call : WriteCall) :
    (appendStep rounds s call).2.length ≤ s.2.length + call.ptr.length := by
  simp only [appendStep]
  split
  · exact Nat.le_add_right _ _
  · exact Nat.le_of_eq List.length_append

theorem GrowBuf.Appended.run (h : s.1.Appended s.2) (enough : 64 ≤ rounds)
    (calls : List WriteCall)
    (fits : s.2.length + (calls.map fun call => call.ptr.length).sum + 1 ≤ 2 ^ 63) :
    Guarded (appendStep rounds) (WriteRight rounds) s calls ∧
      (Runs.run (appendStep rounds) s calls).1.Appended (Runs.run (appendStep rounds) s calls).2 := by
  induction calls generalizing s with
  | nil => exact ⟨trivial, h⟩
  | cons call calls ih =>
      rw [List.map_cons, List.sum_cons] at fits
      obtain ⟨right, next⟩ := h.step call (by omega) enough
      have room := length_appendStep_le rounds s call
      obtain ⟨later, last⟩ := ih next (by omega)
      exact ⟨⟨right, later⟩, last⟩

end Step

/-- Every call on the buffer of a response finds its capacity without wrapping around, appends its
chunk and a NUL, or returns 0 and leaves the buffer as it was. -/
theorem growbuf_appends (rounds : Nat) (enough : 64 ≤ rounds) (calls : List WriteCall)
    (fits : (calls.map fun call => call.ptr.length).sum + 1 ≤ 2 ^ 63) :
    Guarded (appendStep rounds) (WriteRight rounds) (.zero, []) calls :=
  (GrowBuf.Appended.run (s := (.zero, [])) appended_zero enough calls (by simpa using fits)).1

/-- A chunk that gets no memory, one that does, and one for which there is room. -/
def sampleChunks : List WriteCall :=
  [{ ptr := [116], size := 1, nmemb := 1, fresh := none, filled := rfl },
    { ptr := [104, 105], size := 1, nmemb := 2, fresh := some fun _ => 7, filled := rfl },
    { ptr := [33], size := 1, nmemb := 1, fresh := none, filled := rfl }]

theorem growbuf_appends_sample :
    (sampleChunks.map fun call => call.ptr.length).sum + 1 ≤ 2 ^ 63 ∧
      Guarded (appendStep 64) (WriteRight 64) (.zero, []) sampleChunks := by
  have fits : (sampleChunks.map fun call => call.ptr.length).sum + 1 ≤ 2 ^ 63 := by
    decide
  exact ⟨fits, growbuf_appends 64 (by decide) sampleChunks fits⟩

end Kaufbot
