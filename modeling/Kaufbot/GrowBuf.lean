import Kaufbot.Library.GrowArray

/-!
The buffer that HTTP bodies are received in. libcurl hands over a body chunk by
chunk; every chunk is appended behind the ones before it, and a NUL behind all
of them. Sizes are words of 64 bits. A write that left the allocation, and a
loop that took more than `rounds` tests, would have no result.
-/

namespace Kaufbot

open GrowArray

/-- `data` is the block it points to. -/
structure GrowBuf where
  data : Option (List UInt8)
  len : Nat
  cap : Nat

/-- `GrowBuf buf = {0}`. -/
def GrowBuf.zero : GrowBuf := { data := none, len := 0, cap := 0 }

def growbufInitialCap : Nat := 8192

def growbufNewCap (rounds needed cap : Nat) : Option Nat :=
  double (2 ^ 64) needed rounds (if cap ≠ 0 then cap * 2 % 2 ^ 64 else growbufInitialCap)

/-- The buffer with room for `needed` bytes, unless `realloc` returned NULL. -/
def growbufReserve (rounds : Nat) (fresh : Option (Nat → UInt8)) (needed : Nat) (buf : GrowBuf) :
    Option (Option GrowBuf) :=
  if needed > buf.cap then do
    let newCap ← growbufNewCap rounds needed buf.cap
    return fresh.map fun fresh =>
      { buf with data := some (resize fresh newCap (buf.data.getD [])), cap := newCap }
  else some (some buf)

/-- `fresh` is the answer of `realloc`, if it is asked: NULL, or what the new bytes hold. -/
def growbufWriteCb (rounds : Nat) (fresh : Option (Nat → UInt8)) (ptr : List UInt8)
    (size nmemb : Nat) (buf : GrowBuf) : Option (GrowBuf × Nat) := do
  let incoming := size * nmemb % 2 ^ 64
  let needed := ((buf.len + incoming) % 2 ^ 64 + 1) % 2 ^ 64
  match ← growbufReserve rounds fresh needed buf with
  | none => return (buf, 0)
  | some buf =>
      let data ← copyInto (buf.data.getD []) buf.len (ptr.take incoming)
      let len := (buf.len + incoming) % 2 ^ 64
      let data ← copyInto data len [0]
      return ({ buf with data := some data, len := len }, incoming)

/-- One call by libcurl, with what `realloc` would answer. -/
structure WriteCall where
  ptr : List UInt8
  size : Nat
  nmemb : Nat
  fresh : Option (Nat → UInt8)
  filled : ptr.length = size * nmemb

def WriteCall.write (rounds : Nat) (call : WriteCall) (buf : GrowBuf) : Option (GrowBuf × Nat) :=
  growbufWriteCb rounds call.fresh call.ptr call.size call.nmemb buf

/-- The buffer holds a text and a NUL behind it. -/
structure GrowBuf.Holds (buf : GrowBuf) (text : List UInt8) : Prop where
  data : ∃ rest, buf.data = some (text ++ 0 :: rest) ∧ text.length + 1 + rest.length = buf.cap
  len : buf.len = text.length

/-- The capacity is what doubling from the initial one gives. -/
def GrowBuf.Doubled (buf : GrowBuf) : Prop := ∃ k ≤ 50, buf.cap = growbufInitialCap * 2 ^ k

/-- After any calls: nothing has been allocated yet, or the buffer holds the text. -/
def GrowBuf.Appended (buf : GrowBuf) (text : List UInt8) : Prop :=
  (buf = .zero ∧ text = []) ∨ (buf.Holds text ∧ buf.Doubled)

section Write
variable {buf : GrowBuf} {text ptr : List UInt8} {rounds needed : Nat}

theorem GrowBuf.Holds.len_lt (h : buf.Holds text) : buf.len < buf.cap := by
  obtain ⟨rest, -, total⟩ := h.data
  rw [h.len]
  omega

theorem GrowBuf.Appended.len_eq (h : buf.Appended text) : buf.len = text.length := by
  rcases h with ⟨rfl, rfl⟩ | ⟨h, -⟩
  · rfl
  · exact h.len

/-- What the loop starts from: twice the capacity, or the initial one. -/
def GrowBuf.startCap (buf : GrowBuf) : Nat := if buf.cap ≠ 0 then buf.cap * 2 else growbufInitialCap

/-- The loop ends, and its result is a multiple that has not wrapped around. -/
def GrowBuf.GrowsExactly (rounds needed : Nat) (buf : GrowBuf) : Prop :=
  ∃ k, growbufNewCap rounds needed buf.cap = some (buf.startCap * 2 ^ k) ∧
    needed ≤ buf.startCap * 2 ^ k ∧ buf.startCap * 2 ^ k < 2 ^ 64

theorem initialCap_le {k : Nat} (hk : k ≤ 50) :
    growbufInitialCap * 2 ^ k ≤ growbufInitialCap * 2 ^ 50 :=
  Nat.mul_le_mul_left _ (Nat.pow_le_pow_right (by decide) hk)

theorem GrowBuf.Appended.startCap_eq (h : buf.Appended text) (short : buf.cap < needed)
    (fits : needed ≤ 2 ^ 63) : ∃ k ≤ 50, buf.startCap = growbufInitialCap * 2 ^ k := by
  rcases h with ⟨rfl, rfl⟩ | ⟨-, k, hk, hcap⟩
  · exact ⟨0, by decide, rfl⟩
  · have below : k < 50 := by
      by_contra h
      obtain rfl : k = 50 := by omega
      simp only [growbufInitialCap] at hcap
      omega
    have positive : buf.cap ≠ 0 := by
      rw [hcap]
      exact Nat.mul_ne_zero (by decide) (Nat.pos_iff_ne_zero.mp (Nat.two_pow_pos k))
    refine ⟨k + 1, below, ?_⟩
    rw [GrowBuf.startCap, if_pos positive, hcap, Nat.mul_assoc, Nat.pow_succ]

theorem GrowBuf.Appended.newCap (h : buf.Appended text) (short : buf.cap < needed)
    (fits : needed ≤ 2 ^ 63) (enough : 64 ≤ rounds) :
    buf.GrowsExactly rounds needed ∧
      ∃ k ≤ 50, growbufNewCap rounds needed buf.cap = some (growbufInitialCap * 2 ^ k) ∧
        needed ≤ growbufInitialCap * 2 ^ k := by
  obtain ⟨k, hk, start⟩ := h.startCap_eq short fits
  have words : (if buf.cap ≠ 0 then buf.cap * 2 % 2 ^ 64 else growbufInitialCap) =
      growbufInitialCap * 2 ^ k := by
    rw [← start, GrowBuf.startCap]
    split
    · next positive =>
        rw [GrowBuf.startCap, if_pos positive] at start
        exact Nat.mod_eq_of_lt (start ▸ Nat.lt_of_le_of_lt (initialCap_le hk) (by decide))
    · rfl
  obtain ⟨i, hki, hi, large, result⟩ := double_eq (by decide : growbufInitialCap * 2 ^ 50 < 2 ^ 64)
    fits hk (by omega : 50 - k < rounds)
  have multiple : buf.startCap * 2 ^ (i - k) = growbufInitialCap * 2 ^ i := by
    rw [start, Nat.mul_assoc, ← Nat.pow_add, Nat.add_sub_cancel' hki]
  rw [GrowBuf.GrowsExactly, growbufNewCap, words, result]
  exact ⟨⟨i - k, by rw [multiple], multiple ▸ large,
    multiple ▸ Nat.lt_of_le_of_lt (initialCap_le hi) (by decide)⟩, i, hi, rfl, large⟩

/-- There is room for `n` bytes and a NUL behind the text. -/
structure GrowBuf.Ready (buf : GrowBuf) (text : List UInt8) (n : Nat) : Prop where
  data : ∃ rest, buf.data = some (text ++ rest) ∧ n < rest.length ∧
    text.length + rest.length = buf.cap
  len : buf.len = text.length

/-- The call needs more room and does not get it. -/
def Refused (buf : GrowBuf) (call : WriteCall) : Prop :=
  buf.cap < buf.len + call.ptr.length + 1 ∧ call.fresh = none

instance (buf : GrowBuf) (call : WriteCall) : Decidable (Refused buf call) :=
  inferInstanceAs (Decidable (_ ∧ _))

theorem GrowBuf.Appended.ready_of_room (h : buf.Appended text) {n : Nat}
    (room : text.length + n + 1 ≤ buf.cap) : buf.Ready text n ∧ buf.Doubled := by
  rcases h with ⟨rfl, -⟩ | ⟨⟨⟨rest, hdata, total⟩, hlen⟩, hcap⟩
  · exact absurd room (Nat.not_succ_le_zero _)
  · refine ⟨⟨⟨0 :: rest, hdata, ?_, ?_⟩, hlen⟩, hcap⟩
    · rw [List.length_cons]
      omega
    · rw [List.length_cons]
      omega

/-- A larger block starts with the text that was there. -/
theorem GrowBuf.Appended.ready_resize (h : buf.Appended text) (fresh : Nat → UInt8) {k n : Nat}
    (hk : k ≤ 50) (short : buf.cap < text.length + n + 1)
    (large : text.length + n + 1 ≤ growbufInitialCap * 2 ^ k) :
    let grown : GrowBuf := { buf with
      data := some (resize fresh (growbufInitialCap * 2 ^ k) (buf.data.getD []))
      cap := growbufInitialCap * 2 ^ k }
    grown.Ready text n ∧ grown.Doubled := by
  have fits : (buf.data.getD []).length ≤ growbufInitialCap * 2 ^ k := by
    rcases h with ⟨rfl, -⟩ | ⟨⟨⟨rest, hdata, total⟩, -⟩, -⟩
    · exact Nat.zero_le _
    · rw [hdata, Option.getD_some, List.length_append, List.length_cons]
      omega
  have start : text <+: buf.data.getD [] := by
    rcases h with ⟨rfl, rfl⟩ | ⟨⟨⟨rest, hdata, -⟩, -⟩, -⟩
    · exact List.nil_prefix
    · rw [hdata]
      exact List.prefix_append _ _
  obtain ⟨rest, split⟩ := start.trans (prefix_resize fresh fits)
  have total := congrArg List.length split
  rw [List.length_append, length_resize] at total
  refine ⟨⟨⟨rest, by rw [split], by omega, total⟩, h.len_eq⟩, k, hk, rfl⟩

theorem GrowBuf.Appended.reserve (h : buf.Appended text) {n : Nat}
    (fits : text.length + n + 1 ≤ 2 ^ 63) (enough : 64 ≤ rounds)
    (fresh : Option (Nat → UInt8)) :
    if buf.cap < text.length + n + 1 ∧ fresh = none then
      growbufReserve rounds fresh (text.length + n + 1) buf = some none
    else ∃ grown, growbufReserve rounds fresh (text.length + n + 1) buf = some (some grown) ∧
      grown.Ready text n ∧ grown.Doubled := by
  by_cases short : buf.cap < text.length + n + 1
  · obtain ⟨-, k, hk, newCap, large⟩ := h.newCap short fits enough
    cases fresh with
    | none => simp [growbufReserve, short, newCap]
    | some fresh =>
        rw [if_neg (fun refused => Option.some_ne_none _ refused.2)]
        exact ⟨_, by simp [growbufReserve, short, newCap], h.ready_resize fresh hk short large⟩
  · rw [if_neg (fun refused => short refused.1)]
    exact ⟨buf, by rw [growbufReserve, if_neg short], h.ready_of_room (by omega)⟩

/-- The chunk goes behind the text and the NUL behind the chunk. -/
theorem GrowBuf.Ready.holds (h : buf.Ready text ptr.length) :
    ∃ middle after, copyInto (buf.data.getD []) buf.len ptr = some middle ∧
      copyInto middle (buf.len + ptr.length) [0] = some after ∧
      ({ buf with data := some after, len := buf.len + ptr.length } : GrowBuf).Holds
        (text ++ ptr) := by
  obtain ⟨rest, hdata, room, total⟩ := h.data
  obtain ⟨old, last, rfl, hold⟩ : ∃ old last, rest = old ++ last ∧ old.length = ptr.length :=
    ⟨_, _, (List.take_append_drop ptr.length rest).symm, List.length_take_of_le (Nat.le_of_lt room)⟩
  simp only [List.length_append, hold] at room total
  obtain ⟨b, last, rfl⟩ := List.exists_cons_of_length_pos (l := last) (by omega)
  refine ⟨text ++ (ptr ++ b :: last), (text ++ ptr) ++ ([0] ++ last), ?_, ?_, ⟨⟨last, rfl, ?_⟩, ?_⟩⟩
  · rw [hdata, Option.getD_some, h.len, copyInto_append old hold]
  · rw [h.len, ← List.length_append, ← List.append_assoc]
    exact copyInto_append [b] rfl
  · rw [List.length_append, ← total, List.length_cons]
    omega
  · rw [List.length_append, h.len]

/-- A call appends its chunk and returns its size, or it returns 0 and changes nothing. -/
theorem GrowBuf.Appended.write (h : buf.Appended text) (call : WriteCall)
    (fits : text.length + call.ptr.length + 1 ≤ 2 ^ 63) (enough : 64 ≤ rounds) :
    if Refused buf call then call.write rounds buf = some (buf, 0)
    else ∃ after, call.write rounds buf = some (after, call.size * call.nmemb) ∧
      after.Holds (text ++ call.ptr) ∧ after.Doubled := by
  have incoming : call.size * call.nmemb % 2 ^ 64 = call.ptr.length := by
    rw [← call.filled]
    exact Nat.mod_eq_of_lt (by omega)
  have len : (text.length + call.ptr.length) % 2 ^ 64 = text.length + call.ptr.length :=
    Nat.mod_eq_of_lt (by omega)
  have needed : (text.length + call.ptr.length + 1) % 2 ^ 64 = text.length + call.ptr.length + 1 :=
    Nat.mod_eq_of_lt (by omega)
  have reserved := h.reserve fits enough call.fresh
  simp only [Refused, WriteCall.write, growbufWriteCb, incoming, h.len_eq, len, needed]
  split at reserved
  · next refused =>
      rw [if_pos refused, reserved]
      rfl
  · next accepted =>
      obtain ⟨grown, hgrown, ready, doubled⟩ := reserved
      obtain ⟨middle, after, first, second, holds⟩ := ready.holds
      rw [if_neg accepted, hgrown]
      refine ⟨_, ?_, holds, doubled⟩
      simp only [Option.bind_eq_bind, Option.bind_some, List.take_length, first]
      rw [ready.len, len, ← ready.len, second, ← call.filled]
      rfl

end Write

end Kaufbot
