import Kaufbot.Config

/-!
The whitelist against the text of the variable. What the text says is a list of
decimal integers; the code reads it through a buffer, up to a count and without
looking at what follows a number, and the condition says when that is the same.
-/

namespace Kaufbot

open CString

/-- An entry is the integer `n`: a sign if any, digits, and blanks around them. -/
def Written (entry : List UInt8) (n : Int) : Prop :=
  ∃ before sign digits after, Number entry before sign digits after ∧
    (∀ b ∈ before ++ after, b = 32) ∧ n = signedValue sign (digitsValue digits) ∧
    -(2 ^ 63) ≤ n ∧ n < 2 ^ 63

/-- The text is a list of one to 32 integers. -/
structure Means (raw : CString) (ids : List Int) : Prop where
  some : ids ≠ []
  room : ids.length ≤ 32
  written : List.Forall₂ Written (pieces 44 raw.bytes) ids

/-- An entry as the code reads it: whatever follows the digits is ignored. -/
def Reads (entry : List UInt8) (n : Int) : Prop :=
  ∃ space sign digits rest, Number entry space sign digits rest ∧
    n = max (-(2 ^ 63)) (min (signedValue sign (digitsValue digits)) (2 ^ 63 - 1))

def StartsWithNumber (entry : List UInt8) : Prop :=
  ∃ space sign digits rest, Number entry space sign digits rest

/-- The part of the variable that fits the buffer it is copied to. -/
def whatFits (raw : CString) : CString := snprintf 1024 raw

section Entries
variable {entry cut : List UInt8} {n m : Int} {ids : List Int} {buf : CString}

theorem Reads.unique (h : Reads entry n) (h' : Reads entry m) : n = m := by
  obtain ⟨space, sign, digits, rest, number, rfl⟩ := h
  obtain ⟨space', sign', digits', rest', number', rfl⟩ := h'
  obtain ⟨-, rfl, rfl, -⟩ := number.unique number'
  rfl

theorem Written.reads (h : Written entry n) : Reads entry n := by
  obtain ⟨before, sign, digits, after, number, -, rfl, lower, upper⟩ := h
  exact ⟨before, sign, digits, after, number, by omega⟩

theorem StartsWithNumber.reads (h : StartsWithNumber entry) : ∃ n, Reads entry n := by
  obtain ⟨space, sign, digits, rest, number⟩ := h
  exact ⟨_, space, sign, digits, rest, number, rfl⟩

theorem Reads.startsWithNumber (h : Reads entry n) : StartsWithNumber entry := by
  obtain ⟨space, sign, digits, rest, number, -⟩ := h
  exact ⟨space, sign, digits, rest, number⟩

/-- A shorter number of the same sign is in range too. -/
theorem signedValue_range {sign digits more : List UInt8}
    (lower : -(2 ^ 63) ≤ signedValue sign (digitsValue (digits ++ more)))
    (upper : signedValue sign (digitsValue (digits ++ more)) < 2 ^ 63) :
    -(2 ^ 63) ≤ signedValue sign (digitsValue digits) ∧
      signedValue sign (digitsValue digits) < 2 ^ 63 := by
  have shorter := digitsValue_append_le digits more
  by_cases minus : sign = [45]
  · simp only [signedValue, minus, if_true] at lower upper ⊢
    omega
  · simp only [signedValue, minus, if_false] at lower upper ⊢
    omega

/-- An integer entry that is cut short and still starts with a number is an integer entry. -/
theorem Written.of_prefix (h : Written entry m) (short : cut <+: entry) (read : Reads cut n) :
    Written cut n := by
  obtain ⟨before, sign, digits, after, number, blank, rfl, lower, upper⟩ := h
  obtain ⟨space, sign', digits', rest, number', rfl⟩ := read
  obtain ⟨tail, rfl⟩ := short
  obtain ⟨more, rest', number_entry, tails, cut_there⟩ := number'.extend tail
  obtain ⟨rfl, rfl, rfl, rfl⟩ := number.unique number_entry
  obtain ⟨lower', upper'⟩ := signedValue_range lower upper
  refine ⟨before, sign, digits', rest, number', fun b hb => ?_, by omega, by omega, by omega⟩
  rcases List.mem_append.mp hb with hb | hb
  · exact blank b (List.mem_append_left _ hb)
  · rcases cut_there with rfl | rfl
    · exact absurd hb List.not_mem_nil
    · have kept : rest ++ tail = after := tails
      exact blank b (List.mem_append_right _ (kept ▸ List.mem_append_left tail hb))

/-- One token through the loop. -/
theorem token_reads (token : CString) :
    Reads token.bytes n ↔ (strtoll (token.skip 32)).2 ≠ (token.skip 32).bytes ∧
      (strtoll (token.skip 32)).1 = n := by
  constructor
  · rintro ⟨space, sign, digits, rest, number, rfl⟩
    obtain ⟨space', skipped⟩ := number_skip.mpr ⟨space, number⟩
    exact ⟨strtoll_end_iff.mpr ⟨_, _, _, _, skipped⟩, by rw [strtoll_number skipped]⟩
  · rintro ⟨moved, rfl⟩
    obtain ⟨space, sign, digits, rest, skipped⟩ := strtoll_end_iff.mp moved
    obtain ⟨space', number⟩ := number_skip.mp ⟨space, skipped⟩
    exact ⟨space', sign, digits, rest, number, by rw [strtoll_number skipped]⟩

theorem parseUserIdsTokens_eq (room : Nat) (buf : CString) (ids : List Int) :
    parseUserIdsTokens room buf = some ids ↔
      List.Forall₂ Reads ((pieces 44 buf.bytes).take room) ids := by
  induction room generalizing buf ids with
  | zero => simp [parseUserIdsTokens, eq_comm]
  | succ room ih =>
      cases htok : strtokR 44 buf with
      | none => simp [parseUserIdsTokens, htok, strtokR_none htok, eq_comm]
      | some cut =>
          obtain ⟨token, rest⟩ := cut
          rw [strtokR_some htok, List.take_succ_cons]
          by_cases still : (strtoll (token.skip 32)).2 = (token.skip 32).bytes
          · have unread (n : Int) : ¬ Reads token.bytes n := fun h => ((token_reads token).mp h).1 still
            cases ids <;> simp [parseUserIdsTokens, htok, still, unread]
          · cases ids with
            | nil => simp [parseUserIdsTokens, htok, still]
            | cons id ids =>
                rw [List.forall₂_cons, token_reads, ← ih]
                simp [parseUserIdsTokens, htok, still, and_comm]

end Entries

section Meaning
variable {raw : CString} {ids ids' : List Int} {es es' : List (List UInt8)}

/-- What is accepted, as the first 32 entries of what fits the buffer. -/
theorem configLoadUsers_eq (raw : CString) (ids : List Int) :
    configLoadUsers (some raw) = some ids ↔
      ids ≠ [] ∧ List.Forall₂ Reads ((pieces 44 (whatFits raw).bytes).take 32) ids := by
  rw [whatFits, ← parseUserIdsTokens_eq]
  change _ ↔ ids ≠ [] ∧ parseUserIds raw = some ids
  by_cases unset : raw.bytes = []
  · have missing : requireEnv (some raw) = none := by simp [requireEnv, Option.filter, unset]
    have nothing : parseUserIds raw = some [] := by
      obtain rfl : raw = .empty := CString.ext unset
      decide +kernel
    simp [configLoadUsers, missing, nothing, eq_comm]
  · have set : requireEnv (some raw) = some raw := by simp [requireEnv, Option.filter, unset]
    cases hp : parseUserIds raw with
    | none => simp [configLoadUsers, set, hp]
    | some found =>
        cases found with
        | nil => simp [configLoadUsers, set, hp, eq_comm]
        | cons id found =>
            simp only [configLoadUsers, set, hp, List.isEmpty_cons, Bool.false_eq_true, if_false,
              Option.some.injEq]
            constructor
            · rintro rfl
              exact ⟨List.cons_ne_nil _ _, rfl⟩
            · exact And.right

theorem reads_unique (h : List.Forall₂ Reads es ids) (h' : List.Forall₂ Reads es ids') :
    ids = ids' := by
  induction h generalizing ids' with
  | nil =>
      cases h'
      rfl
  | cons read _ ih =>
      cases h' with
      | cons read' rest' => rw [read.unique read', ih rest']

theorem reads_of_written (h : List.Forall₂ Written es ids) : List.Forall₂ Reads es ids :=
  h.imp fun _ _ => Written.reads

/-- Where every entry starts with a number, all of them are read. -/
theorem reads_exists (h : ∀ e ∈ es, StartsWithNumber e) : ∃ ids, List.Forall₂ Reads es ids := by
  induction es with
  | nil => exact ⟨[], .nil⟩
  | cons e es ih =>
      obtain ⟨n, read⟩ := (h e List.mem_cons_self).reads
      obtain ⟨ids, rest⟩ := ih fun e he => h e (List.mem_cons_of_mem _ he)
      exact ⟨n :: ids, .cons read rest⟩

theorem startsWithNumber_of_reads (h : List.Forall₂ Reads es ids) :
    ∀ e ∈ es, StartsWithNumber e := by
  induction h with
  | nil => exact fun e he => absurd he List.not_mem_nil
  | cons read _ ih => exact List.forall_mem_cons.mpr ⟨read.startsWithNumber, ih⟩

/-- Integer entries that are cut short are integer entries wherever they are read at all. -/
theorem written_of_prefix (short : List.Forall₂ (· <+: ·) es' es) (written : List.Forall₂ Written es ids)
    (read : List.Forall₂ Reads es' ids') : List.Forall₂ Written es' ids' := by
  induction short generalizing ids ids' with
  | nil =>
      cases read
      exact .nil
  | cons cut _ ih =>
      cases written with
      | cons whole written =>
          cases read with
          | cons start read => exact .cons (whole.of_prefix cut start) (ih written read)

/-- A text that means a list and is read through the buffer still means one there. -/
theorem Means.whatFits (h : Means raw ids) (some : ids' ≠ [])
    (read : List.Forall₂ Reads ((pieces 44 (whatFits raw).bytes).take 32) ids') :
    Means (whatFits raw) ids' := by
  obtain ⟨full, rest, split, short⟩ := pieces_prefix 44
    (List.take_prefix (1024 - 1) raw.bytes)
  have count := h.written.length_eq.trans_le h.room
  have written := List.forall₂_take full.length h.written
  rw [split, List.take_left' rfl] at written
  rw [split, List.length_append] at count
  have few : (pieces 44 (Kaufbot.whatFits raw).bytes).length ≤ 32 := by
    have same : (pieces 44 (Kaufbot.whatFits raw).bytes).length = full.length := short.length_eq
    omega
  rw [List.take_of_length_le few] at read
  exact ⟨some, read.length_eq.symm.trans_le few, written_of_prefix short written read⟩

/-- The whitelist is what the variable says. -/
def Faithful (raw : CString) : Prop :=
  ∀ ids, configLoadUsers (some raw) = some ids ↔ Means raw ids

/-- A text that means nothing is rejected only for its entries in the buffer. -/
theorem stopped_of_faithful {raw : CString} (faithful : Faithful raw)
    (meaningless : ∀ ids, ¬ Means raw ids) :
    pieces 44 (whatFits raw).bytes = [] ∨
      ∃ e ∈ (pieces 44 (whatFits raw).bytes).take 32, ¬ StartsWithNumber e := by
  by_contra accepted
  push Not at accepted
  obtain ⟨nonempty, numbers⟩ := accepted
  obtain ⟨ids, read⟩ := reads_exists numbers
  have some : ids ≠ [] := by
    rintro rfl
    have empty := List.forall₂_nil_right_iff.mp read
    exact nonempty ((List.take_eq_nil_iff.mp empty).resolve_left (by decide))
  exact meaningless ids ((faithful ids).mp ((configLoadUsers_eq raw ids).mpr ⟨some, read⟩))

/-- What is meant in the buffer, too, is what is read. -/
theorem faithful_of_means {raw : CString} {ids : List Int} (means : Means raw ids)
    (fits : Means (whatFits raw) ids) : Faithful raw := by
  intro ids'
  have few := fits.written.length_eq.trans_le fits.room
  rw [configLoadUsers_eq, List.take_of_length_le few]
  constructor
  · rintro ⟨-, read⟩
    rw [reads_unique read (reads_of_written fits.written)]
    exact means
  · intro means'
    rw [reads_unique (reads_of_written means'.written) (reads_of_written means.written)]
    exact ⟨fits.some, reads_of_written fits.written⟩

theorem faithful_of_stopped {raw : CString} (meaningless : ∀ ids, ¬ Means raw ids)
    (stopped : pieces 44 (whatFits raw).bytes = [] ∨
      ∃ e ∈ (pieces 44 (whatFits raw).bytes).take 32, ¬ StartsWithNumber e) : Faithful raw := by
  intro ids
  rw [configLoadUsers_eq]
  constructor
  · rintro ⟨some, read⟩
    rcases stopped with empty | ⟨e, he, unread⟩
    · rw [empty] at read
      exact absurd (List.forall₂_nil_left_iff.mp read) some
    · exact absurd (startsWithNumber_of_reads read e he) unread
  · exact fun means => absurd means (meaningless ids)

/-- The whitelist is right exactly for the texts that still mean the same list
in the buffer, and for the texts that mean none and have an entry that starts
with no number among the first 32 in the buffer, or no entry there. -/
theorem configLoadUsers_faithful_iff (raw : CString) :
    Faithful raw ↔
      (∃ ids, Means raw ids ∧ Means (whatFits raw) ids) ∨
      ((∀ ids, ¬ Means raw ids) ∧ (pieces 44 (whatFits raw).bytes = [] ∨
        ∃ e ∈ (pieces 44 (whatFits raw).bytes).take 32, ¬ StartsWithNumber e)) := by
  constructor
  · intro faithful
    by_cases meant : ∃ ids, Means raw ids
    · obtain ⟨ids, means⟩ := meant
      obtain ⟨some, read⟩ := (configLoadUsers_eq raw ids).mp ((faithful ids).mpr means)
      exact .inl ⟨ids, means, means.whatFits some read⟩
    · have meaningless (ids : List Int) : ¬ Means raw ids := fun means => meant ⟨ids, means⟩
      exact .inr ⟨meaningless, stopped_of_faithful faithful meaningless⟩
  · rintro (⟨ids, means, fits⟩ | ⟨meaningless, stopped⟩)
    · exact faithful_of_means means fits
    · exact faithful_of_stopped meaningless stopped

/-- An integer entry has no other characters than these. -/
theorem Written.characters {entry : List UInt8} {n : Int} (h : Written entry n) :
    ∀ b ∈ entry, b = 32 ∨ b = 43 ∨ b = 45 ∨ IsDigit b := by
  obtain ⟨before, sign, digits, after, number, blank, -⟩ := h
  intro b hb
  simp only [number.text, List.mem_append] at hb
  rcases hb with hb | hb | hb | hb
  · exact .inl (blank b (List.mem_append_left _ hb))
  · rcases number.signed with rfl | rfl | rfl
    · exact absurd hb List.not_mem_nil
    · exact .inr (.inl (List.mem_singleton.mp hb))
    · exact .inr (.inr (.inl (List.mem_singleton.mp hb)))
  · exact .inr (.inr (.inr (number.digit b hb)))
  · exact .inl (blank b (List.mem_append_right _ hb))

/-- Text after a number goes unnoticed, and the number is authorised. -/
theorem configLoadUsers_accepts_trailing_text :
    configLoadUsers (some (lit "12abc")) = some [12] ∧ ¬ Means (lit "12abc") [12] ∧
      ¬ Faithful (lit "12abc") := by
  have accepted : configLoadUsers (some (lit "12abc")) = some [12] := by decide +kernel
  have not_meant : ¬ Means (lit "12abc") [12] := by
    intro means
    have entries : pieces 44 (lit "12abc").bytes = [[49, 50, 97, 98, 99]] := by decide +kernel
    have written := means.written
    rw [entries] at written
    have letter := (List.forall₂_cons.mp written).1.characters 97 (by decide)
    exact absurd letter (by decide)
  exact ⟨accepted, not_meant, fun faithful => not_meant ((faithful [12]).mp accepted)⟩

end Meaning

end Kaufbot
