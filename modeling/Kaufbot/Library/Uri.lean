import Kaufbot.Library.Percent
import Mathlib.Data.List.TakeWhile

/-!
URIs as RFC 3986 reads them: the five components of a text, found by the
delimiters alone, and the characters that may stand in a path or a query. A
text that is put behind a base stays behind the base's path as long as it has
none of the delimiters.
-/

namespace Uri

open Percent

def colon : UInt8 := 58
def slash : UInt8 := 47
def question : UInt8 := 63
def hash : UInt8 := 35

structure Parts where
  scheme : Option (List UInt8)
  authority : Option (List UInt8)
  path : List UInt8
  query : Option (List UInt8)
  fragment : Option (List UInt8)

/-- What stands before the first separator, and what behind it if there is one. -/
def cut (sep : UInt8) : List UInt8 → List UInt8 × Option (List UInt8)
  | [] => ([], none)
  | b :: l => if b = sep then ([], some l) else (b :: (cut sep l).1, (cut sep l).2)

/-- A scheme is not empty and ends before the first slash. -/
def cutScheme (l : List UInt8) : Option (List UInt8) × List UInt8 :=
  match cut colon l with
  | (b :: name, some rest) => if slash ∈ b :: name then (none, l) else (some (b :: name), rest)
  | _ => (none, l)

def cutAuthority (l : List UInt8) : Option (List UInt8) × List UInt8 :=
  match l with
  | a :: b :: rest =>
      if a = slash ∧ b = slash then
        (some (rest.takeWhile (· ≠ slash)), rest.dropWhile (· ≠ slash))
      else (none, l)
  | _ => (none, l)

def parts (l : List UInt8) : Parts :=
  let hier := cutScheme (cut question (cut hash l).1).1
  { scheme := hier.1
    authority := (cutAuthority hier.2).1
    path := (cutAuthority hier.2).2
    query := (cut question (cut hash l).1).2
    fragment := (cut hash l).2 }

/-- The components put together again. -/
def Parts.text (u : Parts) : List UInt8 :=
  (u.scheme.elim [] (· ++ [colon])) ++ (u.authority.elim [] ([slash, slash] ++ ·)) ++ u.path ++
    (u.query.elim [] (question :: ·)) ++ (u.fragment.elim [] (hash :: ·))

def IsSubDelim (b : UInt8) : Prop := b ∈ [33, 36, 38, 39, 40, 41, 42, 43, 44, 59, 61]

/-- What may stand in a path segment, apart from escapes. -/
def IsPchar (b : UInt8) : Prop := IsUnreserved b ∨ IsSubDelim b ∨ b = colon ∨ b = 64

instance (b : UInt8) : Decidable (IsPchar b) := by
  unfold IsPchar IsSubDelim
  infer_instance

def IsPathChar (b : UInt8) : Prop := IsPchar b ∨ b = slash

instance (b : UInt8) : Decidable (IsPathChar b) := by
  unfold IsPathChar
  infer_instance

def IsQueryChar (b : UInt8) : Prop := IsPchar b ∨ b = slash ∨ b = question

instance (b : UInt8) : Decidable (IsQueryChar b) := by
  unfold IsQueryChar
  infer_instance

/-- Characters of a kind and escapes. -/
inductive Wellformed (p : UInt8 → Prop) : List UInt8 → Prop where
  | nil : Wellformed p []
  | plain {b : UInt8} {rest : List UInt8} (allowed : p b) (later : Wellformed p rest) :
      Wellformed p (b :: rest)
  | escaped {high low : UInt8} {rest : List UInt8} (highHex : (value? high).isSome)
      (lowHex : (value? low).isSome) (later : Wellformed p rest) :
      Wellformed p (sign :: high :: low :: rest)

section Cut
variable {sep : UInt8} {a l : List UInt8}

theorem cut_append (h : sep ∉ a) (l : List UInt8) :
    cut sep (a ++ l) = (a ++ (cut sep l).1, (cut sep l).2) := by
  induction a with
  | nil => rfl
  | cons b a ih =>
      obtain ⟨ne, rest⟩ := not_or.mp (mt List.mem_cons.mpr h)
      rw [List.cons_append, cut, if_neg (Ne.symm ne), ih rest]
      rfl

theorem cut_of_notMem (h : sep ∉ l) : cut sep l = (l, none) := by
  have whole := cut_append h []
  rwa [List.append_nil, cut, List.append_nil] at whole

theorem cut_at (h : sep ∉ a) (l : List UInt8) : cut sep (a ++ sep :: l) = (a, some l) := by
  rw [cut_append h, cut, if_pos rfl, List.append_nil]

theorem cut_front (sep : UInt8) (l : List UInt8) : sep ∉ (cut sep l).1 := by
  induction l with
  | nil => exact List.not_mem_nil
  | cons b l ih =>
      rw [cut]
      split
      · exact List.not_mem_nil
      · next ne => exact List.not_mem_cons_of_ne_of_not_mem (Ne.symm ne) ih

theorem cut_text (sep : UInt8) (l : List UInt8) :
    (cut sep l).1 ++ (cut sep l).2.elim [] (sep :: ·) = l := by
  induction l with
  | nil => rfl
  | cons b l ih =>
      rw [cut]
      split
      · next same => simp [same]
      · simpa using ih

theorem head?_of_cut {b : UInt8} (h : (cut sep l).1.head? = some b) : l.head? = some b := by
  cases l with
  | nil => exact h
  | cons c l =>
      rw [cut] at h
      split at h
      · cases h
      · exact h

theorem notMem_of_cut (h : (cut sep l).2 = none) : sep ∉ l := by
  have front := cut_front sep l
  have text := cut_text sep l
  rw [h, Option.elim_none, List.append_nil] at text
  rwa [text] at front

end Cut

section Hierarchy
variable (l rest : List UInt8)

theorem cutScheme_text : (cutScheme l).1.elim [] (· ++ [colon]) ++ (cutScheme l).2 = l := by
  have text := cut_text colon l
  unfold cutScheme
  split
  · next b name after heq =>
      rw [heq] at text
      split
      · rfl
      · simpa using text
  · rfl

theorem cutAuthority_text :
    (cutAuthority l).1.elim [] ([slash, slash] ++ ·) ++ (cutAuthority l).2 = l := by
  unfold cutAuthority
  split
  · next a b rest =>
      split
      · next both =>
          obtain ⟨rfl, rfl⟩ := both
          simp [List.takeWhile_append_dropWhile]
      · rfl
  · rfl

theorem text_parts : (parts l).text = l := by
  simp only [Parts.text, parts]
  rw [List.append_assoc (Option.elim _ _ _), cutAuthority_text, cutScheme_text, cut_text, cut_text]

/-- What follows a slash does not change the scheme. -/
theorem cutScheme_append :
    cutScheme (l ++ slash :: rest) = ((cutScheme l).1, (cutScheme l).2 ++ slash :: rest) := by
  by_cases h : colon ∈ l
  · obtain ⟨a, r, rfl, ha⟩ := List.eq_append_cons_of_mem h
    rw [List.append_assoc, List.cons_append, cutScheme, cut_at ha, cutScheme, cut_at ha]
    cases a with
    | nil => simp
    | cons b name =>
        simp only
        split <;> simp
  · have slashed : (cut colon (l ++ slash :: rest)).1 = l ++ slash :: (cut colon rest).1 := by
      rw [cut_append h, cut, if_neg (by decide)]
    have alone : cutScheme l = (none, l) := by
      rw [cutScheme, cut_of_notMem h]
      cases l <;> rfl
    rw [alone, cutScheme]
    split
    · next b name after heq =>
        rw [heq] at slashed
        simp only at slashed
        rw [if_pos (by simp [slashed])]
    · rfl

theorem takeWhile_stop : (l ++ slash :: rest).takeWhile (· ≠ slash) = l.takeWhile (· ≠ slash) := by
  induction l with
  | nil => simp
  | cons b l ih =>
      rw [List.cons_append, List.takeWhile_cons, List.takeWhile_cons, ih]

theorem dropWhile_stop :
    (l ++ slash :: rest).dropWhile (· ≠ slash) = l.dropWhile (· ≠ slash) ++ slash :: rest := by
  induction l with
  | nil => simp
  | cons b l ih =>
      rw [List.cons_append, List.dropWhile_cons, List.dropWhile_cons, ih]
      split <;> rfl

/-- A slash behind the base starts an authority only next to another slash. -/
theorem cutAuthority_append (single : l ≠ [slash]) (empty : l = [] → rest.head? ≠ some slash) :
    cutAuthority (l ++ slash :: rest) =
      ((cutAuthority l).1, (cutAuthority l).2 ++ slash :: rest) := by
  cases l with
  | nil =>
      cases rest with
      | nil => rfl
      | cons c rest =>
          have ne : c ≠ slash := by simpa using empty rfl
          simp [cutAuthority, ne]
  | cons a l =>
      cases l with
      | nil =>
          have ne : a ≠ slash := fun heq => single (heq ▸ rfl)
          simp [cutAuthority, ne]
      | cons b l =>
          simp only [List.cons_append, cutAuthority]
          split
          · rw [takeWhile_stop, dropWhile_stop]
          · rfl

end Hierarchy

/-- A text that can be a base: a path behind it stays a path. -/
structure IsBase (base : List UInt8) : Prop where
  noQuery : question ∉ base
  noFragment : hash ∉ base
  notSlash : ¬ ((parts base).authority = none ∧ (parts base).path = [slash])
  pathChars : Wellformed IsPathChar (parts base).path

/-- The address is on the base's server, and its path is that of the base, then `front`, one
segment that decodes to `name`, and `back`; it has the query and no fragment. -/
structure Addresses (base front name back : List UInt8) (query : Option (List UInt8))
    (url : List UInt8) : Prop where
  sameScheme : (parts url).scheme = (parts base).scheme
  sameAuthority : (parts url).authority = (parts base).authority
  segment : ∃ x, (parts url).path = (parts base).path ++ slash :: (front ++ x ++ back) ∧
    slash ∉ x ∧ decode x = some name
  sameQuery : (parts url).query = query
  noFragment : (parts url).fragment = none
  pathChars : Wellformed IsPathChar (parts url).path
  queryChars : ∀ q ∈ query, Wellformed IsQueryChar q

section Under
variable {base rest : List UInt8}

theorem parts_base (noQuery : question ∉ base) (noFragment : hash ∉ base) :
    (parts base).query = none ∧ (parts base).fragment = none := by
  simp [parts, cut_of_notMem noQuery, cut_of_notMem noFragment]

theorem parts_under (h : IsBase base) (start : rest.head? ≠ some slash) :
    parts (base ++ slash :: rest) =
      { scheme := (parts base).scheme
        authority := (parts base).authority
        path := (parts base).path ++ slash :: (cut question (cut hash rest).1).1
        query := (cut question (cut hash rest).1).2
        fragment := (cut hash rest).2 } := by
  have noHash : hash ∉ base ++ [slash] := by simpa using ⟨h.noFragment, by decide⟩
  have noQuestion : question ∉ base ++ [slash] := by simpa using ⟨h.noQuery, by decide⟩
  have front : base ++ slash :: rest = (base ++ [slash]) ++ rest := by simp
  have alone : (cut question (cut hash base).1).1 = base := by
    rw [cut_of_notMem h.noFragment, cut_of_notMem h.noQuery]
  have notSlash := h.notSlash
  simp only [parts, alone] at notSlash
  have single : (cutScheme base).2 ≠ [slash] := by
    intro heq
    rw [heq] at notSlash
    exact notSlash ⟨rfl, rfl⟩
  have next : ((cut question (cut hash rest).1).1).head? ≠ some slash :=
    fun first => start (head?_of_cut (head?_of_cut first))
  simp only [parts, alone]
  rw [front, cut_append noHash]
  simp only
  rw [cut_append noQuestion]
  simp only [List.append_assoc, List.singleton_append]
  rw [cutScheme_append, cutAuthority_append _ _ single (fun _ => next)]

/-- A base that is a lone slash turns what follows into an authority. -/
theorem authority_of_slash (noQuery : question ∉ base) (noFragment : hash ∉ base)
    (authority : (parts base).authority = none) (path : (parts base).path = [slash]) :
    (parts (base ++ slash :: rest)).authority ≠ none := by
  have alone : (cut question (cut hash base).1).1 = base := by
    rw [cut_of_notMem noFragment, cut_of_notMem noQuery]
  have lone : (cutScheme base).2 = [slash] := by
    have text := cutAuthority_text (cutScheme base).2
    simp only [parts, alone] at authority path
    rwa [authority, path, Option.elim_none, List.nil_append, eq_comm] at text
  have noHash : hash ∉ base ++ [slash] := by simpa using ⟨noFragment, by decide⟩
  have noQuestion : question ∉ base ++ [slash] := by simpa using ⟨noQuery, by decide⟩
  have front : base ++ slash :: rest = (base ++ [slash]) ++ rest := by simp
  simp only [parts]
  rw [front, cut_append noHash]
  simp only
  rw [cut_append noQuestion]
  simp only [List.append_assoc, List.singleton_append]
  rw [cutScheme_append, lone]
  simp [cutAuthority]

end Under

section Wellformed
variable {p : UInt8 → Prop} {l rest : List UInt8}

theorem Wellformed.append (h : Wellformed p l) (later : Wellformed p rest) :
    Wellformed p (l ++ rest) := by
  induction h with
  | nil => exact later
  | plain allowed _ ih => exact .plain allowed ih
  | escaped high low _ ih => exact .escaped high low ih

/-- Every byte is of the kind, or a percent sign or a digit of an escape. -/
theorem Wellformed.forall_mem (h : Wellformed p l) :
    ∀ b ∈ l, p b ∨ b = sign ∨ (value? b).isSome := by
  induction h with
  | nil => simp
  | plain allowed _ ih => exact List.forall_mem_cons.mpr ⟨Or.inl allowed, ih⟩
  | escaped high low _ ih =>
      exact List.forall_mem_cons.mpr ⟨Or.inr (Or.inl rfl), List.forall_mem_cons.mpr
        ⟨Or.inr (Or.inr high), List.forall_mem_cons.mpr ⟨Or.inr (Or.inr low), ih⟩⟩⟩

theorem Wellformed.notMem {b : UInt8} (h : Wellformed p l) (kind : ¬ p b) (ne : b ≠ sign)
    (digit : value? b = none) : b ∉ l := by
  intro hb
  rcases h.forall_mem b hb with allowed | rfl | hex
  · exact kind allowed
  · exact ne rfl
  · rw [digit] at hex
    exact Bool.noConfusion hex

theorem wellformed_of_forall (h : ∀ b ∈ l, p b) : Wellformed p l := by
  induction l with
  | nil => exact .nil
  | cons b l ih =>
      obtain ⟨first, rest⟩ := List.forall_mem_cons.mp h
      exact .plain first (ih rest)

/-- No escape reaches past a character that is no digit. -/
theorem wellformed_append_iff {b : UInt8} (kind : p b) (ne : b ≠ sign) (digit : value? b = none) :
    Wellformed p (l ++ b :: rest) ↔ Wellformed p l ∧ Wellformed p rest := by
  constructor
  · intro whole
    generalize hl : l ++ b :: rest = text at whole
    induction whole generalizing l with
    | nil => simp at hl
    | plain allowed later ih =>
        cases l with
        | nil =>
            obtain ⟨rfl, rfl⟩ := List.cons.inj hl
            exact ⟨.nil, later⟩
        | cons c l =>
            obtain ⟨rfl, tail⟩ := List.cons.inj hl
            obtain ⟨front, later⟩ := ih tail
            exact ⟨.plain allowed front, later⟩
    | escaped high low later ih =>
        rcases l with _ | ⟨c, _ | ⟨d, _ | ⟨e, l⟩⟩⟩
        · exact absurd (List.cons.inj hl).1 ne
        · obtain ⟨-, rfl, -⟩ := (List.cons.inj hl).imp_right List.cons.inj
          simp [digit] at high
        · simp only [List.cons_append, List.nil_append, List.cons.injEq] at hl
          simp [← hl.2.2.1, digit] at low
        · simp only [List.cons_append, List.cons.injEq] at hl
          obtain ⟨rfl, rfl, rfl, tail⟩ := hl
          obtain ⟨front, later⟩ := ih tail
          exact ⟨.escaped high low front, later⟩
  · rintro ⟨front, later⟩
    exact front.append (.plain kind later)

theorem forall_of_wellformed (h : Wellformed p l) (noSign : sign ∉ l) : ∀ b ∈ l, p b := by
  induction h with
  | nil => simp
  | plain allowed _ ih =>
      exact List.forall_mem_cons.mpr ⟨allowed, ih (fun hs => noSign (List.mem_cons_of_mem _ hs))⟩
  | escaped => exact absurd List.mem_cons_self noSign

/-- What is encoded may stand anywhere behind a question mark. -/
theorem wellformed_of_encoded (h : Encoded l) : Wellformed IsQueryChar l := by
  induction h with
  | nil => exact .nil
  | plain unreserved _ ih => exact .plain (Or.inl (Or.inl unreserved)) ih
  | escaped high low _ ih =>
      exact .escaped (value?_isSome_of_isUpperHex high) (value?_isSome_of_isUpperHex low) ih

theorem Wellformed.noQuestion (h : Wellformed IsPathChar l) : question ∉ l :=
  h.notMem (by decide) (by decide) (by decide)

theorem Wellformed.noHash (h : Wellformed IsPathChar l) : hash ∉ l :=
  h.notMem (by decide) (by decide) (by decide)

theorem Wellformed.noHash_query (h : Wellformed IsQueryChar l) : hash ∉ l :=
  h.notMem (by decide) (by decide) (by decide)

theorem Wellformed.decodes (h : Wellformed p l) (noSign : ¬ p sign) :
    ∃ text, decode l = some text := by
  induction h with
  | nil => exact ⟨[], rfl⟩
  | @plain b rest allowed _ ih =>
      obtain ⟨text, htext⟩ := ih
      refine ⟨b :: text, ?_⟩
      rw [decode_plain (fun heq => noSign (heq ▸ allowed)), htext, Option.map_some]
  | escaped high low _ ih =>
      obtain ⟨text, htext⟩ := ih
      obtain ⟨x, hx⟩ := Option.isSome_iff_exists.mp high
      obtain ⟨y, hy⟩ := Option.isSome_iff_exists.mp low
      refine ⟨UInt8.ofNat (x * 16 + y) :: text, ?_⟩
      simp [decode, hx, hy, htext]

/-- What may stand in a segment as it is. -/
theorem forall_isPchar_iff :
    (∀ b ∈ l, IsPchar b) ↔ Wellformed IsPathChar l ∧ slash ∉ l ∧ sign ∉ l := by
  constructor
  · intro h
    refine ⟨wellformed_of_forall fun b hb => Or.inl (h b hb), fun hs => ?_, fun hs => ?_⟩
    · exact absurd (h slash hs) (by decide)
    · exact absurd (h sign hs) (by decide)
  · rintro ⟨wellformed, noSlash, noSign⟩ b hb
    refine (forall_of_wellformed wellformed noSign b hb).resolve_right ?_
    rintro rfl
    exact noSlash hb

end Wellformed

section Addresses
variable (base front name back : List UInt8) (query : Option (List UInt8))

section Text
variable {base front name back url : List UInt8} {query : Option (List UInt8)}
  (text : url = base ++ slash :: (front ++ name ++ back) ++ query.elim [] (question :: ·))
include text

/-- Where the pieces are read as meant, no separator stands before the query. -/
theorem Addresses.noSeparators (h : Addresses base front name back query url) :
    hash ∉ url ∧ question ∉ base ++ slash :: (front ++ name ++ back) := by
  have noHash := notMem_of_cut h.noFragment
  have same := h.sameQuery
  simp only [parts, cut_of_notMem noHash] at same
  have halves := cut_text question url
  rw [same, text] at halves
  have noQuestion := cut_front question url
  rw [text, List.append_cancel_right halves] at noQuestion
  exact ⟨noHash, noQuestion⟩

/-- Put together again, the components give the name back. -/
theorem Addresses.segment_eq (h : Addresses base front name back query url)
    (noHash : hash ∉ base) (noQuestion : question ∉ base) :
    (parts url).path = (parts base).path ++ slash :: (front ++ name ++ back) ∧ slash ∉ name ∧
      decode name = some name := by
  obtain ⟨x, hpath, noSlash, decoded⟩ := h.segment
  obtain ⟨noQuery, noFragment⟩ := parts_base noQuestion noHash
  have whole := text_parts url
  have bare := text_parts base
  simp only [Parts.text, noQuery, noFragment, Option.elim_none, List.append_nil] at bare
  simp only [Parts.text, h.sameScheme, h.sameAuthority, hpath, h.sameQuery, h.noFragment,
    Option.elim_none, List.append_nil] at whole
  rw [text] at whole
  have hier := List.append_cancel_right whole
  rw [← List.append_assoc, bare] at hier
  have segment := (List.cons.inj (List.append_cancel_left hier)).2
  have same : x = name := List.append_cancel_left (List.append_cancel_right segment)
  subst same
  exact ⟨hpath, noSlash, decoded⟩

theorem Addresses.isBase (h : Addresses base front name back query url) (noHash : hash ∉ base)
    (noQuestion : question ∉ base) (pathChars : Wellformed IsPathChar (parts base).path) :
    IsBase base := by
  refine ⟨noQuestion, noHash, ?_, pathChars⟩
  rintro ⟨authority, path⟩
  have around : url =
      base ++ slash :: (front ++ name ++ back ++ query.elim [] (question :: ·)) := by simp [text]
  have taken := h.sameAuthority
  rw [around, authority] at taken
  exact authority_of_slash noQuestion noHash authority path taken

/-- The components of an address whose pieces have the characters of their places. -/
theorem parts_address (isBase : IsBase base) (pathChars : Wellformed IsPathChar (front ++ name ++ back))
    (queryChars : ∀ q ∈ query, Wellformed IsQueryChar q)
    (start : (front ++ name ++ back).head? ≠ some slash) :
    parts url =
      { scheme := (parts base).scheme
        authority := (parts base).authority
        path := (parts base).path ++ slash :: (front ++ name ++ back)
        query := query
        fragment := none } := by
  have noHash : hash ∉ front ++ name ++ back ++ query.elim [] (question :: ·) := by
    refine fun hb => (List.mem_append.mp hb).elim pathChars.noHash ?_
    cases query with
    | none => exact List.not_mem_nil
    | some q =>
        have later := (queryChars q rfl).noHash_query
        exact List.not_mem_cons_of_ne_of_not_mem (by decide) later
  have halves : cut question (front ++ name ++ back ++ query.elim [] (question :: ·)) =
      (front ++ name ++ back, query) := by
    cases query with
    | none => rw [Option.elim_none, List.append_nil, cut_of_notMem pathChars.noQuestion]
    | some q => exact cut_at pathChars.noQuestion q
  have first : (front ++ name ++ back ++ query.elim [] (question :: ·)).head? ≠ some slash := by
    rw [List.head?_append]
    cases hhead : (front ++ name ++ back).head? with
    | some b => rwa [hhead] at start
    | none => cases query <;> simp [question, slash]
  have under := parts_under isBase first
  rw [cut_of_notMem noHash, halves] at under
  rw [text, List.append_assoc, List.cons_append]
  exact under

end Text

/-- An address made by putting its pieces together is the intended one exactly when each piece
has only the characters of its place, and the name no slash and no percent sign. -/
theorem addresses_iff (start : slash ∉ name → (front ++ name ++ back).head? ≠ some slash) :
    Addresses base front name back query
        (base ++ slash :: (front ++ name ++ back) ++ query.elim [] (question :: ·)) ↔
      IsBase base ∧ Wellformed IsPathChar (front ++ name ++ back) ∧
        (∀ q ∈ query, Wellformed IsQueryChar q) ∧ slash ∉ name ∧ sign ∉ name := by
  constructor
  · intro h
    obtain ⟨noHash, noQuestion⟩ := h.noSeparators rfl
    have noHashBase : hash ∉ base := fun hb => noHash (by simp [hb])
    have noQuestionBase : question ∉ base := fun hb => noQuestion (by simp [hb])
    obtain ⟨hpath, noSlash, decoded⟩ := h.segment_eq rfl noHashBase noQuestionBase
    have pathChars := h.pathChars
    rw [hpath, wellformed_append_iff (Or.inr rfl) (by decide) (by decide)] at pathChars
    exact ⟨h.isBase rfl noHashBase noQuestionBase pathChars.1, pathChars.2, h.queryChars, noSlash,
      decode_eq_self_iff.mp decoded⟩
  · rintro ⟨isBase, pathChars, queryChars, noSlash, noSign⟩
    have address := parts_address rfl isBase pathChars queryChars (start noSlash)
    have whole : Wellformed IsPathChar ((parts base).path ++ slash :: (front ++ name ++ back)) :=
      isBase.pathChars.append (.plain (Or.inr rfl) pathChars)
    exact {
      sameScheme := by rw [address]
      sameAuthority := by rw [address]
      segment := ⟨name, by rw [address], noSlash, decode_of_notMem noSign⟩
      sameQuery := by rw [address]
      noFragment := by rw [address]
      pathChars := by rwa [address]
      queryChars := queryChars }

/-- Different names behind the same front are at different places. -/
theorem Addresses.decode_path_ne {other url url' : List UInt8} {query' : Option (List UInt8)}
    (h : Addresses base (front ++ [slash]) name [] query url)
    (h' : Addresses base (front ++ [slash]) other [] query' url') (ne : name ≠ other) :
    decode (parts url).path ≠ decode (parts url').path := by
  have place {name url : List UInt8} {query : Option (List UInt8)}
      (h : Addresses base (front ++ [slash]) name [] query url) :
      ∃ text, decode ((parts base).path ++ slash :: front) = some text ∧
        decode (parts url).path = some (text ++ slash :: name) := by
    obtain ⟨x, hpath, -, decoded⟩ := h.segment
    have split : (parts url).path = ((parts base).path ++ slash :: front) ++ slash :: x := by
      simp [hpath]
    have pathChars := h.pathChars
    rw [split, wellformed_append_iff (Or.inr rfl) (by decide) (by decide)] at pathChars
    obtain ⟨text, htext⟩ := pathChars.1.decodes (by decide)
    refine ⟨text, htext, ?_⟩
    rw [split, (reads_of_decode htext).decode_append, decode_plain (by decide), decoded]
    rfl
  obtain ⟨text, htext, here⟩ := place h
  obtain ⟨text', htext', there⟩ := place h'
  obtain rfl := Option.some.inj (htext.symm.trans htext')
  rw [here, there]
  intro same
  exact ne (List.cons.inj (List.append_cancel_left (Option.some.inj same))).2

end Addresses

end Uri
