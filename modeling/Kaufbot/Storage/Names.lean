import Kaufbot.Library.Calendar

/-!
The names under which the bot stores an upload and its extracted text. Both
are derived from one clock reading and the extension of the user's file name;
the second drops the extension. The structure of the names is proved here, and
everything later that depends on names colliding or not rests on it.
-/

namespace Kaufbot

open CString

def maxFilename : Nat := 256

def dot : UInt8 := 46

/-- The part of the stored name that comes from the clock. -/
def uploadStem (t : Tm) : CString :=
  .concat [lit "upload_", printPadded 4 (t.year + 1900), lit "-", printPadded 2 (t.mon + 1),
    lit "-", printPadded 2 t.mday, lit "_", printPadded 2 t.hour, lit "_", printPadded 2 t.min,
    lit "_", printPadded 2 t.sec]

/-- `storage_gen_filename(ext, out, out_len)` at the clock reading `now`. -/
def storageGenFilename (zone : TimeZone) (now : Int) (ext : CString) (outLen : Nat) : CString :=
  snprintf outLen (uploadStem (zone.localtime now) ++ ext)

def storageOcrFilename (savedName : CString) (outLen : Nat) : CString :=
  let base := match savedName.strrchr dot with
    | some rest => savedName.take (savedName.length - rest.length)
    | none => savedName
  snprintf outLen (base ++ lit "_ocr_result.txt")

/-- The argument of `storage_gen_filename`: from the last dot of the user's name on. -/
def uploadExtension (originalName : CString) : CString :=
  (originalName.strrchr dot).getD .empty

/-- Nothing, or a dot and no further dot. -/
def IsExtension (ext : List UInt8) : Prop := ext = [] ∨ ∃ rest, ext = dot :: rest ∧ dot ∉ rest

/-- The shape of every name `storage_gen_filename` makes for an upload. -/
structure SavedName (stem ext : List UInt8) : Prop where
  noDot : dot ∉ stem
  endsInDigit : ∃ init b, stem = init ++ [b] ∧ IsDigit b
  short : stem.length ≤ 78
  extension : IsExtension ext
  fits : (stem ++ ext).length < maxFilename

theorem isExtension_uploadExtension (originalName : CString) :
    IsExtension (uploadExtension originalName).bytes := by
  cases h : originalName.strrchr dot with
  | none => exact Or.inl (by simp [uploadExtension, h])
  | some ext =>
      right
      simpa [uploadExtension, h] using lastFrom_eq_some (strrchr_eq_some.mp h)

theorem IsExtension.take {ext : List UInt8} (h : IsExtension ext) (n : Nat) :
    IsExtension (ext.take n) := by
  rcases h with rfl | ⟨rest, rfl, hrest⟩
  · exact Or.inl (by simp)
  · cases n with
    | zero => exact Or.inl rfl
    | succ n => exact Or.inr ⟨rest.take n, rfl, fun h => hrest (List.mem_of_mem_take h)⟩

private theorem notMem_printPadded (c : UInt8) (hd : ¬ IsDigit c) (hs : c ≠ 45) (width : Nat)
    (n : Int) : c ∉ (printPadded width n).bytes := by
  intro h
  rcases mem_printPadded h with digit | sign
  · exact hd digit
  · exact hs sign

theorem dot_notMem_uploadStem (t : Tm) : dot ∉ (uploadStem t).bytes := by
  have number := notMem_printPadded dot (by decide) (by decide)
  have upload : dot ∉ (lit "upload_").bytes := by decide
  have minus : dot ∉ (lit "-").bytes := by decide
  have underscore : dot ∉ (lit "_").bytes := by decide
  simp only [uploadStem, bytes_concat, List.flatMap_cons, List.flatMap_nil, List.mem_append,
    number, upload, minus, underscore, List.not_mem_nil, or_self, not_false_eq_true]

theorem uploadStem_getLast (t : Tm) :
    ∃ init b, (uploadStem t).bytes = init ++ [b] ∧ IsDigit b := by
  obtain ⟨init, b, hlast, hb⟩ := printPadded_getLast 2 t.sec
  refine ⟨(CString.concat [lit "upload_", printPadded 4 (t.year + 1900), lit "-",
    printPadded 2 (t.mon + 1), lit "-", printPadded 2 t.mday, lit "_", printPadded 2 t.hour,
    lit "_", printPadded 2 t.min, lit "_"]).bytes ++ init, b, ?_, hb⟩
  simp only [uploadStem, bytes_concat, List.flatMap_cons, List.flatMap_nil, hlast,
    List.append_nil, List.append_assoc]

theorem length_uploadStem_le {t : Tm} (h : t.InRange) : (uploadStem t).bytes.length ≤ 78 := by
  have number (n : Int) (width : Nat) (hw : width ≤ 10) (hl : -(2 ^ 31) ≤ n)
      (hu : n < 2 ^ 31) : (printPadded width n).bytes.length ≤ 11 :=
    length_printPadded_le hw hl hu
  have year := number (t.year + 1900) 4 (by decide)
    (by have := h.year; omega) h.year.2
  have mon := number (t.mon + 1) 2 (by decide)
    (by have := h.mon; omega) (by have := h.mon; omega)
  have mday := number t.mday 2 (by decide)
    (by have := h.mday; omega) (by have := h.mday; omega)
  have hour := number t.hour 2 (by decide)
    (by have := h.hour; omega) (by have := h.hour; omega)
  have min := number t.min 2 (by decide)
    (by have := h.min; omega) (by have := h.min; omega)
  have sec := number t.sec 2 (by decide)
    (by have := h.sec; omega) (by have := h.sec; omega)
  have upload : (lit "upload_").bytes.length = 7 := by decide
  have minus : (lit "-").bytes.length = 1 := by decide
  have underscore : (lit "_").bytes.length = 1 := by decide
  simp only [uploadStem, bytes_concat, List.flatMap_cons, List.flatMap_nil, List.length_append,
    List.length_nil, upload, minus, underscore]
  omega

/-- Every generated name is a stem and an extension, and the stem is kept whole. -/
theorem storageGenFilename_savedName (zone : TimeZone) (now : Int) (originalName : CString) :
    ∃ ext, SavedName (uploadStem (zone.localtime now)).bytes ext ∧
      (storageGenFilename zone now (uploadExtension originalName) maxFilename).bytes =
        (uploadStem (zone.localtime now)).bytes ++ ext := by
  have short := length_uploadStem_le (zone.localtime_inRange now)
  refine ⟨(uploadExtension originalName).bytes.take
    (255 - (uploadStem (zone.localtime now)).bytes.length), ?_, ?_⟩
  · refine ⟨dot_notMem_uploadStem _, uploadStem_getLast _, short,
      (isExtension_uploadExtension originalName).take _, ?_⟩
    simp only [List.length_append, List.length_take, maxFilename]
    omega
  · simp only [storageGenFilename, bytes_snprintf, bytes_append, maxFilename, List.take_append]
    rw [List.take_of_length_le (by omega)]

/-- The part of the user's file name that gets into the stored name. -/
def keptExtension (zone : TimeZone) (now : Int) (originalName : CString) : List UInt8 :=
  (uploadExtension originalName).bytes.take
    (maxFilename - 1 - (uploadStem (zone.localtime now)).length)

theorem storageGenFilename_bytes (zone : TimeZone) (now : Int) (originalName : CString) :
    (storageGenFilename zone now (uploadExtension originalName) maxFilename).bytes =
      (uploadStem (zone.localtime now)).bytes ++ keptExtension zone now originalName := by
  have short := length_uploadStem_le (zone.localtime_inRange now)
  simp only [storageGenFilename, bytes_snprintf, bytes_append, maxFilename, List.take_append,
    keptExtension, length]
  rw [List.take_of_length_le (by omega)]

section OcrName
variable {name : CString} {stem ext : List UInt8}

theorem storageOcrFilename_bytes (h : SavedName stem ext) (hname : name.bytes = stem ++ ext) :
    (storageOcrFilename name maxFilename).bytes = stem ++ (lit "_ocr_result.txt").bytes := by
  have fits : (stem ++ (lit "_ocr_result.txt").bytes).length ≤ 255 := by
    have : (lit "_ocr_result.txt").bytes.length = 15 := by decide
    have := h.short
    simp only [List.length_append]
    omega
  rcases h.extension with rfl | ⟨rest, rfl, hrest⟩
  · have none : name.strrchr dot = none := by
      rw [strrchr_eq_none, hname, List.append_nil]
      exact h.noDot
    simp only [storageOcrFilename, none, bytes_snprintf, bytes_append, hname, List.append_nil]
    exact List.take_of_length_le fits
  · cases hr : name.strrchr dot with
    | none =>
        rw [strrchr_eq_none, hname] at hr
        simp at hr
    | some suffix =>
        have found := strrchr_eq_some.mp hr
        rw [hname, lastFrom_append stem rest hrest, Option.some_inj] at found
        have base : (name.take (name.length - suffix.length)).bytes = stem := by
          simp only [bytes_take, CString.length, hname, ← found, List.length_append,
            Nat.add_sub_cancel_right, List.take_left]
        simp only [storageOcrFilename, hr, bytes_snprintf, bytes_append, base]
        exact List.take_of_length_le fits

/-- The text of an upload never lands on the image of an upload. -/
theorem storageOcrFilename_ne_savedName (h : SavedName stem ext)
    (hname : name.bytes = stem ++ ext) {other : CString} {stem' ext' : List UInt8}
    (h' : SavedName stem' ext') (hother : other.bytes = stem' ++ ext') :
    storageOcrFilename name maxFilename ≠ other := by
  -- up to the first dot, one name ends in a letter and the other in a digit
  have beforeDot {front back : List UInt8} (hf : dot ∉ front) (hb : IsExtension back) :
      (front ++ back).takeWhile (· != dot) = front := by
    have keep : ∀ b ∈ front, (b != dot) = true := fun b hmem => by
      simpa using fun heq : b = dot => hf (heq ▸ hmem)
    rcases hb with rfl | ⟨rest, rfl, _⟩
    · simpa using List.takeWhile_eq_self_iff.mpr keep
    · rw [List.takeWhile_append_of_pos keep]
      simp
  have split : (lit "_ocr_result.txt").bytes = (lit "_ocr_resul").bytes ++ [116] ++
      (lit ".txt").bytes := by decide
  have txt : IsExtension (lit ".txt").bytes := Or.inr ⟨[116, 120, 116], by decide, by decide⟩
  rintro rfl
  have ocr := storageOcrFilename_bytes h hname
  rw [hother, split, ← List.append_assoc] at ocr
  have front : dot ∉ stem ++ ((lit "_ocr_resul").bytes ++ [116]) := by
    have : dot ∉ (lit "_ocr_resul").bytes ++ [116] := by decide
    simp only [List.mem_append] at this ⊢
    rintro (hs | hl)
    · exact h.noDot hs
    · exact this hl
  have stems := congrArg (List.takeWhile (· != dot)) ocr
  rw [beforeDot h'.noDot h'.extension, beforeDot front txt, ← List.append_assoc] at stems
  obtain ⟨init, b, hlast, hdigit⟩ := h'.endsInDigit
  rw [hlast] at stems
  obtain rfl : b = 116 := by simpa using (List.append_inj' stems rfl).2
  exact absurd hdigit (by decide)

theorem storageOcrFilename_ne_empty (h : SavedName stem ext) (hname : name.bytes = stem ++ ext) :
    storageOcrFilename name maxFilename ≠ .empty := by
  intro hempty
  have bytes := storageOcrFilename_bytes h hname
  rw [hempty] at bytes
  have literal : (lit "_ocr_result.txt").bytes ≠ [] := by decide
  have nil : stem ++ (lit "_ocr_result.txt").bytes = [] := bytes.symm
  exact literal (List.append_eq_nil_iff.mp nil).2

end OcrName

end Kaufbot
