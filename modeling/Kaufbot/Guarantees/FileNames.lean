import Kaufbot.Library.Paths
import Kaufbot.Storage.Local
import Kaufbot.Storage.Names

/-!
The names under which uploads and their texts are stored, against the file
system: whatever the user calls a file, its names lead below the base path, the
name of the text is whole, and no text is stored where an image is.
-/

namespace Kaufbot

open CString Paths

/-- A name that leads to a file below the directory it is looked up in. -/
structure Confined (name : CString) : Prop where
  relative : ∃ b rest, name.bytes = b :: rest ∧ b ≠ slash
  plain : Plain name.bytes

section Names
variable {stem ext : List UInt8}

theorem slash_notMem_uploadStem (t : Tm) : slash ∉ (uploadStem t).bytes := by
  have number (width : Nat) (n : Int) : slash ∉ (printPadded width n).bytes := by
    intro h
    rcases mem_printPadded h with digit | sign
    · exact absurd digit (by decide)
    · exact absurd sign (by decide)
  have upload : slash ∉ (lit "upload_").bytes := by decide
  have minus : slash ∉ (lit "-").bytes := by decide
  have underscore : slash ∉ (lit "_").bytes := by decide
  simp only [uploadStem, bytes_concat, List.flatMap_cons, List.flatMap_nil, List.mem_append,
    number, upload, minus, underscore, List.not_mem_nil, or_self, not_false_eq_true]

/-- The first component of a stored name: it has the whole stem and the first period. -/
theorem SavedName.front (h : SavedName stem ext) (noSlash : slash ∉ stem) :
    ∃ front rest, stem ++ ext = front ++ rest ∧ slash ∉ front ∧ period ∉ rest ∧
      ∃ b ∈ front, b ≠ period := by
  obtain ⟨init, b, rfl, digit⟩ := h.endsInDigit
  have other : b ≠ period := by
    rintro rfl
    exact absurd digit (by decide)
  have inStem : b ∈ init ++ [b] := List.mem_append_right _ (List.mem_singleton_self b)
  rcases h.extension with rfl | ⟨rest, rfl, noDot⟩
  · exact ⟨_, [], rfl, noSlash, List.not_mem_nil, b, inStem, other⟩
  · refine ⟨init ++ [b] ++ [dot], rest, by simp, ?_, noDot, b, List.mem_append_left _ inStem, other⟩
    have apart : slash ∉ [dot] := by decide
    exact fun hmem => (List.mem_append.mp hmem).elim noSlash apart

/-- A name that starts with something else than a slash and has no period after its front. -/
theorem confined_of_front {name : CString} {front rest : List UInt8}
    (hname : name.bytes = front ++ rest) (noSlash : slash ∉ front) (noPeriod : period ∉ rest)
    (some : ∃ b ∈ front, b ≠ period) : Confined name := by
  obtain ⟨b, hb, ne⟩ := some
  constructor
  · obtain ⟨c, tail, rfl⟩ := List.exists_cons_of_ne_nil (List.ne_nil_of_mem hb)
    refine ⟨c, tail ++ rest, hname, ?_⟩
    rintro rfl
    exact noSlash List.mem_cons_self
  · rw [hname]
    exact plain_of_front noSlash hb ne noPeriod

theorem SavedName.confined {name : CString} (h : SavedName stem ext) (noSlash : slash ∉ stem)
    (hname : name.bytes = stem ++ ext) : Confined name := by
  obtain ⟨front, rest, split, apart, noPeriod, some⟩ := h.front noSlash
  exact confined_of_front (hname.trans split) apart noPeriod some

theorem ocr_confined {name : CString} (h : SavedName stem ext) (noSlash : slash ∉ stem)
    (hname : name.bytes = stem ++ ext) : Confined (storageOcrFilename name maxFilename) := by
  have literal : slash ∉ (lit "_ocr_result.txt").bytes := by decide
  have whole : (storageOcrFilename name maxFilename).bytes =
      (stem ++ (lit "_ocr_result.txt").bytes) ++ [] := by
    rw [storageOcrFilename_bytes h hname, List.append_nil]
  refine confined_of_front whole (fun hmem => (List.mem_append.mp hmem).elim noSlash literal)
    List.not_mem_nil ⟨95, ?_, by decide⟩
  exact List.mem_append_right _ (by decide)

/-- The path of a file of at most 255 bytes is composed whole. -/
theorem localFullPath_bytes (storagePath : CString) {name : CString} (short : name.length < maxFilename) :
    (localFullPath (localOpen storagePath) name).bytes =
      (localOpen storagePath).bytes ++ slash :: name.bytes := by
  have base : (localOpen storagePath).length < maxPathLen := length_snprintf_lt (by decide) _
  have separator : (lit "/").bytes = [slash] := by decide
  have whole : (CString.concat [localOpen storagePath, lit "/", name]).bytes =
      (localOpen storagePath).bytes ++ slash :: name.bytes := by
    simp [separator]
  rw [localFullPath, snprintf_of_length_lt, whole]
  simp only [length, whole, List.length_append, List.length_cons, maxPathLen, maxFilename] at *
  omega

theorem Confined.below {name : CString} (h : Confined name) (short : name.length < maxFilename)
    (storagePath : CString) :
    Below (localOpen storagePath).bytes (localFullPath (localOpen storagePath) name).bytes := by
  obtain ⟨b, rest, split, ne⟩ := h.relative
  have plain := h.plain
  rw [split] at plain
  rw [localFullPath_bytes storagePath short, split]
  exact below_join _ plain ne

theorem slash_notMem_ocr {name : CString} (h : SavedName stem ext) (noSlash : slash ∉ stem)
    (hname : name.bytes = stem ++ ext) : slash ∉ (storageOcrFilename name maxFilename).bytes := by
  have literal : slash ∉ (lit "_ocr_result.txt").bytes := by decide
  rw [storageOcrFilename_bytes h hname]
  exact fun hmem => (List.mem_append.mp hmem).elim noSlash literal

theorem SavedName.of_prefix {cut : List UInt8} (h : SavedName stem ext) (short : cut <+: ext) :
    SavedName stem cut where
  noDot := h.noDot
  endsInDigit := h.endsInDigit
  short := h.short
  extension := by
    rw [List.prefix_iff_eq_take.mp short]
    exact h.extension.take _
  fits := by
    have le := short.length_le
    have fits := h.fits
    rw [List.length_append] at fits ⊢
    omega

/-- Even where an extension has slashes in it, a text and an image lie in different places. -/
theorem resolve_ocr_ne {name image : CString} {stem' ext' : List UInt8} (h : SavedName stem ext)
    (noSlash : slash ∉ stem) (hname : name.bytes = stem ++ ext) (h' : SavedName stem' ext')
    (noSlash' : slash ∉ stem') (himage : image.bytes = stem' ++ ext') (cwd : List (List UInt8))
    (base : List UInt8) :
    resolve cwd (base ++ slash :: (storageOcrFilename name maxFilename).bytes) ≠
      resolve cwd (base ++ slash :: image.bytes) := by
  intro same
  obtain ⟨init, b, last, -⟩ := h'.endsInDigit
  have inStem : b ∈ stem' := by
    rw [last]
    exact List.mem_append_right _ (List.mem_singleton_self b)
  obtain ⟨first, rest, split, comps⟩ := filter_components_front noSlash' inStem ext'
  have confined := ocr_confined h noSlash hname
  obtain ⟨c, tail, hc, -⟩ := confined.relative
  have alone := filter_components_single (slash_notMem_ocr h noSlash hname) (hc ▸ List.mem_cons_self)
  rw [resolve_join cwd base confined.plain,
    resolve_join cwd base (h'.confined noSlash' himage).plain, himage, comps, alone] at same
  -- the first component of the image's name would be the name of the text
  have ocr := (List.cons.inj (List.append_cancel_left same)).1
  exact storageOcrFilename_ne_savedName h hname (h'.of_prefix (prefix_first_component split)) ocr rfl

end Names

/-- For any two uploads at any times: their names and those of their texts lead to files below the
base path, a text's name is whole, and it is not the name of an image, nor does it lead to one. -/
theorem uploadNames_confined (zone zone' : TimeZone) (now now' : Int) (original other : CString)
    (storagePath : CString) :
    let saved := storageGenFilename zone now (uploadExtension original) maxFilename
    let ocr := storageOcrFilename saved maxFilename
    let image := storageGenFilename zone' now' (uploadExtension other) maxFilename
    let path := fun name => (localFullPath (localOpen storagePath) name).bytes
    (Confined saved ∧ Confined ocr) ∧
      (Below (localOpen storagePath).bytes (path saved) ∧
        Below (localOpen storagePath).bytes (path ocr)) ∧
      (∃ stem ext, saved.bytes = stem ++ ext ∧ IsExtension ext ∧ dot ∉ stem ∧
        ocr.bytes = stem ++ (lit "_ocr_result.txt").bytes) ∧
      ocr ≠ image ∧ ∀ cwd, resolve cwd (path ocr) ≠ resolve cwd (path image) := by
  intro saved ocr image path
  obtain ⟨ext, h, hsaved⟩ := storageGenFilename_savedName zone now original
  obtain ⟨ext', h', himage⟩ := storageGenFilename_savedName zone' now' other
  have noSlash := slash_notMem_uploadStem (zone.localtime now)
  have noSlash' := slash_notMem_uploadStem (zone'.localtime now')
  have confined : Confined saved := h.confined noSlash hsaved
  have ocrConfined : Confined ocr := ocr_confined h noSlash hsaved
  have savedShort : saved.length < maxFilename := length_snprintf_lt (by decide) _
  have ocrShort : ocr.length < maxFilename := length_snprintf_lt (by decide) _
  have imageShort : image.length < maxFilename := length_snprintf_lt (by decide) _
  refine ⟨⟨confined, ocrConfined⟩, ⟨confined.below savedShort _, ocrConfined.below ocrShort _⟩,
    ⟨_, ext, hsaved, h.extension, h.noDot, storageOcrFilename_bytes h hsaved⟩,
    storageOcrFilename_ne_savedName h hsaved h' himage, fun cwd => ?_⟩
  change resolve cwd (localFullPath _ ocr).bytes ≠ resolve cwd (localFullPath _ image).bytes
  rw [localFullPath_bytes storagePath ocrShort, localFullPath_bytes storagePath imageShort]
  exact resolve_ocr_ne h noSlash hsaved h' noSlash' himage cwd _

end Kaufbot
