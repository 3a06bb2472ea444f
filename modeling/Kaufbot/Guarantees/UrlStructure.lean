import Kaufbot.Guarantees.ModelChoice
import Kaufbot.Library.Uri
import Kaufbot.Storage.Names
import Kaufbot.Storage.Supabase

/-!
The URLs into which names of uploads and models are put as they are. A URL has
the intended structure exactly when the configuration is a URL's beginning and
the string has only characters that may stand in a path segment; the name of a
file is read back from its address then, and two names have two addresses.
-/

namespace Kaufbot

open CString Runs Uri

/-- `<base path>/storage/v1/object/<bucket>/<x>`, where `x` decodes to the name. -/
def AddressesObject (storage : SupabaseStorage) (name url : CString) : Prop :=
  Addresses storage.baseUrl.bytes
    ((lit "storage/v1/object/").bytes ++ storage.bucket.bytes ++ [slash]) name.bytes [] none
    url.bytes

/-- `<base path>/<y>:generateContent` with the key as the only parameter, where `y` decodes to the
model. -/
def AddressesModel (client : GeminiClient) (model url : CString) : Prop :=
  Addresses client.apiBase.bytes [] model.bytes (lit ":generateContent").bytes
      (some ((lit "key=").bytes ++ client.apiKey.bytes)) url.bytes ∧
    38 ∉ client.apiKey.bytes

structure SupabaseConfigured (storage : SupabaseStorage) : Prop where
  base : IsBase storage.baseUrl.bytes
  bucket : Wellformed IsPathChar storage.bucket.bytes

structure GeminiConfigured (client : GeminiClient) : Prop where
  base : IsBase client.apiBase.bytes
  key : Wellformed IsQueryChar client.apiKey.bytes
  oneParameter : 38 ∉ client.apiKey.bytes

/-- Only characters of a path segment, and no escapes. -/
def SegmentText (l : List UInt8) : Prop := ∀ b ∈ l, IsPchar b

section Object
variable (storage : SupabaseStorage) {name : CString}

/-- The name of a stored file is short enough for its address. -/
theorem supabaseObjectUrl_bytes (short : name.length < maxFilename) :
    (supabaseObjectUrl storage name).bytes =
      storage.baseUrl.bytes ++
        slash :: ((lit "storage/v1/object/").bytes ++ storage.bucket.bytes ++ [slash] ++ name.bytes) := by
  have base := storage.baseUrlFits
  have bucket := storage.bucketFits
  have path : (lit "/storage/v1/object/").bytes = slash :: (lit "storage/v1/object/").bytes := by
    decide
  have separator : (lit "/").bytes = [slash] := by decide
  have literal : (lit "storage/v1/object/").bytes.length = 18 := by decide
  have whole : (objectAddress storage name).bytes = storage.baseUrl.bytes ++
      slash :: ((lit "storage/v1/object/").bytes ++ storage.bucket.bytes ++ [slash] ++ name.bytes) := by
    simp [objectAddress, path, separator]
  rw [supabaseObjectUrl, snprintf_of_length_lt, whole]
  simp only [length, whole, List.length_append, List.length_cons, literal, maxComposedUrl,
    maxUrlLen, maxPathLen, maxFilename] at *
  simp only [List.length_nil]
  omega

theorem objectPath_wellformed (name : List UInt8) :
    Wellformed IsPathChar
        ((lit "storage/v1/object/").bytes ++ storage.bucket.bytes ++ [slash] ++ name) ↔
      Wellformed IsPathChar storage.bucket.bytes ∧ Wellformed IsPathChar name := by
  have literal : (lit "storage/v1/object/").bytes = (lit "storage/v1/object").bytes ++ [slash] := by
    decide
  have plain : Wellformed IsPathChar (lit "storage/v1/object").bytes :=
    wellformed_of_forall (by decide +kernel)
  have split : IsPathChar slash := Or.inr rfl
  rw [List.append_assoc, List.singleton_append, wellformed_append_iff split (by decide) (by decide),
    literal, List.append_assoc, List.singleton_append,
    wellformed_append_iff split (by decide) (by decide)]
  simp only [plain, true_and]

theorem addressesObject_iff (short : name.length < maxFilename) :
    AddressesObject storage name (supabaseObjectUrl storage name) ↔
      SupabaseConfigured storage ∧ SegmentText name.bytes := by
  have literal : (lit "storage/v1/object/").bytes = 115 :: (lit "torage/v1/object/").bytes := by
    decide
  have exact_ := addresses_iff storage.baseUrl.bytes
    ((lit "storage/v1/object/").bytes ++ storage.bucket.bytes ++ [slash]) name.bytes [] none
    (fun _ => by simp [literal, slash])
  rw [List.append_nil, Option.elim_none, List.append_nil, ← supabaseObjectUrl_bytes storage short,
    objectPath_wellformed] at exact_
  rw [AddressesObject, exact_, SegmentText, forall_isPchar_iff]
  constructor
  · rintro ⟨base, ⟨bucket, wellformed⟩, -, noSlash, noSign⟩
    exact ⟨⟨base, bucket⟩, wellformed, noSlash, noSign⟩
  · rintro ⟨⟨base, bucket⟩, wellformed, noSlash, noSign⟩
    exact ⟨base, ⟨bucket, wellformed⟩, by simp, noSlash, noSign⟩

end Object

section Model
variable (client : GeminiClient) {model : CString}

theorem endpoint_bytes (model : CString) :
    (client.endpoint model).bytes = client.apiBase.bytes ++
      slash :: ([] ++ model.bytes ++ (lit ":generateContent").bytes) ++
        question :: ((lit "key=").bytes ++ client.apiKey.bytes) := by
  have verb : (lit ":generateContent?key=").bytes =
      (lit ":generateContent").bytes ++ question :: (lit "key=").bytes := by decide
  have separator : (lit "/").bytes = [slash] := by decide
  simp [GeminiClient.endpoint, verb, separator]

theorem verb_bytes : (lit ":generateContent").bytes = colon :: (lit "generateContent").bytes := by
  decide

theorem modelPath_wellformed (model : List UInt8) :
    Wellformed IsPathChar ([] ++ model ++ (lit ":generateContent").bytes) ↔
      Wellformed IsPathChar model := by
  have plain : Wellformed IsPathChar (lit "generateContent").bytes :=
    wellformed_of_forall (by decide +kernel)
  rw [List.nil_append, verb_bytes, wellformed_append_iff (by decide) (by decide) (by decide)]
  exact and_iff_left plain

theorem keyQuery_wellformed (key : List UInt8) :
    Wellformed IsQueryChar ((lit "key=").bytes ++ key) ↔ Wellformed IsQueryChar key := by
  have parameter : (lit "key=").bytes = (lit "key").bytes ++ [61] := by decide
  have plain : Wellformed IsQueryChar (lit "key").bytes := wellformed_of_forall (by decide +kernel)
  rw [parameter, List.append_assoc, List.singleton_append,
    wellformed_append_iff (by decide) (by decide) (by decide)]
  exact and_iff_right plain

theorem addressesModel_iff (whole : client.url model = client.endpoint model) :
    AddressesModel client model (client.url model) ↔
      GeminiConfigured client ∧ SegmentText model.bytes := by
  have start (noSlash : slash ∉ model.bytes) :
      ([] ++ model.bytes ++ (lit ":generateContent").bytes).head? ≠ some slash := by
    cases hmodel : model.bytes with
    | nil => simp [verb_bytes, colon, slash]
    | cons b rest =>
        rw [hmodel] at noSlash
        simpa using (List.ne_of_not_mem_cons noSlash).symm
  have exact_ := addresses_iff client.apiBase.bytes [] model.bytes (lit ":generateContent").bytes
    (some ((lit "key=").bytes ++ client.apiKey.bytes)) start
  have query := keyQuery_wellformed client.apiKey.bytes
  rw [Option.elim_some, ← endpoint_bytes, ← whole, modelPath_wellformed] at exact_
  rw [AddressesModel, exact_, SegmentText, forall_isPchar_iff]
  constructor
  · rintro ⟨⟨base, wellformed, key, noSlash, noSign⟩, one⟩
    exact ⟨⟨base, query.mp (key _ rfl), one⟩, wellformed, noSlash, noSign⟩
  · rintro ⟨⟨base, key, one⟩, wellformed, noSlash, noSign⟩
    refine ⟨⟨base, wellformed, fun q hq => ?_, noSlash, noSign⟩, one⟩
    obtain rfl := Option.some.inj hq
    exact query.mpr key

end Model

section Names

theorem segmentText_append {l rest : List UInt8} :
    SegmentText (l ++ rest) ↔ SegmentText l ∧ SegmentText rest := List.forall_mem_append

theorem segmentText_uploadStem (t : Tm) : SegmentText (uploadStem t).bytes := by
  have number (width : Nat) (n : Int) : SegmentText (printPadded width n).bytes := by
    intro b hb
    rcases mem_printPadded hb with digit | rfl
    · exact Or.inl (Or.inr (Or.inr (Or.inl digit)))
    · decide
  have upload : SegmentText (lit "upload_").bytes := by unfold SegmentText; decide +kernel
  have minus : SegmentText (lit "-").bytes := by unfold SegmentText; decide +kernel
  have underscore : SegmentText (lit "_").bytes := by unfold SegmentText; decide +kernel
  have nothing : SegmentText [] := fun _ hb => absurd hb List.not_mem_nil
  simp only [uploadStem, bytes_concat, List.flatMap_cons, List.flatMap_nil, segmentText_append,
    number, upload, minus, underscore, nothing, and_self]

theorem segmentText_saved_iff (zone : TimeZone) (now : Int) (originalName : CString) :
    SegmentText (storageGenFilename zone now (uploadExtension originalName) maxFilename).bytes ↔
      SegmentText (keptExtension zone now originalName) := by
  rw [storageGenFilename_bytes, segmentText_append]
  exact and_iff_right (segmentText_uploadStem _)

/-- The name of a text has nothing of the user's in it. -/
theorem segmentText_ocr (zone : TimeZone) (now : Int) (originalName : CString) :
    SegmentText (storageOcrFilename
      (storageGenFilename zone now (uploadExtension originalName) maxFilename) maxFilename).bytes := by
  obtain ⟨ext, h, hsaved⟩ := storageGenFilename_savedName zone now originalName
  have literal : SegmentText (lit "_ocr_result.txt").bytes := by unfold SegmentText; decide +kernel
  rw [storageOcrFilename_bytes h hsaved, segmentText_append]
  exact ⟨segmentText_uploadStem _, literal⟩

end Names

/-- For every upload and every model a call is given, in every session of a client: the address of
the stored file, of its text, and of the model's endpoint is the intended one exactly under these
conditions, and files with intended addresses are at different places. -/
theorem requestUrls_intended_iff (storage : SupabaseStorage) (zone zone' : TimeZone)
    (now now' : Int) (original other : CString) (env : GeminiEnv) (apiKey model : CString)
    (fallbackModel : Option CString) (enabled : Int) (apiBase : Option CString)
    (earlier : List (GeminiOp × CallInput)) (data : List UInt8) (filename given : CString)
    (input : CallInput) :
    let saved := storageGenFilename zone now (uploadExtension original) maxFilename
    let saved' := storageGenFilename zone' now' (uploadExtension other) maxFilename
    let ocr := storageOcrFilename saved maxFilename
    let client := geminiNew apiKey model fallbackModel enabled apiBase
    let before := (run (geminiStep env) (.start client) earlier).client
    let call := (GeminiOp.extractTextWithModel data filename given).apply env input before
    let asked := snprintf geminiMaxModelLen given
    (AddressesObject storage saved (supabaseObjectUrl storage saved) ↔
        SupabaseConfigured storage ∧ SegmentText (keptExtension zone now original)) ∧
      (AddressesObject storage ocr (supabaseObjectUrl storage ocr) ↔ SupabaseConfigured storage) ∧
      (∀ x ∈ call.2.sent, AddressesModel client asked x.request.url ↔
        GeminiConfigured client ∧ SegmentText asked.bytes) ∧
      (AddressesObject storage saved (supabaseObjectUrl storage saved) →
        AddressesObject storage saved' (supabaseObjectUrl storage saved') → saved ≠ saved' →
          Percent.decode (parts (supabaseObjectUrl storage saved).bytes).path ≠
            Percent.decode (parts (supabaseObjectUrl storage saved').bytes).path) := by
  intro saved saved' ocr client before call asked
  have savedShort : saved.length < maxFilename := length_snprintf_lt (by decide) _
  have ocrShort : ocr.length < maxFilename := length_snprintf_lt (by decide) _
  have askedShort : asked.length < geminiMaxModelLen := length_snprintf_lt (by decide) _
  refine ⟨?_, ?_, fun x hx => ?_, fun h h' ne => ?_⟩
  · rw [addressesObject_iff storage savedShort, segmentText_saved_iff]
  · rw [addressesObject_iff storage ocrShort]
    exact and_iff_left (segmentText_ocr zone now original)
  · have stored : snprintf geminiMaxModelLen client.model = client.model := snprintf_snprintf _ _
    have kept := keepsChoice_run env
      (keepsChoice_new apiKey model fallbackModel enabled apiBase) stored earlier
    rw [(kept.apply env stored input _).2 x hx]
    exact addressesModel_iff client (url_geminiNew _ _ _ _ _ (Nat.le_of_lt_succ askedShort))
  · exact Addresses.decode_path_ne _ _ _ _ h h' (fun same => ne (CString.ext same))

/-- "a.x?1" and "a.x?2" are stored at one place, the second over the first, and the model "a/b"
becomes two segments. -/
theorem requestUrls_not_intended :
    let storage := supabaseOpen (lit "https://db.example") (lit "key") (lit "files")
    let saved := storageGenFilename .utc 0 (uploadExtension (lit "a.x?1")) maxFilename
    let saved' := storageGenFilename .utc 0 (uploadExtension (lit "a.x?2")) maxFilename
    let client := geminiNew (lit "key") (lit "flash") none 0 none
    ¬ AddressesObject storage saved (supabaseObjectUrl storage saved) ∧
      saved ≠ saved' ∧
      (parts (supabaseObjectUrl storage saved).bytes).path =
        (parts (supabaseObjectUrl storage saved').bytes).path ∧
      ¬ AddressesModel client (lit "a/b") (client.url (lit "a/b")) := by
  refine ⟨fun h => ?_, by decide +kernel, by decide +kernel, fun h => ?_⟩
  · exact absurd h.sameQuery (by decide +kernel)
  · have whole := @url_geminiNew (lit "key") (lit "flash") none 0 none (lit "a/b") (by decide)
    have segment := ((addressesModel_iff _ whole).mp h).2
    exact absurd (segment slash (by decide)) (by decide)

end Kaufbot
