import Kaufbot.Infra.HttpClient
import Kaufbot.Storage.Local

/-!
The Supabase storage backend. Every operation is one request to the address of
an object, answered by a service that is a parameter here; what the backend
returns is read off the return code of the HTTP client and then off the
response. The client has a return code of its own for any status but 2xx, so
the second look never sees one.
-/

namespace Kaufbot

open CString

def maxUrlLen : Nat := 1024
def maxTokenLen : Nat := 256
def maxComposedUrl : Nat := maxUrlLen + maxPathLen + maxPathLen + 64

structure SupabaseStorage where
  baseUrl : CString
  anonKey : CString
  bucket : CString
  baseUrlFits : baseUrl.length < maxUrlLen
  anonKeyFits : anonKey.length < maxTokenLen
  bucketFits : bucket.length < maxPathLen

/-- The key of the service goes into the field named after the other one. -/
def supabaseOpen (supabaseUrl supabaseServiceKey supabaseBucket : CString) : SupabaseStorage where
  baseUrl := snprintf maxUrlLen supabaseUrl
  anonKey := snprintf maxTokenLen supabaseServiceKey
  bucket := snprintf maxPathLen supabaseBucket
  baseUrlFits := length_snprintf_lt (by decide) _
  anonKeyFits := length_snprintf_lt (by decide) _
  bucketFits := length_snprintf_lt (by decide) _

variable (storage : SupabaseStorage)

def buildAuthHeaders : List (CString × CString) :=
  let headers := httpHeadersAdd 4 [] (lit "Authorization")
    (snprintf (maxTokenLen + 64) (lit "Bearer " ++ storage.anonKey))
  httpHeadersAdd 4 headers (lit "apikey") (snprintf (maxTokenLen + 64) storage.anonKey)

def objectAddress (filename : CString) : CString :=
  .concat [storage.baseUrl, lit "/storage/v1/object/", storage.bucket, lit "/", filename]

def supabaseObjectUrl (filename : CString) : CString :=
  snprintf maxComposedUrl (objectAddress storage filename)

def uploadRequest (filename : CString) (data : List UInt8) (len : Nat) : HttpRequest :=
  let headers := httpHeadersAdd 4 (buildAuthHeaders storage)
    (lit "Content-Type") (lit "application/octet-stream")
  let headers := httpHeadersAdd 4 headers (lit "x-upsert") (lit "true")
  httpUploadRequest (supabaseObjectUrl storage filename) headers data len

def objectRequest (method : HttpMethod) (filename : CString) : HttpRequest :=
  httpBodilessRequest method (supabaseObjectUrl storage filename) (buildAuthHeaders storage)

/-- What is at the other end: the answer to a request, and the objects stored by name. -/
structure ObjectService (σ : Type) where
  answer : σ → CurlRequest → σ × Exchange
  objects : σ → Storage

/-- The default client makes one attempt. -/
def ObjectService.execute {σ : Type} (service : ObjectService σ) (s : σ) (request : HttpRequest) :
    σ × HttpResult :=
  let (s, exchange) := service.answer s (configureCurl request)
  (s, httpClientExecute .default request (fun _ => exchange))

variable {σ : Type} (service : ObjectService σ) (s : σ) (filename : CString)

def supabaseSaveFile (data : List UInt8) (len : Nat) : σ × Int :=
  let (s, result) := service.execute s (uploadRequest storage filename data len)
  (s, if result.rc ≠ 0 ∨ result.response.success = false then -1 else 0)

def supabaseSaveText (text : CString) : σ × Int :=
  supabaseSaveFile storage service s filename text.bytes text.length

def supabaseFileExists : σ × Int :=
  let (s, result) := service.execute s (objectRequest storage .head filename)
  (s, if result.rc ≠ 0 then -1 else if result.response.success then 1 else 0)

def supabaseDeleteFile : σ × Int :=
  let (s, result) := service.execute s (objectRequest storage .delete filename)
  (s,
    if result.rc ≠ 0 then -1
    else if result.response.statusCode = httpStatusNotFound then 1
    else if result.response.success = false then -1
    else 0)

/-- The body that was received, handed over to the caller; it stays null when none was. -/
def supabaseReadBinary : σ × Option (List UInt8) :=
  let (s, result) := service.execute s (objectRequest storage .get filename)
  (s, if result.rc ≠ 0 ∨ result.response.success = false then none else result.response.body)

/-- The same body, read as a string. -/
def supabaseReadText : σ × Option CString :=
  let (s, result) := service.execute s (objectRequest storage .get filename)
  (s, if result.rc ≠ 0 ∨ result.response.success = false then none
    else result.response.body.map ofBytes)

section Service

/-- `[A-Za-z0-9._-]`. -/
def PlainChar (c : UInt8) : Prop :=
  0x41 ≤ c ∧ c ≤ 0x5a ∨ 0x61 ≤ c ∧ c ≤ 0x7a ∨ 0x30 ≤ c ∧ c ≤ 0x39 ∨ c = 0x2e ∨ c = 0x5f ∨ c = 0x2d

instance (c : UInt8) : Decidable (PlainChar c) := by
  unfold PlainChar
  infer_instance

/-- The name of a file and not of a directory, which "." and ".." are. -/
def PlainName (name : CString) : Prop :=
  name ≠ .empty ∧ name ≠ lit "." ∧ name ≠ lit ".." ∧ ∀ c ∈ name.bytes, PlainChar c

-- Bounded by the name and not by the 256 bytes there are.
instance (name : CString) : Decidable (PlainName name) :=
  @instDecidableAnd _ _ _ (@instDecidableAnd _ _ _ (@instDecidableAnd _ _ _
    (List.decidableBAll PlainChar name.bytes)))

def Exchange.Done (x : Exchange) : Prop :=
  x.curlError = none ∧ 200 ≤ x.httpCode ∧ x.httpCode < 300

def Exchange.Missing (x : Exchange) : Prop :=
  x.curlError = none ∧ x.httpCode = httpStatusNotFound

def AddressedTo (filename : CString) (r : CurlRequest) : Prop :=
  PlainName filename ∧ r.url = objectAddress storage filename ∧
    lit "Authorization: Bearer " ++ storage.anonKey ∈ r.headers

/-- The service stores objects by key, and answers 2xx for one that exists and 404 for any other. -/
structure ObjectService.Serves : Prop where
  save : ∀ s filename r, AddressedTo storage filename r → r.method = .post →
    lit "x-upsert: true" ∈ r.headers → (service.answer s r).2.Done ∧
      service.objects (service.answer s r).1 = (service.objects s).put filename r.body
  delete : ∀ s filename r, AddressedTo storage filename r → r.method = .delete →
    service.objects (service.answer s r).1 = (service.objects s).remove filename
  kept : ∀ s filename r, AddressedTo storage filename r → r.method = .get ∨ r.method = .head →
    service.objects (service.answer s r).1 = service.objects s
  found : ∀ s filename r, AddressedTo storage filename r → r.method ∈ [.get, .head, .delete] →
    (service.objects s filename).isSome → (service.answer s r).2.Done
  missing : ∀ s filename r, AddressedTo storage filename r → r.method ∈ [.get, .head, .delete] →
    service.objects s filename = none → (service.answer s r).2.Missing
  contents : ∀ s filename r, AddressedTo storage filename r → r.method = .get →
    ∀ bytes, service.objects s filename = some bytes →
      (service.answer s r).2.body.getD [] = bytes

theorem Exchange.Done.success {x : Exchange} (h : x.Done) : x.response.success = true := by
  simp [Exchange.response, h.1, h.2.1, h.2.2]

theorem Exchange.Missing.success {x : Exchange} (h : x.Missing) : x.response.success = false := by
  simp [Exchange.response, h.2, httpStatusNotFound]

/-- The key is short enough for the buffers its headers are composed in. -/
theorem mem_buildAuthHeaders :
    (lit "Authorization", lit "Bearer " ++ storage.anonKey) ∈ buildAuthHeaders storage ∧
      (lit "apikey", storage.anonKey) ∈ buildAuthHeaders storage := by
  have fits := storage.anonKeyFits
  have bearer : (lit "Bearer " ++ storage.anonKey).length = 7 + storage.anonKey.length :=
    List.length_append
  have whole : snprintf (maxTokenLen + 64) (lit "Bearer " ++ storage.anonKey) =
      lit "Bearer " ++ storage.anonKey := snprintf_of_length_lt (by omega)
  have key : snprintf (maxTokenLen + 64) storage.anonKey = storage.anonKey :=
    snprintf_of_length_lt (by omega)
  simp [buildAuthHeaders, httpHeadersAdd, whole, key]

theorem authorization_line : lit "Authorization: Bearer " ++ storage.anonKey ∈
    buildCurlHeaders (buildAuthHeaders storage) := by
  have fits := storage.anonKeyFits
  have line : lit "Authorization: Bearer " ++ storage.anonKey =
      lit "Authorization" ++ lit ": " ++ (lit "Bearer " ++ storage.anonKey) :=
    CString.ext rfl
  have length : (lit "Authorization: Bearer " ++ storage.anonKey).length =
      22 + storage.anonKey.length := List.length_append
  rw [line] at length ⊢
  exact mem_buildCurlHeaders (mem_buildAuthHeaders storage).1 (by
    simp only [maxTokenLen] at fits
    omega)

variable {storage service filename} {s}

theorem addressedTo_object (method : HttpMethod) (plain : PlainName filename)
    (fits : (objectAddress storage filename).length < maxComposedUrl) :
    AddressedTo storage filename (configureCurl (objectRequest storage method filename)) :=
  ⟨plain, snprintf_of_length_lt fits, authorization_line storage⟩

theorem addressedTo_upload (data : List UInt8) (len : Nat) (plain : PlainName filename)
    (fits : (objectAddress storage filename).length < maxComposedUrl) :
    AddressedTo storage filename (configureCurl (uploadRequest storage filename data len)) := by
  refine ⟨plain, snprintf_of_length_lt fits, ?_⟩
  apply List.map_subset _ _ (authorization_line storage)
  exact List.Subset.trans (subset_httpHeadersAdd 4 _ _ _) (subset_httpHeadersAdd 4 _ _ _)

theorem objectRequest_method {method : HttpMethod} (h : method ∈ [.get, .head, .delete]) :
    (configureCurl (objectRequest storage method filename)).method = method := by
  simp only [List.mem_cons, List.not_mem_nil, or_false] at h
  rcases h with rfl | rfl | rfl <;> rfl

theorem upsert_line (data : List UInt8) (len : Nat) : lit "x-upsert: true" ∈
    (configureCurl (uploadRequest storage filename data len)).headers := by
  have hline : snprintf 512 (.concat [lit "x-upsert", lit ": ", lit "true"]) =
      lit "x-upsert: true" := by decide
  rw [← hline]
  simp [configureCurl, uploadRequest, httpUploadRequest, buildCurlHeaders, buildAuthHeaders,
    httpHeadersAdd]

theorem supabaseReadText_eq : supabaseReadText storage service s filename =
    ((supabaseReadBinary storage service s filename).1,
      (supabaseReadBinary storage service s filename).2.map ofBytes) := by
  simp only [supabaseReadText, supabaseReadBinary, Prod.mk.injEq, true_and]
  split <;> rfl

theorem execute_response (request : HttpRequest) : (service.execute s request).2.response =
    (service.answer s (configureCurl request)).2.response :=
  (httpClientExecute_default request _).2

section Operations
variable (serves : service.Serves storage) (plain : PlainName filename)
  (fits : (objectAddress storage filename).length < maxComposedUrl)
include serves plain fits

/-- What is stored is what libcurl takes the post fields to be. -/
theorem supabaseSaveFile_spec (data : List UInt8) (len : Nat) :
    (supabaseSaveFile storage service s filename data len).2 = 0 ∧
      service.objects (supabaseSaveFile storage service s filename data len).1 =
        (service.objects s).put filename (postFields data len) := by
  obtain ⟨done, objects⟩ := serves.save s filename _ (addressedTo_upload data len plain fits) rfl
    (upsert_line data len)
  refine ⟨?_, objects⟩
  simp [supabaseSaveFile, ObjectService.execute, httpClientExecute_default, done.success]

/-- A request about an object that is there is done, and one about an object that is not is
answered with 404, which the client reports as a failed call. -/
theorem execute_objectRequest (method : HttpMethod) (h : method ∈ [.get, .head, .delete]) :
    (service.execute s (objectRequest storage method filename)).2.rc =
        (if (service.objects s filename).isSome then 0 else -1) ∧
      (service.execute s (objectRequest storage method filename)).2.response.success =
        (service.objects s filename).isSome := by
  have addressed := addressedTo_object method plain fits
  have named : (configureCurl (objectRequest storage method filename)).method ∈
      [.get, .head, .delete] := by rwa [objectRequest_method h]
  have success : (service.answer s
      (configureCurl (objectRequest storage method filename))).2.response.success =
        (service.objects s filename).isSome := by
    cases found : service.objects s filename with
    | none => exact (serves.missing s filename _ addressed named found).success
    | some bytes =>
        exact (serves.found s filename _ addressed named (Option.isSome_of_eq_some found)).success
  simp [ObjectService.execute, httpClientExecute_default, success]

theorem supabaseFileExists_spec :
    (supabaseFileExists storage service s filename).2 =
        (if (service.objects s filename).isSome then 1 else -1) ∧
      service.objects (supabaseFileExists storage service s filename).1 = service.objects s := by
  obtain ⟨rc, success⟩ := execute_objectRequest serves plain fits .head (by decide)
    (s := s)
  refine ⟨?_, serves.kept s filename _ (addressedTo_object .head plain fits) (Or.inr rfl)⟩
  simp only [supabaseFileExists, rc, success]
  cases (service.objects s filename).isSome <;> rfl

theorem supabaseDeleteFile_spec :
    (supabaseDeleteFile storage service s filename).2 =
        (if (service.objects s filename).isSome then 0 else -1) ∧
      service.objects (supabaseDeleteFile storage service s filename).1 =
        (service.objects s).remove filename := by
  have addressed := addressedTo_object .delete plain fits
  refine ⟨?_, serves.delete s filename _ addressed rfl⟩
  obtain ⟨rc, success⟩ := execute_objectRequest serves plain fits .delete (by decide)
    (s := s)
  cases found : (service.objects s filename).isSome with
  | false => simp [supabaseDeleteFile, rc, found]
  | true =>
      have done := serves.found s filename _ addressed (by simp [objectRequest_method]) found
      have status : (service.execute s
          (objectRequest storage .delete filename)).2.response.statusCode < 300 := by
        rw [execute_response]
        exact done.2.2
      have named : (service.execute s (objectRequest storage .delete
          filename)).2.response.statusCode ≠ httpStatusNotFound :=
        Nat.ne_of_lt (Nat.lt_trans status (by decide))
      simp [supabaseDeleteFile, rc, success, found, named]

/-- What is received is what is stored; nothing may be received for an empty object. -/
theorem supabaseReadBinary_spec :
    (supabaseReadBinary storage service s filename).2 =
        (if (service.objects s filename).isSome then
          (service.answer s (configureCurl (objectRequest storage .get filename))).2.body
        else none) ∧
      (∀ bytes, service.objects s filename = some bytes →
        (service.answer s (configureCurl (objectRequest storage .get filename))).2.body.getD [] =
          bytes) ∧
      service.objects (supabaseReadBinary storage service s filename).1 = service.objects s := by
  have addressed := addressedTo_object .get plain fits
  obtain ⟨rc, success⟩ := execute_objectRequest serves plain fits .get (by decide)
    (s := s)
  refine ⟨?_, serves.contents s filename _ addressed rfl, serves.kept s filename _ addressed
    (Or.inl rfl)⟩
  simp only [supabaseReadBinary, rc, success]
  cases (service.objects s filename).isSome with
  | false => rfl
  | true => simp [execute_response, Exchange.response]

end Operations

section Keyed

theorem objectAddress_inj {other : CString} :
    objectAddress storage filename = objectAddress storage other ↔ filename = other := by
  simp only [objectAddress, CString.ext_iff]
  simp

/-- The answer to a question about what is stored. -/
def keyedAnswer (found : Option (List UInt8)) (body : Option (List UInt8)) : Exchange where
  curlError := none
  httpCode := if found.isSome then 200 else httpStatusNotFound
  body := body

/-- A service that stores objects under their whole addresses. -/
def keyedService (storage : SupabaseStorage) : ObjectService Storage where
  answer stored r :=
    match r.method with
    | .get => (stored, keyedAnswer (stored r.url) ((stored r.url).filter (· ≠ [])))
    | .head => (stored, keyedAnswer (stored r.url) none)
    | .delete => (stored.remove r.url, keyedAnswer (stored r.url) none)
    | _ => (stored.put r.url r.body, keyedAnswer (some r.body) none)
  objects stored filename := stored (objectAddress storage filename)

theorem keyedAnswer_done {found body : Option (List UInt8)} (h : found.isSome) :
    (keyedAnswer found body).Done := by
  simp [keyedAnswer, Exchange.Done, h]

theorem keyedService_serves : (keyedService storage).Serves storage where
  save stored filename r sent hpost _ := by
    obtain ⟨_, hurl, _⟩ := sent
    simp only [keyedService, hpost, hurl]
    refine ⟨keyedAnswer_done rfl, ?_⟩
    funext other
    simp only [Storage.put, objectAddress_inj]
  delete stored filename r sent hdelete := by
    obtain ⟨_, hurl, _⟩ := sent
    simp only [keyedService, hdelete, hurl]
    funext other
    simp only [Storage.remove, objectAddress_inj]
  kept stored filename r _ hmethod := by
    rcases hmethod with h | h <;> simp only [keyedService, h]
  found stored filename r sent hmethod hfound := by
    obtain ⟨_, hurl, _⟩ := sent
    simp only [keyedService] at hfound
    simp only [List.mem_cons, List.not_mem_nil, or_false] at hmethod
    rcases hmethod with h | h | h <;> simp only [keyedService, h, hurl] <;>
      exact keyedAnswer_done hfound
  missing stored filename r sent hmethod hmissing := by
    obtain ⟨_, hurl, _⟩ := sent
    simp only [keyedService] at hmissing
    simp only [List.mem_cons, List.not_mem_nil, or_false] at hmethod
    rcases hmethod with h | h | h <;>
      simp [keyedService, h, hurl, hmissing, keyedAnswer, Exchange.Missing]
  contents stored filename r sent hget bytes hfound := by
    obtain ⟨_, hurl, _⟩ := sent
    simp only [keyedService] at hfound
    cases bytes <;> simp [keyedService, hget, hurl, hfound, keyedAnswer, Option.filter]

end Keyed

end Service

end Kaufbot
