import Kaufbot.Cjson
import Kaufbot.Storage.Supabase

/-!
The address of a stored file for its readers. The backend asks whether the
public address is open; if it is not, it has the service sign one. The second
request is a plain JSON post: the headers built for it are not handed over.
-/

namespace Kaufbot

open CString

/-- The JSON library under the backend. -/
structure CjsonText where
  /-- `cJSON_Parse`. -/
  cjsonParse : CString → Option CJson
  /-- `cJSON_PrintUnformatted`. -/
  cjsonPrint : CJson → CString

def signedUrlExpirySecs : Nat := 3600

variable (storage : SupabaseStorage)

def supabasePublicUrl (filename : CString) : CString :=
  snprintf maxComposedUrl (.concat [storage.baseUrl, lit "/storage/v1/object/public/",
    storage.bucket, lit "/", filename])

def supabaseSignUrl (filename : CString) : CString :=
  snprintf maxComposedUrl (.concat [storage.baseUrl, lit "/storage/v1/object/sign/",
    storage.bucket, lit "/", filename])

/-- What `supabase_check_public_access` sends. -/
def publicAccessRequest (filename : CString) : HttpRequest :=
  httpBodilessRequest .head (supabasePublicUrl storage filename) (buildAuthHeaders storage)

/-- What `supabase_signed_url` sends. -/
def signRequest (json : CjsonText) (filename : CString) : HttpRequest :=
  httpPostJsonRequest (supabaseSignUrl storage filename)
    (json.cjsonPrint (.object [(lit "expiresIn", .number signedUrlExpirySecs)]))

variable {σ : Type} (service : ObjectService σ) (s : σ) (filename : CString)

def supabaseCheckPublicAccess : σ × Bool :=
  let (s, result) := service.execute s (publicAccessRequest storage filename)
  (s, result.rc == 0 && result.response.success)

def supabaseSignedUrl (json : CjsonText) : σ × Option CString :=
  let (s, result) := service.execute s (signRequest storage json filename)
  (s,
    if result.rc ≠ 0 ∨ result.response.success = false then none
    else
      match (result.response.body.map ofBytes).bind json.cjsonParse with
      | none => none
      | some parsed =>
          (CJson.stringValue? (member (some parsed) "signedURL")).map fun signedUrl =>
            snprintf maxComposedUrl (.concat [storage.baseUrl, lit "/storage/v1", signedUrl]))

def supabaseGetPublicUrl (json : CjsonText) : σ × Option CString :=
  match supabaseCheckPublicAccess storage service s filename with
  | (s, true) => (s, some (supabasePublicUrl storage filename))
  | (s, false) => supabaseSignedUrl storage service s filename json

/-- The service answers that the public address is open. -/
def PublicAt : Prop :=
  (service.answer s (configureCurl (publicAccessRequest storage filename))).2.response.success =
    true

instance : Decidable (PublicAt storage service s filename) := inferInstanceAs (Decidable (_ = _))

theorem supabaseCheckPublicAccess_eq :
    supabaseCheckPublicAccess storage service s filename =
      ((service.answer s (configureCurl (publicAccessRequest storage filename))).1,
        decide (PublicAt storage service s filename)) := by
  simp only [supabaseCheckPublicAccess, ObjectService.execute, httpClientExecute_default, PublicAt,
    Prod.mk.injEq, true_and]
  by_cases success : (service.answer s
      (configureCurl (publicAccessRequest storage filename))).2.response.success = true
  · simp [success]
  · simp [success]

end Kaufbot
