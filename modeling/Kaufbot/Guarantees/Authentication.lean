import Kaufbot.Guarantees.StorageBackends
import Kaufbot.Storage.SupabaseUrls

/-!
Which requests of the Supabase backend carry the key. A service that keeps a
log of what it is asked stands for any other one; every operation adds the
requests it issues to the log. All of them have both headers, in full, except
the one that has an address signed.
-/

namespace Kaufbot

open CString Runs

/-- The operations of the backend, the address of a file included. -/
inductive SupabaseOp where
  | object (op : StorageOp)
  | getPublicUrl (filename : CString)

variable {σ : Type}

def supabaseStep (storage : SupabaseStorage) (json : CjsonText) (service : ObjectService σ) (s : σ) :
    SupabaseOp → σ
  | .object op => (supabaseStorageStep storage service s op).1
  | .getPublicUrl filename => (supabaseGetPublicUrl storage service s filename json).1

/-- The service, with the requests it has been sent. -/
def ObjectService.recorded (service : ObjectService σ) : ObjectService (σ × List CurlRequest) where
  answer s r :=
    let (next, exchange) := service.answer s.1 r
    ((next, s.2 ++ [r]), exchange)
  objects s := service.objects s.1

/-- Both header lines have the whole key. -/
def Authenticated (key : CString) (r : CurlRequest) : Prop :=
  lit "Authorization: Bearer " ++ key ∈ r.headers ∧ lit "apikey: " ++ key ∈ r.headers

/-- Nothing has to be signed. -/
def Unsigned (storage : SupabaseStorage) (service : ObjectService σ) (s : σ) : SupabaseOp → Prop
  | .object _ => True
  | .getPublicUrl filename => PublicAt storage service s filename

section Headers
variable (storage : SupabaseStorage)

theorem apikey_line : lit "apikey: " ++ storage.anonKey ∈
    buildCurlHeaders (buildAuthHeaders storage) := by
  have fits := storage.anonKeyFits
  have line : lit "apikey: " ++ storage.anonKey = lit "apikey" ++ lit ": " ++ storage.anonKey :=
    CString.ext rfl
  have length : (lit "apikey: " ++ storage.anonKey).length = 8 + storage.anonKey.length :=
    List.length_append
  rw [line] at length ⊢
  exact mem_buildCurlHeaders (mem_buildAuthHeaders storage).2 (by
    simp only [maxTokenLen] at fits
    omega)

theorem authenticated_bodiless (method : HttpMethod) (url : CString) :
    Authenticated storage.anonKey
      (configureCurl (httpBodilessRequest method url (buildAuthHeaders storage))) :=
  ⟨authorization_line storage, apikey_line storage⟩

theorem authenticated_upload (filename : CString) (data : List UInt8) (len : Nat) :
    Authenticated storage.anonKey (configureCurl (uploadRequest storage filename data len)) := by
  have added : buildCurlHeaders (buildAuthHeaders storage) ⊆
      (configureCurl (uploadRequest storage filename data len)).headers :=
    List.map_subset _ (List.Subset.trans (subset_httpHeadersAdd 4 _ _ _)
      (subset_httpHeadersAdd 4 _ _ _))
  exact ⟨added (authorization_line storage), added (apikey_line storage)⟩

/-- The request for a signature has a content type and nothing else. -/
theorem not_authenticated_sign (json : CjsonText) (filename key : CString) :
    ¬ Authenticated key (configureCurl (signRequest storage json filename)) := by
  rintro ⟨line, -⟩
  have only : lit "Authorization: Bearer " ++ key =
      snprintf 512 (.concat [lit "Content-Type", lit ": ", lit "application/json"]) := by
    simpa [configureCurl, signRequest, httpPostJsonRequest, httpPostRequest, buildCurlHeaders]
      using line
  have starts : (lit "Authorization: Bearer ").bytes.head? = some 65 := by decide
  have other : (snprintf 512 (.concat [lit "Content-Type", lit ": ",
      lit "application/json"])).bytes.head? = some 67 := by decide
  have first := congrArg (fun s : CString => s.bytes.head?) only
  simp only [bytes_append, List.head?_append, starts, Option.some_or, other] at first
  exact absurd first (by decide)

end Headers

section Runs
variable (storage : SupabaseStorage) (json : CjsonText) (service : ObjectService σ)

/-- The request of an operation on an object. -/
def objectOpRequest : StorageOp → HttpRequest
  | .saveFile filename data len => uploadRequest storage filename data len
  | .saveText filename text => uploadRequest storage filename text.bytes text.length
  | .readText filename | .readBinary filename => objectRequest storage .get filename
  | .fileExists filename => objectRequest storage .head filename
  | .deleteFile filename => objectRequest storage .delete filename

/-- The requests an operation issues, in order. -/
def issued (s : σ) : SupabaseOp → List CurlRequest
  | .object op => [configureCurl (objectOpRequest storage op)]
  | .getPublicUrl filename =>
      configureCurl (publicAccessRequest storage filename) ::
        if PublicAt storage service s filename then []
        else [configureCurl (signRequest storage json filename)]

/-- The log makes no difference to what is done, and it gets what is issued. -/
theorem supabaseStep_recorded (s : σ) (log : List CurlRequest) (op : SupabaseOp) :
    supabaseStep storage json service.recorded (s, log) op =
      (supabaseStep storage json service s op, log ++ issued storage json service s op) := by
  cases op with
  | object op => cases op <;> rfl
  | getPublicUrl filename =>
      have same : PublicAt storage service.recorded (s, log) filename ↔
          PublicAt storage service s filename := Iff.rfl
      simp only [supabaseStep, supabaseGetPublicUrl, supabaseCheckPublicAccess_eq, issued, same]
      by_cases reachable : PublicAt storage service s filename
      · simp only [reachable, decide_true, if_true]
        rfl
      · simp only [reachable, decide_false, if_false]
        exact Prod.ext rfl (List.append_assoc _ _ _)

theorem issued_authenticated_iff (s : σ) (op : SupabaseOp) :
    (∀ r ∈ issued storage json service s op, Authenticated storage.anonKey r) ↔
      Unsigned storage service s op := by
  cases op with
  | object op =>
      simp only [issued, List.mem_singleton, forall_eq, Unsigned, iff_true]
      cases op with
      | saveFile filename data len => exact authenticated_upload storage filename data len
      | saveText filename text => exact authenticated_upload storage filename _ _
      | readText | readBinary | fileExists | deleteFile =>
          exact authenticated_bodiless storage _ _
  | getPublicUrl filename =>
      have asked := authenticated_bodiless storage .head (supabasePublicUrl storage filename)
      simp only [issued, List.forall_mem_cons, Unsigned]
      refine (and_iff_right asked).trans ?_
      split
      · next reachable => exact iff_of_true (fun _ h => absurd h List.not_mem_nil) reachable
      · next closed =>
          refine iff_of_false (fun all => ?_) closed
          exact not_authenticated_sign storage json filename storage.anonKey
            (all _ (List.mem_singleton_self _))

theorem run_authenticated_iff (s : σ) (log : List CurlRequest) (ops : List SupabaseOp) :
    (∀ r ∈ (run (supabaseStep storage json service.recorded) (s, log) ops).2,
        Authenticated storage.anonKey r) ↔
      (∀ r ∈ log, Authenticated storage.anonKey r) ∧
        Guarded (supabaseStep storage json service) (Unsigned storage service) s ops := by
  induction ops generalizing s log with
  | nil => simp [Guarded]
  | cons op ops ih =>
      rw [run_cons, supabaseStep_recorded, ih, List.forall_mem_append, issued_authenticated_iff,
        Guarded, and_assoc]

end Runs

theorem supabaseOpen_anonKey (url key bucket : CString) (whole : key.length ≤ 255) :
    (supabaseOpen url key bucket).anonKey = key :=
  snprintf_of_length_lt (Nat.lt_succ_of_le whole)

/-- Every request of a run carries the whole key in both headers exactly when no address is asked
for that the service does not report as open. -/
theorem supabase_authenticated_iff (url key bucket : CString) (whole : key.length ≤ 255)
    (json : CjsonText) (service : ObjectService σ) (s : σ) (ops : List SupabaseOp) :
    (∀ r ∈ (run (supabaseStep (supabaseOpen url key bucket) json service.recorded) (s, []) ops).2,
        Authenticated key r) ↔
      Guarded (supabaseStep (supabaseOpen url key bucket) json service)
        (Unsigned (supabaseOpen url key bucket) service) s ops := by
  have runs := run_authenticated_iff (supabaseOpen url key bucket) json service s [] ops
  rw [supabaseOpen_anonKey url key bucket whole] at runs
  simpa using runs

/-- A library that prints and reads the empty object only. -/
def emptyObjects : CjsonText where
  cjsonParse s := if s = lit "\x7b\x7d" then some (.object []) else none
  cjsonPrint _ := lit "\x7b\x7d"

/-- A service that keeps no object and answers that none is there. -/
def closedService : ObjectService Unit where
  answer _ _ := ((), keyedAnswer none none)
  objects _ := .empty

theorem supabase_authenticated_upload :
    (lit "key").length ≤ 255 ∧
      ((∀ r ∈ (run (supabaseStep (supabaseOpen (lit "https://x") (lit "key") (lit "bills"))
          emptyObjects closedService.recorded) ((), [])
          [.object (.saveText (lit "a.txt") (lit "milk"))]).2, Authenticated (lit "key") r) ↔
        Guarded (supabaseStep (supabaseOpen (lit "https://x") (lit "key") (lit "bills"))
          emptyObjects closedService)
          (Unsigned (supabaseOpen (lit "https://x") (lit "key") (lit "bills")) closedService) ()
          [.object (.saveText (lit "a.txt") (lit "milk"))]) :=
  ⟨by decide, supabase_authenticated_iff _ _ _ (by decide) _ _ _ _⟩

/-- The bucket is private: the request for a signature goes out without the key. -/
theorem signature_asked_without_key :
    ¬ ∀ r ∈ (run (supabaseStep (supabaseOpen (lit "https://x") (lit "key") (lit "bills"))
        emptyObjects closedService.recorded) ((), []) [.getPublicUrl (lit "a.jpg")]).2,
      Authenticated (lit "key") r := by
  have runs := run_authenticated_iff (supabaseOpen (lit "https://x") (lit "key") (lit "bills"))
    emptyObjects closedService () [] [.getPublicUrl (lit "a.jpg")]
  rw [supabaseOpen_anonKey _ _ _ (by decide)] at runs
  rw [runs]
  rintro ⟨-, unsigned, -⟩
  have closed : (keyedAnswer none none).response.success = true := unsigned
  exact absurd closed (by decide)

end Kaufbot
