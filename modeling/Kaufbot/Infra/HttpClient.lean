import Kaufbot.Library.CString

/-!
The HTTP client as the rest of the bot sees it. What libcurl does with one
attempt is an `Exchange`, an input; the retry loop, the response it leaves and
the return code are the client's own. The default client retries nothing, and
its return code says whether the status was 2xx.
-/

namespace Kaufbot

open CString

inductive HttpMethod where
  | get
  | post
  | put
  | delete
  | head
  | patch
deriving DecidableEq

/-- `body` is what the memory holds from the pointer on, unless it is null. -/
structure HttpRequest where
  method : HttpMethod
  url : CString
  body : Option (List UInt8)
  bodyLen : Nat
  headers : List (CString × CString)
deriving DecidableEq

/-- The error text unless `curl_easy_perform` returned `CURLE_OK`, the response code, 0 when there
was none, and what was written to the grow buffer. -/
structure Exchange where
  curlError : Option CString
  httpCode : Nat
  body : Option (List UInt8)

structure HttpResponse where
  statusCode : Nat
  body : Option (List UInt8)
  bodyLen : Nat
  error : CString
  success : Bool
deriving DecidableEq

structure HttpHooks where
  onRequest : Bool
  onResponse : Bool
  onError : Bool

inductive HookCall where
  | onRequest (request : HttpRequest)
  | onResponse (response : HttpResponse)
  | onError (request : HttpRequest) (response : HttpResponse)
deriving DecidableEq

structure HttpClientConfig where
  maxRetries : Int
  hooks : HttpHooks

def HttpClientConfig.default : HttpClientConfig where
  maxRetries := 0
  hooks := { onRequest := false, onResponse := false, onError := false }

def httpStatusNotFound : Nat := 404
def httpStatusTooManyRequests : Nat := 429

def httpIsRetryable (code : Nat) : Bool := code ≥ 500 || code == httpStatusTooManyRequests

def shouldRetry (resp : HttpResponse) (attempt : Nat) (maxRetries : Int) : Bool :=
  if maxRetries ≤ 0 then false
  else if (attempt : Int) ≥ maxRetries then false
  else httpIsRetryable resp.statusCode

/-- What one attempt leaves in the response, which was cleared before. -/
def Exchange.response (x : Exchange) : HttpResponse where
  statusCode := x.httpCode
  body := x.body
  bodyLen := (x.body.getD []).length
  error := match x.curlError with
    | some text => snprintf 256 (lit "curl error: " ++ text)
    | none => .empty
  success := x.curlError.isNone && (200 ≤ x.httpCode && x.httpCode < 300)

theorem lt_of_shouldRetry {resp : HttpResponse} {attempt : Nat} {maxRetries : Int}
    (h : shouldRetry resp attempt maxRetries = true) : (attempt : Int) < maxRetries := by
  unfold shouldRetry at h
  split at h
  · cases h
  · split at h
    · cases h
    · omega

/-- The retry loop from `attempt` on: the last response, and how many attempts were made. The
server answers each attempt of the call on its own. -/
def httpAttempts (maxRetries : Int) (server : Nat → Exchange) (attempt : Nat) :
    HttpResponse × Nat :=
  let response := (server attempt).response
  if h : shouldRetry response attempt maxRetries = true then
    httpAttempts maxRetries server (attempt + 1)
  else (response, attempt + 1)
termination_by (maxRetries - attempt).toNat
decreasing_by
  have := lt_of_shouldRetry h
  omega

structure HttpResult where
  rc : Int
  response : HttpResponse
  attempts : Nat
  hookCalls : List HookCall
deriving DecidableEq

def httpClientExecute (config : HttpClientConfig) (request : HttpRequest)
    (server : Nat → Exchange) : HttpResult :=
  let (response, attempts) := httpAttempts config.maxRetries server 0
  { rc := if response.success then 0 else -1
    response := response
    attempts := attempts
    hookCalls :=
      (if config.hooks.onRequest then [.onRequest request] else []) ++
        (if config.hooks.onResponse then [.onResponse response] else []) ++
        if !response.success && config.hooks.onError then [.onError request response] else [] }

def httpPostRequest (url body : CString) (contentType : Option CString) : HttpRequest where
  method := .post
  url := url
  body := some body.bytes
  bodyLen := body.length
  headers := (contentType.map fun value => (lit "Content-Type", value)).toList

def httpPostJsonRequest (url body : CString) : HttpRequest :=
  httpPostRequest url body (some (lit "application/json"))

def httpClientPostJson (config : HttpClientConfig) (url body : CString)
    (server : Nat → Exchange) : HttpResult :=
  httpClientExecute config (httpPostJsonRequest url body) server

def httpUploadRequest (url : CString) (headers : List (CString × CString)) (data : List UInt8)
    (len : Nat) : HttpRequest where
  method := .post
  url := url
  body := some data
  bodyLen := len
  headers := headers

/-- The requests of `http_client_get_with_headers` and its HEAD and DELETE siblings. -/
def httpBodilessRequest (method : HttpMethod) (url : CString)
    (headers : List (CString × CString)) : HttpRequest where
  method := method
  url := url
  body := none
  bodyLen := 0
  headers := headers

/-- Nothing is added past the capacity. -/
def httpHeadersAdd (capacity : Nat) (headers : List (CString × CString)) (key value : CString) :
    List (CString × CString) :=
  if headers.length ≥ capacity then headers else headers ++ [(key, value)]

def buildCurlHeaders (headers : List (CString × CString)) : List CString :=
  headers.map fun (key, value) => snprintf 512 (.concat [key, lit ": ", value])

/-- A header whose line fits its buffer is on the wire as it is. -/
theorem mem_buildCurlHeaders {headers : List (CString × CString)} {key value : CString}
    (mem : (key, value) ∈ headers) (fits : (key ++ lit ": " ++ value).length < 512) :
    key ++ lit ": " ++ value ∈ buildCurlHeaders headers := by
  have line : CString.concat [key, lit ": ", value] = key ++ lit ": " ++ value :=
    CString.ext (by simp)
  have sent : snprintf 512 (.concat [key, lit ": ", value]) = key ++ lit ": " ++ value := by
    rw [line, snprintf_of_length_lt fits]
  exact List.mem_map.mpr ⟨(key, value), mem, sent⟩

/-- What goes over the wire. -/
structure CurlRequest where
  method : HttpMethod
  url : CString
  body : List UInt8
  headers : List CString
deriving DecidableEq

/-- Without a size libcurl takes the post fields to be a string. -/
def postFields (data : List UInt8) (len : Nat) : List UInt8 :=
  if 0 < len then data.take len else (ofBytes data).bytes

/-- Only DELETE and HEAD are named to libcurl. Any other method is a POST when post fields are
set and a GET when they are not. -/
def configureCurl (req : HttpRequest) : CurlRequest where
  method := match req.method, req.body with
    | .post, some _ | .put, some _ | .patch, some _ => .post
    | .delete, _ => .delete
    | .head, _ => .head
    | _, _ => .get
  url := req.url
  body := match req.method, req.body with
    | .post, some data | .put, some data | .patch, some data => postFields data req.bodyLen
    | _, _ => []
  headers := buildCurlHeaders req.headers

/-- The transfer was completed and its status is 429. -/
def Exchange.RateLimited (x : Exchange) : Prop :=
  x.curlError = none ∧ x.httpCode = httpStatusTooManyRequests

instance (x : Exchange) : Decidable x.RateLimited := by
  unfold Exchange.RateLimited
  infer_instance

theorem httpAttempts_response (maxRetries : Int) (server : Nat → Exchange) (attempt : Nat) :
    (httpAttempts maxRetries server attempt).1 =
      (server ((httpAttempts maxRetries server attempt).2 - 1)).response := by
  induction attempt using httpAttempts.induct maxRetries server with
  | case1 attempt response h ih =>
      rw [httpAttempts, dif_pos h]
      exact ih
  | case2 attempt response h =>
      rw [httpAttempts, dif_neg h]
      rfl

@[simp] theorem httpAttempts_zero (server : Nat → Exchange) (attempt : Nat) :
    httpAttempts 0 server attempt = ((server attempt).response, attempt + 1) := by
  rw [httpAttempts, dif_neg]
  simp [shouldRetry]

theorem httpClientExecute_rc (config : HttpClientConfig) (request : HttpRequest)
    (server : Nat → Exchange) :
    (httpClientExecute config request server).rc = 0 ↔
      (httpClientExecute config request server).response.success = true := by
  simp only [httpClientExecute]
  cases (httpAttempts config.maxRetries server 0).1.success <;> simp

theorem httpClientExecute_default (request : HttpRequest) (server : Nat → Exchange) :
    (httpClientExecute .default request server).rc =
        (if (server 0).response.success then 0 else -1) ∧
      (httpClientExecute .default request server).response = (server 0).response := by
  simp [httpClientExecute, HttpClientConfig.default]

theorem subset_httpHeadersAdd (capacity : Nat) (headers : List (CString × CString))
    (key value : CString) : headers ⊆ httpHeadersAdd capacity headers key value := by
  rw [httpHeadersAdd]
  split
  · exact List.Subset.refl _
  · exact List.subset_append_left _ _

/-- Text is posted whole, the empty text included. -/
@[simp] theorem postFields_text (text : CString) :
    postFields text.bytes text.length = text.bytes := by
  rw [postFields]
  split
  · exact List.take_of_length_le (Nat.le_refl _)
  · rw [ofBytes_bytes]

/-- A call that returns 0 has a 2xx status: an error status is reported as a failed call. -/
theorem httpClientExecute_status {config : HttpClientConfig} {request : HttpRequest}
    {server : Nat → Exchange} (h : (httpClientExecute config request server).rc = 0) :
    200 ≤ (httpClientExecute config request server).response.statusCode ∧
      (httpClientExecute config request server).response.statusCode < 300 := by
  have success := (httpClientExecute_rc config request server).mp h
  simp only [httpClientExecute, httpAttempts_response] at success ⊢
  simp only [Exchange.response, Bool.and_eq_true, decide_eq_true_eq] at success ⊢
  exact success.2

end Kaufbot
