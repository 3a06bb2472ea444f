import Kaufbot.Infra.HttpClient
import Mathlib.Algebra.Order.Ring.Rat

/-!
The retry loop of the HTTP client statement by statement: the response struct it
fills and clears between attempts, and the delays it sleeps. The loop of
`httpClientExecute` is this one without them.
-/

namespace Kaufbot

open CString

/-- A struct of zero bytes. -/
def HttpResponse.cleared : HttpResponse where
  statusCode := 0
  body := none
  bodyLen := 0
  error := .empty
  success := false

/-- The error is written only after a failed transfer. -/
def HttpResponse.populate (resp : HttpResponse) (x : Exchange) : HttpResponse where
  statusCode := x.httpCode
  body := x.body
  bodyLen := (x.body.getD []).length
  success := x.curlError.isNone && (200 ≤ x.httpCode && x.httpCode < 300)
  error := match x.curlError with
    | some text => snprintf 256 (lit "curl error: " ++ text)
    | none => resp.error

/-- The response, how many attempts were made, and the attempt numbers `exponential_backoff` was
called with. -/
structure HttpRun where
  response : HttpResponse
  attempts : Nat
  backoffs : List Nat

def httpExecuteLoop (maxRetries : Int) (server : Nat → Exchange) (attempt : Nat)
    (response : HttpResponse) : HttpRun :=
  let backoffs := if attempt > 0 then [attempt] else []
  let response := response.populate (server attempt)
  if h : shouldRetry response attempt maxRetries = true then
    let later := httpExecuteLoop maxRetries server (attempt + 1) .cleared
    { later with backoffs := backoffs ++ later.backoffs }
  else { response, attempts := attempt + 1, backoffs }
termination_by (maxRetries - attempt).toNat
decreasing_by
  have := lt_of_shouldRetry h
  omega

/-- `1 << attempt` in a 32-bit `int`. Where the power does not fit, C leaves the result open, and
nothing is known of it but that it is an `int`. -/
structure IntShift where
  result : Nat → Int
  lower : ∀ attempt, -(2 ^ 31) ≤ result attempt
  upper : ∀ attempt, result attempt < 2 ^ 31
  exact : ∀ attempt, attempt < 31 → result attempt = 2 ^ attempt

/-- The delay `exponential_backoff` sleeps, in milliseconds. -/
def exponentialBackoff (shift : IntShift) (attempt : Nat) (baseDelayMs : Rat) : Rat :=
  let delayMs := baseDelayMs * shift.result attempt
  if delayMs > 10000 then 10000 else delayMs

@[simp] theorem cleared_populate (x : Exchange) :
    HttpResponse.cleared.populate x = x.response := rfl

theorem shouldRetry_iff {resp : HttpResponse} {attempt : Nat} {maxRetries : Int} :
    shouldRetry resp attempt maxRetries = true ↔
      attempt < maxRetries.toNat ∧ httpIsRetryable resp.statusCode = true := by
  unfold shouldRetry
  split
  · simp
    omega
  · split
    · simp
      omega
    · have : attempt < maxRetries.toNat := by omega
      simp [this]

section Loop
variable (maxRetries : Int) (server : Nat → Exchange) (attempt : Nat) (response : HttpResponse)

theorem httpExecuteLoop_retry
    (h : shouldRetry (response.populate (server attempt)) attempt maxRetries = true) :
    httpExecuteLoop maxRetries server attempt response =
      { httpExecuteLoop maxRetries server (attempt + 1) .cleared with
        backoffs := (if attempt > 0 then [attempt] else []) ++
          (httpExecuteLoop maxRetries server (attempt + 1) .cleared).backoffs } := by
  rw [httpExecuteLoop]
  exact dif_pos h

theorem httpExecuteLoop_stop
    (h : ¬ shouldRetry (response.populate (server attempt)) attempt maxRetries = true) :
    httpExecuteLoop maxRetries server attempt response =
      { response := response.populate (server attempt), attempts := attempt + 1,
        backoffs := if attempt > 0 then [attempt] else [] } := by
  rw [httpExecuteLoop]
  exact dif_neg h

/-- Every attempt finds the struct cleared, so the loop leaves what its last one alone does. -/
theorem httpExecuteLoop_attempts :
    ((httpExecuteLoop maxRetries server attempt .cleared).response,
      (httpExecuteLoop maxRetries server attempt .cleared).attempts) =
      httpAttempts maxRetries server attempt := by
  induction attempt using httpAttempts.induct maxRetries server with
  | case1 attempt response h ih =>
      rw [httpExecuteLoop_retry maxRetries server attempt .cleared h, httpAttempts, dif_pos h]
      exact ih
  | case2 attempt response h =>
      rw [httpExecuteLoop_stop maxRetries server attempt .cleared h, httpAttempts, dif_neg h]
      rfl

theorem lt_httpExecuteLoop_attempts :
    attempt < (httpExecuteLoop maxRetries server attempt response).attempts := by
  induction attempt, response using httpExecuteLoop.induct maxRetries server with
  | case1 attempt response populated h ih =>
      rw [httpExecuteLoop_retry maxRetries server attempt response h]
      exact Nat.lt_of_succ_lt ih
  | case2 attempt response populated h =>
      rw [httpExecuteLoop_stop maxRetries server attempt response h]
      exact Nat.lt_succ_self attempt

theorem httpExecuteLoop_backoffs_of_pos (pos : 0 < attempt) :
    (httpExecuteLoop maxRetries server attempt response).backoffs =
      List.range' attempt
        ((httpExecuteLoop maxRetries server attempt response).attempts - attempt) := by
  induction attempt, response using httpExecuteLoop.induct maxRetries server with
  | case1 attempt response populated h ih =>
      have later := lt_httpExecuteLoop_attempts maxRetries server (attempt + 1) .cleared
      obtain ⟨more, heq⟩ := Nat.exists_eq_add_of_lt later
      have left : attempt + 1 + more + 1 - attempt = more + 1 + 1 := by omega
      have leftLater : attempt + 1 + more + 1 - (attempt + 1) = more + 1 := by omega
      rw [httpExecuteLoop_retry maxRetries server attempt response h]
      rw [ih (Nat.succ_pos _), heq, left, leftLater, if_pos pos]
      rfl
  | case2 attempt response populated h =>
      rw [httpExecuteLoop_stop maxRetries server attempt response h]
      simp [pos]

/-- A delay comes before each attempt but the first. -/
theorem httpExecuteLoop_backoffs :
    (httpExecuteLoop maxRetries server 0 response).backoffs =
      List.range' 1 ((httpExecuteLoop maxRetries server 0 response).attempts - 1) := by
  by_cases h : shouldRetry (response.populate (server 0)) 0 maxRetries = true
  · rw [httpExecuteLoop_retry maxRetries server 0 response h]
    exact httpExecuteLoop_backoffs_of_pos maxRetries server 1 .cleared (Nat.succ_pos 0)
  · rw [httpExecuteLoop_stop maxRetries server 0 response h]
    rfl

end Loop

end Kaufbot
