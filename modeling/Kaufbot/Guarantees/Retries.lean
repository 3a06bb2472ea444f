import Kaufbot.Infra.RetryLoop
import Kaufbot.Library.Streak
import Mathlib.Tactic.Linarith
import Mathlib.Tactic.NormNum
import Mathlib.Tactic.Positivity

/-!
How often the HTTP client tries a request, what a call leaves behind, and how
long it waits between attempts. The number of attempts is that of the leading
retryable answers, up to the limit. The delays double up to a cap of ten seconds
as long as the power of two fits an `int`, which the limit on the retries does
not see to.
-/

namespace Kaufbot

open CString Streak

def IsRetryableAt (server : Nat → Exchange) (i : Nat) : Prop :=
  500 ≤ (server i).httpCode ∨ (server i).httpCode = 429

inductive HookKind where
  | request
  | response
  | error
deriving DecidableEq

def HookCall.kind : HookCall → HookKind
  | .onRequest _ => .request
  | .onResponse _ => .response
  | .onError _ _ => .error

def HttpResult.callsOf (call : HttpResult) (kind : HookKind) : List HookCall :=
  call.hookCalls.filter (·.kind == kind)

/-- A configured hook runs once, the error hook only for a call that failed. -/
structure HooksOnce (hooks : HttpHooks) (request : HttpRequest) (call : HttpResult) : Prop where
  onRequest : call.callsOf .request = if hooks.onRequest then [.onRequest request] else []
  onResponse : call.callsOf .response =
    if hooks.onResponse then [.onResponse call.response] else []
  onError : call.callsOf .error =
    if hooks.onError ∧ call.rc = -1 then [.onError request call.response] else []

section Attempts
variable (maxRetries : Int) (server : Nat → Exchange)

theorem httpIsRetryable_iff {i : Nat} :
    httpIsRetryable (server i).response.statusCode = true ↔ IsRetryableAt server i := by
  simp [httpIsRetryable, IsRetryableAt, Exchange.response, httpStatusTooManyRequests]

/-- The last attempt is at the limit or its answer is not retryable, and all before it were. -/
theorem httpAttempts_last (attempt : Nat) (passed : ∀ i < attempt, IsRetryableAt server i)
    (le : attempt ≤ maxRetries.toNat) :
    ∃ last, (httpAttempts maxRetries server attempt).2 = last + 1 ∧
      (∀ i < last, IsRetryableAt server i) ∧ last ≤ maxRetries.toNat ∧
      (last = maxRetries.toNat ∨ ¬ IsRetryableAt server last) := by
  induction attempt using httpAttempts.induct maxRetries server with
  | case1 attempt response h ih =>
      rw [httpAttempts, dif_pos h]
      obtain ⟨below, retryable⟩ := shouldRetry_iff.mp h
      refine ih (fun i hi => ?_) below
      rcases Nat.lt_succ_iff_lt_or_eq.mp hi with earlier | rfl
      · exact passed i earlier
      · exact (httpIsRetryable_iff server).mp retryable
  | case2 attempt response h =>
      rw [httpAttempts, dif_neg h]
      refine ⟨attempt, rfl, passed, le, ?_⟩
      by_contra neither
      obtain ⟨below, retryable⟩ := not_or.mp neither
      exact h (shouldRetry_iff.mpr
        ⟨by omega, (httpIsRetryable_iff server).mpr (not_not.mp retryable)⟩)

theorem exists_last_attempt :
    ∃ last : Nat, (httpAttempts maxRetries server 0).2 = last + 1 ∧
      (last : ℕ∞) = min (leading (IsRetryableAt server)) maxRetries.toNat := by
  obtain ⟨last, heq, passed, le, stop⟩ := httpAttempts_last maxRetries server 0
    (fun i hi => absurd hi (Nat.not_lt_zero i)) (Nat.zero_le _)
  exact ⟨last, heq, stop_eq_min passed le stop⟩

end Attempts

theorem httpClientExecute_hooks (config : HttpClientConfig) (request : HttpRequest)
    (server : Nat → Exchange) :
    HooksOnce config.hooks request (httpClientExecute config request server) := by
  obtain ⟨maxRetries, onRequest, onResponse, onError⟩ := config
  simp only [httpClientExecute]
  generalize httpAttempts maxRetries server 0 = run
  obtain ⟨response, attempts⟩ := run
  constructor
  all_goals
    cases hs : response.success <;> cases onRequest <;> cases onResponse <;> cases onError <;>
      simp [HttpResult.callsOf, HookCall.kind]

/-- The number of attempts, the return code, the response and the hooks of a call, whatever the
server answers. -/
theorem httpClientExecute_spec (config : HttpClientConfig) (request : HttpRequest)
    (server : Nat → Exchange) :
    let run := httpExecuteLoop config.maxRetries server 0 .cleared
    let call := httpClientExecute config request server
    let last := server (call.attempts - 1)
    (run.response = call.response ∧ run.attempts = call.attempts) ∧
      (call.attempts : ℕ∞) =
        min (leading (IsRetryableAt server)) (max config.maxRetries 0).toNat + 1 ∧
      (call.rc = 0 ↔ last.curlError = none ∧ 200 ≤ last.httpCode ∧ last.httpCode ≤ 299) ∧
      (call.rc = 0 ∨ call.rc = -1) ∧
      call.response = HttpResponse.cleared.populate last ∧
      HooksOnce config.hooks request call := by
  intro run call last
  have response : call.response = HttpResponse.cleared.populate last :=
    httpAttempts_response config.maxRetries server 0
  have limit : (max config.maxRetries 0).toNat = config.maxRetries.toNat := by omega
  refine ⟨Prod.mk.inj (httpExecuteLoop_attempts config.maxRetries server 0), ?_, ?_, ?_,
    response, httpClientExecute_hooks config request server⟩
  · obtain ⟨n, heq, least⟩ := exists_last_attempt config.maxRetries server
    change ((httpAttempts config.maxRetries server 0).2 : ℕ∞) = _
    rw [limit, heq, Nat.cast_add, Nat.cast_one, least]
  · rw [httpClientExecute_rc config request server]
    change call.response.success = true ↔ _
    rw [response]
    simp [HttpResponse.populate]
    omega
  · change (if _ then (0 : Int) else -1) = 0 ∨ (if _ then (0 : Int) else -1) = -1
    split <;> simp

/-- Each delay is the power of two times the base, up to ten seconds. -/
structure BackoffLaw (shift : IntShift) (baseDelayMs : Rat) (backoffs : List Nat) : Prop where
  exact : ∀ n ∈ backoffs, exponentialBackoff shift n baseDelayMs = min (baseDelayMs * 2 ^ n) 10000
  nonneg : ∀ n ∈ backoffs, 0 ≤ exponentialBackoff shift n baseDelayMs
  capped : ∀ n ∈ backoffs, exponentialBackoff shift n baseDelayMs ≤ 10000
  monotone : ∀ m ∈ backoffs, ∀ n ∈ backoffs, m ≤ n →
    exponentialBackoff shift m baseDelayMs ≤ exponentialBackoff shift n baseDelayMs

/-- The shift of a processor that looks at five bits of the count only. -/
def IntShift.fiveBits : IntShift where
  result attempt := if attempt % 32 = 31 then -(2 ^ 31) else 2 ^ (attempt % 32)
  lower attempt := by
    split
    · exact le_refl _
    · have : (0 : Int) ≤ 2 ^ (attempt % 32) := by positivity
      omega
  upper attempt := by
    split
    · decide
    · exact pow_lt_pow_right₀ (by decide) (by omega)
  exact attempt h := by
    rw [Nat.mod_eq_of_lt (by omega), if_neg (by omega)]

section Backoff
variable {shift : IntShift} {baseDelayMs : Rat}

theorem mem_backoffs {maxRetries : Int} {server : Nat → Exchange} {n : Nat} :
    n ∈ (httpExecuteLoop maxRetries server 0 .cleared).backoffs ↔
      1 ≤ n ∧ (n : ℕ∞) ≤ leading (IsRetryableAt server) ∧ n ≤ maxRetries.toNat := by
  obtain ⟨last, heq, least⟩ := exists_last_attempt maxRetries server
  have attempts : (httpExecuteLoop maxRetries server 0 .cleared).attempts = last + 1 :=
    (congrArg Prod.snd (httpExecuteLoop_attempts maxRetries server 0)).trans heq
  have within : n ≤ last ↔ (n : ℕ∞) ≤ leading (IsRetryableAt server) ∧ n ≤ maxRetries.toNat := by
    rw [← ENat.natCast_le_natCast, least, le_min_iff, ENat.natCast_le_natCast]
  rw [httpExecuteLoop_backoffs, attempts, List.mem_range'_1]
  rw [← within]
  omega

theorem exponentialBackoff_eq_min {n : Nat} (h : shift.result n = 2 ^ n ∨ baseDelayMs = 0) :
    exponentialBackoff shift n baseDelayMs = min (baseDelayMs * 2 ^ n) 10000 := by
  have product : baseDelayMs * shift.result n = baseDelayMs * 2 ^ n := by
    rcases h with exact | rfl
    · rw [exact]
      norm_cast
    · simp
  simp only [exponentialBackoff, product]
  split
  · next above => exact (min_eq_right (le_of_lt above)).symm
  · next below => exact (min_eq_left (not_lt.mp below)).symm

theorem BackoffLaw.of_exact {backoffs : List Nat} (base : 0 ≤ baseDelayMs)
    (exact : ∀ n ∈ backoffs,
      exponentialBackoff shift n baseDelayMs = min (baseDelayMs * 2 ^ n) 10000) :
    BackoffLaw shift baseDelayMs backoffs where
  exact := exact
  nonneg n hn := by
    rw [exact n hn]
    exact le_min (by positivity) (by norm_num)
  capped n hn := by
    rw [exact n hn]
    exact min_le_right _ _
  monotone m hm n hn le := by
    rw [exact m hm, exact n hn]
    have power : (2 : Rat) ^ m ≤ 2 ^ n := pow_le_pow_right₀ (by norm_num) le
    exact min_le_min_right _ (mul_le_mul_of_nonneg_left power base)

/-- The delays of a call follow the law for whatever C makes of a shift that does not fit, exactly
when no attempt number gets to the sign bit or there is nothing to multiply. -/
theorem backoffLaw_iff {maxRetries : Int} {server : Nat → Exchange} (base : 0 ≤ baseDelayMs) :
    (∀ shift, BackoffLaw shift baseDelayMs
        (httpExecuteLoop maxRetries server 0 .cleared).backoffs) ↔
      maxRetries ≤ 30 ∨ leading (IsRetryableAt server) ≤ 30 ∨ baseDelayMs = 0 := by
  constructor
  · intro law
    by_contra h
    simp only [not_or, not_le] at h
    obtain ⟨retries, retryable, nonzero⟩ := h
    have reached : 31 ∈ (httpExecuteLoop maxRetries server 0 .cleared).backoffs :=
      mem_backoffs.mpr ⟨by decide, Order.add_one_le_of_lt retryable, by omega⟩
    have positive : 0 < baseDelayMs := lt_of_le_of_ne base (Ne.symm nonzero)
    have nonneg := (law .fiveBits).nonneg 31 reached
    have delay : baseDelayMs * (IntShift.fiveBits.result 31 : Int) < 0 :=
      mul_neg_of_pos_of_neg positive (by norm_num [IntShift.fiveBits])
    rw [exponentialBackoff, if_neg (by linarith)] at nonneg
    exact absurd nonneg (not_le.mpr delay)
  · intro h shift
    refine .of_exact base (fun n hn => exponentialBackoff_eq_min ?_)
    obtain ⟨-, retryable, retries⟩ := mem_backoffs.mp hn
    rcases h with few | short | zero
    · exact Or.inl (shift.exact n (by omega))
    · have : n ≤ 30 := by exact_mod_cast retryable.trans short
      exact Or.inl (shift.exact n (by omega))
    · exact Or.inr zero

/-- A server that answers 503 to every attempt. -/
def alwaysUnavailable : Nat → Exchange := fun _ => { curlError := none, httpCode := 503, body := none }

theorem backoffLaw_iff_three_retries :
    (∀ shift, BackoffLaw shift 100
        (httpExecuteLoop 3 alwaysUnavailable 0 .cleared).backoffs) ↔
      (3 : Int) ≤ 30 ∨ leading (IsRetryableAt alwaysUnavailable) ≤ 30 ∨ (100 : Rat) = 0 :=
  backoffLaw_iff (by norm_num)

/-- The delay before the 32nd attempt is negative, where the shift gives `INT_MIN`. -/
theorem backoff_thirty_one :
    31 ∈ (httpExecuteLoop 31 alwaysUnavailable 0 .cleared).backoffs ∧
      exponentialBackoff .fiveBits 31 100 = -214748364800 ∧
      ¬ BackoffLaw .fiveBits 100 (httpExecuteLoop 31 alwaysUnavailable 0 .cleared).backoffs := by
  have reached : 31 ∈ (httpExecuteLoop 31 alwaysUnavailable 0 .cleared).backoffs := by
    refine mem_backoffs.mpr ⟨by decide, ?_, by decide⟩
    exact le_leading.mpr (fun i _ => Or.inl (by simp [alwaysUnavailable]))
  have delay : exponentialBackoff .fiveBits 31 100 = -214748364800 := by
    norm_num [exponentialBackoff, IntShift.fiveBits]
  refine ⟨reached, delay, fun law => ?_⟩
  have nonneg := law.nonneg 31 reached
  rw [delay] at nonneg
  exact absurd nonneg (by norm_num)

end Backoff

end Kaufbot
