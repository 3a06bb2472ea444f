import Kaufbot.Ocr.Gemini
import Mathlib.Data.List.Induction

/-!
What a rate limit should lead to, over whole sessions of a client: the refused
call is sent again to the fallback model, which then gets every request up to
midnight. The law is stated on the requests a server sees, without the client's
own bookkeeping. The client follows it in exactly the sessions without a
refusal, since its HTTP layer reports a 429 as a failed transfer.
-/

namespace Kaufbot

open CString Runs

def IsMidnight (zone : TimeZone) (t : Int) : Prop :=
  (zone.localtime t).hour = 0 ∧ (zone.localtime t).min = 0 ∧ (zone.localtime t).sec = 0

structure FollowingMidnight (zone : TimeZone) (t midnight : Int) : Prop where
  later : t < midnight
  isMidnight : IsMidnight zone midnight
  first : ∀ x, t < x → x < midnight → ¬ IsMidnight zone x

/-- A fallback period began with a refusal at `limitedAt` and has not reached midnight. -/
def FallbackActive (zone : TimeZone) (limitedAt : Option Int) (now : Int) : Prop :=
  ∃ t midnight, limitedAt = some t ∧ FollowingMidnight zone t midnight ∧ now < midnight

open Classical in
/-- The refusal a fallback period goes back to, after one more request. -/
noncomputable def limitedAfter (zone : TimeZone) (limitedAt : Option Int) (x : Sent) :
    Option Int :=
  if FallbackActive zone limitedAt x.sentAt then limitedAt
  else if x.answer.RateLimited then some x.answeredAt
  else none

/-- The call is sent again, once, to the fallback model, and ends as that request does. -/
def SentAgain (env : GeminiEnv) (client : GeminiClient) (call : GeminiCall) (x : Sent)
    (after : List Sent) : Prop :=
  ∃ again, after = [again] ∧
    again.request = { x.request with url := client.url client.fallbackModel } ∧
    call.result =
      if again.answer.response.success then geminiResult env again.answer.response else none

/-- Where one request of a call goes, and what a refusal of it leads to. -/
structure LawfulRequest (env : GeminiEnv) (client : GeminiClient) (limitedAt : Option Int)
    (call : GeminiCall) (before : List Sent) (x : Sent) (after : List Sent) : Prop where
  fallback : FallbackActive env.zone limitedAt x.sentAt →
    x.request.url = client.url client.fallbackModel
  primary : ¬ FallbackActive env.zone limitedAt x.sentAt → before = [] →
    x.request.url = client.url call.primary
  limited : ¬ FallbackActive env.zone limitedAt x.sentAt → before = [] →
    x.answer.RateLimited → SentAgain env client call x after

/-- The rate-limit fallback, for every request of a session. -/
def FallbackLaw (env : GeminiEnv) (client : GeminiClient) (calls : List GeminiCall) : Prop :=
  ∀ past call later before x after,
    calls = past ++ call :: later → call.sent = before ++ x :: after →
    LawfulRequest env client
      ((past.flatMap GeminiCall.sent ++ before).foldl (limitedAfter env.zone) none)
      call before x after

/-- Each call sends at most one request, to its model, and it is answered as the inputs say. -/
def SingleRequest (client : GeminiClient) (input : CallInput) (call : GeminiCall) : Prop :=
  if input.first.curlInit then
    ∃ x, call.sent = [x] ∧ x.request.url = client.url call.primary ∧
      x.answer = input.first.server 0
  else call.sent = []

theorem SingleRequest.only {client : GeminiClient} {input : CallInput} {call : GeminiCall}
    (h : SingleRequest client input call) {x : Sent} (hx : x ∈ call.sent) :
    call.sent = [x] ∧ x.request.url = client.url call.primary := by
  unfold SingleRequest at h
  split at h
  · obtain ⟨y, sent, url, _⟩ := h
    obtain rfl : x = y := by simpa [sent] using hx
    exact ⟨sent, url⟩
  · simp [h] at hx

theorem SingleRequest.unlimited_iff {client : GeminiClient} {input : CallInput}
    {call : GeminiCall} (h : SingleRequest client input call) :
    (∀ x ∈ call.sent, ¬ x.answer.RateLimited) ↔
      (input.first.curlInit = true → ¬ (input.first.server 0).RateLimited) := by
  unfold SingleRequest at h
  split at h
  · next init =>
      obtain ⟨y, sent, _, answer⟩ := h
      simp [sent, init, answer]
  · next init => simp [h, init]

theorem not_fallbackActive_none (zone : TimeZone) (now : Int) :
    ¬ FallbackActive zone none now := by
  rintro ⟨t, midnight, h, _⟩
  cases h

theorem limitedAfter_none {zone : TimeZone} {sent : List Sent}
    (h : ∀ x ∈ sent, ¬ x.answer.RateLimited) :
    sent.foldl (limitedAfter zone) none = none := by
  induction sent with
  | nil => rfl
  | cons x sent ih =>
      have first : limitedAfter zone none x = none := by
        rw [limitedAfter, if_neg (not_fallbackActive_none zone x.sentAt),
          if_neg (h x List.mem_cons_self)]
      rw [List.foldl_cons, first]
      exact ih fun y hy => h y (List.mem_cons_of_mem _ hy)

theorem limitedAfter_none_of_calls {zone : TimeZone} {past : List GeminiCall} {before : List Sent}
    (hpast : ∀ call ∈ past, ∀ x ∈ call.sent, ¬ x.answer.RateLimited)
    (hbefore : ∀ x ∈ before, ¬ x.answer.RateLimited) :
    (past.flatMap GeminiCall.sent ++ before).foldl (limitedAfter zone) none = none := by
  apply limitedAfter_none
  intro x hx
  rcases List.mem_append.mp hx with hx | hx
  · obtain ⟨call, hcall, hx⟩ := List.mem_flatMap.mp hx
    exact hpast call hcall x hx
  · exact hbefore x hx

theorem PrimaryCall.singleRequest {start client after : GeminiClient} {input : CallInput}
    {call : GeminiCall} (h : PrimaryCall client input after call)
    (address : SameAddress start client) : SingleRequest start input call := by
  obtain ⟨body, sent⟩ := h.sent
  unfold SingleRequest
  split
  · next init =>
      rw [if_pos init] at sent
      exact ⟨_, sent, address.url call.primary, rfl⟩
  · next init =>
      rwa [if_neg init] at sent

theorem run_singleRequest (env : GeminiEnv) (start : GeminiClient) (s : GeminiSession)
    (ops : List (GeminiOp × CallInput)) (noFallback : s.client.fallbackUntil = 0)
    (address : SameAddress start s.client) :
    ∃ calls, (run (geminiStep env) s ops).calls = s.calls ++ calls ∧
      List.Forall₂ (fun op call => SingleRequest start op.2 call) ops calls := by
  induction ops generalizing s with
  | nil => exact ⟨[], by simp, .nil⟩
  | cons op ops ih =>
      have first := op.1.apply_primary env noFallback op.2
      have nextAddress : SameAddress start (geminiStep env s op).client :=
        ⟨first.address.apiBase.trans address.apiBase, first.address.apiKey.trans address.apiKey⟩
      obtain ⟨calls, hcalls, single⟩ := ih (geminiStep env s op) first.fallbackUntil nextAddress
      refine ⟨(op.1.apply env op.2 s.client).2 :: calls, ?_, ?_⟩
      · rw [run_cons, hcalls]
        simp [geminiStep]
      · exact .cons (first.singleRequest address) single

theorem FallbackLaw.of_append {env : GeminiEnv} {client : GeminiClient}
    {calls rest : List GeminiCall} (h : FallbackLaw env client (calls ++ rest)) :
    FallbackLaw env client calls := by
  intro past call later before x after hcalls hsent
  exact h past call (later ++ rest) before x after (by simp [hcalls]) hsent

section Single
variable {env : GeminiEnv} {client : GeminiClient} {calls : List GeminiCall}
  (single : ∀ call ∈ calls, ∀ x ∈ call.sent,
    call.sent = [x] ∧ x.request.url = client.url call.primary)
include single

theorem FallbackLaw.unlimited (law : FallbackLaw env client calls) :
    ∀ call ∈ calls, ∀ x ∈ call.sent, ¬ x.answer.RateLimited := by
  induction calls using List.reverseRecOn with
  | nil => exact fun _ hmem => absurd hmem List.not_mem_nil
  | append_singleton calls last ih =>
      have earlier := ih (fun call hmem => single call (List.mem_append_left _ hmem))
        law.of_append
      intro call hmem x hx
      rcases List.mem_append.mp hmem with hold | hlast
      · exact earlier call hold x hx
      · obtain rfl := List.mem_singleton.mp hlast
        intro limited
        have only := (single call hmem x hx).1
        have lawful := law calls call [] [] x [] rfl only
        rw [limitedAfter_none_of_calls earlier (fun _ h => absurd h List.not_mem_nil)] at lawful
        -- The call would have to be sent again, and it is not.
        obtain ⟨again, hagain, _⟩ := lawful.limited (not_fallbackActive_none _ _) rfl limited
        cases hagain

theorem fallbackLaw_of_unlimited
    (unlimited : ∀ call ∈ calls, ∀ x ∈ call.sent, ¬ x.answer.RateLimited) :
    FallbackLaw env client calls := by
  intro past call later before x after hcalls hsent
  have hcall : call ∈ calls := by simp [hcalls]
  have hx : x ∈ call.sent := by simp [hsent]
  rw [limitedAfter_none_of_calls (fun earlier h => unlimited earlier (by simp [hcalls, h]))
    (fun y h => unlimited call hcall y (by simp [hsent, h]))]
  exact
    { fallback := fun active => absurd active (not_fallbackActive_none _ _)
      primary := fun _ _ => (single call hcall x hx).2
      limited := fun _ _ limited => absurd limited (unlimited call hcall x hx) }

end Single

theorem run_fallbackLaw_iff (env : GeminiEnv) (client : GeminiClient)
    (noFallback : client.fallbackUntil = 0) (ops : List (GeminiOp × CallInput)) :
    FallbackLaw env client (run (geminiStep env) (.start client) ops).calls ↔
      ∀ op ∈ ops, op.2.first.curlInit = true → ¬ (op.2.first.server 0).RateLimited := by
  obtain ⟨calls, hcalls, single⟩ :=
    run_singleRequest env client (.start client) ops noFallback ⟨rfl, rfl⟩
  have unlimited : (∀ call ∈ calls, ∀ x ∈ call.sent, ¬ x.answer.RateLimited) ↔
      ∀ op ∈ ops, op.2.first.curlInit = true → ¬ (op.2.first.server 0).RateLimited := by
    clear hcalls
    induction single with
    | nil => simp
    | cons head _ ih => simp only [List.forall_mem_cons, head.unlimited_iff, ih]
  have only : ∀ call ∈ calls, ∀ x ∈ call.sent,
      call.sent = [x] ∧ x.request.url = client.url call.primary := by
    clear hcalls unlimited
    induction single with
    | nil => exact fun _ hmem => absurd hmem List.not_mem_nil
    | cons head _ ih => exact List.forall_mem_cons.mpr ⟨fun x hx => head.only hx, ih⟩
  rw [hcalls, ← unlimited]
  exact ⟨FallbackLaw.unlimited only, fallbackLaw_of_unlimited only⟩

/-- A session of a new client with the fallback enabled follows the law exactly when none of its
requests is answered with status 429. -/
theorem fallbackLaw_iff (env : GeminiEnv) (apiKey model : CString)
    (fallbackModel apiBase : Option CString) (ops : List (GeminiOp × CallInput)) :
    FallbackLaw env (geminiNew apiKey model fallbackModel 1 apiBase)
        (run (geminiStep env) (.start (geminiNew apiKey model fallbackModel 1 apiBase)) ops).calls ↔
      ∀ op ∈ ops, op.2.first.curlInit = true → ¬ (op.2.first.server 0).RateLimited :=
  run_fallbackLaw_iff env _ rfl ops

def pictureBody : CString :=
  .concat [lit "\x7b\"contents\":[\x7b\"parts\":[\x7b\"inline_data\":\x7b\"mime_type\":\"image/jpeg\",",
    lit "\"data\":\"AQ==\"\x7d\x7d,\x7b\"text\":\"", ocrPrompt,
    lit "\"\x7d]\x7d],\"generationConfig\":\x7b\"temperature\":0\x7d\x7d"]

def utcEnv : GeminiEnv where
  zone := .utc
  cjsonParse := fun _ => none
  cjsonPrint := fun _ => pictureBody

def refusedPass : PassInput where
  curlInit := true
  sentAt := 43200
  answeredAt := 43201
  server := fun _ => { curlError := none, httpCode := 429, body := some (lit "quota").bytes }

/-- A new client asked for the text of one picture, and refused. -/
def refusedSession : List GeminiCall :=
  (run (geminiStep utcEnv)
    (.start (geminiNew (lit "key") (lit "gemini-2.5-flash") none 1 none))
    [(.extractText [1] (lit "milk.jpg"), { first := refusedPass, second := refusedPass })]).calls

/-- One request leaves the process, to the primary model; it is refused and not sent again. -/
theorem refusedSession_not_lawful :
    ¬ FallbackLaw utcEnv (geminiNew (lit "key") (lit "gemini-2.5-flash") none 1 none)
      refusedSession := by
  intro law
  have unlimited := (run_fallbackLaw_iff utcEnv _ rfl _).mp law _ List.mem_cons_self rfl
  exact unlimited ⟨rfl, rfl⟩

end Kaufbot
