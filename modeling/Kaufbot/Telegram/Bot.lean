import Kaufbot.Library.Feed
import Kaufbot.Telegram.BotCommands
import Mathlib.Logic.Relation

/-!
The long-poll loop and the Telegram server it talks to. One pass through the
loop is a function of the answer to `getUpdates`; the server is a queue that
discards on the offset of every request it processes, whether or not its answer
arrives. Arrivals, answered polls and failed polls interleave freely.
-/

namespace Kaufbot

open CString

/-- What the loop changes: the world through the dispatcher, and `bot->offset`. The updates passed
to `bot_dispatch_update` are logged. -/
structure BotLoop where
  world : World
  offset : Int
  dispatched : List CJson

def BotLoop.start (w : World) : BotLoop := { world := w, offset := 0, dispatched := [] }

/-- The body of the loop over the result array, for the update at position `i`. -/
def dispatchOne (bot : TgBot) (envs : Nat → Externals) (s : BotLoop) (entry : CJson × Nat) :
    BotLoop :=
  let (update, i) := entry
  match CJson.numberValue? (member update "update_id") with
  | some uid =>
      { world := (botDispatchUpdate bot (envs i) s.world update).1
        offset := doubleToInt64 uid + 1
        dispatched := s.dispatched ++ [update] }
  | none => s

/-- One pass through the loop of `bot_start`; `body` is what `http_get` returned. -/
def botPoll (bot : TgBot) (envs : Nat → Externals) (s : BotLoop) (body : Option CString) :
    BotLoop :=
  match body with
  | none => s
  | some body =>
      match bot.processor.cjsonParse body with
      | none => s
      | some json =>
          if !CJson.isTrue (member json "ok") then s
          else
            let result := member json "result"
            if CJson.isArray result then
              (CJson.firstItems result (CJson.getArraySize result)).zipIdx.foldl
                (dispatchOne bot envs) s
            else s

/-- The loop, everything that ever arrived at the server, and what the server still keeps. -/
structure BotSystem where
  loop : BotLoop
  arrived : List CJson
  queue : List CJson

def BotSystem.start (w : World) : BotSystem := { loop := .start w, arrived := [], queue := [] }

def updateId (update : CJson) : Int :=
  doubleToInt64 ((CJson.numberValue? (member update "update_id")).getD 0)

/-- The update carries this integer id, which a double holds exactly. -/
def HasUpdateId (update : CJson) (id : Int) : Prop :=
  CJson.numberValue? (member update "update_id") = some (id : Rat) ∧ -(2 ^ 53) < id ∧ id < 2 ^ 53

def BotSystem.pending (s : BotSystem) : List CJson := Feed.pending updateId s.loop.offset s.queue

/-- The request failed, or its answer is not JSON, or it does not say ok. -/
def FailedAnswer (bot : TgBot) : Option CString → Prop
  | none => True
  | some body =>
      ∀ json, bot.processor.cjsonParse body = some json → CJson.isTrue (member json "ok") = false

inductive BotStep (bot : TgBot) : BotSystem → BotSystem → Prop
  | arrive (s : BotSystem) (update : CJson) (id : Int) (hid : HasUpdateId update id)
      (fresh : ∀ other ∈ s.arrived, updateId other < id) :
      BotStep bot s { s with arrived := s.arrived ++ [update], queue := s.queue ++ [update] }
  | answered (s : BotSystem) (envs : Nat → Externals) (body : CString) (json : CJson) (k : Nat)
      (hparse : bot.processor.cjsonParse body = some json)
      (hok : CJson.isTrue (member json "ok") = true)
      (hresult : member json "result" = some (.array (s.pending.take k))) :
      BotStep bot s
        { s with loop := botPoll bot envs s.loop (some body), queue := s.pending }
  | failed (s : BotSystem) (envs : Nat → Externals) (body : Option CString)
      (hfailed : FailedAnswer bot body) (processed : Bool) :
      BotStep bot s
        { s with
          loop := botPoll bot envs s.loop body
          queue := if processed then s.pending else s.queue }

def BotReachable (bot : TgBot) (w : World) : BotSystem → Prop :=
  Relation.ReflTransGen (BotStep bot) (.start w)

/-- The server and the loop as an acknowledged feed. -/
def BotSystem.feed (s : BotSystem) : Feed.State CJson where
  arrived := s.arrived
  queue := s.queue
  handled := s.loop.dispatched
  offset := s.loop.offset

section Poll
variable {bot : TgBot} (envs : Nat → Externals) (s : BotLoop)

theorem botPoll_of_failed {body : Option CString} (h : FailedAnswer bot body) :
    botPoll bot envs s body = s := by
  cases body with
  | none => rfl
  | some body =>
      simp only [botPoll]
      cases hparse : bot.processor.cjsonParse body with
      | none => rfl
      | some json => simp [h json hparse]

theorem foldl_dispatchOne (batch : List CJson)
    (numbered : ∀ update ∈ batch, ∃ id, HasUpdateId update id) (i : Nat) :
    ((batch.zipIdx i).foldl (dispatchOne bot envs) s).dispatched = s.dispatched ++ batch ∧
      ((batch.zipIdx i).foldl (dispatchOne bot envs) s).offset =
        Feed.nextOffset updateId s.offset batch := by
  induction batch generalizing s i with
  | nil => simp [Feed.nextOffset]
  | cons update batch ih =>
      obtain ⟨id, hid, _⟩ := numbered update List.mem_cons_self
      have first : dispatchOne bot envs s (update, i) =
          { world := (botDispatchUpdate bot (envs i) s.world update).1
            offset := updateId update + 1
            dispatched := s.dispatched ++ [update] } := by
        simp only [dispatchOne, updateId, hid, Option.getD_some]
      obtain ⟨hdispatched, hoffset⟩ := ih (dispatchOne bot envs s (update, i))
        (fun update hmem => numbered update (List.mem_cons_of_mem _ hmem)) (i + 1)
      rw [List.zipIdx_cons, List.foldl_cons, hdispatched, hoffset, first]
      refine ⟨by simp, ?_⟩
      exact Feed.nextOffset_append [update] batch

/-- An answer with a result array is dispatched from the front; the count overflows an `int` only
past two thousand million updates, and then fewer are dispatched. -/
theorem botPoll_of_answer {body : CString} {json : CJson} {batch : List CJson}
    (hparse : bot.processor.cjsonParse body = some json)
    (hok : CJson.isTrue (member json "ok") = true)
    (hresult : member json "result" = some (.array batch))
    (numbered : ∀ update ∈ batch, ∃ id, HasUpdateId update id) :
    ∃ n, (botPoll bot envs s (some body)).dispatched = s.dispatched ++ batch.take n ∧
      (botPoll bot envs s (some body)).offset =
        Feed.nextOffset updateId s.offset (batch.take n) := by
  refine ⟨(wrapInt32 batch.length).toNat, ?_⟩
  simp only [botPoll, hparse, hok, hresult, Bool.not_true, Bool.false_eq_true, if_false,
    CJson.isArray, if_true, CJson.firstItems, CJson.getArraySize, CJson.children]
  exact foldl_dispatchOne envs s _
    (fun update hmem => numbered update (List.mem_of_mem_take hmem)) 0

end Poll

theorem HasUpdateId.updateId_eq {update : CJson} {id : Int} (h : HasUpdateId update id) :
    updateId update = id := by
  rw [updateId, h.1, Option.getD_some, doubleToInt64_intCast h.2.1 h.2.2]

structure BotInv (s : BotSystem) : Prop where
  numbered : ∀ update ∈ s.arrived, ∃ id, HasUpdateId update id
  feed : Feed.Inv updateId 0 s.feed

theorem BotStep.arrived_subset {bot : TgBot} {s s' : BotSystem} (step : BotStep bot s s') :
    s.arrived ⊆ s'.arrived := by
  cases step with
  | arrive update id hid fresh => exact List.subset_append_left _ _
  | answered envs body json k hparse hok hresult => exact List.Subset.refl _
  | failed envs body hfailed processed => exact List.Subset.refl _

/-- Every step of the loop and the server is a step of the feed, or none. -/
theorem BotStep.refines {bot : TgBot} {s s' : BotSystem} (step : BotStep bot s s')
    (inv : BotInv s) (low : ∀ update ∈ s'.arrived, 0 ≤ updateId update) :
    Feed.Step updateId 0 s.feed s'.feed ∨ s'.feed = s.feed := by
  cases step with
  | arrive update id hid fresh =>
      refine Or.inl (Feed.Step.arrive s.feed update (fun other hmem => ?_) (low update (by simp)))
      rw [hid.updateId_eq]
      exact fresh other hmem
  | answered envs body json k hparse hok hresult =>
      have pending : ∀ update ∈ s.pending, ∃ id, HasUpdateId update id := by
        intro update hmem
        obtain ⟨done, rest, harrived, _⟩ := inv.feed.split
        have hrest : s.pending = rest := inv.feed.pending_eq harrived
        have harrived' : s.arrived = s.loop.dispatched ++ rest := harrived
        refine inv.numbered update ?_
        rw [harrived']
        exact List.mem_append_right _ (hrest ▸ hmem)
      obtain ⟨n, hdispatched, hoffset⟩ := botPoll_of_answer envs s.loop hparse hok hresult
        (fun update hmem => pending update (List.mem_of_mem_take hmem))
      rw [List.take_take] at hdispatched hoffset
      left
      have deliver : Feed.Step updateId 0 s.feed _ := Feed.Step.deliver s.feed (min n k)
      simpa only [BotSystem.feed, BotSystem.pending, hdispatched, hoffset] using deliver
  | failed envs body hfailed processed =>
      simp only [BotSystem.feed, botPoll_of_failed envs s.loop hfailed]
      cases processed with
      | true => exact Or.inl (Feed.Step.discard s.feed)
      | false => exact Or.inr rfl

theorem BotStep.inv {bot : TgBot} {s s' : BotSystem} (step : BotStep bot s s') (inv : BotInv s)
    (low : ∀ update ∈ s'.arrived, 0 ≤ updateId update) : BotInv s' where
  numbered := by
    cases step with
    | arrive update id hid fresh =>
        intro other hmem
        rcases List.mem_append.mp hmem with hold | hnew
        · exact inv.numbered other hold
        · obtain rfl := List.mem_singleton.mp hnew
          exact ⟨id, hid⟩
    | answered envs body json k hparse hok hresult => exact inv.numbered
    | failed envs body hfailed processed => exact inv.numbered
  feed := by
    rcases step.refines inv low with hstep | hsame
    · exact hstep.inv inv.feed
    · rw [hsame]
      exact inv.feed

theorem botInv_of_reachable {bot : TgBot} {w : World} {s : BotSystem} (h : BotReachable bot w s)
    (low : ∀ update ∈ s.arrived, 0 ≤ updateId update) : BotInv s := by
  induction h with
  | refl => exact ⟨fun _ hmem => absurd hmem List.not_mem_nil, Feed.inv_initial⟩
  | tail _ step ih => exact step.inv (ih fun update hmem => low update (step.arrived_subset hmem)) low

/-- In every reachable state the updates dispatched are the first that arrived, each once and in
order, the others are still with the server, and the offset is one past the last. -/
theorem dispatch_exactly_once (bot : TgBot) (w : World) (s : BotSystem) (h : BotReachable bot w s)
    (low : ∀ update ∈ s.arrived, 0 ≤ updateId update) :
    s.loop.dispatched <+: s.arrived ∧
      s.arrived.drop s.loop.dispatched.length <:+ s.queue ∧
      s.loop.offset = Feed.nextOffset updateId 0 s.loop.dispatched := by
  have once := (botInv_of_reachable h low).feed.exactlyOnce
  exact ⟨once.handled, once.remaining, once.offset⟩

def bareUpdate (id : Int) : CJson := .object [(lit "update_id", .number id)]

theorem bareUpdate_hasUpdateId {id : Int} (hl : -(2 ^ 53) < id) (hu : id < 2 ^ 53) :
    HasUpdateId (bareUpdate id) id := by
  refine ⟨?_, hl, hu⟩
  simp [bareUpdate, member, CJson.getObjectItem, caseInsensitiveEq, CJson.numberValue?]

def answerOne : CString := lit "\x7b\"ok\":true,\"result\":[\x7b\"update_id\":1\x7d]\x7d"

def answerOneJson : CJson :=
  .object [(lit "ok", .bool true), (lit "result", .array [bareUpdate 1])]

/-- A bot that nobody may use, and whose parser knows that answer. -/
def pollingBot : TgBot where
  cfg := { allowedUsers := [], geminiModels := [], maxFileSizeBytes := 0 }
  processor :=
    { localProcessor with
      cjsonParse := fun body => if body = answerOne then some answerOneJson else none }

theorem poll_one {s : BotSystem} (hloop : s.loop = .start .empty)
    (hpending : s.pending.take 1 = [bareUpdate 1]) :
    BotStep pollingBot s
      { s with
        loop := { world := .empty, offset := 2, dispatched := [bareUpdate 1] }
        queue := s.pending } := by
  have answered : BotStep pollingBot s _ := BotStep.answered s (fun _ => .working 0 (lit "") (lit ""))
    answerOne answerOneJson 1 (by simp [pollingBot]) rfl (by rw [hpending]; rfl)
  rw [hloop] at answered
  exact answered

/-- One update arrives and is dispatched. -/
theorem dispatch_exactly_once_one :
    ∃ s, BotReachable pollingBot .empty s ∧ s.loop.dispatched = [bareUpdate 1] ∧
      s.loop.dispatched <+: s.arrived ∧
      s.arrived.drop s.loop.dispatched.length <:+ s.queue ∧
      s.loop.offset = Feed.nextOffset updateId 0 s.loop.dispatched := by
  have arrive : BotStep pollingBot (.start .empty) _ :=
    .arrive _ (bareUpdate 1) 1 (bareUpdate_hasUpdateId (by omega) (by omega))
      (fun _ h => absurd h List.not_mem_nil)
  have reachable := Relation.ReflTransGen.tail (.single arrive) (poll_one rfl rfl)
  refine ⟨_, reachable, rfl, dispatch_exactly_once _ _ _ reachable ?_⟩
  intro update hmem
  obtain rfl := List.mem_singleton.mp hmem
  decide

/-- An update numbered below 0 is discarded by the first poll, and a later one is dispatched. -/
theorem negative_id_lost :
    ∃ s, BotReachable pollingBot .empty s ∧ s.arrived = [bareUpdate (-5), bareUpdate 1] ∧
      s.loop.dispatched = [bareUpdate 1] ∧ ¬ s.loop.dispatched <+: s.arrived := by
  have arriveLow : BotStep pollingBot (.start .empty) _ :=
    .arrive _ (bareUpdate (-5)) (-5) (bareUpdate_hasUpdateId (by omega) (by omega))
      (fun _ h => absurd h List.not_mem_nil)
  have arrive : BotStep pollingBot
      { loop := .start .empty, arrived := [bareUpdate (-5)], queue := [bareUpdate (-5)] } _ :=
    .arrive _ (bareUpdate 1) 1 (bareUpdate_hasUpdateId (by omega) (by omega)) (by decide)
  refine ⟨_, .tail (.tail (.single arriveLow) arrive) (poll_one rfl rfl), rfl, rfl, ?_⟩
  intro h
  have same : bareUpdate 1 = bareUpdate (-5) := (List.cons_prefix_cons.mp h).1
  exact absurd (congrArg updateId same) (by decide)

end Kaufbot
