import Kaufbot.Guarantees.BotRuns
import Kaufbot.Guarantees.FileEffects

/-!
What leaves the process, and what it costs. An update sends at most one request
of each kind, in the order fetch, read, parse, and each carries what was just
fetched or read or what is stored under the record it names. The service reads
a file for the first time once for each id the table ever hands out.
-/

namespace Kaufbot

open CString Runs

namespace Request

def stage : Request → Nat
  | getFilePath _ => 0
  | downloadFile _ => 1
  | extractText _ _ | extractTextWithModel _ _ _ => 2
  | parseReceipt _ => 3

/-- The service is to read a picture. -/
def IsReading (r : Request) : Prop := r.stage = 2

/-- The reading of an upload, as opposed to a second opinion. -/
def isFirstReading : Request → Bool
  | extractText _ _ => true
  | _ => false

end Request

/-- Where an operation that sends `sent` has each of these requests from. -/
def FileOp.Sends (env : Externals) (w : World) (op : FileOp) (sent : List Request) :
    Request → Prop
  | .extractText data originalName => op = .upload originalName data
  | .extractTextWithModel data originalName model =>
      ∃ id row, op = .retryWithModel id model ∧ w.db.file? id = some row ∧
        originalName = (readColumns row).originalFileName ∧
        localReadBinary env.readBinary w.storage (readColumns row).savedFileName = some data
  | .parseReceipt text =>
      ((∃ ask ∈ sent, ask.IsReading) ∧ env.extract.accepted = some text) ∨
        ∃ id row, op = .retry id ∧ w.db.file? id = some row ∧
          localReadText env.readText w.storage (readColumns row).ocrFileName = some text
  | .getFilePath _ | .downloadFile _ => False

/-- The requests of an operation: at most a reading and, after it, a parse. -/
structure Billed (env : Externals) (w : World) (op : FileOp) (w' : World) (new : List Request) :
    Prop where
  log : w'.requests = w.requests ++ new
  staged : new.Pairwise fun r r' => r.stage < r'.stage
  sends : ∀ r ∈ new, op.Sends env w new r
  counted : w.db.filesSeq + new.countP Request.isFirstReading = w'.db.filesSeq

section Effect
variable {p : Processor} {env : Externals} {w v w' : World} {op : FileOp}

theorem Billed.nothing (log : w'.requests = w.requests) (filesSeq : w'.db.filesSeq = w.db.filesSeq) :
    Billed env w op w' [] where
  log := by simp [log]
  staged := .nil
  sends := fun _ h => absurd h List.not_mem_nil
  counted := by simp [filesSeq]

theorem analyse_requests (id : Int) (ocrName : CString) (ask : Request) :
    (v.analyse env id ocrName ask).requests =
      v.requests ++ ask :: (env.extract.accepted.map .parseReceipt).toList := by
  simp only [World.analyse]
  cases env.extract.accepted with
  | none => rfl
  | some text => cases env.parse.accepted <;> simp [World.recordText, World.recordParsed]

/-- A reading, and the parse of what it gave. -/
theorem Billed.analyse {id : Int} {ocrName : CString} {ask : Request}
    (requests : v.requests = w.requests) (stage : ask.IsReading)
    (sends : ∀ sent, op.Sends env w sent ask)
    (counted : w.db.filesSeq + (if ask.isFirstReading then 1 else 0) = v.db.filesSeq) :
    Billed env w op (v.analyse env id ocrName ask)
      (ask :: (env.extract.accepted.map .parseReceipt).toList) where
  log := by rw [analyse_requests, requests]
  staged := by
    cases env.extract.accepted with
    | none => simp
    | some text =>
        have later : ask.stage < (Request.parseReceipt text).stage := by
          rw [show ask.stage = 2 from stage]
          exact Nat.lt_succ_self 2
        simpa using later
  sends := by
    intro r hr
    rcases List.mem_cons.mp hr with rfl | hparse
    · exact sends _
    · obtain ⟨text, htext, rfl⟩ := Option.map_eq_some_iff.mp (Option.mem_toList.mp hparse)
      exact Or.inl ⟨⟨ask, List.mem_cons_self, stage⟩, htext⟩
  counted := by
    have parses : ((env.extract.accepted.map .parseReceipt).toList.countP
        Request.isFirstReading) = 0 := by
      cases env.extract.accepted <;> rfl
    rw [analyse_filesSeq, ← counted, List.countP_cons, parses]
    split <;> rfl

theorem reparse_requests (id : Int) (text : CString) :
    (w.reparse env id text).requests = w.requests ++ [.parseReceipt text] := by
  simp only [World.reparse]
  cases env.parse.accepted <;> rfl

theorem Billed.reparse {id : Int} {row : FileRecord} {text : CString}
    (found : w.db.file? id = some row)
    (there : localReadText env.readText w.storage (readColumns row).ocrFileName = some text) :
    Billed env w (.retry id) (w.reparse env id text) [.parseReceipt text] where
  log := reparse_requests id text
  staged := List.pairwise_singleton _ _
  sends := by
    intro r hr
    obtain rfl := List.mem_singleton.mp hr
    exact Or.inr ⟨id, row, rfl, found, there⟩
  counted := by
    rw [reparse_filesSeq]
    exact Int.add_zero _

/-- Every operation. -/
theorem FileEffect.sent (h : FileEffect p env w op w') : ∃ new, Billed env w op w' new := by
  cases h with
  | nothing => exact ⟨[], .nothing rfl rfl⟩
  | refused originalName data new refused => exact ⟨[], .nothing rfl rfl⟩
  | stored originalName data accepted db files filesSeq receipts receiptsSeq =>
      exact ⟨_, .analyse rfl rfl (fun _ => rfl) filesSeq.symm⟩
  | reparsed id row text found there => exact ⟨_, .reparse found there⟩
  | reread id model row data found there =>
      exact ⟨_, .analyse rfl rfl (fun _ => ⟨id, row, rfl, found, rfl, there⟩)
        (by simp [Request.isFirstReading])⟩
  | discarded id row found =>
      exact ⟨[], .nothing rfl (discard_filesSeq ..)⟩

end Effect

/-- Where the bot, when it sends `sent` for an update, has each of these requests from. -/
def Sourced (bot : TgBot) (env : Externals) (w : World) (update : Option CJson)
    (sent : List Request) : Request → Prop
  | .getFilePath fileId =>
      ∃ chatId originalName, readUpdate bot update = .upload chatId fileId originalName
  | .downloadFile filePath => env.filePath = some filePath
  | r => ∃ op, (readUpdate bot update).fileOp env = some op ∧ op.Sends env w sent r

section Bot
variable {bot : TgBot} {env : Externals} {w : World} {update : Option CJson}

variable (env) in
theorem fetches_staged (instruction : Instruction) :
    (instruction.fetches env).Pairwise (fun r r' => r.stage < r'.stage) ∧
      (∀ r ∈ instruction.fetches env, r.stage < 2) ∧
      (instruction.fetches env).countP Request.isFirstReading = 0 := by
  cases instruction with
  | upload chatId fileId originalName =>
      simp only [Instruction.fetches]
      cases env.filePath <;> simp [Request.stage, Request.isFirstReading]
  | _ => simp [Instruction.fetches]

theorem fetches_sourced (sent : List Request) : ∀ r ∈ (readUpdate bot update).fetches env,
    Sourced bot env w update sent r := by
  intro r hr
  cases hread : readUpdate bot update with
  | upload chatId fileId originalName =>
      rw [hread] at hr
      rcases List.mem_cons.mp hr with rfl | hdownload
      · exact ⟨chatId, originalName, hread⟩
      · obtain ⟨path, hpath, rfl⟩ := Option.map_eq_some_iff.mp (Option.mem_toList.mp hdownload)
        exact hpath
  | _ =>
      rw [hread] at hr
      exact absurd hr List.not_mem_nil

theorem FileOp.Sends.stage {op : FileOp} {sent : List Request} {r : Request}
    (h : op.Sends env w sent r) : 2 ≤ r.stage := by
  cases r with
  | getFilePath _ | downloadFile _ => exact absurd h id
  | extractText _ _ | extractTextWithModel _ _ _ => exact Nat.le_refl 2
  | parseReceipt _ => exact Nat.le_succ 2

/-- What came before in the same update makes no difference. -/
theorem FileOp.Sends.sourced {op : FileOp} {sent : List Request} {r : Request}
    (h : op.Sends env w sent r) (hop : (readUpdate bot update).fileOp env = some op)
    (before : List Request) : Sourced bot env w update (before ++ sent) r := by
  cases r with
  | getFilePath _ | downloadFile _ => exact absurd h id
  | extractText _ _ | extractTextWithModel _ _ _ => exact ⟨op, hop, h⟩
  | parseReceipt text =>
      refine ⟨op, hop, h.imp_left ?_⟩
      rintro ⟨⟨ask, sent, reading⟩, accepted⟩
      exact ⟨⟨ask, List.mem_append_right before sent, reading⟩, accepted⟩

variable (bot env w update) in
/-- What the bot sends for an update, and how many ids that costs. -/
theorem botDispatchUpdate_sent : ∃ new,
    (botDispatchUpdate bot env w update).1.requests = w.requests ++ new ∧
      (new.Pairwise fun r r' => r.stage < r'.stage) ∧
      (∀ r ∈ new, Sourced bot env w update new r) ∧
      w.db.filesSeq + new.countP Request.isFirstReading =
        (botDispatchUpdate bot env w update).1.db.filesSeq := by
  obtain ⟨fetchStages, fetchLow, fetchCount⟩ := fetches_staged env (readUpdate bot update)
  rw [botDispatchUpdate_eq, Instruction.perform_world]
  cases hop : (readUpdate bot update).fileOp env with
  | none =>
      refine ⟨_, rfl, fetchStages, fetches_sourced _, ?_⟩
      rw [fetchCount]
      exact Int.add_zero _
  | some op =>
      obtain ⟨new, sent⟩ := (FileOp.apply_effect bot.processor env
        (w.requestAll ((readUpdate bot update).fetches env)) maxReplyLen op).sent
      refine ⟨(readUpdate bot update).fetches env ++ new, ?_, ?_, ?_, ?_⟩
      · rw [← List.append_assoc]
        exact sent.log
      · refine List.pairwise_append.mpr ⟨fetchStages, sent.staged, fun r hr r' hr' => ?_⟩
        exact Nat.lt_of_lt_of_le (fetchLow r hr) (sent.sends r' hr').stage
      · intro r hr
        rcases List.mem_append.mp hr with hfetch | hnew
        · exact fetches_sourced _ r hfetch
        · exact FileOp.Sends.sourced (w := w) (sent.sends r hnew) hop _
      · rw [List.countP_append, fetchCount, Nat.zero_add]
        exact sent.counted

end Bot

/-- An update sends at most a fetch of the path, a download, a reading and a parse, each at most
once and in this order, and each has what it carries from the update, from the answer to the one
before it, or from what is stored under the record it is about. -/
theorem requests_are_staged_and_sourced (bot : TgBot) (env : Externals) (w : World)
    (update : Option CJson) : ∃ new,
    (botDispatchUpdate bot env w update).1.requests = w.requests ++ new ∧
      (new.Pairwise fun r r' => r.stage < r'.stage) ∧
      ∀ r ∈ new, Sourced bot env w update new r := by
  obtain ⟨new, log, staged, sourced, _⟩ :=
    botDispatchUpdate_sent bot env w update
  exact ⟨new, log, staged, sourced⟩

/-- Over any run of the bot the service is asked for the first reading of a file exactly as often
as the table hands out an id: duplicates, refused uploads and retries are never billed as new. -/
theorem first_readings_are_new_records (bot : TgBot) (w : World)
    (updates : List (CJson × Externals)) :
    (run (dispatchStep bot) w updates).db.filesSeq - w.db.filesSeq =
      ((run (dispatchStep bot) w updates).requests.countP Request.isFirstReading : Int) -
        w.requests.countP Request.isFirstReading := by
  have kept (v : World) (op : CJson × Externals) (_ : True)
      (inv : v.db.filesSeq - w.db.filesSeq =
        (v.requests.countP Request.isFirstReading : Int) -
          w.requests.countP Request.isFirstReading) :
      (dispatchStep bot v op).db.filesSeq - w.db.filesSeq =
        ((dispatchStep bot v op).requests.countP Request.isFirstReading : Int) -
          w.requests.countP Request.isFirstReading := by
    obtain ⟨new, log, _, _, counted⟩ :=
      botDispatchUpdate_sent bot op.2 v (some op.1)
    rw [dispatchStep, log, List.countP_append, ← counted]
    omega
  exact run_invariant kept w updates (fun _ _ => trivial) (by simp)

end Kaufbot
