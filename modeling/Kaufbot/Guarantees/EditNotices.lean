import Kaufbot.Guarantees.Notices
import Kaufbot.Guarantees.PromptEdits
import Kaufbot.Library.Sampling

/-!
The prompts from the table to the users. While a process runs, someone edits
rows of the table, and the process looks at it between its passes. What it announces
of each row is what a watcher of that row tells: only edits, in their order and
none twice, and after every look no other content than the stored one. A user
reads the contents out of the messages, which are cut where their buffer ends.
-/

namespace Kaufbot

open CString Keyed Machine Runs Sampling

/-- A process and the table it reads. -/
structure PromptLife where
  store : PromptStore
  process : BotProcess

/-- A pass through the loop, and how many rows the query delivers before it fails. -/
structure Round where
  body : Option CString
  envs : Nat → Externals
  now : Int
  delivered : Option Nat

def Round.pass (r : Round) (store : PromptStore) : Pass where
  body := r.body
  envs := r.envs
  prompts := sqlitePromptsAnswer r.delivered store
  now := r.now

inductive LifeEvent where
  | edited (edit : PromptEdit)
  | passed (round : Round)

/-- The calls of `on_change` in a pass. -/
def onChangeCalls (bot : TgBot) (s : BotProcess) (pass : Pass) : List (CString × CString) :=
  match getUpdatesAnswer bot pass.body, s.promptFetcher with
  | some _, some pf => (promptFetcherTick pf pass.prompts pass.now).2.fired
  | _, _ => []

/-- What a step tells the users: the calls, and the messages they send. -/
structure News where
  calls : List (CString × CString)
  notices : List Outgoing

def lifeStep (bot : TgBot) (s : PromptLife) : LifeEvent → PromptLife × News
  | .edited e => ({ s with store := s.store.edit e }, { calls := [], notices := [] })
  | .passed r =>
      ({ s with process := (botPass bot s.process (r.pass s.store)).1 },
        { calls := onChangeCalls bot s.process (r.pass s.store)
          notices := (botPass bot s.process (r.pass s.store)).2.notices })

/-- The contents a row is shown to have, as far as the record has room for them. -/
def shown (content : CString) : CString := snprintf dbPromptContentLen content

/-- What this event makes of this row, as it is shown. -/
def LifeEvent.shownOf (id : Int) : LifeEvent → List CString
  | .edited e => (e.contentOf id).toList.map shown
  | .passed _ => []

/-- The contents that are told of one prompt. -/
def contentsTold (name : CString) (calls : List (CString × CString)) : List CString :=
  (calls.filter fun call => call.1 = name).map Prod.snd

/-- The fetcher asks again. -/
def PromptFetcher.Due (pf : PromptFetcher) (now : Int) : Prop :=
  pf.initialized = false ∨ pf.intervalSecs ≤ now - pf.lastPoll

/-- The fetcher looks at the table and gets an answer. -/
def LifeEvent.Looks (bot : TgBot) (s : PromptLife) : LifeEvent → Prop
  | .edited _ => False
  | .passed r => (getUpdatesAnswer bot r.body).isSome = true ∧ r.delivered = none ∧
      ∃ pf, s.process.promptFetcher = some pf ∧ pf.Due r.now

section Delivered
variable {store : PromptStore}

/-- The rows a query delivers when it succeeds. -/
def PromptStore.delivered (store : PromptStore) : List Prompt :=
  (sqliteGetPrompts store.table).delivered

theorem snprintf_promptName {name : CString} (h : name ∈ promptNames) :
    snprintf dbPromptNameLen name = name := by
  simp only [promptNames, List.mem_cons, List.not_mem_nil, or_false] at h
  rcases h with rfl | rfl <;> rfl

theorem mem_delivered (h : store.Seeded) {p : Prompt} :
    p ∈ store.delivered ↔
      ∃ row ∈ store.rows, p = { name := row.name, content := shown row.content } := by
  have read (row : PromptRow) (mem : row ∈ store.rows) : readPromptColumns row.prompt =
      { name := row.name, content := shown row.content } := by
    simp only [readPromptColumns, PromptRow.prompt, snprintf_promptName (h.named row mem), shown]
  simp only [PromptStore.delivered, sqliteGetPrompts, List.mem_map, List.mem_mergeSort,
    PromptStore.table]
  constructor
  · rintro ⟨_, ⟨row, mem, rfl⟩, rfl⟩
    exact ⟨row, mem, read row mem⟩
  · rintro ⟨row, mem, rfl⟩
    exact ⟨_, ⟨row, mem, rfl⟩, read row mem⟩

theorem delivered_fits (h : store.Seeded) : TableFits promptNames store.delivered := by
  have named : ∀ p ∈ store.delivered, p.name ∈ promptNames := by
    intro p mem
    obtain ⟨row, place, rfl⟩ := (mem_delivered h).mp mem
    exact h.named row place
  have distinct : UniqueOn Prompt.name store.delivered := by
    have names : store.delivered.map Prompt.name =
        (store.table.rows.mergeSort nameNoLater).map Prompt.name := by
      simp only [PromptStore.delivered, sqliteGetPrompts, List.map_map]
      refine List.map_congr_left fun p mem => ?_
      obtain ⟨row, place, rfl⟩ := List.mem_map.mp (List.mem_mergeSort.mp mem)
      exact snprintf_promptName (h.named row place)
    rw [UniqueOn, names]
    exact ((List.mergeSort_perm _ _).map _).nodup_iff.mpr store.table.unique
  refine ⟨distinct, named, fun p mem => ?_, fun p mem => ?_⟩
  · have short : ∀ name ∈ promptNames, name.length ≤ 127 := by decide
    exact short _ (named p mem)
  · obtain ⟨row, _, rfl⟩ := (mem_delivered h).mp mem
    exact Nat.le_of_lt_succ (length_snprintf_lt (by decide) _)

end Delivered

/-- The process has a fetcher, and the fetcher has seen these tables. -/
structure Running (s : PromptLife) (tables : List (List Prompt)) : Prop where
  seeded : s.store.Seeded
  fetcher : ∃ pf, s.process.promptFetcher = some pf ∧ Watches promptNames pf tables

/-- A row of the table and what the fetcher has seen of it. -/
structure Follows (s : PromptLife) (id : Int) (name current : CString) (last : Option CString) :
    Prop where
  row : ∃ row ∈ s.store.rows, row.id = id ∧ row.name = name ∧ shown row.content = current
  seen : ∃ tables, Running s tables ∧ lastSeen tables name = last ∧ (last = none → tables = [])

section Told
variable {bot : TgBot} {s : PromptLife} {id : Int} {name current : CString} {last : Option CString}
  {tables : List (List Prompt)}

theorem contentsTold_append (calls later : List (CString × CString)) :
    contentsTold name (calls ++ later) = contentsTold name calls ++ contentsTold name later := by
  simp [contentsTold]

/-- A table tells of a row at most what it shows of it. -/
theorem contentsTold_changed {rows : List Prompt} (distinct : UniqueOn Prompt.name rows)
    (mem : ({ name := name, content := current } : Prompt) ∈ rows)
    (seen : CString → Option CString) :
    contentsTold name ((changedPrompts seen rows).map fun p => (p.name, p.content)) =
      if seen name = some current then [] else [current] := by
  have only := distinct.filter_key mem
  have told : contentsTold name ((changedPrompts seen rows).map fun p => (p.name, p.content)) =
      ((rows.filter fun p => p.name = name).filter fun p => seen p.name ≠ some p.content).map
        Prompt.content := by
    simp only [contentsTold, changedPrompts, List.filter_map, List.map_map, List.filter_filter,
      Function.comp_def, Bool.and_comm]
  rw [told, only]
  by_cases same : seen name = some current <;> simp [same]

theorem contentIn_of_mem {rows : List Prompt} (distinct : UniqueOn Prompt.name rows)
    (mem : ({ name := name, content := current } : Prompt) ∈ rows) :
    contentIn rows name = some current := by
  rw [contentIn, distinct.lookup_eq_some.mpr ⟨mem, rfl⟩, Option.map_some]

/-- What a look at these rows tells after these tables. -/
def newsOf (tables : List (List Prompt)) (rows : List Prompt) : List (CString × CString) :=
  if tables = [] then []
  else (changedPrompts (lastSeen tables) rows).map fun p => (p.name, p.content)

/-- A look at the whole table, for one of its rows. -/
theorem watching_look {rows : List Prompt}
    (none : lastSeen tables name = none → tables = []) (distinct : UniqueOn Prompt.name rows)
    (mem : ({ name := name, content := current } : Prompt) ∈ rows) :
    Watching current (lastSeen tables name) []
      (contentsTold name (newsOf tables rows)) current (some current) := by
  cases known : lastSeen tables name with
  | none =>
      rw [newsOf, if_pos (none known)]
      exact .firstLook .start
  | some a =>
      have later : tables ≠ [] := by
        rintro rfl
        exact absurd known (by simp [lastSeen])
      rw [newsOf, if_neg later, contentsTold_changed distinct mem, known]
      by_cases same : a = current
      · rw [if_pos (congrArg some same), same]
        exact .start
      · rw [if_neg fun its => same (Option.some.inj its)]
        exact .news same .start

/-- A tick that is due and gets its answer looks at the table, … -/
theorem Watches.tick_looks {pf : PromptFetcher} {store : PromptStore} {now : Int}
    (h : Watches promptNames pf tables) (seeded : store.Seeded) (due : pf.Due now) :
    let ticked := promptFetcherTick pf (sqlitePromptsAnswer none store) now
    Watches promptNames ticked.1 (tables ++ [store.delivered]) ∧
      ticked.2.fired = newsOf tables store.delivered := by
  have few : promptNames.length ≤ 64 := by decide
  have fit : TableFits promptNames (sqlitePromptsAnswer none store).delivered :=
    delivered_fits seeded
  have time : (!pf.initialized || now - pf.lastPoll ≥ pf.intervalSecs) = true := by
    simpa [PromptFetcher.Due] using due
  simp only [promptFetcherTick, if_pos time]
  by_cases first : tables = []
  · subst first
    obtain ⟨watches, result⟩ := h.first_poll few rfl fit now
    exact ⟨watches, by rw [result]; rfl⟩
  · obtain ⟨watches, result⟩ := h.later_poll few first rfl fit now
    exact ⟨watches, by rw [result, newsOf, if_neg first]; rfl⟩

/-- … and any other leaves everything as it is. -/
theorem promptFetcherTick_idle {pf : PromptFetcher} {delivered : Option Nat} {now : Int}
    (store : PromptStore) (idle : ¬ (delivered = none ∧ pf.Due now)) :
    let ticked := promptFetcherTick pf (sqlitePromptsAnswer delivered store) now
    ticked.1 = pf ∧ ticked.2.fired = [] := by
  simp only [promptFetcherTick]
  split
  · rename_i time
    cases delivered with
    | none => exact absurd ⟨rfl, by simpa [PromptFetcher.Due] using time⟩ idle
    | some n =>
        rw [promptFetcherPoll_of_failed (by simp [sqlitePromptsAnswer])]
        exact ⟨rfl, rfl⟩
  · exact ⟨rfl, rfl⟩

variable (bot) in
/-- What a step can do: look at the table and tell the news, or tell nothing. -/
theorem Running.step (h : Running s tables) (event : LifeEvent) :
    event.Looks bot s ∧ Running (lifeStep bot s event).1 (tables ++ [s.store.delivered]) ∧
        (lifeStep bot s event).2.calls = newsOf tables s.store.delivered ∨
      ¬ event.Looks bot s ∧ Running (lifeStep bot s event).1 tables ∧
        (lifeStep bot s event).2.calls = [] := by
  obtain ⟨pf, its, watches⟩ := h.fetcher
  cases event with
  | edited e => exact .inr ⟨id, ⟨promptStep_seeded (.edited e) h.seeded, pf, its, watches⟩, rfl⟩
  | passed r =>
      cases answered : getUpdatesAnswer bot r.body with
      | none =>
          have same : lifeStep bot s (.passed r) = (s, { calls := [], notices := [] }) := by
            simp only [lifeStep, botPass, onChangeCalls, Round.pass, answered]
          rw [same]
          refine .inr ⟨fun looks => ?_, h, rfl⟩
          exact absurd (answered ▸ looks.1) (by simp)
      | some json =>
          have fetcher : (lifeStep bot s (.passed r)).1.process.promptFetcher =
              some (promptFetcherTick pf (sqlitePromptsAnswer r.delivered s.store) r.now).1 := by
            simp only [lifeStep, botPass, Round.pass, answered, its, tickPrompts]
          have calls : (lifeStep bot s (.passed r)).2.calls =
              (promptFetcherTick pf (sqlitePromptsAnswer r.delivered s.store) r.now).2.fired := by
            simp only [lifeStep, onChangeCalls, Round.pass, answered, its]
          by_cases looks : r.delivered = none ∧ pf.Due r.now
          · obtain ⟨all, due⟩ := looks
            obtain ⟨watches', fired⟩ := watches.tick_looks h.seeded due
            rw [all] at fetcher calls
            exact .inl ⟨⟨by rw [answered]; rfl, all, pf, its, due⟩,
              ⟨h.seeded, _, fetcher, watches'⟩, calls.trans fired⟩
          · obtain ⟨same, fired⟩ := promptFetcherTick_idle s.store looks
            refine .inr ⟨fun looking => ?_, ⟨h.seeded, pf, same ▸ fetcher, watches⟩,
              calls.trans fired⟩
            obtain ⟨_, all, pf', its', due⟩ := looking
            obtain rfl := Option.some.inj (its'.symm.trans its)
            exact looks ⟨all, due⟩

/-- One step: what it writes to the row and tells of it is a step of a watcher. -/
theorem Follows.step (h : Follows s id name current last) (event : LifeEvent) :
    ∃ current' last', Follows (lifeStep bot s event).1 id name current' last' ∧
      (event.Looks bot s → last' = some current') ∧
      Watching current last (event.shownOf id) (contentsTold name (lifeStep bot s event).2.calls)
        current' last' := by
  obtain ⟨row, mem, rfl, rfl, rfl⟩ := h.row
  obtain ⟨tables, running, rfl, none⟩ := h.seen
  rcases running.step bot event with ⟨looks, running', calls⟩ | ⟨idle, running', calls⟩
  · cases event with
    | edited _ => exact looks.elim
    | passed r =>
        have place : ({ name := row.name, content := shown row.content } : Prompt) ∈
            s.store.delivered := (mem_delivered running.seeded).mpr ⟨row, mem, rfl⟩
        have distinct := (delivered_fits running.seeded).distinct
        have seen : lastSeen (tables ++ [s.store.delivered]) row.name =
            some (shown row.content) := by
          rw [lastSeen_append, contentIn_of_mem distinct place, Option.some_or]
        refine ⟨shown row.content, some (shown row.content),
          ⟨⟨row, mem, rfl, rfl, rfl⟩, _, running', seen, fun no => absurd no (by simp)⟩,
          fun _ => rfl, ?_⟩
        rw [calls]
        exact watching_look none distinct place
  · rw [calls]
    cases event with
    | edited e =>
        obtain ⟨row', mem', id', name', _, content'⟩ := mem_edit e mem
        refine ⟨shown row'.content, lastSeen tables row.name,
          ⟨⟨row', mem', id', name', rfl⟩, tables, running', rfl, none⟩, fun looks => looks.elim, ?_⟩
        rw [content', LifeEvent.shownOf]
        cases e.contentOf row.id with
        | none => exact .start
        | some content => exact .write (shown content) .start
    | passed r =>
        exact ⟨shown row.content, lastSeen tables row.name,
          ⟨⟨row, mem, rfl, rfl, rfl⟩, tables, running', rfl, none⟩,
          fun looks => absurd looks idle, .start⟩

variable (bot) in
/-- Over a run of events. -/
theorem Follows.after (events : List LifeEvent) (h : Follows s id name current last) :
    ∃ current' last', Follows (run (next (lifeStep bot)) s events) id name current' last' ∧
      Watching current last (events.flatMap (LifeEvent.shownOf id))
        (contentsTold name ((trace (lifeStep bot) s events).flatMap News.calls))
        current' last' := by
  induction events generalizing s current last with
  | nil => exact ⟨current, last, h, .start⟩
  | cons event events ih =>
      obtain ⟨current₁, last₁, follows, _, watching⟩ := h.step event
      obtain ⟨current', last', later, rest⟩ := ih follows
      refine ⟨current', last', later, ?_⟩
      rw [trace, List.flatMap_cons, List.flatMap_cons, contentsTold_append]
      exact watching.trans rest

/-- Over a run that ends with a look: the last the watcher has seen is the row as it is. -/
theorem Follows.after_look (events : List LifeEvent) {look : LifeEvent}
    (looks : look.Looks bot (run (next (lifeStep bot)) s events))
    (h : Follows s id name current last) :
    ∃ current',
      Follows (run (next (lifeStep bot)) s (events ++ [look])) id name current' (some current') ∧
      Watching current last ((events ++ [look]).flatMap (LifeEvent.shownOf id))
        (contentsTold name ((trace (lifeStep bot) s (events ++ [look])).flatMap News.calls))
        current' (some current') := by
  obtain ⟨current₁, last₁, follows, before⟩ := h.after bot events
  obtain ⟨current', last', follows', seen, step⟩ := follows.step look
  obtain rfl := seen looks
  refine ⟨current', ?_, ?_⟩
  · rw [run, List.foldl_append]
    exact follows'
  · rw [trace_append, List.flatMap_append, List.flatMap_append, contentsTold_append]
    have whole := before.trans step
    simpa [trace] using whole

/-- A process does not change the table, and an edit only contents. -/
theorem map_lifeStep {κ : Type} (key : PromptRow → κ)
    (kept : ∀ content now row, key (PromptRow.setContent content now row) = key row)
    (s : PromptLife) (event : LifeEvent) :
    (lifeStep bot s event).1.store.rows.map key = s.store.rows.map key := by
  cases event with
  | edited e => exact map_edit key kept s.store e
  | passed _ => rfl

theorem life_ids (s : PromptLife) (events : List LifeEvent) :
    (run (next (lifeStep bot)) s events).store.rows.map PromptRow.id =
      s.store.rows.map PromptRow.id := by
  induction events generalizing s with
  | nil => rfl
  | cons event events ih =>
      exact (ih (lifeStep bot s event).1).trans
        (map_lifeStep PromptRow.id (fun _ _ _ => rfl) s event)

/-- Nothing is told of a name that is not in the table. -/
theorem Running.told_named (h : Running s tables) (events : List LifeEvent) :
    ∀ call ∈ (trace (lifeStep bot) s events).flatMap News.calls,
      call.1 ∈ s.store.rows.map PromptRow.name := by
  induction events generalizing s tables with
  | nil => exact fun _ none => absurd none List.not_mem_nil
  | cons event events ih =>
      intro call mem
      rw [trace, List.flatMap_cons, List.mem_append] at mem
      obtain ⟨tables', running⟩ : ∃ tables', Running (lifeStep bot s event).1 tables' := by
        rcases h.step bot event with ⟨_, running, _⟩ | ⟨_, running, _⟩ <;> exact ⟨_, running⟩
      rcases mem with now | later
      · rcases h.step bot event with ⟨_, _, calls⟩ | ⟨_, _, calls⟩
        · rw [calls, newsOf] at now
          split at now
          · exact absurd now List.not_mem_nil
          · obtain ⟨p, changed, rfl⟩ := List.mem_map.mp now
            obtain ⟨row, place, rfl⟩ := (mem_delivered h.seeded).mp (List.mem_filter.mp changed).1
            exact List.mem_map_of_mem place
        · exact absurd (calls ▸ now) List.not_mem_nil
      · have name := ih running call later
        rwa [map_lifeStep PromptRow.name (fun _ _ _ => rfl)] at name

end Told

theorem lifeStep_notices (bot : TgBot) (s : PromptLife) (event : LifeEvent) :
    (lifeStep bot s event).2.notices =
      (lifeStep bot s event).2.calls.flatMap fun call =>
        botNotifyPromptChange bot call.1 call.2 := by
  cases event with
  | edited _ => rfl
  | passed r =>
      simp only [lifeStep, botPass, onChangeCalls]
      cases getUpdatesAnswer bot (r.pass s.store).body with
      | none => rfl
      | some json =>
          cases s.process.promptFetcher with
          | none => rfl
          | some pf => rfl

theorem trace_notices {bot : TgBot} {s : PromptLife} {events : List LifeEvent} {news : News}
    (mem : news ∈ trace (lifeStep bot) s events) :
    news.notices = news.calls.flatMap fun call => botNotifyPromptChange bot call.1 call.2 := by
  induction events generalizing s with
  | nil => exact absurd mem List.not_mem_nil
  | cons event events ih =>
      rcases List.mem_cons.mp mem with rfl | later
      · exact lifeStep_notices bot s event
      · exact ih later

/-- A process that starts on a table, whatever happened to it before. -/
def PromptLife.start (before : List PromptEvent) (w : World) : PromptLife where
  store := run promptStep .empty before
  process := botNew w

theorem running_start (before : List PromptEvent) (w : World) : Running (.start before w) [] where
  seeded := run_seeded before
  fetcher := by
    have new : promptFetcherNew promptRefreshIntervalSecs true =
        some (PromptFetcher.mk promptRefreshIntervalSecs true (.zeroed .zero) false 0) :=
      if_neg (by decide)
    exact ⟨_, new, watches_new new promptNames⟩

theorem follows_start {before : List PromptEvent} {w : World} {row : PromptRow}
    (mem : row ∈ (PromptLife.start before w).store.rows) :
    Follows (.start before w) row.id row.name (shown row.content) none where
  row := ⟨row, mem, rfl, rfl, rfl⟩
  seen := ⟨[], running_start before w, rfl, fun _ => rfl⟩

/-- What the users of a process are told of a prompt is what it was edited to meanwhile, in this
order and no edit twice, whatever else happened. -/
theorem only_edits_are_announced (bot : TgBot) (before : List PromptEvent) (w : World)
    (life : List LifeEvent) :
    let news := trace (lifeStep bot) (.start before w) life
    let told := news.flatMap News.calls
    news.flatMap News.notices = told.flatMap (fun call => botNotifyPromptChange bot call.1 call.2) ∧
      (∀ call ∈ told, call.1 ∈ (PromptLife.start before w).store.rows.map PromptRow.name) ∧
      ∀ row ∈ (PromptLife.start before w).store.rows,
        (contentsTold row.name told).Sublist (life.flatMap (LifeEvent.shownOf row.id)) := by
  intro news told
  refine ⟨?_, (running_start before w).told_named life, fun row mem => ?_⟩
  · rw [List.flatMap_assoc]
    exact List.flatMap_congr fun step mem => trace_notices mem
  · obtain ⟨_, _, _, watched⟩ := (follows_start mem).after bot life
    exact (watched.among fun _ none => absurd none (by simp)).1

/-! What a user makes of the messages: a notice is told by how it begins, and what follows is
the content, as far as the message has room for it. -/

/-- What a notice of this prompt begins with. -/
def noticeHeading (promptName : CString) : CString :=
  .concat [lit "Prompt updated: ", promptName, lit "\n\n"]

/-- What a notice of this prompt has room for of this content. -/
def announced (promptName content : CString) : List UInt8 :=
  content.bytes.take (maxReplyLen - 1 - (noticeHeading promptName).length)

/-- A user reads a message as a notice of this prompt. -/
def readNotice (userId : Int) (promptName : CString) : Outgoing → Option (List UInt8)
  | .sendMessage chatId text =>
      if chatId = userId ∧ (noticeHeading promptName).bytes <+: text.bytes then
        some (text.bytes.drop (noticeHeading promptName).length)
      else none
  | _ => none

/-- The contents a user reads of a prompt, in the order of the messages. -/
def contentsRead (userId : Int) (promptName : CString) (messages : List Outgoing) :
    List (List UInt8) :=
  messages.filterMap (readNotice userId promptName)

section Read
variable {bot : TgBot} {userId : Int} {name other : CString}

theorem noticeHeading_room (h : name ∈ promptNames) :
    (noticeHeading name).length ≤ maxReplyLen - 1 := by
  have all : ∀ name ∈ promptNames, (noticeHeading name).length ≤ maxReplyLen - 1 := by decide
  exact all name h

theorem bytes_promptNotice (h : name ∈ promptNames) (content : CString) :
    (promptNotice name content).bytes =
      (noticeHeading name).bytes ++ announced name content := by
  have whole : (CString.concat [lit "Prompt updated: ", name, lit "\n\n", content]).bytes =
      (noticeHeading name).bytes ++ content.bytes := by simp [noticeHeading]
  rw [promptNotice, bytes_snprintf, whole, List.take_append,
    List.take_of_length_le (noticeHeading_room h)]
  rfl

theorem readNotice_own (h : name ∈ promptNames) (content : CString) :
    readNotice userId name (.sendMessage userId (promptNotice name content)) =
      some (announced name content) := by
  have text := bytes_promptNotice h content
  rw [readNotice, text, if_pos ⟨rfl, List.prefix_append _ _⟩, CString.length, List.drop_left]

/-- No heading begins like another one. -/
theorem readNotice_other (userId : Int) (h : name ∈ promptNames) (h' : other ∈ promptNames)
    (differs : other ≠ name) (chatId : Int) (content : CString) :
    readNotice userId name (.sendMessage chatId (promptNotice other content)) = none := by
  have apart : ∀ name ∈ promptNames, ∀ other ∈ promptNames, other ≠ name →
      (noticeHeading name).bytes.take 17 ≠ (noticeHeading other).bytes.take 17 ∧
        17 ≤ (noticeHeading name).length ∧ 17 ≤ (noticeHeading other).length := by decide
  obtain ⟨start, long, long'⟩ := apart name h other h' differs
  rw [readNotice, bytes_promptNotice h' content]
  refine if_neg fun ⟨_, begins⟩ => start ?_
  have both := (List.prefix_iff_eq_take.mp begins).symm
  calc (noticeHeading name).bytes.take 17
      = (((noticeHeading other).bytes ++ announced other content).take
          (noticeHeading name).bytes.length).take 17 := by rw [both]
    _ = ((noticeHeading other).bytes ++ announced other content).take 17 := by
          rw [List.take_take, Nat.min_eq_left (b := (noticeHeading name).bytes.length) long]
    _ = (noticeHeading other).bytes.take 17 := List.take_append_of_le_length long'

theorem filterMap_readNotice (allowed : List Int) (text : CString) :
    (allowed.map fun chatId => Outgoing.sendMessage chatId text).filterMap
        (readNotice userId name) =
      (readNotice userId name (.sendMessage userId text)).elim []
        (List.replicate (allowed.count userId)) := by
  induction allowed with
  | nil => cases readNotice userId name (.sendMessage userId text) <;> rfl
  | cons chatId allowed ih =>
      rw [List.map_cons, List.filterMap_cons, ih, List.count_cons]
      by_cases same : chatId = userId
      · rw [same]
        cases readNotice userId name (.sendMessage userId text) with
        | none => rfl
        | some read => simp [List.replicate_succ]
      · simp [same, readNotice]

/-- Every content that is told is read once for each time the user is on the list. -/
theorem contentsRead_calls (h : name ∈ promptNames) {calls : List (CString × CString)}
    (named : ∀ call ∈ calls, call.1 ∈ promptNames) :
    contentsRead userId name
        (calls.flatMap fun call => botNotifyPromptChange bot call.1 call.2) =
      (contentsTold name calls).flatMap fun content =>
        List.replicate (bot.cfg.allowedUsers.count userId) (announced name content) := by
  induction calls with
  | nil => rfl
  | cons call calls ih =>
      have rest := ih fun call mem => named call (List.mem_cons_of_mem _ mem)
      rw [contentsRead] at rest ⊢
      rw [List.flatMap_cons, List.filterMap_append, rest, botNotifyPromptChange, notifyAll,
        filterMap_readNotice]
      by_cases same : call.1 = name
      · simp [contentsTold, same, readNotice_own h]
      · have others := readNotice_other userId h (named call List.mem_cons_self) same
          userId call.2
        simp [contentsTold, same, others]

theorem getLast?_contentsRead (h : name ∈ promptNames) {calls : List (CString × CString)}
    (named : ∀ call ∈ calls, call.1 ∈ promptNames) (allowed : userId ∈ bot.cfg.allowedUsers) :
    (contentsRead userId name
        (calls.flatMap fun call => botNotifyPromptChange bot call.1 call.2)).getLast? =
      (contentsTold name calls).getLast?.map (announced name) := by
  obtain ⟨n, times⟩ : ∃ n, bot.cfg.allowedUsers.count userId = n + 1 :=
    ⟨_, (Nat.succ_pred_eq_of_pos (List.count_pos_iff.mpr allowed)).symm⟩
  rw [contentsRead_calls h named, times]
  rcases List.eq_nil_or_concat (contentsTold name calls) with none | ⟨first, last, whole⟩
  · rw [none]
    rfl
  · simp [whole, List.replicate_succ']

/-- Whoever hears the last content that is told, as far as a message has room for it, knows what
is told. -/
theorem read_of_told (h : name ∈ promptNames) {calls : List (CString × CString)}
    (named : ∀ call ∈ calls, call.1 ∈ promptNames) (allowed : userId ∈ bot.cfg.allowedUsers)
    {first now : CString}
    (known : shown now = (contentsTold name calls).getLast?.getD (shown first)) :
    let read := (contentsRead userId name
      (calls.flatMap fun call => botNotifyPromptChange bot call.1 call.2)).getLast?
    (read = none → shown now = shown first) ∧
      (∀ text ∈ read, text = announced name (shown now)) ∧
      ((noticeHeading name).length + now.length < maxReplyLen →
        read.getD (shown first).bytes = now.bytes) := by
  intro read
  have last : read = (contentsTold name calls).getLast?.map (announced name) :=
    getLast?_contentsRead h named allowed
  have whole (short : (noticeHeading name).length + now.length < maxReplyLen) :
      shown now = now := by
    have small : (maxReplyLen : Nat) ≤ dbPromptContentLen := by decide
    exact snprintf_of_length_lt (by omega)
  cases told : (contentsTold name calls).getLast? with
  | none =>
      rw [told, Option.getD_none] at known
      rw [last, told]
      refine ⟨fun _ => known, fun _ none => absurd none (by simp), fun short => ?_⟩
      rw [← known, whole short]
      rfl
  | some content =>
      rw [told, Option.getD_some] at known
      subst known
      rw [last, told]
      refine ⟨fun none => absurd none (by simp), fun text its => (Option.some.inj its).symm,
        fun short => ?_⟩
      rw [whole short]
      have room : now.length ≤ maxReplyLen - 1 - (noticeHeading name).length := by omega
      exact List.take_of_length_le room

end Read

/-- Between two looks of a process: the last content told of a row until the second is the one
it has then. -/
theorem calls_keep_up (bot : TgBot) (before : List PromptEvent) (w : World)
    (life meanwhile : List LifeEvent) (look again : LifeEvent)
    (looks : look.Looks bot (run (next (lifeStep bot)) (.start before w) life))
    (looksAgain : again.Looks bot
      (run (next (lifeStep bot)) (.start before w) (life ++ look :: meanwhile))) :
    let s := run (next (lifeStep bot)) (.start before w) (life ++ [look])
    let told := (trace (lifeStep bot) s (meanwhile ++ [again])).flatMap News.calls
    let s' := run (next (lifeStep bot)) s (meanwhile ++ [again])
    ∀ row ∈ s.store.rows, (row.name ∈ promptNames ∧ ∀ call ∈ told, call.1 ∈ promptNames) ∧
      ∃ row' ∈ s'.store.rows, row'.id = row.id ∧ row'.name = row.name ∧
        shown row'.content = (contentsTold row.name told).getLast?.getD (shown row.content) := by
  intro s told s' row mem
  obtain ⟨old, place, same⟩ : ∃ old ∈ (PromptLife.start before w).store.rows, old.id = row.id :=
    List.mem_map.mp (life_ids _ (life ++ [look]) ▸ List.mem_map_of_mem mem)
  obtain ⟨current, follows, _⟩ := (follows_start place).after_look life looks
  obtain ⟨own, there, id, name, rfl⟩ := follows.row
  obtain rfl : own = row := s.store.schema.ids.eq_of_key_eq there mem (id.trans same)
  have looksAgain' : again.Looks bot (run (next (lifeStep bot)) s meanwhile) := by
    simpa [s, run, List.foldl_append] using looksAgain
  obtain ⟨tables, running, _⟩ := follows.seen
  have names : ∀ name ∈ s.store.rows.map PromptRow.name, name ∈ promptNames :=
    List.forall_mem_map.mpr running.seeded.named
  have named : ∀ call ∈ told, call.1 ∈ promptNames := fun call called =>
    names call.1 (running.told_named (meanwhile ++ [again]) call called)
  obtain ⟨current', follows', watched⟩ := follows.after_look meanwhile looksAgain'
  obtain ⟨row', mem', id', name', rfl⟩ := follows'.row
  refine ⟨⟨running.seeded.named own there, named⟩, row', mem', id'.trans id.symm,
    name'.trans name.symm, ?_⟩
  rw [name]
  exact Option.some.inj watched.known

/-- Between two looks of a process: an allowed user who reads no notice of a prompt until the
second knows that it is what it was at the first, and one who does has at the end of the last one
what the prompt is then, as far as a message has room for it. So whoever knew the prompt knows it
again when it fits. -/
theorem announcements_keep_up (bot : TgBot) (before : List PromptEvent) (w : World)
    (life meanwhile : List LifeEvent) (look again : LifeEvent)
    (looks : look.Looks bot (run (next (lifeStep bot)) (.start before w) life))
    (looksAgain : again.Looks bot
      (run (next (lifeStep bot)) (.start before w) (life ++ look :: meanwhile))) :
    let s := run (next (lifeStep bot)) (.start before w) (life ++ [look])
    let notices := (trace (lifeStep bot) s (meanwhile ++ [again])).flatMap News.notices
    let s' := run (next (lifeStep bot)) s (meanwhile ++ [again])
    ∀ userId ∈ bot.cfg.allowedUsers, ∀ row ∈ s.store.rows,
      ∃ row' ∈ s'.store.rows, row'.id = row.id ∧ row'.name = row.name ∧
        let read := (contentsRead userId row.name notices).getLast?
        (read = none → shown row'.content = shown row.content) ∧
        (∀ text ∈ read, text = announced row.name (shown row'.content)) ∧
        ((noticeHeading row.name).length + row'.content.length < maxReplyLen →
          read.getD (shown row.content).bytes = row'.content.bytes) := by
  intro s notices s' userId allowed row mem
  obtain ⟨⟨own, named⟩, row', mem', id, name, known⟩ :=
    calls_keep_up bot before w life meanwhile look again looks looksAgain row mem
  have sent : notices = ((trace (lifeStep bot) s (meanwhile ++ [again])).flatMap
      News.calls).flatMap fun call => botNotifyPromptChange bot call.1 call.2 := by
    rw [List.flatMap_assoc]
    exact List.flatMap_congr fun step mem => trace_notices mem
  refine ⟨row', mem', id, name, ?_⟩
  rw [sent]
  exact read_of_told own named allowed known

def opensWell : PromptEvent :=
  .opened { opened := true, seed := .ok, seedAt := 0, seed2 := .ok, seed2At := 0 }

def looksAt (now : Int) : LifeEvent :=
  .passed { body := some answerOne, envs := fun _ => .working now (lit "") (lit ""), now := now,
            delivered := none }

def editsOcr (content : String) : LifeEvent :=
  .edited { id := 1, content := lit content, outcome := .ok, now := 0 }

/-- Of two edits between the looks the second is announced. -/
theorem announcements_keep_up_twice :
    let s := run (next (lifeStep toldBot)) (.start [opensWell] .empty) ([] ++ [looksAt 0])
    let notices :=
      (trace (lifeStep toldBot) s ([editsOcr "v2", editsOcr "v3"] ++ [looksAt 300])).flatMap
        News.notices
    let s' := run (next (lifeStep toldBot)) s ([editsOcr "v2", editsOcr "v3"] ++ [looksAt 300])
    ∀ userId ∈ toldBot.cfg.allowedUsers, ∀ row ∈ s.store.rows,
      ∃ row' ∈ s'.store.rows, row'.id = row.id ∧ row'.name = row.name ∧
        let read := (contentsRead userId row.name notices).getLast?
        (read = none → shown row'.content = shown row.content) ∧
        (∀ text ∈ read, text = announced row.name (shown row'.content)) ∧
        ((noticeHeading row.name).length + row'.content.length < maxReplyLen →
          read.getD (shown row.content).bytes = row'.content.bytes) :=
  announcements_keep_up toldBot [opensWell] .empty [] [editsOcr "v2", editsOcr "v3"] (looksAt 0)
    (looksAt 300) ⟨by decide +kernel, rfl, _, rfl, .inl rfl⟩
    ⟨by decide +kernel, rfl, _, rfl, .inr (by decide +kernel)⟩

end Kaufbot
