import Kaufbot.Ocr.PromptFetcher
import Kaufbot.Library.Machine

/-!
Prompt change detection over every history of prompts tables. What was last
seen of a name is a function of the tables of the earlier successful polls; the
cache is that function as a list, and a poll reports exactly the prompts in
which its table differs from it.
-/

namespace Kaufbot

open CString Keyed Machine Runs

/-- One poll: what the backend answers, and the time. -/
abbrev Poll := PromptsAnswer × Int

def pollStep (pf : PromptFetcher) (poll : Poll) : PromptFetcher × PollResult :=
  promptFetcherPoll pf poll.1 poll.2

/-- The tables of the polls that succeeded, in order. -/
def tablesSeen (polls : List Poll) : List (List Prompt) :=
  (polls.filter (fun poll => poll.1.rc = 0)).map (fun poll => poll.1.delivered)

def contentIn (rows : List Prompt) (name : CString) : Option CString :=
  (lookup Prompt.name name rows).map Prompt.content

/-- The content of the name in the latest of the tables that has it. -/
def lastSeen (tables : List (List Prompt)) (name : CString) : Option CString :=
  tables.reverse.findSome? (fun rows => contentIn rows name)

/-- A table whose names are distinct and, like its contents, fit the fields of the cache. -/
structure TableFits (names : List CString) (rows : List Prompt) : Prop where
  distinct : UniqueOn Prompt.name rows
  named : ∀ p ∈ rows, p.name ∈ names
  nameLength : ∀ p ∈ rows, p.name.length ≤ 127
  contentLength : ∀ p ∈ rows, p.content.length ≤ 65535

/-- All tables that are seen have names out of one list of at most 64. -/
def PollsFit (polls : List Poll) : Prop :=
  ∃ names : List CString, names.length ≤ 64 ∧ ∀ rows ∈ tablesSeen polls, TableFits names rows

def contentOf (cache : Slots CachedPrompt maxCachedPrompts) (name : CString) : Option CString :=
  (lookup CachedPrompt.name name cache.toList).map CachedPrompt.content

/-- The prompts of a table that are new or differ from what was seen of them. -/
def changedPrompts (seen : CString → Option CString) (rows : List Prompt) : List Prompt :=
  rows.filter (fun p => seen p.name ≠ some p.content)

section History

theorem lastSeen_append (tables : List (List Prompt)) (rows : List Prompt) (name : CString) :
    lastSeen (tables ++ [rows]) name = (contentIn rows name).or (lastSeen tables name) := by
  simp only [lastSeen, List.reverse_append, List.reverse_singleton, List.singleton_append,
    List.findSome?_cons]
  cases contentIn rows name <;> rfl

theorem contentIn_cons (p : Prompt) (rows : List Prompt) (name : CString) :
    contentIn (p :: rows) name = if p.name = name then some p.content else contentIn rows name := by
  by_cases h : p.name = name <;> simp [contentIn, lookup, h]

end History

/-- The cache has no name twice, and no name from outside the list. -/
structure CacheFits (names : List CString) (cache : Slots CachedPrompt maxCachedPrompts) :
    Prop where
  unique : UniqueOn CachedPrompt.name cache.toList
  named : ∀ cached ∈ cache.toList, cached.name ∈ names

section Cache
variable {names : List CString} {cache : Slots CachedPrompt maxCachedPrompts} {p : Prompt}

/-- A name that is not in the cache finds a free slot. -/
theorem CacheFits.room (h : CacheFits names cache) (few : names.length ≤ 64)
    (hname : p.name ∈ names) (hnew : ∀ cached ∈ cache.toList, cached.name ≠ p.name) :
    cache.count < maxCachedPrompts := by
  have fewer := h.unique.length_lt h.named hname hnew
  rw [Slots.length_toList] at fewer
  simp only [maxCachedPrompts]
  omega

theorem CacheFits.offer (h : CacheFits names cache) (room : cache.count < maxCachedPrompts)
    (hname : p.name ∈ names) (hnew : ∀ cached ∈ cache.toList, cached.name ≠ p.name) :
    CacheFits names (cache.offer { name := p.name, content := p.content }) := by
  constructor
  · rw [Slots.toList_offer _ room]
    exact h.unique.append _ hnew
  · rw [Slots.toList_offer _ room, List.forall_mem_append, List.forall_mem_singleton]
    exact ⟨h.named, hname⟩

theorem CacheFits.modify (h : CacheFits names cache) {found : Fin cache.count}
    (hfound : cache.search (fun cached => cached.name = p.name) = some found) :
    CacheFits names
      (cache.modify found (fun cached => { cached with content := p.content })) := by
  constructor
  · rw [Slots.toList_modify_search h.unique hfound]
    exact h.unique.updateWhere (fun _ _ _ => rfl)
  · rw [Slots.toList_modify_search h.unique hfound]
    intro cached hcached
    obtain ⟨old, hold, rfl⟩ := mem_updateWhere.mp hcached
    split
    · exact h.named old hold
    · exact h.named old hold

theorem cachedPrompt_ofPrompt (hname : p.name.length ≤ 127) (hcontent : p.content.length ≤ 65535) :
    CachedPrompt.ofPrompt p = { name := p.name, content := p.content } := by
  simp only [CachedPrompt.ofPrompt, CachedPrompt.mk.injEq]
  exact ⟨snprintf_of_length_lt (by simp only [dbPromptNameLen]; omega),
    snprintf_of_length_lt (by simp only [dbPromptContentLen]; omega)⟩

end Cache

section Round
variable {names : List CString} {s : PollLoop} {p : Prompt}

theorem contentOf_offer {cache : Slots CachedPrompt maxCachedPrompts}
    (room : cache.count < maxCachedPrompts)
    (hnew : ∀ cached ∈ cache.toList, cached.name ≠ p.name) (name : CString) :
    contentOf (cache.offer { name := p.name, content := p.content }) name =
      if p.name = name then some p.content else contentOf cache name := by
  simp only [contentOf, Slots.toList_offer cache room]
  by_cases heq : p.name = name
  · subst heq
    have habsent : lookup CachedPrompt.name p.name cache.toList = none := lookup_eq_none.mpr hnew
    simp only [lookup] at habsent
    simp [lookup, List.find?_append, habsent]
  · rw [if_neg heq, lookup_append]
    exact heq

theorem contentOf_modify {cache : Slots CachedPrompt maxCachedPrompts}
    (unique : UniqueOn CachedPrompt.name cache.toList) {found : Fin cache.count}
    (hfound : cache.search (fun cached => cached.name = p.name) = some found) (name : CString) :
    contentOf (cache.modify found (fun cached => { cached with content := p.content })) name =
      if p.name = name then some p.content else contentOf cache name := by
  have hlookup := cache.lookup_toList CachedPrompt.name p.name
  rw [hfound, Option.map_some] at hlookup
  have kept (cached : CachedPrompt) :
      ({ cached with content := p.content } : CachedPrompt).name = cached.name := rfl
  simp only [contentOf, Slots.toList_modify_search unique hfound, lookup_updateWhere _ _ kept]
  by_cases heq : p.name = name
  · subst heq
    obtain ⟨_, hname⟩ := mem_of_lookup hlookup
    simp [hlookup, hname]
  · rw [if_neg heq]
    cases hother : lookup CachedPrompt.name name cache.toList with
    | none => rfl
    | some other =>
        obtain ⟨_, hname⟩ := mem_of_lookup hother
        have hne : other.name ≠ p.name := fun h => heq (h.symm.trans hname)
        simp [hne]

/-- The loop reports a prompt exactly when it is news. -/
def PollLoop.Reports (s after : PollLoop) (news : List Prompt) : Prop :=
  after.fired = s.fired ++ news.map (fun p => (p.name, p.content)) ∧
    after.changed = s.changed + news.length

/-- What one round of the loop does: the cache learns the prompt, and news are reported. -/
theorem PollLoop.compare_spec (few : names.length ≤ 64) (h : CacheFits names s.cache)
    (hname : p.name ∈ names) (hlen : p.name.length ≤ 127) (hcontent : p.content.length ≤ 65535) :
    CacheFits names (s.compare true p).cache ∧
      (∀ name, contentOf (s.compare true p).cache name =
        if p.name = name then some p.content else contentOf s.cache name) ∧
      s.Reports (s.compare true p) (changedPrompts (contentOf s.cache) [p]) := by
  have hcut := cachedPrompt_ofPrompt hlen hcontent
  have hcutContent : snprintf dbPromptContentLen p.content = p.content :=
    congrArg CachedPrompt.content hcut
  have hlookup := s.cache.lookup_toList CachedPrompt.name p.name
  cases hfound : s.cache.search (fun cached => cached.name = p.name) with
  | none =>
      rw [hfound, Option.map_none] at hlookup
      have hnew := lookup_eq_none.mp hlookup
      have room := h.room few hname hnew
      have hseen : contentOf s.cache p.name = none := by simp only [contentOf, hlookup,
        Option.map_none]
      simp only [PollLoop.compare, hfound, PollLoop.fire, hcut]
      refine ⟨h.offer room hname hnew, contentOf_offer room hnew, ?_⟩
      simp [PollLoop.Reports, changedPrompts, hseen]
  | some found =>
      rw [hfound, Option.map_some] at hlookup
      have hseen : contentOf s.cache p.name = some (s.cache.get found).content := by
        simp only [contentOf, hlookup, Option.map_some]
      by_cases hsame : (s.cache.get found).content = p.content
      · simp only [PollLoop.compare, hfound, hsame, ne_eq, not_true_eq_false, if_false]
        refine ⟨h, fun name => ?_, ?_⟩
        · split
          · next heq => rw [← heq, hseen, hsame]
          · rfl
        · simp [PollLoop.Reports, changedPrompts, hseen, hsame]
      · simp only [PollLoop.compare, hfound, hsame, ne_eq, not_false_eq_true, if_true,
          PollLoop.fire, hcutContent]
        refine ⟨h.modify hfound, contentOf_modify h.unique hfound, ?_⟩
        simp [PollLoop.Reports, changedPrompts, hseen, hsame]

theorem TableFits.tail {rows : List Prompt} (h : TableFits names (p :: rows)) :
    TableFits names rows where
  distinct := (List.nodup_cons.mp h.distinct).2
  named q hq := h.named q (List.mem_cons_of_mem _ hq)
  nameLength q hq := h.nameLength q (List.mem_cons_of_mem _ hq)
  contentLength q hq := h.contentLength q (List.mem_cons_of_mem _ hq)

/-- Over a whole table: names are distinct, so a round says nothing about the rows after it. -/
theorem PollLoop.foldl_compare_spec (few : names.length ≤ 64) (h : CacheFits names s.cache)
    {rows : List Prompt} (hrows : TableFits names rows) :
    CacheFits names (rows.foldl (PollLoop.compare true) s).cache ∧
      (∀ name, contentOf (rows.foldl (PollLoop.compare true) s).cache name =
        (contentIn rows name).or (contentOf s.cache name)) ∧
      s.Reports (rows.foldl (PollLoop.compare true) s)
        (changedPrompts (contentOf s.cache) rows) := by
  induction rows generalizing s with
  | nil => exact ⟨h, fun name => by simp [contentIn, lookup],
      by simp [PollLoop.Reports, changedPrompts]⟩
  | cons p rows ih =>
      obtain ⟨fresh, _⟩ := List.nodup_cons.mp hrows.distinct
      have first := List.mem_cons_self (a := p) (l := rows)
      obtain ⟨hfits, hcontent, hfired, hchanged⟩ := s.compare_spec few h (hrows.named p first)
        (hrows.nameLength p first) (hrows.contentLength p first)
      obtain ⟨hfits', hcontent', hfired', hchanged'⟩ := ih hfits hrows.tail
      have later : changedPrompts (contentOf (s.compare true p).cache) rows =
          changedPrompts (contentOf s.cache) rows := by
        apply List.filter_congr
        intro q hq
        have hne : p.name ≠ q.name := fun heq => fresh (List.mem_map.mpr ⟨q, hq, heq.symm⟩)
        rw [hcontent, if_neg hne]
      have split : changedPrompts (contentOf s.cache) (p :: rows) =
          changedPrompts (contentOf s.cache) [p] ++ changedPrompts (contentOf s.cache) rows :=
        @List.filter_append _ _ [p] rows
      refine ⟨hfits', fun name => ?_, ?_, ?_⟩
      · rw [List.foldl_cons, hcontent', hcontent, contentIn_cons]
        by_cases heq : p.name = name
        · have habsent : contentIn rows name = none := by
            simp only [contentIn, Option.map_eq_none_iff, lookup_eq_none]
            intro q hq hqname
            exact fresh (List.mem_map.mpr ⟨q, hq, hqname.trans heq.symm⟩)
          simp [heq, habsent]
        · simp [heq]
      · rw [List.foldl_cons, hfired', hfired, later, split, List.map_append, List.append_assoc]
      · rw [List.foldl_cons, hchanged', hchanged, later, split, List.length_append]
        omega

end Round

/-- The fetcher has seen exactly these tables: the cache is what they leave of every name. -/
structure Watches (names : List CString) (pf : PromptFetcher) (tables : List (List Prompt)) :
    Prop where
  callback : pf.onChange = true
  started : pf.initialized = !tables.isEmpty
  cache : CacheFits names pf.cache
  seen : ∀ name, contentOf pf.cache name = lastSeen tables name

section Poll
variable {names : List CString} {pf : PromptFetcher} {tables : List (List Prompt)}

theorem TableFits.length_le {rows : List Prompt} (h : TableFits names rows)
    (few : names.length ≤ 64) : rows.length ≤ 64 :=
  (h.distinct.length_le h.named).trans few

/-- The callback collects a table that fits in full. -/
theorem toList_collect {rows : List Prompt} (h : rows.length ≤ 64) (zero : Prompt) :
    (rows.foldl collectCb (.zeroed zero)).toList = rows := by
  have kept := Slots.toList_foldl_offer (.zeroed zero : Slots Prompt maxCachedPrompts) rows
    (by simpa [Slots.zeroed, maxCachedPrompts] using h)
  exact kept

theorem map_ofPrompt {rows : List Prompt} (h : TableFits names rows) :
    rows.map CachedPrompt.ofPrompt =
      rows.map (fun p => { name := p.name, content := p.content }) :=
  List.map_congr_left (fun p hp => cachedPrompt_ofPrompt (h.nameLength p hp) (h.contentLength p hp))

theorem promptFetcherPoll_of_failed {answer : PromptsAnswer} (h : answer.rc ≠ 0) (pf : PromptFetcher)
    (now : Int) : promptFetcherPoll pf answer now = (pf, { rc := -1, fired := [] }) := by
  simp only [promptFetcherPoll, if_pos h]

theorem PollLoop.mem_fired_compare {onChange : Bool} {s : PollLoop} {p : Prompt}
    {call : CString × CString} (mem : call ∈ (s.compare onChange p).fired) :
    call ∈ s.fired ∨ call = (p.name, p.content) := by
  have fire (cache : Slots CachedPrompt maxCachedPrompts)
      (mem : call ∈ (s.fire onChange p cache).fired) :
      call ∈ s.fired ∨ call = (p.name, p.content) := by
    rw [PollLoop.fire] at mem
    split at mem
    · exact (List.mem_append.mp mem).imp_right List.mem_singleton.mp
    · exact .inl mem
  rw [PollLoop.compare] at mem
  split at mem
  · exact fire _ mem
  · split at mem
    · exact fire _ mem
    · exact .inl mem

theorem PollLoop.mem_fired {onChange : Bool} {s : PollLoop} {rows : List Prompt}
    {call : CString × CString} (mem : call ∈ (rows.foldl (PollLoop.compare onChange) s).fired) :
    call ∈ s.fired ∨ ∃ p ∈ rows, call = (p.name, p.content) := by
  induction rows generalizing s with
  | nil => exact .inl mem
  | cons p rows ih =>
      rcases ih mem with first | ⟨later, place, same⟩
      · exact (PollLoop.mem_fired_compare first).imp_right fun same =>
          ⟨p, List.mem_cons_self, same⟩
      · exact .inr ⟨later, List.mem_cons_of_mem _ place, same⟩

/-- Whatever the rows are, `on_change` is only called with one of them. -/
theorem promptFetcherTick_fired {pf : PromptFetcher} {answer : PromptsAnswer} {now : Int}
    {call : CString × CString} (mem : call ∈ (promptFetcherTick pf answer now).2.fired) :
    ∃ p ∈ answer.delivered, call = (p.name, p.content) := by
  rw [promptFetcherTick] at mem
  split at mem
  · simp only [promptFetcherPoll] at mem
    split at mem
    · exact absurd mem List.not_mem_nil
    · split at mem
      · exact absurd mem List.not_mem_nil
      · rcases PollLoop.mem_fired mem with before | ⟨p, place, same⟩
        · exact absurd before List.not_mem_nil
        · have collected := Slots.toList_foldl_offer_take
            (.zeroed { name := .empty, content := .empty } : Slots Prompt maxCachedPrompts)
            answer.delivered
          rw [Slots.toList_zeroed, List.nil_append] at collected
          exact ⟨p, List.mem_of_mem_take (collected ▸ place), same⟩
  · exact absurd mem List.not_mem_nil

theorem Watches.first_poll (h : Watches names pf []) (few : names.length ≤ 64)
    {answer : PromptsAnswer} (hok : answer.rc = 0) (hfit : TableFits names answer.delivered)
    (now : Int) :
    Watches names (promptFetcherPoll pf answer now).1 [answer.delivered] ∧
      (promptFetcherPoll pf answer now).2 = { rc := 0, fired := [] } := by
  have hlen := hfit.length_le few
  have hstarted : pf.initialized = false := h.started
  have hcache : ((answer.delivered.map CachedPrompt.ofPrompt).foldl Slots.offer
      pf.cache.clear).toList =
        answer.delivered.map (fun p => { name := p.name, content := p.content }) := by
    rw [Slots.toList_foldl_offer, Slots.toList_clear, List.nil_append, map_ofPrompt hfit]
    simpa [Slots.clear, maxCachedPrompts] using hlen
  simp only [promptFetcherPoll, hok, toList_collect hlen, hstarted, ne_eq, not_true_eq_false,
    if_false, Bool.not_false, if_true, and_true]
  refine ⟨h.callback, rfl, ⟨?_, ?_⟩, fun name => ?_⟩
  · rw [hcache, UniqueOn, List.map_map]
    exact hfit.distinct
  · rw [hcache, List.forall_mem_map]
    exact hfit.named
  · simp only [contentOf, hcache, lookup, List.find?_map, lastSeen, contentIn]
    simp [Function.comp_def]

theorem Watches.later_poll (h : Watches names pf tables) (few : names.length ≤ 64)
    (hne : tables ≠ []) {answer : PromptsAnswer} (hok : answer.rc = 0)
    (hfit : TableFits names answer.delivered) (now : Int) :
    Watches names (promptFetcherPoll pf answer now).1 (tables ++ [answer.delivered]) ∧
      (promptFetcherPoll pf answer now).2 =
        let news := changedPrompts (lastSeen tables) answer.delivered
        { rc := news.length, fired := news.map (fun p => (p.name, p.content)) } := by
  have hlen := hfit.length_le few
  have hstarted : pf.initialized = true := by
    rw [h.started]
    simpa using hne
  obtain ⟨hcache, hcontent, hfired, hchanged⟩ :=
    (PollLoop.start pf.cache).foldl_compare_spec few h.cache hfit
  have hseen : contentOf (PollLoop.start pf.cache).cache = lastSeen tables := funext h.seen
  simp only [promptFetcherPoll, hok, toList_collect hlen, hstarted, ne_eq, not_true_eq_false,
    if_false, Bool.not_true, Bool.false_eq_true, h.callback]
  refine ⟨⟨rfl, ?_, hcache, fun name => ?_⟩, ?_⟩
  · simp
  · rw [lastSeen_append, ← hseen]
    exact hcontent name
  · rw [hfired, hchanged, hseen]
    simp [PollLoop.start]

/-- One poll, whatever it answers, keeps the cache in step with the history. -/
theorem Watches.poll (h : Watches names pf tables) (few : names.length ≤ 64) (poll : Poll)
    (hfit : poll.1.rc = 0 → TableFits names poll.1.delivered) :
    Watches names (next pollStep pf poll) (tables ++ tablesSeen [poll]) := by
  obtain ⟨answer, now⟩ := poll
  change Watches names (promptFetcherPoll pf answer now).1 _
  by_cases hok : answer.rc = 0
  · have hseen : tablesSeen [(answer, now)] = [answer.delivered] := by simp [tablesSeen, hok]
    rw [hseen]
    by_cases hne : tables = []
    · subst hne
      exact (h.first_poll few hok (hfit hok) now).1
    · exact (h.later_poll few hne hok (hfit hok) now).1
  · have hseen : tablesSeen [(answer, now)] = [] := by simp [tablesSeen, hok]
    rw [promptFetcherPoll_of_failed hok, hseen, List.append_nil]
    exact h

theorem tablesSeen_append (polls later : List Poll) :
    tablesSeen (polls ++ later) = tablesSeen polls ++ tablesSeen later := by
  simp [tablesSeen]

theorem watches_run (h : Watches names pf tables) (few : names.length ≤ 64) (polls : List Poll)
    (hfit : ∀ rows ∈ tablesSeen polls, TableFits names rows) :
    Watches names (run (next pollStep) pf polls) (tables ++ tablesSeen polls) := by
  induction polls generalizing pf tables with
  | nil => simpa [tablesSeen] using h
  | cons poll polls ih =>
      rw [← List.singleton_append, tablesSeen_append, List.forall_mem_append] at hfit
      have hfirst : poll.1.rc = 0 → TableFits names poll.1.delivered := fun hok =>
        hfit.1 _ (by simp [tablesSeen, hok])
      have := ih (h.poll few poll hfirst) hfit.2
      rwa [List.append_assoc, ← tablesSeen_append] at this

theorem watches_new {intervalSecs : Int} (hnew : promptFetcherNew intervalSecs true = some pf)
    (names : List CString) : Watches names pf [] := by
  simp only [promptFetcherNew] at hnew
  split at hnew
  · cases hnew
  · cases hnew
    exact ⟨rfl, rfl, ⟨List.nodup_nil, fun _ h => absurd h List.not_mem_nil⟩, fun _ => rfl⟩

end Poll

/-- Along every sequence of polls a failed one changes nothing, the first that succeeds reports
nothing, every later one reports exactly the prompts that are new or differ from the table they
were last seen in, and the cache is what was last seen of every name. -/
theorem promptFetcher_reports_changes (pf : PromptFetcher) (intervalSecs : Int)
    (hnew : promptFetcherNew intervalSecs true = some pf) (polls : List Poll)
    (fit : PollsFit polls) (earlier : List Poll) (answer : PromptsAnswer) (now : Int)
    (hfront : earlier ++ [(answer, now)] <+: polls) :
    let before := run (next pollStep) pf earlier
    let after := promptFetcherPoll before answer now
    (answer.rc ≠ 0 → after = (before, { rc := -1, fired := [] })) ∧
    (answer.rc = 0 → tablesSeen earlier = [] → after.2 = { rc := 0, fired := [] }) ∧
    (answer.rc = 0 → tablesSeen earlier ≠ [] →
      after.2.fired = (answer.delivered.filter
          (fun p => lastSeen (tablesSeen earlier) p.name ≠ some p.content)).map
            (fun p => (p.name, p.content)) ∧
        after.2.rc = after.2.fired.length) ∧
    (after.1.cache.toList.map CachedPrompt.name).Nodup ∧
    ∀ name, contentOf after.1.cache name =
      lastSeen (tablesSeen (earlier ++ [(answer, now)])) name := by
  obtain ⟨names, few, hfit⟩ := fit
  obtain ⟨later, rfl⟩ := hfront
  simp only [tablesSeen_append, List.forall_mem_append] at hfit
  obtain ⟨⟨hearlier, hnow⟩, _⟩ := hfit
  have watched : Watches names (run (next pollStep) pf earlier) (tablesSeen earlier) := by
    simpa using watches_run (watches_new hnew names) few earlier hearlier
  have table (hok : answer.rc = 0) : TableFits names answer.delivered :=
    hnow _ (by simp [tablesSeen, hok])
  have last := watched.poll few (answer, now) table
  refine ⟨fun hfail => promptFetcherPoll_of_failed hfail _ now, fun hok hfirst => ?_,
    fun hok hne => ?_, last.cache.unique, fun name => ?_⟩
  · rw [hfirst] at watched
    exact (watched.first_poll few hok (table hok) now).2
  · rw [(watched.later_poll few hne hok (table hok) now).2]
    simp [changedPrompts]
  · rw [tablesSeen_append]
    exact last.seen name

section Witness

def freshFetcher : PromptFetcher where
  intervalSecs := 60
  onChange := true
  cache := .zeroed .zero
  initialized := false
  lastPoll := 0

def ocrRow (content : String) : Prompt := { name := lit "ocr", content := lit content }

def parserRow : Prompt := { name := lit "parser", content := lit "items" }

/-- A table, a failure, and a table with one changed and one new prompt. -/
def threePolls : List Poll :=
  [({ delivered := [ocrRow "v1"], rc := 0 }, 0), ({ delivered := [], rc := -1 }, 60),
    ({ delivered := [ocrRow "v2", parserRow], rc := 0 }, 120)]

theorem threePolls_fit : PollsFit threePolls := by
  refine ⟨[lit "ocr", lit "parser"], by decide, ?_⟩
  have seen : tablesSeen threePolls = [[ocrRow "v1"], [ocrRow "v2", parserRow]] := rfl
  rw [seen]
  intro rows hrows
  have distinct : ∀ rows ∈ [[ocrRow "v1"], [ocrRow "v2", parserRow]],
      (rows.map Prompt.name).Nodup := by decide
  have bounded : ∀ rows ∈ [[ocrRow "v1"], [ocrRow "v2", parserRow]], ∀ p ∈ rows,
      p.name ∈ [lit "ocr", lit "parser"] ∧ p.name.length ≤ 127 ∧ p.content.length ≤ 65535 := by
    decide
  exact
    { distinct := distinct rows hrows
      named := fun p hp => (bounded rows hrows p hp).1
      nameLength := fun p hp => (bounded rows hrows p hp).2.1
      contentLength := fun p hp => (bounded rows hrows p hp).2.2 }

theorem promptFetcher_reports_changes_third :
    let third := promptFetcherPoll (run (next pollStep) freshFetcher (threePolls.take 2))
      { delivered := [ocrRow "v2", parserRow], rc := 0 } 120
    third.2.fired = [(lit "ocr", lit "v2"), (lit "parser", lit "items")] ∧ third.2.rc = 2 := by
  obtain ⟨_, _, later, _⟩ := promptFetcher_reports_changes freshFetcher 60 rfl threePolls
    threePolls_fit (threePolls.take 2) { delivered := [ocrRow "v2", parserRow], rc := 0 } 120
    (by decide)
  obtain ⟨hfired, hrc⟩ := later rfl (by decide)
  have news : _ = [(lit "ocr", lit "v2"), (lit "parser", lit "items")] := hfired.trans (by decide)
  exact ⟨news, by rw [hrc, news]; rfl⟩

end Witness

end Kaufbot
