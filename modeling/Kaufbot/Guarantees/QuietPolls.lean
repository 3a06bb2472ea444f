import Kaufbot.Db.Prompts
import Kaufbot.Guarantees.PromptChanges
import Mathlib.Data.List.Dedup

/-!
Polling a table a second time. The second poll is silent when the cache holds
the content of every row it looks at; whether the first poll could leave it so
depends on the free slots and on names that became equal when they were cut.
-/

namespace Kaufbot

open CString Keyed Machine Runs

/-- What a poll finds: a table, or a backend that fails. -/
abbrev SeenPoll := Option PromptTable × Int

def promptsAnswer : Option PromptTable → PromptsAnswer
  | some table => sqliteGetPrompts table
  | none => { delivered := [], rc := -1 }

def seenStep (pf : PromptFetcher) (poll : SeenPoll) : PromptFetcher × PollResult :=
  promptFetcherPoll pf (promptsAnswer poll.1) poll.2

/-- The rows a poll of the table looks at. -/
def collected (table : PromptTable) : List Prompt := (sqliteGetPrompts table).delivered.take 64

def cachedNames (cache : Slots CachedPrompt maxCachedPrompts) : List CString :=
  cache.toList.map CachedPrompt.name

/-- The names of the rows that have no slot yet, each once. -/
def newNames (cache : Slots CachedPrompt maxCachedPrompts) (rows : List Prompt) : List CString :=
  ((rows.map Prompt.name).filter (· ∉ cachedNames cache)).dedup

/-- Rows of one name have one content. -/
def SameContent (rows : List Prompt) : Prop :=
  ∀ p ∈ rows, ∀ q ∈ rows, p.name = q.name → p.content = q.content

/-- There is a slot for every new name. -/
def Room (cache : Slots CachedPrompt maxCachedPrompts) (rows : List Prompt) : Prop :=
  cache.count + (newNames cache rows).length ≤ 64

/-- Rows the cache can hold uncut. -/
def ReadRows (rows : List Prompt) : Prop :=
  ∀ p ∈ rows, CachedPrompt.ofPrompt p = { name := p.name, content := p.content }

section Loop
variable {s : PollLoop} {p : Prompt} {onChange : Bool} {rows : List Prompt}
variable {cache : Slots CachedPrompt maxCachedPrompts} {name content : CString}

theorem mem_cachedNames (h : contentOf cache name = some content) : name ∈ cachedNames cache := by
  obtain ⟨cached, found, -⟩ := Option.map_eq_some_iff.mp h
  obtain ⟨member, named⟩ := mem_of_lookup found
  exact List.mem_map.mpr ⟨cached, member, named⟩

/-- The search of the loop and the content it compares with. -/
theorem contentOf_search (cache : Slots CachedPrompt maxCachedPrompts) (name : CString) :
    contentOf cache name =
      (cache.search (fun cached => cached.name = name)).map (fun i => (cache.get i).content) := by
  rw [contentOf, cache.lookup_toList CachedPrompt.name name, Option.map_map]
  rfl

theorem PollLoop.compare_quiet (h : contentOf s.cache p.name = some p.content) :
    s.compare onChange p = s := by
  rw [contentOf_search] at h
  obtain ⟨found, hfound, same⟩ := Option.map_eq_some_iff.mp h
  simp [PollLoop.compare, hfound, same]

theorem PollLoop.compare_changed (h : contentOf s.cache p.name ≠ some p.content) :
    (s.compare onChange p).changed = s.changed + 1 := by
  rw [contentOf_search] at h
  cases hfound : s.cache.search (fun cached => cached.name = p.name) with
  | none => simp [PollLoop.compare, hfound, PollLoop.fire]
  | some found =>
      have differs : (s.cache.get found).content ≠ p.content := by simpa [hfound] using h
      simp [PollLoop.compare, hfound, differs, PollLoop.fire]

theorem PollLoop.changed_le_foldl (onChange : Bool) (rows : List Prompt) (s : PollLoop) :
    s.changed ≤ (rows.foldl (PollLoop.compare onChange) s).changed := by
  induction rows generalizing s with
  | nil => exact Int.le_refl _
  | cons p rows ih =>
      refine Int.le_trans ?_ (ih (s.compare onChange p))
      by_cases quiet : contentOf s.cache p.name = some p.content
      · exact Int.le_of_eq (congrArg PollLoop.changed (PollLoop.compare_quiet quiet).symm)
      · rw [PollLoop.compare_changed quiet]
        omega

/-- A pass over the rows reports nothing exactly if the cache already holds every row. -/
theorem PollLoop.foldl_quiet_iff (rows : List Prompt) (s : PollLoop) :
    (rows.foldl (PollLoop.compare onChange) s).changed = s.changed ↔
      ∀ p ∈ rows, contentOf s.cache p.name = some p.content := by
  induction rows generalizing s with
  | nil => simp
  | cons p rows ih =>
      rw [List.foldl_cons, List.forall_mem_cons]
      by_cases quiet : contentOf s.cache p.name = some p.content
      · rw [PollLoop.compare_quiet quiet, ih, and_iff_right quiet]
      · have reported := PollLoop.changed_le_foldl onChange rows (s.compare onChange p)
        rw [PollLoop.compare_changed quiet] at reported
        refine iff_of_false (by omega) fun h => quiet h.1

theorem PollLoop.foldl_quiet (h : ∀ p ∈ rows, contentOf s.cache p.name = some p.content) :
    rows.foldl (PollLoop.compare onChange) s = s := by
  induction rows with
  | nil => rfl
  | cons p rows ih =>
      obtain ⟨here, later⟩ := List.forall_mem_cons.mp h
      rw [List.foldl_cons, PollLoop.compare_quiet here, ih later]

/-- Room for every new name is room for any list of them. -/
theorem room_iff : Room cache rows ↔ ∀ new : List CString, new.Nodup →
    (∀ name ∈ new, name ∈ rows.map Prompt.name ∧ name ∉ cachedNames cache) →
    cache.count + new.length ≤ 64 := by
  constructor
  · intro room new distinct fresh
    have within : new ⊆ newNames cache rows := by
      intro name hname
      simpa [newNames] using fresh name hname
    have fewer := (distinct.subperm within).length_le
    simp only [Room] at room
    omega
  · intro all
    refine all (newNames cache rows) (List.nodup_dedup _) fun name hname => ?_
    simpa [newNames] using hname

theorem Room.head (h : Room cache (p :: rows)) :
    p.name ∈ cachedNames cache ∨ cache.count < maxCachedPrompts := by
  by_cases known : p.name ∈ cachedNames cache
  · exact .inl known
  · have one := room_iff.mp h [p.name] (List.nodup_singleton _) (by simpa using known)
    exact .inr one

/-- Writing a content over the entry that the search finds for its name. -/
theorem contentOf_modify_found (cache : Slots CachedPrompt maxCachedPrompts) {name : CString}
    {found : Fin cache.count} (content : CString)
    (hfound : cache.search (fun cached => cached.name = name) = some found) :
    cachedNames (cache.modify found (fun cached => { cached with content := content })) =
        cachedNames cache ∧
      ∀ other, contentOf (cache.modify found (fun cached => { cached with content := content }))
        other = if name = other then some content else contentOf cache other := by
  have kept (cached : CachedPrompt) :
      ({ cached with content := content } : CachedPrompt).name = cached.name := rfl
  have first := cache.search_val (fun cached => decide (cached.name = name))
  rw [hfound, Option.map_some] at first
  have known : (lookup CachedPrompt.name name cache.toList).isSome := by
    rw [cache.lookup_toList CachedPrompt.name name, hfound]
    rfl
  obtain ⟨cached, hcached⟩ := Option.isSome_iff_exists.mp known
  constructor
  · rw [cachedNames, Slots.toList_modify, map_modify _ _ kept, cachedNames]
  · intro other
    rw [contentOf, Slots.toList_modify, lookup_modify_first kept _ first.symm]
    split
    · rw [hcached]
      rfl
    · rfl

/-- What one row does to the cache: a name it knows gets the content of the row,
and a new name is offered. -/
theorem PollLoop.compare_cases (onChange : Bool) (s : PollLoop)
    (cut : CachedPrompt.ofPrompt p = { name := p.name, content := p.content }) :
    (p.name ∈ cachedNames s.cache ∧
      cachedNames (s.compare onChange p).cache = cachedNames s.cache ∧
      ∀ name, contentOf (s.compare onChange p).cache name =
        if p.name = name then some p.content else contentOf s.cache name) ∨
    (p.name ∉ cachedNames s.cache ∧
      (s.compare onChange p).cache = s.cache.offer { name := p.name, content := p.content }) := by
  cases hfound : s.cache.search (fun cached => cached.name = p.name) with
  | none =>
      have absent := s.cache.search_isSome (fun cached => decide (cached.name = p.name))
      rw [hfound] at absent
      exact .inr ⟨by simpa [cachedNames] using absent.symm,
        by simp [PollLoop.compare, hfound, PollLoop.fire, cut]⟩
  | some found =>
      have hcontent : contentOf s.cache p.name = some (s.cache.get found).content := by
        rw [contentOf_search, hfound]
        rfl
      refine .inl ⟨mem_cachedNames hcontent, ?_⟩
      by_cases same : (s.cache.get found).content = p.content
      · rw [same] at hcontent
        rw [PollLoop.compare_quiet hcontent]
        refine ⟨rfl, fun name => ?_⟩
        split
        · next heq => rw [← heq, hcontent]
        · rfl
      · have uncut : snprintf dbPromptContentLen p.content = p.content :=
          congrArg CachedPrompt.content cut
        have updated : (s.compare onChange p).cache = s.cache.modify found
            (fun cached => { cached with content := p.content }) := by
          simp [PollLoop.compare, hfound, same, PollLoop.fire, uncut]
        rw [updated]
        exact contentOf_modify_found s.cache p.content hfound

theorem cachedNames_offer (room : cache.count < maxCachedPrompts) (x : CachedPrompt) :
    cachedNames (cache.offer x) = cachedNames cache ++ [x.name] := by
  rw [cachedNames, Slots.toList_offer cache room, List.map_append]
  rfl

theorem length_cachedNames (cache : Slots CachedPrompt maxCachedPrompts) :
    (cachedNames cache).length = cache.count := by
  rw [cachedNames, List.length_map, Slots.length_toList]

/-- Names are only added to the cache. -/
theorem PollLoop.cachedNames_foldl (onChange : Bool) (s : PollLoop) (read : ReadRows rows) :
    ∃ added, cachedNames (rows.foldl (PollLoop.compare onChange) s).cache =
      cachedNames s.cache ++ added := by
  induction rows generalizing s with
  | nil => exact ⟨[], (List.append_nil _).symm⟩
  | cons p rows ih =>
      obtain ⟨cut, later⟩ := List.forall_mem_cons.mp read
      obtain ⟨added, hadded⟩ := ih (s.compare onChange p) later
      rw [List.foldl_cons, hadded]
      rcases s.compare_cases onChange cut with ⟨-, same, -⟩ | ⟨-, offered⟩
      · exact ⟨added, by rw [same]⟩
      · rw [offered]
        by_cases room : s.cache.count < maxCachedPrompts
        · exact ⟨p.name :: added, by rw [cachedNames_offer room, List.append_assoc]; rfl⟩
        · exact ⟨added, by rw [Slots.offer, dif_neg room]⟩

/-- With a slot for it a row is learned, and nothing else is touched. -/
theorem PollLoop.contentOf_compare (onChange : Bool) (s : PollLoop)
    (cut : CachedPrompt.ofPrompt p = { name := p.name, content := p.content })
    (room : Room s.cache (p :: rows)) (name : CString) :
    contentOf (s.compare onChange p).cache name =
      if p.name = name then some p.content else contentOf s.cache name := by
  rcases s.compare_cases onChange cut with ⟨-, -, learned⟩ | ⟨new, offered⟩
  · exact learned name
  · have absent : ∀ cached ∈ s.cache.toList, cached.name ≠ p.name := by
      intro cached hcached heq
      exact new (List.mem_map.mpr ⟨cached, hcached, heq⟩)
    rw [offered, contentOf_offer (room.head.resolve_left new) absent]

theorem PollLoop.room_compare (onChange : Bool) (s : PollLoop)
    (cut : CachedPrompt.ofPrompt p = { name := p.name, content := p.content })
    (room : Room s.cache (p :: rows)) : Room (s.compare onChange p).cache rows := by
  rw [room_iff] at room ⊢
  intro new distinct fresh
  rcases s.compare_cases onChange cut with ⟨-, same, -⟩ | ⟨unknown, offered⟩
  · have count : (s.compare onChange p).cache.count = s.cache.count := by
      rw [← length_cachedNames, same, length_cachedNames]
    rw [same] at fresh
    rw [count]
    exact room new distinct fun name hname =>
      ⟨List.mem_cons_of_mem _ (fresh name hname).1, (fresh name hname).2⟩
  · have free := (room_iff.mpr room).head.resolve_left unknown
    rw [offered, cachedNames_offer free] at fresh
    rw [offered, Slots.count_offer _ free]
    have more := room (p.name :: new)
      (List.nodup_cons.mpr ⟨fun hp => (fresh p.name hp).2 (by simp), distinct⟩) ?_
    · rw [List.length_cons] at more
      omega
    · refine List.forall_mem_cons.mpr ⟨⟨List.mem_cons_self, unknown⟩, fun name hname => ?_⟩
      exact ⟨List.mem_cons_of_mem _ (fresh name hname).1,
        fun old => (fresh name hname).2 (List.mem_append_left _ old)⟩

/-- Rows there is room for are all learned, and other names are left alone. -/
theorem PollLoop.foldl_learns (onChange : Bool) (s : PollLoop) (read : ReadRows rows)
    (same : SameContent rows) (room : Room s.cache rows) :
    (∀ p ∈ rows, contentOf (rows.foldl (PollLoop.compare onChange) s).cache p.name =
      some p.content) ∧
    ∀ name, name ∉ rows.map Prompt.name →
      contentOf (rows.foldl (PollLoop.compare onChange) s).cache name = contentOf s.cache name := by
  induction rows generalizing s with
  | nil => exact ⟨fun _ h => absurd h List.not_mem_nil, fun _ _ => rfl⟩
  | cons p rows ih =>
      obtain ⟨cut, later⟩ := List.forall_mem_cons.mp read
      have same_later : SameContent rows := fun q hq r hr =>
        same q (List.mem_cons_of_mem _ hq) r (List.mem_cons_of_mem _ hr)
      have learned := s.contentOf_compare onChange cut room
      obtain ⟨known, others⟩ := ih (s.compare onChange p) later same_later
        (s.room_compare onChange cut room)
      rw [List.foldl_cons]
      refine ⟨List.forall_mem_cons.mpr ⟨?_, known⟩, fun name hname => ?_⟩
      · by_cases again : p.name ∈ rows.map Prompt.name
        · obtain ⟨q, hq, hname⟩ := List.mem_map.mp again
          rw [← hname, known q hq, same q (List.mem_cons_of_mem _ hq) p List.mem_cons_self hname]
        · rw [others p.name again, learned, if_pos rfl]
      · rw [List.map_cons, List.mem_cons, not_or] at hname
        rw [others name hname.2, learned, if_neg (Ne.symm hname.1)]

/-- After a pass the cache holds every row exactly if no two rows of one name
differ and there was a slot for every new name. -/
theorem PollLoop.foldl_learns_iff (onChange : Bool) (s : PollLoop) (read : ReadRows rows) :
    (∀ p ∈ rows, contentOf (rows.foldl (PollLoop.compare onChange) s).cache p.name =
      some p.content) ↔ SameContent rows ∧ Room s.cache rows := by
  constructor
  · intro known
    refine ⟨fun p hp q hq hname => ?_, room_iff.mpr fun new distinct fresh => ?_⟩
    · have both := (known p hp).symm.trans (hname ▸ known q hq)
      exact Option.some.inj both
    · obtain ⟨added, hadded⟩ := s.cachedNames_foldl onChange read
      have within : new ⊆ added := by
        intro name hname
        obtain ⟨hrow, hold⟩ := fresh name hname
        obtain ⟨p, hp, rfl⟩ := List.mem_map.mp hrow
        have learned := mem_cachedNames (known p hp)
        rw [hadded] at learned
        exact (List.mem_append.mp learned).resolve_left hold
      have fewer := (distinct.subperm within).length_le
      have total := congrArg List.length hadded
      have fits := (rows.foldl (PollLoop.compare onChange) s).cache.fits
      rw [List.length_append, length_cachedNames, length_cachedNames] at total
      simp only [maxCachedPrompts] at fits
      omega
  · rintro ⟨same, room⟩
    exact (s.foldl_learns onChange read same room).1

end Loop

section Poll
variable {pf : PromptFetcher} {rows : List Prompt}

theorem readRows_collected (table : PromptTable) : ReadRows (collected table) := by
  intro p hp
  obtain ⟨row, -, rfl⟩ := List.mem_map.mp (List.mem_of_mem_take hp)
  exact ofPrompt_readPromptColumns row

theorem toList_collectCb (table : PromptTable) (zero : Prompt) :
    ((sqliteGetPrompts table).delivered.foldl collectCb (.zeroed zero)).toList = collected table := by
  have kept := Slots.toList_foldl_offer_take (.zeroed zero : Slots Prompt maxCachedPrompts)
    (sqliteGetPrompts table).delivered
  exact kept

theorem length_collected_le (table : PromptTable) : (collected table).length ≤ 64 :=
  List.length_take_le _ _

/-- A cache with nothing in it has room for what a poll collects. -/
theorem room_of_empty {cache : Slots CachedPrompt maxCachedPrompts} (empty : cache.count = 0)
    (few : rows.length ≤ 64) : Room cache rows := by
  have distinct : (newNames cache rows).length ≤ rows.length :=
    (List.dedup_sublist _).length_le.trans ((List.length_filter_le _ _).trans (by simp))
  simp only [Room, empty]
  omega

/-- The first row of a name is what a look-up in the rows finds. -/
theorem contentIn_iff : (∀ p ∈ rows, contentIn rows p.name = some p.content) ↔ SameContent rows := by
  constructor
  · intro first p hp q hq hname
    exact Option.some.inj ((first p hp).symm.trans (hname ▸ first q hq))
  · intro same p hp
    have listed : (lookup Prompt.name p.name rows).isSome := by
      rw [Option.isSome_iff_ne_none, ne_eq, lookup_eq_none]
      exact fun absent => absent p hp rfl
    obtain ⟨q, hq⟩ := Option.isSome_iff_exists.mp listed
    obtain ⟨member, named⟩ := mem_of_lookup hq
    rw [contentIn, hq, Option.map_some, same q member p hp named]

theorem contentOf_filled (cache : Slots CachedPrompt maxCachedPrompts) (read : ReadRows rows)
    (few : rows.length ≤ 64) (name : CString) :
    contentOf ((rows.map CachedPrompt.ofPrompt).foldl Slots.offer cache.clear) name =
      contentIn rows name := by
  have copied : rows.map CachedPrompt.ofPrompt =
      rows.map (fun p => { name := p.name, content := p.content }) := List.map_congr_left read
  rw [contentOf, Slots.toList_foldl_offer cache.clear _ (by simpa [Slots.clear, maxCachedPrompts] using few),
    Slots.toList_clear, List.nil_append, copied, contentIn]
  simp [lookup, List.find?_map, Function.comp_def]

/-- What a poll of a table leaves in the cache. -/
theorem learned_iff (table : PromptTable) (now : Int) (fresh : pf.initialized = false → pf.cache.count = 0) :
    (∀ p ∈ collected table,
      contentOf (promptFetcherPoll pf (sqliteGetPrompts table) now).1.cache p.name = some p.content) ↔
      SameContent (collected table) ∧ Room pf.cache (collected table) := by
  have read := readRows_collected table
  have few := length_collected_le table
  have ok : (sqliteGetPrompts table).rc = 0 := rfl
  cases started : pf.initialized with
  | false =>
      simp only [promptFetcherPoll, ok, toList_collectCb, started, ne_eq, not_true_eq_false, if_false,
        Bool.not_false, if_true, contentOf_filled pf.cache read few]
      rw [contentIn_iff, and_iff_left (room_of_empty (fresh started) few)]
  | true =>
      simp only [promptFetcherPoll, ok, toList_collectCb, started, ne_eq, not_true_eq_false, if_false,
        Bool.not_true, Bool.false_eq_true]
      exact (PollLoop.start pf.cache).foldl_learns_iff pf.onChange read

theorem poll_initialized (table : PromptTable) (now : Int) :
    (promptFetcherPoll pf (sqliteGetPrompts table) now).1.initialized = true := by
  have ok : (sqliteGetPrompts table).rc = 0 := rfl
  cases started : pf.initialized <;> simp [promptFetcherPoll, ok, started]

/-- A later poll is silent exactly if the cache holds every row it looks at. -/
theorem silent_iff (table : PromptTable) (now : Int) (started : pf.initialized = true) :
    (promptFetcherPoll pf (sqliteGetPrompts table) now).2 = { rc := 0, fired := [] } ↔
      ∀ p ∈ collected table, contentOf pf.cache p.name = some p.content := by
  have ok : (sqliteGetPrompts table).rc = 0 := rfl
  simp only [promptFetcherPoll, ok, toList_collectCb, started, ne_eq, not_true_eq_false, if_false,
    Bool.not_true, Bool.false_eq_true]
  constructor
  · intro silent
    exact ((PollLoop.start pf.cache).foldl_quiet_iff _).mp (congrArg PollResult.rc silent)
  · intro known
    rw [PollLoop.foldl_quiet (s := .start pf.cache) known]
    rfl

/-- Before the first table nothing is cached. -/
theorem fresh_run {intervalSecs : Int} {onChange : Bool}
    (hnew : promptFetcherNew intervalSecs onChange = some pf) (history : List SeenPoll) :
    let reached := run (next seenStep) pf history
    reached.initialized = false → reached.cache.count = 0 := by
  refine @run_invariant _ _ (next seenStep)
    (fun pf => pf.initialized = false → pf.cache.count = 0) (fun _ => True) ?_ pf history
    (fun _ _ => trivial) ?_
  · rintro s ⟨answer, now⟩ - fresh
    cases answer with
    | none => exact fresh
    | some table =>
        have started : (next seenStep s (some table, now)).initialized = true :=
          poll_initialized table now
        exact fun h => absurd (h.symm.trans started) (by decide)
  · simp only [promptFetcherNew] at hnew
    split at hnew
    · cases hnew
    · cases hnew
      exact fun _ => rfl

theorem run_failed (pf : PromptFetcher) (times : List Int) :
    run (next seenStep) pf (times.map fun now => (none, now)) = pf := by
  induction times with
  | nil => rfl
  | cons now times ih => exact ih

/-- From every reachable state, of two successful polls of one table with only
failed ones between them, the second is silent exactly if no two of the rows
have one name and two contents after the cut, and the first poll found a slot
for every name. -/
theorem second_poll_silent_iff {intervalSecs : Int} {onChange : Bool}
    (hnew : promptFetcherNew intervalSecs onChange = some pf) (history : List SeenPoll)
    (table : PromptTable) (first second : Int) (failed : List Int) :
    let before := run (next seenStep) pf history
    let between := run (next seenStep) (seenStep before (some table, first)).1
      (failed.map fun now => (none, now))
    (seenStep between (some table, second)).2 = { rc := 0, fired := [] } ↔
      SameContent (collected table) ∧ Room before.cache (collected table) := by
  intro before between
  have unchanged : between = (seenStep before (some table, first)).1 := run_failed _ failed
  rw [unchanged]
  exact (silent_iff table second (poll_initialized table first)).trans
    (learned_iff table first (fresh_run hnew history))

end Poll

section Witness

/-- Two names that agree in all but their last byte, which no field has room for. -/
def longName (last : UInt8) : CString :=
  ofBytes (List.replicate 127 112 ++ [last])

def twinTable : PromptTable where
  rows := [{ name := longName 97, content := lit "v1" }, { name := longName 98, content := lit "v2" }]
  unique := by
    unfold UniqueOn
    decide +kernel

def oneTable : PromptTable where
  rows := [{ name := lit "ocr", content := lit "v1" }]
  unique := List.nodup_singleton _

theorem second_poll_silent_ocr :
    (seenStep (run (next seenStep) (seenStep freshFetcher (some oneTable, 60)).1 [])
      (some oneTable, 120)).2 = { rc := 0, fired := [] } ↔
      SameContent (collected oneTable) ∧ Room freshFetcher.cache (collected oneTable) :=
  have hnew : promptFetcherNew 60 true = some freshFetcher := rfl
  second_poll_silent_iff hnew [] oneTable 60 120 []

theorem twinTable_delivered : sqliteGetPrompts twinTable =
    { delivered := twinTable.rows.map readPromptColumns, rc := 0 } := by
  have sorted : twinTable.rows.Pairwise fun a b => nameNoLater a b = true := by decide +kernel
  rw [sqliteGetPrompts, List.mergeSort_of_pairwise sorted]

/-- Both names are one name in the cache, and its one content is never the content of both. -/
theorem second_poll_repeats :
    (seenStep (seenStep (run (next seenStep) freshFetcher []) (some twinTable, 60)).1
      (some twinTable, 120)).2.rc = 1 := by
  simp only [seenStep, promptsAnswer, twinTable_delivered]
  decide +kernel

end Witness

end Kaufbot
