import Kaufbot.Db.PromptStore
import Kaufbot.Library.Runs

/-!
The prompts over the lives of many processes. A row is seeded once, and from
then on has what it was last edited to, however often the database is opened.
-/

namespace Kaufbot

open CString Keyed Runs

/-- A process opens the database, or someone edits a prompt. -/
inductive PromptEvent where
  | opened (opening : Opening)
  | edited (edit : PromptEdit)

def promptStep (store : PromptStore) : PromptEvent → PromptStore
  | .opened opening => sqliteOpenPrompts opening store
  | .edited edit => store.edit edit

def PromptEvent.contentOf (id : Int) : PromptEvent → Option CString
  | .opened _ => none
  | .edited edit => edit.contentOf id

/-- The row a seed puts into the table at this time. -/
structure SeededBy (s : Seed) (now : Int) (store : PromptStore) (row : PromptRow) : Prop where
  name : row.name = s.name
  content : row.content = s.content
  createdAt : row.createdAt = datetimeNow now
  /-- The text prompt is only put into an empty table. -/
  first : s = seed → store.rows = []

section Seeds
variable {store : PromptStore} {s : Seed} {outcome : SqlOutcome} {now : Int} {row : PromptRow}

theorem execSeed_cases (s : Seed) (outcome : SqlOutcome) (now : Int) (store : PromptStore) :
    execSeed s outcome now store = store ∨
      s.wanted store.rows = true ∧
        (execSeed s outcome now store).rows = store.rows ++ [seededRow s now store] := by
  unfold execSeed
  split
  · rename_i h
    exact .inr ⟨h.2.1, rfl⟩
  · exact .inl rfl

theorem mem_execSeed (mem : row ∈ store.rows) : row ∈ (execSeed s outcome now store).rows := by
  rcases execSeed_cases s outcome now store with same | ⟨_, rows⟩
  · rwa [same]
  · rw [rows]
    exact List.mem_append_left _ mem

theorem execSeed_new (mem : row ∈ (execSeed s outcome now store).rows) :
    row ∈ store.rows ∨ s.wanted store.rows = true ∧ row = seededRow s now store := by
  rcases execSeed_cases s outcome now store with same | ⟨wanted, rows⟩
  · exact .inl (same ▸ mem)
  · rw [rows, List.mem_append, List.mem_singleton] at mem
    exact mem.imp_right fun its => ⟨wanted, its⟩

theorem mem_sqliteOpenPrompts (opening : Opening) (mem : row ∈ store.rows) :
    row ∈ (sqliteOpenPrompts opening store).rows := by
  unfold sqliteOpenPrompts
  split
  · exact mem_execSeed (mem_execSeed mem)
  · exact mem

/-- What opening adds is seeded. -/
theorem sqliteOpenPrompts_new {opening : Opening}
    (mem : row ∈ (sqliteOpenPrompts opening store).rows) :
    row ∈ store.rows ∨ ∃ s ∈ opening.seeds, SeededBy s.1 s.2 store row := by
  unfold sqliteOpenPrompts at mem
  split at mem
  · rcases execSeed_new mem with mem | ⟨_, its⟩
    · refine (execSeed_new mem).imp_right fun ⟨wanted, its⟩ => ⟨_, List.mem_cons_self, ?_⟩
      subst its
      exact ⟨rfl, rfl, rfl, fun _ => List.isEmpty_iff.mp wanted⟩
    · refine .inr ⟨_, List.mem_cons_of_mem _ List.mem_cons_self, ?_⟩
      have other : seed2.name ≠ seed.name := by decide
      subst its
      exact ⟨rfl, rfl, rfl, fun same => absurd (congrArg Seed.name same) other⟩
  · exact .inl mem

end Seeds

section Rows
variable {store : PromptStore} {row : PromptRow}

/-- The row after an edit that may be of it. -/
theorem mem_edit (e : PromptEdit) (mem : row ∈ store.rows) :
    ∃ row' ∈ (store.edit e).rows, row'.id = row.id ∧ row'.name = row.name ∧
      row'.createdAt = row.createdAt ∧ row'.content = (e.contentOf row.id).getD row.content := by
  unfold PromptStore.edit sqliteUpdatePrompt PromptEdit.contentOf
  by_cases ok : e.outcome = .ok
  · rw [if_pos ok]
    refine ⟨_, List.mem_map_of_mem mem, ?_⟩
    by_cases same : row.id = e.id
    · simp [same, ok, PromptRow.setContent]
    · simp [same, Ne.symm same]
  · rw [if_neg ok]
    exact ⟨row, mem, rfl, rfl, rfl, by simp [ok]⟩

/-- An edit leaves the other columns as they are. -/
theorem map_edit {κ : Type} (key : PromptRow → κ)
    (kept : ∀ content now row, key (PromptRow.setContent content now row) = key row)
    (store : PromptStore) (e : PromptEdit) : (store.edit e).rows.map key = store.rows.map key := by
  unfold PromptStore.edit sqliteUpdatePrompt
  split
  · exact map_updateWhere _ (fun row _ _ => kept _ _ row)
  · rfl

theorem getLast?_getD_cons {α : Type} (a first : α) (l : List α) :
    (a :: l).getLast?.getD first = l.getLast?.getD a := by
  rw [List.getLast?_cons, Option.getD_some]

/-- No row is lost, and each has what it was last edited to. -/
theorem run_rows (events : List PromptEvent) (mem : row ∈ store.rows) :
    ∃ row' ∈ (run promptStep store events).rows, row'.id = row.id ∧ row'.name = row.name ∧
      row'.createdAt = row.createdAt ∧
      row'.content =
        (events.filterMap (PromptEvent.contentOf row.id)).getLast?.getD row.content := by
  induction events generalizing store row with
  | nil => exact ⟨row, mem, rfl, rfl, rfl, rfl⟩
  | cons event events ih =>
      obtain ⟨row₁, mem₁, id₁, name₁, created₁, content₁⟩ :
          ∃ row' ∈ (promptStep store event).rows, row'.id = row.id ∧ row'.name = row.name ∧
            row'.createdAt = row.createdAt ∧
            row'.content = (event.contentOf row.id).getD row.content := by
        cases event with
        | opened opening => exact ⟨row, mem_sqliteOpenPrompts opening mem, rfl, rfl, rfl, rfl⟩
        | edited e => exact mem_edit e mem
      obtain ⟨row', mem', id', name', created', content'⟩ := ih mem₁
      refine ⟨row', mem', id'.trans id₁, name'.trans name₁, created'.trans created₁, ?_⟩
      rw [content', content₁, id₁, List.filterMap_cons]
      cases event.contentOf row.id with
      | none => rfl
      | some content => exact (getLast?_getD_cons _ _ _).symm

/-- A row that was not there was seeded meanwhile, and edited since. -/
theorem run_new (events : List PromptEvent) (mem : row ∈ (run promptStep store events).rows) :
    (∃ old ∈ store.rows, old.id = row.id) ∨
      ∃ before opening after, events = before ++ .opened opening :: after ∧
        ∃ s ∈ opening.seeds, row.name = s.1.name ∧ row.createdAt = datetimeNow s.2 ∧
          row.content =
            (after.filterMap (PromptEvent.contentOf row.id)).getLast?.getD s.1.content ∧
          (s.1 = seed → store.rows = []) := by
  induction events generalizing store with
  | nil => exact .inl ⟨row, mem, rfl⟩
  | cons event events ih =>
      rcases ih mem with
        ⟨old, place, id⟩ | ⟨before, opening, after, split, s, its, name, created, content, first⟩
      · cases event with
        | opened opening =>
            rcases sqliteOpenPrompts_new place with there | ⟨s, its, seeded⟩
            · exact .inl ⟨old, there, id⟩
            · obtain ⟨row', mem', id', name', created', content'⟩ := run_rows events place
              have same : row' = row :=
                (run promptStep _ events).schema.ids.eq_of_key_eq mem' mem (id'.trans id)
              subst same
              refine .inr ⟨[], opening, events, rfl, s, its, name'.trans seeded.name,
                created'.trans seeded.createdAt, ?_, seeded.first⟩
              rw [content', seeded.content, id]
        | edited e =>
            have kept : old.id ∈ store.rows.map PromptRow.id := by
              rw [← map_edit PromptRow.id (fun _ _ _ => rfl) store e]
              exact List.mem_map_of_mem place
            obtain ⟨older, there, same⟩ := List.mem_map.mp kept
            exact .inl ⟨older, there, same.trans id⟩
      · refine .inr ⟨event :: before, opening, after, by rw [split]; rfl, s, its, name, created,
          content, fun text => ?_⟩
        refine List.eq_nil_iff_forall_not_mem.mpr fun old there => ?_
        obtain ⟨row', mem', _⟩ := run_rows [event] there
        rw [show (run promptStep store [event]).rows = [] from first text] at mem'
        exact absurd mem' List.not_mem_nil

end Rows

def promptNames : List CString := [lit "ocr", lit "parser"]

/-- What the runs from the first opening have besides the schema. -/
structure PromptStore.Seeded (store : PromptStore) : Prop where
  named : ∀ row ∈ store.rows, row.name ∈ promptNames
  counted : store.seq = store.rows.length

section Seeded
variable {store : PromptStore}

theorem PromptStore.Seeded.few (h : store.Seeded) : store.rows.length ≤ 2 :=
  store.schema.names.length_le h.named

theorem execSeed_seeded {s : Seed} (h : store.Seeded) (name : s.name ∈ promptNames)
    (outcome : SqlOutcome) (now : Int) : (execSeed s outcome now store).Seeded := by
  unfold execSeed
  split
  · refine ⟨fun row mem => ?_, ?_⟩
    · rcases List.mem_append.mp mem with mem | its
      · exact h.named row mem
      · rwa [List.mem_singleton.mp its]
    · simp [PromptStore.append, h.counted]
  · exact h

theorem promptStep_seeded (event : PromptEvent) (h : store.Seeded) :
    (promptStep store event).Seeded := by
  cases event with
  | opened opening =>
      simp only [promptStep, sqliteOpenPrompts]
      split
      · exact execSeed_seeded (execSeed_seeded h (by simp [promptNames, seed]) _ _)
          (by simp [promptNames, seed2]) _ _
      · exact h
  | edited e =>
      have names := map_edit PromptRow.name (fun _ _ _ => rfl) store e
      refine ⟨fun row mem => ?_, ?_⟩
      · obtain ⟨old, place, same⟩ := List.mem_map.mp (names ▸ List.mem_map_of_mem mem)
        exact same ▸ h.named old place
      · have count : (store.edit e).rows.length = store.rows.length := by
          simpa using congrArg List.length names
        have seq : (store.edit e).seq = store.seq := by
          unfold PromptStore.edit sqliteUpdatePrompt
          split <;> rfl
        rw [promptStep, seq, h.counted, count]

theorem run_seeded (events : List PromptEvent) : (run promptStep .empty events).Seeded :=
  run_invariant (fun _ event (_ : True) h => promptStep_seeded event h) _ events
    (fun _ _ => trivial) ⟨fun _ none => absurd none List.not_mem_nil, rfl⟩

/-- A seed that goes through leaves its row, or found what it looks for. -/
theorem execSeed_of_ok {s : Seed} (h : store.Seeded) (now : Int)
    (wanted : s.wanted store.rows = true) (free : ∀ old ∈ store.rows, old.name ≠ s.name) :
    ∃ row ∈ (execSeed s .ok now store).rows, row.name = s.name := by
  have room : store.seq < maxRowid := by
    have few := h.few
    have counted := h.counted
    have large : (2 : Int) < maxRowid := by decide
    omega
  refine ⟨seededRow s now store, ?_, rfl⟩
  rw [execSeed, dif_pos ⟨rfl, wanted, room, free⟩]
  exact List.mem_append_right _ (List.mem_singleton_self _)

/-- Whenever the second seed goes through, there is a prompt for the parser. -/
theorem parser_after_opening {opening : Opening} (h : store.Seeded) (opened : opening.opened = true)
    (ok : opening.seed2 = .ok) :
    ∃ row ∈ (sqliteOpenPrompts opening store).rows, row.name = lit "parser" := by
  rw [sqliteOpenPrompts, if_pos opened, ok]
  have first := execSeed_seeded h (s := seed) (by simp [promptNames, seed]) opening.seed
    opening.seedAt
  by_cases there : ∃ row ∈ (execSeed seed opening.seed opening.seedAt store).rows,
      row.name = lit "parser"
  · obtain ⟨row, mem, name⟩ := there
    exact ⟨row, mem_execSeed mem, name⟩
  · refine execSeed_of_ok first opening.seed2At ?_ fun old mem name => there ⟨old, mem, name⟩
    simpa [seed2] using there

end Seeded

/-- However often the database is opened, and whichever statements fail: no prompt is lost, each
has the content of its last edit or of its seed, there are at most two, and the text prompt is
only ever put into an empty table. -/
theorem prompts_survive_restarts (before after : List PromptEvent) :
    let store := run promptStep .empty before
    let later := run promptStep store after
    (∀ row ∈ store.rows, ∃ row' ∈ later.rows, row'.id = row.id ∧ row'.name = row.name ∧
      row'.createdAt = row.createdAt ∧
      row'.content = (after.filterMap (PromptEvent.contentOf row.id)).getLast?.getD row.content) ∧
    (∀ row ∈ later.rows, (∃ old ∈ store.rows, old.id = row.id) ∨
      ∃ first opening rest, after = first ++ .opened opening :: rest ∧
        ∃ s ∈ opening.seeds, row.name = s.1.name ∧ row.createdAt = datetimeNow s.2 ∧
          row.content = (rest.filterMap (PromptEvent.contentOf row.id)).getLast?.getD s.1.content ∧
          (s.1 = seed → store.rows = [])) ∧
    later.rows.length ≤ 2 ∧
    ∀ opening : Opening, opening.opened = true → opening.seed2 = .ok →
      ∃ row ∈ (sqliteOpenPrompts opening later).rows, row.name = lit "parser" := by
  intro store later
  have seeded : later.Seeded := by
    simpa [later, store, run, List.foldl_append] using run_seeded (before ++ after)
  exact ⟨fun row mem => run_rows after mem, fun row mem => run_new after mem, seeded.few,
    fun opening opened ok => parser_after_opening seeded opened ok⟩

end Kaufbot
