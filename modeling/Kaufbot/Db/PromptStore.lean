import Kaufbot.Db.Prompts
import Kaufbot.Db.Sqlite

/-!
The `prompts` table with its keys, what opening the database puts into it, and
the statement that changes a content. The seeds look at what is there first, each
in its own way: the text prompt only goes into an empty table, the parser's
prompt into any that has none of that name.
-/

namespace Kaufbot

open CString Keyed

structure PromptRow where
  id : Int
  name : CString
  content : CString
  createdAt : CString
  updatedAt : CString
deriving DecidableEq

/-- The constraints of the table and the counter its key comes from. -/
structure PromptSchema (rows : List PromptRow) (seq : Int) : Prop where
  ids : UniqueOn PromptRow.id rows
  idRange : ∀ row ∈ rows, 1 ≤ row.id ∧ row.id ≤ seq
  seq : 0 ≤ seq ∧ seq ≤ maxRowid
  names : UniqueOn PromptRow.name rows

@[ext] structure PromptStore where
  rows : List PromptRow
  seq : Int
  schema : PromptSchema rows seq

def PromptRow.prompt (row : PromptRow) : Prompt := { name := row.name, content := row.content }

namespace PromptStore

def empty : PromptStore where
  rows := []
  seq := 0
  schema := ⟨uniqueOn_nil _, by simp, by simp [maxRowid], uniqueOn_nil _⟩

variable (store : PromptStore)

def append (row : PromptRow) (room : store.seq < maxRowid) (next : row.id = store.seq + 1)
    (free : ∀ old ∈ store.rows, old.name ≠ row.name) : PromptStore where
  rows := store.rows ++ [row]
  seq := store.seq + 1
  schema :=
    { ids := store.schema.ids.append row (fun old mem => by
        have := store.schema.idRange old mem
        omega)
      idRange := by
        have := store.schema.seq
        intro old mem
        rcases List.mem_append.mp mem with mem | mem
        · have := store.schema.idRange old mem
          omega
        · obtain rfl := List.mem_singleton.mp mem
          omega
      seq := by
        have := store.schema.seq
        omega
      names := store.schema.names.append row free }

/-- Rewrite columns of the selected rows that no constraint is about. -/
def update (sel : PromptRow → Bool) (f : PromptRow → PromptRow)
    (kept : ∀ row, (f row).id = row.id ∧ (f row).name = row.name) : PromptStore where
  rows := updateWhere sel f store.rows
  seq := store.seq
  schema :=
    { ids := store.schema.ids.updateWhere (fun row _ _ => (kept row).1)
      idRange := by
        intro row mem
        obtain ⟨old, place, rfl⟩ := List.mem_map.mp mem
        split
        · rw [(kept old).1]
          exact store.schema.idRange old place
        · exact store.schema.idRange old place
      seq := store.schema.seq
      names := store.schema.names.updateWhere (fun row _ _ => (kept row).2) }

/-- What the query for the fetcher reads. -/
def table : PromptTable where
  rows := store.rows.map PromptRow.prompt
  unique := by
    rw [UniqueOn, List.map_map]
    exact store.schema.names

end PromptStore

/-- `datetime('now')`. -/
def datetimeNow (t : Int) : CString :=
  let tm := gmtime t
  .concat [printPadded 4 (tm.year + 1900), lit "-", printPadded 2 (tm.mon + 1), lit "-",
    printPadded 2 tm.mday, lit " ", printPadded 2 tm.hour, lit ":", printPadded 2 tm.min, lit ":",
    printPadded 2 tm.sec]

/-- The content of `seed`. -/
def ocrSeed : CString :=
  .concat [
    lit "Extract ALL text from this image or document. This document is a receipt from one",
    lit " of the well-know german supermarkets.",
    lit " Preserve the original layout and formatting as closely as possible.",
    lit " Items on the same line in the image/pdf should stay on the same line in the output",
    lit " text.",
    lit " If the line starts with the blank text - use spaces to align text with the text",
    lit " position on the image/document.",
    lit " If there is no text, respond with: [NO TEXT FOUND].",
    lit " Output only the extracted text, nothing else."]

/-- The content of `seed2`. -/
def parserSeed : CString :=
  .concat [
    lit "You are an expert German supermarket receipt parsing tool. You are given text",
    lit " extracted from a receipt photo via OCR. The layout is important, as item",
    lit " descriptions often span multiple lines.",
    lit " Your task is to extract the data and return it strictly as a JSON document",
    lit " matching the schema below. Return ONLY the raw JSON.",
    lit " Extraction Rules:",
    lit " Multi-line Items: Merge wrapped lines into a single original_name.",
    lit " Translation: Provide an accurate English translation.",
    lit " Categorization: Assign a broad category and sub_category.",
    lit " Amounts and Units: Default to 1 if not stated. Extract unit from name.",
    lit " Discounts: Include discount amount if shown (AKTION, RABATT, etc). null if none.",
    lit " is_receipt: true if valid receipt, false if not.",
    lit " image_quality: 0-100 percent (100=perfect OCR, 0=unreadable).",
    lit " reported_item_count: number stated on receipt, or null.",
    lit " Other Info: Group remaining data into the other object.",
    lit " JSON Schema: \x7bis_receipt,image_quality:0-100,",
    lit " store_information:\x7bname,address\x7d,",
    lit " line_items:[\x7bid,original_name,english_translation,category,sub_category,",
    lit " price,discount,tax_group,amount,unit_of_measure\x7d],",
    lit " total_sum,reported_item_count,",
    lit " other:\x7bdate,time,receipt_number,payment_method,tax_details,card_details,",
    lit " raw_unmapped_text\x7d\x7d"]

/-- A seed by its name and content; its `SELECT` gives a row when `wanted` holds of the table. -/
structure Seed where
  name : CString
  content : CString
  wanted : List PromptRow → Bool

def seed : Seed where
  name := lit "ocr"
  content := ocrSeed
  wanted := List.isEmpty

def seed2 : Seed where
  name := lit "parser"
  content := parserSeed
  wanted := fun rows => !rows.any (fun row => row.name = lit "parser")

def seededRow (s : Seed) (now : Int) (store : PromptStore) : PromptRow where
  id := store.seq + 1
  name := s.name
  content := s.content
  createdAt := datetimeNow now
  updatedAt := datetimeNow now

/-- `INSERT OR IGNORE … SELECT … WHERE NOT EXISTS`. Nobody looks at its result. -/
def execSeed (s : Seed) (outcome : SqlOutcome) (now : Int) (store : PromptStore) : PromptStore :=
  if h : outcome = .ok ∧ s.wanted store.rows = true ∧ store.seq < maxRowid ∧
      ∀ old ∈ store.rows, old.name ≠ s.name then
    store.append (seededRow s now store) h.2.2.1 rfl h.2.2.2
  else store

/-- What happens to the statements of one `sqlite_open`. Each seed reads the clock. -/
structure Opening where
  /-- The connection is made and the schema is there. -/
  opened : Bool
  seed : SqlOutcome
  seedAt : Int
  seed2 : SqlOutcome
  seed2At : Int

/-- The seeds, each with the time it is run at. -/
def Opening.seeds (opening : Opening) : List (Seed × Int) :=
  [(Kaufbot.seed, opening.seedAt), (Kaufbot.seed2, opening.seed2At)]

/-- What `sqlite_open` leaves of the prompts, whether it returns a backend or not. -/
def sqliteOpenPrompts (opening : Opening) (store : PromptStore) : PromptStore :=
  if opening.opened then
    execSeed seed2 opening.seed2 opening.seed2At
      (execSeed seed opening.seed opening.seedAt store)
  else store

def PromptRow.setContent (content : CString) (now : Int) (row : PromptRow) : PromptRow :=
  { row with content := content, updatedAt := nowIso8601 now }

/-- An update that selects no row succeeds as well. -/
def sqliteUpdatePrompt (outcome : SqlOutcome) (now : Int) (store : PromptStore) (id : Int)
    (content : CString) : PromptStore × Int :=
  if outcome = .ok then
    (store.update (fun row => row.id = id) (PromptRow.setContent content now)
      (fun _ => ⟨rfl, rfl⟩), 0)
  else (store, -1)

/-- `sqlite_get_prompts`, whose statement may fail in front of any row. -/
def sqlitePromptsAnswer (delivered : Option Nat) (store : PromptStore) : PromptsAnswer :=
  match delivered with
  | none => sqliteGetPrompts store.table
  | some n => { delivered := (sqliteGetPrompts store.table).delivered.take n, rc := -1 }

/-- A call of `sqlite_update_prompt`. -/
structure PromptEdit where
  id : Int
  content : CString
  outcome : SqlOutcome
  now : Int

def PromptStore.edit (store : PromptStore) (e : PromptEdit) : PromptStore :=
  (sqliteUpdatePrompt e.outcome e.now store e.id e.content).1

/-- What the call makes of this row. -/
def PromptEdit.contentOf (id : Int) (e : PromptEdit) : Option CString :=
  if e.outcome = .ok ∧ e.id = id then some e.content else none

end Kaufbot
