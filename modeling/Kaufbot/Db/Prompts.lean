import Kaufbot.Library.Keyed
import Kaufbot.Ocr.PromptFetcher

/-!
The `prompts` table and the query that delivers it. Names are unique in the
table and of any length; what is delivered is cut to the fields of a record.
-/

namespace Kaufbot

open CString Keyed

/-- `name TEXT NOT NULL UNIQUE`. -/
structure PromptTable where
  rows : List Prompt
  unique : UniqueOn Prompt.name rows

/-- `ORDER BY name`: byte order of the text. -/
def nameNoLater (a b : Prompt) : Bool := !decide (b.name.bytes < a.name.bytes)

/-- The name and the content as the row callback copies them. -/
def readPromptColumns (row : Prompt) : Prompt where
  name := snprintf dbPromptNameLen row.name
  content := snprintf dbPromptContentLen row.content

/-- What `sqlite_get_prompts` delivers when its statement runs to the end. -/
def sqliteGetPrompts (table : PromptTable) : PromptsAnswer where
  delivered := (table.rows.mergeSort nameNoLater).map readPromptColumns
  rc := 0

/-- Copying what was read into the cache cuts nothing more. -/
theorem ofPrompt_readPromptColumns (row : Prompt) :
    CachedPrompt.ofPrompt (readPromptColumns row) =
      { name := (readPromptColumns row).name, content := (readPromptColumns row).content } := by
  simp [CachedPrompt.ofPrompt, readPromptColumns]

end Kaufbot
