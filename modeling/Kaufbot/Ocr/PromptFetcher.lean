import Kaufbot.Library.CString
import Kaufbot.Library.Slots

/-!
The poller that tells its owner which prompts changed in the database. A poll
collects the rows the backend delivers and compares them with a cache of at
most 64 names; `on_change` is called while the cache is being updated, and the
calls are returned in order. What the callback does is outside the model.
-/

namespace Kaufbot

open CString

def maxCachedPrompts : Nat := 64
def dbPromptNameLen : Nat := 128
def dbPromptContentLen : Nat := 65536

/-- The part of a row of `prompts` the fetcher reads. -/
structure Prompt where
  name : CString
  content : CString
deriving DecidableEq

structure CachedPrompt where
  name : CString
  content : CString
deriving DecidableEq

def CachedPrompt.ofPrompt (p : Prompt) : CachedPrompt where
  name := snprintf dbPromptNameLen p.name
  content := snprintf dbPromptContentLen p.content

def CachedPrompt.zero : CachedPrompt := { name := .empty, content := .empty }

structure PromptFetcher where
  intervalSecs : Int
  /-- `on_change` is not NULL. -/
  onChange : Bool
  cache : Slots CachedPrompt maxCachedPrompts
  initialized : Bool
  lastPoll : Int

def promptFetcherNew (intervalSecs : Int) (onChange : Bool) : Option PromptFetcher :=
  if intervalSecs ≤ 0 then none
  else some
    { intervalSecs := intervalSecs, onChange := onChange, cache := .zeroed .zero,
      initialized := false, lastPoll := 0 }

/-- What one `db_backend_get_prompts` does: the rows it passes to the callback, and its result. -/
structure PromptsAnswer where
  delivered : List Prompt
  rc : Int
deriving DecidableEq

structure PollResult where
  rc : Int
  fired : List (CString × CString)
deriving DecidableEq

def collectCb (ctx : Slots Prompt maxCachedPrompts) (p : Prompt) : Slots Prompt maxCachedPrompts :=
  ctx.offer p

/-- The cache, `changed`, and the calls of `on_change` so far. -/
structure PollLoop where
  cache : Slots CachedPrompt maxCachedPrompts
  changed : Int
  fired : List (CString × CString)

def PollLoop.start (cache : Slots CachedPrompt maxCachedPrompts) : PollLoop where
  cache := cache
  changed := 0
  fired := []

def PollLoop.fire (s : PollLoop) (onChange : Bool) (p : Prompt)
    (cache : Slots CachedPrompt maxCachedPrompts) : PollLoop where
  cache := cache
  changed := s.changed + 1
  fired := if onChange then s.fired ++ [(p.name, p.content)] else s.fired

/-- The body of the comparing loop. -/
def PollLoop.compare (onChange : Bool) (s : PollLoop) (p : Prompt) : PollLoop :=
  match s.cache.search (fun cached => cached.name = p.name) with
  | none => s.fire onChange p (s.cache.offer (.ofPrompt p))
  | some found =>
      if (s.cache.get found).content ≠ p.content then
        s.fire onChange p (s.cache.modify found (fun cached =>
          { cached with content := snprintf dbPromptContentLen p.content }))
      else s

def promptFetcherPoll (pf : PromptFetcher) (answer : PromptsAnswer) (now : Int) :
    PromptFetcher × PollResult :=
  if answer.rc ≠ 0 then (pf, { rc := -1, fired := [] })
  else
    let ctx := answer.delivered.foldl collectCb (.zeroed { name := .empty, content := .empty })
    if !pf.initialized then
      ({ pf with
          cache := (ctx.toList.map .ofPrompt).foldl Slots.offer pf.cache.clear
          initialized := true
          lastPoll := now }, { rc := 0, fired := [] })
    else
      let loop := ctx.toList.foldl (PollLoop.compare pf.onChange) (.start pf.cache)
      ({ pf with cache := loop.cache, lastPoll := now },
        { rc := loop.changed, fired := loop.fired })

/-- The poll is due on the first call and after every interval. -/
def promptFetcherTick (pf : PromptFetcher) (answer : PromptsAnswer) (now : Int) :
    PromptFetcher × PollResult :=
  if !pf.initialized || now - pf.lastPoll ≥ pf.intervalSecs then promptFetcherPoll pf answer now
  else (pf, { rc := 0, fired := [] })

end Kaufbot
