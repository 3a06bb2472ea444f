import Kaufbot.Config
import Kaufbot.Ocr.Gemini
import Kaufbot.Storage.Local
import Kaufbot.Storage.Supabase
import Kaufbot.Telegram.BotCommands

/-!
The whole of `config_load`: what it makes of the environment, or nothing when a
required variable is missing. Strings are copied into their buffers, numbers
read by `strtol`, and the models of the buttons split off a list.
-/

namespace Kaufbot

open CString

def maxModelLen : Nat := 128
def maxGeminiModels : Nat := 8
def geminiModelsBuf : Nat := 512

section Environment
variable (getenv : CString → Option CString)

def envOrDefault (key : String) (default : String) : CString :=
  (requireEnv (getenv (lit key))).getD (lit default)

/-- `strtol` of a variable or its default; a `long` has 64 bits. -/
def envNumber (key : String) (default : String) : Int :=
  (strtoll (envOrDefault getenv key default)).1

inductive StorageConfig where
  | localFiles (storagePath : CString)
  | supabase (url anonKey serviceKey bucket : CString)
deriving DecidableEq

inductive DatabaseConfig where
  | sqlite (dbPath : CString)
  | postgres (host port db user password sslMode : CString)
deriving DecidableEq

/-- `config_load_storage`, with or without `HAVE_POSTGRES`. -/
def configLoadStorage (havePostgres : Bool) : Option StorageConfig :=
  if envOrDefault getenv "STORAGE_BACKEND" "local" = lit "supabase" then
    if havePostgres then do
      let sbUrl ← requireEnv (getenv (lit "SUPABASE_URL"))
      let url :=
        if !sbUrl.startsWith (lit "http://") && !sbUrl.startsWith (lit "https://") then
          lit "https://" ++ sbUrl
        else sbUrl
      let sbKey ← requireEnv (getenv (lit "SUPABASE_ANON_KEY"))
      let sbSvc := (requireEnv (getenv (lit "SUPABASE_SERVICE_KEY"))).getD sbKey
      some (.supabase (snprintf maxUrlLen url) (snprintf maxTokenLen sbKey)
        (snprintf maxTokenLen sbSvc)
        (snprintf maxPathLen (envOrDefault getenv "SUPABASE_BUCKET" "receipts")))
    else none
  else some (.localFiles (snprintf maxPathLen (envOrDefault getenv "STORAGE_PATH" "/data/files")))

def configLoadDatabase (havePostgres : Bool) : Option DatabaseConfig :=
  if envOrDefault getenv "DB_BACKEND" "sqlite" = lit "postgres" then
    if havePostgres then do
      let host ← requireEnv (getenv (lit "POSTGRES_HOST"))
      let db ← requireEnv (getenv (lit "POSTGRES_DB"))
      let user ← requireEnv (getenv (lit "POSTGRES_USER"))
      let pass ← requireEnv (getenv (lit "POSTGRES_PASSWORD"))
      some (.postgres (snprintf maxPathLen host)
        (snprintf 16 (envOrDefault getenv "POSTGRES_PORT" "5432")) (snprintf maxPathLen db)
        (snprintf maxPathLen user) (snprintf maxTokenLen pass)
        (snprintf 16 (envOrDefault getenv "POSTGRES_SSL_MODE" "require")))
    else none
  else some (.sqlite (snprintf maxPathLen (envOrDefault getenv "DB_PATH" "/data/bot.db")))

end Environment

def isTrimmed (b : UInt8) : Bool := b == 32 || b == 9

/-- `while (len > 0 && ...) tok[--len] = 0`, from a given `len` on. -/
def trimTrailing (tok : CString) : Nat → CString
  | 0 => tok.take 0
  | len + 1 => if isTrimmed (tok.bytes.getD len 0) then trimTrailing tok len else tok.take (len + 1)

def trimToken (tok : CString) : CString :=
  let tok : CString :=
    ⟨tok.bytes.dropWhile isTrimmed, fun h => tok.nulFree ((List.dropWhile_suffix _).subset h)⟩
  trimTrailing tok tok.length

/-- The loop over the tokens, with the slots of `gemini_models` that are left. -/
def modelTokens (room : Nat) (buf : CString) : List CString :=
  match _cut : strtokR 44 buf with
  | none => []
  | some (tok, rest) =>
      match room with
      | 0 => []
      | room + 1 =>
          let tok := trimToken tok
          if tok.length > 0 then snprintf geminiMaxModelLen tok :: modelTokens room rest
          else modelTokens (room + 1) rest
termination_by buf.length
decreasing_by all_goals exact length_lt_of_strtokR _cut

/-- The models of the buttons: those of the list or else the one model that is configured. -/
def configLoadModels (modelsCsv geminiModel : CString) : List CString :=
  let models := modelTokens maxGeminiModels (snprintf geminiModelsBuf modelsCsv)
  if models.length = 0 then [snprintf geminiMaxModelLen geminiModel] else models

/-- The fields of `Config`; those of the superstructure are the ones the handlers read. -/
structure LoadedConfig extends Config where
  telegramToken : CString
  geminiApiKey : CString
  geminiModel : CString
  geminiFallbackModel : CString
  geminiFallbackEnabled : Bool
  storage : StorageConfig
  database : DatabaseConfig
  telegramApiBase : CString
  telegramFileBase : CString
  telegramPollTimeoutSecs : Int
  telegramHttpTimeoutSecs : Int
  telegramDownloadTimeoutSecs : Int
  telegramReconnectDelaySecs : Int
  telegramRetryDelaySecs : Int
  geminiApiBase : CString
  geminiHttpTimeoutSecs : Int
  geminiConnectTimeoutSecs : Int

/-- The configuration, or nothing where `config_load` returns -1. -/
def configLoad (havePostgres : Bool) (getenv : CString → Option CString) : Option LoadedConfig := do
  let token ← requireEnv (getenv (lit "TELEGRAM_TOKEN"))
  let geminiKey ← requireEnv (getenv (lit "GEMINI_API_KEY"))
  let allowedUsers ← configLoadUsers (getenv (lit "ALLOWED_USER_IDS"))
  let geminiModel := snprintf maxModelLen (envOrDefault getenv "GEMINI_MODEL" "gemini-2.5-flash")
  let fbEnabled := envOrDefault getenv "GEMINI_FALLBACK_ENABLED" "0"
  let storage ← configLoadStorage getenv havePostgres
  let database ← configLoadDatabase getenv havePostgres
  some {
    telegramToken := snprintf maxTokenLen token
    geminiApiKey := snprintf maxTokenLen geminiKey
    geminiModel
    geminiFallbackModel :=
      snprintf maxModelLen (envOrDefault getenv "GEMINI_FALLBACK_MODEL" "gemma-3-27b-it")
    geminiFallbackEnabled := fbEnabled = lit "1" || fbEnabled = lit "true"
    storage
    database
    allowedUsers
    telegramApiBase := snprintf maxUrlLen
      (envOrDefault getenv "TELEGRAM_API_BASE" "https://api.telegram.org/bot")
    telegramFileBase := snprintf maxUrlLen
      (envOrDefault getenv "TELEGRAM_FILE_BASE" "https://api.telegram.org/file/bot")
    telegramPollTimeoutSecs := envNumber getenv "TELEGRAM_POLL_TIMEOUT" "30"
    telegramHttpTimeoutSecs := envNumber getenv "TELEGRAM_HTTP_TIMEOUT" "60"
    telegramDownloadTimeoutSecs := envNumber getenv "TELEGRAM_DOWNLOAD_TIMEOUT" "120"
    telegramReconnectDelaySecs := envNumber getenv "TELEGRAM_RECONNECT_DELAY" "5"
    telegramRetryDelaySecs := envNumber getenv "TELEGRAM_RETRY_DELAY" "2"
    maxFileSizeBytes := envNumber getenv "MAX_FILE_MB" "20" * 1024 * 1024 % 2 ^ 64
    geminiApiBase := snprintf geminiUrlBufLen
      (envOrDefault getenv "GEMINI_API_BASE"
        "https://generativelanguage.googleapis.com/v1beta/models")
    geminiHttpTimeoutSecs := envNumber getenv "GEMINI_HTTP_TIMEOUT" "600"
    geminiConnectTimeoutSecs := envNumber getenv "GEMINI_CONNECT_TIMEOUT" "15"
    geminiModels := configLoadModels
      (envOrDefault getenv "GEMINI_MODELS"
        "gemma-3-12b-it,gemma-3-27b-it,gemini-2.0-flash,gemini-2.5-flash")
      geminiModel }

end Kaufbot
