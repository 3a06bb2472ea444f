import Kaufbot.Library.Runs
import Kaufbot.Library.CString
import Kaufbot.Library.Printf
import Kaufbot.Library.Strtok
import Kaufbot.Library.Calendar
import Kaufbot.Library.Keyed
import Kaufbot.Library.Slots
import Kaufbot.Library.Ledger
import Kaufbot.Library.Machine
import Kaufbot.Library.Pairing
import Kaufbot.Library.Base64
import Kaufbot.Library.JsonText
import Kaufbot.Library.Fips180
import Kaufbot.Cjson
import Kaufbot.Storage.Sha256
import Kaufbot.Storage.Names
import Kaufbot.Storage.Local
import Kaufbot.Db.Tables
import Kaufbot.Db.Sqlite
import Kaufbot.Telegram.ReplyBuilder
import Kaufbot.Infra.FileRepository
import Kaufbot.Infra.MemoryRepository
import Kaufbot.Infra.HttpClient
import Kaufbot.Infra.EventBus
import Kaufbot.Infra.DocumentStore
import Kaufbot.Ocr.GeminiText
import Kaufbot.Utils
import Kaufbot.Config
import Kaufbot.Ocr.Gemini
import Kaufbot.Ocr.PromptFetcher
import Kaufbot.Db.Prompts
import Kaufbot.Processor.Receipt
import Kaufbot.Processor.World
import Kaufbot.Processor.Pipeline
import Kaufbot.Telegram.BotCommands
import Kaufbot.Telegram.Keyboard
import Kaufbot.Telegram.Mediation
import Kaufbot.Processor.Effects
import Kaufbot.Guarantees.Upload
import Kaufbot.Guarantees.Operations
import Kaufbot.Guarantees.Deletion
import Kaufbot.Guarantees.ReportedSuccess
import Kaufbot.Guarantees.Idempotence
import Kaufbot.Guarantees.ImageIntegrity
import Kaufbot.Guarantees.Isolation
import Kaufbot.Guarantees.OcrText
import Kaufbot.Guarantees.RateLimit
import Kaufbot.Library.Feed
import Kaufbot.Telegram.Bot
import Kaufbot.Library.Redelivery
import Kaufbot.Telegram.Restarts
import Kaufbot.Telegram.Instruction
import Kaufbot.Guarantees.Subscriptions
import Kaufbot.Guarantees.MemoryMap
import Kaufbot.Guarantees.Buttons
import Kaufbot.Guarantees.Recovery
import Kaufbot.Guarantees.PromptChanges
import Kaufbot.Guarantees.ModelChoice
import Kaufbot.Guarantees.TestDouble
import Kaufbot.Guarantees.StorageBackends
import Kaufbot.Guarantees.DatabaseBackends
import Kaufbot.Guarantees.FailedCalls
import Kaufbot.Guarantees.Encoding
import Kaufbot.Guarantees.FenceStripping
import Kaufbot.Guarantees.Whitelist
import Kaufbot.Guarantees.QuietPolls
import Kaufbot.Guarantees.Digest
import Kaufbot.Guarantees.ReplyBounds
import Kaufbot.Guarantees.TotalsCheck
import Kaufbot.Guarantees.Documents
import Kaufbot.Library.Streak
import Kaufbot.Infra.RetryLoop
import Kaufbot.Guarantees.Retries
import Kaufbot.Library.Percent
import Kaufbot.Guarantees.UrlEncoding
import Kaufbot.Environment
import Kaufbot.Guarantees.ModelList
import Kaufbot.Library.TextBuffer
import Kaufbot.Guarantees.ListReply
import Kaufbot.Library.Paths
import Kaufbot.Guarantees.FileNames
import Kaufbot.Library.LiveList
import Kaufbot.Guarantees.Publishing
import Kaufbot.Library.Uri
import Kaufbot.Guarantees.UrlStructure
import Kaufbot.Library.Utf8
import Kaufbot.Library.LegacyMarkdown
import Kaufbot.Guarantees.ReplyParts
import Kaufbot.Guarantees.OutgoingText
import Kaufbot.Guarantees.ReplyMarkdown
import Kaufbot.Library.GrowArray
import Kaufbot.GrowBuf
import Kaufbot.Guarantees.ResponseBody
import Kaufbot.Library.StringScan
import Kaufbot.Ocr.GeminiBuffer
import Kaufbot.Guarantees.NormalForm
import Kaufbot.Library.FileTree
import Kaufbot.Storage.LocalDirs
import Kaufbot.Guarantees.StorageDirectory
import Kaufbot.Storage.SupabaseUrls
import Kaufbot.Guarantees.Authentication
import Kaufbot.Processor.Repositories
import Kaufbot.Guarantees.DuplicateHook
import Kaufbot.Guarantees.SameReply
import Kaufbot.Library.Numbering
import Kaufbot.Guarantees.BotRuns
import Kaufbot.Guarantees.FileEffects
import Kaufbot.Guarantees.Addressing
import Kaufbot.Guarantees.Identifiers
import Kaufbot.Guarantees.Billing
import Kaufbot.Library.Inventory
import Kaufbot.Guarantees.Reconciled
import Kaufbot.Telegram.Process
import Kaufbot.Guarantees.Notices
import Kaufbot.Guarantees.PrintedJson
import Kaufbot.Telegram.Payload
import Kaufbot.Guarantees.MessagesArrive
import Kaufbot.Guarantees.Provenance
import Kaufbot.Ocr.OcrService
import Kaufbot.Guarantees.StoredAnswers
import Kaufbot.Telegram.Fetch
import Kaufbot.Guarantees.Downloads
import Kaufbot.Guarantees.JsonStrings
import Kaufbot.Guarantees.JsonMeaning
import Kaufbot.Library.CalendarOrder
import Kaufbot.Guarantees.History
import Kaufbot.Guarantees.GeminiRequests
import Kaufbot.Library.Sampling
import Kaufbot.Db.PromptStore
import Kaufbot.Guarantees.PromptEdits
import Kaufbot.Guarantees.EditNotices
