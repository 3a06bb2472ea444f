import Kaufbot.Infra.FileRepository
import Kaufbot.Storage.Local
import Kaufbot.Cjson

/-!
What the file pipelines act on, and what their surroundings answer. A `World`
is the database, the storage directory and the log of the requests that leave
the process. `Externals` gives every call one operation makes to the clock, the
disk, the database and the network its own answer, so a property of all
operations under all `Externals` covers every pattern of failures.

Memory allocation succeeds, the arguments the callers never pass as NULL are not
optional, and a reply buffer has room for its terminating NUL.
-/

namespace Kaufbot

/-- A request for which the bot is billed, or a download. -/
inductive Request where
  | extractText (data : List UInt8) (filename : CString)
  | extractTextWithModel (data : List UInt8) (filename model : CString)
  | parseReceipt (ocrText : CString)
  | getFilePath (fileId : CString)
  | downloadFile (filePath : CString)
deriving DecidableEq

@[ext] structure World where
  db : Database
  storage : Storage
  requests : List Request

inductive OcrError where
  | ok
  | memory
  | invalidArg
  | api
  | timeout
  | rateLimited
  | noText
  | parse
deriving DecidableEq

/-- The code an OCR call returns and the text it leaves in its output. -/
structure OcrReply where
  error : OcrError
  text : Option CString
deriving DecidableEq

/-- What the callers accept: `rc == OCR_OK` and a text. -/
def OcrReply.accepted (reply : OcrReply) : Option CString :=
  if reply.error = .ok then reply.text else none

/-- The answers to the external calls of one operation, one field for each call site. -/
structure Externals where
  nameTime : Int
  insertTime : Int
  markOcrTime : Int
  markParsingTime : Int
  findByHash : SqlOutcome
  findById : SqlOutcome
  insert : SqlOutcome
  markOcr : SqlOutcome
  checkParsed : SqlOutcome
  writeParsed : SqlOutcome
  deleteRow : SqlOutcome
  saveFile : WriteOutcome
  saveText : WriteOutcome
  readText : ReadOutcome
  readBinary : ReadOutcome
  deleteSaved : RemoveOutcome
  deleteOcr : RemoveOutcome
  extract : OcrReply
  parse : OcrReply
  lastTokens : Int
  filePath : Option CString
  download : Option (List UInt8)
  listDelivered : Option Nat

namespace Externals

/-- Every call succeeds at the clock reading `now`, and the service extracts and parses. -/
def working (now : Int) (text json : CString) : Externals where
  nameTime := now
  insertTime := now
  markOcrTime := now
  markParsingTime := now
  findByHash := .ok
  findById := .ok
  insert := .ok
  markOcr := .ok
  checkParsed := .ok
  writeParsed := .ok
  deleteRow := .ok
  saveFile := .complete
  saveText := .complete
  readText := .complete
  readBinary := .complete
  deleteSaved := .done
  deleteOcr := .done
  extract := { error := .ok, text := some text }
  parse := { error := .ok, text := some json }
  lastTokens := 0
  filePath := none
  download := none
  listDelivered := none

end Externals

namespace World

def empty : World := { db := .empty, storage := .empty, requests := [] }

def request (w : World) (r : Request) : World := { w with requests := w.requests ++ [r] }

variable (w : World) (r : Request)

@[simp] theorem request_db : (w.request r).db = w.db := rfl

@[simp] theorem request_storage : (w.request r).storage = w.storage := rfl

@[simp] theorem request_requests : (w.request r).requests = w.requests ++ [r] := rfl

end World

end Kaufbot
