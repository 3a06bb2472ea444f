import Kaufbot.Storage.Local
import Kaufbot.Storage.Names

/-!
The document store: documents under generated ids, and texts next to them
under names built from the id and the kind of text. The storage behind it is a
map from names to contents; the buffer for the id is the caller's.
-/

namespace Kaufbot

open CString

inductive DocStoreError where
  | memory
  | invalidArg
  | storage
  | notFound
deriving DecidableEq

/-- `saved_name`, made from the clock and the extension of the original name. -/
def storageDocSavedName (zone : TimeZone) (now : Int) (originalName : CString) : CString :=
  storageGenFilename zone now (uploadExtension originalName) maxFilename

/-- The new storage and, on success, what the caller finds in `out_doc_id`. -/
def storageDocStoreDocument (outcome : WriteOutcome) (zone : TimeZone) (now : Int)
    (storage : Storage) (originalName : CString) (data : List UInt8) (docIdLen : Nat) :
    Storage × Except DocStoreError CString :=
  let savedName := storageDocSavedName zone now originalName
  let (storage, rc) := localSaveFile outcome storage savedName data
  (storage, if rc ≠ 0 then .error .storage else .ok (snprintf docIdLen savedName))

/-- `{doc_id}_{text_type}.txt` -/
def storageDocTextFilename (docId textType : CString) : CString :=
  snprintf maxFilename (.concat [docId, lit "_", textType, lit ".txt"])

def storageDocStoreText (outcome : WriteOutcome) (storage : Storage)
    (docId textType text : CString) : Storage × Except DocStoreError Unit :=
  let (storage, rc) := localSaveText outcome storage (storageDocTextFilename docId textType) text
  (storage, if rc ≠ 0 then .error .storage else .ok ())

def storageDocReadText (outcome : ReadOutcome) (storage : Storage) (docId textType : CString) :
    Option CString :=
  localReadText outcome storage (storageDocTextFilename docId textType)

/-- Best effort: what the storage answers to the three removals is not looked at. -/
def storageDocDelete (document ocr parsed : RemoveOutcome) (storage : Storage) (docId : CString) :
    Storage × Except DocStoreError Unit :=
  let (storage, _) := localDeleteFile document storage docId
  let (storage, _) := localDeleteFile ocr storage
    (snprintf maxFilename (.concat [docId, lit "_ocr.txt"]))
  let (storage, _) := localDeleteFile parsed storage
    (snprintf maxFilename (.concat [docId, lit "_parsed.txt"]))
  (storage, .ok ())

def storageDocExists (storage : Storage) (docId : CString) : Int := localFileExists storage docId

/-- The files a deletion removes: the document, its extracted text and its parsed receipt. -/
def storageDocFiles (docId : CString) : List CString :=
  [docId, storageDocTextFilename docId (lit "ocr"), storageDocTextFilename docId (lit "parsed")]

theorem storageDocDelete_done (storage : Storage) (docId name : CString) :
    (storageDocDelete .done .done .done storage docId).1 name =
      if name ∈ storageDocFiles docId then none else storage name := by
  have ocr : CString.concat [lit "_", lit "ocr", lit ".txt"] = .concat [lit "_ocr.txt"] := by
    decide
  have parsed :
      CString.concat [lit "_", lit "parsed", lit ".txt"] = .concat [lit "_parsed.txt"] := by
    decide
  have text (suffix : CString) {parts : List CString}
      (h : CString.concat parts = .concat [suffix]) :
      CString.concat (docId :: parts) = .concat [docId, suffix] := congrArg (docId ++ ·) h
  rw [storageDocFiles, storageDocTextFilename, storageDocTextFilename, text _ ocr, text _ parsed]
  simp only [storageDocDelete, localDeleteFile_done, Storage.remove, List.mem_cons,
    List.not_mem_nil, or_false]
  by_cases document : name = docId
  · simp [document]
  · by_cases name = snprintf maxFilename (.concat [docId, lit "_ocr.txt"]) <;> simp [*]

end Kaufbot
