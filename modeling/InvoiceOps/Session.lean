/-
What a service runs in: the settings, the parts of the outside it calls,
the message queue, and a database session as a `Txn`.
-/
import InvoiceOps.Lib.Txn
import InvoiceOps.Models
import InvoiceOps.Storage

namespace InvoiceOps

structure Settings where
  storageBackend : StorageBackend
  /-- `storage_local_dir`, resolved. -/
  storageLocalDir : List String
  maxUploadBytes : Nat
  allowedUploadContentTypes : List String
  openrouterApiKey : Option String
  llmModel : String
  llmMaxRetries : Int
  exportSigningSecret : String

/-- What `json.loads` and then `ExtractionResult.model_validate` make of a
response. `raised` is any exception that is neither a `JSONDecodeError` nor
a `ValidationError`: text nested too deep, an integer with too many digits. -/
inductive ParsedReply where
  | accepted (result : ExtractionResult)
  | notJson (error : String)
  | schemaViolation (error : String)
  | raised (error : String)

structure Env where
  py : Py
  settings : Settings
  /-- `json.dumps(result_json_schema())` -/
  resultJsonSchema : String
  parseReply : String → ParsedReply
  /-- The pages `pdfplumber` finds, each as `page.extract_text() or ""`, or
  what it raises. -/
  pdfPages : Bytes → Except String (List String)

/-- The location of an object in the storage the settings name. -/
def Env.locate (env : Env) (key : String) : Except Exn Location :=
  Storage.locate env.py env.settings.storageBackend env.settings.storageLocalDir key

inductive TaskName where
  | extractInvoice
  | matchInvoice
  | validateInvoice
  | approveInvoice
  | exportInvoice
  deriving DecidableEq

/-- A queued task. -/
structure Message where
  task : TaskName
  invoiceId : Uuid
  deriving DecidableEq

abbrev World := Txn.World DB Disk Message

/-- A program in one database session. -/
abbrev Tx := Txn DB Disk Message Exn

namespace Tx

variable {α : Type}

def raise (e : Exn) : Tx α := Txn.raise e

/-- `session.get(Invoice, id)` -/
def getInvoice (id : Uuid) : Tx (Option Invoice) := Txn.query fun d => d.invoice id

/-- `invoice.extractions` and its like, loaded when first used. -/
def children (id : Uuid) (rows : Invoice → List α) : Tx (List α) :=
  Txn.query fun d => ((d.invoice id).map rows).getD []

/-- Writes to one invoice row. -/
def updateInvoice (id : Uuid) (f : Invoice → Invoice) (hf : ∀ r, (f r).id = r.id := by intros; rfl) : Tx Unit :=
  Txn.update fun d => d.update id f hf

/-- `get_storage().get_object(key)` -/
def getObject (env : Env) (key : String) : Tx Bytes := do
  let data ← Txn.queryExt
    (Storage.getObject env.py env.settings.storageBackend env.settings.storageLocalDir key)
  Txn.ofExcept data

/-- `get_storage().put_object(key, data, content_type)` -/
def putObject (env : Env) (key : String) (data : Bytes) : Tx Unit :=
  match env.settings.storageBackend with
  | .local => do
    let path ← Txn.ofExcept (Storage.path env.py env.settings.storageLocalDir key)
    Txn.effect (Disk.mkdirs path)
    Txn.effect (Disk.writeBytes key path data)
  | .s3 => Txn.effect (Disk.putKey key data)

/-- Commit on success, roll back on exception. -/
def sessionScope (body : Tx α) : Tx α :=
  Txn.tryCatch
    (do let a ← body
        Txn.commitNow
        return a)
    fun e => do
      Txn.rollbackNow
      raise e

end Tx

end InvoiceOps
