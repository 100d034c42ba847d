/-
An uploaded document becomes an invoice row, keyed on the SHA-256 of its
bytes: the same file uploaded twice yields the same invoice.
-/
import InvoiceOps.Services.Lifecycle
import InvoiceOps.Lib.Sha256

namespace InvoiceOps

structure IngestResult where
  invoice : Invoice
  created : Bool

def validateUpload (settings : Settings) (data : Bytes) (contentType : String) : Except Exn Unit :=
  if !settings.allowedUploadContentTypes.contains contentType then
    .error (.uploadRejected 415 ("unsupported content type: " ++ contentType))
  else if data.isEmpty then .error (.uploadRejected 400 "empty file")
  else if settings.maxUploadBytes < data.length then
    .error (.uploadRejected 413 ("file exceeds " ++ Nat.repr settings.maxUploadBytes ++ " bytes"))
  else .ok ()

/-- `hashlib.sha256(data).hexdigest()` -/
def sha256Hex (data : Bytes) : String := hexdigest (Sha256.digest data)

/-- `filename.replace("\\", "/").rsplit("/", 1)[-1] or "upload.bin"` -/
def baseName (filename : String) : String :=
  let name := String.ofList
    (filename.toList.reverse.takeWhile fun c => c ≠ '/' ∧ c ≠ '\\').reverse
  if name = "" then "upload.bin" else name

/-- `_storage_key` -/
def storageKey (digest filename : String) : String :=
  "raw/" ++ String.ofList (digest.toList.take 2) ++ "/" ++ digest ++ "/" ++ baseName filename

def findByDigest (digest : String) (d : DB) : Option Invoice :=
  d.invoices.rows.find? fun inv => inv.contentSha256 = digest

/-- `INSERT`: refused when the id or the digest is taken. -/
def insertable (invoice : Invoice) (d : DB) : Bool :=
  (d.invoice invoice.id).isNone && (findByDigest invoice.contentSha256 d).isNone

def newInvoice (id : Uuid) (data : Bytes) (filename contentType : String) : Invoice where
  id := id
  status := .received
  source := .upload
  originalFilename := filename
  contentType := contentType
  sizeBytes := data.length
  storageKey := storageKey (sha256Hex data) filename
  contentSha256 := sha256Hex data
  failureReason := none
  extractions := []
  invoiceMatches := []
  validations := []
  auditLog := []
  exports := []

/-- `session.flush()` of a new invoice. -/
def flushInsert (invoice : Invoice) : Tx Unit := do
  if ← Txn.query (insertable invoice) then
    Txn.update fun d => { d with invoices := d.invoices.insert invoice }
  else Tx.raise .integrityError

/-- `id` is the `uuid4` of the new row. -/
def ingestUpload (env : Env) (id : Uuid) (data : Bytes) (filename contentType : String) : Tx IngestResult := do
  let digest := sha256Hex data
  match ← Txn.query (findByDigest digest) with
  | some existing => return ⟨existing, false⟩
  | none =>
    Tx.putObject env (storageKey digest filename) data
    let invoice := newInvoice id data filename contentType
    let inserted ← Txn.tryCatch (some <$> flushInsert invoice) fun
      | .integrityError => return none
      | e => Tx.raise e
    match inserted with
    | none =>
      -- A concurrent request inserted the same bytes first.
      Txn.rollbackNow
      match ← Txn.query (findByDigest digest) with
      | none => Tx.raise .integrityError
      | some winner => return ⟨winner, false⟩
    | some () =>
      -- Committed before enqueuing: the extraction task opens its own session.
      Txn.commitNow
      Txn.post ⟨.extractInvoice, id⟩
      return ⟨invoice, true⟩

end InvoiceOps
