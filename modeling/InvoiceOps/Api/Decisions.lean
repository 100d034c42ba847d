/-
The endpoints, JSON and HTML, that upload a document or record a human
decision: each runs in a session scope of its own. On a refused decision
the JSON endpoint raises, so its scope rolls back; the form endpoint
redirects, so its scope commits.
-/
import InvoiceOps.Workers.Tasks

namespace InvoiceOps

/-- `upload_invoice` -/
def uploadInvoice (env : Env) (id : Uuid) (data : Bytes) (filename contentType : Option String) : Tx Unit :=
  Tx.sessionScope do
    let contentType := orElseText (contentType.getD "") "application/octet-stream"
    match validateUpload env.settings data contentType with
    | .error (.uploadRejected statusCode detail) => Tx.raise (.httpException statusCode detail)
    | .error e => Tx.raise e
    | .ok () =>
      let _ ← ingestUpload env id data (orElseText (filename.getD "") "upload.bin") contentType
      return ()

/-- `ui_upload`: a rejected upload is a redirect. -/
def uiUpload (env : Env) (id : Uuid) (data : Bytes) (filename contentType : Option String) : Tx Unit :=
  Tx.sessionScope do
    let contentType := orElseText (contentType.getD "") "application/octet-stream"
    match validateUpload env.settings data contentType with
    | .error (.uploadRejected _ _) => return ()
    | .error e => Tx.raise e
    | .ok () =>
      let _ ← ingestUpload env id data (orElseText (filename.getD "") "upload.bin") contentType
      return ()

/-- The service call behind both decision buttons. -/
def decideService (invoiceId : Uuid) (approve : Bool) (actor : String) (reason : Option String) : Tx Invoice :=
  if approve then approveAndExport invoiceId actor reason
  else recordHumanDecision invoiceId false actor reason

/-- `_record_decision` -/
def recordDecision (invoiceId : Uuid) (approve : Bool) (actor : String) (reason : Option String) : Tx Unit :=
  Tx.sessionScope do
    let _ ← Txn.tryCatch (decideService invoiceId approve actor reason) fun
      | .valueError message => Tx.raise (.httpException 404 message)
      | e => if e.isRuntimeError then Tx.raise (.httpException 409 e.str) else Tx.raise e
    return ()

/-- `_decide` -/
def uiDecide (env : Env) (invoiceId : Uuid) (approve : Bool) (actor reason : String) : Tx Unit :=
  Tx.sessionScope do
    let cleanActor := orElseText (env.py.strip actor) "reviewer"
    let cleanReason := if env.py.strip reason = "" then none else some (env.py.strip reason)
    Txn.tryCatch
      (do let _ ← decideService invoiceId approve cleanActor cleanReason
          return ())
      fun
      | .valueError _ => return ()
      | e => if e.isRuntimeError then return () else Tx.raise e

/-! ## Operations -/

/-- What runs on an invoice that is there: a delivery of one of its tasks,
or a human decision. The provider's answers, the uuid and the time that a
call draws are its arguments. -/
inductive Call where
  | extract (provider : Llm)
  | matchVendor
  | validate
  | approve
  | export (key : Uuid) (now : String)
  | decide (isApproval : Bool) (actor : String) (reason : Option String)
  | decideForm (isApproval : Bool) (actor reason : String)

def Call.prog (env : Env) (id : Uuid) : Call → Tx Unit
  | .extract provider => extractInvoice env provider id
  | .matchVendor => matchInvoice env id
  | .validate => validateInvoice env id
  | .approve => approveInvoice id
  | .export key now => exportInvoice env key now id
  | .decide isApproval actor reason => recordDecision id isApproval actor reason
  | .decideForm isApproval actor reason => uiDecide env id isApproval actor reason

/-- Everything that runs against the database; `id` is the uuid of the new
row, or of the invoice called. -/
inductive Op where
  | upload (id : Uuid) (data : Bytes) (filename contentType : Option String)
  | uploadForm (id : Uuid) (data : Bytes) (filename contentType : Option String)
  | call (id : Uuid) (c : Call)

def Op.prog (env : Env) : Op → Tx Unit
  | .upload id data filename contentType => uploadInvoice env id data filename contentType
  | .uploadForm id data filename contentType => uiUpload env id data filename contentType
  | .call id c => c.prog env id

end InvoiceOps
