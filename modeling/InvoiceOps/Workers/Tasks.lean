/-
The queued tasks: each runs its stage in a session of its own and, after
the commit, enqueues the next stage under its own condition.
-/
import InvoiceOps.Services.Export
import InvoiceOps.Services.Ingestion

namespace InvoiceOps

/-- `task.delay(str(invoice_id))` -/
def delay (task : TaskName) (invoiceId : Uuid) : Tx Unit := Txn.post ⟨task, invoiceId⟩

def extractInvoice (env : Env) (provider : Llm) (invoiceId : Uuid) : Tx Unit := do
  let outcome ← Tx.sessionScope do
    let extraction ← runExtraction env none provider invoiceId
    return extraction.map (·.ok)
  match outcome with
  | some true => delay .matchInvoice invoiceId
  | _ => return ()

def matchInvoice (env : Env) (invoiceId : Uuid) : Tx Unit := do
  let summary ← Tx.sessionScope do
    let row ← runMatching env invoiceId
    return row.map fun _ => ()
  match summary with
  | some () => delay .validateInvoice invoiceId
  | none => return ()

def validateInvoice (env : Env) (invoiceId : Uuid) : Tx Unit := do
  let outcome ← Tx.sessionScope do
    let validation ← runValidation env invoiceId
    return validation.map (·.passed)
  match outcome with
  | some _ => delay .approveInvoice invoiceId
  | none => return ()

def approveInvoice (invoiceId : Uuid) : Tx Unit := do
  let summary ← Tx.sessionScope do
    let decision ← runApproval invoiceId
    return decision.map (·.outcome)
  match summary with
  | some InvoiceStatus.autoApproved => delay .exportInvoice invoiceId
  | _ => return ()

def exportInvoice (env : Env) (key : Uuid) (now : String) (invoiceId : Uuid) : Tx Unit := do
  let _ ← Tx.sessionScope do
    let export? ← runExport env key now invoiceId
    return export?.map (·.storageKey)
  return ()

end InvoiceOps
