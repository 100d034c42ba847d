/-
The one place an invoice's status changes: every change adds an audit row
first.
-/
import InvoiceOps.Session

namespace InvoiceOps

/-- The session's row once its status is assigned. -/
def Invoice.setStatus (invoice : Invoice) (status : InvoiceStatus) : Invoice := { invoice with status }

def Invoice.setFailureReason (invoice : Invoice) (failureReason : Option String) : Invoice :=
  { invoice with failureReason }

/-- Moves `invoice`, as the session holds it, to `target`. -/
def advance (invoice : Invoice) (target : InvoiceStatus) (actor : String) (reason : Option String) : Tx Invoice :=
  if invoice.status.canTransition target then do
    Tx.updateInvoice invoice.id fun r =>
      { r with auditLog := r.auditLog ++ [⟨invoice.status, target, actor, reason⟩] }
    Tx.updateInvoice invoice.id fun r => r.setStatus target
    return invoice.setStatus target
  else Tx.raise (.illegalTransition invoice.status target)

/-- `invoice.failure_reason = reason`: the column is written when its value
changes. -/
def setFailureReason (invoice : Invoice) (reason : Option String) : Tx Invoice :=
  if invoice.failureReason = reason then return invoice
  else do
    Tx.updateInvoice invoice.id fun r => r.setFailureReason reason
    return invoice.setFailureReason reason

end InvoiceOps
