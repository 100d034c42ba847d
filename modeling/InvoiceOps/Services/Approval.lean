/-
A validated invoice becomes an approve or review decision; and the human
decision that follows a review.
-/
import InvoiceOps.Domain.Approval
import InvoiceOps.Services.Validation

namespace InvoiceOps

/-- Match methods that count as confidently identified. -/
def identifiedMethods : List VendorMatchMethod := [.taxId, .exactName, .fuzzyName]

def latestValidation (validations : List Validation) : Option Validation := validations.getLast?

/-- `bool(match and match.vendor_id and match.vendor_match_method in _IDENTIFIED_METHODS)` -/
def vendorIdentified (row : Option InvoiceMatch) : Bool :=
  match row with
  | some row => row.vendorId.isSome && identifiedMethods.contains row.vendorMatchMethod
  | none => false

/-- `bool(match and match.po_id)` -/
def hasPo (row : Option InvoiceMatch) : Bool := (row.bind (·.poId)).isSome

/-- `"; ".join(reasons) if reasons else "all checks passed"` -/
def decisionReason (decision : ApprovalDecision) : String :=
  if decision.reasons.isEmpty then "all checks passed" else Py.join "; " decision.reasons

def runApproval (invoiceId : Uuid) : Tx (Option ApprovalDecision) := do
  match ← Tx.getInvoice invoiceId with
  | none => Tx.raise (.valueError ("invoice " ++ invoiceId.str ++ " not found"))
  | some invoice =>
    if invoice.status ≠ .validated then return none
    else
      let validation ← latestValidation <$> Tx.children invoice.id (·.validations)
      let extraction ← latestSuccessfulExtraction <$> Tx.children invoice.id (·.extractions)
      let row ← latestMatch <$> Tx.children invoice.id (·.invoiceMatches)
      match validation, extraction with
      | some validation, some extraction =>
        let decision := decideApproval validation.passed (vendorIdentified row) (hasPo row)
          (extraction.fieldConfidence.getD .empty)
        let _ ← advance invoice decision.outcome "system" (some (decisionReason decision))
        return some decision
      | _, _ =>
        let reason := some "missing validation or extraction data for approval"
        let invoice ← setFailureReason invoice reason
        let _ ← advance invoice .failed "system" reason
        return none

/-- NEEDS_REVIEW to APPROVED or REJECTED; from any other status `advance`
raises. -/
def recordHumanDecision (invoiceId : Uuid) (approve : Bool) (actor : String) (reason : Option String) :
    Tx Invoice := do
  match ← Tx.getInvoice invoiceId with
  | none => Tx.raise (.valueError ("invoice " ++ invoiceId.str ++ " not found"))
  | some invoice => advance invoice (if approve then .approved else .rejected) actor reason

def approveAndExport (invoiceId : Uuid) (actor : String) (reason : Option String) : Tx Invoice := do
  let invoice ← recordHumanDecision invoiceId true actor reason
  -- Committed before enqueuing: the export task opens its own session.
  Txn.commitNow
  Txn.post ⟨.exportInvoice, invoice.id⟩
  return invoice

end InvoiceOps
