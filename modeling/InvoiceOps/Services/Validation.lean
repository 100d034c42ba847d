/-
The rule set over one invoice: VALIDATING to VALIDATED, or to FAILED when
there is nothing to validate.
-/
import InvoiceOps.Services.Matching

namespace InvoiceOps

/-- Statuses of an invoice that does not compete for its number. -/
def excludedFromDuplicateCheck (s : InvoiceStatus) : Bool := s == .failed || s == .rejected

/-- The other invoices with a match row for the vendor. -/
def otherIds (invoiceId vendorId : Uuid) (d : DB) : List Uuid :=
  (d.invoices.rows.filter fun o =>
    o.id ≠ invoiceId ∧ o.invoiceMatches.any fun m => m.vendorId = some vendorId).map (·.id)

/-- `other_number and other_number.strip().lower() == normalized`, for the
number of the latest successful extraction. -/
def sameNumber (py : Py) (normalized : String) (extractions : List Extraction) : Option String :=
  match ((latestSuccessfulExtraction extractions).bind (·.resultJson)).bind (·.invoice.invoiceNumber) with
  | some number => if number ≠ "" ∧ py.lower (py.strip number) = normalized then some number else none
  | none => none

/-- The loop over `other_ids`. -/
def collectCandidates (env : Env) (normalized : String) : List Uuid → Tx (List DuplicateCandidate)
  | [] => return []
  | otherId :: rest => do
    match ← Tx.getInvoice otherId with
    | none => collectCandidates env normalized rest
    | some other =>
      if excludedFromDuplicateCheck other.status then collectCandidates env normalized rest
      else
        let extractions ← Tx.children other.id (·.extractions)
        match sameNumber env.py normalized extractions with
        | none => collectCandidates env normalized rest
        | some number =>
          let candidates ← collectCandidates env normalized rest
          return ⟨other.id, number, other.status.value⟩ :: candidates

def findDuplicateCandidates (env : Env) (invoice : Invoice) (vendorId : Uuid) (invoiceNumber : String) :
    Tx (List DuplicateCandidate) := do
  let normalized := env.py.lower (env.py.strip invoiceNumber)
  let ids ← Txn.query (otherIds invoice.id vendorId)
  collectCandidates env normalized ids

/-- The PO of a match row, as the rules see it. -/
def poSnapshot (po : PurchaseOrder) : PoSnapshot := ⟨po.poNumber, po.currency, po.total.toDecimal, po.vendorId⟩

def matchedPo (row : Option InvoiceMatch) : Tx (Option PoSnapshot) :=
  match row.bind (·.poId) with
  | none => return none
  | some poId => Txn.query fun d => (d.purchaseOrders.get? poId).map poSnapshot

/-- The duplicate check, where there is a vendor and a number to check. -/
def duplicateCandidates (env : Env) (invoice : Invoice) (row : Option InvoiceMatch)
    (extracted : ExtractedInvoice) : Tx (List DuplicateCandidate) :=
  match row.bind (·.vendorId) with
  | none => return []
  | some vendorId =>
    if Py.truthy extracted.invoiceNumber then
      findDuplicateCandidates env invoice vendorId (extracted.invoiceNumber.getD "")
    else return []

def pyBool (b : Bool) : String := if b then "True" else "False"

def runValidation (env : Env) (invoiceId : Uuid) : Tx (Option Validation) := do
  match ← Tx.getInvoice invoiceId with
  | none => Tx.raise (.valueError ("invoice " ++ invoiceId.str ++ " not found"))
  | some invoice =>
    if invoice.status ≠ .validating then return none
    else
      let extractions ← Tx.children invoice.id (·.extractions)
      match (latestSuccessfulExtraction extractions).bind (·.resultJson) with
      | none =>
        let reason := some "no successful extraction to validate"
        let invoice ← setFailureReason invoice reason
        let _ ← advance invoice .failed "system" reason
        return none
      | some result =>
        let extracted := result.invoice
        let rows ← Tx.children invoice.id (·.invoiceMatches)
        let row := latestMatch rows
        let po ← matchedPo row
        let candidates ← duplicateCandidates env invoice row extracted
        let results ← Txn.ofExcept
          ((runRules env.py ⟨extracted, po, row.bind (·.vendorId), candidates⟩).mapError .decimalSignal)
        let validation : Validation := ⟨results, !hasBlockingFailure results⟩
        Tx.updateInvoice invoice.id fun r => { r with validations := r.validations ++ [validation] }
        let _ ← advance invoice .validated "system"
          (some (Nat.repr results.length ++ " rules evaluated, passed=" ++ pyBool validation.passed))
        return some validation

end InvoiceOps
