/-
The tables. The child rows of an invoice (`extractions`, `matches`: here
`invoiceMatches`, `validations`, `audit_log`, `exports`) stand in its
record, in the order they were committed, and no child is reached except
through its invoice. The relationships order them by `created_at`, which is
taken before the commit: where no two sessions overlap on one invoice the
two orders are the same, and where two do, they need not be.
-/
import InvoiceOps.Domain.Extraction
import InvoiceOps.Domain.Matching
import InvoiceOps.Domain.State
import InvoiceOps.Domain.Validation

namespace InvoiceOps

inductive InvoiceSource where
  | upload
  | email
  | api
  deriving DecidableEq

inductive TextMethod where
  | pdfplumber
  | ocr
  deriving DecidableEq

/-- One extraction attempt. `resultJson` is the value whose JSON dump the
column holds; loading the dump gives it back. -/
structure Extraction where
  model : String
  textMethod : TextMethod
  attempts : Nat
  ok : Bool
  resultJson : Option ExtractionResult
  fieldConfidence : Option (Dict PyFloat)
  error : Option String
  rawResponse : Option String

structure InvoiceMatch where
  vendorId : Option Uuid
  vendorMatchMethod : VendorMatchMethod
  vendorConfidence : ℚ
  vendorCandidates : List VendorCandidate
  poId : Option Uuid
  poMatchMethod : PoMatchMethod

structure Validation where
  results : List RuleResult
  passed : Bool

structure AuditLog where
  fromStatus : InvoiceStatus
  toStatus : InvoiceStatus
  actor : String
  reason : Option String

structure Export where
  storageKey : String
  contractVersion : String
  signature : String

structure Invoice where
  id : Uuid
  status : InvoiceStatus
  source : InvoiceSource
  originalFilename : String
  contentType : String
  sizeBytes : Nat
  storageKey : String
  contentSha256 : String
  failureReason : Option String
  extractions : List Extraction
  invoiceMatches : List InvoiceMatch
  validations : List Validation
  auditLog : List AuditLog
  exports : List Export

structure Vendor where
  id : Uuid
  legalName : String
  taxId : Option String
  aliases : List String
  active : Bool

/-- A `Numeric(12, 2)` amount, in cents. -/
structure Numeric where
  cents : Int
  bound : cents.natAbs < 10 ^ 12

def Numeric.toDecimal (n : Numeric) : PyDecimal := ⟨decide (n.cents < 0), n.cents.natAbs, -2⟩

structure PurchaseOrder where
  id : Uuid
  poNumber : String
  vendorId : Uuid
  currency : String
  total : Numeric

structure DB where
  vendors : Table Uuid Vendor Vendor.id
  purchaseOrders : Table Uuid PurchaseOrder PurchaseOrder.id
  invoices : Table Uuid Invoice Invoice.id

namespace DB

def invoice (d : DB) (id : Uuid) : Option Invoice := d.invoices.get? id

/-- An `UPDATE` of one invoice by primary key, with its new child rows. -/
def update (d : DB) (id : Uuid) (f : Invoice → Invoice) (hf : ∀ r, (f r).id = r.id := by intros; rfl) : DB :=
  { d with invoices := d.invoices.modify id f hf }

theorem invoice_update (d : DB) (id id' : Uuid) {f : Invoice → Invoice} (hf : ∀ r, (f r).id = r.id) :
    (d.update id f hf).invoice id' = if id' = id then (d.invoice id).map f else d.invoice id' :=
  Table.get?_modify _ _ _ hf

theorem id_of_invoice {d : DB} {id : Uuid} {inv : Invoice} (h : d.invoice id = some inv) : inv.id = id :=
  Table.key_of_get? h

end DB

end InvoiceOps
