/-
The discrepancy eval. Its decision is matching, rules and approval policy
put together again without a database; it is taken on seven labelled
variants of each fixture, and the labels and the decisions are counted.
-/
import InvoiceOps.Domain.Approval
import InvoiceOps.Domain.Matching
import InvoiceOps.Domain.Validation

namespace InvoiceOps

/-- `dict.fromkeys(CRITICAL_FIELDS, 0.95)` -/
def fullConfidence : Dict PyFloat where
  rows := criticalFields.map fun f => (f, .fin (PyFloat.double (95 / 100)))
  nodup := by simp [criticalFields]

theorem lowConfidence_fullConfidence : lowConfidence fullConfidence = [] := by decide +kernel

/-- The other invoices of the same number, each with a new id. -/
def Discrepancy.duplicates (uuid4 : Nat → Uuid) (invoice : ExtractedInvoice) (others : List ExtractedInvoice) :
    List DuplicateCandidate :=
  (others.filter fun o => o.invoiceNumber = invoice.invoiceNumber).mapIdx fun k o =>
    ⟨uuid4 k, o.invoiceNumber.getD "None", "approved"⟩

/-- The order the eval compares with, where one is matched. -/
def Discrepancy.matchedPo (py : Py) (invoice : ExtractedInvoice) (vendor : VendorIdentity) (po : Option PoIdentity)
    (poTotal : PyDecimal) (poCurrency : String) : Option PoSnapshot :=
  if (matchPo py invoice po.toList).poId.isSome then
    po.map fun po => ⟨po.poNumber, poCurrency, poTotal, vendor.vendorId⟩
  else none

/-- `_decide`: whether the invoice needed review. -/
def Discrepancy.decide (py : Py) (uuid4 : Nat → Uuid) (invoice : ExtractedInvoice) (vendor : VendorIdentity)
    (po : Option PoIdentity) (poTotal : PyDecimal) (poCurrency : String)
    (otherInvoicesSameNumber : List ExtractedInvoice) : Except PyDecimal.Signal Bool := do
  let vendorResult := matchVendor py invoice [vendor]
  let matchedPo := Discrepancy.matchedPo py invoice vendor po poTotal poCurrency
  let duplicates := Discrepancy.duplicates uuid4 invoice otherInvoicesSameNumber
  let results ← runRules py ⟨invoice, matchedPo, vendorResult.vendorId, duplicates⟩
  let validationPassed := !hasBlockingFailure results
  let vendorIdentified := [.taxId, .exactName, .fuzzyName].contains vendorResult.method
  let hasPo := matchedPo.isSome
  let decision := decideApproval validationPassed vendorIdentified hasPo fullConfidence
  return decision.outcome.value == "needs_review"

/-! ## The scenarios -/

/-- One labelled invoice. -/
structure Fixture where
  name : String
  raw : ExtractedInvoice
  /-- The uuids drawn while its scenarios run. -/
  uuid4 : Nat → Uuid

namespace Fixture

def vendor (f : Fixture) : VendorIdentity := ⟨f.uuid4 0, Py.orElse f.raw.supplierName "UNKNOWN", f.raw.supplierTaxId, []⟩

/-- `raw.total or Decimal("0")` -/
def poTotal (f : Fixture) : PyDecimal :=
  match f.raw.total with
  | some total => if total.isZero then ⟨false, 0, 0⟩ else total
  | none => ⟨false, 0, 0⟩

def poCurrency (f : Fixture) : String := Py.orElse f.raw.currency "EUR"

def poNumber (f : Fixture) : String := Py.orElse f.raw.purchaseOrderNumber ("PO-" ++ f.name)

def po (f : Fixture) : PoIdentity := ⟨f.uuid4 1, f.poNumber⟩

/-- The invoice with the number of the order that is seeded. -/
def invoice (f : Fixture) : ExtractedInvoice := { f.raw with purchaseOrderNumber := some f.poNumber }

def otherCurrency (f : Fixture) : String := if f.poCurrency ≠ "USD" then "USD" else "GBP"

/-- The invoice of a supplier that is not on file. -/
def unknown (f : Fixture) : ExtractedInvoice :=
  { f.invoice with supplierName := some "Totally Unrelated Co", supplierTaxId := some "IT00000099999" }

end Fixture

namespace Discrepancy

/-- `_decide`, with the vendor and the order of the fixture. -/
def review (py : Py) (f : Fixture) (invoice : ExtractedInvoice) (others : List ExtractedInvoice) :
    Except PyDecimal.Signal Bool :=
  Discrepancy.decide py (fun k => f.uuid4 (k + 2)) invoice f.vendor (some f.po) f.poTotal f.poCurrency others

/-- `(total * factor).quantize(Decimal("0.01"))` -/
def scaled (total factor : PyDecimal) : Except PyDecimal.Signal PyDecimal := do
  let product ← total.mul PyDecimal.defaultContext factor
  match product.quantize PyDecimal.defaultContext (-2) with
  | some result => return result
  | none => throw .invalidOperation

/-- A scenario, whether it needs review, and whether it got one. -/
structure Case where
  scenario : String
  expected : Bool
  actual : Bool

/-- `_scenarios` -/
def scenarios (py : Py) (f : Fixture) : Except PyDecimal.Signal (List Case) := do
  let clean ← review py f f.invoice []
  let raised ← scaled f.poTotal ⟨false, 120, -2⟩
  let poOverage ← review py f { f.invoice with total := some raised } []
  let lowered ← scaled f.poTotal ⟨false, 80, -2⟩
  let poUnderage ← review py f { f.invoice with total := some lowered } []
  let duplicateInvoice ← review py f f.invoice [f.invoice]
  let currencyMismatch ← review py f { f.invoice with currency := some f.otherCurrency } []
  let unknownVendor ← review py f f.unknown []
  let noPo ← review py f { f.invoice with purchaseOrderNumber := none } []
  return [⟨"clean", false, clean⟩, ⟨"po_overage", true, poOverage⟩, ⟨"po_underage", true, poUnderage⟩,
    ⟨"duplicate_invoice", true, duplicateInvoice⟩, ⟨"currency_mismatch", true, currencyMismatch⟩,
    ⟨"unknown_vendor", true, unknownVendor⟩, ⟨"no_po", true, noPo⟩]

/-! ## The figures -/

structure Figures where
  tp : Nat
  fp : Nat
  tn : Nat
  fn : Nat
  deriving DecidableEq

def Figures.count (r : Figures) (c : Case) : Figures :=
  if c.expected && c.actual then { r with tp := r.tp + 1 }
  else if !c.expected && c.actual then { r with fp := r.fp + 1 }
  else if !c.expected && !c.actual then { r with tn := r.tn + 1 }
  else { r with fn := r.fn + 1 }

def Figures.precision (r : Figures) : ℚ := PyFloat.quotientOr1 r.tp (r.tp + r.fp)

def Figures.recall (r : Figures) : ℚ := PyFloat.quotientOr1 r.tp (r.tp + r.fn)

/-- The counts of `main`'s loop, over the fixtures by name. -/
def figures (py : Py) (fixtures : List Fixture) : Except PyDecimal.Signal Figures :=
  fixtures.foldlM (fun r f => do return (← scenarios py f).foldl Figures.count r) ⟨0, 0, 0, 0⟩

/-- `main`: the exit code. -/
def main (py : Py) (fixtures : List Fixture) : Except PyDecimal.Signal Int :=
  if fixtures.isEmpty then return 1
  else do
    let r ← figures py fixtures
    return if r.fn = 0 then 0 else 1

end Discrepancy

end InvoiceOps
