/-
The review page of an invoice: the summary a reviewer decides on.
-/
import InvoiceOps.Services.Export

namespace InvoiceOps

/-- The summary at the top of the page. `total` is as the JSON dump of the
extraction shows it. -/
structure SummaryView where
  supplier : Option String
  total : Option String
  currency : Option String
  totalConfidence : Option PyFloat
  vendorName : Option String
  poNumber : Option String

structure InvoiceDetail where
  summary : SummaryView
  canDecide : Bool

/-- `_summary_view`: of the last extraction, if it succeeded, and of the last
match. -/
def summaryView (invoice : Invoice) : Tx SummaryView := do
  let latestExtraction ← List.getLast? <$> Tx.children invoice.id (·.extractions)
  let row ← latestMatch <$> Tx.children invoice.id (·.invoiceMatches)
  let shown := latestExtraction.filter (·.ok)
  let invoiceData := (shown.bind (·.resultJson)).map (·.invoice)
  let confidence := (shown.bind (·.fieldConfidence)).getD .empty
  let vendor ← related (row.bind (·.vendorId)) fun d id => d.vendors.get? id
  let po ← related (row.bind (·.poId)) fun d id => d.purchaseOrders.get? id
  return {
    supplier := invoiceData.bind (·.supplierName)
    total := (invoiceData.bind (·.total)).map PyDecimal.str
    currency := invoiceData.bind (·.currency)
    totalConfidence := Dict.get confidence "total"
    vendorName := vendor.map (·.legalName)
    poNumber := po.map (·.poNumber) }

/-- `ui_invoice_detail` -/
def uiInvoiceDetail (invoiceId : Uuid) : Tx InvoiceDetail :=
  Tx.sessionScope do
    match ← Tx.getInvoice invoiceId with
    | none => Tx.raise (.httpException 404 "invoice not found")
    | some invoice =>
      let summary ← summaryView invoice
      return ⟨summary, invoice.status == .needsReview⟩

end InvoiceOps
