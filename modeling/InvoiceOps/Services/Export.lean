/-
An approved invoice handed to accounting: a signed JSON document in object
storage, and an `Export` row.
-/
import InvoiceOps.Domain.Export
import InvoiceOps.Services.Approval

namespace InvoiceOps

def exportable (s : InvoiceStatus) : Bool := s == .autoApproved || s == .approved

/-- `_approval_audit_entry` -/
def approvalAuditEntry (auditLog : List AuditLog) : Option AuditLog :=
  auditLog.reverse.find? fun e => e.toStatus == .autoApproved || e.toStatus == .approved

/-- The payload, from what the export reads. -/
def exportPayload (invoiceId : Uuid) (startingStatus : InvoiceStatus) (extracted : ExtractedInvoice)
    (row : Option InvoiceMatch) (vendor : Option Vendor) (po : Option PurchaseOrder)
    (approval : Option AuditLog) (exportedAt : String) : ExportPayload where
  contractVersion := contractVersion
  invoiceId := invoiceId.str
  status := startingStatus.value
  supplierName := extracted.supplierName
  supplierTaxId := extracted.supplierTaxId
  invoiceNumber := extracted.invoiceNumber
  invoiceDate := extracted.invoiceDate.map PyDate.isoformat
  currency := extracted.currency
  subtotal := extracted.subtotal.map PyDecimal.str
  taxAmount := extracted.taxAmount.map PyDecimal.str
  total := extracted.total.map PyDecimal.str
  lineItems := extracted.lineItems.map LineItem.dump
  vendorId := (row.bind (·.vendorId)).map Uuid.str
  vendorName := vendor.map (·.legalName)
  poId := (row.bind (·.poId)).map Uuid.str
  poNumber := po.map (·.poNumber)
  approvedBy := approval.map (·.actor)
  approvedReason := approval.bind (·.reason)
  exportedAt := exportedAt

def exportKey (invoiceId key : Uuid) : String := "exports/" ++ invoiceId.str ++ "/" ++ key.str ++ ".json"

/-- `match.vendor`, `match.purchase_order`: the row a foreign key names. -/
def related {α : Type} (id : Option Uuid) (get : DB → Uuid → Option α) : Tx (Option α) :=
  match id with
  | none => return none
  | some id => Txn.query fun d => get d id

/-- `key` is the `uuid4` of the artifact, `now` the time of export. -/
def runExport (env : Env) (key : Uuid) (now : String) (invoiceId : Uuid) : Tx (Option Export) := do
  match ← Tx.getInvoice invoiceId with
  | none => Tx.raise (.valueError ("invoice " ++ invoiceId.str ++ " not found"))
  | some invoice =>
    if !exportable invoice.status then return none
    else
      let extractions ← Tx.children invoice.id (·.extractions)
      match (latestSuccessfulExtraction extractions).bind (·.resultJson) with
      | none =>
        let reason := some "no successful extraction to export"
        let invoice ← setFailureReason invoice reason
        let _ ← advance invoice .failed "system" reason
        return none
      | some result =>
        let startingStatus := invoice.status
        let invoice ← advance invoice .exporting "system" (some "starting accounting export")
        let row ← latestMatch <$> Tx.children invoice.id (·.invoiceMatches)
        let approval ← approvalAuditEntry <$> Tx.children invoice.id (·.auditLog)
        let vendor ← related (row.bind (·.vendorId)) fun d id => d.vendors.get? id
        let po ← related (row.bind (·.poId)) fun d id => d.purchaseOrders.get? id
        let payload := exportPayload invoice.id startingStatus result.invoice row vendor po approval now
        let signature := signPayload payload.toJsonBytes env.settings.exportSigningSecret
        let storageKey := exportKey invoice.id key
        Tx.putObject env storageKey payload.toJsonBytes
        let row : Export := { storageKey, contractVersion, signature }
        Tx.updateInvoice invoice.id fun r => { r with exports := r.exports ++ [row] }
        let _ ← advance invoice .exported "system" (some ("exported to " ++ storageKey))
        return some row

end InvoiceOps
