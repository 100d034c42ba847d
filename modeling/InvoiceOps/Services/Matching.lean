/-
One invoice through vendor and PO matching: EXTRACTED to VALIDATING, or to
FAILED when there is nothing to match. An ambiguous or missing match is a
normal, recorded outcome.
-/
import InvoiceOps.Services.Extraction

namespace InvoiceOps

/-- The active vendors, as matching sees them. -/
def vendorIdentities (d : DB) : List VendorIdentity :=
  (d.vendors.rows.filter (·.active)).map fun v => ⟨v.id, v.legalName, v.taxId, v.aliases⟩

def poIdentities (d : DB) : List PoIdentity := d.purchaseOrders.rows.map fun po => ⟨po.id, po.poNumber⟩

def runMatching (env : Env) (invoiceId : Uuid) : Tx (Option InvoiceMatch) := do
  match ← Tx.getInvoice invoiceId with
  | none => Tx.raise (.valueError ("invoice " ++ invoiceId.str ++ " not found"))
  | some invoice =>
    if invoice.status ≠ .extracted then return none
    else
      let extractions ← Tx.children invoice.id (·.extractions)
      match (latestSuccessfulExtraction extractions).bind (·.resultJson) with
      | none =>
        let reason := some "no successful extraction to match against"
        let invoice ← setFailureReason invoice reason
        let _ ← advance invoice .failed "system" reason
        return none
      | some result =>
        let invoice ← advance invoice .matching "system" (some "starting vendor + PO matching")
        let vendors ← Txn.query vendorIdentities
        let vendorResult := matchVendor env.py result.invoice vendors
        let purchaseOrders ← Txn.query poIdentities
        let poResult := matchPo env.py result.invoice purchaseOrders
        let row : InvoiceMatch :=
          { vendorId := vendorResult.vendorId, vendorMatchMethod := vendorResult.method,
            vendorConfidence := vendorResult.confidence, vendorCandidates := vendorResult.candidates,
            poId := poResult.poId, poMatchMethod := poResult.method }
        Tx.updateInvoice invoice.id fun r => { r with invoiceMatches := r.invoiceMatches ++ [row] }
        let _ ← advance invoice .validating "system"
          (some ("vendor:" ++ vendorResult.method.value ++ " po:" ++ poResult.method.value))
        return some row

end InvoiceOps
