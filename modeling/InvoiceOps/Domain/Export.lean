/-
The accounting-export artifact: its canonical JSON and the HMAC-SHA256
signature over it.
-/
import InvoiceOps.Python
import InvoiceOps.Lib.Sha256

namespace InvoiceOps

def contractVersion : String := "1"

structure ExportPayload where
  contractVersion : String
  invoiceId : String
  status : String
  supplierName : Option String
  supplierTaxId : Option String
  invoiceNumber : Option String
  invoiceDate : Option String
  currency : Option String
  subtotal : Option String
  taxAmount : Option String
  total : Option String
  lineItems : List (Dict (Option String))
  vendorId : Option String
  vendorName : Option String
  poId : Option String
  poNumber : Option String
  approvedBy : Option String
  approvedReason : Option String
  exportedAt : String

/-- `asdict` -/
def ExportPayload.asdict (p : ExportPayload) : Json :=
  .obj [
    ("contract_version", .str p.contractVersion),
    ("invoice_id", .str p.invoiceId),
    ("status", .str p.status),
    ("supplier_name", .ofOption p.supplierName),
    ("supplier_tax_id", .ofOption p.supplierTaxId),
    ("invoice_number", .ofOption p.invoiceNumber),
    ("invoice_date", .ofOption p.invoiceDate),
    ("currency", .ofOption p.currency),
    ("subtotal", .ofOption p.subtotal),
    ("tax_amount", .ofOption p.taxAmount),
    ("total", .ofOption p.total),
    ("line_items", .arr (p.lineItems.map fun li => .obj (li.rows.map fun kv => (kv.1, .ofOption kv.2)))),
    ("vendor_id", .ofOption p.vendorId),
    ("vendor_name", .ofOption p.vendorName),
    ("po_id", .ofOption p.poId),
    ("po_number", .ofOption p.poNumber),
    ("approved_by", .ofOption p.approvedBy),
    ("approved_reason", .ofOption p.approvedReason),
    ("exported_at", .str p.exportedAt)]

def ExportPayload.toJsonBytes (p : ExportPayload) : Bytes := p.asdict.toBytes

/-- `s.encode("utf-8")` -/
def utf8 (s : String) : Bytes := s.toList.flatMap String.utf8EncodeChar

def signPayload (payload : Bytes) (secret : String) : String := hexdigest (Sha256.hmac (utf8 secret) payload)

def verifySignature (payload : Bytes) (secret signature : String) : Bool :=
  signPayload payload secret == signature

/-- A signature just made is accepted. -/
theorem verifySignature_signPayload (payload : Bytes) (secret : String) :
    verifySignature payload secret (signPayload payload secret) = true := by
  simp [verifySignature]

end InvoiceOps
