/-
The strict shape of an extracted invoice, and what its JSON dump shows.
Amounts are finite decimals: the schema takes neither infinities nor NaN.
-/
import InvoiceOps.Python
import InvoiceOps.Lib.PyDecimal

namespace InvoiceOps

/-- The fields whose confidence gates auto-processing, sorted. -/
def criticalFields : List String := ["currency", "invoice_date", "invoice_number", "supplier_name", "total"]

structure LineItem where
  description : String
  quantity : Option PyDecimal
  unitPrice : Option PyDecimal
  lineTotal : Option PyDecimal

structure ExtractedInvoice where
  supplierName : Option String
  supplierTaxId : Option String
  invoiceNumber : Option String
  invoiceDate : Option PyDate
  currency : Option String
  purchaseOrderNumber : Option String
  lineItems : List LineItem
  subtotal : Option PyDecimal
  taxAmount : Option PyDecimal
  total : Option PyDecimal

structure ExtractionResult where
  invoice : ExtractedInvoice
  fieldConfidence : Dict PyFloat
  notes : Option String

/-- `model_dump(mode="json")` of a line item. -/
def LineItem.dump (li : LineItem) : Dict (Option String) where
  rows := [("description", some li.description), ("quantity", li.quantity.map PyDecimal.str),
    ("unit_price", li.unitPrice.map PyDecimal.str), ("line_total", li.lineTotal.map PyDecimal.str)]
  nodup := by simp only [List.map]; decide

end InvoiceOps
