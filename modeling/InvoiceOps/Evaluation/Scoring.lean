/-
The score of one extracted invoice against the ground truth, field by field:
both values are normalised to text, and the texts compared.
-/
import InvoiceOps.Domain.Extraction
import InvoiceOps.Lib.PyDecimalText

namespace InvoiceOps

def scalarFields : List String :=
  ["supplier_name", "supplier_tax_id", "invoice_number", "invoice_date", "currency", "purchase_order_number",
    "subtotal", "tax_amount", "total"]

def moneyFields : List String := ["subtotal", "tax_amount", "total"]

inductive Verdict where
  | correct
  | wrong
  | missing
  | spurious
  | absentOk
  deriving DecidableEq

/-- A value that is scored: one of an extracted invoice, or a count. -/
inductive FieldValue where
  | text (s : String)
  | date (d : PyDate)
  | money (d : PyDecimal)
  | count (n : Nat)

/-- `str(value)` -/
def FieldValue.str : FieldValue → String
  | .text s => s
  | .date d => d.isoformat
  | .money d => d.str
  | .count n => Nat.repr n

structure FieldScore where
  field : String
  verdict : Verdict
  expected : Option FieldValue
  actual : Option FieldValue

/-- `_norm_text` -/
def normText (py : Py) (value : Option FieldValue) : Option String :=
  value.map fun v => Py.join " " (py.split (py.lower (py.strip v.str)))

/-- `str(Decimal(s).quantize(Decimal("0.01")))`; none is `InvalidOperation`. -/
def quantizedText (s : String) : Option String :=
  (PyDecimal.ofStr? s).bind fun d => (d.quantize PyDecimal.defaultContext (-2)).map PyDecimal.str

/-- `_norm_money` -/
def normMoney (py : Py) (value : Option FieldValue) : Option String :=
  value.map fun v => (quantizedText v.str).getD (py.lower (py.strip v.str))

/-- `_norm_date` -/
def normDate (py : Py) (value : Option FieldValue) : Option String :=
  value.map fun
    | .date d => d.isoformat
    | v => py.strip v.str

/-- The normalisation of a field's values. -/
def normalize (py : Py) (field : String) : Option FieldValue → Option String :=
  if moneyFields.contains field then normMoney py
  else if field = "invoice_date" then normDate py
  else normText py

/-- `_verdict` -/
def verdict (py : Py) (field : String) (expected actual : Option FieldValue) : Verdict :=
  match normalize py field expected, normalize py field actual with
  | none, none => .absentOk
  | some _, none => .missing
  | none, some _ => .spurious
  | some e, some a => if e = a then .correct else .wrong

/-- `getattr(invoice, name)`, of a scalar field. -/
def ExtractedInvoice.getattr (inv : ExtractedInvoice) (name : String) : Option FieldValue :=
  if name = "supplier_name" then inv.supplierName.map .text
  else if name = "supplier_tax_id" then inv.supplierTaxId.map .text
  else if name = "invoice_number" then inv.invoiceNumber.map .text
  else if name = "invoice_date" then inv.invoiceDate.map .date
  else if name = "currency" then inv.currency.map .text
  else if name = "purchase_order_number" then inv.purchaseOrderNumber.map .text
  else if name = "subtotal" then inv.subtotal.map .money
  else if name = "tax_amount" then inv.taxAmount.map .money
  else if name = "total" then inv.total.map .money
  else none

def scoreInvoice (py : Py) (expected actual : ExtractedInvoice) : List FieldScore :=
  (scalarFields.map fun name =>
    { field := name
      verdict := verdict py name (expected.getattr name) (actual.getattr name)
      expected := expected.getattr name
      actual := actual.getattr name }) ++
  [{ field := "line_items_count"
     verdict := if expected.lineItems.length = actual.lineItems.length then .correct else .wrong
     expected := some (.count expected.lineItems.length)
     actual := some (.count actual.lineItems.length) }]

structure Aggregate where
  graded : Nat
  correct : Nat
  wrong : Nat
  missing : Nat
  spurious : Nat
  absentOk : Nat
  criticalGraded : Nat
  criticalCorrect : Nat

def Aggregate.fieldAccuracy (a : Aggregate) : ℚ := PyFloat.quotientOr1 a.correct a.graded

def Aggregate.criticalAccuracy (a : Aggregate) : ℚ := PyFloat.quotientOr1 a.criticalCorrect a.criticalGraded

def aggregate (perInvoice : List (List FieldScore)) : Aggregate :=
  let flat := perInvoice.flatten
  let n (verdict : Verdict) (pool : List FieldScore) : Nat := pool.countP fun s => s.verdict = verdict
  let gradedPool := flat.filter fun s => s.verdict ≠ .absentOk
  let critPool := gradedPool.filter fun s => criticalFields.contains s.field
  { graded := gradedPool.length
    correct := n .correct gradedPool
    wrong := n .wrong gradedPool
    missing := n .missing gradedPool
    spurious := n .spurious gradedPool
    absentOk := n .absentOk flat
    criticalGraded := critPool.length
    criticalCorrect := n .correct critPool }

end InvoiceOps
