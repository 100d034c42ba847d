/-
Deterministic financial rules: each is a function from already-fetched data
to a `RuleResult`. Missing data a rule needs is a skip (`info`, passed), not
a failure; `error` marks a failure that blocks auto-approval.

Amounts are computed under the default decimal context, so a rule that adds
or divides may raise one of its signals.
-/
import InvoiceOps.Domain.Extraction

namespace InvoiceOps

def amountTolerance : PyDecimal := ⟨false, 2, -2⟩

/-- How far an invoice total may drift from its PO's, as a fraction. -/
def poTolerancePct : PyDecimal := ⟨false, 2, -2⟩

inductive Severity where
  | info
  | warning
  | error
  deriving DecidableEq

structure RuleResult where
  rule : String
  severity : Severity
  passed : Bool
  message : String
  detail : Json

structure PoSnapshot where
  poNumber : String
  currency : String
  total : PyDecimal
  vendorId : Uuid

structure DuplicateCandidate where
  invoiceId : Uuid
  invoiceNumber : String
  status : String

structure ValidationInput where
  invoice : ExtractedInvoice
  matchedPo : Option PoSnapshot
  matchedVendorId : Option Uuid
  duplicateCandidates : List DuplicateCandidate

/-- `severity="info" if passed else failing` -/
def severityOf (passed : Bool) (failing : Severity) : Severity := if passed then .info else failing

/-- A rule that had nothing to check. -/
def skipped (rule message : String) : RuleResult := ⟨rule, .info, true, message, .obj []⟩

/-- The required fields that are `None`. -/
def missingFields (inv : ExtractedInvoice) : List String :=
  (if inv.supplierName.isNone then ["supplier_name"] else []) ++
    (if inv.invoiceNumber.isNone then ["invoice_number"] else []) ++
    (if inv.invoiceDate.isNone then ["invoice_date"] else []) ++
    (if inv.total.isNone then ["total"] else [])

def ruleRequiredFieldsPresent (inp : ValidationInput) : RuleResult :=
  let missing := missingFields inp.invoice
  let passed := missing.isEmpty
  { rule := "required_fields_present"
    severity := severityOf passed .error
    passed
    message := if passed then "all required fields present"
      else "missing required field(s): " ++ Py.join ", " missing
    detail := .obj [("missing", .arr (missing.map .str))] }

def ruleArithmeticConsistency (inp : ValidationInput) : Except PyDecimal.Signal RuleResult :=
  match inp.invoice.subtotal, inp.invoice.taxAmount, inp.invoice.total with
  | some subtotal, some tax, some total => do
    let expected ← subtotal.add PyDecimal.defaultContext tax
    let diff ← (← expected.sub PyDecimal.defaultContext total).abs PyDecimal.defaultContext
    let passed := diff.le amountTolerance
    return {
      rule := "arithmetic_consistency"
      severity := severityOf passed .error
      passed
      message := if passed then "subtotal + tax matches total"
        else "subtotal (" ++ subtotal.str ++ ") + tax (" ++ tax.str ++ ") = " ++ expected.str ++
          ", but total is " ++ total.str
      detail := .obj [("subtotal", .str subtotal.str), ("tax_amount", .str tax.str),
        ("total", .str total.str)] }
  | _, _, _ =>
    return skipped "arithmetic_consistency" "skipped: subtotal, tax_amount and total are not all present"

def ruleLineItemsSumToSubtotal (inp : ValidationInput) : Except PyDecimal.Signal RuleResult :=
  let items := inp.invoice.lineItems
  match items, inp.invoice.subtotal with
  | _ :: _, some subtotal =>
    let priced := items.filterMap (·.lineTotal)
    if priced.length ≠ items.length then
      return {
        rule := "line_items_sum_to_subtotal"
        severity := .warning
        passed := false
        message := Nat.repr (items.length - priced.length) ++ " of " ++ Nat.repr items.length ++
          " line item(s) have no line_total"
        detail := .obj [] }
    else do
      let totalLines ← PyDecimal.sum PyDecimal.defaultContext priced
      let diff ← (← totalLines.sub PyDecimal.defaultContext subtotal).abs PyDecimal.defaultContext
      let passed := diff.le amountTolerance
      return {
        rule := "line_items_sum_to_subtotal"
        severity := severityOf passed .warning
        passed
        message := if passed then "line items sum to the subtotal"
          else "line items sum to " ++ totalLines.str ++ ", but subtotal is " ++ subtotal.str
        detail := .obj [("line_items_total", .str totalLines.str), ("subtotal", .str subtotal.str)] }
  | _, _ =>
    return skipped "line_items_sum_to_subtotal" "skipped: no line items or no subtotal to check against"

def rulePoAmountTolerance (inp : ValidationInput) : Except PyDecimal.Signal RuleResult :=
  match inp.matchedPo with
  | none => return skipped "po_amount_tolerance" "skipped: no PO matched"
  | some po =>
    match inp.invoice.total with
    | none =>
      return {
        rule := "po_amount_tolerance"
        severity := .warning
        passed := false
        message := "invoice total is missing, cannot compare to the PO"
        detail := .obj [] }
    | some invoiceTotal =>
      if po.total.isZero then
        return {
          rule := "po_amount_tolerance"
          severity := .warning
          passed := false
          message := "PO " ++ po.poNumber ++ " total is zero, cannot compute a tolerance"
          detail := .obj [] }
      else do
        let diff ← invoiceTotal.sub PyDecimal.defaultContext po.total
        let size ← diff.abs PyDecimal.defaultContext
        let pct ← size.div PyDecimal.defaultContext po.total
        let passed := pct.le poTolerancePct
        let direction := if diff.isPos then "exceeds" else "is under"
        return {
          rule := "po_amount_tolerance"
          severity := severityOf passed .error
          passed
          message := if passed then "invoice total within tolerance of PO " ++ po.poNumber
            else "invoice " ++ direction ++ " PO " ++ po.poNumber ++ " value by " ++ size.str ++ " (" ++
              pct.percent ++ "). Payment blocked pending review."
          detail := .obj [("invoice_total", .str invoiceTotal.str), ("po_total", .str po.total.str),
            ("pct_diff", .str pct.str)] }

def rulePoCurrencyMatch (py : Py) (inp : ValidationInput) : RuleResult :=
  match inp.matchedPo with
  | none => skipped "po_currency_match" "skipped: no PO matched"
  | some po =>
    if Py.truthy inp.invoice.currency then
      let currency := inp.invoice.currency.getD ""
      let passed := decide (py.upper (py.strip currency) = py.upper (py.strip po.currency))
      { rule := "po_currency_match"
        severity := severityOf passed .error
        passed
        message := if passed then "currency matches the PO"
          else "invoice currency " ++ py.repr currency ++ " does not match PO currency " ++ py.repr po.currency
        detail := .obj [] }
    else
      { rule := "po_currency_match"
        severity := .warning
        passed := false
        message := "invoice currency is missing"
        detail := .obj [] }

def rulePoVendorMismatch (inp : ValidationInput) : RuleResult :=
  match inp.matchedPo with
  | none => skipped "po_vendor_mismatch" "skipped: no PO matched"
  | some po =>
    match inp.matchedVendorId with
    | none =>
      { rule := "po_vendor_mismatch"
        severity := .warning
        passed := false
        message := "PO " ++ po.poNumber ++
          " found, but the invoice's own supplier could not be identified to cross-check it against"
        detail := .obj [] }
    | some vendorId =>
      let passed := decide (po.vendorId = vendorId)
      { rule := "po_vendor_mismatch"
        severity := severityOf passed .error
        passed
        message := if passed then "PO belongs to the matched vendor"
          else "PO " ++ po.poNumber ++ " belongs to a different vendor than the invoice's own extracted supplier"
        detail := .obj [] }

def ruleDuplicateInvoiceNumber (py : Py) (inp : ValidationInput) : RuleResult :=
  if Py.truthy inp.invoice.invoiceNumber then
    if inp.duplicateCandidates.isEmpty then
      skipped "duplicate_invoice_number" "no other invoice found with the same vendor and invoice number"
    else
      let ids := inp.duplicateCandidates.map fun c => c.invoiceId.str
      { rule := "duplicate_invoice_number"
        severity := .error
        passed := false
        message := "invoice number " ++ py.repr (inp.invoice.invoiceNumber.getD "") ++ " already exists on: " ++
          Py.join ", " ids
        detail := .obj [("candidate_ids", .arr (ids.map .str))] }
  else skipped "duplicate_invoice_number" "skipped: no invoice number extracted"

def runRules (py : Py) (inp : ValidationInput) : Except PyDecimal.Signal (List RuleResult) := do
  let requiredFieldsPresent := ruleRequiredFieldsPresent inp
  let arithmeticConsistency ← ruleArithmeticConsistency inp
  let lineItemsSumToSubtotal ← ruleLineItemsSumToSubtotal inp
  let poAmountTolerance ← rulePoAmountTolerance inp
  return [requiredFieldsPresent, arithmeticConsistency, lineItemsSumToSubtotal, poAmountTolerance,
    rulePoCurrencyMatch py inp, rulePoVendorMismatch inp, ruleDuplicateInvoiceNumber py inp]

def hasBlockingFailure (results : List RuleResult) : Bool :=
  results.any fun r => r.severity = .error ∧ !r.passed

/-! ## What the rules come to -/

theorem Except.bind_eq_ok {ε α β : Type} {x : Except ε α} {f : α → Except ε β} {b : β} :
    (x >>= f) = .ok b ↔ ∃ a, x = .ok a ∧ f a = .ok b := by
  cases x with
  | error e => exact ⟨fun h => (by cases h), fun ⟨a, ha, _⟩ => (by cases ha)⟩
  | ok a => exact ⟨fun h => ⟨a, rfl, h⟩, fun ⟨a', ha, h⟩ => (by cases ha; exact h)⟩

/-- The entries of one rule: severity and whether it passed. -/
def verdicts (rule : String) (results : List RuleResult) : List (Severity × Bool) :=
  (results.filter fun r => r.rule = rule).map fun r => (r.severity, r.passed)

section rules
variable {py : Py} {inp : ValidationInput} {r : RuleResult} {po : PoSnapshot}

theorem ruleArithmeticConsistency_rule (h : ruleArithmeticConsistency inp = .ok r) :
    r.rule = "arithmetic_consistency" := by
  unfold ruleArithmeticConsistency at h
  split at h
  · simp only [Except.bind_eq_ok] at h
    obtain ⟨_, _, _, _, _, _, h⟩ := h
    cases h
    rfl
  · cases h
    rfl

theorem ruleLineItemsSumToSubtotal_rule (h : ruleLineItemsSumToSubtotal inp = .ok r) :
    r.rule = "line_items_sum_to_subtotal" := by
  unfold ruleLineItemsSumToSubtotal at h
  dsimp only at h
  split at h
  · split at h
    · cases h
      rfl
    · simp only [Except.bind_eq_ok] at h
      obtain ⟨_, _, _, _, _, _, h⟩ := h
      cases h
      rfl
  · cases h
    rfl

/-- The amount is within the tolerance of the order's. -/
def WithinTolerance (total orderTotal : PyDecimal) : Prop :=
  ∃ diff size pct, total.sub PyDecimal.defaultContext orderTotal = .ok diff ∧
    diff.abs PyDecimal.defaultContext = .ok size ∧ size.div PyDecimal.defaultContext orderTotal = .ok pct ∧
    pct.le poTolerancePct = true

/-- With a PO and a total: a warning when the PO's is zero, else the
comparison. -/
theorem rulePoAmountTolerance_cases {total : PyDecimal} (h : rulePoAmountTolerance inp = .ok r)
    (hpo : inp.matchedPo = some po) (htotal : inp.invoice.total = some total) :
    r.rule = "po_amount_tolerance" ∧
      (po.total.isZero = true ∧ r.severity = .warning ∧ r.passed = false ∨
        po.total.isZero = false ∧ r.severity = severityOf r.passed .error ∧
          (r.passed = true → WithinTolerance total po.total)) := by
  unfold rulePoAmountTolerance at h
  simp only [hpo, htotal] at h
  cases hz : po.total.isZero with
  | true =>
    rw [hz, if_pos rfl] at h
    cases h
    exact ⟨rfl, .inl ⟨rfl, rfl, rfl⟩⟩
  | false =>
    rw [hz] at h
    simp only [Bool.false_eq_true, if_false, Except.bind_eq_ok] at h
    obtain ⟨diff, hdiff, size, hsize, pct, hpct, h⟩ := h
    cases h
    exact ⟨rfl, .inr ⟨rfl, rfl, fun hp => ⟨diff, size, pct, hdiff, hsize, hpct, hp⟩⟩⟩

theorem rulePoCurrencyMatch_cases (hpo : inp.matchedPo = some po) :
    Py.truthy inp.invoice.currency = false ∧ (rulePoCurrencyMatch py inp).severity = .warning ∧
        (rulePoCurrencyMatch py inp).passed = false ∨
      ∃ currency, inp.invoice.currency = some currency ∧ currency ≠ "" ∧
        (rulePoCurrencyMatch py inp).severity = severityOf (rulePoCurrencyMatch py inp).passed .error ∧
        ((rulePoCurrencyMatch py inp).passed = true → py.upper (py.strip currency) = py.upper (py.strip po.currency)) := by
  unfold rulePoCurrencyMatch
  simp only [hpo]
  cases hc : inp.invoice.currency with
  | none => exact .inl ⟨rfl, rfl, rfl⟩
  | some currency =>
    by_cases hne : currency = ""
    · subst hne
      exact .inl ⟨rfl, rfl, rfl⟩
    · have htruthy : Py.truthy (some currency) = true := by simpa [Py.truthy] using hne
      refine .inr ⟨currency, rfl, hne, ?_⟩
      rw [if_pos htruthy]
      exact ⟨rfl, of_decide_eq_true⟩

theorem rulePoVendorMismatch_cases {vendorId : Uuid} (hpo : inp.matchedPo = some po)
    (hvendor : inp.matchedVendorId = some vendorId) :
    (rulePoVendorMismatch inp).severity = severityOf (rulePoVendorMismatch inp).passed .error ∧
      ((rulePoVendorMismatch inp).passed = true → po.vendorId = vendorId) := by
  unfold rulePoVendorMismatch
  simp only [hpo, hvendor]
  exact ⟨trivial, of_decide_eq_true⟩

theorem ruleDuplicateInvoiceNumber_cases :
    (ruleDuplicateInvoiceNumber py inp).severity = severityOf (ruleDuplicateInvoiceNumber py inp).passed .error ∧
      ((ruleDuplicateInvoiceNumber py inp).passed = true →
        Py.truthy inp.invoice.invoiceNumber = true → inp.duplicateCandidates = []) := by
  unfold ruleDuplicateInvoiceNumber
  cases Py.truthy inp.invoice.invoiceNumber with
  | false => exact ⟨rfl, fun _ h => (by cases h)⟩
  | true =>
    cases inp.duplicateCandidates with
    | nil => exact ⟨rfl, fun _ _ => rfl⟩
    | cons c cs => exact ⟨rfl, fun h => (by cases h)⟩

theorem rulePoCurrencyMatch_rule : (rulePoCurrencyMatch py inp).rule = "po_currency_match" := by
  unfold rulePoCurrencyMatch
  split
  · rfl
  · split <;> rfl

theorem rulePoVendorMismatch_rule : (rulePoVendorMismatch inp).rule = "po_vendor_mismatch" := by
  unfold rulePoVendorMismatch
  split
  · rfl
  · split <;> rfl

theorem ruleDuplicateInvoiceNumber_rule : (ruleDuplicateInvoiceNumber py inp).rule = "duplicate_invoice_number" := by
  unfold ruleDuplicateInvoiceNumber
  split
  · split <;> rfl
  · rfl

theorem missingFields_eq_nil {extracted : ExtractedInvoice} (h : missingFields extracted = []) :
    extracted.supplierName ≠ none ∧ extracted.invoiceNumber ≠ none ∧ extracted.invoiceDate ≠ none ∧
      extracted.total ≠ none := by
  simpa [missingFields, and_assoc, ← Option.isSome_iff_ne_none, Option.isNone_eq_false_iff] using h

/-- **`run_rules`, rule by rule.** -/
theorem runRules_eq_ok {results : List RuleResult} (h : runRules py inp = .ok results) :
    ∃ arithmetic lines amount, ruleArithmeticConsistency inp = .ok arithmetic ∧
      ruleLineItemsSumToSubtotal inp = .ok lines ∧ rulePoAmountTolerance inp = .ok amount ∧
      results = [ruleRequiredFieldsPresent inp, arithmetic, lines, amount, rulePoCurrencyMatch py inp,
        rulePoVendorMismatch inp, ruleDuplicateInvoiceNumber py inp] := by
  unfold runRules at h
  simp only [Except.bind_eq_ok] at h
  obtain ⟨arithmetic, ha, lines, hl, amount, hm, h⟩ := h
  cases h
  exact ⟨arithmetic, lines, amount, ha, hl, hm, rfl⟩

/-- Each of the rules automatic approval looks to has one entry. -/
theorem verdicts_of_runRules {results : List RuleResult} {amount : RuleResult} (h : runRules py inp = .ok results)
    (hm : rulePoAmountTolerance inp = .ok amount) (hrm : amount.rule = "po_amount_tolerance") :
    verdicts "required_fields_present" results =
        [((ruleRequiredFieldsPresent inp).severity, (ruleRequiredFieldsPresent inp).passed)] ∧
      verdicts "po_amount_tolerance" results = [(amount.severity, amount.passed)] ∧
      verdicts "po_currency_match" results =
        [((rulePoCurrencyMatch py inp).severity, (rulePoCurrencyMatch py inp).passed)] ∧
      verdicts "po_vendor_mismatch" results =
        [((rulePoVendorMismatch inp).severity, (rulePoVendorMismatch inp).passed)] ∧
      verdicts "duplicate_invoice_number" results =
        [((ruleDuplicateInvoiceNumber py inp).severity, (ruleDuplicateInvoiceNumber py inp).passed)] := by
  obtain ⟨arithmetic, lines, amount', ha, hl, hm', rfl⟩ := runRules_eq_ok h
  rw [hm] at hm'
  cases hm'
  have hrr : (ruleRequiredFieldsPresent inp).rule = "required_fields_present" := rfl
  simp [verdicts, List.filter, hrr, ruleArithmeticConsistency_rule ha, ruleLineItemsSumToSubtotal_rule hl, hrm,
    rulePoCurrencyMatch_rule, rulePoVendorMismatch_rule, ruleDuplicateInvoiceNumber_rule]

/-- A rule that fails as an error blocks. -/
theorem passed_of_not_blocking {results : List RuleResult} (h : hasBlockingFailure results = false) (hr : r ∈ results)
    (hs : r.severity = severityOf r.passed .error) : r.passed = true := by
  by_contra hp
  have hfalse : r.passed = false := by simpa using hp
  rw [hasBlockingFailure, List.any_eq_false] at h
  refine h r hr ?_
  rw [hs, hfalse]
  rfl

/-- Rules that block nothing, on an invoice with a number: there was no
candidate. -/
theorem candidates_eq_nil {results : List RuleResult} (h : runRules py inp = .ok results)
    (hb : hasBlockingFailure results = false) (hn : Py.truthy inp.invoice.invoiceNumber = true) :
    inp.duplicateCandidates = [] := by
  obtain ⟨_, _, _, -, -, -, hresults⟩ := runRules_eq_ok h
  obtain ⟨hs, hp⟩ := @ruleDuplicateInvoiceNumber_cases py inp
  exact hp (passed_of_not_blocking hb (by simp [hresults]) hs) hn

end rules

end InvoiceOps
