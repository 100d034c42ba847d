/-
The gate of automatic approval. `Gate` says, rule by rule, what the
validation behind an automatic approval had compared; `Confident` says when
the confidence scores behind it were on the scale; and `Within` bounds what
one approval may spend.
-/
import InvoiceOps.Facts.Grounds
import InvoiceOps.Facts.Tolerance

namespace InvoiceOps

/-! ## The rules -/

/-- No other invoice of the vendor, failed and rejected ones apart, has the
number. -/
def Unrivalled (py : Py) (d : DB) (i vendorId : Uuid) (number : String) : Prop :=
  ∀ o ∈ d.invoices.rows, o.id ≠ i → (∃ m ∈ o.invoiceMatches, m.vendorId = some vendorId) →
    excludedFromDuplicateCheck o.status = true ∨
      sameNumber py (py.lower (py.strip number)) o.extractions = none

/-- A check alone that found no candidate. -/
theorem Checked.unrivalled {py : Py} {i vendorId : Uuid} {row : Option InvoiceMatch} {extracted : ExtractedInvoice}
    {w : World} {number : String} (h : Checked py Eq i row extracted w []) (hv : row.bind (·.vendorId) = some vendorId)
    (hn : extracted.invoiceNumber = some number) (hne : number ≠ "") : Unrivalled py w.now i vendorId number := by
  cases h with
  | noVendor h => rw [hv] at h; cases h
  | noNumber h => rw [hn] at h; exact absurd h (by simpa [Py.truthy] using hne)
  | @checked vendorId' number' w₁ w₂ _ hv' hn' _ hc h₁ h₂ =>
    obtain rfl : w = w₁ := h₁.symm
    obtain rfl : w = w₂ := h₂.symm
    obtain rfl : vendorId = vendorId' := Option.some.inj (hv.symm.trans hv')
    obtain rfl : number = number' := Option.some.inj (hn.symm.trans hn')
    rintro o ho hid ⟨m, hm, hmv⟩
    have hrow : w.now.invoice o.id = some o := Table.mem_rows_iff.mp ho
    have hother : o.id ∈ otherIds i vendorId w.now := by
      refine List.mem_map_of_mem (List.mem_filter.mpr ⟨ho, ?_⟩)
      simpa [hid] using ⟨m, hm, hmv⟩
    obtain ⟨w₁, w₂, rfl, hl, rfl⟩ := hc.none_of_nil (.alone i) rfl hother
    generalize hcand : (none : Option DuplicateCandidate) = cand at hl
    cases hl with
    | missing h hnone =>
      cases h
      rw [hrow] at hnone
      cases hnone
    | excluded h ho' hex =>
      cases h
      rw [hrow] at ho'
      cases ho'
      exact .inl hex
    | compared h ho' hex h' =>
      cases h
      cases h'
      rw [hrow] at hcand
      exact .inr (Option.map_eq_none_iff.mp hcand.symm)

/-- What the results behind an automatic approval had compared. -/
structure Gate (py : Py) (i : Uuid) (extracted : ExtractedInvoice) (vendorId : Uuid) (po : PurchaseOrder) (d : DB)
    (results : List RuleResult) : Prop where
  required : verdicts "required_fields_present" results = [(.info, true)] ∧ extracted.supplierName ≠ none ∧
    extracted.invoiceNumber ≠ none ∧ extracted.invoiceDate ≠ none ∧ extracted.total ≠ none
  vendor : verdicts "po_vendor_mismatch" results = [(.info, true)] ∧ po.vendorId = vendorId
  amount : po.total.cents = 0 ∧ verdicts "po_amount_tolerance" results = [(.warning, false)] ∨
    po.total.cents ≠ 0 ∧ verdicts "po_amount_tolerance" results = [(.info, true)] ∧
      ∃ total, extracted.total = some total ∧ WithinTolerance total po.total.toDecimal
  currency : Py.truthy extracted.currency = false ∧ verdicts "po_currency_match" results = [(.warning, false)] ∨
    verdicts "po_currency_match" results = [(.info, true)] ∧ ∃ currency, extracted.currency = some currency ∧
      currency ≠ "" ∧ py.upper (py.strip currency) = py.upper (py.strip po.currency)
  duplicate : verdicts "duplicate_invoice_number" results = [(.info, true)] ∧
    ∃ number, extracted.invoiceNumber = some number ∧ (number = "" ∨ Unrivalled py d i vendorId number)

section gate
variable {env : Env} {w : World} {inv : Invoice} {i : Uuid}

theorem Numeric.isZero_toDecimal (n : Numeric) : n.toDecimal.isZero = true ↔ n.cents = 0 := by
  simp [Numeric.toDecimal, PyDecimal.isZero]

theorem severityOf_passed {r : RuleResult} {failing : Severity} (h : r.severity = severityOf r.passed failing)
    (hp : r.passed = true) : (r.severity, r.passed) = (.info, true) := by
  rw [h, hp]
  rfl

/-- **Rules that block nothing.** -/
theorem gate_of_runRules {inp : ValidationInput} {vendorId : Uuid} {po : PurchaseOrder} {row : Option InvoiceMatch}
    {results : List RuleResult} (h : runRules env.py inp = .ok results) (hb : hasBlockingFailure results = false)
    (hpo : inp.matchedPo = some (poSnapshot po)) (hvid : inp.matchedVendorId = some vendorId)
    (hrow : row.bind (·.vendorId) = some vendorId)
    (hc : Checked env.py Eq i row inp.invoice w inp.duplicateCandidates) :
    Gate env.py i inp.invoice vendorId po w.now results := by
  obtain ⟨arithmetic, lines, amount, -, -, hm, hresults⟩ := runRules_eq_ok h
  have hin : ∀ {r}, r ∈ [ruleRequiredFieldsPresent inp, arithmetic, lines, amount, rulePoCurrencyMatch env.py inp,
      rulePoVendorMismatch inp, ruleDuplicateInvoiceNumber env.py inp] →
      r.severity = severityOf r.passed .error → r.passed = true :=
    fun hr hs => passed_of_not_blocking hb (hresults ▸ hr) hs
  -- A missing field is an error, so all are there.
  have hreq : (ruleRequiredFieldsPresent inp).passed = true := hin (by simp) rfl
  have hmissing := missingFields_eq_nil (List.isEmpty_iff.mp hreq)
  obtain ⟨total, htotal⟩ := Option.ne_none_iff_exists'.mp hmissing.2.2.2
  obtain ⟨number, hnumber⟩ := Option.ne_none_iff_exists'.mp hmissing.2.1
  obtain ⟨hrm, hamount⟩ := rulePoAmountTolerance_cases hm hpo htotal
  obtain ⟨hvsev, hvendor⟩ := rulePoVendorMismatch_cases hpo hvid
  have hdsev := (@ruleDuplicateInvoiceNumber_cases env.py inp).1
  have hvpass := hin (by simp) hvsev
  have hdpass := hin (by simp) hdsev
  obtain ⟨v₁, v₂, v₃, v₄, v₅⟩ := verdicts_of_runRules h hm hrm
  refine ⟨⟨?_, hmissing⟩, ⟨?_, hvendor hvpass⟩, ?_, ?_, ?_, number, hnumber, ?_⟩
  · rw [v₁, severityOf_passed rfl hreq]
  · rw [v₄, severityOf_passed hvsev hvpass]
  · rw [v₂]
    rcases hamount with ⟨hz, hs, hp⟩ | ⟨hz, hs, hwithin⟩
    · exact .inl ⟨(Numeric.isZero_toDecimal _).mp hz, by rw [hs, hp]⟩
    · have hp := hin (by simp) hs
      refine .inr ⟨fun hcents => ?_, by rw [severityOf_passed hs hp], total, htotal, hwithin hp⟩
      have hz' := (Numeric.isZero_toDecimal po.total).mpr hcents
      exact absurd (hz'.symm.trans hz) (by decide)
  · rw [v₃]
    rcases rulePoCurrencyMatch_cases hpo with ⟨hz, hs, hp⟩ | ⟨currency, hcur, hne, hs, hmatch⟩
    · exact .inl ⟨hz, by rw [hs, hp]⟩
    · have hp := hin (by simp) hs
      exact .inr ⟨by rw [severityOf_passed hs hp], currency, hcur, hne, hmatch hp⟩
  · rw [v₅, severityOf_passed hdsev hdpass]
  · by_cases hne : number = ""
    · exact .inl hne
    · rw [candidates_eq_nil h hb (by rw [hnumber]; simpa [Py.truthy] using hne)] at hc
      exact .inr (hc.unrivalled hrow hnumber hne)

/-- **No automatic approval without its comparisons**, the three cases apart
that `Gate` names. -/
theorem gate_of_autoApproved (h : Reachable env w) (hi : w.now.invoice i = some inv) (hauto : AutoApproved inv) :
    ∃ v r row vendorId po d, inv.validations = [v] ∧ inv.result = some r ∧ inv.invoiceMatches = [row] ∧
      row.vendorId = some vendorId ∧ poOf w.now (some row) = some po ∧
      d ∈ w.stores ∧ (d.invoice i).map (·.status) = some .validating ∧
      hasBlockingFailure v.results = false ∧ Gate env.py i r.invoice vendorId po d v.results := by
  obtain ⟨e, r, v, g⟩ := h.grounds hi hauto
  have hid := DB.id_of_invoice hi
  obtain ⟨w₁, inv₁, cs, hsuf, hown, hs₁, -, hc, hrules, hp⟩ := g.judged
  have hb : hasBlockingFailure v.results = false := by
    have := hp.symm.trans g.passed
    simpa using this
  obtain ⟨po, hpo⟩ := poOf_matchRow g.po
  obtain ⟨vendorId, hv⟩ : ∃ vendorId, (some (matchRow env.py r.invoice w.now)).bind (·.vendorId) = some vendorId := by
    have hident := g.identified
    rw [vendorIdentified, Bool.and_eq_true] at hident
    exact Option.isSome_iff_exists.mp hident.1
  rw [hid] at hown hc
  exact ⟨v, r, _, vendorId, po, w₁.now, g.validation, g.result, g.row, hv, hpo,
    hsuf.subset List.mem_cons_self, by rw [hown, ← hs₁]; rfl, hb,
    gate_of_runRules hrules hb (by rw [hpo]; rfl) hv hv hc⟩

end gate

/-- What a rule came to for invoice 5, once decided. -/
def Sample.verdict (a : Sample.Answer) (rule : String) : Option (InvoiceStatus × List (Severity × Bool × String)) :=
  ((Sample.after (Sample.decided 5 "first" a)).now.invoice (Sample.uuid 5)).map fun inv =>
    (inv.status, inv.validations.flatMap fun v =>
      (v.results.filter fun r => r.rule = rule).map fun r => (r.severity, r.passed, r.message))

/-- Three invoices approved with a rule that compared nothing: no currency,
a purchase order of zero, an empty number. -/
theorem vacuous_approvals :
    Sample.verdict { Sample.plain with currency := none } "po_currency_match" =
        some (.autoApproved, [(.warning, false, "invoice currency is missing")]) ∧
      Sample.verdict { Sample.plain with orderNumber := "PO-2" } "po_amount_tolerance" =
        some (.autoApproved, [(.warning, false, "PO PO-2 total is zero, cannot compute a tolerance")]) ∧
      Sample.verdict { Sample.plain with number := "" } "duplicate_invoice_number" =
        some (.autoApproved, [(.info, true, "skipped: no invoice number extracted")]) :=
  ⟨by decide +kernel, by decide +kernel, by decide +kernel⟩

theorem gate_of_sample : ∃ inv v r row vendorId po d,
    (Sample.after (Sample.decided 5 "first" Sample.plain)).now.invoice (Sample.uuid 5) = some inv ∧
      inv.validations = [v] ∧ inv.result = some r ∧ inv.invoiceMatches = [row] ∧
      Gate Sample.py (Sample.uuid 5) r.invoice vendorId po d v.results := by
  obtain ⟨inv, hi, hs⟩ := Option.map_eq_some_iff.mp Sample.statusOf_decided
  have hauto := (Sample.reachable_after _).autoApproved hi hs
  obtain ⟨v, r, row, vendorId, po, d, hv, hr, hrow, -, -, -, -, -, hgate⟩ :=
    gate_of_autoApproved (Sample.reachable_after _) hi hauto
  exact ⟨inv, v, r, row, vendorId, po, d, hi, hv, hr, hrow, hgate⟩

/-! ## The confidence scores -/

/-- On the scale, and not below the threshold. -/
def PyFloat.Trusted (x : PyFloat) : Prop := ∃ q, x = .fin q ∧ 3 / 4 ≤ q ∧ q ≤ 1

/-- A number, and not above the scale. -/
def PyFloat.NotAbove (x : PyFloat) : Prop := x ≠ .nan ∧ (PyFloat.fin 1).lt x = false

/-- At or above the threshold, or no number: that is what the gate lets by. -/
theorem PyFloat.trusted_iff {x : PyFloat} (h : x.lt autoApproveConfidenceThreshold = false) :
    x.Trusted ↔ x.NotAbove := by
  cases x with
  | nan => simp [Trusted, NotAbove]
  | inf neg => cases neg <;> simp_all [Trusted, NotAbove, lt, autoApproveConfidenceThreshold]
  | fin q => simp_all [Trusted, NotAbove, lt, autoApproveConfidenceThreshold]

section confidence
variable {env : Env} {w : World} {inv : Invoice} {i : Uuid}

/-- Every critical field has a confidence, on the scale and not below the
threshold. -/
def Confident (conf : Dict PyFloat) : Prop := ∀ f ∈ criticalFields, ∃ x, conf.get f = some x ∧ x.Trusted

theorem confident_iff {conf : Dict PyFloat} (h : lowConfidence conf = []) :
    Confident conf ↔ ∀ f ∈ criticalFields, ∀ x, conf.get f = some x → x.NotAbove := by
  rw [lowConfidence, List.filter_eq_nil_iff] at h
  refine forall_congr' fun f => imp_congr_right fun hf => ?_
  have hlow := h f hf
  cases hx : conf.get f with
  | none =>
    -- An absent score counts as zero, below the threshold.
    rw [hx] at hlow
    exact absurd (by decide +kernel) hlow
  | some x =>
    rw [hx, Option.getD_some, Bool.not_eq_true] at hlow
    simpa using PyFloat.trusted_iff hlow

/-- **The confidence gate.** An automatic approval rests on confidence scores
that are all there, from 0.75 to 1, exactly when none of them is above 1 or
no number. -/
theorem confident_of_autoApproved (h : Reachable env w) (hi : w.now.invoice i = some inv) (hauto : AutoApproved inv) :
    ∃ e r conf, inv.extractions = [e] ∧ e.resultJson = some r ∧ conf = r.fieldConfidence ∧
      e.fieldConfidence = some conf ∧
      (Confident conf ↔ ∀ f ∈ criticalFields, ∀ x, conf.get f = some x → x.NotAbove) := by
  obtain ⟨e, r, v, g⟩ := h.grounds hi hauto
  exact ⟨e, r, r.fieldConfidence, g.extraction, g.stored, rfl, g.confidence, confident_iff g.confident⟩

/-- An invoice approved on scores of 2.0. -/
theorem overconfident_approval : ∃ inv e conf,
    (Sample.after (Sample.decided 5 "first" { Sample.plain with confidence := 2 })).now.invoice (Sample.uuid 5) =
      some inv ∧ inv.status = .autoApproved ∧ inv.extractions = [e] ∧ e.fieldConfidence = some conf ∧
      ¬ Confident conf := by
  have hrun : ((Sample.after (Sample.decided 5 "first" { Sample.plain with confidence := 2 })).now.invoice
      (Sample.uuid 5)).map (fun inv => (inv.status, inv.extractions.map fun e => e.fieldConfidence.bind (·.get "total"))) =
      some (.autoApproved, [some (.fin 2)]) := by decide +kernel
  obtain ⟨inv, hi, heq⟩ := Option.map_eq_some_iff.mp hrun
  obtain ⟨hs, hex⟩ := Prod.mk.inj heq
  obtain ⟨e, he, hscore⟩ := List.map_eq_singleton_iff.mp hex
  obtain ⟨conf, hconf, htotal⟩ := Option.bind_eq_some_iff.mp hscore
  refine ⟨inv, e, conf, hi, hs, he, hconf, fun hc => ?_⟩
  obtain ⟨x, hx, q, rfl, -, hq⟩ := hc "total" (by decide)
  rw [htotal] at hx
  cases hx
  norm_num at hq

theorem confident_of_sample : ∃ inv e conf,
    (Sample.after (Sample.decided 5 "first" Sample.plain)).now.invoice (Sample.uuid 5) = some inv ∧
      inv.extractions = [e] ∧ e.fieldConfidence = some conf ∧ Confident conf := by
  have hrun : ((Sample.after (Sample.decided 5 "first" Sample.plain)).now.invoice (Sample.uuid 5)).map (fun inv =>
      (inv.status, inv.extractions.map fun e => criticalFields.map fun f => e.fieldConfidence.bind (·.get f))) =
      some (.autoApproved, [List.replicate 5 (some (.fin 1))]) := by decide +kernel
  obtain ⟨inv, hi, heq⟩ := Option.map_eq_some_iff.mp hrun
  obtain ⟨hs, hscores⟩ := Prod.mk.inj heq
  have hauto := (Sample.reachable_after _).autoApproved hi hs
  obtain ⟨e, r, conf, he, -, -, hconf, hiff⟩ := confident_of_autoApproved (Sample.reachable_after _) hi hauto
  refine ⟨inv, e, conf, hi, he, hconf, hiff.mpr fun f hf x hx => ?_⟩
  rw [he, List.map_singleton, List.cons.injEq] at hscores
  have hmem : some x ∈ List.replicate 5 (some (PyFloat.fin 1)) := by
    rw [← hscores.1, ← hx]
    exact List.mem_map.mpr ⟨f, hf, by rw [hconf, Option.bind_some]⟩
  obtain rfl : x = .fin 1 := Option.some.inj (List.eq_of_mem_replicate hmem)
  exact ⟨by simp, by decide +kernel⟩

end confidence

/-! ## The spend -/

instance (inv : Invoice) : Decidable (AutoApproved inv) :=
  inferInstanceAs (Decidable (∃ a ∈ inv.auditLog, a.toStatus = .autoApproved))

/-- The total that was extracted. -/
def Invoice.total (inv : Invoice) : ℚ := ((inv.result.bind (·.invoice.total)).map PyDecimal.toRat).getD 0

/-- The invoices the system approved against a purchase order. -/
def spenders (w : World) (p : PurchaseOrder) : List Invoice :=
  w.now.invoices.rows.filter fun inv =>
    AutoApproved inv ∧ (latestMatch inv.invoiceMatches).bind (·.poId) = some p.id

section spend
variable {env : Env} {w : World} {inv : Invoice} {i : Uuid}

/-- The tolerance, 2%, up to the rounding of the comparison to 28 digits. -/
def tolerance : ℚ := 2 / 100 / (1 - 16 * 10 ^ (-28 : Int))

/-- What the comparison lets through beyond 2% is within its rounding. -/
theorem toleranceEdge_le {n : ℕ} (hn : 0 < n) : toleranceEdge n ≤ tolerance * (n / 100) := by
  have hlow : (10 : ℚ) ^ Nat.log 10 (2 * n) ≤ 2 * n := by exact_mod_cast Nat.pow_log_le_self 10 (by omega)
  have hslack : (toleranceSlack n : ℚ) * 10 ^ (Nat.log 10 (2 * n) + 1) ≤ 5 * n := by
    exact_mod_cast Nat.div_mul_le_self (5 * n) (10 ^ (Nat.log 10 (2 * n) + 1))
  have hunit : toleranceUnit n = 10 ^ Nat.log 10 (2 * n) / 10 ^ 31 := by
    rw [toleranceUnit, zpow_sub₀ (by norm_num), zpow_natCast]
    rfl
  rw [pow_succ] at hslack
  rw [toleranceEdge, hunit, tolerance]
  generalize (10 : ℚ) ^ Nat.log 10 (2 * n) = a at *
  calc (n : ℚ) / 5000 + (toleranceSlack n + 1 / 2) * (a / 10 ^ 31)
      = (n : ℚ) / 5000 + (toleranceSlack n * (a * 10) / 10 ^ 32 + a / 2 / 10 ^ 31) := by ring
    _ ≤ (n : ℚ) / 5000 + (5 * n / 10 ^ 32 + n / 10 ^ 31) := by gcongr; linarith
    _ ≤ 2 / 100 / (1 - 16 * 10 ^ (-28 : Int)) * ((n : ℚ) / 100) := by
        have hn0 : (0 : ℚ) ≤ n := by positivity
        norm_num
        linarith

/-- What the comparison computed in 28 digits says of the exact amounts. -/
theorem WithinTolerance.le {total : PyDecimal} {n : Numeric} (hn : 0 < n.cents) (h : WithinTolerance total n.toDecimal) :
    total.toRat ≤ (1 + tolerance) * n.toDecimal.toRat := by
  have hnat : 0 < n.cents.natAbs := Int.natAbs_pos.mpr hn.ne'
  have hcents : n.toDecimal.toRat = n.cents.natAbs / 100 := by
    rw [Numeric.toRat_toDecimal, Nat.cast_natAbs, abs_of_pos hn]
  have hne : n.toDecimal.toRat ≠ 0 := by
    rw [hcents]
    positivity
  have hverdict := h.verdict hne
  rw [hcents] at hverdict ⊢
  have hdiff : |total.toRat - n.cents.natAbs / 100| ≤ toleranceEdge n.cents.natAbs := by
    rcases (toleranceVerdict_pos_iff hnat n.bound hverdict).mp rfl with hlt | ⟨heq, -⟩
    · exact hlt.le
    · exact heq.le
  have := (le_abs_self _).trans (hdiff.trans (toleranceEdge_le hnat))
  linarith

/-- One approval spends no more than its purchase order and the tolerance. -/
theorem Reachable.total_le (h : Reachable env w) {p : PurchaseOrder} (hp : p ∈ w.now.purchaseOrders.rows)
    (hpos : 0 < p.total.cents) (hinv : inv ∈ spenders w p) :
    inv.total ≤ (1 + tolerance) * p.total.toDecimal.toRat := by
  obtain ⟨hmem, hcond⟩ := List.mem_filter.mp hinv
  obtain ⟨hauto, hpo⟩ := of_decide_eq_true hcond
  obtain ⟨v, r, row, vendorId, po, d, -, hr, hrow, -, hpoOf, -, -, -, hgate⟩ :=
    gate_of_autoApproved h (Table.mem_rows_iff.mp hmem) hauto
  -- The order the rules compared with is `p`.
  rw [hrow] at hpo
  rw [poOf, show (some row).bind (·.poId) = some p.id from hpo] at hpoOf
  obtain rfl : p = po := Option.some.inj ((Table.mem_rows_iff.mp hp).symm.trans hpoOf)
  rcases hgate.amount with ⟨hzero, -⟩ | ⟨-, -, total, htotal, hwithin⟩
  · omega
  · have htot : inv.total = total.toRat := by simp [Invoice.total, hr, htotal]
    rw [htot]
    exact hwithin.le hpos

/-- **The spend against a purchase order**: at most its total and the
tolerance for each invoice the system approved. -/
theorem spend_le (h : Reachable env w) {p : PurchaseOrder} (hp : p ∈ w.now.purchaseOrders.rows)
    (hpos : 0 < p.total.cents) :
    ((spenders w p).map Invoice.total).sum ≤
      (spenders w p).length * ((1 + tolerance) * p.total.toDecimal.toRat) := by
  have hsum := List.sum_le_card_nsmul ((spenders w p).map Invoice.total) ((1 + tolerance) * p.total.toDecimal.toRat)
    fun x hx => by
      obtain ⟨inv, hinv, rfl⟩ := List.mem_map.mp hx
      exact h.total_le hp hpos hinv
  rwa [List.length_map, nsmul_eq_mul] at hsum

end spend

/-- The world after two invoices of 100.00, of different numbers, on one
purchase order of 100.00. -/
def Sample.twice : World :=
  Sample.after (Sample.decided 5 "first" Sample.plain ++ Sample.decided 6 "second" { Sample.plain with number := "N-2" })

/-- Both were approved. -/
theorem overspent : ((spenders Sample.twice Sample.order).map Invoice.total).sum = 200 ∧
    Sample.order.total.toDecimal.toRat = 100 := by decide +kernel

theorem spend_le_of_sample : ((spenders Sample.twice Sample.order).map Invoice.total).sum ≤
    (spenders Sample.twice Sample.order).length * ((1 + tolerance) * Sample.order.total.toDecimal.toRat) :=
  spend_le (Sample.reachable_after _) (by rw [(Sample.grows_after _).purchaseOrders]; exact List.mem_cons_self) (by decide)

end InvoiceOps
