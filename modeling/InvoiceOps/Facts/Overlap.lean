/-
What holds of serial runs and still holds when the calls on different
invoices overlap, node by node: the status of an invoice determines its
rows, its audit rows lead to its status and are never lost, and what the
system approved has passed the gate. That no two approvals are duplicates
is `Facts.Duplicates`.
-/
import InvoiceOps.Facts.Chain
import InvoiceOps.Facts.Duplicates
import InvoiceOps.Facts.Gate

namespace InvoiceOps

section history
variable {env : Env} {s : Sessions} {w : World} {i : Uuid} {inv inv' : Invoice}

theorem Trail.of_cons {e : AuditLog} {es : List AuditLog} {a t : InvoiceStatus} (h : Trail a (e :: es) t) :
    Trail e.toStatus es t := by
  generalize hl : e :: es = l at h
  cases h with
  | nil => cases hl
  | cons _ hrest =>
    cases hl
    exact hrest

/-- What follows the first rows of a trail is a trail. -/
theorem Trail.rest {es es' : List AuditLog} {a t t' : InvoiceStatus} (h : Trail a es t)
    (h' : Trail a (es ++ es') t') : Trail t es' t' := by
  induction h with
  | nil => exact h'
  | cons _ _ ih => exact ih h'.of_cons

/-- Every store committed so far leads on to the last one. -/
theorem Recorded.onward_now (h : Recorded env w) {d : DB} (hd : d ∈ w.stores) : d.Onward w.now := by
  rcases List.mem_cons.mp hd with rfl | hd
  · exact .refl _
  · exact (List.pairwise_cons.mp h.onward).1 d hd

/-- **The status determines the rows and the audit trail**, whatever the calls
on different invoices interleave; and what was once committed is not lost. -/
theorem history_of_overlap (hw : Fresh w) (hr : Txn.Sys.Runs (CallOn.prog env) InTurn (.idle w) s) :
    Rows (fun _ inv => History inv ∧ ¬ Lacks inv ∧ Trail .received inv.auditLog inv.status ∧
        (InvoiceStatus.received :: inv.auditLog.map (·.toStatus)).Nodup) s.world ∧
      ∀ d ∈ s.world.stores, ∀ i inv, d.invoice i = some inv → ∃ inv', s.world.now.invoice i = some inv' ∧
        inv.auditLog <+: inv'.auditLog ∧ inv.status.Leads inv'.status ∧
        (inv.status.isTerminal = true → inv' = inv) := by
  have h := recorded_of_run hw hr
  refine ⟨fun i inv hi => ?_, fun d hd i inv hi => ?_⟩
  · have hb := h.backed i inv hi
    exact ⟨hb.ok.history, hb.ok.not_lacks, hb.trail, hb.trail.nodup⟩
  · obtain ⟨inv', hi', hon⟩ := h.onward_now hd i inv hi
    obtain ⟨rest, hrest⟩ := hon.auditLog
    exact ⟨inv', hi', hon.auditLog, ((h.trails d hd i inv hi).rest (hrest ▸ (h.backed i inv' hi').trail)).leads,
      hon.settled⟩

end history

/-! ## The gate -/

/-- What an automatic approval had compared: the vendor, the amount and the
currency with those of the purchase order, and the number with those of the
other invoices of the vendor; an order of nothing, a blank currency and an
empty number are compared with nothing. -/
structure Compared (py : Py) (w : World) (i : Uuid) (extracted : ExtractedInvoice) (vendorId : Uuid)
    (po : PurchaseOrder) : Prop where
  required : extracted.supplierName ≠ none ∧ extracted.invoiceNumber ≠ none ∧ extracted.invoiceDate ≠ none ∧
    extracted.total ≠ none
  vendor : po.vendorId = vendorId
  amount : po.total.cents = 0 ∨ ∃ total, extracted.total = some total ∧ WithinTolerance total po.total.toDecimal
  currency : Py.truthy extracted.currency = false ∨ ∃ currency, extracted.currency = some currency ∧
    py.upper (py.strip currency) = py.upper (py.strip po.currency)
  number : ∃ number, extracted.invoiceNumber = some number ∧ (number = "" ∨ NobodyFound py w i vendorId number)

theorem Gate.compared {py : Py} {w : World} {i vendorId : Uuid} {extracted : ExtractedInvoice} {po : PurchaseOrder}
    {d : DB} {results : List RuleResult} (h : Gate py i extracted vendorId po d results)
    (hnobody : ∀ number, extracted.invoiceNumber = some number → number ≠ "" → NobodyFound py w i vendorId number) :
    Compared py w i extracted vendorId po where
  required := h.required.2
  vendor := h.vendor.2
  amount := h.amount.imp (·.1) (·.2.2)
  currency := h.currency.imp (·.1) fun ⟨_, currency, hc, _, heq⟩ => ⟨currency, hc, heq⟩
  number := by
    obtain ⟨-, number, hn, -⟩ := h.duplicate
    exact ⟨number, hn, or_iff_not_imp_left.mpr (hnobody number hn)⟩

section gate
variable {env : Env} {R : World → World → Prop} {s : Sessions} {w : World} {i : Uuid} {inv : Invoice}

/-- Rules that block nothing clear the invoice, whatever the other invoices
were when they were looked at: with no candidate found, the verdicts are
those of a check that saw none. -/
theorem gate_of_checked {inp : ValidationInput} {vendorId : Uuid} {po : PurchaseOrder} {row : Option InvoiceMatch}
    {results : List RuleResult} (h : runRules env.py inp = .ok results) (hb : hasBlockingFailure results = false)
    (hpo : inp.matchedPo = some (poSnapshot po)) (hvid : inp.matchedVendorId = some vendorId)
    (hrow : row.bind (·.vendorId) = some vendorId) (hc : Checked env.py R i row inp.invoice w inp.duplicateCandidates) :
    ∃ d, Gate env.py i inp.invoice vendorId po d results := by
  let empty : World := ⟨⟨.empty, .empty, .empty⟩, [], w.ext, []⟩
  have hnil := fun number (hn : inp.invoice.invoiceNumber = some number) (hne : number ≠ "") =>
    candidates_eq_nil h hb (show Py.truthy inp.invoice.invoiceNumber = true by rw [hn]; simpa [Py.truthy] using hne)
  have hchecked : Checked env.py Eq i row inp.invoice empty inp.duplicateCandidates := by
    generalize inp.duplicateCandidates = cs at hc hnil
    cases hc with
    | noVendor hnone =>
      rw [hrow] at hnone
      cases hnone
    | noNumber hnum => exact .noNumber hnum
    | checked hv hn hne =>
      rw [hnil _ hn hne]
      exact .checked hv hn hne .nil rfl rfl
  exact ⟨_, gate_of_runRules h hb hpo hvid hrow hchecked⟩

/-- What the rows behind an automatic approval say, whatever others did
meanwhile. -/
theorem Backed.gated (hback : Backed env R w inv) (hauto : AutoApproved inv) : ∃ e r row v vendorId po d,
    inv.extractions = [e] ∧ e.resultJson = some r ∧ inv.result = some r ∧ inv.invoiceMatches = [row] ∧
      inv.validations = [v] ∧ hasBlockingFailure v.results = false ∧ row.vendorId = some vendorId ∧
      poOf w.now (some row) = some po ∧ lowConfidence r.fieldConfidence = [] ∧
      Gate env.py inv.id r.invoice vendorId po d v.results := by
  obtain ⟨hs, v, e, d, ⟨hv, he, hd⟩, hout⟩ := hback.approved hauto
  obtain ⟨e₁, r, he₁, -, hr, -, hstored, hconf⟩ := hback.ok.extraction
    (by rcases hs with hs | hs <;> rw [hs] <;> decide) (by rcases hs with hs | hs <;> rw [hs] <;> decide)
  obtain ⟨r₁, hr₁, hrow⟩ := hback.matched (by rcases hs with hs | hs <;> rw [hs] <;> rfl)
  obtain ⟨r₂, v₂, hr₂, hv₂, w₁, inv₁, cs, -, -, -, -, hc, hrules, hp⟩ :=
    hback.judged (by rcases hs with hs | hs <;> rw [hs] <;> rfl)
  -- The stages found the same extraction and the same validation.
  obtain rfl : r = r₁ := Option.some.inj (hr.symm.trans hr₁)
  obtain rfl : r = r₂ := Option.some.inj (hr.symm.trans hr₂)
  obtain rfl : v = v₂ := List.singleton_injective (hv.symm.trans hv₂)
  obtain rfl : e = e₁ := List.singleton_injective (he.symm.trans he₁)
  have hlatest : latestMatch inv.invoiceMatches = some (matchRow env.py r.invoice w.now) := by rw [hrow]; rfl
  rw [hlatest] at hc hrules hd
  rw [hd, hconf] at hout
  obtain ⟨hpassed, hident, hpo, hlow⟩ := decideApproval_autoApproved_iff.mp hout
  obtain ⟨po, hpo⟩ := poOf_matchRow hpo
  obtain ⟨vendorId, hvid⟩ : ∃ vendorId, (some (matchRow env.py r.invoice w.now)).bind (·.vendorId) = some vendorId := by
    rw [vendorIdentified, Bool.and_eq_true] at hident
    exact Option.isSome_iff_exists.mp hident.1
  have hb : hasBlockingFailure v.results = false := by simpa [hpassed] using hp.symm
  obtain ⟨d', hgate⟩ := gate_of_checked hrules hb (by rw [hpo]; rfl) hvid hvid hc
  exact ⟨e, r, _, v, vendorId, po, d', he, hstored, hr, hrow, hv, hb, hvid, hpo, hlow, hgate⟩

theorem Recorded.compared (h : Recorded env w) (hi : w.now.invoice i = some inv) (hauto : AutoApproved inv) :
    ∃ e r row v vendorId po,
      inv.extractions = [e] ∧ e.resultJson = some r ∧ inv.invoiceMatches = [row] ∧ inv.validations = [v] ∧
        hasBlockingFailure v.results = false ∧ row.vendorId = some vendorId ∧ poOf w.now (some row) = some po ∧
        lowConfidence r.fieldConfidence = [] ∧ Compared env.py w i r.invoice vendorId po := by
  have hid := DB.id_of_invoice hi
  subst hid
  obtain ⟨e, r, row, v, vendorId, po, d, he, hstored, hr, hrow, hv, hb, hvid, hpo, hlow, hgate⟩ :=
    (h.backed _ inv hi).gated hauto
  refine ⟨e, r, row, v, vendorId, po, he, hstored, hrow, hv, hb, hvid, hpo, hlow, ?_⟩
  refine hgate.compared fun number hn hne => ?_
  exact h.nobodyFound_of_autoApproved hi hauto (by rw [Invoice.vendorId, hrow]; exact hvid)
    (by rw [Invoice.number, hr]; exact hn) hne

/-- **The gate holds under interleaving**: what the system approved was
validated against a purchase order of its vendor and against the other
invoices of that vendor, with every critical confidence up to the
threshold. -/
theorem compared_of_overlap (hw : Fresh w) (hr : Txn.Sys.Runs (CallOn.prog env) InTurn (.idle w) s)
    (hi : s.world.now.invoice i = some inv) (hauto : AutoApproved inv) : ∃ e r row v vendorId po,
      inv.extractions = [e] ∧ e.resultJson = some r ∧ inv.invoiceMatches = [row] ∧ inv.validations = [v] ∧
        hasBlockingFailure v.results = false ∧ row.vendorId = some vendorId ∧
        poOf s.world.now (some row) = some po ∧ lowConfidence r.fieldConfidence = [] ∧
        Compared env.py s.world i r.invoice vendorId po :=
  (recorded_of_run hw hr).compared hi hauto

end gate

theorem history_of_rivals : ∃ (s : Sessions) (d : DB) (inv₀ inv : Invoice),
    Txn.Sys.Runs (CallOn.prog Sample.env) InTurn (.idle Sample.received) s ∧
      s.world.now.invoice (Sample.uuid 6) = some inv ∧ inv.status = .needsReview ∧ History inv ∧
      Trail .received inv.auditLog .needsReview ∧ d ∈ s.world.stores ∧ d.invoice (Sample.uuid 6) = some inv₀ ∧
      inv₀.status = .validating ∧ inv₀.auditLog <+: inv.auditLog ∧ inv₀.status.Leads inv.status := by
  obtain ⟨s, -, inv, hr, -, hi, -, hs, -, d, hd, inv₀, hi₀, hs₀⟩ := Sample.rivals_run
  obtain ⟨hrows, hstores⟩ := history_of_overlap Sample.received_fresh hr
  obtain ⟨hhistory, -, htrail, -⟩ := hrows _ inv hi
  obtain ⟨inv', hi', hprefix, hleads, -⟩ := hstores d hd _ inv₀ hi₀
  obtain rfl := Option.some.inj (hi.symm.trans hi')
  exact ⟨s, d, inv₀, inv, hr, hi, hs, hhistory, hs ▸ htrail, hd, hi₀, hs₀, hprefix, hleads⟩

theorem compared_of_rivals : ∃ (s : Sessions) (inv : Invoice) (r : ExtractionResult) (vendorId : Uuid)
    (po : PurchaseOrder), Txn.Sys.Runs (CallOn.prog Sample.env) InTurn (.idle Sample.received) s ∧
      s.world.now.invoice (Sample.uuid 5) = some inv ∧ inv.status = .autoApproved ∧ inv.result = some r ∧
      Compared Sample.env.py s.world (Sample.uuid 5) r.invoice vendorId po := by
  obtain ⟨s, inv, -, hr, hi, -, hs, -⟩ := Sample.rivals_run
  have hb := (recorded_of_run Sample.received_fresh hr).backed _ inv hi
  obtain ⟨e, r, row, v, vendorId, po, he, hstored, -, -, -, -, -, -, hcompared⟩ :=
    compared_of_overlap Sample.received_fresh hr hi (hb.trail.autoApproved hs)
  obtain ⟨e₁, r₁, he₁, -, hr₁, -, hstored₁, -⟩ := hb.ok.extraction (by rw [hs]; decide) (by rw [hs]; decide)
  obtain rfl : e = e₁ := List.singleton_injective (he.symm.trans he₁)
  obtain rfl : r = r₁ := Option.some.inj (hstored.symm.trans hstored₁)
  exact ⟨s, inv, r, vendorId, po, hr, hi, hs, hr₁, hcompared⟩

end InvoiceOps
