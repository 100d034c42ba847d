/-
What a reviewer sees and what is exported. The page shows the last
extraction if it succeeded, the export searches for the last that did; from
NEEDS_REVIEW on they are the same one, and no later run of anything changes
it, the match row, or the rows that names.
-/
import InvoiceOps.Api.ReviewUi
import InvoiceOps.Facts.Alone
import InvoiceOps.Facts.Payloads

namespace InvoiceOps

/-- `inv'` is `inv` later on, when nothing that was shown of it has changed. -/
structure Kept (inv inv' : Invoice) : Prop where
  status : InvoiceStatus.atOrPast .needsReview inv'.status = true
  extractions : inv'.extractions = inv.extractions
  invoiceMatches : inv'.invoiceMatches = inv.invoiceMatches

section kept
variable {env : Env} {w w' : World} {i : Uuid} {inv inv' : Invoice} {e : Export}

theorem Kept.refl (h : InvoiceStatus.atOrPast .needsReview inv.status = true) : Kept inv inv := ⟨h, rfl, rfl⟩

/-- **One move**: the stages that add an extraction or a match row are over. -/
theorem Kept.move {R : World → World → Prop} {c : Call} {a₀ : List Write} {inv₀ : Invoice} (h : Kept inv₀ inv)
    (hm : Move env R c a₀ w inv inv') : Kept inv₀ inv' := by
  have hs := h.status
  cases hm with
  | extracted e r reason hs' | extractionFailed e error hs' | matched r reason hs' =>
    rw [hs'] at hs
    cases hs
  | validated r cs results reason hs' | decided v e d hs' =>
    rw [hs'] at hs
    cases hs
  | noExtraction reason hs' =>
    rcases hs' with hs' | hs' <;>
    · rw [hs'] at hs
      cases hs
  | reviewed isApproval => exact ⟨by cases isApproval <;> rfl, h.extractions, h.invoiceMatches⟩
  | exported => exact ⟨rfl, h.extractions, h.invoiceMatches⟩

/-- The rows of invoice `i` that were shown as in `inv`, later on. -/
def KeptAt (i : Uuid) (inv : Invoice) (w : World) : Prop := ∃ inv', w.now.invoice i = some inv' ∧ Kept inv inv'

theorem KeptAt.act {op : Op} {w₀ : World} (h : KeptAt i inv w) (hact : op.Acts env w₀ w w') : KeptAt i inv w' := by
  obtain ⟨inv₁, hi₁, hk⟩ := h
  have hrow := hact.row i
  rw [hi₁] at hrow
  generalize ho : w'.now.invoice i = o at hrow
  cases hrow with
  | same => exact ⟨inv₁, ho, hk⟩
  | moved _ _ hm => exact ⟨_, ho, hk.move hm⟩

/-- **One operation**, cut anywhere. -/
theorem KeptAt.run (h : KeptAt i inv w) (op : Op) (n : Nat) : KeptAt i inv (cut env op n w) := by
  have hacts := cut_acts env op n w
  generalize cut env op n w = w' at hacts
  induction hacts with
  | refl => exact h
  | tail _ hact ih => exact ih.act hact

/-- **A whole run** keeps what was shown of an invoice in review, and the
vendors and purchase orders. -/
theorem Later.kept (h : Later env w w') (hi : w.now.invoice i = some inv)
    (hs : InvoiceStatus.atOrPast .needsReview inv.status = true) : KeptAt i inv w' ∧ Grows w w' := by
  induction h with
  | refl => exact ⟨⟨inv, hi, .refl hs⟩, .refl w⟩
  | tail _ hcut ih =>
    obtain ⟨op, n, rfl⟩ := hcut
    exact ⟨ih.1.run op n, ih.2.trans (cut_grows env op n _)⟩

theorem Reachable.later (h : Reachable env w) (hl : Later env w w') : Reachable env w' := by
  induction hl with
  | refl => exact h
  | tail _ hcut ih =>
    obtain ⟨op, n, rfl⟩ := hcut
    exact ih.step op n

/-! ## The page -/

theorem Tx.children_run {α : Type} (hi : w.now.invoice i = some inv) (rows : Invoice → List α) :
    (Tx.children i rows).run w id = (.ok (rows inv), w, id) := by
  change (Except.ok (((w.now.invoice i).map rows).getD []), w, id) = _
  rw [hi]
  rfl

theorem related_run {α : Type} (key : Option Uuid) (get : DB → Uuid → Option α) :
    (related key get).run w id = (.ok (key.bind (get w.now)), w, id) := by
  cases key <;> rfl

/-- The summary of an invoice with one extraction, a successful one. -/
theorem summaryView_run {r : ExtractionResult} {x : Extraction} (hi : w.now.invoice inv.id = some inv)
    (hx : inv.extractions = [x]) (hok : x.ok = true) (hr : x.resultJson = some r) :
    (summaryView inv).run w id =
      (.ok ⟨r.invoice.supplierName, r.invoice.total.map PyDecimal.str, r.invoice.currency,
        Dict.get (x.fieldConfidence.getD .empty) "total",
        (vendorOf w.now (latestMatch inv.invoiceMatches)).map (·.legalName),
        (poOf w.now (latestMatch inv.invoiceMatches)).map (·.poNumber)⟩, w, id) := by
  have hshown : Option.filter (·.ok) (some x) = some x := by rw [Option.filter_some, if_pos hok]
  rw [summaryView, Txn.run_bind, Txn.run_map, Tx.children_run hi, hx]
  dsimp only
  rw [List.getLast?_singleton, hshown, Txn.run_bind, Txn.run_map, Tx.children_run hi]
  dsimp only
  rw [Txn.run_bind, related_run]
  dsimp only
  rw [Txn.run_bind, related_run, Option.bind_some, Option.bind_some, hr]
  rfl

/-- **The page** of an invoice in review shows its result, its match row and
the rows that names, and offers the decision. -/
theorem uiInvoiceDetail_run (h : RowOk inv) (hi : w.now.invoice i = some inv) (hs : inv.status = .needsReview) :
    ∃ r confidence, inv.result = some r ∧ (uiInvoiceDetail i).run w id =
      (.ok ⟨⟨r.invoice.supplierName, r.invoice.total.map PyDecimal.str, r.invoice.currency, confidence,
        (vendorOf w.now (latestMatch inv.invoiceMatches)).map (·.legalName),
        (poOf w.now (latestMatch inv.invoiceMatches)).map (·.poNumber)⟩, true⟩, w.commit w.now, id) := by
  obtain ⟨x, r, hx, -, hr, hok, hres, -⟩ := h.extraction (by rw [hs]; decide) (by rw [hs]; decide)
  have hread : (Tx.getInvoice i).run w id = (.ok (some inv), w, id) := by rw [← hi]; rfl
  have hsummary := summaryView_run (DB.id_of_invoice hi ▸ hi) hx hok hres
  refine ⟨r, Dict.get (x.fieldConfidence.getD .empty) "total", hr, ?_⟩
  rw [uiInvoiceDetail, Tx.sessionScope, Txn.run_tryCatch, Txn.run_bind, Txn.run_bind, hread]
  dsimp only
  rw [Txn.run_bind, hsummary, hs]
  rfl

/-- **What is approved is what is exported.** The page a reviewer finds an
invoice in review on shows, of supplier, total, currency, vendor and purchase
order, what the payload of any later export of that invoice carries. -/
theorem summary_exported (h : Reachable env w) (hi : w.now.invoice i = some inv) (hs : inv.status = .needsReview)
    (hl : Later env w w') (hi' : w'.now.invoice i = some inv') (he : e ∈ inv'.exports) :
    ∃ page payload, (uiInvoiceDetail i).run w id = (.ok page, w.commit w.now, id) ∧ page.canDecide = true ∧
      Shipped env w' e payload ∧ page.summary.supplier = payload.supplierName ∧
      page.summary.total = payload.total ∧ page.summary.currency = payload.currency ∧
      page.summary.vendorName = payload.vendorName ∧ page.summary.poNumber = payload.poNumber := by
  obtain ⟨r, confidence, hr, hpage⟩ := uiInvoiceDetail_run (h.rowOk i inv hi) hi hs
  obtain ⟨⟨inv₁, hi₁, hk⟩, hg⟩ := hl.kept hi (by rw [hs]; rfl)
  obtain rfl : inv₁ = inv' := Option.some_injective _ (hi₁.symm.trans hi')
  obtain ⟨r', a, now, hr', -, -, hshipped⟩ := (h.later hl).sourcesOk.sourced i inv₁ hi' e he
  obtain rfl : r = r' := Option.some_injective _ (by rw [← hr, ← hr', Invoice.result, Invoice.result, hk.extractions])
  refine ⟨_, _, hpage, rfl, hshipped, rfl, rfl, rfl, ?_, ?_⟩
  · rw [exportPayload, hk.invoiceMatches, vendorOf_congr hg.vendors]
  · rw [exportPayload, hk.invoiceMatches, poOf_congr hg.purchaseOrders]

end kept

namespace Sample

theorem later_after (ops ops' : List Op) : Later env (after ops) (after (ops ++ ops')) := by
  induction ops' using List.reverseRecOn with
  | nil => rw [List.append_nil]; exact .refl
  | append_singleton ops' op ih =>
    obtain ⟨n, hn⟩ := exists_cut_eq_run env op (after (ops ++ ops'))
    rw [← List.append_assoc, after_concat]
    exact ih.tail ⟨op, n, hn.symm⟩

/-- The invoice without a purchase order, in review and once it is exported. -/
theorem summary_of_reviewed : ∃ inv inv' e page payload,
    (after (decided 5 "first" unordered)).now.invoice (uuid 5) = some inv ∧ inv.status = .needsReview ∧
      (after reviewed).now.invoice (uuid 5) = some inv' ∧ e ∈ inv'.exports ∧ Shipped env (after reviewed) e payload ∧
      ((uiInvoiceDetail (uuid 5)).run (after (decided 5 "first" unordered)) id).1 = .ok page ∧
      page.summary.supplier = payload.supplierName ∧ page.summary.total = payload.total ∧
      page.summary.vendorName = payload.vendorName ∧ page.summary.poNumber = payload.poNumber := by
  have hstatus : statusOf (after (decided 5 "first" unordered)) 5 = some .needsReview := by decide +kernel
  have hrun : ((after reviewed).now.invoice (uuid 5)).map (·.exports.length) = some 1 := by decide +kernel
  obtain ⟨inv, hi, hs⟩ := Option.map_eq_some_iff.mp hstatus
  obtain ⟨inv', hi', hlen⟩ := Option.map_eq_some_iff.mp hrun
  obtain ⟨e, he⟩ := List.length_eq_one_iff.mp hlen
  have hmem : e ∈ inv'.exports := he ▸ List.mem_singleton_self e
  obtain ⟨page, payload, hpage, -, hshipped, hsupplier, htotal, -, hvendor, hpo⟩ :=
    summary_exported (reachable_after _) hi hs (later_after _ _) hi' hmem
  exact ⟨inv, inv', e, page, payload, hi, hs, hi', hmem, hshipped, congrArg Prod.fst hpage, hsupplier, htotal, hvendor,
    hpo⟩

end Sample

end InvoiceOps
