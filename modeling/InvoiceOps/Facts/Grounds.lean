/-
What the later rows of an invoice were made from, in every serial run: its
match row from its extraction, its validation from both, its automatic
approval from all three (`Grounds`). Every stage selects "the latest" row on
its own; they all select the same, because there is only one.
-/
import InvoiceOps.Facts.Lifecycle

namespace InvoiceOps

/-- The system itself approved the invoice. -/
def AutoApproved (inv : Invoice) : Prop := ∃ a ∈ inv.auditLog, a.toStatus = .autoApproved

/-- Validation `v` is what the rules say of extraction result `r`, of match
row `row`, and of the other invoices as checked up to some world before
`w`, in which invoice `i` was VALIDATING. `R` is what others did meanwhile. -/
inductive Judged (env : Env) (R : World → World → Prop) (w : World) (i : Uuid) (row : Option InvoiceMatch)
    (r : ExtractionResult) (v : Validation) : Prop
  | mk (w₁ : World) (inv₁ : Invoice) (cs : List DuplicateCandidate) : w₁.stores <:+ w.stores →
      w₁.now.invoice i = some inv₁ → inv₁.status = .validating → latestMatch inv₁.invoiceMatches = row →
      Checked env.py R i row r.invoice w₁ cs →
      runRules env.py ⟨r.invoice, (poOf w.now row).map poSnapshot, row.bind (·.vendorId), cs⟩ = .ok v.results →
      v.passed = !hasBlockingFailure v.results → Judged env R w i row r v

/-- The one decision of the system on `inv`, from its rows. -/
def Decided (inv : Invoice) (v : Validation) (e : Extraction) (d : ApprovalDecision) : Prop :=
  inv.validations = [v] ∧ inv.extractions = [e] ∧
    d = decideApproval v.passed (vendorIdentified (latestMatch inv.invoiceMatches))
      (hasPo (latestMatch inv.invoiceMatches)) (e.fieldConfidence.getD .empty)

/-- What is kept of every invoice. -/
structure Backed (env : Env) (R : World → World → Prop) (w : World) (inv : Invoice) : Prop where
  ok : RowOk inv
  trail : Trail .received inv.auditLog inv.status
  matched : InvoiceStatus.atOrPast .validating inv.status = true →
    ∃ r, inv.result = some r ∧ inv.invoiceMatches = [matchRow env.py r.invoice w.now]
  judged : InvoiceStatus.atOrPast .validated inv.status = true →
    ∃ r v, inv.result = some r ∧ inv.validations = [v] ∧
      Judged env R w inv.id (latestMatch inv.invoiceMatches) r v
  decided : InvoiceStatus.atOrPast .needsReview inv.status = true → ∃ v e d, Decided inv v e d ∧
    ⟨.validated, d.outcome, "system", some (decisionReason d)⟩ ∈ inv.auditLog
  approved : AutoApproved inv → (inv.status = .autoApproved ∨ inv.status = .exported) ∧
    ∃ v e d, Decided inv v e d ∧ d.outcome = .autoApproved

section backed
variable {env : Env} {R : World → World → Prop} {w w' : World} {inv inv' : Invoice} {i : Uuid}

theorem poOf_congr {d d' : DB} (h : d'.purchaseOrders = d.purchaseOrders) (row : Option InvoiceMatch) :
    poOf d' row = poOf d row := by
  simp only [poOf, h]

theorem matchRow_congr {d d' : DB} (hv : d'.vendors = d.vendors) (hp : d'.purchaseOrders = d.purchaseOrders)
    (py : Py) (extracted : ExtractedInvoice) : matchRow py extracted d' = matchRow py extracted d := by
  simp only [matchRow, vendorIdentities, poIdentities, hv, hp]

theorem Judged.grows {row : Option InvoiceMatch} {r : ExtractionResult} {v : Validation} (hw : Grows w w')
    (h : Judged env R w i row r v) : Judged env R w' i row r v := by
  obtain ⟨w₁, inv₁, cs, hsuf, hrow, hs, hmatch, hc, hrules, hp⟩ := h
  exact ⟨w₁, inv₁, cs, hsuf.trans hw.stores, hrow, hs, hmatch, hc,
    by rw [poOf_congr hw.purchaseOrders]; exact hrules, hp⟩

theorem Backed.grows (hw : Grows w w') (h : Backed env R w inv) : Backed env R w' inv where
  ok := h.ok
  trail := h.trail
  matched hs := by
    obtain ⟨r, hr, hrow⟩ := h.matched hs
    exact ⟨r, hr, by rw [matchRow_congr hw.vendors hw.purchaseOrders]; exact hrow⟩
  judged hs := by
    obtain ⟨r, v, hr, hv, hj⟩ := h.judged hs
    exact ⟨r, v, hr, hv, hj.grows hw⟩
  decided := h.decided
  approved := h.approved

theorem Backed.new (w : World) (h : Untouched inv) : Backed env R w inv where
  ok := .new h
  trail := .new h
  matched hs := by rw [h.status] at hs; cases hs
  judged hs := by rw [h.status] at hs; cases hs
  decided hs := by rw [h.status] at hs; cases hs
  approved hauto := by
    obtain ⟨a, ha, -⟩ := hauto
    rw [h.auditLog] at ha
    cases ha

/-- Only an invoice in one of two statuses has been approved by the system. -/
theorem Backed.not_autoApproved (h : Backed env R w inv) (ha : inv.status ≠ .autoApproved)
    (he : inv.status ≠ .exported) : ¬ AutoApproved inv :=
  fun hauto => (h.approved hauto).1.elim ha he

theorem eq_singleton_of_length {α : Type} {l : List α} {a : α} (h : l.length = 1) (ha : l.getLast? = some a) :
    l = [a] := by
  obtain ⟨b, rfl⟩ := List.length_eq_one_iff.mp h
  cases ha
  rfl

/-- The system approves by moving there. -/
theorem Move.autoApproved {c : Call} {a₀ : List Write}
    (hm : Move env R c a₀ w inv inv') (h : AutoApproved inv') : AutoApproved inv ∨ inv'.status = .autoApproved := by
  cases hm with
  | decided v e d => simpa [AutoApproved, or_and_right, exists_or] using h
  | reviewed isApproval => cases isApproval <;> simpa [AutoApproved, or_and_right, exists_or] using h
  | _ => simpa [AutoApproved, or_and_right, exists_or] using h

/-- **A move keeps every row backed by those before it.** -/
theorem Backed.move {c : Call} {a₀ : List Write} (hid : w.now.invoice inv.id = some inv) (h : Backed env R w inv)
    (hm : Move env R c a₀ w inv inv') : Backed env R w inv' := by
  have hok := h.ok.move hm
  have htrail := h.trail.move hm
  have hnot : inv.status ≠ .autoApproved → inv.status ≠ .exported → inv'.status ≠ .autoApproved →
      ¬ AutoApproved inv' :=
    fun ha he ha' hauto => (hm.autoApproved hauto).elim (h.not_autoApproved ha he) ha'
  cases hm with
  | extracted e r reason hs | extractionFailed e error hs =>
    have hnot := hnot (by rw [hs]; decide) (by rw [hs]; decide) (by simp)
    exact ⟨hok, htrail, fun hs' => (by cases hs'), fun hs' => (by cases hs'), fun hs' => (by cases hs'),
      fun hauto => absurd hauto hnot⟩
  | noExtraction reason hs =>
    have hnot := hnot (by rcases hs with hs | hs <;> rw [hs] <;> decide)
      (by rcases hs with hs | hs <;> rw [hs] <;> decide) (by simp)
    exact ⟨hok, htrail, fun hs' => (by cases hs'), fun hs' => (by cases hs'), fun hs' => (by cases hs'),
      fun hauto => absurd hauto hnot⟩
  | matched r reason hs hr =>
    have hnot := hnot (by rw [hs]; decide) (by rw [hs]; decide) (by simp)
    have hnone : inv.invoiceMatches = [] := by
      have hlen := h.ok.matched
      rw [hs] at hlen
      exact List.length_eq_zero_iff.mp hlen
    exact ⟨hok, htrail, fun _ => ⟨r, hr, by simp [hnone]⟩, fun hs' => (by cases hs'), fun hs' => (by cases hs'),
      fun hauto => absurd hauto hnot⟩
  | validated r cs results reason hs hr hc hrules =>
    have hnot := hnot (by rw [hs]; decide) (by rw [hs]; decide) (by simp)
    have hnone : inv.validations = [] := by
      have hlen := h.ok.validated
      rw [hs] at hlen
      exact List.length_eq_zero_iff.mp hlen
    refine ⟨hok, htrail, fun _ => h.matched (by rw [hs]; rfl), fun _ => ?_, fun hs' => (by cases hs'),
      fun hauto => absurd hauto hnot⟩
    exact ⟨r, ⟨results, !hasBlockingFailure results⟩, hr, by simp [hnone],
      ⟨w, inv, cs, List.suffix_refl _, hid, hs, rfl, hc, hrules, rfl⟩⟩
  | decided v e d hs hv he hd =>
    have hlen := h.ok.validated
    rw [hs] at hlen
    obtain ⟨e₁, r, hex, hl, -⟩ := h.ok.extraction (by rw [hs]; decide) (by rw [hs]; decide)
    rw [hl] at he
    cases he
    have hdecided : Decided inv v e d := ⟨eq_singleton_of_length hlen hv, hex, hd⟩
    refine ⟨hok, htrail, fun _ => h.matched (by rw [hs]; rfl), fun _ => h.judged (by rw [hs]; rfl),
      fun _ => ⟨v, e, d, hdecided, by simp⟩, fun hauto => ?_⟩
    have hout : d.outcome = .autoApproved := by
      by_contra hout
      exact hnot (by rw [hs]; decide) (by rw [hs]; decide) hout hauto
    exact ⟨.inl hout, v, e, d, hdecided, hout⟩
  | reviewed isApproval actor reason hs =>
    have hnot := hnot (by rw [hs]; decide) (by rw [hs]; decide) (by cases isApproval <;> simp)
    obtain ⟨v, e, d, hd, hmem⟩ := h.decided (by rw [hs]; rfl)
    exact ⟨hok, htrail, fun _ => h.matched (by rw [hs]; rfl), fun _ => h.judged (by rw [hs]; rfl),
      fun _ => ⟨v, e, d, hd, List.mem_append_left _ hmem⟩, fun hauto => absurd hauto hnot⟩
  | exported key now r e p w₀ hc hs =>
    have hs' : inv.status = .autoApproved ∨ inv.status = .approved := by simpa [exportable] using hs
    have hmatched := h.matched (by rcases hs' with hs | hs <;> rw [hs] <;> rfl)
    have hjudged := h.judged (by rcases hs' with hs | hs <;> rw [hs] <;> rfl)
    obtain ⟨v, e, d, hd, hmem⟩ := h.decided (by rcases hs' with hs | hs <;> rw [hs] <;> rfl)
    refine ⟨hok, htrail, fun _ => hmatched, fun _ => hjudged,
      fun _ => ⟨v, e, d, hd, List.mem_append_left _ (List.mem_append_left _ hmem)⟩, fun hauto => ⟨.inr rfl, ?_⟩⟩
    have hauto' : AutoApproved inv := by simpa [AutoApproved, or_and_right, exists_or] using hauto
    exact (h.approved hauto').2

theorem Reachable.backed (h : Reachable env w) : Rows (Backed env Eq) w :=
  h.rows (fun hw h => h.grows hw) (fun w _ _ _ _ => .new w (untouched_newInvoice ..)) fun hid h hm => h.move hid hm

theorem Trail.autoApproved (h : Trail .received inv.auditLog inv.status) (hs : inv.status = .autoApproved) :
    AutoApproved inv := by
  obtain ⟨a, ha, hto⟩ := h.exists_last (by rw [hs]; decide)
  exact ⟨a, ha, hto.trans hs⟩

theorem Reachable.autoApproved (h : Reachable env w) (hi : w.now.invoice i = some inv)
    (hs : inv.status = .autoApproved) : AutoApproved inv := (h.trail i inv hi).autoApproved hs

/-- A match row names a purchase order that is there. -/
theorem poOf_matchRow {py : Py} {extracted : ExtractedInvoice} {d : DB} (h : hasPo (some (matchRow py extracted d)) = true) :
    ∃ po, poOf d (some (matchRow py extracted d)) = some po := by
  obtain ⟨poId, hpo⟩ := Option.isSome_iff_exists.mp h
  obtain ⟨p, hp, rfl⟩ := mem_of_matchPo hpo
  obtain ⟨po, hmem, rfl⟩ := List.mem_map.mp hp
  refine ⟨po, ?_⟩
  rw [poOf, hpo]
  exact Table.mem_rows_iff.mp hmem

/-- What an automatic approval rests on. -/
structure Grounds (env : Env) (w : World) (inv : Invoice) (e : Extraction) (r : ExtractionResult)
    (v : Validation) : Prop where
  extraction : inv.extractions = [e]
  stored : e.resultJson = some r
  result : inv.result = some r
  confidence : e.fieldConfidence = some r.fieldConfidence
  row : inv.invoiceMatches = [matchRow env.py r.invoice w.now]
  validation : inv.validations = [v]
  judged : Judged env Eq w inv.id (some (matchRow env.py r.invoice w.now)) r v
  passed : v.passed = true
  identified : vendorIdentified (some (matchRow env.py r.invoice w.now)) = true
  po : hasPo (some (matchRow env.py r.invoice w.now)) = true
  confident : lowConfidence r.fieldConfidence = []

/-- **Every automatic approval has its grounds.** -/
theorem Reachable.grounds (h : Reachable env w) (hi : w.now.invoice i = some inv) (hauto : AutoApproved inv) :
    ∃ e r v, Grounds env w inv e r v := by
  have hb := h.backed i inv hi
  obtain ⟨hs, v, e, d, ⟨hv, he, hd⟩, hout⟩ := hb.approved hauto
  obtain ⟨e₁, r₁, he₁, -, hres₁, -, hr₁, hconf₁⟩ := hb.ok.extraction
    (by rcases hs with hs | hs <;> rw [hs] <;> decide) (by rcases hs with hs | hs <;> rw [hs] <;> decide)
  obtain ⟨r, hr, hrow⟩ := hb.matched (by rcases hs with hs | hs <;> rw [hs] <;> rfl)
  obtain ⟨r₂, v₂, hr₂, hv₂, hj⟩ := hb.judged (by rcases hs with hs | hs <;> rw [hs] <;> rfl)
  -- The stages found the same extraction and the same validation.
  rw [hr] at hres₁ hr₂
  obtain rfl : r = r₁ := Option.some.inj hres₁
  obtain rfl : r = r₂ := Option.some.inj hr₂
  obtain rfl : v = v₂ := List.singleton_injective (hv.symm.trans hv₂)
  obtain rfl : e = e₁ := List.singleton_injective (he.symm.trans he₁)
  have hlatest : latestMatch inv.invoiceMatches = some (matchRow env.py r.invoice w.now) := by rw [hrow]; rfl
  rw [hlatest] at hj hd
  rw [hd, hconf₁] at hout
  obtain ⟨hpassed, hident, hpo, hlow⟩ := decideApproval_autoApproved_iff.mp hout
  exact ⟨e, r, v, he, hr₁, hr, hconf₁, hrow, hv, hj, hpassed, hident, hpo, hlow⟩

end backed

end InvoiceOps
