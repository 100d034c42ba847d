/-
Whether the discrepancy eval decides as the pipeline does. Both put the same
rules together, and what blocks depends on no more of an order than its
numbers, and on no more of the duplicate candidates than whether there are
any. There the two differ: the pipeline compares invoice numbers stripped
and in lower case, the eval compares them as they are.
-/
import InvoiceOps.Evals.Discrepancy
import InvoiceOps.Facts.Gate
import InvoiceOps.Facts.Overflow
import InvoiceOps.Facts.Vendors

namespace InvoiceOps

/-! ## What blocks -/

/-- A result that blocks automatic approval. -/
def RuleResult.blocks (r : RuleResult) : Bool := r.severity = .error ∧ !r.passed

/-- Whether the rules block, where they raise nothing. -/
def blocking (py : Py) (inp : ValidationInput) : Option Bool := (runRules py inp).toOption.map hasBlockingFailure

/-- Two snapshots of one order, the total written differently perhaps. -/
structure PoSnapshot.Alike (po po' : PoSnapshot) : Prop where
  poNumber : po.poNumber = po'.poNumber
  currency : po.currency = po'.currency
  total : po.total.toRat = po'.total.toRat
  vendorId : po.vendorId = po'.vendorId

section blocking
variable {py : Py} {inp inp' : ValidationInput}

theorem blocks_severityOf {r : RuleResult} (h : r.severity = severityOf r.passed .error) : r.blocks = !r.passed := by
  rw [RuleResult.blocks, h]
  cases r.passed <;> rfl

theorem blocking_eq : blocking py inp =
    (ruleArithmeticConsistency inp).toOption.bind fun arithmetic =>
      (ruleLineItemsSumToSubtotal inp).toOption.bind fun lines =>
        (rulePoAmountTolerance inp).toOption.map fun amount =>
          (ruleRequiredFieldsPresent inp).blocks || (arithmetic.blocks || (lines.blocks || (amount.blocks ||
            ((rulePoCurrencyMatch py inp).blocks || ((rulePoVendorMismatch inp).blocks ||
              (ruleDuplicateInvoiceNumber py inp).blocks))))) := by
  rw [blocking, runRules]
  cases ruleArithmeticConsistency inp with
  | error e => rfl
  | ok arithmetic =>
    cases ruleLineItemsSumToSubtotal inp with
    | error e => rfl
    | ok lines =>
      cases rulePoAmountTolerance inp with
      | error e => rfl
      | ok amount =>
        simp only [PyDecimal.ok_bind, Except.toOption, pure, Except.pure, Option.bind_some, Option.map_some,
          hasBlockingFailure, List.any_cons, List.any_nil, Bool.or_false]
        rfl

theorem duplicate_blocks : (ruleDuplicateInvoiceNumber py inp).blocks =
    (Py.truthy inp.invoice.invoiceNumber && !inp.duplicateCandidates.isEmpty) := by
  unfold ruleDuplicateInvoiceNumber
  cases Py.truthy inp.invoice.invoiceNumber with
  | false => rfl
  | true => cases inp.duplicateCandidates <;> rfl

theorem amount_blocks {po : PoSnapshot} {total : PyDecimal} (hpo : inp.matchedPo = some po)
    (ht : inp.invoice.total = some total) (hne : po.total.toRat ≠ 0) :
    (rulePoAmountTolerance inp).toOption.map RuleResult.blocks =
      (toleranceVerdict total.toRat po.total.toRat).map (!·) := by
  rw [← tolerance_verdict ht hpo hne]
  cases hr : rulePoAmountTolerance inp with
  | error e => rfl
  | ok r =>
    obtain ⟨-, hc⟩ := rulePoAmountTolerance_cases hr hpo ht
    rcases hc with ⟨hzero, -⟩ | ⟨-, hs, -⟩
    · exact absurd ((PyDecimal.isZero_iff po.total).mp hzero) hne
    · exact congrArg some (blocks_severityOf hs)

/-- The amounts are compared as numbers. -/
theorem amount_blocks_of_alike {po po' : PoSnapshot} (hinv : inp.invoice = inp'.invoice) (hpo : inp.matchedPo = some po)
    (hpo' : inp'.matchedPo = some po') (h : po.Alike po') :
    (rulePoAmountTolerance inp).toOption.map RuleResult.blocks =
      (rulePoAmountTolerance inp').toOption.map RuleResult.blocks := by
  cases ht : inp.invoice.total with
  | none =>
    have ht' := hinv ▸ ht
    unfold rulePoAmountTolerance
    simp only [hpo, hpo', ht, ht']
  | some total =>
    have ht' := hinv ▸ ht
    by_cases h0 : po.total.toRat = 0
    · have hz := (PyDecimal.isZero_iff po.total).mpr h0
      have hz' := (PyDecimal.isZero_iff po'.total).mpr (h.total ▸ h0)
      unfold rulePoAmountTolerance
      simp only [hpo, hpo', ht, ht', hz, hz', if_true]
      rfl
    · rw [amount_blocks hpo ht h0, amount_blocks hpo' ht' (h.total ▸ h0), h.total]

/-- **What blocks**: the rest of the rules, on the numbers, or a duplicate. -/
theorem blocking_of_alike {extracted : ExtractedInvoice} {po po' : Option PoSnapshot} {vendorId : Option Uuid}
    {cs : List DuplicateCandidate} (h : Option.Rel PoSnapshot.Alike po po') :
    blocking py ⟨extracted, po, vendorId, cs⟩ = (blocking py ⟨extracted, po', vendorId, []⟩).map
      (· || (Py.truthy extracted.invoiceNumber && !cs.isEmpty)) := by
  have hcurrency : rulePoCurrencyMatch py ⟨extracted, po, vendorId, cs⟩ =
      rulePoCurrencyMatch py ⟨extracted, po', vendorId, []⟩ := by
    cases h with
    | none => rfl
    | some h => simp only [rulePoCurrencyMatch, h.currency]
  have hvendor : rulePoVendorMismatch ⟨extracted, po, vendorId, cs⟩ = rulePoVendorMismatch ⟨extracted, po', vendorId, []⟩ := by
    cases h with
    | none => rfl
    | some h => simp only [rulePoVendorMismatch, h.poNumber, h.vendorId]
  have hamount : (rulePoAmountTolerance ⟨extracted, po, vendorId, cs⟩).toOption.map RuleResult.blocks =
      (rulePoAmountTolerance ⟨extracted, po', vendorId, []⟩).toOption.map RuleResult.blocks := by
    cases h with
    | none => rfl
    | some h => exact amount_blocks_of_alike rfl rfl rfl h
  rw [blocking_eq, blocking_eq, hcurrency, hvendor, duplicate_blocks, duplicate_blocks]
  change ((ruleArithmeticConsistency ⟨extracted, po', vendorId, []⟩).toOption.bind fun arithmetic =>
    (ruleLineItemsSumToSubtotal ⟨extracted, po', vendorId, []⟩).toOption.bind fun lines => _) = _
  cases ruleArithmeticConsistency ⟨extracted, po', vendorId, []⟩ with
  | error e => rfl
  | ok arithmetic =>
    cases ruleLineItemsSumToSubtotal ⟨extracted, po', vendorId, []⟩ with
    | error e => rfl
    | ok lines =>
      have hall := congrArg (Option.map fun b => (ruleRequiredFieldsPresent ⟨extracted, po', vendorId, []⟩).blocks ||
        (arithmetic.blocks || (lines.blocks || (b || ((rulePoCurrencyMatch py ⟨extracted, po', vendorId, []⟩).blocks ||
          ((rulePoVendorMismatch ⟨extracted, po', vendorId, []⟩).blocks ||
            (Py.truthy extracted.invoiceNumber && !cs.isEmpty))))))) hamount
      rw [Option.map_map, Option.map_map] at hall
      refine hall.trans ?_
      simp only [Except.toOption, Option.bind_some, Option.map_map, List.isEmpty_nil, Bool.not_true, Bool.and_false,
        Bool.or_false]
      congr 1
      funext amount
      simp only [Function.comp_apply, Bool.or_assoc]

end blocking

/-! ## The pipeline -/

/-- The three stages in order, each in a session of its own. -/
def pipelined (env : Env) (i : Uuid) (w : World) : World :=
  let w₁ := (served (runMatching env i) w).2
  let w₂ := (served (runValidation env i) w₁).2
  (served (runApproval i) w₂).2

theorem needsReview_iff {passed identified po : Bool} {conf : Dict PyFloat} (hconf : lowConfidence conf = []) :
    (decideApproval passed identified po conf).outcome = .needsReview ↔
      ¬ (passed = true ∧ identified = true ∧ po = true) := by
  have hauto := @decideApproval_autoApproved_iff passed identified po conf
  rw [hconf] at hauto
  rcases decideApproval_outcome passed identified po conf with h | h
  · rw [h] at hauto ⊢
    exact iff_of_false (by decide) (not_not.mpr (by simpa using hauto))
  · rw [h] at hauto ⊢
    exact iff_of_true rfl fun hc => absurd (hauto.mpr ⟨hc.1, hc.2.1, hc.2.2, rfl⟩) (by decide)

/-- Not blocked, with the vendor and the order of the match row: approved. -/
def Cleared (row : InvoiceMatch) (blocked : Bool) : Prop :=
  blocked = false ∧ vendorIdentified (some row) = true ∧ hasPo (some row) = true

section pipeline
variable {env : Env} {w : World} {inv : Invoice} {r : ExtractionResult} {e : Extraction}

/-- What approval makes of a validated invoice with one more match row. -/
theorem approved_needsReview {inv₂ : Invoice} {row : InvoiceMatch} {results : List RuleResult} {w₂ : World}
    (hrow : w₂.now.invoice inv.id = some inv₂)
    (hinv₂ : inv.Handed inv₂ .validated (inv.invoiceMatches ++ [row])
      (inv.validations ++ [⟨results, !hasBlockingFailure results⟩]))
    (he : latestSuccessfulExtraction inv.extractions = some e) (hconf : e.fieldConfidence = some fullConfidence) :
    ((served (runApproval inv.id) w₂).2.now.invoice inv.id).map (·.status) = some .needsReview ↔
      ¬ Cleared row (hasBlockingFailure results) := by
  have hmatch : latestMatch inv₂.invoiceMatches = some row := by
    rw [latestMatch, hinv₂.invoiceMatches, List.getLast?_concat]
  rw [← hinv₂.id] at hrow ⊢
  rw [served_runApproval hrow hinv₂.status
    (by rw [latestValidation, hinv₂.validations, List.getLast?_concat]) (by rw [hinv₂.extractions, he]),
    Option.some_inj, hmatch, hconf, Option.getD_some, needsReview_iff lowConfidence_fullConfidence, Cleared]
  simp

/-- **The pipeline's decision**, in any database. -/
theorem pipelined_needsReview (hrow : w.now.invoice inv.id = some inv) (hs : inv.status = .extracted)
    (he : latestSuccessfulExtraction inv.extractions = some e) (hr : e.resultJson = some r)
    (hconf : e.fieldConfidence = some fullConfidence) :
    ∃ inv₁ w₁ cs, DB.Changed inv.id inv₁ w.now w₁.now ∧
      Checked env.py Eq inv.id (some (matchRow env.py r.invoice w.now)) r.invoice w₁ cs ∧
      (((pipelined env inv.id w).now.invoice inv.id).map (·.status) = some .needsReview ↔
        ∃ blocked, blocking env.py ⟨r.invoice, (poOf w.now (some (matchRow env.py r.invoice w.now))).map poSnapshot,
            (matchRow env.py r.invoice w.now).vendorId, cs⟩ = some blocked ∧
          ¬ Cleared (matchRow env.py r.invoice w.now) blocked) := by
  have hresult : inv.result = some r := by rw [Invoice.result, he]; exact hr
  obtain ⟨inv₁, hinv₁, hch₁⟩ := @served_runMatching env _ _ _ hrow hs hresult
  have hrow₁ := hch₁.self
  rw [pipelined]
  generalize (served (runMatching env inv.id) w).2 = w₁ at hch₁ hrow₁ ⊢
  have hmatch : latestMatch inv₁.invoiceMatches = some (matchRow env.py r.invoice w.now) := by
    rw [latestMatch, hinv₁.invoiceMatches, List.getLast?_concat]
  have hresult₁ : inv₁.result = some r := by rw [Invoice.result, hinv₁.extractions]; exact hresult
  rw [← hinv₁.id] at hrow₁
  obtain ⟨cs, hcs, hval⟩ := @served_runValidation env _ _ _ hrow₁ hinv₁.status hresult₁
  rw [hmatch, hinv₁.id] at hcs
  refine ⟨inv₁, w₁, cs, hch₁, hcs, ?_⟩
  rw [Invoice.ruleInput, hmatch] at hval
  have hpo : poOf w₁.now (some (matchRow env.py r.invoice w.now)) = poOf w.now (some (matchRow env.py r.invoice w.now)) := by
    rw [poOf, poOf, hch₁.purchaseOrders]
  rw [hpo, hinv₁.id, Option.bind_some] at hval
  generalize (served (runValidation env inv.id) w₁).2 = w₂ at hval ⊢
  generalize hd : w₂.now = d₂ at hval
  cases hval with
  | raised herr =>
    -- The session is rolled back, and approval finds nothing to decide on.
    have hrow₂ : w₂.now.invoice inv₁.id = some inv₁ := by rw [hd]; exact hrow₁
    have hidle := served_runApproval_idle hrow₂ (by rw [hinv₁.status]; decide)
    rw [hinv₁.id] at hidle
    rw [hidle, Option.map_some, hinv₁.status]
    refine iff_of_false (by decide) ?_
    rintro ⟨blocked, hb, -⟩
    rw [blocking, herr] at hb
    cases hb
  | @validated results inv₂ _ hok hinv₂ hch₂ =>
    have hrow₂ : w₂.now.invoice inv.id = some inv₂ := by rw [hd, ← hinv₁.id]; exact hch₂.self
    have hb : blocking env.py ⟨r.invoice, (poOf w.now (some (matchRow env.py r.invoice w.now))).map poSnapshot,
        (matchRow env.py r.invoice w.now).vendorId, cs⟩ = some (hasBlockingFailure results) :=
      congrArg (·.toOption.map hasBlockingFailure) hok
    have hhanded : inv.Handed inv₂ .validated (inv.invoiceMatches ++ [matchRow env.py r.invoice w.now])
        (inv.validations ++ [⟨results, !hasBlockingFailure results⟩]) :=
      ⟨hinv₂.id.trans hinv₁.id, hinv₂.status, hinv₂.extractions.trans hinv₁.extractions,
        hinv₂.invoiceMatches.trans hinv₁.invoiceMatches, by rw [hinv₂.validations, hinv₁.validations]⟩
    rw [hb, approved_needsReview hrow₂ hhanded he hconf]
    simp

end pipeline

/-! ## The duplicate check -/

section duplicates
variable {py : Py} {d d' : DB} {w : World} {i vendorId : Uuid} {inv : Invoice} {number : String}

theorem Collected.eq_nil {normalized : String} {w' : World} {ids : List Uuid} {cs : List DuplicateCandidate}
    (h : Collected py Eq normalized w ids w' cs)
    (hnone : ∀ id ∈ ids, ∀ o, w.now.invoice id = some o →
      excludedFromDuplicateCheck o.status = true ∨ sameNumber py normalized o.extractions = none) : cs = [] := by
  induction h with
  | nil => rfl
  | @cons w w₁ w₂ id ids c cs hl hrest ih =>
    have hw : w = w₁ := hl.rely (.alone id)
    subst hw
    rw [ih fun j hj => hnone j (List.mem_cons_of_mem _ hj), List.append_nil, Option.toList_eq_nil_iff]
    cases hl with
    | missing _ _ => rfl
    | excluded _ _ _ => rfl
    | @compared w₁ o w₂ h₁ ho hex h₂ =>
      subst h₁
      rw [ho, Option.map_some, Option.getD_some]
      rcases hnone id List.mem_cons_self o ho with h | h
      · rw [hex] at h
        cases h
      · rw [h]
        rfl

/-- The check alone finds nothing exactly when there is nothing. -/
theorem Checked.nil_iff {row : Option InvoiceMatch} {extracted : ExtractedInvoice} {cs : List DuplicateCandidate}
    (h : Checked py Eq i row extracted w cs) (hv : row.bind (·.vendorId) = some vendorId)
    (hn : extracted.invoiceNumber = some number) (hne : number ≠ "") :
    cs = [] ↔ Unrivalled py w.now i vendorId number := by
  constructor
  · intro hcs
    subst hcs
    exact h.unrivalled hv hn hne
  · intro hun
    cases h with
    | noVendor _ => rfl
    | noNumber _ => rfl
    | @checked vendorId' number' w₁ w₂ _ hv' hn' _ hc h₁ _ =>
      subst h₁
      obtain rfl : vendorId = vendorId' := Option.some.inj (hv.symm.trans hv')
      obtain rfl : number = number' := Option.some.inj (hn.symm.trans hn')
      refine hc.eq_nil fun id hid o ho => ?_
      obtain ⟨o', ho', rfl⟩ := List.mem_map.mp hid
      obtain ⟨hmem, hsel⟩ := List.mem_filter.mp ho'
      have hsame : o' = o := Option.some.inj ((Table.mem_rows_iff.mp hmem).symm.trans ho)
      subst hsame
      simp only [ne_eq, decide_eq_true_eq] at hsel
      exact hun o' hmem hsel.1 (by simpa using hsel.2)

/-- The others are those of the database the pipeline began in. -/
theorem unrivalled_of_changed (h : DB.Changed i inv d d') :
    Unrivalled py d' i vendorId number ↔ Unrivalled py d i vendorId number := by
  have hmem : ∀ o : Invoice, o.id ≠ i → (o ∈ d'.invoices.rows ↔ o ∈ d.invoices.rows) := by
    intro o hid
    rw [Table.mem_rows_iff, Table.mem_rows_iff]
    exact Eq.congr_left (h.other hid)
  constructor
  · exact fun hun o ho hid => hun o ((hmem o hid).mpr ho) hid
  · exact fun hun o ho hid => hun o ((hmem o hid).mp ho) hid

end duplicates

/-! ## The scenario -/

/-- A live invoice of the vendor, and what was extracted from it. -/
structure Rival (vendorId : Uuid) (o : Invoice) (extracted : ExtractedInvoice) : Prop where
  live : excludedFromDuplicateCheck o.status = false
  matched : ∃ m ∈ o.invoiceMatches, m.vendorId = some vendorId
  result : o.result.map (·.invoice) = some extracted

/-- The row of the eval's order; its total may be written differently. -/
structure OrderRow (vendorId : Uuid) (poTotal : PyDecimal) (poCurrency : String) (order : PurchaseOrder)
    (po : PoIdentity) : Prop where
  id : order.id = po.poId
  poNumber : order.poNumber = po.poNumber
  vendorId : order.vendorId = vendorId
  currency : order.currency = poCurrency
  total : order.total.toDecimal.toRat = poTotal.toRat

/-- The database of an eval's scenario: its vendor, the order if there is
one, the invoice just extracted, and the others. -/
structure Scenario (w : World) (inv : Invoice) (invoice : ExtractedInvoice) (vendor : VendorIdentity)
    (po : Option PoIdentity) (poTotal : PyDecimal) (poCurrency : String) (others : List ExtractedInvoice) : Prop where
  vendors : vendorIdentities w.now = [vendor]
  orders : List.Forall₂ (OrderRow vendor.vendorId poTotal poCurrency) w.now.purchaseOrders.rows po.toList
  row : w.now.invoice inv.id = some inv
  status : inv.status = .extracted
  extraction : ∃ e r, latestSuccessfulExtraction inv.extractions = some e ∧ e.resultJson = some r ∧
    r.invoice = invoice ∧ e.fieldConfidence = some fullConfidence
  others : ∃ rows, rows.Perm (w.now.invoices.rows.filter fun o => o.id ≠ inv.id) ∧
    List.Forall₂ (Rival vendor.vendorId) rows others

/-- A vendor is identified exactly when one is returned, and it is one of
those given. -/
theorem identified_cases {py : Py} {extracted : ExtractedInvoice} {vendors : List VendorIdentity} :
    (∃ v ∈ vendors, (matchVendor py extracted vendors).vendorId = some v.vendorId ∧
      identifiedMethods.contains (matchVendor py extracted vendors).method = true) ∨
    (matchVendor py extracted vendors).vendorId = none ∧
      identifiedMethods.contains (matchVendor py extracted vendors).method = false := by
  rcases matchVendor_cases py extracted vendors with ⟨v, -, hv, hm⟩ | ⟨-, hm⟩
  · rw [hm]
    exact .inl ⟨v, (mem_of_taxHits hv).1, rfl, rfl⟩
  · rw [hm]
    rcases matchName_resolved py extracted vendors with ⟨v, hv, hid, hmethod⟩ | ⟨hid, hmethod⟩
    · refine .inl ⟨v, hv, hid, ?_⟩
      rcases List.mem_pair.mp hmethod with h | h <;> rw [h] <;> rfl
    · refine .inr ⟨hid, ?_⟩
      rcases List.mem_pair.mp hmethod with h | h <;> rw [h] <;> rfl

section scenario
variable {py : Py} {w : World} {inv : Invoice} {invoice : ExtractedInvoice} {vendor : VendorIdentity}
  {po : Option PoIdentity} {poTotal : PyDecimal} {poCurrency : String} {others : List ExtractedInvoice}

theorem Scenario.poIdentities (h : Scenario w inv invoice vendor po poTotal poCurrency others) :
    poIdentities w.now = po.toList := by
  have hall : ∀ {orders : List PurchaseOrder} {pos : List PoIdentity},
      List.Forall₂ (OrderRow vendor.vendorId poTotal poCurrency) orders pos →
        orders.map (fun order => (⟨order.id, order.poNumber⟩ : PoIdentity)) = pos := by
    intro orders pos h
    induction h with
    | nil => rfl
    | cons ho _ ih => rw [List.map_cons, ih, ho.id, ho.poNumber]
  exact hall h.orders

theorem Scenario.matchRow_po (h : Scenario w inv invoice vendor po poTotal poCurrency others) :
    (matchRow py invoice w.now).poId = (matchPo py invoice po.toList).poId := by
  rw [matchRow, h.poIdentities]

theorem Scenario.matchRow_vendor (h : Scenario w inv invoice vendor po poTotal poCurrency others) :
    (matchRow py invoice w.now).vendorId = (matchVendor py invoice [vendor]).vendorId ∧
      vendorIdentified (some (matchRow py invoice w.now)) =
        identifiedMethods.contains (matchVendor py invoice [vendor]).method := by
  simp only [matchRow, vendorIdentified, h.vendors, true_and]
  rcases @identified_cases py invoice [vendor] with ⟨v, -, hid, hm⟩ | ⟨hid, hm⟩
  · rw [hid, hm]
    rfl
  · rw [hid, hm]
    rfl

/-- The order the pipeline compares with is the eval's. -/
theorem Scenario.alike (h : Scenario w inv invoice vendor po poTotal poCurrency others) :
    Option.Rel PoSnapshot.Alike ((poOf w.now (some (matchRow py invoice w.now))).map poSnapshot)
      (Discrepancy.matchedPo py invoice vendor po poTotal poCurrency) := by
  have hrow : poOf w.now (some (matchRow py invoice w.now)) =
      (matchPo py invoice po.toList).poId.bind w.now.purchaseOrders.get? := by
    rw [poOf, Option.bind_some, h.matchRow_po]
  rw [hrow, Discrepancy.matchedPo]
  cases hid : (matchPo py invoice po.toList).poId with
  | none => exact .none
  | some id =>
    obtain ⟨p, hp, rfl⟩ := mem_of_matchPo hid
    obtain rfl : po = some p := Option.mem_toList.mp hp
    obtain ⟨order, ho, hnil⟩ : ∃ order, OrderRow vendor.vendorId poTotal poCurrency order p ∧
        w.now.purchaseOrders.rows = [order] := by
      have horders := h.orders
      rw [Option.toList_some] at horders
      cases hrows : w.now.purchaseOrders.rows with
      | nil => rw [hrows] at horders; cases horders
      | cons order rest =>
        rw [hrows] at horders
        cases horders with
        | cons ho hrest => cases hrest; exact ⟨order, ho, rfl⟩
    have hget : w.now.purchaseOrders.get? p.poId = some order := by
      rw [← ho.id]
      exact Table.mem_rows_iff.mp (by rw [hnil]; exact List.mem_singleton_self order)
    rw [Option.bind_some, hget]
    exact .some ⟨ho.poNumber, ho.currency, ho.total, ho.vendorId⟩

theorem Scenario.hasPo_eq (h : Scenario w inv invoice vendor po poTotal poCurrency others) :
    hasPo (some (matchRow py invoice w.now)) = (Discrepancy.matchedPo py invoice vendor po poTotal poCurrency).isSome := by
  rw [hasPo, Option.bind_some, h.matchRow_po, Discrepancy.matchedPo]
  cases hid : (matchPo py invoice po.toList).poId with
  | none => rfl
  | some id =>
    obtain ⟨p, hp, -⟩ := mem_of_matchPo hid
    rw [Option.mem_toList.mp hp]
    rfl

theorem sameNumber_eq_none {o : Invoice} {extracted : ExtractedInvoice} {normalized : String}
    (h : o.result.map (·.invoice) = some extracted) : sameNumber py normalized o.extractions = none ↔
      ∀ number, extracted.invoiceNumber = some number → number ≠ "" → py.lower (py.strip number) ≠ normalized := by
  obtain ⟨r, hr, rfl⟩ := Option.map_eq_some_iff.mp h
  rw [Invoice.result] at hr
  rw [sameNumber, hr, Option.bind_some]
  cases r.invoice.invoiceNumber with
  | none => simp
  | some number => simp

theorem Scenario.unrivalled_iff (h : Scenario w inv invoice vendor po poTotal poCurrency others) {number : String} :
    Unrivalled py w.now inv.id vendor.vendorId number ↔ ∀ o ∈ others, ∀ n, o.invoiceNumber = some n → n ≠ "" →
      py.lower (py.strip n) ≠ py.lower (py.strip number) := by
  obtain ⟨rows, hperm, hall⟩ := h.others
  have hmem : ∀ o, o ∈ rows ↔ o ∈ w.now.invoices.rows ∧ o.id ≠ inv.id := by
    intro o
    rw [hperm.mem_iff, List.mem_filter, decide_eq_true_iff]
  have hrivals : (∀ o ∈ rows, sameNumber py (py.lower (py.strip number)) o.extractions = none) ↔
      ∀ o ∈ others, ∀ n, o.invoiceNumber = some n → n ≠ "" → py.lower (py.strip n) ≠ py.lower (py.strip number) := by
    clear hperm hmem h
    induction hall with
    | nil => simp
    | cons ho _ ih => rw [List.forall_mem_cons, List.forall_mem_cons, ih, sameNumber_eq_none ho.result]
  rw [← hrivals]
  constructor
  · intro hun o ho
    obtain ⟨hrow, hid⟩ := (hmem o).mp ho
    have hlive := (List.forall₂_and_left (p := fun o => excludedFromDuplicateCheck o.status = false ∧
      ∃ m ∈ o.invoiceMatches, m.vendorId = some vendor.vendorId) rows others).mp
        (hall.imp fun o _ ho => ⟨⟨ho.live, ho.matched⟩, ho⟩)
    obtain ⟨hex, hm⟩ := hlive.1 o ho
    exact (hun o hrow hid hm).resolve_left (by rw [hex]; decide)
  · exact fun hnone o hrow hid _ => .inr (hnone o ((hmem o).mpr ⟨hrow, hid⟩))

/-! ## The decisions -/

/-- What both approve, duplicates apart. -/
structure Approvable (py : Py) (invoice : ExtractedInvoice) (vendor : VendorIdentity) (po : Option PoIdentity)
    (poTotal : PyDecimal) (poCurrency : String) : Prop where
  identified : identifiedMethods.contains (matchVendor py invoice [vendor]).method = true
  ordered : (Discrepancy.matchedPo py invoice vendor po poTotal poCurrency).isSome = true
  unblocked : blocking py ⟨invoice, Discrepancy.matchedPo py invoice vendor po poTotal poCurrency,
    (matchVendor py invoice [vendor]).vendorId, []⟩ = some false

/-- An other invoice with the number, as the pipeline compares them, comes
with one that has the number as the eval does. -/
def SameNumbers (py : Py) (invoice : ExtractedInvoice) (others : List ExtractedInvoice) : Prop :=
  ∀ number, invoice.invoiceNumber = some number → number ≠ "" →
    (∃ o ∈ others, ∃ n, o.invoiceNumber = some n ∧ n ≠ "" ∧ py.lower (py.strip n) = py.lower (py.strip number)) →
      ∃ o ∈ others, o.invoiceNumber = some number

/-- With a duplicate or without, one of the two decisions. -/
theorem reviewed_iff {dup identified ordered : Bool} {base : Option Bool} {P : Prop}
    (hP : P ↔ identified = true ∧ ordered = true ∧ base = some false) :
    (∃ blocked, base.map (· || dup) = some blocked ∧ ¬ (blocked = false ∧ identified = true ∧ ordered = true)) ↔
      base.isSome = true ∧ (P → dup = true) := by
  rw [hP]
  cases base with
  | none => simp
  | some b => cases b <;> cases dup <;> cases identified <;> cases ordered <;> simp

theorem approvable_iff : Approvable py invoice vendor po poTotal poCurrency ↔
    identifiedMethods.contains (matchVendor py invoice [vendor]).method = true ∧
      (Discrepancy.matchedPo py invoice vendor po poTotal poCurrency).isSome = true ∧
      blocking py ⟨invoice, Discrepancy.matchedPo py invoice vendor po poTotal poCurrency,
        (matchVendor py invoice [vendor]).vendorId, []⟩ = some false :=
  ⟨fun h => ⟨h.identified, h.ordered, h.unblocked⟩, fun h => ⟨h.1, h.2.1, h.2.2⟩⟩

/-- **The eval's decision.** -/
theorem decide_iff (uuid4 : Nat → Uuid) :
    Discrepancy.decide py uuid4 invoice vendor po poTotal poCurrency others = .ok true ↔
      (blocking py ⟨invoice, Discrepancy.matchedPo py invoice vendor po poTotal poCurrency,
        (matchVendor py invoice [vendor]).vendorId, []⟩).isSome = true ∧
      (Approvable py invoice vendor po poTotal poCurrency →
        (Py.truthy invoice.invoiceNumber && !(Discrepancy.duplicates uuid4 invoice others).isEmpty) = true) := by
  have hrefl : ∀ po : Option PoSnapshot, Option.Rel PoSnapshot.Alike po po := by
    intro po
    cases po with
    | none => exact .none
    | some po => exact .some ⟨rfl, rfl, rfl, rfl⟩
  have hvalue : ∀ s : InvoiceStatus, (s.value == "needs_review") = true ↔ s = .needsReview := by
    intro s
    cases s <;> decide
  rw [← reviewed_iff approvable_iff, ← blocking_of_alike (hrefl _), Discrepancy.decide, blocking]
  cases runRules py ⟨invoice, Discrepancy.matchedPo py invoice vendor po poTotal poCurrency,
      (matchVendor py invoice [vendor]).vendorId, Discrepancy.duplicates uuid4 invoice others⟩ with
  | error e => exact iff_of_false (by intro h; cases h) (by simp [Except.toOption])
  | ok results =>
    simp only [PyDecimal.ok_bind, pure, Except.pure, Except.ok.injEq, hvalue, needsReview_iff lowConfidence_fullConfidence]
    simp [Except.toOption, identifiedMethods]

/-- The eval's candidates. -/
theorem duplicates_iff (uuid4 : Nat → Uuid) :
    (Py.truthy invoice.invoiceNumber && !(Discrepancy.duplicates uuid4 invoice others).isEmpty) = true ↔
      ∃ number, invoice.invoiceNumber = some number ∧ number ≠ "" ∧ ∃ o ∈ others, o.invoiceNumber = some number := by
  rw [Discrepancy.duplicates, Bool.and_eq_true, Bool.not_eq_true', List.isEmpty_eq_false_iff, ne_eq, List.mapIdx_eq_nil_iff,
    List.filter_eq_nil_iff]
  cases hn : invoice.invoiceNumber with
  | none => simp [Py.truthy]
  | some number => simp [Py.truthy]

/-- The pipeline's candidates. -/
theorem Scenario.candidates_iff (h : Scenario w inv invoice vendor po poTotal poCurrency others) {inv₁ : Invoice}
    {w₁ : World} {cs : List DuplicateCandidate} (hch : DB.Changed inv.id inv₁ w.now w₁.now)
    (hcs : Checked py Eq inv.id (some (matchRow py invoice w.now)) invoice w₁ cs)
    (hid : identifiedMethods.contains (matchVendor py invoice [vendor]).method = true) :
    (Py.truthy invoice.invoiceNumber && !cs.isEmpty) = true ↔
      ∃ number, invoice.invoiceNumber = some number ∧ number ≠ "" ∧ ∃ o ∈ others, ∃ n,
        o.invoiceNumber = some n ∧ n ≠ "" ∧ py.lower (py.strip n) = py.lower (py.strip number) := by
  have hvendor : (some (matchRow py invoice w.now)).bind (·.vendorId) = some vendor.vendorId := by
    rw [Option.bind_some, h.matchRow_vendor.1]
    rcases @identified_cases py invoice [vendor] with ⟨v, hv, hm, -⟩ | ⟨-, hm⟩
    · rw [hm, List.mem_singleton.mp hv]
    · rw [hm] at hid
      cases hid
  rw [Bool.and_eq_true, Bool.not_eq_true', List.isEmpty_eq_false_iff]
  cases hn : invoice.invoiceNumber with
  | none => simp [Py.truthy]
  | some number =>
    by_cases hne : number = ""
    · simp [Py.truthy, hne]
    · rw [ne_eq, hcs.nil_iff hvendor hn hne, unrivalled_of_changed hch, h.unrivalled_iff]
      simp [Py.truthy, hne]

/-- **The eval decides as the pipeline does** exactly when it sees a
competing number wherever the pipeline sees one, or when something else
keeps the invoice from being approved. -/
theorem decide_agrees_iff {env : Env} (uuid4 : Nat → Uuid)
    (h : Scenario w inv invoice vendor po poTotal poCurrency others) :
    (Discrepancy.decide env.py uuid4 invoice vendor po poTotal poCurrency others = .ok true ↔
      ((pipelined env inv.id w).now.invoice inv.id).map (·.status) = some .needsReview) ↔
    SameNumbers env.py invoice others ∨ ¬ Approvable env.py invoice vendor po poTotal poCurrency := by
  obtain ⟨e, r, he, hr, rfl, hconf⟩ := h.extraction
  obtain ⟨inv₁, w₁, cs, hch, hcs, hpipe⟩ := @pipelined_needsReview env _ _ _ _ h.row h.status he hr hconf
  rw [blocking_of_alike h.alike] at hpipe
  simp only [Cleared, h.matchRow_vendor, h.hasPo_eq] at hpipe
  rw [reviewed_iff approvable_iff] at hpipe
  rw [decide_iff, hpipe]
  by_cases hA : Approvable env.py r.invoice vendor po poTotal poCurrency
  · have hbase := congrArg Option.isSome hA.unblocked
    rw [Option.isSome_some] at hbase
    simp only [hbase, hA, true_and, true_imp_iff, not_true, or_false]
    rw [duplicates_iff, h.candidates_iff hch hcs hA.identified]
    constructor
    · intro hiff number hn hne hrival
      obtain ⟨number', hn', -, ho⟩ := hiff.mpr ⟨number, hn, hne, hrival⟩
      obtain rfl : number = number' := Option.some.inj (hn.symm.trans hn')
      exact ho
    · intro hsame
      constructor
      · rintro ⟨number, hn, hne, o, ho, hon⟩
        exact ⟨number, hn, hne, o, ho, number, hon, hne, rfl⟩
      · rintro ⟨number, hn, hne, hrival⟩
        exact ⟨number, hn, hne, hsame number hn hne hrival⟩
  · simp [hA]

end scenario

namespace Sample

/-- An invoice of ACME with an extraction under this number. -/
def numbered (id : Uuid) (status : InvoiceStatus) (number : String) (invoiceMatches : List InvoiceMatch) : Invoice where
  id := id
  status := status
  source := .upload
  originalFilename := "invoice.pdf"
  contentType := "application/pdf"
  sizeBytes := 0
  storageKey := ""
  contentSha256 := id.str
  failureReason := none
  extractions := [⟨"model", .pdfplumber, 1, true, some { plain with number }.result, some fullConfidence, none, none⟩]
  invoiceMatches := invoiceMatches
  validations := []
  auditLog := []
  exports := []

/-- The invoice, and another of the vendor. -/
def fresh : Invoice := numbered (uuid 5) .extracted "N-1" []

def rival (number : String) : Invoice :=
  numbered (uuid 6) .approved number [⟨some vendor.id, .exactName, 1, [], none, .notFound⟩]

def contested (number : String) : World where
  now := ⟨world.now.vendors, ⟨[order], by decide⟩, ⟨[fresh, rival number], by
    change [uuid 5, uuid 6].Nodup
    decide⟩⟩
  past := []
  ext := ⟨.empty, fun _ => none, []⟩
  sent := []

/-- The eval's arguments for it. -/
def acme : VendorIdentity := ⟨vendor.id, vendor.legalName, vendor.taxId, vendor.aliases⟩

def acmeOrder : PoIdentity := ⟨order.id, order.poNumber⟩

def extractedAs (number : String) : ExtractedInvoice := { plain with number }.result.invoice

theorem contested_scenario (number : String) : Scenario (contested number) fresh (extractedAs "N-1") acme (some acmeOrder)
    order.total.toDecimal order.currency [extractedAs number] where
  vendors := rfl
  orders := .cons ⟨rfl, rfl, rfl, rfl, rfl⟩ .nil
  row := rfl
  status := rfl
  extraction := ⟨_, _, rfl, rfl, rfl, rfl⟩
  others := ⟨[rival number], .rfl, .cons ⟨rfl, ⟨_, List.mem_singleton_self _, rfl⟩, rfl⟩ .nil⟩

/-- The same number again: both send the invoice to review. -/
theorem decide_agrees_again : SameNumbers env.py (extractedAs "N-1") [extractedAs "N-1"] ∧
    Discrepancy.decide env.py uuid (extractedAs "N-1") acme (some acmeOrder) order.total.toDecimal order.currency
      [extractedAs "N-1"] = .ok true ∧
    statusOf (pipelined env fresh.id (contested "N-1")) 5 = some .needsReview := by
  have hsame : SameNumbers env.py (extractedAs "N-1") [extractedAs "N-1"] :=
    fun number hn _ _ => ⟨_, List.mem_singleton_self _, hn⟩
  have hreview : statusOf (pipelined env fresh.id (contested "N-1")) 5 = some .needsReview := by decide +kernel
  have hagree := (decide_agrees_iff uuid (contested_scenario "N-1")).mpr (.inl hsame)
  exact ⟨hsame, hagree.mpr hreview, hreview⟩

/-- `n-1` with a blank after it: the pipeline sends the invoice to review,
the eval approves it. -/
theorem decide_disagrees : Scenario (contested "n-1 ") fresh (extractedAs "N-1") acme (some acmeOrder)
      order.total.toDecimal order.currency [extractedAs "n-1 "] ∧
    (Discrepancy.decide env.py uuid (extractedAs "N-1") acme (some acmeOrder) order.total.toDecimal order.currency
      [extractedAs "n-1 "]).toOption = some false ∧
    statusOf (pipelined env fresh.id (contested "n-1 ")) 5 = some .needsReview :=
  ⟨contested_scenario _, by decide +kernel, by decide +kernel⟩

end Sample

end InvoiceOps
