/-
The three stages between extraction and a decision, each alone: what the
invoice is after it. None touches a vendor, an order or another invoice.
-/
import InvoiceOps.Facts.Alone

namespace InvoiceOps

/-- `inv` as a stage hands it on: what the next stages read of it. -/
structure Invoice.Handed (inv inv' : Invoice) (status : InvoiceStatus) (invoiceMatches : List InvoiceMatch)
    (validations : List Validation) : Prop where
  id : inv'.id = inv.id
  status : inv'.status = status
  extractions : inv'.extractions = inv.extractions
  invoiceMatches : inv'.invoiceMatches = invoiceMatches
  validations : inv'.validations = validations

/-- The input of the rules, on what its match row names. -/
def Invoice.ruleInput (inv : Invoice) (extracted : ExtractedInvoice) (d : DB) (cs : List DuplicateCandidate) :
    ValidationInput :=
  ⟨extracted, (poOf d (latestMatch inv.invoiceMatches)).map poSnapshot, (latestMatch inv.invoiceMatches).bind (·.vendorId),
    cs⟩

/-- Matching alone, begun in `d` and over in `d'`. -/
def MatchedIn (py : Py) (inv : Invoice) (extracted : ExtractedInvoice) (d d' : DB) : Prop :=
  ∃ inv', inv.Handed inv' .validating (inv.invoiceMatches ++ [matchRow py extracted d]) inv.validations ∧
    DB.Changed inv.id inv' d d'

/-- Validation alone: it raises what the rules raise, or adds their results. -/
inductive ValidatedIn (py : Py) (inv : Invoice) (inp : ValidationInput) (d : DB) : DB → Prop
  | raised {signal} : runRules py inp = .error signal → ValidatedIn py inv inp d d
  | validated {results inv' d'} : runRules py inp = .ok results →
      inv.Handed inv' .validated inv.invoiceMatches (inv.validations ++ [⟨results, !hasBlockingFailure results⟩]) →
      DB.Changed inv.id inv' d d' → ValidatedIn py inv inp d d'

theorem mapError_eq_ok {ε ε' α : Type} {f : ε → ε'} {x : Except ε α} {a : α} : x.mapError f = .ok a ↔ x = .ok a := by
  cases x <;> simp [Except.mapError]

theorem mapError_eq_error {ε ε' α : Type} {f : ε → ε'} {x : Except ε α} {e' : ε'} :
    x.mapError f = .error e' ↔ ∃ e, x = .error e ∧ f e = e' := by
  cases x <;> simp [Except.mapError]

section pipeline
variable {env : Env} {w : World} {inv : Invoice} {r : ExtractionResult}

theorem served_runMatching (hrow : w.now.invoice inv.id = some inv) (hs : inv.status = .extracted)
    (hr : inv.result = some r) : MatchedIn env.py inv r.invoice w.now (served (runMatching env inv.id) w).2.now := by
  have hR := Rely.alone inv.id
  have hat := At.alone hrow
  refine served_of_wp (Q := fun _ w' => MatchedIn env.py inv r.invoice w.now w'.now) ?_
  refine Tx.wp_bind (Tx.wp_getInvoice_alone hrow ?_)
  simp only [hs, ne_eq, not_true_eq_false, if_false]
  refine Tx.wp_bind (Tx.wp_children_alone hat (Pends.nothing _ inv) ?_)
  rw [Invoice.result] at hr
  rw [hr]
  refine Tx.wp_bind (wp_advance inv (Pends.nothing _ inv) rfl (by rw [hs]; rfl) fun u₁ hu₁ => ?_)
  refine Tx.wp_bind (Tx.wp_query hR hat hu₁ (fun d d' hv _ => by rw [vendorIdentities, hv]; rfl) fun w₁ h₁ hat₁ => ?_)
  subst h₁
  refine Tx.wp_bind (Tx.wp_query hR hat₁ hu₁ (fun d d' _ hp => by rw [poIdentities, hp]; rfl) fun w₂ h₂ hat₂ => ?_)
  subst h₂
  refine Tx.wp_bind (Tx.wp_updateInvoice hu₁ fun u₂ hu₂ => ?_)
  refine Tx.wp_bind (wp_advance (inv.setStatus .matching) hu₂ rfl rfl fun u₃ hu₃ => ?_)
  refine ⟨_, ?_, hu₃ _ hrow⟩
  exact ⟨rfl, rfl, rfl, rfl, rfl⟩

theorem matchedPo_alone {row : Option InvoiceMatch} {Q : World → (DB → DB) → Option PoSnapshot → Prop}
    {E : World → (DB → DB) → Exn → Prop} (h : Q w id ((poOf w.now row).map poSnapshot)) :
    Txn.wp Eq (fun _ _ => True) E Q (matchedPo row) w id := by
  rw [poOf] at h
  rw [matchedPo]
  cases hp : row.bind (·.poId) with
  | none =>
    rw [hp] at h
    exact h
  | some poId =>
    rw [hp] at h
    intro w' hw
    subst hw
    exact h

theorem served_runValidation (hrow : w.now.invoice inv.id = some inv) (hs : inv.status = .validating)
    (hr : inv.result = some r) : ∃ cs, Checked env.py Eq inv.id (latestMatch inv.invoiceMatches) r.invoice w cs ∧
      ValidatedIn env.py inv (inv.ruleInput r.invoice w.now cs) w.now (served (runValidation env inv.id) w).2.now := by
  have hR := Rely.alone inv.id
  have hat := At.alone hrow
  refine served_of_wp (Q := fun _ w' => ∃ cs, Checked env.py Eq inv.id (latestMatch inv.invoiceMatches) r.invoice w cs ∧
    ValidatedIn env.py inv (inv.ruleInput r.invoice w.now cs) w.now w'.now) ?_
  refine Tx.wp_bind (Tx.wp_getInvoice_alone hrow ?_)
  simp only [hs, ne_eq, not_true_eq_false, if_false]
  refine Tx.wp_bind (Tx.wp_children_alone hat (Pends.nothing _ inv) ?_)
  rw [Invoice.result] at hr
  rw [hr]
  refine Tx.wp_bind (Tx.wp_children_alone hat (Pends.nothing _ inv) ?_)
  refine Tx.wp_bind (matchedPo_alone ?_)
  refine Tx.wp_bind (duplicateCandidates_wp hR hat fun w₁ cs hat₁ h₁ hcs => ?_)
  subst h₁
  refine Tx.wp_bind (Tx.wp_ofExcept (fun results hres => ?_) fun e he => ⟨cs, hcs, ?_⟩)
  · refine Tx.wp_bind (Tx.wp_updateInvoice (Pends.nothing _ inv) fun u₁ hu₁ => ?_)
    refine Tx.wp_bind (wp_advance inv hu₁ rfl (by rw [hs]; rfl) fun u₂ hu₂ => ⟨cs, hcs, ?_⟩)
    refine .validated (mapError_eq_ok.mp hres) ?_ (hu₂ _ hrow)
    exact ⟨rfl, rfl, rfl, rfl, rfl⟩
  · obtain ⟨signal, hsignal, -⟩ := mapError_eq_error.mp he
    exact .raised hsignal

/-- Approval alone decides on the latest validation, extraction and match. -/
theorem served_runApproval {v : Validation} {e : Extraction} (hrow : w.now.invoice inv.id = some inv)
    (hs : inv.status = .validated) (hv : latestValidation inv.validations = some v)
    (he : latestSuccessfulExtraction inv.extractions = some e) :
    ((served (runApproval inv.id) w).2.now.invoice inv.id).map (·.status) =
      some (decideApproval v.passed (vendorIdentified (latestMatch inv.invoiceMatches))
        (hasPo (latestMatch inv.invoiceMatches)) (e.fieldConfidence.getD .empty)).outcome := by
  have hat := At.alone hrow
  refine served_of_wp (Q := fun _ w' => (w'.now.invoice inv.id).map (·.status) =
    some (decideApproval v.passed (vendorIdentified (latestMatch inv.invoiceMatches))
      (hasPo (latestMatch inv.invoiceMatches)) (e.fieldConfidence.getD .empty)).outcome) ?_
  refine Tx.wp_bind (Tx.wp_getInvoice_alone hrow ?_)
  simp only [hs, ne_eq, not_true_eq_false, if_false]
  refine Tx.wp_bind (Tx.wp_map (Tx.wp_children_alone hat (Pends.nothing _ inv) ?_))
  refine Tx.wp_bind (Tx.wp_map (Tx.wp_children_alone hat (Pends.nothing _ inv) ?_))
  refine Tx.wp_bind (Tx.wp_map (Tx.wp_children_alone hat (Pends.nothing _ inv) ?_))
  rw [hv, he]
  dsimp only
  generalize hd : decideApproval v.passed (vendorIdentified (latestMatch inv.invoiceMatches))
    (hasPo (latestMatch inv.invoiceMatches)) (e.fieldConfidence.getD .empty) = d
  have hlegal : inv.status.canTransition d.outcome = true := by
    rcases hd ▸ decideApproval_outcome _ _ _ _ with h | h <;> rw [hs, h] <;> rfl
  refine Tx.wp_bind (wp_advance inv (Pends.nothing _ inv) rfl hlegal fun u₁ hu₁ => ?_)
  change ((w.commit (u₁ w.now)).now.invoice inv.id).map (·.status) = some d.outcome
  rw [hat.committed hu₁]
  rfl

/-- Approval of an invoice in any other status is no decision. -/
theorem served_runApproval_idle (hrow : w.now.invoice inv.id = some inv) (hs : inv.status ≠ .validated) :
    (served (runApproval inv.id) w).2.now.invoice inv.id = some inv := by
  refine served_of_wp (Q := fun _ w' => w'.now.invoice inv.id = some inv) ?_
  refine Tx.wp_bind (Tx.wp_getInvoice_alone hrow ?_)
  simp only [hs, ne_eq, not_false_eq_true, if_true]
  exact hrow

end pipeline

end InvoiceOps
