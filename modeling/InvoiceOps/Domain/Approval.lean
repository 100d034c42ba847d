/-
The one place validation results and extraction confidence become a
decision: auto-approve, or send to a human.
-/
import InvoiceOps.Domain.Extraction
import InvoiceOps.Domain.State

namespace InvoiceOps

def autoApproveConfidenceThreshold : PyFloat := .fin (3 / 4)

structure ApprovalDecision where
  outcome : InvoiceStatus
  reasons : List String

/-- The critical fields that score below the threshold; an absent score
counts as zero. -/
def lowConfidence (fieldConfidence : Dict PyFloat) : List String :=
  criticalFields.filter fun f => ((fieldConfidence.get f).getD (.fin 0)).lt autoApproveConfidenceThreshold

def decideApproval (validationPassed vendorIdentified hasPo : Bool) (fieldConfidence : Dict PyFloat) :
    ApprovalDecision :=
  let low := lowConfidence fieldConfidence
  let reasons :=
    (if validationPassed then [] else ["one or more validation rules failed"]) ++
    (if vendorIdentified then [] else ["vendor could not be confidently identified"]) ++
    (if hasPo then [] else ["no purchase order matched -- cannot confirm authorized spend"]) ++
    (if low.isEmpty then [] else ["low extraction confidence on: " ++ Py.join ", " low])
  ⟨if reasons.isEmpty then .autoApproved else .needsReview, reasons⟩

/-- **The gate.** Auto-approval takes all four conditions, and nothing else. -/
theorem decideApproval_autoApproved_iff {passed identified po : Bool} {conf : Dict PyFloat} :
    (decideApproval passed identified po conf).outcome = .autoApproved ↔
      passed = true ∧ identified = true ∧ po = true ∧ lowConfidence conf = [] := by
  unfold decideApproval
  cases passed <;> cases identified <;> cases po <;> cases lowConfidence conf <;> simp

theorem decideApproval_outcome (passed identified po : Bool) (conf : Dict PyFloat) :
    (decideApproval passed identified po conf).outcome = .autoApproved ∨
      (decideApproval passed identified po conf).outcome = .needsReview :=
  ite_eq_or_eq _ _ _

end InvoiceOps
