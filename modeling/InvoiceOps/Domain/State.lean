/-
The invoice lifecycle: the statuses and the legal moves between them.

`rank` orders the statuses so that every legal move goes up: no status is
ever entered twice.
-/
import Mathlib.Data.List.Chain
import Mathlib.Tactic.Common

namespace InvoiceOps

inductive InvoiceStatus where
  | received
  | extracting
  | extracted
  | matching
  | validating
  | validated
  | needsReview
  | autoApproved
  | approved
  | rejected
  | exporting
  | exported
  | failed
  deriving DecidableEq, Repr

namespace InvoiceStatus

def value : InvoiceStatus → String
  | .received => "received"
  | .extracting => "extracting"
  | .extracted => "extracted"
  | .matching => "matching"
  | .validating => "validating"
  | .validated => "validated"
  | .needsReview => "needs_review"
  | .autoApproved => "auto_approved"
  | .approved => "approved"
  | .rejected => "rejected"
  | .exporting => "exporting"
  | .exported => "exported"
  | .failed => "failed"

/-- `_TRANSITIONS`, and the empty set for a status absent from it. -/
def allowedTransitions : InvoiceStatus → List InvoiceStatus
  | .received => [.extracting, .failed]
  | .extracting => [.extracted, .failed]
  | .extracted => [.matching, .failed]
  | .matching => [.validating, .failed]
  | .validating => [.validated, .failed]
  | .validated => [.autoApproved, .needsReview]
  | .needsReview => [.approved, .rejected]
  | .autoApproved => [.exporting]
  | .approved => [.exporting]
  | .exporting => [.exported, .failed]
  | .rejected | .exported | .failed => []

def canTransition (current target : InvoiceStatus) : Bool := (allowedTransitions current).contains target

/-- The statuses absent from `_TRANSITIONS`. -/
def isTerminal (s : InvoiceStatus) : Bool := (allowedTransitions s).isEmpty

/-- How far along the lifecycle a status is. -/
def rank : InvoiceStatus → Nat
  | .received => 0
  | .extracting => 1
  | .extracted => 2
  | .matching => 3
  | .validating => 4
  | .validated => 5
  | .needsReview => 6
  | .autoApproved => 7
  | .approved => 7
  | .exporting => 8
  | .rejected => 9
  | .exported => 9
  | .failed => 9

theorem rank_lt_of_canTransition {s t : InvoiceStatus} (h : canTransition s t = true) : s.rank < t.rank := by
  cases s <;> cases t <;> first | exact absurd h (by decide) | decide

/-- In status `stage` or a later one, and not failed. -/
def atOrPast (stage s : InvoiceStatus) : Bool := decide (stage.rank ≤ s.rank) && s != .failed

/-- A terminal status is left by no transition. -/
theorem canTransition_of_isTerminal {s t : InvoiceStatus} (h : s.isTerminal = true) :
    canTransition s t = false := by
  cases s <;> first | exact absurd h (by decide) | (cases t <;> rfl)

end InvoiceStatus

end InvoiceOps
