/-
The two decision endpoints. A decision that is refused has written nothing
when it raises, so it makes no difference that the JSON endpoint's scope then
rolls back and the form endpoint's commits; one that is carried out ends the
same way in both.
-/
import InvoiceOps.Facts.Interleaved

namespace InvoiceOps

/-- The form endpoint's actor. -/
def cleanActor (env : Env) (actor : String) : String := orElseText (env.py.strip actor) "reviewer"

/-- The form endpoint's reason. -/
def cleanReason (env : Env) (reason : String) : Option String :=
  if env.py.strip reason = "" then none else some (env.py.strip reason)

/-- There is no invoice to decide on. -/
def Refused (i : Uuid) (w : World) : Prop := ∀ inv, w.now.invoice i = some inv → inv.status ≠ .needsReview

/-- The same database, storage and queue. -/
def SameState (w w' : World) : Prop := w'.now = w.now ∧ w'.ext = w.ext ∧ w'.sent = w.sent

theorem SameState.refl (w : World) : SameState w w := ⟨rfl, rfl, rfl⟩

/-- What a refused decision raises. -/
def Exn.IsRefusal : Exn → Prop
  | .valueError _ | .illegalTransition .. => True
  | _ => False

section decision
variable {env : Env} {w w' : World} {u : DB → DB} {i : Uuid} {inv : Invoice} {isApproval : Bool} {e : Exn}

/-- **A refused decision** raises before it writes anything. -/
theorem decideService_refused (h : Refused i w) (isApproval : Bool) (actor : String) (reason : Option String) :
    ∃ e, (decideService i isApproval actor reason).run w id = (.error e, w, id) ∧ e.IsRefusal := by
  obtain ⟨g, hg, ⟨m, hnone⟩, hidle⟩ := decideService_eq i isApproval actor reason
  have hread : (Tx.getInvoice i).run w id = (.ok (w.now.invoice i), w, id) := rfl
  rw [hg, Txn.run_bind, hread]
  dsimp only
  cases hi : w.now.invoice i with
  | none =>
    rw [hnone]
    exact ⟨_, rfl, trivial⟩
  | some inv =>
    obtain ⟨t, ht⟩ := hidle inv (h inv hi)
    rw [ht]
    exact ⟨_, rfl, trivial⟩

/-- A decision on an invoice in review is carried out. -/
theorem decideService_carried (hrow : w.now.invoice i = some inv) (hs : inv.status = .needsReview) (isApproval : Bool)
    (actor : String) (reason : Option String) :
    ∃ r w' u, (decideService i isApproval actor reason).run w id = (.ok r, w', u) := by
  have hread : (Tx.getInvoice i).run w id = (.ok (some inv), w, id) := by rw [← hrow]; rfl
  have hadv : ∀ target, InvoiceStatus.needsReview.canTransition target = true →
      ∃ r u, (advance inv target actor reason).run w id = (.ok r, w, u) := by
    intro target hcan
    rw [advance, hs, if_pos hcan]
    exact ⟨_, _, rfl⟩
  cases isApproval with
  | false =>
    obtain ⟨r, u, h⟩ := hadv .rejected rfl
    refine ⟨r, w, u, ?_⟩
    rw [decideService, if_neg Bool.false_ne_true, recordHumanDecision, Txn.run_bind, hread]
    exact h
  | true =>
    obtain ⟨r, u, h⟩ := hadv .approved rfl
    have hrecord : (recordHumanDecision i true actor reason).run w id = (.ok r, w, u) := by
      rw [recordHumanDecision, Txn.run_bind, hread]
      exact h
    rw [decideService, if_pos rfl, approveAndExport, Txn.run_bind, hrecord]
    exact ⟨_, _, _, rfl⟩

/-! ## How each surface ends it -/

theorem recordDecision_carried {actor : String} {reason : Option String} {r : Invoice}
    (h : (decideService i isApproval actor reason).run w id = (.ok r, w', u)) :
    ((recordDecision i isApproval actor reason).run w id).2.1 = w'.commit (u w'.now) := by
  rw [recordDecision, Tx.sessionScope, Txn.run_tryCatch, Txn.run_bind, Txn.run_bind, Txn.run_tryCatch, h]
  rfl

/-- The exception is raised anew, and rolls back. -/
theorem recordDecision_refused {actor : String} {reason : Option String}
    (h : (decideService i isApproval actor reason).run w id = (.error e, w, id)) (he : e.IsRefusal) :
    ((recordDecision i isApproval actor reason).run w id).2.1 = w := by
  rw [recordDecision, Tx.sessionScope, Txn.run_tryCatch, Txn.run_bind, Txn.run_bind, Txn.run_tryCatch, h]
  cases e with
  | valueError message | illegalTransition s t => rfl
  | _ => exact he.elim

theorem uiDecide_carried {actor reason : String} {r : Invoice}
    (h : (decideService i isApproval (cleanActor env actor) (cleanReason env reason)).run w id = (.ok r, w', u)) :
    ((uiDecide env i isApproval actor reason).run w id).2.1 = w'.commit (u w'.now) := by
  rw [cleanActor, cleanReason] at h
  rw [uiDecide, Tx.sessionScope, Txn.run_tryCatch, Txn.run_bind, Txn.run_tryCatch, Txn.run_bind, h]
  rfl

/-- The exception is swallowed, and nothing is committed. -/
theorem uiDecide_refused {actor reason : String}
    (h : (decideService i isApproval (cleanActor env actor) (cleanReason env reason)).run w id = (.error e, w, id))
    (he : e.IsRefusal) : ((uiDecide env i isApproval actor reason).run w id).2.1 = w.commit w.now := by
  rw [cleanActor, cleanReason] at h
  rw [uiDecide, Tx.sessionScope, Txn.run_tryCatch, Txn.run_bind, Txn.run_tryCatch, Txn.run_bind, h]
  cases e with
  | valueError message | illegalTransition s t => rfl
  | _ => exact he.elim

/-- **Both surfaces decide alike**, in every world: from the same cleaned
values they leave the same state, and when there is no invoice in review
they leave the state they found. -/
theorem surfaces_agree (env : Env) (w : World) (i : Uuid) (isApproval : Bool) (actor reason : String) :
    SameState ((recordDecision i isApproval (cleanActor env actor) (cleanReason env reason)).run w id).2.1
      ((uiDecide env i isApproval actor reason).run w id).2.1 ∧
    (Refused i w →
      SameState w ((recordDecision i isApproval (cleanActor env actor) (cleanReason env reason)).run w id).2.1 ∧
      SameState w ((uiDecide env i isApproval actor reason).run w id).2.1) := by
  by_cases hr : Refused i w
  · obtain ⟨e, h, he⟩ := decideService_refused hr isApproval (cleanActor env actor) (cleanReason env reason)
    rw [recordDecision_refused h he, uiDecide_refused h he]
    exact ⟨⟨rfl, rfl, rfl⟩, fun _ => ⟨.refl w, rfl, rfl, rfl⟩⟩
  · simp only [Refused, not_forall, not_not] at hr
    obtain ⟨inv, hrow, hs⟩ := hr
    obtain ⟨r, w', u, h⟩ := decideService_carried hrow hs isApproval (cleanActor env actor) (cleanReason env reason)
    rw [recordDecision_carried h, uiDecide_carried h]
    exact ⟨.refl _, fun hr => absurd hs (hr inv hrow)⟩

end decision

end InvoiceOps
