/-
Calls interleaved node by node. A call first reads its invoice and does
nothing when it is out of turn (`Call.guarded`); what it does otherwise,
no call on another invoice notices (`Act.undisturbed`). With the specs of
`Facts.Calls`, that is a `Txn.Discipline` for any invariant the acts keep.
-/
import InvoiceOps.Lib.ReadCommitted
import InvoiceOps.Facts.Grounds
import InvoiceOps.Facts.Keys

namespace InvoiceOps

/-- A call on an invoice. -/
structure CallOn where
  invoiceId : Uuid
  call : Call

def CallOn.prog (env : Env) (op : CallOn) : Tx Unit := op.call.prog env op.invoiceId

/-- Sessions of calls on one world. -/
abbrev Sessions := Txn.Sys CallOn DB Disk Message Exn

/-- The call finds its invoice in a status it works on. -/
def CallOn.Takes (op : CallOn) (d : DB) : Prop := ∃ inv, d.invoice op.invoiceId = some inv ∧ op.call.entry inv.status = true

/-! ## The first read -/

/-- `p` begins by reading the store, and on a store where its invoice is
missing or out of turn it then does nothing. -/
def Guarded (i : Uuid) (entry : InvoiceStatus → Bool) (p : Tx Unit) : Prop :=
  ∃ k, p = .read k ∧ ∀ d t, (∀ inv, d.invoice i = some inv → entry inv.status = false) → Txn.Inert (k d t)

section guarded
variable {α β : Type} {i : Uuid}

/-- A task's body first reads its invoice. -/
theorem task_guarded (t : TaskName) {g : Option Invoice → Tx α} {f : α → β} {k : β → Tx Unit}
    (hnone : ∃ e, g none = Tx.raise e)
    (hidle : ∀ inv, t.entry inv.status = false → ∃ a, g (some inv) = pure a ∧ k (f a) = pure ()) :
    Guarded i t.entry (Tx.sessionScope (do let a ← Tx.getInvoice i >>= g; return f a) >>= k) := by
  refine ⟨fun d _ => Tx.sessionScope (do let a ← g (d.invoice i); return f a) >>= k, rfl, fun d _ h => ?_⟩
  dsimp only
  cases hi : d.invoice i with
  | none =>
    obtain ⟨e, he⟩ := hnone
    rw [he]
    trivial
  | some inv =>
    obtain ⟨a, ha, hk⟩ := hidle inv (h inv hi)
    rw [ha]
    change Txn.Inert (.commit (k (f a)))
    rw [hk]
    trivial

theorem advance_reviewed {inv : Invoice} {t : InvoiceStatus} {actor : String} {reason : Option String}
    (ht : t = .approved ∨ t = .rejected) (hs : inv.status ≠ .needsReview) :
    advance inv t actor reason = Tx.raise (.illegalTransition inv.status t) := by
  rw [advance, if_neg]
  rcases ht with rfl | rfl <;> cases h : inv.status <;> first | exact absurd h hs | decide

theorem recordHumanDecision_eq (i : Uuid) (isApproval : Bool) (actor : String) (reason : Option String) :
    ∃ g, recordHumanDecision i isApproval actor reason = Tx.getInvoice i >>= g ∧
      (∃ m, g none = Tx.raise (.valueError m)) ∧
      ∀ inv, inv.status ≠ .needsReview → ∃ t, g (some inv) = Tx.raise (.illegalTransition inv.status t) := by
  refine ⟨_, rfl, ⟨_, rfl⟩, fun inv hs => ⟨_, advance_reviewed ?_ hs⟩⟩
  cases isApproval
  · exact .inr rfl
  · exact .inl rfl

/-- A decision first reads its invoice, and raises out of turn. -/
theorem decideService_eq (i : Uuid) (isApproval : Bool) (actor : String) (reason : Option String) :
    ∃ g, decideService i isApproval actor reason = Tx.getInvoice i >>= g ∧ (∃ m, g none = Tx.raise (.valueError m)) ∧
      ∀ inv, inv.status ≠ .needsReview → ∃ t, g (some inv) = Tx.raise (.illegalTransition inv.status t) := by
  cases isApproval with
  | false => exact recordHumanDecision_eq i false actor reason
  | true =>
    obtain ⟨g, hg, ⟨m, hnone⟩, hidle⟩ := recordHumanDecision_eq i true actor reason
    refine ⟨fun o => g o >>= fun invoice => do
      Txn.commitNow
      Txn.post ⟨.exportInvoice, invoice.id⟩
      return invoice, ?_, ⟨m, ?_⟩, fun inv hs => ?_⟩
    · rw [decideService, if_pos rfl, approveAndExport, hg]
      rfl
    · dsimp only
      rw [hnone]
      rfl
    · obtain ⟨t, ht⟩ := hidle inv hs
      refine ⟨t, ?_⟩
      dsimp only
      rw [ht]
      rfl

/-- What a handler makes of a decision: a decision out of turn raises, and
the handler answers that. -/
theorem decision_guarded (b : Tx Invoice → Tx Unit) (hread : ∀ k, b (.read k) = .read fun d t => b (k d t))
    (hvalue : ∀ m, Txn.Inert (b (.raise (.valueError m))))
    (hillegal : ∀ s t, Txn.Inert (b (.raise (.illegalTransition s t)))) (isApproval : Bool) (actor : String)
    (reason : Option String) : Guarded i (· == .needsReview) (b (decideService i isApproval actor reason)) := by
  obtain ⟨g, hg, ⟨m, hnone⟩, hidle⟩ := decideService_eq i isApproval actor reason
  rw [hg]
  refine ⟨fun d _ => b (g (d.invoice i)), hread _, fun d _ h => ?_⟩
  dsimp only
  cases hi : d.invoice i with
  | none =>
    rw [hnone]
    exact hvalue m
  | some inv =>
    obtain ⟨t, ht⟩ := hidle inv (by simpa using h inv hi)
    rw [ht]
    exact hillegal _ _

theorem recordDecision_guarded (isApproval : Bool) (actor : String) (reason : Option String) :
    Guarded i (· == .needsReview) (recordDecision i isApproval actor reason) := by
  have hhandled : ∀ (h : Exn → Tx Invoice) (k : Invoice → Tx Unit),
      (∀ m, Txn.Inert (Tx.sessionScope (h (.valueError m) >>= k))) →
      (∀ s t, Txn.Inert (Tx.sessionScope (h (.illegalTransition s t) >>= k))) → Guarded i (· == .needsReview)
        (Tx.sessionScope (Txn.tryCatch (decideService i isApproval actor reason) h >>= k)) := fun h k hvalue hillegal =>
    decision_guarded (fun p => Tx.sessionScope (Txn.tryCatch p h >>= k)) (fun _ => rfl) hvalue hillegal _ _ _
  exact hhandled _ _ (fun _ => trivial) fun _ _ => trivial

theorem uiDecide_guarded (env : Env) (isApproval : Bool) (actor reason : String) :
    Guarded i (· == .needsReview) (uiDecide env i isApproval actor reason) := by
  have hhandled : ∀ (h : Exn → Tx Unit) (k : Invoice → Tx Unit) (actor : String) (reason : Option String),
      (∀ m, Txn.Inert (Tx.sessionScope (h (.valueError m)))) →
      (∀ s t, Txn.Inert (Tx.sessionScope (h (.illegalTransition s t)))) → Guarded i (· == .needsReview)
        (Tx.sessionScope (Txn.tryCatch (decideService i isApproval actor reason >>= k) h)) :=
    fun h k actor reason hvalue hillegal =>
      decision_guarded (fun p => Tx.sessionScope (Txn.tryCatch (p >>= k) h)) (fun _ => rfl) hvalue hillegal _ _ _
  exact hhandled _ _ _ _ (fun _ => trivial) fun _ _ => trivial

/-- **Every call** is guarded by the status it works on. -/
theorem Call.guarded (env : Env) (c : Call) (i : Uuid) : Guarded i c.entry (c.prog env i) := by
  cases c with
  | extract provider =>
    refine task_guarded .extractInvoice ⟨_, rfl⟩ fun inv h => ⟨none, if_pos ?_, rfl⟩
    simpa [TaskName.entry] using h
  | matchVendor =>
    refine task_guarded .matchInvoice ⟨_, rfl⟩ fun inv h => ⟨none, if_pos ?_, rfl⟩
    simpa [TaskName.entry] using h
  | validate =>
    refine task_guarded .validateInvoice ⟨_, rfl⟩ fun inv h => ⟨none, if_pos ?_, rfl⟩
    simpa [TaskName.entry] using h
  | approve =>
    refine task_guarded .approveInvoice ⟨_, rfl⟩ fun inv h => ⟨none, if_pos ?_, rfl⟩
    simpa [TaskName.entry] using h
  | «export» key now =>
    refine task_guarded .exportInvoice ⟨_, rfl⟩ fun inv h => ⟨none, if_pos ?_, rfl⟩
    simpa [TaskName.entry] using h
  | decide isApproval actor reason => exact recordDecision_guarded isApproval actor reason
  | decideForm isApproval actor reason => exact uiDecide_guarded env isApproval actor reason

end guarded

/-! ## What one call does to the others -/

section acts
variable {env : Env} {R : World → World → Prop} {c : Call} {a₀ : List Write} {i j : Uuid} {w w' : World}

/-- The export of another invoice. -/
theorem Artifacts.other {key : Uuid} {p : Write} {d d' : Disk} (hij : i ≠ j) (h : Disk.Wrote p d d')
    (hp : p.key = exportKey i key) : artifacts j d' = artifacts j d := by
  have hne : ¬ ("exports/" ++ j.str ++ "/").toList <+: p.key.toList := by
    intro hpre
    rw [hp, exportKey, String.append_assoc, String.append_assoc, String.append_assoc, String.append_assoc] at hpre
    simp only [String.toList_append] at hpre
    have hpre := (List.prefix_append_right_inj _).mp hpre
    have hlen := (List.prefix_append j.str.toList "/".toList).trans hpre
    have heq := List.prefix_of_prefix_length_le hlen (List.prefix_append i.str.toList _)
      (by rw [i.str_length, j.str_length])
    exact hij (Uuid.str_injective (String.toList_injective (heq.eq_of_length (by rw [i.str_length, j.str_length])).symm))
  rw [artifacts, h.1, List.filter_append, List.filter_cons, if_neg (by simpa using hne)]
  simp [artifacts]

/-- Where no key lies under `exports/`, there is no artifact. -/
theorem artifacts_eq_nil {d : Disk} (h : ∀ p ∈ d.writes, ¬ "exports/".toList <+: p.key.toList) (i : Uuid) :
    artifacts i d = [] := by
  refine List.filter_eq_nil_iff.mpr fun p hp hpre => h p hp ?_
  rw [String.append_assoc, String.toList_append] at hpre
  exact (List.prefix_append _ _).trans (of_decide_eq_true hpre)

/-- **No call on another invoice notices.** -/
theorem Act.undisturbed (hij : i ≠ j) (h : Act env R c a₀ i w w') : Undisturbed j w w' := by
  have hg := h.grows
  cases h with
  | noop => exact ⟨rfl, rfl, rfl, hg.stores, rfl, List.prefix_refl _⟩
  | move hrow hm hch => exact ⟨hch.vendors, hch.purchaseOrders, hch.other hij.symm, hg.stores, rfl, List.prefix_refl _⟩
  | send => exact ⟨rfl, rfl, rfl, hg.stores, rfl, List.prefix_append _ _⟩
  | kept hk => exact ⟨rfl, rfl, rfl, hg.stores, Artifacts.kept hk, List.prefix_refl _⟩
  | artifact hc hrow hs hkey hl ha hw =>
    exact ⟨rfl, rfl, rfl, hg.stores, Artifacts.other hij hw hkey, List.prefix_refl _⟩

/-- What every move keeps, every act keeps. -/
theorem Act.rows {P : World → Invoice → Prop} (h : Act env R c a₀ i w w')
    (hkeep : ∀ {inv}, Grows w w' → P w inv → P w' inv)
    (hmove : ∀ {inv inv'}, w.now.invoice i = some inv → P w inv → Move env R c a₀ w inv inv' → P w inv')
    (hP : Rows P w) : Rows P w' := by
  have hg := h.grows
  cases h with
  | move hrow hm hch =>
    intro j inv hj
    rw [Txn.World.commit_now, hch.invoice] at hj
    refine hkeep hg ?_
    split at hj
    · cases hj
      exact hmove hrow (hP i _ hrow) hm
    · exact hP j inv hj
  | _ => exact fun j inv hj => hkeep hg (hP j inv hj)

/-- **A call in its turn**, while the others leave its invoice alone. -/
theorem CallOn.wp {G : World → World → Prop} {Q : World → Prop} (op : CallOn) {w : World} {k : DB → Disk → Tx Unit}
    (hk : op.prog env = .read k)
    (hG : ∀ w₁ w₂, Act env (Undisturbed op.invoiceId) op.call (artifacts op.invoiceId w.ext) op.invoiceId w₁ w₂ → G w₁ w₂)
    (hover : ∀ w', Over op.call op.invoiceId w w' → Q w') (hraised : ∀ w' e, Raised op.invoiceId w w' e → Q w') :
    Txn.wp (Undisturbed op.invoiceId) G (fun w _ _ => Q w) (fun w _ _ => Q w) (k w.now w.ext) w id := by
  have hwp : Txn.wp (Undisturbed op.invoiceId) G (fun w' u e => u = id ∧ Raised op.invoiceId w w' e)
      (fun w' u _ => u = id ∧ Over op.call op.invoiceId w w') (op.prog env) w id := Call.wp (.others _) hG
  rw [hk] at hwp
  exact Txn.wp_conseq (fun _ _ h => h) (fun _ _ h => h) (fun w' _ e h => hraised w' e h.2)
    (fun w' _ _ h => hover w' h.2) _ (hwp w (.refl op.invoiceId w))

end acts

/-! ## Where a run begins -/

/-- Received invoices that nothing has worked on. -/
structure Fresh (w : World) : Prop where
  rows : ∀ inv ∈ w.now.invoices.rows, Untouched inv
  past : w.past = []

section fresh
variable {w : World}

theorem Fresh.untouched (h : Fresh w) {i : Uuid} {inv : Invoice} (hi : w.now.invoice i = some inv) : Untouched inv :=
  h.rows inv (Table.mem_of_get? hi).1

end fresh

namespace Sample

/-- Two documents received. -/
def received : World :=
  { after [.upload (uuid 5) (document "first") (some "invoice.pdf") (some "application/pdf"),
      .upload (uuid 6) (document "second") (some "invoice.pdf") (some "application/pdf")] with
    past := []
    sent := [] }

theorem received_ok : (∀ inv ∈ received.now.invoices.rows, Untouched inv) ∧
    ∀ p ∈ received.ext.writes, ¬ "exports/".toList <+: p.key.toList := by decide +kernel

theorem received_fresh : Fresh received := ⟨received_ok.1, rfl⟩

theorem received_artifacts : ∀ i, artifacts i received.ext = [] := artifacts_eq_nil received_ok.2

/-- Some nodes of one session. -/
def advances (t n : Nat) : List (Txn.Action CallOn) := List.replicate n (.advance t)

end Sample

end InvoiceOps
