/-
Who wrote what, under every schedule: sessions interleaved node by node,
on one invoice or on many, dying anywhere. Whatever they do to one another,
the store only grows (`DB.Extends`), and an audit row stands there only
because a call on its invoice began that writes such rows (`Call.Signs`):
an approval or a rejection by a person is a decision request with that
actor and that reason.

This needs no invariant of the store, only what each program writes; so it
is read off the programs, write by write (`Op.writes`).
-/
import InvoiceOps.Facts.Consumer
import InvoiceOps.Facts.Races
import InvoiceOps.Lib.Writes

namespace InvoiceOps

/-! ## Audit rows -/

/-- The statuses a call moves its invoice to. -/
def Call.targets : Call → List InvoiceStatus
  | .extract _ => [.extracting, .extracted, .failed]
  | .matchVendor => [.matching, .validating, .failed]
  | .validate => [.validated, .failed]
  | .approve => [.autoApproved, .needsReview]
  | .export .. => [.exporting, .exported]
  | .decide isApproval .. | .decideForm isApproval .. => [if isApproval then .approved else .rejected]

/-- The actor, and the reason, that a decision request is recorded with. -/
def Call.decider (env : Env) : Call → Option (String × Option String)
  | .decide _ actor reason => some (actor, reason)
  | .decideForm _ actor reason =>
    some (orElseText (env.py.strip actor) "reviewer",
      if env.py.strip reason = "" then none else some (env.py.strip reason))
  | _ => none

/-- Call `c` writes such audit rows: a legal move to a status of its own, by
the system, or by the one who decided and for the reason given. -/
structure Call.Signs (env : Env) (c : Call) (a : AuditLog) : Prop where
  legal : a.fromStatus.canTransition a.toStatus = true
  target : a.toStatus ∈ c.targets
  actor : match c.decider env with
    | none => a.actor = "system"
    | some (actor, reason) => a.actor = actor ∧ a.reason = reason

theorem Call.targets_of_decider {env : Env} {c : Call} {x : String × Option String} (h : c.decider env = some x) :
    ∃ t, c.targets = [t] := by
  cases c with
  | decide | decideForm => exact ⟨_, rfl⟩
  | _ => cases h

/-- Only a decision request signs an approval or a rejection. -/
theorem Call.Signs.decider {env : Env} {c : Call} {a : AuditLog} (h : c.Signs env a)
    (ha : a.toStatus = .approved ∨ a.toStatus = .rejected) :
    ∃ actor reason, c.decider env = some (actor, reason) ∧ a = ⟨.needsReview, a.toStatus, actor, reason⟩ := by
  obtain ⟨s, t, actor, reason⟩ := a
  obtain ⟨hlegal, htarget, hactor⟩ := h
  have hfrom : s = .needsReview := by rcases ha with rfl | rfl <;> cases s <;> first | rfl | cases hlegal
  subst hfrom
  cases c with
  | decide b actor reason | decideForm b actor reason =>
    obtain ⟨rfl, rfl⟩ := hactor
    exact ⟨_, _, rfl, rfl⟩
  | _ => rcases ha with rfl | rfl <;> simp [Call.targets] at htarget

/-! ## Growth -/

/-- `inv'` is `inv` and more: the document is the same, and every child row
is still there, the audit rows that came being `S`. -/
structure Invoice.Extends (S : AuditLog → Prop) (inv inv' : Invoice) : Prop where
  source : inv'.source = inv.source
  originalFilename : inv'.originalFilename = inv.originalFilename
  contentType : inv'.contentType = inv.contentType
  sizeBytes : inv'.sizeBytes = inv.sizeBytes
  storageKey : inv'.storageKey = inv.storageKey
  contentSha256 : inv'.contentSha256 = inv.contentSha256
  extractions : inv.extractions <+: inv'.extractions
  invoiceMatches : inv.invoiceMatches <+: inv'.invoiceMatches
  validations : inv.validations <+: inv'.validations
  exports : inv.exports <+: inv'.exports
  auditLog : ∃ es, inv'.auditLog = inv.auditLog ++ es ∧ ∀ a ∈ es, S a

/-- `d'` is `d` and more. A new invoice comes without audit rows, or with
rows that are `S`, too. -/
structure DB.Extends (S : Uuid → AuditLog → Prop) (d d' : DB) : Prop where
  vendors : d'.vendors = d.vendors
  purchaseOrders : d'.purchaseOrders = d.purchaseOrders
  kept : ∀ i inv, d.invoice i = some inv → ∃ inv', d'.invoice i = some inv' ∧ inv.Extends (S i) inv'
  added : ∀ i inv', d.invoice i = none → d'.invoice i = some inv' → ∀ a ∈ inv'.auditLog, S i a

section growth
variable {S T : AuditLog → Prop} {inv inv' inv'' : Invoice}

theorem Invoice.Extends.refl (inv : Invoice) : inv.Extends S inv where
  source := rfl
  originalFilename := rfl
  contentType := rfl
  sizeBytes := rfl
  storageKey := rfl
  contentSha256 := rfl
  extractions := List.prefix_refl _
  invoiceMatches := List.prefix_refl _
  validations := List.prefix_refl _
  exports := List.prefix_refl _
  auditLog := ⟨[], (List.append_nil _).symm, fun _ ha => by cases ha⟩

theorem Invoice.Extends.trans (h : inv.Extends S inv') (h' : inv'.Extends S inv'') : inv.Extends S inv'' where
  source := h'.source.trans h.source
  originalFilename := h'.originalFilename.trans h.originalFilename
  contentType := h'.contentType.trans h.contentType
  sizeBytes := h'.sizeBytes.trans h.sizeBytes
  storageKey := h'.storageKey.trans h.storageKey
  contentSha256 := h'.contentSha256.trans h.contentSha256
  extractions := h.extractions.trans h'.extractions
  invoiceMatches := h.invoiceMatches.trans h'.invoiceMatches
  validations := h.validations.trans h'.validations
  exports := h.exports.trans h'.exports
  auditLog := by
    obtain ⟨es, he, hes⟩ := h.auditLog
    obtain ⟨es', he', hes'⟩ := h'.auditLog
    refine ⟨es ++ es', by rw [he', he, List.append_assoc], fun a ha => ?_⟩
    exact (List.mem_append.mp ha).elim (hes a) (hes' a)

theorem Invoice.Extends.mono (hST : ∀ a, S a → T a) (h : inv.Extends S inv') : inv.Extends T inv' :=
  { h with auditLog := h.auditLog.imp fun _ ⟨he, hes⟩ => ⟨he, fun a ha => hST a (hes a ha)⟩ }

end growth

/-! ## Patches -/

/-- Writes `u` apply `f` to invoice `i`, as it is by then, and touch nothing
else. -/
structure Patches (i : Uuid) (f : Invoice → Invoice) (u : DB → DB) : Prop where
  vendors : ∀ d, (u d).vendors = d.vendors
  purchaseOrders : ∀ d, (u d).purchaseOrders = d.purchaseOrders
  invoice : ∀ d j, (u d).invoice j = if j = i then (d.invoice i).map f else d.invoice j

section patches
variable {i j : Uuid} {f : Invoice → Invoice} {u : DB → DB} {d : DB} {inv' : Invoice}

theorem Patches.nothing (i : Uuid) : Patches i (fun r => r) id where
  vendors _ := rfl
  purchaseOrders _ := rfl
  invoice d j := by
    split
    · next h => rw [h, Option.map_id', id]
    · rfl

theorem Patches.update (h : Patches i f u) (g : Invoice → Invoice) (hg : ∀ r, (g r).id = r.id) :
    Patches i (fun r => g (f r)) fun d => (u d).update i g hg where
  vendors := h.vendors
  purchaseOrders := h.purchaseOrders
  invoice d j := by
    rw [DB.invoice_update, h.invoice, h.invoice, if_pos rfl, Option.map_map]
    split <;> rfl

/-- Where a row after the writes comes from. -/
theorem Patches.cases (h : Patches i f u) (hj : (u d).invoice j = some inv') :
    j = i ∧ (∃ inv, d.invoice j = some inv ∧ inv' = f inv) ∨ j ≠ i ∧ d.invoice j = some inv' := by
  rw [h.invoice] at hj
  split at hj
  · next hji =>
    obtain ⟨inv, hi, hf⟩ := Option.map_eq_some_iff.mp hj
    exact .inl ⟨hji, inv, hji ▸ hi, hf.symm⟩
  · next hji => exact .inr ⟨hji, hj⟩

end patches

/-! The columns a service writes, and the rows it adds. -/

section columns
variable {S : AuditLog → Prop} (inv : Invoice)

theorem Invoice.extends_setStatus (s : InvoiceStatus) : inv.Extends S (inv.setStatus s) :=
  { Invoice.Extends.refl inv with }

theorem Invoice.extends_setFailureReason (reason : Option String) : inv.Extends S (inv.setFailureReason reason) :=
  { Invoice.Extends.refl inv with }

theorem Invoice.extends_auditLog {a : AuditLog} (ha : S a) :
    inv.Extends S { inv with auditLog := inv.auditLog ++ [a] } :=
  { Invoice.Extends.refl (S := S) inv with auditLog := ⟨[a], rfl, fun _ h => List.mem_singleton.mp h ▸ ha⟩ }

theorem Invoice.extends_extractions (e : Extraction) :
    inv.Extends S { inv with extractions := inv.extractions ++ [e] } :=
  { Invoice.Extends.refl inv with extractions := List.prefix_append _ _ }

theorem Invoice.extends_invoiceMatches (m : InvoiceMatch) :
    inv.Extends S { inv with invoiceMatches := inv.invoiceMatches ++ [m] } :=
  { Invoice.Extends.refl inv with invoiceMatches := List.prefix_append _ _ }

theorem Invoice.extends_validations (v : Validation) :
    inv.Extends S { inv with validations := inv.validations ++ [v] } :=
  { Invoice.Extends.refl inv with validations := List.prefix_append _ _ }

theorem Invoice.extends_exports (e : Export) : inv.Extends S { inv with exports := inv.exports ++ [e] } :=
  { Invoice.Extends.refl inv with exports := List.prefix_append _ _ }

end columns

section growth
variable {S T : Uuid → AuditLog → Prop} {d d' d'' : DB}

theorem DB.Extends.refl (d : DB) : d.Extends S d :=
  ⟨rfl, rfl, fun _ inv hi => ⟨inv, hi, .refl inv⟩, fun i inv hn hi => by rw [hn] at hi; cases hi⟩

theorem DB.Extends.trans (h : d.Extends S d') (h' : d'.Extends S d'') : d.Extends S d'' where
  vendors := h'.vendors.trans h.vendors
  purchaseOrders := h'.purchaseOrders.trans h.purchaseOrders
  kept i inv hi := by
    obtain ⟨inv', hi', he⟩ := h.kept i inv hi
    obtain ⟨inv'', hi'', he'⟩ := h'.kept i inv' hi'
    exact ⟨inv'', hi'', he.trans he'⟩
  added i inv'' hn hi'' := by
    cases hi' : d'.invoice i with
    | none => exact h'.added i inv'' hi' hi''
    | some inv' =>
      obtain ⟨inv₁, hi₁, he⟩ := h'.kept i inv' hi'
      obtain rfl : inv'' = inv₁ := Option.some.inj (hi''.symm.trans hi₁)
      obtain ⟨es, hes, hS⟩ := he.auditLog
      intro a ha
      rw [hes, List.mem_append] at ha
      exact ha.elim (h.added i inv' hn hi' a) (hS a)

theorem DB.Extends.mono (hST : ∀ i a, S i a → T i a) (h : d.Extends S d') : d.Extends T d' where
  vendors := h.vendors
  purchaseOrders := h.purchaseOrders
  kept i inv hi := by
    obtain ⟨inv', hi', he⟩ := h.kept i inv hi
    exact ⟨inv', hi', he.mono (hST i)⟩
  added i inv' hn hi' a ha := hST i a (h.added i inv' hn hi' a ha)

/-- One row that grows. -/
theorem DB.Extends.patch {i : Uuid} {f : Invoice → Invoice} {u : DB → DB} (hu : Patches i f u)
    (h : ∀ r : Invoice, r.Extends (S i) (f r)) (d : DB) : d.Extends S (u d) where
  vendors := hu.vendors d
  purchaseOrders := hu.purchaseOrders d
  kept j inv hj := by
    rw [hu.invoice]
    split
    · next he =>
      rw [he] at hj ⊢
      rw [hj]
      exact ⟨f inv, rfl, h inv⟩
    · exact ⟨inv, hj, .refl inv⟩
  added j inv' hn hj := by
    rcases hu.cases hj with ⟨-, inv, hi, -⟩ | ⟨-, hi⟩ <;> rw [hn] at hi <;> cases hi

/-- Where a row after an insert comes from. -/
theorem DB.insert_cases {inv inv' : Invoice} {j : Uuid}
    (h : ({ d with invoices := d.invoices.insert inv } : DB).invoice j = some inv') :
    d.invoice j = some inv' ∨ d.invoice j = none ∧ inv' = inv := by
  cases hn : d.invoices.get? inv.id with
  | some r =>
    obtain ⟨hr, hid⟩ := Table.mem_of_get? hn
    rw [Table.insert, dif_pos (List.mem_map.mpr ⟨r, hr, hid⟩)] at h
    exact .inl h
  | none =>
    have hget : (d.invoices.insert inv).get? j = some inv' := h
    rw [Table.get?_insert hn] at hget
    split at hget
    · next hj =>
      cases hget
      exact .inr ⟨hj ▸ hn, rfl⟩
    · exact .inl hget

/-- One row more. -/
theorem DB.Extends.insert {inv : Invoice} (h : inv.auditLog = []) (d : DB) :
    d.Extends S { d with invoices := d.invoices.insert inv } where
  vendors := rfl
  purchaseOrders := rfl
  kept j r hj := by
    refine ⟨r, ?_, .refl r⟩
    cases hn : d.invoices.get? inv.id with
    | some taken =>
      obtain ⟨hr, hid⟩ := Table.mem_of_get? hn
      rw [Table.insert, dif_pos (List.mem_map.mpr ⟨taken, hr, hid⟩)]
      exact hj
    | none =>
      have hne : j ≠ inv.id := fun he => by rw [he, DB.invoice, hn] at hj; cases hj
      exact (Table.get?_insert hn j).trans ((if_neg hne).trans hj)
  added j r hnone hj := by
    rcases DB.insert_cases hj with hold | ⟨-, rfl⟩
    · rw [hnone] at hold
      cases hold
    · rw [h]
      exact fun _ ha => by cases ha

end growth

/-! ## The writes of a call -/

/-- The store grows, and in one invoice alone. -/
abbrev DB.ExtendsOn (i : Uuid) (S : AuditLog → Prop) : DB → DB → Prop := DB.Extends fun j a => j = i ∧ S a

/-- The system may record its moves to these statuses. -/
def Allowed (targets : List InvoiceStatus) (S : AuditLog → Prop) : Prop :=
  ∀ s t reason, t ∈ targets → s.canTransition t = true → S ⟨s, t, "system", reason⟩

/-- `P` accepts what is written to invoice `i` before its export: moves, with
audit rows that are `S`, and the rows the stages add. To VALIDATING an
invoice moves with its match row. -/
structure Edits (P : ∀ ⦃α : Type⦄, Tx α → Prop) (i : Uuid) (S : AuditLog → Prop) : Prop where
  advance : ∀ {α : Type} {inv : Invoice} {t : InvoiceStatus} {actor : String} {reason : Option String}
    {k : Invoice → Tx α}, inv.id = i → t ≠ .validating →
    (inv.status.canTransition t = true → S ⟨inv.status, t, actor, reason⟩) → P (k (inv.setStatus t)) →
    P (advance inv t actor reason >>= k)
  failureReason : ∀ reason, P (Tx.updateInvoice i fun r => r.setFailureReason reason)
  extraction : ∀ e, P (Tx.updateInvoice i fun r => { r with extractions := r.extractions ++ [e] })
  matched : ∀ {α : Type} {inv : Invoice} {m : InvoiceMatch} {reason : Option String} {k : Invoice → Tx α}, inv.id = i →
    (inv.status.canTransition .validating = true → S ⟨inv.status, .validating, "system", reason⟩) →
    P (k (inv.setStatus .validating)) → P (do
      Tx.updateInvoice i fun r => { r with invoiceMatches := r.invoiceMatches ++ [m] }
      let inv ← InvoiceOps.advance inv .validating "system" reason
      k inv)
  validation : ∀ v, P (Tx.updateInvoice i fun r => { r with validations := r.validations ++ [v] })

section walk
variable {P : ∀ ⦃α : Type⦄, Tx α → Prop} {env : Env} {i : Uuid} {S : AuditLog → Prop} {inv : Invoice}
  {reason : Option String} {α : Type}

section reads
variable (J : Txn.Judgement P)
include J

/-- A stage reads its invoice first. -/
theorem judged_getInvoice_bind {k : Option Invoice → Tx α} (hnone : P (k none))
    (h : ∀ inv, inv.id = i → P (k (some inv))) : P (Tx.getInvoice i >>= k) := by
  refine J.query_bind fun d => ?_
  cases hi : d.invoice i with
  | none => exact hnone
  | some inv => exact h inv (DB.id_of_invoice hi)

theorem judged_getObject (key : String) : P (Tx.getObject env key) :=
  J.bind (fun _ => J.ofExcept _) (J.queryExt _)

theorem judged_matchedPo (row : Option InvoiceMatch) : P (matchedPo row) := by
  unfold matchedPo
  split
  · exact J.ret _
  · exact J.query _

/-- By induction on the invoices still to be looked at. -/
theorem judged_collectCandidates (normalized : String) : ∀ ids, P (collectCandidates env normalized ids)
  | [] => J.ret _
  | j :: rest => by
    have ih := judged_collectCandidates normalized rest
    refine J.bind (fun o => ?_) (J.query _)
    cases o with
    | none => exact ih
    | some other =>
      dsimp only
      split
      · exact ih
      · refine J.bind (fun extractions => ?_) (J.query _)
        split
        · exact ih
        · exact J.bind (fun _ => J.ret _) ih

theorem judged_duplicateCandidates (row : Option InvoiceMatch) (extracted : ExtractedInvoice) :
    P (duplicateCandidates env inv row extracted) := by
  unfold duplicateCandidates
  split
  · exact J.ret _
  · split
    · exact J.bind (fun _ => judged_collectCandidates J _ _) (J.query _)
    · exact J.ret _

theorem judged_related (id? : Option Uuid) (get : DB → Uuid → Option α) : P (related id? get) := by
  unfold related
  split
  · exact J.ret _
  · exact J.query _

theorem judged_sessionScope {body : Tx α} (h : P body) : P (Tx.sessionScope body) :=
  J.tryCatch (fun _ => J.bind (fun _ => J.raise _) J.rollback) (J.bind (fun a => J.bind (fun _ => J.ret a) J.commit) h)

/-- A task: what it sends comes after its session. -/
theorem judged_task {body : Tx α} {k : α → Tx Unit} (h : P body) (hk : ∀ a, P (k a)) :
    P (Tx.sessionScope body >>= k) := J.bind hk (judged_sessionScope J h)

end reads

/-! The stages. -/

namespace Edits

variable (h : Edits P i S) (J : Txn.Judgement P)
include h J

theorem setFailureReason_bind {k : Invoice → Tx α} (hid : inv.id = i)
    (hk : ∀ inv', inv'.id = i → inv'.status = inv.status → P (k inv')) :
    P (InvoiceOps.setFailureReason inv reason >>= k) := by
  unfold InvoiceOps.setFailureReason
  split
  · exact hk inv hid rfl
  · subst hid
    change P (Tx.updateInvoice inv.id (fun r => r.setFailureReason reason) >>= fun _ => k (inv.setFailureReason reason))
    exact J.bind (fun _ => hk _ rfl rfl) (h.failureReason reason)

/-- The end of a stage that finds nothing to work on. -/
theorem giveUp {a : α} (hid : inv.id = i)
    (hS : ∀ reason, inv.status.canTransition .failed = true → S ⟨inv.status, .failed, "system", reason⟩) :
    P (do let inv ← InvoiceOps.setFailureReason inv reason
          let _ ← InvoiceOps.advance inv .failed "system" reason
          return a) := by
  refine h.setFailureReason_bind J hid fun inv' hid' hs => h.advance hid' (by decide) (fun hcan => ?_) (J.ret a)
  rw [hs] at hcan ⊢
  exact hS reason hcan

theorem failExtraction (model : String) (method : TextMethod) (error : String) (attempts : Nat) (raw : Option String)
    (hS : Allowed [.extracting, .extracted, .failed] S) (hid : inv.id = i) :
    P (InvoiceOps.failExtraction inv model method error attempts raw) := by
  subst hid
  exact J.bind (fun _ => h.setFailureReason_bind J rfl fun inv' hid' _ =>
    h.advance hid' (by decide) (fun hcan => hS _ _ _ (by simp) hcan) (J.ret _)) (h.extraction _)

theorem runExtraction (llm : Option Llm) (provider : Llm) (hS : Allowed [.extracting, .extracted, .failed] S) :
    P (InvoiceOps.runExtraction env llm provider i) := by
  refine judged_getInvoice_bind J (J.raise _) fun inv hid => ?_
  dsimp only
  split
  · exact J.ret _
  · refine h.advance hid (by decide) (fun hcan => hS _ _ _ (by simp) hcan) (J.bind (fun data =>
      J.bind (fun document => ?_) (J.ofExcept _)) (judged_getObject J _))
    split
    · exact J.map _ (h.failExtraction J _ _ _ _ _ hS hid)
    · split
      · exact J.map _ (h.failExtraction J _ _ _ _ _ hS hid)
      · exact J.raise _
      · split
        · exact J.map _ (h.failExtraction J _ _ _ _ _ hS hid)
        · exact J.raise _
        · subst hid
          exact J.bind (fun _ => h.setFailureReason_bind J rfl fun inv' hid' _ =>
            h.advance hid' (by decide) (fun hcan => hS _ _ _ (by simp) hcan) (J.ret _)) (h.extraction _)

theorem runMatching (hS : Allowed [.matching, .validating, .failed] S) : P (InvoiceOps.runMatching env i) := by
  refine judged_getInvoice_bind J (J.raise _) fun inv hid => ?_
  dsimp only
  split
  · exact J.ret _
  · refine J.bind (fun extractions => ?_) (J.query _)
    split
    · exact h.giveUp J hid fun reason hcan => hS _ _ _ (by simp) hcan
    · refine h.advance hid (by decide) (fun hcan => hS _ _ _ (by simp) hcan) (J.bind (fun _ =>
        J.bind (fun _ => ?_) (J.query _)) (J.query _))
      subst hid
      exact h.matched rfl (fun hcan => hS _ _ _ (by simp) hcan) (J.ret _)

theorem runValidation (hS : Allowed [.validated, .failed] S) : P (InvoiceOps.runValidation env i) := by
  refine judged_getInvoice_bind J (J.raise _) fun inv hid => ?_
  dsimp only
  split
  · exact J.ret _
  · refine J.bind (fun extractions => ?_) (J.query _)
    split
    · exact h.giveUp J hid fun reason hcan => hS _ _ _ (by simp) hcan
    · refine J.bind (fun _ => J.bind (fun _ => J.bind (fun _ => J.bind (fun _ => ?_) (J.ofExcept _))
        (judged_duplicateCandidates J _ _)) (judged_matchedPo J _)) (J.query _)
      subst hid
      exact J.bind (fun _ => h.advance rfl (by decide) (fun hcan => hS _ _ _ (by simp) hcan) (J.ret _)) (h.validation _)

/-- FAILED cannot be reached from VALIDATED. -/
theorem runApproval (hS : Allowed [.autoApproved, .needsReview] S) : P (InvoiceOps.runApproval i) := by
  refine judged_getInvoice_bind J (J.raise _) fun inv hid => ?_
  dsimp only
  split
  · exact J.ret _
  · next hs =>
    rw [not_not] at hs
    refine J.bind (fun _ => J.bind (fun _ => J.bind (fun _ => ?_) (J.map _ (J.query _))) (J.map _ (J.query _)))
      (J.map _ (J.query _))
    split
    · have hout := decideApproval_outcome
      refine h.advance hid ?_ (fun hcan => hS _ _ _ ?_ hcan) (J.ret _)
      · rcases hout _ _ _ _ with hto | hto <;> rw [hto] <;> decide
      · simpa using hout _ _ _ _
    · exact h.giveUp J hid fun reason hcan => by rw [hs] at hcan; cases hcan

theorem recordHumanDecision {actor : String} (isApproval : Bool)
    (hS : ∀ s, s.canTransition (if isApproval then .approved else .rejected) = true →
      S ⟨s, if isApproval then .approved else .rejected, actor, reason⟩) :
    P (InvoiceOps.recordHumanDecision i isApproval actor reason) := by
  refine judged_getInvoice_bind J (J.raise _) fun inv hid => ?_
  have hadvance := h.advance hid (by cases isApproval <;> decide) (hS inv.status)
    (J.ret (inv.setStatus (if isApproval then .approved else .rejected)))
  rwa [Txn.bind_ret] at hadvance

theorem decideService {actor : String} (isApproval : Bool)
    (hS : ∀ s, s.canTransition (if isApproval then .approved else .rejected) = true →
      S ⟨s, if isApproval then .approved else .rejected, actor, reason⟩) :
    P (InvoiceOps.decideService i isApproval actor reason) := by
  cases isApproval with
  | false => exact h.recordHumanDecision J false hS
  | true =>
    exact J.bind (fun inv => J.bind (fun _ => J.bind (fun _ => J.ret inv) (J.post _)) J.commit)
      (h.recordHumanDecision J true hS)

/-- The export, if `P` accepts its object and its row. FAILED cannot be
reached from an approval. -/
theorem runExport {key : Uuid} {now : String} (hS : Allowed [.exporting, .exported] S)
    (hput : ∀ data, P (Tx.putObject env (exportKey i key) data))
    (hrow : ∀ e, P (Tx.updateInvoice i fun r => { r with exports := r.exports ++ [e] })) :
    P (InvoiceOps.runExport env key now i) := by
  refine judged_getInvoice_bind J (J.raise _) fun inv hid => ?_
  dsimp only
  split
  · exact J.ret _
  · next hs =>
    refine J.bind (fun extractions => ?_) (J.query _)
    split
    · refine h.giveUp J hid fun reason hcan => ?_
      have hex : exportable inv.status = true := by simpa using hs
      have hs' : inv.status = .autoApproved ∨ inv.status = .approved := by simpa [exportable] using hex
      rcases hs' with hs' | hs' <;> rw [hs'] at hcan <;> cases hcan
    · subst hid
      refine h.advance rfl (by decide) (fun hcan => hS _ _ _ (by simp) hcan) (J.bind (fun _ => J.bind (fun _ =>
        J.bind (fun _ => J.bind (fun _ => J.bind (fun _ => J.bind (fun _ => ?_) (hrow _)) (hput _))
          (judged_related J _ _)) (judged_related J _ _)) (J.map _ (J.query _))) (J.map _ (J.query _)))
      exact h.advance rfl (by decide) (fun hcan => hS _ _ _ (by simp) hcan) (J.ret _)

end Edits

/-- **Every call**, if `P` accepts its exports. -/
theorem judged_call (J : Txn.Judgement P) {c : Call} (h : Edits P i (c.Signs env))
    (hexport : ∀ key now, c = .export key now → P (runExport env key now i)) : P (c.prog env i) := by
  have hsystem : c.decider env = none → Allowed c.targets (c.Signs env) := fun hc s t reason ht hcan =>
    ⟨hcan, ht, by rw [hc]⟩
  have hdelay : ∀ t, P (delay t i) := fun _ => J.post _
  cases c with
  | extract provider =>
    exact judged_task J (J.map _ (h.runExtraction J _ _ (hsystem rfl))) fun o => by
      rcases o with _ | _ | _
      · exact J.ret _
      · exact J.ret _
      · exact hdelay _
  | matchVendor =>
    exact judged_task J (J.map _ (h.runMatching J (hsystem rfl))) fun o => by
      cases o with
      | none => exact J.ret _
      | some _ => exact hdelay _
  | validate =>
    exact judged_task J (J.map _ (h.runValidation J (hsystem rfl))) fun o => by
      cases o with
      | none => exact J.ret _
      | some _ => exact hdelay _
  | approve =>
    exact judged_task J (J.map _ (h.runApproval J (hsystem rfl))) fun o => by
      rcases o with _ | s
      · exact J.ret _
      · cases s with
        | autoApproved => exact hdelay _
        | _ => exact J.ret _
  | «export» key now => exact judged_task J (J.map _ (hexport key now rfl)) fun _ => J.ret _
  | decide isApproval actor reason =>
    refine judged_sessionScope J (J.bind (fun _ => J.ret _) (J.tryCatch (fun e => ?_)
      (h.decideService J isApproval fun s hcan => ⟨hcan, List.mem_singleton_self _, rfl, rfl⟩)))
    cases e <;> exact J.raise _
  | decideForm isApproval actor reason =>
    refine judged_sessionScope J (J.tryCatch (fun e => ?_) (J.bind (fun _ => J.ret _)
      (h.decideService J isApproval fun s hcan => ⟨hcan, List.mem_singleton_self _, rfl, rfl⟩)))
    cases e <;> first | exact J.raise _ | exact J.ret _

/-- **Every upload**, if `P` accepts the document and its row. -/
theorem judged_upload (J : Txn.Judgement P) {data : Bytes} {filename contentType : String}
    (hput : P (Tx.putObject env (storageKey (sha256Hex data) filename) data))
    (hinsert : P (flushInsert (newInvoice i data filename contentType))) :
    P (ingestUpload env i data filename contentType) := by
  refine J.bind (fun found => ?_) (J.query _)
  cases found with
  | some existing => exact J.ret _
  | none =>
    refine J.bind (fun _ => J.bind (fun inserted => ?_) (J.tryCatch (fun e => ?_) (J.map _ hinsert))) hput
    · cases inserted with
      | some u => exact J.bind (fun _ => J.bind (fun _ => J.ret _) (J.post _)) J.commit
      | none =>
        refine J.bind (fun _ => J.bind (fun winner => ?_) (J.query _)) J.rollback
        cases winner with
        | none => exact J.raise _
        | some winner => exact J.ret _
    · cases e <;> first | exact J.ret _ | exact J.raise _

end walk

/-! ## Every operation -/

section writes
variable {env : Env} {i : Uuid} {S : AuditLog → Prop}

theorem extendsOn_update {f : Invoice → Invoice} {hf : ∀ r, (f r).id = r.id}
    (h : ∀ r : Invoice, r.Extends S (f r)) (d : DB) : DB.ExtendsOn i S d (d.update i f hf) :=
  DB.Extends.patch ((Patches.nothing i).update f hf) (fun r => (h r).mono fun _ ha => ⟨rfl, ha⟩) d

theorem writes_updateInvoice {f : Invoice → Invoice} {hf : ∀ r, (f r).id = r.id}
    (h : ∀ r : Invoice, r.Extends S (f r)) : Txn.Writes (DB.ExtendsOn i S) (Tx.updateInvoice i f hf) :=
  ⟨extendsOn_update h, trivial⟩

theorem writes_advance {α : Type} {inv : Invoice} {t : InvoiceStatus} {actor : String} {reason : Option String}
    {k : Invoice → Tx α} (hid : inv.id = i)
    (hS : inv.status.canTransition t = true → S ⟨inv.status, t, actor, reason⟩)
    (hk : Txn.Writes (DB.ExtendsOn i S) (k (inv.setStatus t))) :
    Txn.Writes (DB.ExtendsOn i S) (advance inv t actor reason >>= k) := by
  subst hid
  unfold advance
  split
  · next hcan =>
    refine ⟨extendsOn_update fun r => ?_, extendsOn_update fun r => ?_, hk⟩
    · exact r.extends_auditLog (hS hcan)
    · exact r.extends_setStatus t
  · trivial

theorem writes_edits (i : Uuid) (S : AuditLog → Prop) :
    Edits (fun α (p : Tx α) => Txn.Writes (DB.ExtendsOn i S) p) i S where
  advance hid _ hS hk := writes_advance hid hS hk
  failureReason reason := writes_updateInvoice fun r => r.extends_setFailureReason reason
  extraction e := writes_updateInvoice fun r => r.extends_extractions e
  matched hid hS hk := (writes_updateInvoice fun r => r.extends_invoiceMatches _).bind fun _ => writes_advance hid hS hk
  validation v := writes_updateInvoice fun r => r.extends_validations v

/-- What is put in storage is no write to the store. -/
theorem writes_putObject {K : DB → DB → Prop} (key : String) (data : Bytes) :
    Txn.Writes K (Tx.putObject env key data) := by
  have heffect : ∀ f : Disk → Except Exn Unit × Disk, Txn.Writes K (Txn.effect f : Tx Unit) := fun f r => by
    cases r <;> trivial
  unfold Tx.putObject
  split
  · exact ((Txn.Writes.judgement K).ofExcept _).bind fun _ => (heffect _).bind fun _ => heffect _
  · exact heffect _

/-- **Every call** writes to its invoice alone, audit rows it signs. -/
theorem Call.writes (env : Env) (c : Call) (i : Uuid) : Txn.Writes (DB.ExtendsOn i (c.Signs env)) (c.prog env i) := by
  refine judged_call (Txn.Writes.judgement _) (writes_edits i _) fun key now hc => ?_
  subst hc
  exact (writes_edits i _).runExport (Txn.Writes.judgement _) (fun s t reason ht hcan => ⟨hcan, ht, rfl⟩)
    (fun _ => writes_putObject _ _) fun e => writes_updateInvoice fun r => r.extends_exports e

/-- The audit rows an operation writes. -/
def Op.Signs (env : Env) : Op → Uuid → AuditLog → Prop
  | .call i c, j, a => j = i ∧ c.Signs env a
  | .upload .., _, _ | .uploadForm .., _, _ => False

theorem writes_flushInsert {S : Uuid → AuditLog → Prop} {inv : Invoice} (h : inv.auditLog = []) :
    Txn.Writes (DB.Extends S) (flushInsert inv) := by
  refine Txn.Writes.query_bind fun d => ?_
  split
  · exact ⟨DB.Extends.insert h, trivial⟩
  · trivial

/-- **Every operation** writes what it signs. -/
theorem Op.writes (env : Env) (op : Op) : Txn.Writes (DB.Extends (op.Signs env)) (op.prog env) := by
  have J := Txn.Writes.judgement (τ := Disk) (μ := Message) (ε := Exn) (DB.Extends (op.Signs env))
  cases op with
  | upload id data filename contentType | uploadForm id data filename contentType =>
    refine judged_sessionScope J ?_
    dsimp only
    split
    · trivial
    · trivial
    · exact J.bind (fun _ => trivial) (judged_upload J (writes_putObject _ _) (writes_flushInsert rfl))
  | call i c => exact c.writes env i

end writes

/-! ## Every schedule -/

/-- A call begun in the schedule wrote such a row of invoice `i`. -/
def Signed (env : Env) (as : List (Txn.Action Op)) (i : Uuid) (a : AuditLog) : Prop :=
  ∃ t c, .begin t (.call i c) ∈ as ∧ c.Signs env a

section schedule
variable {env : Env} {w : World} {as : List (Txn.Action Op)} {s : Txn.Sys Op DB Disk Message Exn} {i : Uuid}
  {inv : Invoice} {a : AuditLog}

/-- The flights run operations that `as` begins. -/
abbrev Flying (env : Env) (as : List (Txn.Action Op)) (s : Txn.Sys Op DB Disk Message Exn) : Prop :=
  s.Writing (fun op => DB.Extends (op.Signs env)) fun op => ∃ t, .begin t op ∈ as

/-- **A part of a schedule**, from any state of the run. -/
theorem Flying.execute {s' : Txn.Sys Op DB Disk Message Exn} {part : List (Txn.Action Op)} (hpart : part ⊆ as)
    (h : Flying env as s) (hex : s.execute (Op.prog env) part = some s') :
    Flying env as s' ∧ s.world.now.Extends (Signed env as) s'.world.now := by
  refine Txn.Sys.Writing.execute (fun _ => .refl) (fun _ => .trans) (Op.writes env) .refl .trans ?_ part
    (fun t op ha => ⟨t, hpart ha⟩) h hex
  rintro op ⟨t, hbegun⟩ d d' hd
  refine hd.mono fun j a hs => ?_
  cases op with
  | call i c =>
    obtain ⟨rfl, hs⟩ := hs
    exact ⟨t, c, hbegun, hs⟩
  | _ => exact hs.elim

/-- **Nothing is ever taken back**: whatever a schedule leads to, what it
leads to later is that and more, and each audit row that comes is signed. -/
theorem extends_of_schedule {s' : Txn.Sys Op DB Disk Message Exn} {as' : List (Txn.Action Op)}
    (hex : Txn.Sys.execute (Op.prog env) (.idle w) as = some s) (hex' : s.execute (Op.prog env) as' = some s') :
    s.world.now.Extends (Signed env (as ++ as')) s'.world.now :=
  have hidle : Flying env (as ++ as') (.idle w) := Txn.Sys.writing_idle w
  ((hidle.execute (List.subset_append_left _ _) hex).1.execute (List.subset_append_right _ _) hex').2

/-- **No audit row without its request**, whatever the calls interleave: an
invoice that came in the run has only audit rows that calls on it, begun in
the run, write; and a row of a person's approval or rejection is a decision
request's, with its actor and reason. -/
theorem signed_of_schedule (hex : Txn.Sys.execute (Op.prog env) (.idle w) as = some s) (hnew : w.now.invoice i = none)
    (hi : s.world.now.invoice i = some inv) (ha : a ∈ inv.auditLog) :
    ∃ t c, .begin t (.call i c) ∈ as ∧ c.Signs env a ∧ (a.toStatus = .approved ∨ a.toStatus = .rejected →
      ∃ actor reason, c.decider env = some (actor, reason) ∧ a = ⟨.needsReview, a.toStatus, actor, reason⟩) := by
  have hidle : Flying env as (.idle w) := Txn.Sys.writing_idle w
  obtain ⟨t, c, hbegun, hsigns⟩ :=
    (hidle.execute (List.Subset.refl _) hex).2.added i inv hnew hi a ha
  exact ⟨t, c, hbegun, hsigns, hsigns.decider⟩

end schedule

namespace Sample

/-- A session for `op`, and its first nodes. -/
def turns (t : Nat) (op : Op) (n : Nat) : List (Txn.Action Op) := .begin t op :: List.replicate n (.advance t)

/-- An invoice goes to review, -/
def toReview : List (Txn.Action Op) :=
  turns 0 (.upload (uuid 5) (document "first") (some "invoice.pdf") (some "application/pdf")) 8 ++
    turns 1 (.call (uuid 5) (.extract (provider unordered))) 9 ++ turns 2 (.call (uuid 5) .matchVendor) 11 ++
    turns 3 (.call (uuid 5) .validate) 9 ++ turns 4 (.call (uuid 5) .approve) 7

/-- where one reviewer approves it and another rejects it, each before the
other's commit. -/
def clash : List (Txn.Action Op) :=
  turns 5 (.call (uuid 5) (.decide true "first" none)) 1 ++
    turns 6 (.call (uuid 5) (.decideForm false " second " "late ")) 3 ++ List.replicate 5 (.advance 5) ++ [.advance 6]

/-- The decisions recorded of invoice 5. -/
def decisionsOf (w : World) : Option (List (InvoiceStatus × String × Option String)) :=
  (w.now.invoice (uuid 5)).map fun inv => inv.decisions.map fun a => (a.toStatus, a.actor, a.reason)

theorem decisionsOf_clash : ((Txn.Sys.execute (Op.prog env) (.idle world) toReview).bind fun s =>
    (s.execute (Op.prog env) clash).bind fun s' => decisionsOf s'.world) =
      some [(.approved, "first", none), (.rejected, "second", some "late")] := by decide +kernel

end Sample

theorem extends_of_clash : ∃ s s', Txn.Sys.execute (Op.prog Sample.env) (.idle Sample.world) Sample.toReview = some s ∧
    s.execute (Op.prog Sample.env) Sample.clash = some s' ∧
      s.world.now.Extends (Signed Sample.env (Sample.toReview ++ Sample.clash)) s'.world.now := by
  obtain ⟨s, hex, hrun⟩ := Option.bind_eq_some_iff.mp Sample.decisionsOf_clash
  obtain ⟨s', hex', -⟩ := Option.bind_eq_some_iff.mp hrun
  exact ⟨s, s', hex, hex', extends_of_schedule hex hex'⟩

theorem signed_of_clash : ∃ s inv t c,
    Txn.Sys.execute (Op.prog Sample.env) (.idle Sample.world) (Sample.toReview ++ Sample.clash) = some s ∧
      s.world.now.invoice (Sample.uuid 5) = some inv ∧
      ⟨.needsReview, .rejected, "second", some "late"⟩ ∈ inv.auditLog ∧
      .begin t (.call (Sample.uuid 5) c) ∈ Sample.toReview ++ Sample.clash ∧
      c.decider Sample.env = some ("second", some "late") := by
  obtain ⟨s₁, hex₁, hrun⟩ := Option.bind_eq_some_iff.mp Sample.decisionsOf_clash
  obtain ⟨s, hex₂, hrun⟩ := Option.bind_eq_some_iff.mp hrun
  have hex : Txn.Sys.execute (Op.prog Sample.env) (.idle Sample.world) (Sample.toReview ++ Sample.clash) = some s := by
    rw [Txn.Sys.execute_append, hex₁]
    exact hex₂
  obtain ⟨inv, hi, hdecisions⟩ := Option.map_eq_some_iff.mp hrun
  obtain ⟨a₁, l, hl, -, h₂⟩ := List.map_eq_cons_iff.mp hdecisions
  obtain ⟨a, ha, hrow⟩ := List.map_eq_singleton_iff.mp h₂
  have hmem : a ∈ inv.decisions := by rw [hl, ha]; simp
  obtain ⟨hlog, -⟩ := List.mem_filter.mp hmem
  simp only [Prod.mk.injEq] at hrow
  obtain ⟨hto, hactor, hreason⟩ := hrow
  obtain ⟨t, c, hbegun, -, hdecider⟩ := signed_of_schedule hex rfl hi hlog
  obtain ⟨actor, reason, hc, heq⟩ := hdecider (.inr hto)
  rw [hto] at heq
  subst heq
  obtain rfl : actor = "second" := hactor
  obtain rfl : reason = some "late" := hreason
  exact ⟨s, inv, t, c, hex, hi, hlog, hbegun, hc⟩

/-! ## Who authorised an export -/

/-- The world after some operations, each cut short after some nodes. -/
def cuts (env : Env) (ops : List (Op × Nat)) (w : World) : World := ops.foldl (fun w x => cut env x.1 x.2 w) w

section serial
variable {env : Env} {w : World} {ops : List (Op × Nat)} {i : Uuid} {inv : Invoice} {e : Export}

theorem cuts_concat (env : Env) (ops : List (Op × Nat)) (op : Op) (n : Nat) (w : World) :
    cuts env (ops ++ [(op, n)]) w = cut env op n (cuts env ops w) := by simp [cuts]

theorem freshRun_cuts (hw : Initial w) (hfresh : (ops.flatMap fun x => x.1.draws).Nodup) :
    ∃ used, FreshRun env (cuts env ops w) used ∧ ∀ u ∈ used, u ∈ ops.flatMap fun x => x.1.draws := by
  induction ops using List.reverseRecOn with
  | nil => exact ⟨[], .start hw, fun u hu => by cases hu⟩
  | append_singleton ops x ih =>
    obtain ⟨op, n⟩ := x
    simp only [List.flatMap_append, List.flatMap_singleton] at hfresh ⊢
    obtain ⟨hops, -, hdisj⟩ := List.nodup_append.mp hfresh
    obtain ⟨used, hrun, hused⟩ := ih hops
    refine ⟨op.draws ++ used, cuts_concat env ops op n w ▸ hrun.step op n fun u hu hmem => ?_, fun u hu => ?_⟩
    · exact hdisj u (hused u hmem) u hu rfl
    · rw [List.mem_append] at hu ⊢
      exact hu.elim .inr fun hu => .inl (hused u hu)

/-- A serial run only adds, too. -/
theorem extends_cuts (env : Env) (ops : List (Op × Nat)) (w : World) :
    w.now.Extends (fun i a => ∃ c n, (.call i c, n) ∈ ops ∧ c.Signs env a) (cuts env ops w).now := by
  induction ops using List.reverseRecOn with
  | nil => exact .refl _
  | append_singleton ops x ih =>
    obtain ⟨op, n⟩ := x
    rw [cuts_concat]
    have hstart : (Txn.start (op.prog env)).Writing (DB.Extends (op.Signs env)) := ⟨op.writes env, .refl⟩
    have hlast : (cuts env ops w).now.Extends (op.Signs env) (cut env op n (cuts env ops w)).now :=
      hstart.exec .refl .trans n
    refine (ih.mono fun j a ⟨c, m, hmem, hs⟩ => ⟨c, m, List.mem_append_left _ hmem, hs⟩).trans
      (hlast.mono fun j a hs => ?_)
    cases op with
    | call i c =>
      obtain ⟨rfl, hs⟩ := hs
      exact ⟨c, n, by simp, hs⟩
    | _ => exact hs.elim

/-- **No export without its authorisation.** What a consumer reads from the
artifact of an export row was approved by the system, or by the request of
a person, on this invoice, whose name and reason the artifact gives. -/
theorem authorised_of_cuts (hw : Initial w) (hfresh : (ops.flatMap fun x => x.1.draws).Nodup)
    (hi : (cuts env ops w).now.invoice i = some inv) (he : e ∈ inv.exports) {payload : ExportPayload}
    (hp : consume env e (cuts env ops w).ext = some payload) :
    payload.status = "auto_approved" ∧ payload.approvedBy = some "system" ∨
      payload.status = "approved" ∧ ∃ c n actor reason, (.call i c, n) ∈ ops ∧ c.decider env = some (actor, reason) ∧
        c.targets = [.approved] ∧ payload.approvedBy = some actor ∧ payload.approvedReason = reason := by
  obtain ⟨used, hrun, -⟩ := (freshRun_cuts hw hfresh : ∃ used, FreshRun env _ used ∧ _)
  obtain ⟨r, a, now, hr, ha, hconsume⟩ := hrun.consume hi he
  obtain rfl := Option.some.inj (hp.symm.trans hconsume)
  have hnone : w.now.invoice i = none := by
    rw [DB.invoice, Table.get?_eq_none_iff, hw.invoices]
    exact List.not_mem_nil
  obtain ⟨hmem, happ⟩ := List.mem_filter.mp (ha ▸ List.mem_singleton_self a : a ∈ approvals inv.auditLog)
  rw [Bool.or_eq_true, beq_iff_eq, beq_iff_eq] at happ
  obtain ⟨c, n, hc, hsigns⟩ := (extends_cuts env ops w).added i inv hnone hi a hmem
  rcases happ with hto | hto
  · refine .inl ⟨congrArg InvoiceStatus.value hto, congrArg some ?_⟩
    exact (hrun.reachable.backed i inv hi).actor_of_autoApproved ⟨a, hmem, hto⟩ ha
  · obtain ⟨actor, reason, hdecider, heq⟩ := hsigns.decider (.inl hto)
    have htarget := hsigns.target
    obtain ⟨t, ht⟩ := Call.targets_of_decider hdecider
    rw [ht, hto, List.mem_singleton] at htarget
    refine .inr ⟨congrArg InvoiceStatus.value hto, c, n, actor, reason, hc, hdecider, htarget ▸ ht, ?_, ?_⟩
    · exact congrArg some (congrArg AuditLog.actor heq)
    · exact congrArg AuditLog.reason heq

end serial

/-- Each operation to its end: none takes more than 20 nodes. -/
def Sample.signedOff : List (Op × Nat) := reviewed.map fun op => (op, 20)

theorem authorised_of_reviewed : ∃ inv e payload c n,
    (cuts Sample.env Sample.signedOff Sample.world).now.invoice (Sample.uuid 5) = some inv ∧ e ∈ inv.exports ∧
      consume Sample.env e (cuts Sample.env Sample.signedOff Sample.world).ext = some payload ∧
      payload.status = "approved" ∧ (.call (Sample.uuid 5) c, n) ∈ Sample.signedOff ∧
      c.decider Sample.env = some ("reviewer", none) ∧ payload.approvedBy = some "reviewer" := by
  have hfresh : (Sample.signedOff.flatMap fun x => x.1.draws).Nodup := by decide
  have hrows : ((cuts Sample.env Sample.signedOff Sample.world).now.invoice (Sample.uuid 5)).map (fun inv =>
      (inv.exports.length, (approvals inv.auditLog).map fun a => (a.toStatus, a.actor, a.reason))) =
      some (1, [(.approved, "reviewer", none)]) := by decide +kernel
  obtain ⟨inv, hi, hrow⟩ := Option.map_eq_some_iff.mp hrows
  obtain ⟨hlen, hlog⟩ := Prod.mk.inj hrow
  obtain ⟨e, he⟩ := List.length_eq_one_iff.mp hlen
  have hmem : e ∈ inv.exports := he ▸ List.mem_singleton_self e
  obtain ⟨used, hrun, -⟩ := freshRun_cuts Sample.world_initial hfresh
  obtain ⟨r, a, now, -, ha, hconsume⟩ := hrun.consume hi hmem
  rw [ha] at hlog
  obtain ⟨hto, hactor⟩ := Prod.mk.inj (List.singleton_injective hlog)
  have hs : a.toStatus.value = "approved" := congrArg InvoiceStatus.value hto
  rcases authorised_of_cuts Sample.world_initial hfresh hi hmem hconsume with
    ⟨hauto, -⟩ | ⟨-, c, n, actor, reason, hc, hd, -, hby, hreason⟩
  · exact absurd (hs.symm.trans hauto) (by decide)
  · obtain ⟨hactor, hnone⟩ := Prod.mk.inj hactor
    obtain rfl : actor = "reviewer" := (Option.some.inj hby).symm.trans hactor
    obtain rfl : reason = none := hreason.symm.trans hnone
    exact ⟨inv, e, _, c, n, hi, hmem, hconsume, hs, hc, hd, hby⟩

end InvoiceOps
