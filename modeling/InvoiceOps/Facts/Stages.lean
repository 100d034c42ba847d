/-
The specs of the stage services: each leaves its session with nothing
written, or with one `Move` of its invoice pending (`Ended`).
-/
import InvoiceOps.Facts.Moves

namespace InvoiceOps

/-- Writes `u` turn row `inv` of invoice `i` into `inv'` and touch nothing
else. -/
def Pends (i : Uuid) (inv inv' : Invoice) (u : DB → DB) : Prop :=
  ∀ d, d.invoice i = some inv → DB.Changed i inv' d (u d)

theorem Pends.nothing (i : Uuid) (inv : Invoice) : Pends i inv inv id := fun d hd =>
  ⟨rfl, rfl, fun j => by by_cases h : j = i <;> simp [h, hd]⟩

theorem Pends.update {i : Uuid} {inv cur : Invoice} {u : DB → DB} (h : Pends i inv cur u) (f : Invoice → Invoice)
    (hf : ∀ r, (f r).id = r.id) : Pends i inv (f cur) fun d => (u d).update i f hf := by
  intro d hd
  obtain ⟨hv, hp, hi⟩ := h d hd
  refine ⟨hv, hp, fun j => ?_⟩
  rw [DB.invoice_update, hi j, hi i]
  by_cases hj : j = i <;> simp [hj]

/-- A call that began in world `w₀` is in world `w`, and invoice `i` is
committed as `inv`, with the artifacts it had. -/
structure At (i : Uuid) (inv : Invoice) (w₀ w : World) : Prop where
  start : w₀.now.invoice i = some inv
  row : w.now.invoice i = some inv
  written : artifacts i w.ext = artifacts i w₀.ext

theorem At.rely {i : Uuid} {inv : Invoice} {w₀ : World} {R : World → World → Prop} (hR : Rely i R)
    {w w' : World} (hw : R w w') (h : At i inv w₀ w) : At i inv w₀ w' :=
  ⟨h.start, (hR.undisturbed hw).invoice.trans h.row, (hR.undisturbed hw).artifacts.trans h.written⟩

/-- The row a call first reads. -/
theorem At.first {i : Uuid} {inv : Invoice} {R : World → World → Prop} (hR : Rely i R) {w₀ w : World}
    (hw : R w₀ w) (h : w.now.invoice i = some inv) : At i inv w₀ w :=
  ⟨(hR.undisturbed hw).invoice ▸ h, h, (hR.undisturbed hw).artifacts⟩

section rules
variable {R G : World → World → Prop} {E : World → (DB → DB) → Exn → Prop} {w : World} {u : DB → DB}
  {i : Uuid} {inv cur mem : Invoice} {w₀ : World} {α β : Type}

theorem Tx.wp_bind {Q : World → (DB → DB) → β → Prop} {p : Tx α} {f : α → Tx β}
    (h : Txn.wp R G E (fun w u a => Txn.wp R G E Q (f a) w u) p w u) : Txn.wp R G E Q (p >>= f) w u :=
  (Txn.wp_bind p f w u).mpr h

theorem Tx.wp_map {Q : World → (DB → DB) → β → Prop} {p : Tx α} {f : α → β}
    (h : Txn.wp R G E (fun w u a => Q w u (f a)) p w u) : Txn.wp R G E Q (f <$> p) w u :=
  (Txn.wp_bind p (fun a => pure (f a)) w u).mpr h

/-- The row a session that has written nothing reads. -/
theorem Tx.wp_getInvoice {Q : World → (DB → DB) → Option Invoice → Prop}
    (h : ∀ w', R w w' → Q w' id (w'.now.invoice i)) : Txn.wp R G E Q (Tx.getInvoice i) w id := h

/-- The children of a row, under the session's own writes. -/
theorem Tx.wp_children (hR : Rely i R) (hat : At i inv w₀ w) (hu : Pends i inv cur u) {rows : Invoice → List α}
    {Q : World → (DB → DB) → List α → Prop} (h : ∀ w', R w w' → At i inv w₀ w' → Q w' u (rows cur)) :
    Txn.wp R G E Q (Tx.children i rows) w u := by
  intro w' hw
  have hat' := hat.rely hR hw
  simp only [(hu _ hat'.row).self, Option.map_some, Option.getD_some]
  exact h w' hw hat'

/-- A query of the vendors and purchase orders. -/
theorem Tx.wp_query (hR : Rely i R) (hat : At i inv w₀ w) (hu : Pends i inv cur u) {q : DB → α}
    (hq : ∀ d d' : DB, d'.vendors = d.vendors → d'.purchaseOrders = d.purchaseOrders → q d' = q d)
    {Q : World → (DB → DB) → α → Prop} (h : ∀ w', R w w' → At i inv w₀ w' → Q w' u (q w'.now)) :
    Txn.wp R G E Q (Txn.query q : Tx α) w u := by
  intro w' hw
  have hat' := hat.rely hR hw
  have hch := hu _ hat'.row
  change Q w' u (q (u w'.now))
  rw [hq _ _ hch.vendors hch.purchaseOrders]
  exact h w' hw hat'

theorem Tx.wp_updateInvoice (hu : Pends i inv cur u) {f : Invoice → Invoice} {hf : ∀ r, (f r).id = r.id}
    {Q : World → (DB → DB) → Unit → Prop} (h : ∀ u', Pends i inv (f cur) u' → Q w u' ()) :
    Txn.wp R G E Q (Tx.updateInvoice i f hf) w u := h _ (hu.update f hf)

/-- `advance` records the move, and the session's row follows. -/
theorem wp_advance (mem : Invoice) (hu : Pends i inv cur u) (hid : mem.id = i) {target : InvoiceStatus} {actor : String}
    {reason : Option String} (hcan : mem.status.canTransition target = true)
    {Q : World → (DB → DB) → Invoice → Prop}
    (h : ∀ u', Pends i inv (cur.advanced mem.status target actor reason) u' →
      Q w u' (mem.setStatus target)) :
    Txn.wp R G E Q (advance mem target actor reason) w u := by
  subst hid
  rw [advance, if_pos hcan]
  exact h _ ((hu.update (fun r => { r with
    auditLog := r.auditLog ++ [⟨mem.status, target, actor, reason⟩] }) fun _ => rfl).update
    (fun r => r.setStatus target) fun _ => rfl)

theorem wp_advance_illegal {target : InvoiceStatus} {actor : String} {reason : Option String}
    (hcan : mem.status.canTransition target = false) {Q : World → (DB → DB) → Invoice → Prop}
    (h : E w u (.illegalTransition mem.status target)) :
    Txn.wp R G E Q (advance mem target actor reason) w u := by
  rw [advance, if_neg (by rw [hcan]; decide)]
  exact h

/-- An unchanged column is not written: the row is as if it had been. -/
theorem wp_setFailureReason (mem : Invoice) (hu : Pends i inv cur u) (hid : mem.id = i)
    (hcur : cur.failureReason = mem.failureReason) {reason : Option String}
    {Q : World → (DB → DB) → Invoice → Prop}
    (h : ∀ u' mem', Pends i inv { cur with failureReason := reason } u' → mem'.id = i →
      mem'.status = mem.status → Q w u' mem') :
    Txn.wp R G E Q (setFailureReason mem reason) w u := by
  rw [setFailureReason]
  split
  · next hr =>
    rw [← hr, ← hcur] at h
    exact h u mem hu hid rfl
  · subst hid
    exact h _ _ (hu.update (fun r => r.setFailureReason reason) fun _ => rfl) rfl rfl

theorem Tx.wp_ofExcept {x : Except Exn α} {Q : World → (DB → DB) → α → Prop} (hok : ∀ a, x = .ok a → Q w u a)
    (herr : ∀ e, x = .error e → E w u e) : Txn.wp R G E Q (Txn.ofExcept x : Tx α) w u := by
  cases x with
  | ok a => exact hok a rfl
  | error e => exact herr e rfl

/-- Reading an object: it changes nothing, and may raise. -/
theorem Tx.wp_getObject {env : Env} {key : String} {Q : World → (DB → DB) → Bytes → Prop}
    (hok : ∀ w' data, R w w' → Q w' u data)
    (herr : ∀ w' e, R w w' → e.isIllegalTransition = false → E w' u e) :
    Txn.wp R G E Q (Tx.getObject env key) w u :=
  Tx.wp_bind fun w' hw => Tx.wp_ofExcept (fun data _ => hok w' data hw) fun e he =>
    herr w' e hw (Storage.isIllegalTransition_of_getObject he)

end rules

/-! ## How a stage ends -/

/-- What a stage looks for is missing. -/
def Lacks (inv : Invoice) : Prop :=
  match inv.status with
  | .extracted | .validating | .autoApproved | .approved => inv.result = none
  | .validated =>
    latestValidation inv.validations = none ∨ latestSuccessfulExtraction inv.extractions = none
  | _ => False

/-- What is known when a stage raises: it wrote no artifact, and its moves
were all legal unless it found its data missing. -/
structure Raised (i : Uuid) (w₀ w : World) (e : Exn) : Prop where
  row : w.now.invoice i = w₀.now.invoice i
  artifacts : artifacts i w.ext = artifacts i w₀.ext
  lacks : e.isIllegalTransition = true → ∃ inv, w₀.now.invoice i = some inv ∧ Lacks inv

theorem At.raised {i : Uuid} {inv : Invoice} {w₀ w : World} {e : Exn} (h : At i inv w₀ w)
    (he : e.isIllegalTransition = false) : Raised i w₀ w e :=
  ⟨h.row.trans h.start.symm, h.written, fun h' => by rw [he] at h'; cases h'⟩

/-- A stage whose invoice is not there. -/
theorem raised_notFound {i : Uuid} {R : World → World → Prop} (hR : Rely i R) {w₀ w : World} (hw : R w₀ w)
    {message : String} : Raised i w₀ w (.valueError message) :=
  ⟨(hR.undisturbed hw).invoice, (hR.undisturbed hw).artifacts, fun h => by cases h⟩

/-- A stage first reads its invoice, and raises where there is none. -/
theorem wp_found {α : Type} {i : Uuid} {R G : World → World → Prop} (hR : Rely i R) {w₀ : World}
    {k : Option Invoice → Tx α} {Q : World → (DB → DB) → α → Prop}
    (hnone : ∃ message, k none = Tx.raise (.valueError message))
    (h : ∀ w inv, inv.id = i → At i inv w₀ w → Txn.wp R G (fun w _ e => Raised i w₀ w e) Q (k (some inv)) w id) :
    Txn.wp R G (fun w _ e => Raised i w₀ w e) Q (Tx.getInvoice i >>= k) w₀ id := by
  refine Tx.wp_bind (Tx.wp_getInvoice fun w₁ h₁ => ?_)
  cases hrow : w₁.now.invoice i with
  | none =>
    obtain ⟨message, he⟩ := hnone
    rw [he]
    exact raised_notFound hR h₁
  | some inv => exact h w₁ inv (DB.id_of_invoice hrow) (At.first hR h₁ hrow)

/-- The task that works on invoices in a status. -/
def TaskName.of : InvoiceStatus → Option TaskName
  | .received => some .extractInvoice
  | .extracted => some .matchInvoice
  | .validating => some .validateInvoice
  | .validated => some .approveInvoice
  | .autoApproved | .approved => some .exportInvoice
  | _ => none

theorem TaskName.entry_iff {t : TaskName} {s : InvoiceStatus} : t.entry s = true ↔ TaskName.of s = some t := by
  cases t <;> cases s <;> decide

section stages
variable (env : Env) (R : World → World → Prop) (c : Call) (t : TaskName) (i : Uuid) (w₀ : World)

/-- How the body of task `t` ends: out of its turn with nothing written, or
with a move to the given status pending. -/
inductive Ended (w : World) (u : DB → DB) : Option InvoiceStatus → Prop
  | idle {inv} : u = id → At i inv w₀ w → t.entry inv.status = false → Ended w u none
  | moved {inv inv'} : w₀.now.invoice i = some inv → w.now.invoice i = some inv → Pends i inv inv' u →
      Move env R c (artifacts i w₀.ext) w inv inv' →
      (artifacts i w.ext).length + inv.exports.length = (artifacts i w₀.ext).length + inv'.exports.length →
      Ended w u (some inv'.status)

end stages

section stages
variable {env : Env} {R G : World → World → Prop} {c : Call} {i : Uuid} {w₀ w : World}

/-- A stage that found another status than its own. -/
theorem At.idle {inv : Invoice} {t : TaskName} (h : At i inv w₀ w) (hs : t.entry inv.status = false) :
    Ended env R c t i w₀ w id none := .idle rfl h hs

/-- A stage that wrote no artifact, about to commit `inv'`. -/
theorem At.moved {inv inv' : Invoice} {t : TaskName} {u : DB → DB} (h : At i inv w₀ w)
    (hu : Pends i inv inv' u) (hm : Move env R c (artifacts i w₀.ext) w inv inv')
    (he : inv'.exports = inv.exports) : Ended env R c t i w₀ w u (some inv'.status) :=
  .moved h.start h.row hu hm (by rw [h.written, he])

theorem not_illegal_of_extractText {data : Bytes} {contentType : String} {e : Exn}
    (h : extractText env data contentType = .error e) : e.isIllegalTransition = false := by
  unfold extractText at h
  split at h
  · unfold pdfText at h
    cases hp : env.pdfPages data <;> rw [hp] at h <;> cases h
    rfl
  · split at h <;> cases h
    rfl

theorem not_illegal_of_retryLoop {llm : Llm} {text : String} {e : Exn} : ∀ {n : Nat} {s : RetryState},
    (retryLoop env llm text n s).2 = .error e → e.isIllegalTransition = false
  | 0, s, h => by cases h; rfl
  | n + 1, s, h => by
    rw [retryLoop] at h
    cases hl : llm (s.attempt + 1) systemPrompt (userPrompt env text s.errorHint) env.resultJsonSchema with
    | llmError message => rw [hl] at h; cases h; rfl
    | raised message => rw [hl] at h; cases h; rfl
    | response content model =>
      simp only [hl] at h
      cases content with
      | none => cases h; rfl
      | some content =>
        cases hp : env.parseReply content with
        | accepted r => simp only [hp] at h; cases h
        | notJson error => simp only [hp] at h; exact not_illegal_of_retryLoop h
        | schemaViolation error => simp only [hp] at h; exact not_illegal_of_retryLoop h
        | raised error => simp only [hp] at h; cases h; rfl

theorem failExtraction_wp {inv mem : Invoice} {u : DB → DB} {model error : String} {method : TextMethod} {n : Nat}
    {raw : Option String} {E : World → (DB → DB) → Exn → Prop} (hat : At i inv w₀ w) (hs : inv.status = .received)
    (hu : Pends i inv (inv.advanced .received .extracting "system" (some "starting text + LLM extraction")) u)
    (hid : mem.id = i) (hmem : mem.status = .extracting) (hf : mem.failureReason = inv.failureReason) :
    Txn.wp R G E (fun w u e => Ended env R c .extractInvoice i w₀ w u (some .failed) ∧ e.ok = false)
      (failExtraction mem model method error n raw) w u := by
  subst hid
  refine Tx.wp_bind (Tx.wp_updateInvoice hu fun u₁ hu₁ => ?_)
  refine Tx.wp_bind (wp_setFailureReason mem hu₁ rfl hf.symm fun u₂ mem₂ hu₂ hid₂ hs₂ => ?_)
  rw [hmem] at hs₂
  refine Tx.wp_bind (wp_advance mem₂ hu₂ hid₂ (by rw [hs₂]; rfl) fun u₃ hu₃ => ⟨?_, rfl⟩)
  rw [hs₂] at hu₃
  exact hat.moved hu₃ (.extractionFailed _ error hs rfl rfl rfl) rfl

/-- **`run_extraction`.** -/
theorem runExtraction_wp (hR : Rely i R) {llm : Option Llm} {provider : Llm} :
    Txn.wp R G (fun w _ e => Raised i w₀ w e)
      (fun w u o => ∃ s, Ended env R c .extractInvoice i w₀ w u s ∧
        s.bind TaskName.of = if o.map (·.ok) = some true then some .matchInvoice else none)
      (runExtraction env llm provider i) w₀ id := by
  refine wp_found hR ⟨_, rfl⟩ fun w₁ inv hid hat => ?_
  subst hid
  by_cases hs : inv.status = .received
  · simp only [hs, ne_eq, not_true_eq_false, if_false]
    refine Tx.wp_bind (wp_advance inv (Pends.nothing _ inv) rfl (by rw [hs]; rfl) fun u₁ hu₁ => ?_)
    rw [hs] at hu₁
    refine Tx.wp_bind (Tx.wp_getObject (fun w₂ data h₂ => ?_) fun w₂ e h₂ he => (hat.rely hR h₂).raised he)
    have hat₂ := hat.rely hR h₂
    refine Tx.wp_bind (Tx.wp_ofExcept (fun document hdoc => ?_)
      fun e he => hat₂.raised (not_illegal_of_extractText he))
    have hfail : ∀ {model error : String} {n : Nat} {raw : Option String},
        Txn.wp R G (fun w _ e => Raised inv.id w₀ w e)
          (fun w u o => ∃ s, Ended env R c .extractInvoice inv.id w₀ w u s ∧
            s.bind TaskName.of = if o.map (·.ok) = some true then some .matchInvoice else none)
          (some <$> failExtraction { inv with status := .extracting } model document.method error n raw)
          w₂ u₁ := fun {model error n raw} =>
      Tx.wp_map (Txn.wp_mono (failExtraction_wp hat₂ hs hu₁ rfl rfl rfl) fun w u e ⟨hend, hok⟩ =>
        ⟨_, hend, by simp [hok, TaskName.of]⟩)
    split
    · exact hfail
    · cases hcl : llmOrClient env.settings llm provider with
      | error e =>
        have he : e.isIllegalTransition = false := by
          unfold llmOrClient openRouterClient at hcl
          split at hcl
          · cases hcl
          · split at hcl <;> cases hcl
            rfl
        cases e <;> first | exact hfail | exact hat₂.raised he
      | ok client =>
        dsimp only
        cases hout : (extractWithRetry env client document.text env.settings.llmMaxRetries).2 with
        | error e =>
          have he := not_illegal_of_retryLoop hout
          cases e <;> first | exact hfail | exact hat₂.raised he
        | ok outcome =>
          dsimp only
          refine Tx.wp_bind (Tx.wp_updateInvoice hu₁ fun u₂ hu₂ => ?_)
          refine Tx.wp_bind (wp_setFailureReason (inv.setStatus .extracting) hu₂ rfl rfl fun u₃ mem₃ hu₃ hid₃ hs₃ => ?_)
          refine Tx.wp_bind (wp_advance mem₃ hu₃ hid₃ (by rw [hs₃]; rfl) fun u₄ hu₄ => ⟨some .extracted, ?_, rfl⟩)
          rw [hs₃] at hu₄
          exact hat₂.moved hu₄ (.extracted _ outcome.result _ hs rfl rfl rfl) rfl
  · simp only [hs, ne_eq, not_false_eq_true, if_true]
    exact ⟨none, hat.idle (by simp [TaskName.entry, hs]), rfl⟩

/-- The missing-data branch of matching and validation. -/
theorem wp_noExtraction {inv : Invoice} {t : TaskName} {reason : String} {α : Type}
    {E : World → (DB → DB) → Exn → Prop} {Q : World → (DB → DB) → Option α → Prop} (hat : At i inv w₀ w)
    (hs : inv.status = .extracted ∨ inv.status = .validating) (hr : inv.result = none)
    (h : ∀ u, Ended env R c t i w₀ w u (some .failed) → Q w u none) :
    Txn.wp R G E Q (do
      let invoice ← setFailureReason inv (some reason)
      let _ ← advance invoice .failed "system" (some reason)
      return none : Tx (Option α)) w id := by
  have hid := DB.id_of_invoice hat.row
  subst hid
  refine Tx.wp_bind (wp_setFailureReason inv (Pends.nothing _ inv) rfl rfl fun u₁ mem hu₁ hid hmem => ?_)
  have hcan : mem.status.canTransition .failed = true := by rcases hs with hs | hs <;> rw [hmem, hs] <;> rfl
  refine Tx.wp_bind (wp_advance mem hu₁ hid hcan fun u₂ hu₂ => h u₂ ?_)
  rw [hmem] at hu₂
  exact hat.moved hu₂ (.noExtraction reason hs hr) rfl

/-- The missing-data branch of approval and export raises: FAILED is not
reached from their entry statuses. -/
theorem wp_noExtraction_illegal {inv : Invoice} {reason : String} {α : Type}
    {Q : World → (DB → DB) → Option α → Prop} (hat : At i inv w₀ w)
    (hs : inv.status.canTransition .failed = false) (hl : Lacks inv) :
    Txn.wp R G (fun w _ e => Raised i w₀ w e) Q (do
      let invoice ← setFailureReason inv (some reason)
      let _ ← advance invoice .failed "system" (some reason)
      return none : Tx (Option α)) w id := by
  have hid := DB.id_of_invoice hat.row
  subst hid
  refine Tx.wp_bind (wp_setFailureReason inv (Pends.nothing _ inv) rfl rfl fun u₁ mem hu₁ hid hmem => ?_)
  exact Tx.wp_bind (wp_advance_illegal (by rw [hmem]; exact hs)
    ⟨hat.row.trans hat.start.symm, hat.written, fun _ => ⟨inv, hat.start, hl⟩⟩)

/-- **`run_matching`.** -/
theorem runMatching_wp (hR : Rely i R) :
    Txn.wp R G (fun w _ e => Raised i w₀ w e)
      (fun w u o => ∃ s, Ended env R c .matchInvoice i w₀ w u s ∧ s.bind TaskName.of = o.map fun _ => .validateInvoice)
      (runMatching env i) w₀ id := by
  refine wp_found hR ⟨_, rfl⟩ fun w₁ inv hid hat => ?_
  subst hid
  by_cases hs : inv.status = .extracted
  · simp only [hs, ne_eq, not_true_eq_false, if_false]
    refine Tx.wp_bind (Tx.wp_children hR hat (Pends.nothing _ inv) fun w₂ h₂ hat₂ => ?_)
    cases hr : (latestSuccessfulExtraction inv.extractions).bind (·.resultJson) with
    | none => exact wp_noExtraction hat₂ (.inl hs) hr fun u hend => ⟨_, hend, rfl⟩
    | some r =>
      refine Tx.wp_bind (wp_advance inv (Pends.nothing _ inv) rfl (by rw [hs]; rfl) fun u₁ hu₁ => ?_)
      rw [hs] at hu₁
      refine Tx.wp_bind (Tx.wp_query hR hat₂ hu₁ (fun d d' hv _ => by rw [vendorIdentities, hv]; rfl)
        fun w₃ h₃ hat₃ => ?_)
      refine Tx.wp_bind (Tx.wp_query hR hat₃ hu₁ (fun d d' _ hp => by rw [poIdentities, hp]; rfl)
        fun w₄ h₄ hat₄ => ?_)
      refine Tx.wp_bind (Tx.wp_updateInvoice hu₁ fun u₂ hu₂ => ?_)
      refine Tx.wp_bind (wp_advance (inv.setStatus .matching) hu₂ rfl rfl fun u₃ hu₃ => ⟨some .validating, ?_, rfl⟩)
      -- The vendors read two steps ago are still the vendors.
      rw [show vendorIdentities w₃.now = vendorIdentities w₄.now by
        simp only [vendorIdentities, (hR.undisturbed h₄).vendors]] at hu₃
      exact hat₄.moved hu₃ (.matched r _ hs hr) rfl
  · simp only [hs, ne_eq, not_false_eq_true, if_true]
    exact ⟨none, hat.idle (by simp [TaskName.entry, hs]), rfl⟩

/-- The loop over the other invoices reads each as it comes. -/
theorem collectCandidates_wp {normalized : String} {E : World → (DB → DB) → Exn → Prop} : ∀ (ids : List Uuid)
    {w : World} {Q : World → (DB → DB) → List DuplicateCandidate → Prop},
    (∀ w' cs, Collected env.py R normalized w ids w' cs → Q w' id cs) →
    Txn.wp R G E Q (collectCandidates env normalized ids) w id
  | [], _, _, h => h _ _ .nil
  | other :: rest, w, Q, h => by
    refine Tx.wp_bind (Tx.wp_getInvoice fun w₁ h₁ => ?_)
    cases hrow : w₁.now.invoice other with
    | none =>
      exact collectCandidates_wp rest fun w' cs hcs => h w' cs (.cons (.missing h₁ hrow) hcs)
    | some o =>
      have hid := DB.id_of_invoice hrow
      subst hid
      cases hex : excludedFromDuplicateCheck o.status with
      | true =>
        simp only [hex, if_true]
        exact collectCandidates_wp rest fun w' cs hcs => h w' cs (.cons (.excluded h₁ hrow hex) hcs)
      | false =>
        simp only [hex, Bool.false_eq_true, if_false]
        refine Tx.wp_bind fun w₂ h₂ => ?_
        have hlook : Looked env.py R normalized o.id w w₂ _ := .compared h₁ hrow hex h₂
        rw [Txn.wp]
        dsimp only [id_eq]
        cases hn : sameNumber env.py normalized (((w₂.now.invoice o.id).map (·.extractions)).getD []) with
        | none =>
          rw [hn] at hlook
          exact collectCandidates_wp rest fun w' cs hcs => h w' cs (.cons hlook hcs)
        | some number =>
          rw [hn] at hlook
          refine Tx.wp_bind (collectCandidates_wp rest fun w' cs hcs => ?_)
          exact h w' _ (.cons hlook hcs)

/-- The duplicate check. -/
theorem duplicateCandidates_wp (hR : Rely i R) {inv : Invoice} (hat : At i inv w₀ w) {row : Option InvoiceMatch}
    {extracted : ExtractedInvoice} {E : World → (DB → DB) → Exn → Prop}
    {Q : World → (DB → DB) → List DuplicateCandidate → Prop}
    (h : ∀ w' cs, At i inv w₀ w' → R w w' → Checked env.py R i row extracted w' cs → Q w' id cs) :
    Txn.wp R G E Q (duplicateCandidates env inv row extracted) w id := by
  have hid := DB.id_of_invoice hat.row
  subst hid
  unfold duplicateCandidates
  cases hv : row.bind (·.vendorId) with
  | none => exact h w [] hat (hR.refl w) (.noVendor hv)
  | some vendorId =>
    dsimp only
    split
    · next hn =>
      cases hnum : extracted.invoiceNumber with
      | none => rw [hnum] at hn; cases hn
      | some number =>
        refine Tx.wp_bind fun w₁ h₁ => collectCandidates_wp _ fun w₂ cs hcs => ?_
        have h₂ := hcs.rely hR
        refine h w₂ cs (hat.rely hR (hR.trans h₁ h₂)) (hR.trans h₁ h₂) ?_
        refine .checked hv hnum (by rw [hnum] at hn; simpa [Py.truthy] using hn) hcs h₂ (hR.refl w₂)
    · next hn => exact h w [] hat (hR.refl w) (.noNumber (by simpa using hn))

/-- The PO of the match row. -/
theorem matchedPo_wp (hR : Rely i R) {inv : Invoice} (hat : At i inv w₀ w) {row : Option InvoiceMatch}
    {E : World → (DB → DB) → Exn → Prop} {Q : World → (DB → DB) → Option PoSnapshot → Prop}
    (h : ∀ w', At i inv w₀ w' → Q w' id ((poOf w'.now row).map poSnapshot)) :
    Txn.wp R G E Q (matchedPo row) w id := by
  unfold matchedPo
  cases hp : row.bind (·.poId) with
  | none =>
    have := h w hat
    rw [poOf, hp] at this
    exact this
  | some poId =>
    intro w' hw
    have := h w' (hat.rely hR hw)
    rw [poOf, hp] at this
    exact this

/-- **`run_validation`.** -/
theorem runValidation_wp (hR : Rely i R) :
    Txn.wp R G (fun w _ e => Raised i w₀ w e)
      (fun w u o => ∃ s, Ended env R c .validateInvoice i w₀ w u s ∧ s.bind TaskName.of = o.map fun _ => .approveInvoice)
      (runValidation env i) w₀ id := by
  refine wp_found hR ⟨_, rfl⟩ fun w₁ inv hid hat => ?_
  subst hid
  by_cases hs : inv.status = .validating
  · simp only [hs, ne_eq, not_true_eq_false, if_false]
    refine Tx.wp_bind (Tx.wp_children hR hat (Pends.nothing _ inv) fun w₂ h₂ hat₂ => ?_)
    cases hr : (latestSuccessfulExtraction inv.extractions).bind (·.resultJson) with
    | none => exact wp_noExtraction hat₂ (.inr hs) hr fun u hend => ⟨_, hend, rfl⟩
    | some r =>
      refine Tx.wp_bind (Tx.wp_children hR hat₂ (Pends.nothing _ inv) fun w₃ h₃ hat₃ => ?_)
      refine Tx.wp_bind (matchedPo_wp hR hat₃ fun w₄ hat₄ => ?_)
      refine Tx.wp_bind (duplicateCandidates_wp hR hat₄ fun w₅ cs hat₅ h₅ hcs => ?_)
      refine Tx.wp_bind (Tx.wp_ofExcept (fun results hres => ?_) fun e he => hat₅.raised ?_)
      · refine Tx.wp_bind (Tx.wp_updateInvoice (Pends.nothing _ inv) fun u₁ hu₁ => ?_)
        refine Tx.wp_bind (wp_advance inv hu₁ rfl (by rw [hs]; rfl) fun u₂ hu₂ => ⟨some .validated, ?_, rfl⟩)
        rw [hs] at hu₂
        have hpo : poOf w₅.now (latestMatch inv.invoiceMatches) = poOf w₄.now (latestMatch inv.invoiceMatches) := by
          simp only [poOf, (hR.undisturbed h₅).purchaseOrders]
        refine hat₅.moved hu₂ (.validated r cs results _ hs hr hcs ?_) rfl
        rw [hpo]
        cases hrun : runRules env.py ⟨r.invoice, (poOf w₄.now (latestMatch inv.invoiceMatches)).map poSnapshot,
          (latestMatch inv.invoiceMatches).bind (·.vendorId), cs⟩ <;> rw [hrun] at hres <;> cases hres
        rfl
      · cases hrun : runRules env.py ⟨r.invoice, (poOf w₄.now (latestMatch inv.invoiceMatches)).map poSnapshot,
          (latestMatch inv.invoiceMatches).bind (·.vendorId), cs⟩ <;> rw [hrun] at he <;> cases he
        rfl
  · simp only [hs, ne_eq, not_false_eq_true, if_true]
    exact ⟨none, hat.idle (by simp [TaskName.entry, hs]), rfl⟩

/-- **`run_approval`.** -/
theorem runApproval_wp (hR : Rely i R) :
    Txn.wp R G (fun w _ e => Raised i w₀ w e)
      (fun w u o => ∃ s, Ended env R c .approveInvoice i w₀ w u s ∧
        s.bind TaskName.of = if o.map (·.outcome) = some .autoApproved then some .exportInvoice else none)
      (runApproval i) w₀ id := by
  refine wp_found hR ⟨_, rfl⟩ fun w₁ inv hid hat => ?_
  subst hid
  by_cases hs : inv.status = .validated
  · simp only [hs, ne_eq, not_true_eq_false, if_false]
    refine Tx.wp_bind (Tx.wp_map (Tx.wp_children hR hat (Pends.nothing _ inv) fun w₂ h₂ hat₂ => ?_))
    refine Tx.wp_bind (Tx.wp_map (Tx.wp_children hR hat₂ (Pends.nothing _ inv) fun w₃ h₃ hat₃ => ?_))
    refine Tx.wp_bind (Tx.wp_map (Tx.wp_children hR hat₃ (Pends.nothing _ inv) fun w₄ h₄ hat₄ => ?_))
    have hcan : inv.status.canTransition .failed = false := by rw [hs]; rfl
    have hlacks : latestValidation inv.validations = none ∨
        latestSuccessfulExtraction inv.extractions = none → Lacks inv := fun h => by rw [Lacks, hs]; exact h
    cases hv : latestValidation inv.validations with
    | none => exact wp_noExtraction_illegal hat₄ hcan (hlacks (.inl hv))
    | some v =>
      cases he : latestSuccessfulExtraction inv.extractions with
      | none => exact wp_noExtraction_illegal hat₄ hcan (hlacks (.inr he))
      | some e =>
        dsimp only
        generalize hd : decideApproval v.passed (vendorIdentified (latestMatch inv.invoiceMatches))
          (hasPo (latestMatch inv.invoiceMatches)) (e.fieldConfidence.getD .empty) = d
        have hout : d.outcome = .autoApproved ∨ d.outcome = .needsReview := by
          rw [← hd]
          exact decideApproval_outcome ..
        have hlegal : inv.status.canTransition d.outcome = true := by
          rcases hout with h | h <;> rw [hs, h] <;> rfl
        have hnext : (some d.outcome).bind TaskName.of =
            if (some d).map (·.outcome) = some .autoApproved then some .exportInvoice else none := by
          rcases hout with h | h <;> simp [h, TaskName.of]
        refine Tx.wp_bind (wp_advance inv (Pends.nothing _ inv) rfl hlegal fun u₁ hu₁ =>
          ⟨some d.outcome, ?_, hnext⟩)
        rw [hs] at hu₁
        exact hat₄.moved hu₁ (.decided v e d hs hv he hd.symm) rfl
  · simp only [hs, ne_eq, not_false_eq_true, if_true]
    exact ⟨none, hat.idle (by simp [TaskName.entry, hs]), rfl⟩

/-- **`record_human_decision`**: one move, or an exception that is no
surprise. -/
theorem recordHumanDecision_wp (env : Env) (c : Call) (hR : Rely i R) {isApproval : Bool} {actor : String}
    {reason : Option String} :
    Txn.wp R G (fun w u e => u = id ∧ w.now.invoice i = w₀.now.invoice i ∧
        artifacts i w.ext = artifacts i w₀.ext ∧
        (w₀.now.invoice i = none ∧ e = .valueError ("invoice " ++ i.str ++ " not found") ∨
          ∃ inv, w₀.now.invoice i = some inv ∧ inv.status ≠ .needsReview ∧
            e = .illegalTransition inv.status (if isApproval then .approved else .rejected)))
      (fun w u mem => mem.id = i ∧ ∃ inv inv', At i inv w₀ w ∧ Pends i inv inv' u ∧
        Move env R c (artifacts i w₀.ext) w inv inv' ∧
        inv'.status = (if isApproval then .approved else .rejected) ∧ inv'.exports = inv.exports)
      (recordHumanDecision i isApproval actor reason) w₀ id := by
  refine Tx.wp_bind (Tx.wp_getInvoice fun w₁ h₁ => ?_)
  have hu := hR.undisturbed h₁
  cases hrow : w₁.now.invoice i with
  | none => exact ⟨rfl, hu.invoice, hu.artifacts, .inl ⟨hu.invoice ▸ hrow, rfl⟩⟩
  | some inv =>
    have hat := At.first hR h₁ hrow
    have hid := DB.id_of_invoice hrow
    subst hid
    by_cases hs : inv.status = .needsReview
    · refine wp_advance inv (Pends.nothing _ inv) rfl (by rw [hs]; cases isApproval <;> rfl) fun u₁ hu₁ => ?_
      rw [hs] at hu₁
      exact ⟨rfl, inv, _, hat, hu₁, .reviewed isApproval actor reason hs, rfl, rfl⟩
    · have hcan : inv.status.canTransition (if isApproval then .approved else .rejected) = false := by
        cases isApproval <;> cases h : inv.status <;> first | rfl | exact absurd h hs
      exact wp_advance_illegal hcan ⟨rfl, hu.invoice, hu.artifacts, .inr ⟨inv, hat.start, hs, rfl⟩⟩

/-! ## The artifact -/

theorem Artifacts.kept {i : Uuid} {d d' : Disk} (h : Disk.Kept d d') : artifacts i d' = artifacts i d := by
  rw [artifacts, h.1]
  rfl

theorem exportKey_prefix (i key : Uuid) : ("exports/" ++ i.str ++ "/").toList <+: (exportKey i key).toList := by
  refine ⟨key.str.toList ++ ".json".toList, ?_⟩
  simp only [exportKey, String.toList_append, List.append_assoc]

theorem Artifacts.wrote {i key : Uuid} {p : Write} {d d' : Disk} (h : Disk.Wrote p d d')
    (hp : p.key = exportKey i key) : artifacts i d' = artifacts i d ++ [p] := by
  have hpre : ("exports/" ++ i.str ++ "/").toList <+: p.key.toList := hp ▸ exportKey_prefix i key
  rw [artifacts, h.1, List.filter_append, List.filter_cons, if_pos (by simpa using hpre)]
  rfl

/-- What holds of the world while an object is put: it survives the others
(`hR`) and a call that changes no object (`hK`). -/
theorem Tx.wp_putObject {key : String} {data : Bytes} {u : DB → DB} {E : World → (DB → DB) → Exn → Prop}
    {Q : World → (DB → DB) → Unit → Prop} (P : World → Prop) (hP : P w) (hR : ∀ w w', R w w' → P w → P w')
    (hK : ∀ w d, P w → Disk.Kept w.ext d → P (w.setExt d) ∧ G w (w.setExt d))
    (hW : ∀ w p d, P w → p.key = key → p.bytes = data →
      env.locate p.key = .ok p.location →
      Disk.Wrote p w.ext d → G w (w.setExt d) ∧ Q (w.setExt d) u ())
    (hE : ∀ w e, P w → e.isIllegalTransition = false → E w u e) :
    Txn.wp R G E Q (Tx.putObject env key data) w u := by
  unfold Tx.putObject
  cases hb : env.settings.storageBackend with
  | «local» =>
    refine Tx.wp_bind (Tx.wp_ofExcept (fun path hpath => ?_)
      fun e he => hE _ _ hP (Storage.isIllegalTransition_of_path he))
    have hloc : Storage.locate env.py .local env.settings.storageLocalDir key = .ok (.file path) := by
      rw [Storage.locate, hpath]
      rfl
    refine Tx.wp_bind (Txn.wp_effect.mpr fun w₁ h₁ => ?_)
    obtain ⟨hP₂, hG⟩ := hK w₁ _ (hR _ _ h₁ hP) (Disk.mkdirs_kept path w₁.ext)
    refine ⟨hG, ?_⟩
    cases hm : (Disk.mkdirs path w₁.ext).1 with
    | error e =>
      refine hE _ _ hP₂ ?_
      unfold Disk.mkdirs at hm
      split at hm <;> cases hm
      rfl
    | ok x =>
      refine Txn.wp_effect.mpr fun w₂ h₂ => ?_
      have hP₃ := hR _ _ h₂ hP₂
      rcases Disk.writeBytes_cases key path data w₂.ext with ⟨e, he, hsame⟩ | ⟨hok, hw⟩
      · rw [he, hsame]
        refine ⟨(hK w₂ _ hP₃ (.refl _)).2, hE _ _ (hK w₂ _ hP₃ (.refl _)).1 ?_⟩
        unfold Disk.writeBytes at he
        split at he <;> cases he
        rfl
      · rw [hok]
        exact hW w₂ ⟨key, .file path, data⟩ _ hP₃ rfl rfl (by rw [Env.locate, hb]; exact hloc) hw
  | s3 =>
    refine Txn.wp_effect.mpr fun w₁ h₁ => ?_
    exact hW w₁ ⟨key, .object key, data⟩ _ (hR _ _ h₁ hP) rfl rfl (by rw [Env.locate, hb]; rfl)
      (Disk.putKey_wrote key data w₁.ext)

theorem approvalAuditEntry_append {l : List AuditLog} {e : AuditLog}
    (h : (e.toStatus == .autoApproved || e.toStatus == .approved) = false) :
    approvalAuditEntry (l ++ [e]) = approvalAuditEntry l := by
  rw [approvalAuditEntry, List.reverse_append, List.reverse_singleton, List.singleton_append, List.find?_cons, h]
  rfl

/-- A foreign key of the match row, followed. -/
theorem related_wp (hR : Rely i R) {inv cur : Invoice} {u : DB → DB} (hat : At i inv w₀ w) (hu : Pends i inv cur u)
    {α : Type} {id? : Option Uuid} {get : DB → Uuid → Option α}
    (hget : ∀ d d' : DB, d'.vendors = d.vendors → d'.purchaseOrders = d.purchaseOrders → get d' = get d)
    {E : World → (DB → DB) → Exn → Prop} {Q : World → (DB → DB) → Option α → Prop}
    (h : ∀ w', R w w' → At i inv w₀ w' → Q w' u (id?.bind (get w'.now))) :
    Txn.wp R G E Q (related id? get) w u := by
  cases id? with
  | none => exact h w (hR.refl w) hat
  | some id =>
    exact Tx.wp_query hR hat hu (fun d d' hv hp => by rw [hget d d' hv hp]) fun w' hw hat' => h w' hw hat'

/-- **`run_export`.** Its steps on the storage are the call's. -/
theorem runExport_wp (hR : Rely i R) {key : Uuid} {now : String}
    (hG : ∀ w w', Act env R (.export key now) (artifacts i w₀.ext) i w w' → G w w') :
    Txn.wp R G (fun w _ e => Raised i w₀ w e)
      (fun w u _ => ∃ s, Ended env R (.export key now) .exportInvoice i w₀ w u s ∧ s.bind TaskName.of = none)
      (runExport env key now i) w₀ id := by
  refine wp_found hR ⟨_, rfl⟩ fun w₁ inv hid hat => ?_
  subst hid
  cases hs : exportable inv.status with
  | true =>
    simp only [hs, Bool.not_true, Bool.false_eq_true, if_false]
    have hfailed : inv.status.canTransition .failed = false := by
      unfold exportable at hs
      cases h : inv.status <;> rw [h] at hs <;> first | rfl | cases hs
    have hexporting : inv.status.canTransition .exporting = true := by
      unfold exportable at hs
      cases h : inv.status <;> rw [h] at hs <;> first | rfl | cases hs
    refine Tx.wp_bind (Tx.wp_children hR hat (Pends.nothing _ inv) fun w₂ h₂ hat₂ => ?_)
    cases hr : (latestSuccessfulExtraction inv.extractions).bind (·.resultJson) with
    | none =>
      refine wp_noExtraction_illegal hat₂ hfailed ?_
      unfold Lacks
      unfold exportable at hs
      cases h : inv.status <;> rw [h] at hs <;> first | exact hr | cases hs
    | some r =>
      refine Tx.wp_bind (wp_advance inv (Pends.nothing _ inv) rfl hexporting fun u₁ hu₁ => ?_)
      refine Tx.wp_bind (Tx.wp_map (Tx.wp_children hR hat₂ hu₁ fun w₃ h₃ hat₃ => ?_))
      refine Tx.wp_bind (Tx.wp_map (Tx.wp_children hR hat₃ hu₁ fun w₄ h₄ hat₄ => ?_))
      refine Tx.wp_bind (related_wp hR hat₄ hu₁ (fun d d' hv _ => by rw [hv]) fun w₅ h₅ hat₅ => ?_)
      refine Tx.wp_bind (related_wp hR hat₅ hu₁ (fun d d' _ hp => by rw [hp]) fun w₆ h₆ hat₆ => ?_)
      have happr : approvalAuditEntry (inv.advanced inv.status .exporting "system"
          (some "starting accounting export")).auditLog = approvalAuditEntry inv.auditLog :=
        approvalAuditEntry_append rfl
      rw [happr]
      -- The rows named by the match row are those of every later world.
      have hv : vendorOf w₆.now (latestMatch inv.invoiceMatches) =
          ((latestMatch inv.invoiceMatches).bind (·.vendorId)).bind w₅.now.vendors.get? := by
        rw [vendorOf, (hR.undisturbed h₆).vendors]
      generalize hb : (exportPayload _ _ _ _ _ _ _ _).toJsonBytes = bytes
      refine Tx.wp_bind (Tx.wp_putObject (fun w => At inv.id inv w₀ w ∧
        vendorOf w.now (latestMatch inv.invoiceMatches) = vendorOf w₆.now (latestMatch inv.invoiceMatches) ∧
        poOf w.now (latestMatch inv.invoiceMatches) = poOf w₆.now (latestMatch inv.invoiceMatches))
        ⟨hat₆, rfl, rfl⟩ ?_ ?_ ?_ ?_)
      · rintro w w' hw ⟨hat, hv, hp⟩
        have hu := hR.undisturbed hw
        exact ⟨hat.rely hR hw, by rw [← hv, vendorOf, vendorOf, hu.vendors],
          by rw [← hp, poOf, poOf, hu.purchaseOrders]⟩
      · rintro w d ⟨hat, hv, hp⟩ hk
        exact ⟨⟨⟨hat.start, hat.row, (Artifacts.kept hk).trans hat.written⟩, hv, hp⟩, hG _ _ (.kept hk)⟩
      · rintro w p d ⟨hat, hv', hp'⟩ hkey hbytes hloc hw
        replace hkey : p.key = exportKey inv.id key := hkey
        refine ⟨hG _ _ (.artifact rfl hat.row hs hkey hloc hat.written hw), ?_⟩
        have hart : artifacts inv.id d = artifacts inv.id w₀.ext ++ [p] := by rw [Artifacts.wrote hw hkey, hat.written]
        refine Tx.wp_bind (Tx.wp_updateInvoice hu₁ fun u₂ hu₂ => ?_)
        refine Tx.wp_bind (wp_advance (inv.setStatus .exporting) hu₂ rfl rfl fun u₃ hu₃ => ⟨some .exported, ?_, rfl⟩)
        have hrow : (w.setExt d).now.invoice inv.id = some inv := hat.row
        refine .moved hat.start hrow hu₃ (.exported key now r _ p (w.setExt d) rfl hs hr rfl
          ⟨?_, hkey, rfl, by rw [hbytes], hloc⟩ hart ?_ (hR.refl _)) ?_
        · rw [hbytes, ← hb, Txn.World.setExt_now, hv', hp', hv]
          rfl
        · rw [Txn.World.setExt_ext, hw.2, if_pos rfl]
        · simp only [Txn.World.setExt_ext, hart, Invoice.advanced, List.length_append, List.length_singleton]
          omega
      · exact fun w e hP he => hP.1.raised he
  | false =>
    simp only [hs, Bool.not_false, if_true]
    exact ⟨none, hat.idle hs, rfl⟩

end stages

end InvoiceOps
