/-
Services with no other session about: what each returns, and the world its
transaction leaves. Which extraction attempts land their invoice in
EXTRACTED or FAILED, and which stages fail an invoice whose data is missing.
-/
import InvoiceOps.Facts.Serial

namespace InvoiceOps

/-- A service in a session of its own: what it returns or raises, and the
world it leaves. -/
def served {α : Type} (body : Tx α) (w : World) : Except Exn α × World :=
  let r := (Tx.sessionScope body).run w id
  (r.1, r.2.1)

theorem served_of_wp {α : Type} {body : Tx α} {w : World} {Q : Except Exn α → World → Prop}
    (h : Txn.wp Eq (fun _ _ => True) (fun w _ e => Q (.error e) w)
      (fun w u a => Q (.ok a) (w.commit (u w.now))) body w id) : Q (served body w).1 (served body w).2 := by
  have hscope : Txn.wp Eq (fun _ _ => True) (fun w _ e => Q (.error e) w) (fun w _ a => Q (.ok a) w)
      (Tx.sessionScope body) w id :=
    Tx.wp_sessionScope (Txn.wp_mono h fun _ _ _ hQ _ hw => hw ▸ ⟨trivial, hQ⟩)
  have hrun := (Txn.wp_run (fun _ => rfl) hscope).2
  unfold served
  cases hr : ((Tx.sessionScope body).run w id).1 <;> rw [hr] at hrun <;> exact hrun

theorem Tx.wp_getObject_alone {G : World → World → Prop} {E : World → (DB → DB) → Exn → Prop}
    {Q : World → (DB → DB) → Bytes → Prop} {env : Env} {key : String} {w : World} {u : DB → DB} {data : Bytes}
    (hdata : Storage.getObject env.py env.settings.storageBackend env.settings.storageLocalDir key w.ext = .ok data)
    (h : Q w u data) : Txn.wp Eq G E Q (Tx.getObject env key) w u := by
  refine Tx.wp_bind fun w' hw => ?_
  subst hw
  refine Tx.wp_ofExcept (fun data' h' => ?_) fun e h' => ?_
  · rw [hdata] at h'
    cases h'
    exact h
  · rw [hdata] at h'
    cases h'

theorem Tx.wp_getInvoice_alone {G : World → World → Prop} {E : World → (DB → DB) → Exn → Prop}
    {Q : World → (DB → DB) → Option Invoice → Prop} {w : World} {i : Uuid} {inv : Invoice}
    (hrow : w.now.invoice i = some inv) (h : Q w id (some inv)) : Txn.wp Eq G E Q (Tx.getInvoice i) w id := by
  intro w' hw
  subst hw
  change Q w id (w.now.invoice i)
  rw [hrow]
  exact h

theorem Tx.wp_children_alone {α : Type} {G : World → World → Prop} {E : World → (DB → DB) → Exn → Prop}
    {rows : Invoice → List α} {Q : World → (DB → DB) → List α → Prop} {w : World} {u : DB → DB} {i : Uuid}
    {inv cur : Invoice} (hat : At i inv w w) (hu : Pends i inv cur u) (h : Q w u (rows cur)) :
    Txn.wp Eq G E Q (Tx.children i rows) w u :=
  Tx.wp_children (.alone i) hat hu fun _ hw _ => hw ▸ h

/-- The row a service finds is the committed one. -/
theorem At.alone {w : World} {i : Uuid} {inv : Invoice} (h : w.now.invoice i = some inv) : At i inv w w :=
  ⟨h, h, rfl⟩

theorem At.committed {w₀ w : World} {i : Uuid} {inv inv' : Invoice} {u : DB → DB} (h : At i inv w₀ w)
    (hu : Pends i inv inv' u) : (w.commit (u w.now)).now.invoice i = some inv' := (hu _ h.row).self

/-! ## Extraction attempts -/

/-- What the next prompt says of a response that was rejected. -/
def ParsedReply.hint : ParsedReply → Option String
  | .notJson error => some ("response was not valid JSON: " ++ error)
  | .schemaViolation error => some ("JSON did not match the schema: " ++ error)
  | .accepted _ | .raised _ => none

/-- The call gave a content, and what the parser raises on it, if anything,
is one of the two exceptions the loop catches. -/
def LlmReply.Handled (env : Env) : LlmReply → Prop
  | .response (some content) _ => ∀ error, env.parseReply content ≠ .raised error
  | .response none _ | .llmError _ | .raised _ => False

section attempts
variable (env : Env) (llm : Llm) (text : String)

/-- The call made in state `s`. -/
def LlmReply.at (s : RetryState) : LlmReply :=
  llm (s.attempt + 1) systemPrompt (userPrompt env text s.errorHint) env.resultJsonSchema

/-- The states the loop calls the model in, with `n` calls allowed from `s`. -/
inductive Asked : Nat → RetryState → RetryState → Prop
  | now {n s} : Asked (n + 1) s s
  | later {n s s' content model error} : LlmReply.at env llm text s = .response (some content) model →
      (env.parseReply content).hint = some error → Asked n (s.rejected content error) s' → Asked (n + 1) s s'

end attempts

/-- A loop that ended in a result or ran out of attempts. -/
def Concluded : Except Exn RetryOutcome → Prop
  | .ok _ | .error (.extractionFailed ..) => True
  | .error _ => False

section attempts
variable {env : Env} {llm : Llm} {text : String}

theorem asked_zero {s s' : RetryState} : ¬ Asked env llm text 0 s s' := fun h => by cases h

/-- A rejected response leads to the calls from the next state. -/
theorem asked_rejected {n : Nat} {s : RetryState} {content model error : String}
    (hl : LlmReply.at env llm text s = .response (some content) model)
    (hp : (env.parseReply content).hint = some error) {P : RetryState → Prop} :
    (∀ s', Asked env llm text (n + 1) s s' → P s') ↔
      P s ∧ ∀ s', Asked env llm text n (s.rejected content error) s' → P s' := by
  constructor
  · exact fun h => ⟨h s .now, fun s' hs' => h s' (.later hl hp hs')⟩
  · rintro ⟨hs, h⟩ s' hs'
    cases hs' with
    | now => exact hs
    | later hl' hp' hs' =>
      rw [hl] at hl'
      cases hl'
      rw [hp] at hp'
      cases hp'
      exact h s' hs'

/-- No call follows a call that was not rejected. -/
theorem asked_last {n : Nat} {s : RetryState}
    (hlast : ∀ content model, LlmReply.at env llm text s = .response (some content) model →
      (env.parseReply content).hint = none) {P : RetryState → Prop} :
    (∀ s', Asked env llm text (n + 1) s s' → P s') ↔ P s := by
  constructor
  · exact fun h => h s .now
  · intro hs s' hs'
    cases hs' with
    | now => exact hs
    | later hl hp _ =>
      rw [hlast _ _ hl] at hp
      cases hp

/-- **The retry loop** comes to its own end exactly when every call it makes
is handled. -/
theorem retryLoop_concluded : ∀ (n : Nat) (s : RetryState), Concluded (retryLoop env llm text n s).2 ↔
    ∀ s', Asked env llm text n s s' → (LlmReply.at env llm text s').Handled env
  | 0, s => ⟨fun _ _ h => (asked_zero h).elim, fun _ => trivial⟩
  | n + 1, s => by
    have hat : LlmReply.at env llm text s =
        llm (s.attempt + 1) systemPrompt (userPrompt env text s.errorHint) env.resultJsonSchema := rfl
    rw [retryLoop]
    cases hl : llm (s.attempt + 1) systemPrompt (userPrompt env text s.errorHint) env.resultJsonSchema with
    | llmError message | raised message =>
      rw [hl] at hat
      rw [asked_last (by rw [hat]; intro _ _ h; cases h), hat]
      exact Iff.rfl
    | response content model =>
      rw [hl] at hat
      cases content with
      | none =>
        rw [asked_last (by rw [hat]; intro _ _ h; cases h), hat]
        exact Iff.rfl
      | some content =>
        cases hp : env.parseReply content with
        | accepted result =>
          rw [asked_last (by rw [hat]; intro _ _ h; cases h; rw [hp]; rfl), hat]
          simp [hp, Concluded, LlmReply.Handled]
        | raised error =>
          rw [asked_last (by rw [hat]; intro _ _ h; cases h; rw [hp]; rfl), hat]
          simp [hp, Concluded, LlmReply.Handled]
        | notJson error | schemaViolation error =>
          rw [asked_rejected hat (by rw [hp]; rfl), hat]
          simp only [hp, retryLoop_concluded n, LlmReply.Handled]
          simp

/-- The attempt is over: one new row, and the invoice in EXTRACTED, or in
FAILED with the error on record. -/
def Landed (inv : Invoice) (r : Except Exn (Option Extraction)) (w : World) : Prop :=
  ∃ extraction inv', r = .ok (some extraction) ∧ w.now.invoice inv.id = some inv' ∧
    inv'.extractions = inv.extractions ++ [extraction] ∧
    (inv'.status = .extracted ∧ extraction.ok = true ∨
      inv'.status = .failed ∧ extraction.ok = false ∧ extraction.error.isSome ∧
        inv'.failureReason = extraction.error)

theorem not_landed_error {inv : Invoice} {e : Exn} {w : World} : ¬ Landed inv (.error e) w := by
  rintro ⟨extraction, inv', h, -⟩
  cases h

/-- Where there is a client, each call the loop makes to it is handled. -/
def Answered (env : Env) (llm : Option Llm) (provider : Llm) (text : String) : Prop :=
  ∀ client, llmOrClient env.settings llm provider = .ok client →
    ∀ s, Asked env client text (env.settings.llmMaxRetries + 1).toNat ⟨none, "", [], 0⟩ s →
      (LlmReply.at env client text s).Handled env

theorem answered_of_noClient {provider : Llm} {llm : Option Llm} {e : Exn}
    (h : llmOrClient env.settings llm provider = .error e) : Answered env llm provider text := by
  intro client hcl
  rw [h] at hcl
  cases hcl

theorem answered_iff_concluded {provider client : Llm} {llm : Option Llm}
    (h : llmOrClient env.settings llm provider = .ok client) : Answered env llm provider text ↔
      Concluded (extractWithRetry env client text env.settings.llmMaxRetries).2 := by
  rw [extractWithRetry, retryLoop_concluded]
  constructor
  · exact fun ha => ha client h
  · intro ha client' hcl
    rw [h] at hcl
    cases hcl
    exact ha

/-- Only a missing key keeps a client from being built. -/
theorem llmError_of_noClient {provider : Llm} {llm : Option Llm} {e : Exn}
    (h : llmOrClient env.settings llm provider = .error e) : ∃ message, e = .llmError message := by
  unfold llmOrClient openRouterClient at h
  split at h
  · cases h
  · split at h <;> cases h
    exact ⟨_, rfl⟩

section services
variable {w : World} {inv : Invoice} {u : DB → DB}

/-- `_fail` lands its invoice. -/
theorem failExtraction_alone {mem : Invoice} {model error : String} {method : TextMethod} {n : Nat}
    {raw : Option String} {E : World → (DB → DB) → Exn → Prop} (hat : At inv.id inv w w)
    (hu : Pends inv.id inv (inv.advanced .received .extracting "system" (some "starting text + LLM extraction")) u)
    (hid : mem.id = inv.id) (hmem : mem.status = .extracting) (hf : mem.failureReason = inv.failureReason) :
    Txn.wp Eq (fun _ _ => True) E (fun w u e => Landed inv (.ok (some e)) (w.commit (u w.now)))
      (failExtraction mem model method error n raw) w u := by
  unfold failExtraction
  rw [hid]
  refine Tx.wp_bind (Tx.wp_updateInvoice hu fun u₁ hu₁ => ?_)
  refine Tx.wp_bind (wp_setFailureReason mem hu₁ hid hf.symm fun u₂ mem₂ hu₂ hid₂ hs₂ => ?_)
  refine Tx.wp_bind (wp_advance mem₂ hu₂ hid₂ (by rw [hs₂, hmem]; rfl) fun u₃ hu₃ => ?_)
  exact ⟨_, _, rfl, hat.committed hu₃, rfl, .inr ⟨rfl, rfl, rfl, rfl⟩⟩

/-- `run_extraction` on an invoice in RECEIVED whose document has text. -/
theorem runExtraction_alone {llm : Option Llm} {provider : Llm} {data : Bytes} {document : DocumentText}
    (hrow : w.now.invoice inv.id = some inv) (hs : inv.status = .received)
    (hdata : Storage.getObject env.py env.settings.storageBackend env.settings.storageLocalDir inv.storageKey w.ext =
      .ok data)
    (hdoc : extractText env data inv.contentType = .ok document) (htext : document.isEmpty env.py = false) :
    Txn.wp Eq (fun _ _ => True)
      (fun w _ e => Landed inv (.error e) w ↔ Answered env llm provider document.text)
      (fun w u r => Landed inv (.ok r) (w.commit (u w.now)) ↔ Answered env llm provider document.text)
      (runExtraction env llm provider inv.id) w id := by
  have hat := At.alone hrow
  refine Tx.wp_bind (Tx.wp_getInvoice_alone hrow ?_)
  simp only [hs, ne_eq, not_true_eq_false, if_false]
  refine Tx.wp_bind (wp_advance inv (Pends.nothing _ inv) rfl (by rw [hs]; rfl) fun u₁ hu₁ => ?_)
  rw [hs] at hu₁
  refine Tx.wp_bind (Tx.wp_getObject_alone hdata ?_)
  refine Tx.wp_bind (Tx.wp_ofExcept (fun document' hdoc' => ?_) fun e he => ?_)
  case refine_2 => exact absurd (hdoc.symm.trans he) (by simp)
  obtain rfl : document = document' := Except.ok.inj (hdoc.symm.trans hdoc')
  rw [if_neg (by rw [htext]; exact Bool.false_ne_true)]
  have hfail : ∀ {model error : String} {n : Nat} {raw : Option String}, Answered env llm provider document.text →
      Txn.wp Eq (fun _ _ => True)
        (fun w _ e => Landed inv (.error e) w ↔ Answered env llm provider document.text)
        (fun w u r => Landed inv (.ok r) (w.commit (u w.now)) ↔ Answered env llm provider document.text)
        (some <$> failExtraction (inv.setStatus .extracting) model document.method error n raw) w u₁ := by
    intro model error n raw ha
    exact Tx.wp_map (Txn.wp_mono (failExtraction_alone hat hu₁ rfl rfl rfl) fun w u e h => iff_of_true h ha)
  cases hcl : llmOrClient env.settings llm provider with
  | error e =>
    obtain ⟨message, rfl⟩ := llmError_of_noClient hcl
    exact hfail (answered_of_noClient hcl)
  | ok client =>
    have hans := @answered_iff_concluded env document.text _ _ _ hcl
    dsimp only
    cases hout : (extractWithRetry env client document.text env.settings.llmMaxRetries).2 with
    | error e =>
      rw [hout] at hans
      cases e with
      | extractionFailed message attempts raw => exact hfail (hans.mpr trivial)
      | _ => exact iff_of_false not_landed_error hans.mp
    | ok outcome =>
      rw [hout] at hans
      dsimp only
      refine Tx.wp_bind (Tx.wp_updateInvoice hu₁ fun u₂ hu₂ => ?_)
      refine Tx.wp_bind (wp_setFailureReason (inv.setStatus .extracting) hu₂ rfl rfl fun u₃ mem₃ hu₃ hid₃ hs₃ => ?_)
      refine Tx.wp_bind (wp_advance mem₃ hu₃ hid₃ (by rw [hs₃]; rfl) fun u₄ hu₄ => ?_)
      exact iff_of_true ⟨_, _, rfl, hat.committed hu₄, rfl, .inl ⟨rfl, rfl⟩⟩ (hans.mpr trivial)

/-- **An extraction attempt** on an invoice in RECEIVED whose document has
text lands exactly when the calls it makes are answered. A call that raises
an `LLMError`, or a response with null content, is not caught: the
transaction is rolled back. -/
theorem landed_iff_answered {llm : Option Llm} {provider : Llm} {data : Bytes} {document : DocumentText}
    (hrow : w.now.invoice inv.id = some inv) (hs : inv.status = .received)
    (hdata : Storage.getObject env.py env.settings.storageBackend env.settings.storageLocalDir inv.storageKey w.ext =
      .ok data)
    (hdoc : extractText env data inv.contentType = .ok document) (htext : document.isEmpty env.py = false) :
    Landed inv (served (runExtraction env llm provider inv.id) w).1
        (served (runExtraction env llm provider inv.id) w).2 ↔
      Answered env llm provider document.text :=
  served_of_wp (Q := fun r w => Landed inv r w ↔ Answered env llm provider document.text)
    (runExtraction_alone hrow hs hdata hdoc htext)

end services
end attempts

namespace Sample

/-- One document received. -/
def arrived : World := after [.upload (uuid 5) (document "first") (some "invoice.pdf") (some "application/pdf")]

theorem ok_of_toOption {ε α : Type} {x : Except ε α} {a : α} (h : x.toOption = some a) : x = .ok a := by
  cases x with
  | ok b => cases h; rfl
  | error e => cases h

theorem arrived_row : (arrived.now.invoice (uuid 5)).map (fun inv => (inv.status, inv.contentType,
    (Storage.getObject py .local env.settings.storageLocalDir inv.storageKey arrived.ext).toOption)) =
    some (.received, "application/pdf", some (document "first")) := by decide +kernel

theorem first_text : (extractText env (document "first") "application/pdf").toOption.map (·.isEmpty py) =
    some false := by decide +kernel

theorem handled_text (a : Answer) : (LlmReply.response (some a.text) "model").Handled env := by
  intro error h
  cases hfind : answers.find? (fun b => b.text = a.text) with
  | some b =>
    rw [parseReply_some hfind] at h
    cases h
  | none =>
    rw [parseReply_none hfind] at h
    cases h

/-- The attempt of a model that answers. -/
theorem landed_first : ∃ inv d, arrived.now.invoice (uuid 5) = some inv ∧
    extractText env (document "first") inv.contentType = .ok d ∧ Answered env none (provider plain) d.text ∧
    Landed inv (served (runExtraction env none (provider plain) inv.id) arrived).1
      (served (runExtraction env none (provider plain) inv.id) arrived).2 := by
  obtain ⟨inv, hi, hrow⟩ := Option.map_eq_some_iff.mp arrived_row
  obtain ⟨d, hd, htext⟩ := Option.map_eq_some_iff.mp first_text
  simp only [Prod.mk.injEq] at hrow
  obtain ⟨hs, htype, hdata⟩ := hrow
  replace hdata := ok_of_toOption hdata
  replace hd := ok_of_toOption hd
  rw [← htype] at hd
  have hi' : arrived.now.invoice inv.id = some inv := by rw [DB.id_of_invoice hi, hi]
  have hanswered : Answered env none (provider plain) d.text := by
    intro client hclient s _
    cases hclient
    exact handled_text plain
  exact ⟨inv, d, hi, hd, hanswered, (landed_iff_answered hi' hs hdata hd htext).mpr hanswered⟩

/-- A model whose calls raise, and one whose message has no content. -/
theorem unanswered : statusOf arrived 5 = some .received ∧
    (extractText env (document "first") "application/pdf").toOption.map (·.isEmpty py) = some false ∧
    ∀ reply ∈ [LlmReply.llmError "OpenRouter request failed: timed out", .response none "model"],
      (served (runExtraction env none (fun _ _ _ _ => reply) (uuid 5)) arrived).1.isOk = false ∧
      statusOf (served (runExtraction env none (fun _ _ _ _ => reply) (uuid 5)) arrived).2 5 = some .received := by
  decide +kernel

end Sample

/-! ## Missing data -/

/-- The service a task runs, and whether it returned a row. -/
def TaskName.service (env : Env) (provider : Llm) (key : Uuid) (now : String) (i : Uuid) :
    TaskName → Tx (Option Unit)
  | .extractInvoice => Option.map (fun _ => ()) <$> runExtraction env none provider i
  | .matchInvoice => Option.map (fun _ => ()) <$> runMatching env i
  | .validateInvoice => Option.map (fun _ => ()) <$> runValidation env i
  | .approveInvoice => Option.map (fun _ => ()) <$> runApproval i
  | .exportInvoice => Option.map (fun _ => ()) <$> runExport env key now i

/-- There is no successful extraction with a result, or no validation to
decide on. -/
def Missing (inv : Invoice) : Prop :=
  inv.result = none ∨ inv.status = .validated ∧ latestValidation inv.validations = none

/-- The service returned None, and the invoice failed, with a reason and an
audit entry. -/
def FailedFor (inv : Invoice) (r : Except Exn (Option Unit)) (w : World) : Prop :=
  ∃ inv' actor reason, r = .ok none ∧ w.now.invoice inv.id = some inv' ∧ inv'.status = .failed ∧
    inv'.failureReason.isSome ∧ inv'.auditLog = inv.auditLog ++ [⟨inv.status, .failed, actor, reason⟩]

/-- Of the entry statuses of the stages after extraction, two lead to FAILED. -/
theorem canTransition_failed {s : InvoiceStatus} {t : TaskName} (hs : TaskName.of s = some t)
    (ht : t ≠ .extractInvoice) : s.canTransition .failed = true ↔ s = .extracted ∨ s = .validating := by
  cases s <;> first | decide | (cases hs; exact absurd rfl ht) | cases hs

section missing
variable {w : World} {inv : Invoice} {α : Type} {P : Prop}

theorem not_failedFor_error {e : Exn} : ¬ FailedFor inv (.error e) w := by
  rintro ⟨inv', actor, reason, h, -⟩
  cases h

theorem not_failedFor_some {x : Unit} : ¬ FailedFor inv (.ok (some x)) w := by
  rintro ⟨inv', actor, reason, h, -⟩
  cases h

/-- The missing-data branch: it fails the invoice where FAILED can be
reached, and elsewhere `advance` raises. -/
theorem wp_missing {reason : String} (hat : At inv.id inv w w) (hP : inv.status.canTransition .failed = true ↔ P) :
    Txn.wp Eq (fun _ _ => True) (fun w _ e => FailedFor inv (.error e) w ↔ P)
      (fun w u (r : Option α) => FailedFor inv (.ok (r.map fun _ => ())) (w.commit (u w.now)) ↔ P) (do
        let invoice ← setFailureReason inv (some reason)
        let _ ← advance invoice .failed "system" (some reason)
        return none) w id := by
  refine Tx.wp_bind (wp_setFailureReason inv (Pends.nothing _ inv) rfl rfl fun u₁ mem hu₁ hid hmem => ?_)
  cases hcan : inv.status.canTransition .failed with
  | true =>
    refine Tx.wp_bind (wp_advance mem hu₁ hid (by rw [hmem]; exact hcan) fun u₂ hu₂ => ?_)
    rw [hmem] at hu₂
    exact iff_of_true ⟨_, _, _, rfl, hat.committed hu₂, rfl, rfl, rfl⟩ (hP.mp hcan)
  | false =>
    refine Tx.wp_bind (wp_advance_illegal (by rw [hmem]; exact hcan) (iff_of_false not_failedFor_error fun h => ?_))
    rw [hP.mpr h] at hcan
    cases hcan

/-- `run_approval` alone on a validated invoice never fails it: a missing
validation or extraction makes it raise, and with both it decides, whether or
not the extraction has a result. -/
theorem runApproval_missing (hrow : w.now.invoice inv.id = some inv) (hs : inv.status = .validated)
    (hP : inv.status.canTransition .failed = true ↔ P) :
    Txn.wp Eq (fun _ _ => True) (fun w _ e => FailedFor inv (.error e) w ↔ P)
      (fun w u r => FailedFor inv (.ok (r.map fun _ => ())) (w.commit (u w.now)) ↔ P) (runApproval inv.id) w id := by
  have hat := At.alone hrow
  have hnotP : ¬ P := fun h => by
    have hcan := hP.mpr h
    rw [hs] at hcan
    cases hcan
  refine Tx.wp_bind (Tx.wp_getInvoice_alone hrow ?_)
  simp only [hs, ne_eq, not_true_eq_false, if_false]
  refine Tx.wp_bind (Tx.wp_map (Tx.wp_children_alone hat (Pends.nothing _ inv) ?_))
  refine Tx.wp_bind (Tx.wp_map (Tx.wp_children_alone hat (Pends.nothing _ inv) ?_))
  refine Tx.wp_bind (Tx.wp_map (Tx.wp_children_alone hat (Pends.nothing _ inv) ?_))
  cases hv : latestValidation inv.validations with
  | none => exact wp_missing hat hP
  | some v =>
    cases he : latestSuccessfulExtraction inv.extractions with
    | none => exact wp_missing hat hP
    | some e =>
      dsimp only
      generalize hd : decideApproval v.passed (vendorIdentified (latestMatch inv.invoiceMatches))
        (hasPo (latestMatch inv.invoiceMatches)) (e.fieldConfidence.getD .empty) = d
      have hlegal : inv.status.canTransition d.outcome = true := by
        rcases hd ▸ decideApproval_outcome .. with h | h <;> rw [hs, h] <;> rfl
      exact Tx.wp_bind (wp_advance inv (Pends.nothing _ inv) rfl hlegal fun u₁ hu₁ =>
        iff_of_false not_failedFor_some hnotP)

/-- A service alone on an invoice of its entry status whose data is missing. -/
theorem service_missing {env : Env} {provider : Llm} {key : Uuid} {now : String} {t : TaskName}
    (hrow : w.now.invoice inv.id = some inv) (ht : TaskName.of inv.status = some t) (hext : t ≠ .extractInvoice)
    (hm : Missing inv) (hP : inv.status.canTransition .failed = true ↔ P) :
    Txn.wp Eq (fun _ _ => True) (fun w _ e => FailedFor inv (.error e) w ↔ P)
      (fun w u r => FailedFor inv (.ok r) (w.commit (u w.now)) ↔ P)
      (t.service env provider key now inv.id) w id := by
  have hat := At.alone hrow
  have hentry := TaskName.entry_iff.mpr ht
  have hresult : inv.status ≠ .validated → (latestSuccessfulExtraction inv.extractions).bind (·.resultJson) = none :=
    fun hs => hm.resolve_right fun h => hs h.1
  cases t with
  | extractInvoice => exact absurd rfl hext
  | matchInvoice =>
    have hs : inv.status = .extracted := eq_of_beq hentry
    refine Tx.wp_map (Tx.wp_bind (Tx.wp_getInvoice_alone hrow ?_))
    simp only [hs, ne_eq, not_true_eq_false, if_false]
    refine Tx.wp_bind (Tx.wp_children_alone hat (Pends.nothing _ inv) ?_)
    rw [hresult (by rw [hs]; decide)]
    exact wp_missing hat hP
  | validateInvoice =>
    have hs : inv.status = .validating := eq_of_beq hentry
    refine Tx.wp_map (Tx.wp_bind (Tx.wp_getInvoice_alone hrow ?_))
    simp only [hs, ne_eq, not_true_eq_false, if_false]
    refine Tx.wp_bind (Tx.wp_children_alone hat (Pends.nothing _ inv) ?_)
    rw [hresult (by rw [hs]; decide)]
    exact wp_missing hat hP
  | approveInvoice => exact Tx.wp_map (runApproval_missing hrow (eq_of_beq hentry) hP)
  | exportInvoice =>
    have hs : exportable inv.status = true := hentry
    refine Tx.wp_map (Tx.wp_bind (Tx.wp_getInvoice_alone hrow ?_))
    simp only [hs, Bool.not_true, Bool.false_eq_true, if_false]
    refine Tx.wp_bind (Tx.wp_children_alone hat (Pends.nothing _ inv) ?_)
    rw [hresult fun h => by rw [h] at hs; cases hs]
    exact wp_missing hat hP

/-- **A stage whose data is missing**, in any database: it returns None and
fails the invoice exactly from EXTRACTED and VALIDATING. The transitions to
FAILED that approval and export attempt are not in the table, so they raise
and are rolled back; and approval does not look at the result. -/
theorem failedFor_iff {env : Env} {provider : Llm} {key : Uuid} {now : String} {t : TaskName}
    (hrow : w.now.invoice inv.id = some inv) (ht : TaskName.of inv.status = some t) (hext : t ≠ .extractInvoice)
    (hm : Missing inv) :
    FailedFor inv (served (t.service env provider key now inv.id) w).1
        (served (t.service env provider key now inv.id) w).2 ↔
      inv.status = .extracted ∨ inv.status = .validating :=
  served_of_wp (Q := fun r w => FailedFor inv r w ↔ inv.status = .extracted ∨ inv.status = .validating)
    (service_missing hrow ht hext hm (canTransition_failed ht hext))

end missing

namespace Sample

/-- One invoice that has nothing but a status. -/
def bare (status : InvoiceStatus) : World where
  now := ⟨.empty, .empty, ⟨[⟨uuid 5, status, .upload, "invoice.pdf", "application/pdf", 0, "", "", none, [], [], [],
    [], []⟩], by simp⟩⟩
  past := []
  ext := ⟨.empty, fun _ => none, []⟩
  sent := []

theorem failedFor_extracted : ∃ inv, (bare .extracted).now.invoice (uuid 5) = some inv ∧
    FailedFor inv (served (TaskName.service env (provider plain) (uuid 15) "" inv.id .matchInvoice) (bare .extracted)).1
      (served (TaskName.service env (provider plain) (uuid 15) "" inv.id .matchInvoice) (bare .extracted)).2 :=
  ⟨_, rfl, (failedFor_iff rfl rfl (by decide) (.inl rfl)).mpr (.inl rfl)⟩

/-- The stage of this status raises, and leaves an invoice without data as
it was. -/
def Stays (status : InvoiceStatus) (t : TaskName) : Prop :=
  TaskName.of status = some t ∧
    (served (t.service env (provider plain) (uuid 15) "" (uuid 5)) (bare status)).1.isOk = false ∧
    statusOf (served (t.service env (provider plain) (uuid 15) "" (uuid 5)) (bare status)).2 5 = some status

theorem stuck : Stays .validated .approveInvoice ∧ Stays .autoApproved .exportInvoice ∧
    Stays .approved .exportInvoice := by
  unfold Stays
  decide +kernel

end Sample

end InvoiceOps
