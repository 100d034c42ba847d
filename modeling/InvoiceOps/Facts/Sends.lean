/-
What an operation sends: at most one message, for the task that follows it
on its invoice, after its commit and as the last thing it does
(`Op.tail`).
-/
import InvoiceOps.Queue
import InvoiceOps.Facts.Chain

namespace InvoiceOps

/-- The next task of the chain. -/
def TaskName.next : TaskName → Option TaskName
  | .extractInvoice => some .matchInvoice
  | .matchInvoice => some .validateInvoice
  | .validateInvoice => some .approveInvoice
  | .approveInvoice => some .exportInvoice
  | .exportInvoice => none

/-- The tasks of the chain from this one on. -/
def TaskName.remaining : TaskName → Nat
  | .extractInvoice => 5
  | .matchInvoice => 4
  | .validateInvoice => 3
  | .approveInvoice => 2
  | .exportInvoice => 1

theorem TaskName.remaining_next {t t' : TaskName} (h : t.next = some t') : t'.remaining + 1 = t.remaining := by
  cases t <;> cases h <;> rfl

/-- The task a call may start. -/
def Call.next : Call → Option TaskName
  | .extract _ => some .matchInvoice
  | .matchVendor => some .validateInvoice
  | .validate => some .approveInvoice
  | .approve => some .exportInvoice
  | .export .. => none
  | .decide .. | .decideForm .. => some .exportInvoice

/-- The task an operation may start, on its invoice. -/
def Op.next : Op → Option TaskName
  | .upload .. | .uploadForm .. => some .extractInvoice
  | .call _ c => c.next

/-! ## The services send nothing -/

section silent
variable {env : Env} {i : Uuid} {α : Type}

theorem silent_updateInvoice (f : Invoice → Invoice) (hf : ∀ r, (f r).id = r.id) :
    Txn.Silent (Tx.updateInvoice i f hf) := trivial

theorem silent_getObject (key : String) : Txn.Silent (Tx.getObject env key) :=
  (Txn.silent_queryExt _).bind fun _ => Txn.silent_ofExcept _

theorem silent_putObject (key : String) (data : Bytes) : Txn.Silent (Tx.putObject env key data) := by
  unfold Tx.putObject
  split
  · exact (Txn.silent_ofExcept _).bind fun _ => (Txn.silent_effect _).bind fun _ => Txn.silent_effect _
  · exact Txn.silent_effect _

theorem silent_advance (inv : Invoice) (t : InvoiceStatus) (actor : String) (reason : Option String) :
    Txn.Silent (advance inv t actor reason) := by
  unfold advance
  split <;> trivial

theorem silent_setFailureReason (inv : Invoice) (reason : Option String) : Txn.Silent (setFailureReason inv reason) := by
  unfold setFailureReason
  split <;> trivial

theorem silent_failExtraction (inv : Invoice) (model : String) (method : TextMethod) (error : String)
    (attempts : Nat) (raw : Option String) : Txn.Silent (failExtraction inv model method error attempts raw) :=
  (silent_updateInvoice _ _).bind fun _ => (silent_setFailureReason _ _).bind fun _ =>
    (silent_advance _ _ _ _).bind fun _ => trivial

/-- The end of a stage that finds nothing to work on. -/
theorem silent_giveUp {β : Type} (inv : Invoice) (reason : Option String) (b : β) :
    Txn.Silent (do let inv ← setFailureReason inv reason
                   let _ ← advance inv .failed "system" reason
                   return b) :=
  (silent_setFailureReason _ _).bind fun _ => (silent_advance _ _ _ _).bind fun _ => trivial

theorem silent_map {β : Type} {p : Tx α} (f : α → β) (h : Txn.Silent p) : Txn.Silent (f <$> p) :=
  h.bind fun _ => trivial

theorem silent_runExtraction (llm : Option Llm) (provider : Llm) : Txn.Silent (runExtraction env llm provider i) := by
  refine (Txn.silent_query _).bind fun o => ?_
  cases o with
  | none => trivial
  | some inv =>
    dsimp only
    split
    · trivial
    · refine (silent_advance _ _ _ _).bind fun inv => (silent_getObject _).bind fun data =>
        (Txn.silent_ofExcept _).bind fun document => ?_
      split
      · exact silent_map _ (silent_failExtraction _ _ _ _ _ _)
      · split
        · exact silent_map _ (silent_failExtraction _ _ _ _ _ _)
        · trivial
        · split
          · exact silent_map _ (silent_failExtraction _ _ _ _ _ _)
          · trivial
          · exact (silent_updateInvoice _ _).bind fun _ => (silent_setFailureReason _ _).bind fun _ =>
              (silent_advance _ _ _ _).bind fun _ => trivial

theorem silent_runMatching : Txn.Silent (runMatching env i) := by
  refine (Txn.silent_query _).bind fun o => ?_
  cases o with
  | none => trivial
  | some inv =>
    dsimp only
    split
    · trivial
    · refine (Txn.silent_query _).bind fun extractions => ?_
      split
      · exact silent_giveUp _ _ _
      · exact (silent_advance _ _ _ _).bind fun _ => (Txn.silent_query _).bind fun _ => (Txn.silent_query _).bind fun _ =>
          (silent_updateInvoice _ _).bind fun _ => (silent_advance _ _ _ _).bind fun _ => trivial

theorem silent_matchedPo (row : Option InvoiceMatch) : Txn.Silent (matchedPo row) := by
  unfold matchedPo
  split
  · trivial
  · exact Txn.silent_query _

/-- By induction on the invoices still to be looked at. -/
theorem silent_collectCandidates (normalized : String) :
    ∀ ids, Txn.Silent (collectCandidates env normalized ids)
  | [] => trivial
  | j :: rest => by
    have ih := silent_collectCandidates normalized rest
    refine (Txn.silent_query _).bind fun o => ?_
    cases o with
    | none => exact ih
    | some other =>
      dsimp only
      split
      · exact ih
      · refine (Txn.silent_query _).bind fun extractions => ?_
        split
        · exact ih
        · exact ih.bind fun _ => trivial

theorem silent_duplicateCandidates (inv : Invoice) (row : Option InvoiceMatch) (extracted : ExtractedInvoice) :
    Txn.Silent (duplicateCandidates env inv row extracted) := by
  unfold duplicateCandidates
  split
  · trivial
  · split
    · exact (Txn.silent_query _).bind fun _ => silent_collectCandidates _ _
    · trivial

theorem silent_runValidation : Txn.Silent (runValidation env i) := by
  refine (Txn.silent_query _).bind fun o => ?_
  cases o with
  | none => trivial
  | some inv =>
    dsimp only
    split
    · trivial
    · refine (Txn.silent_query _).bind fun extractions => ?_
      split
      · exact silent_giveUp _ _ _
      · exact (Txn.silent_query _).bind fun _ => (silent_matchedPo _).bind fun _ =>
          (silent_duplicateCandidates _ _ _).bind fun _ => (Txn.silent_ofExcept _).bind fun _ =>
          (silent_updateInvoice _ _).bind fun _ => (silent_advance _ _ _ _).bind fun _ => trivial

theorem silent_runApproval : Txn.Silent (runApproval i) := by
  refine (Txn.silent_query _).bind fun o => ?_
  cases o with
  | none => trivial
  | some inv =>
    dsimp only
    split
    · trivial
    · refine (silent_map _ (Txn.silent_query _)).bind fun _ => (silent_map _ (Txn.silent_query _)).bind fun _ =>
        (silent_map _ (Txn.silent_query _)).bind fun _ => ?_
      split
      · exact (silent_advance _ _ _ _).bind fun _ => trivial
      · exact silent_giveUp _ _ _

theorem silent_related (id : Option Uuid) (get : DB → Uuid → Option α) : Txn.Silent (related id get) := by
  unfold related
  split
  · trivial
  · exact Txn.silent_query _

theorem silent_runExport (key : Uuid) (now : String) : Txn.Silent (runExport env key now i) := by
  refine (Txn.silent_query _).bind fun o => ?_
  cases o with
  | none => trivial
  | some inv =>
    dsimp only
    split
    · trivial
    · refine (Txn.silent_query _).bind fun extractions => ?_
      split
      · exact silent_giveUp _ _ _
      · exact (silent_advance _ _ _ _).bind fun _ => (silent_map _ (Txn.silent_query _)).bind fun _ =>
          (silent_map _ (Txn.silent_query _)).bind fun _ => (silent_related _ _).bind fun _ =>
          (silent_related _ _).bind fun _ => (silent_putObject _ _).bind fun _ =>
          (silent_updateInvoice _ _).bind fun _ => (silent_advance _ _ _ _).bind fun _ => trivial

theorem silent_recordHumanDecision (isApproval : Bool) (actor : String) (reason : Option String) :
    Txn.Silent (recordHumanDecision i isApproval actor reason) := by
  refine (Txn.silent_query _).bind fun o => ?_
  cases o with
  | none => trivial
  | some inv => exact silent_advance _ _ _ _

end silent

/-! ## The message comes last -/

section tail
variable {env : Env} {i : Uuid} {S : Message → Prop} {α : Type}

/-- A session scope adds a commit to what its body does, or a rollback. -/
theorem Tx.tail_sessionScope {body : Tx α} (h : Txn.Tail S true body) : Txn.Tail S true (Tx.sessionScope body) := by
  refine Txn.Tail.tryCatch (fun e => ?_) (Txn.Tail.bind (fun a => ?_) h)
  · trivial
  · trivial

/-- A task: a session scope that sends nothing, then perhaps a message. By
induction on the body, whose end is the scope's commit. -/
theorem Tx.tail_task {body : Tx α} {k : α → Tx Unit} (hk : ∀ a, Txn.Tail S true (k a)) (h : Txn.Silent body) :
    Txn.Tail S true (Tx.sessionScope body >>= k) := by
  have hbody : ∀ (b : Bool) (p : Tx α), Txn.Silent p → Txn.Tail S b (Tx.sessionScope p >>= k) := by
    intro b p
    induction p generalizing b with
    | ret a => exact fun _ => hk a
    | raise e => exact fun _ => trivial
    | read q ih => exact fun h s t => ih s t b (h s t)
    | write g q ih => exact fun h => ih false h
    | emit g q ih => exact fun h r => ih r b (h r)
    | commit q ih => exact fun h => ih true h
    | rollback q ih => exact fun h => ih true h
    | send m q ih => exact fun h => h.elim
  exact hbody true body h

variable {t : TaskName}

/-- The messages of one task. -/
def TaskName.Is (t : Option TaskName) (m : Message) : Prop := t = some m.task

theorem tail_delay : Txn.Tail (TaskName.Is (some t)) true (delay t i) := ⟨rfl, rfl, trivial⟩

theorem tail_decideService (isApproval : Bool) (actor : String) (reason : Option String) :
    Txn.Tail (TaskName.Is (some .exportInvoice)) true (decideService i isApproval actor reason) := by
  cases isApproval with
  | false => exact (silent_recordHumanDecision _ _ _).tail
  | true =>
    refine Txn.Silent.tail_bind (fun inv => ?_) (silent_recordHumanDecision true actor reason)
    exact ⟨rfl, rfl, trivial⟩

/-- **`ingest_upload`**: the insert may fail, and what follows a failed insert
sends nothing. -/
theorem tail_ingestUpload (data : Bytes) (filename contentType : String) :
    Txn.Tail (TaskName.Is (some .extractInvoice)) true (ingestUpload env i data filename contentType) := by
  refine (Txn.silent_query _).tail_bind fun found => ?_
  cases found with
  | some existing => trivial
  | none =>
    refine (silent_putObject _ _).tail_bind fun _ => ?_
    have hinsert : ∀ h : Exn → Tx (Option Unit), (∀ e, Txn.Silent (h e)) →
        Txn.Silent (Txn.tryCatch (some <$> flushInsert (newInvoice i data filename contentType)) h) := by
      refine fun h hh => Txn.Silent.tryCatch hh (silent_map _ ((Txn.silent_query _).bind fun ok => ?_))
      split <;> trivial
    refine (hinsert _ fun e => ?_).tail_bind fun inserted => ?_
    · cases e <;> trivial
    · cases inserted with
      | some u => exact ⟨rfl, rfl, trivial⟩
      | none =>
        intro d _
        change Txn.Tail _ true (Txn.bind (.ret (findByDigest (sha256Hex data) d)) _)
        cases findByDigest (sha256Hex data) d <;> trivial

theorem tail_upload (data : Bytes) (filename contentType : Option String) :
    Txn.Tail (TaskName.Is (some .extractInvoice)) true (uploadInvoice env i data filename contentType) := by
  refine Tx.tail_sessionScope ?_
  dsimp only
  split
  · trivial
  · trivial
  · refine Txn.Tail.bind (fun r => ?_) (tail_ingestUpload data _ _)
    trivial

theorem tail_uploadForm (data : Bytes) (filename contentType : Option String) :
    Txn.Tail (TaskName.Is (some .extractInvoice)) true (uiUpload env i data filename contentType) := by
  refine Tx.tail_sessionScope ?_
  dsimp only
  split
  · trivial
  · trivial
  · refine Txn.Tail.bind (fun r => ?_) (tail_ingestUpload data _ _)
    trivial

/-- **Every operation** sends at most one message, of the task that follows
it, as the last thing it does. -/
theorem Op.tail (env : Env) (op : Op) : Txn.Tail (TaskName.Is op.next) true (op.prog env) := by
  cases op with
  | upload => exact tail_upload _ _ _
  | uploadForm => exact tail_uploadForm _ _ _
  | call i c =>
    cases c with
    | extract provider =>
      refine Tx.tail_task (fun o => ?_) (silent_map _ (silent_runExtraction _ _))
      rcases o with _ | _ | _ <;> first | exact tail_delay | trivial
    | matchVendor =>
      refine Tx.tail_task (fun o => ?_) (silent_map _ silent_runMatching)
      cases o <;> first | exact tail_delay | trivial
    | validate =>
      refine Tx.tail_task (fun o => ?_) (silent_map _ silent_runValidation)
      cases o <;> first | exact tail_delay | trivial
    | approve =>
      refine Tx.tail_task (fun o => ?_) (silent_map _ silent_runApproval)
      rcases o with _ | s
      · trivial
      · cases s <;> first | exact tail_delay | trivial
    | «export» key now => exact Tx.tail_task (fun o => trivial) (silent_map _ (silent_runExport _ _))
    | decide isApproval actor reason =>
      refine Tx.tail_sessionScope (Txn.Tail.bind (fun inv => ?_)
        (Txn.Tail.tryCatch (fun e => ?_) (tail_decideService _ _ _)))
      · trivial
      · cases e <;> trivial
    | decideForm isApproval actor reason =>
      refine Tx.tail_sessionScope (Txn.Tail.tryCatch (fun e => ?_)
        (Txn.Tail.bind (fun inv => ?_) (tail_decideService _ _ _)))
      · cases e <;> trivial
      · trivial

/-- **One run, one message** at most. -/
theorem Op.sent_run (env : Env) (op : Op) (w : World) :
    ((op.prog env).run w id).2.1.sent = w.sent ∨
      ∃ m, op.next = some m.task ∧ ((op.prog env).run w id).2.1.sent = w.sent ++ [m] := by
  have hserved := (op.tail env).runInline Txn.leave (w := w) fun _ => rfl
  cases hserved with
  | silent hs => exact .inl hs
  | sent m _ hm hs => exact .inr ⟨m, hm, hs⟩

theorem Call.next_of_task {c : Call} {t : TaskName} (h : c.task = some t) : c.next = t.next := by
  cases c <;> cases h <;> rfl

end tail

end InvoiceOps
