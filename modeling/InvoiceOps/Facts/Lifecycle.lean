/-
What the status of an invoice says about its history, in every serial run:
which child rows it has (`History`), and that its audit rows are a path
through the transition table from RECEIVED to its status (`Trail`).
-/
import InvoiceOps.Facts.Serial

namespace InvoiceOps

/-! ## Child rows -/

/-- What is kept of every invoice: the claim of `History`, with the contents
of the extraction the later stages read. -/
structure RowOk (inv : Invoice) : Prop where
  settled : inv.status ≠ .extracting ∧ inv.status ≠ .matching ∧ inv.status ≠ .exporting
  received : inv.status = .received → inv.extractions = [] ∧ inv.failureReason = none
  failed : inv.status = .failed → ∃ e, inv.extractions = [e] ∧ e.ok = false ∧ inv.failureReason ≠ none
  succeeded : inv.status ≠ .received → inv.status ≠ .failed → ∃ e r, inv.extractions = [e] ∧ e.ok = true ∧
    e.resultJson = some r ∧ e.fieldConfidence = some r.fieldConfidence ∧ inv.failureReason = none
  matched : inv.invoiceMatches.length = if InvoiceStatus.atOrPast .validating inv.status then 1 else 0
  validated : inv.validations.length = if InvoiceStatus.atOrPast .validated inv.status then 1 else 0
  exported : inv.exports.length = if inv.status = .exported then 1 else 0

theorem latestSuccessfulExtraction_singleton {e : Extraction} (h : e.ok = true) :
    latestSuccessfulExtraction [e] = some e := by simp [latestSuccessfulExtraction, h]

/-- After extraction, every stage reads the one extraction there is. -/
theorem RowOk.extraction {inv : Invoice} (h : RowOk inv) (hr : inv.status ≠ .received) (hf : inv.status ≠ .failed) :
    ∃ e r, inv.extractions = [e] ∧ latestSuccessfulExtraction inv.extractions = some e ∧ inv.result = some r ∧
      e.ok = true ∧ e.resultJson = some r ∧ e.fieldConfidence = some r.fieldConfidence := by
  obtain ⟨e, r, he, hok, hres, hconf, -⟩ := h.succeeded hr hf
  have hl : latestSuccessfulExtraction inv.extractions = some e := by
    rw [he, latestSuccessfulExtraction_singleton hok]
  exact ⟨e, r, he, hl, by rw [Invoice.result, hl]; exact hres, hok, hres, hconf⟩

/-- A received invoice that nothing has worked on. -/
structure Untouched (inv : Invoice) : Prop where
  status : inv.status = .received
  failureReason : inv.failureReason = none
  extractions : inv.extractions = []
  invoiceMatches : inv.invoiceMatches = []
  validations : inv.validations = []
  auditLog : inv.auditLog = []
  exports : inv.exports = []

instance (inv : Invoice) : Decidable (Untouched inv) :=
  decidable_of_iff (inv.status = .received ∧ inv.failureReason = none ∧ inv.extractions = [] ∧
      inv.invoiceMatches = [] ∧ inv.validations = [] ∧ inv.auditLog = [] ∧ inv.exports = [])
    ⟨fun ⟨h₁, h₂, h₃, h₄, h₅, h₆, h₇⟩ => ⟨h₁, h₂, h₃, h₄, h₅, h₆, h₇⟩,
      fun ⟨h₁, h₂, h₃, h₄, h₅, h₆, h₇⟩ => ⟨h₁, h₂, h₃, h₄, h₅, h₆, h₇⟩⟩

theorem untouched_newInvoice (i : Uuid) (data : Bytes) (filename contentType : String) :
    Untouched (newInvoice i data filename contentType) := ⟨rfl, rfl, rfl, rfl, rfl, rfl, rfl⟩

theorem RowOk.new {inv : Invoice} (h : Untouched inv) : RowOk inv where
  settled := by simp [h.status]
  received _ := ⟨h.extractions, h.failureReason⟩
  failed hs := by rw [h.status] at hs; cases hs
  succeeded hs := absurd h.status hs
  matched := by rw [h.invoiceMatches, h.status]; rfl
  validated := by rw [h.validations, h.status]; rfl
  exported := by rw [h.exports, h.status]; rfl

/-- **A move keeps the rows in step with the status.** -/
theorem RowOk.move {env : Env} {R : World → World → Prop} {c : Call} {a₀ : List Write} {w : World}
    {inv inv' : Invoice} (h : RowOk inv) (hm : Move env R c a₀ w inv inv') : RowOk inv' := by
  have hmatched := h.matched
  have hvalidated := h.validated
  have hexported := h.exported
  cases hm with
  | extracted e r reason hs hok hr hc =>
    rw [hs] at hmatched hvalidated hexported
    refine ⟨by simp, by simp, by simp, fun _ _ => ?_, hmatched, hvalidated, hexported⟩
    exact ⟨e, r, by simp [(h.received hs).1], hok, hr, hc, rfl⟩
  | extractionFailed e error hs hok hr he =>
    rw [hs] at hmatched hvalidated hexported
    refine ⟨by simp, by simp, fun _ => ?_, by simp, hmatched, hvalidated, hexported⟩
    exact ⟨e, by simp [(h.received hs).1], hok, by simp⟩
  | noExtraction reason hs hr =>
    obtain ⟨e, r, -, -, hres, -⟩ := h.extraction
      (by rcases hs with hs | hs <;> rw [hs] <;> decide) (by rcases hs with hs | hs <;> rw [hs] <;> decide)
    rw [hr] at hres
    cases hres
  | matched r reason hs hr =>
    rw [hs] at hmatched hvalidated hexported
    obtain ⟨e, r, hsucc⟩ := h.succeeded (by rw [hs]; decide) (by rw [hs]; decide)
    refine ⟨by simp, by simp, by simp, fun _ _ => ⟨e, r, hsucc⟩, ?_, hvalidated, hexported⟩
    simp [List.length_append, hmatched, InvoiceStatus.atOrPast, InvoiceStatus.rank]
  | validated r cs results reason hs hr hc hrules =>
    rw [hs] at hmatched hvalidated hexported
    obtain ⟨e, r, hsucc⟩ := h.succeeded (by rw [hs]; decide) (by rw [hs]; decide)
    refine ⟨by simp, by simp, by simp, fun _ _ => ⟨e, r, hsucc⟩, hmatched, ?_, hexported⟩
    simp [List.length_append, hvalidated, InvoiceStatus.atOrPast, InvoiceStatus.rank]
  | decided v e d hs hv he hd =>
    rw [hs] at hmatched hvalidated hexported
    obtain ⟨e, r, hsucc⟩ := h.succeeded (by rw [hs]; decide) (by rw [hs]; decide)
    have hout : d.outcome = .autoApproved ∨ d.outcome = .needsReview := by rw [hd]; exact decideApproval_outcome ..
    rcases hout with ho | ho <;> rw [ho] <;>
      exact ⟨by simp, by simp, by simp, fun _ _ => ⟨e, r, hsucc⟩, hmatched, hvalidated, hexported⟩
  | reviewed isApproval actor reason hs =>
    rw [hs] at hmatched hvalidated hexported
    obtain ⟨e, r, hsucc⟩ := h.succeeded (by rw [hs]; decide) (by rw [hs]; decide)
    cases isApproval <;>
      exact ⟨by simp, by simp, by simp, fun _ _ => ⟨e, r, hsucc⟩, hmatched, hvalidated, hexported⟩
  | exported key now r e p w₀ hc hs hr hkey hart ha hcont hw₀ =>
    have hs' : inv.status = .autoApproved ∨ inv.status = .approved := by simpa [exportable] using hs
    obtain ⟨e', r', hsucc⟩ := h.succeeded (by rcases hs' with hs | hs <;> rw [hs] <;> decide)
      (by rcases hs' with hs | hs <;> rw [hs] <;> decide)
    refine ⟨by simp, by simp, by simp, fun _ _ => ⟨e', r', hsucc⟩, ?_, ?_, ?_⟩
    · rcases hs' with hs | hs <;> rw [hs] at hmatched <;> exact hmatched
    · rcases hs' with hs | hs <;> rw [hs] at hvalidated <;> exact hvalidated
    · rcases hs' with hs | hs <;> rw [hs] at hexported <;> simp [List.length_append, hexported]

theorem Reachable.rowOk {env : Env} {w : World} (h : Reachable env w) : Rows (fun _ => RowOk) w :=
  h.rows (fun _ h => h) (fun _ _ _ _ _ => .new (untouched_newInvoice ..)) fun _ h hm => h.move hm

/-- A stage whose turn it is finds what it looks for. -/
theorem RowOk.not_lacks {inv : Invoice} (h : RowOk inv) : ¬ Lacks inv := by
  intro hl
  have hread : inv.status ≠ .received → inv.status ≠ .failed → inv.result ≠ none ∧
      latestSuccessfulExtraction inv.extractions ≠ none := by
    intro hr hf
    obtain ⟨e, r, -, hl, hres, -⟩ := h.extraction hr hf
    simp [hl, hres]
  unfold Lacks at hl
  cases hs : inv.status <;> rw [hs] at hl hread <;> try exact hl.elim
  case validated =>
    rcases hl with hl | hl
    · have hlen := h.validated
      rw [hs, List.getLast?_eq_none_iff.mp hl] at hlen
      cases hlen
    · exact (hread (by decide) (by decide)).2 hl
  all_goals exact (hread (by decide) (by decide)).1 hl

/-- What the status of an invoice says of its rows. -/
structure History (inv : Invoice) : Prop where
  settled : inv.status ≠ .extracting ∧ inv.status ≠ .matching ∧ inv.status ≠ .exporting
  received : inv.status = .received ↔ inv.extractions = []
  failed : inv.status = .failed ↔ ∃ e, inv.extractions = [e] ∧ e.ok = false
  failedRows : inv.status = .failed →
    inv.failureReason ≠ none ∧ inv.invoiceMatches = [] ∧ inv.validations = [] ∧ inv.exports = []
  succeeded : inv.status ≠ .received → inv.status ≠ .failed →
    ∃ e, inv.extractions = [e] ∧ e.ok = true ∧ e.resultJson ≠ none
  unfailed : inv.status ≠ .failed → inv.failureReason = none
  matched : inv.invoiceMatches.length = if InvoiceStatus.atOrPast .validating inv.status then 1 else 0
  validated : inv.validations.length = if InvoiceStatus.atOrPast .validated inv.status then 1 else 0
  exported : inv.exports.length = if inv.status = .exported then 1 else 0

/-- Only an exported invoice has an export. -/
theorem RowOk.exports_eq_nil {inv : Invoice} (h : RowOk inv) (hs : inv.status ≠ .exported) : inv.exports = [] := by
  have hlen := h.exported
  rw [if_neg hs] at hlen
  exact List.length_eq_zero_iff.mp hlen

theorem RowOk.status_eq {inv : Invoice} (h : RowOk inv) {e : Export} (he : e ∈ inv.exports) :
    inv.status = .exported := by
  by_contra hs
  rw [h.exports_eq_nil hs] at he
  cases he

theorem RowOk.history {inv : Invoice} (h : RowOk inv) : History inv where
  settled := h.settled
  received := by
    refine ⟨fun hs => (h.received hs).1, fun he => ?_⟩
    by_contra hr
    by_cases hf : inv.status = .failed
    · obtain ⟨e, hex, -⟩ := h.failed hf
      rw [he] at hex
      cases hex
    · obtain ⟨e, r, hex, -⟩ := h.succeeded hr hf
      rw [he] at hex
      cases hex
  failed := by
    refine ⟨fun hs => let ⟨e, he, hok, _⟩ := h.failed hs; ⟨e, he, hok⟩, fun ⟨e, he, hok⟩ => ?_⟩
    by_contra hf
    have hr : inv.status ≠ .received := fun hr => by
      rw [(h.received hr).1] at he
      cases he
    obtain ⟨e', r, he', hok', -⟩ := h.succeeded hr hf
    rw [he] at he'
    cases he'
    rw [hok] at hok'
    cases hok'
  failedRows hs := by
    obtain ⟨e, -, -, hreason⟩ := h.failed hs
    have hmatched := h.matched
    have hvalidated := h.validated
    have hexported := h.exported
    rw [hs] at hmatched hvalidated hexported
    exact ⟨hreason, List.length_eq_zero_iff.mp hmatched, List.length_eq_zero_iff.mp hvalidated,
      List.length_eq_zero_iff.mp hexported⟩
  succeeded hr hf := by
    obtain ⟨e, r, he, hok, hres, -⟩ := h.succeeded hr hf
    exact ⟨e, he, hok, by simp [hres]⟩
  unfailed hf := by
    by_cases hr : inv.status = .received
    · exact (h.received hr).2
    · obtain ⟨e, r, -, -, -, -, hreason⟩ := h.succeeded hr hf
      exact hreason
  matched := h.matched
  validated := h.validated
  exported := h.exported

/-- **The status determines the rows**, in every world of a serial run: so
no stage finds its data missing, and no call raises an illegal transition. -/
theorem history_of_reachable {env : Env} {w : World} (h : Reachable env w) :
    Rows (fun _ inv => History inv ∧ ¬ Lacks inv) w ∧
      ∀ (c : Call) (i : Uuid) (e : Exn), ((c.prog env i).run w id).1 = .error e → e.isIllegalTransition = false := by
  have hok := h.rowOk
  refine ⟨fun i inv hi => ⟨(hok i inv hi).history, (hok i inv hi).not_lacks⟩, fun c i e he => ?_⟩
  have hrun := (Txn.wp_run (fun _ => rfl) ((Op.call i c).wp env w)).2
  rw [Op.prog, he] at hrun
  obtain ⟨-, hraised⟩ := hrun
  cases hill : e.isIllegalTransition with
  | false => rfl
  | true =>
    obtain ⟨inv, hi, hlacks⟩ := hraised.lacks hill
    exact absurd hlacks (hok i inv hi).not_lacks

theorem history_of_sample :
    let w := Sample.after (Sample.decided 5 "first" Sample.plain)
    Sample.statusOf w 5 = some .autoApproved ∧ Rows (fun _ inv => History inv ∧ ¬ Lacks inv) w ∧
      ∀ (c : Call) (i : Uuid) (e : Exn), ((c.prog Sample.env i).run w id).1 = .error e →
        e.isIllegalTransition = false :=
  ⟨Sample.statusOf_decided, history_of_reachable (Sample.reachable_after _)⟩

/-! ## Audit rows -/

/-- Audit rows that lead from one status to another, by legal moves. -/
inductive Trail : InvoiceStatus → List AuditLog → InvoiceStatus → Prop
  | nil {s} : Trail s [] s
  | cons {e es t} : e.fromStatus.canTransition e.toStatus = true → Trail e.toStatus es t →
      Trail e.fromStatus (e :: es) t

theorem Trail.new {inv : Invoice} (h : Untouched inv) : Trail .received inv.auditLog inv.status := by
  rw [h.auditLog, h.status]
  exact .nil

theorem Trail.snoc {s t t' : InvoiceStatus} {es : List AuditLog} {actor : String} {reason : Option String}
    (h : Trail s es t) (hcan : t.canTransition t' = true) : Trail s (es ++ [⟨t, t', actor, reason⟩]) t' := by
  induction h with
  | @nil s => exact @Trail.cons ⟨s, t', actor, reason⟩ [] t' hcan .nil
  | cons he _ ih => exact .cons he (ih hcan)

theorem Trail.append {s t u : InvoiceStatus} {es es' : List AuditLog} (h : Trail s es t) (h' : Trail t es' u) :
    Trail s (es ++ es') u := by
  induction h with
  | nil => exact h'
  | cons he _ ih => exact .cons he (ih h')

/-- A trail climbs. -/
theorem Trail.rank_lt {s t : InvoiceStatus} {es : List AuditLog} (h : Trail s es t) :
    ∀ e ∈ es, s.rank < e.toStatus.rank := by
  induction h with
  | nil => exact fun e he => by cases he
  | cons he _ ih =>
    have hlt := InvoiceStatus.rank_lt_of_canTransition he
    intro e' he'
    cases he' with
    | head => exact hlt
    | tail _ he' => exact hlt.trans (ih e' he')

/-- Each row climbs above those before it. -/
theorem Trail.pairwise {s t : InvoiceStatus} {es : List AuditLog} (h : Trail s es t) :
    es.Pairwise fun e e' => e.toStatus.rank < e'.toStatus.rank := by
  induction h with
  | nil => exact .nil
  | cons _ htail ih => exact .cons htail.rank_lt ih

/-- No status is met twice. -/
theorem Trail.nodup {s t : InvoiceStatus} {es : List AuditLog} (h : Trail s es t) :
    (s :: es.map (·.toStatus)).Nodup := by
  induction h with
  | nil => simp
  | @cons e es t he htail ih =>
    refine List.nodup_cons.mpr ⟨fun hmem => ?_, ih⟩
    obtain ⟨e', he', heq⟩ := List.mem_map.mp hmem
    have hlt := (Trail.cons he htail).rank_lt e' he'
    rw [heq] at hlt
    exact lt_irrefl _ hlt

/-- A trail ends with a move to its end. -/
theorem Trail.exists_last {s t : InvoiceStatus} {es : List AuditLog} (h : Trail s es t) (hts : t ≠ s) :
    ∃ e ∈ es, e.toStatus = t := by
  induction h with
  | nil => exact absurd rfl hts
  | @cons e es t he htail ih =>
    by_cases ht : t = e.toStatus
    · exact ⟨e, List.mem_cons_self, ht.symm⟩
    · obtain ⟨e', he', heq⟩ := ih ht
      exact ⟨e', List.mem_cons_of_mem _ he', heq⟩

theorem Trail.rank_le {s t : InvoiceStatus} {es : List AuditLog} (h : Trail s es t) : s.rank ≤ t.rank := by
  induction h with
  | nil => exact le_rfl
  | cons he _ ih => exact (InvoiceStatus.rank_lt_of_canTransition he).le.trans ih

theorem Trail.eq_nil_iff {s t : InvoiceStatus} {es : List AuditLog} (h : Trail s es t) : es = [] ↔ t = s := by
  refine ⟨fun he => by subst he; cases h; rfl, fun hts => ?_⟩
  subst hts
  cases h with
  | nil => rfl
  | cons he htail => exact absurd (InvoiceStatus.rank_lt_of_canTransition he) (not_lt.mpr htail.rank_le)

section audit
variable {env : Env} {R : World → World → Prop} {c : Call} {a₀ : List Write} {w w' : World} {inv inv' : Invoice}

/-- **A move adds legal rows.** -/
theorem Move.trail (hm : Move env R c a₀ w inv inv') :
    ∃ es, inv'.auditLog = inv.auditLog ++ es ∧ Trail inv.status es inv'.status := by
  cases hm with
  | extracted e r reason hs | extractionFailed e error hs | matched r reason hs =>
    rw [hs]
    exact ⟨_, List.append_assoc .., (Trail.nil.snoc rfl).snoc rfl⟩
  | noExtraction reason hs =>
    refine ⟨_, rfl, Trail.nil.snoc ?_⟩
    rcases hs with hs | hs <;> rw [hs] <;> rfl
  | validated r cs results reason hs =>
    rw [hs]
    exact ⟨_, rfl, Trail.nil.snoc rfl⟩
  | decided v e d hs hv he hd =>
    rw [hs]
    refine ⟨_, rfl, Trail.nil.snoc ?_⟩
    rw [hd]
    rcases decideApproval_outcome v.passed (vendorIdentified (latestMatch inv.invoiceMatches))
      (hasPo (latestMatch inv.invoiceMatches)) (e.fieldConfidence.getD .empty) with ho | ho <;> rw [ho] <;> rfl
  | reviewed isApproval actor reason hs =>
    rw [hs]
    exact ⟨_, rfl, Trail.nil.snoc (by cases isApproval <;> rfl)⟩
  | exported key now r e p w₀ hc hs =>
    have hs' : inv.status = .autoApproved ∨ inv.status = .approved := by simpa [exportable] using hs
    refine ⟨_, List.append_assoc .., (Trail.nil.snoc ?_).snoc rfl⟩
    rcases hs' with hs | hs <;> rw [hs] <;> rfl

theorem Trail.move (h : Trail .received inv.auditLog inv.status) (hm : Move env R c a₀ w inv inv') :
    Trail .received inv'.auditLog inv'.status := by
  obtain ⟨es, he, hes⟩ := hm.trail
  rw [he]
  exact h.append hes

/-- Audit rows are only ever added. -/
theorem Move.auditLog_prefix (hm : Move env R c a₀ w inv inv') : inv.auditLog <+: inv'.auditLog := by
  obtain ⟨es, he, -⟩ := hm.trail
  exact ⟨es, he.symm⟩

end audit

section audit
variable {env : Env} {w w' : World}

theorem Reachable.trail (h : Reachable env w) : Rows (fun _ inv => Trail .received inv.auditLog inv.status) w :=
  h.rows (fun _ h => h) (fun _ _ _ _ _ => .new (untouched_newInvoice ..)) fun _ h hm => h.move hm

/-- No invoice of `w` is gone in `w'`, and none has lost an audit row. -/
def Remembers (w w' : World) : Prop :=
  ∀ i inv, w.now.invoice i = some inv → ∃ inv', w'.now.invoice i = some inv' ∧ inv.auditLog <+: inv'.auditLog

theorem Remembers.trans {w₁ w₂ w₃ : World} (h : Remembers w₁ w₂) (h' : Remembers w₂ w₃) : Remembers w₁ w₃ := by
  intro i inv hi
  obtain ⟨inv₂, hi₂, hp₂⟩ := h i inv hi
  obtain ⟨inv₃, hi₃, hp₃⟩ := h' i inv₂ hi₂
  exact ⟨inv₃, hi₃, hp₂.trans hp₃⟩

theorem Op.Acts.remembers {op : Op} {w₀ : World} (h : op.Acts env w₀ w w') : Remembers w w' := by
  intro i inv hi
  have hrow := h.row i
  rw [hi] at hrow
  generalize w'.now.invoice i = o at hrow
  cases hrow with
  | same => exact ⟨inv, rfl, List.prefix_refl _⟩
  | moved _ _ hm => exact ⟨_, rfl, hm.auditLog_prefix⟩

theorem cut_remembers (env : Env) (op : Op) (n : Nat) (w : World) : Remembers w (cut env op n w) := by
  have hacts := cut_acts env op n w
  generalize cut env op n w = w' at hacts
  induction hacts with
  | refl => exact fun i inv hi => ⟨inv, hi, List.prefix_refl _⟩
  | tail _ h ih => exact ih.trans h.remembers

/-- `w'` comes after `w` in a serial run. -/
def Later (env : Env) : World → World → Prop := Relation.ReflTransGen fun w w' => ∃ op n, w' = cut env op n w

/-- **The audit trail reconstructs every invoice**: its rows lead from
RECEIVED to its status by legal moves, meet no status twice, and are there
in every later world. -/
theorem trail_of_reachable (h : Reachable env w) (i : Uuid) (inv : Invoice) (hi : w.now.invoice i = some inv) :
    Trail .received inv.auditLog inv.status ∧ (inv.auditLog = [] ↔ inv.status = .received) ∧
      (InvoiceStatus.received :: inv.auditLog.map (·.toStatus)).Nodup ∧
      ∀ w', Later env w w' → ∃ inv', w'.now.invoice i = some inv' ∧ inv.auditLog <+: inv'.auditLog := by
  have htrail := h.trail i inv hi
  refine ⟨htrail, htrail.eq_nil_iff, htrail.nodup, fun w' hlater => ?_⟩
  induction hlater with
  | refl => exact ⟨inv, hi, List.prefix_refl _⟩
  | tail _ hcut ih =>
    obtain ⟨op, n, rfl⟩ := hcut
    obtain ⟨inv₁, hi₁, hp₁⟩ := ih
    obtain ⟨inv₂, hi₂, hp₂⟩ := cut_remembers env op n _ i inv₁ hi₁
    exact ⟨inv₂, hi₂, hp₁.trans hp₂⟩

theorem trail_of_sample : ∃ inv,
    (Sample.after (Sample.decided 5 "first" Sample.plain)).now.invoice (Sample.uuid 5) = some inv ∧
      inv.status = .autoApproved ∧ Trail .received inv.auditLog .autoApproved := by
  obtain ⟨inv, hi, hs⟩ := Option.map_eq_some_iff.mp Sample.statusOf_decided
  have htrail := (trail_of_reachable (Sample.reachable_after _) _ inv hi).1
  rw [hs] at htrail
  exact ⟨inv, hi, hs, htrail⟩

end audit

end InvoiceOps
