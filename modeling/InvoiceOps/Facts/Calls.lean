/-
The specs of the calls: whatever a task or a decision endpoint does to the
world is an `Act`, it leaves nothing uncommitted, and it ends either out of
its turn, with its invoice as it was, or with its invoice moved and the
next task sent (`Over`). An exception leaves the invoice as it was
(`Raised`).
-/
import InvoiceOps.Facts.Stages

namespace InvoiceOps

/-- The statuses in which a call does its work. -/
def Call.entry : Call → InvoiceStatus → Bool
  | .extract _, s => TaskName.extractInvoice.entry s
  | .matchVendor, s => TaskName.matchInvoice.entry s
  | .validate, s => TaskName.validateInvoice.entry s
  | .approve, s => TaskName.approveInvoice.entry s
  | .export _ _, s => TaskName.exportInvoice.entry s
  | .decide .., s | .decideForm .., s => s == .needsReview

/-- Invoice `i` was moved, to status `s`; an artifact came with an export row. -/
def Moved (i : Uuid) (w₀ w : World) (s : InvoiceStatus) : Prop :=
  ∃ inv inv', w₀.now.invoice i = some inv ∧ w.now.invoice i = some inv' ∧ inv'.status = s ∧
    (artifacts i w.ext).length + inv.exports.length = (artifacts i w₀.ext).length + inv'.exports.length

/-- How a call on invoice `i` that began in world `w₀` ends. -/
inductive Over (c : Call) (i : Uuid) (w₀ w : World) : Prop
  | idle {inv} : At i inv w₀ w → c.entry inv.status = false → Over c i w₀ w
  | refused : w.now.invoice i = w₀.now.invoice i → artifacts i w.ext = artifacts i w₀.ext →
      w₀.now.invoice i = none → Over c i w₀ w
  | moved {s} : Moved i w₀ w s → (∀ t, TaskName.of s = some t → ⟨t, i⟩ ∈ w.sent) → Over c i w₀ w

/-- What is known once a stage's session has committed. -/
def Committed (t : TaskName) (i : Uuid) (w₀ w : World) : Option InvoiceStatus → Prop
  | none => ∃ inv, At i inv w₀ w ∧ t.entry inv.status = false
  | some s => Moved i w₀ w s

section calls
variable {env : Env} {R G : World → World → Prop} {c : Call} {t : TaskName} {i : Uuid} {w₀ w w' : World}
  {u : DB → DB} {α β : Type}

theorem Moved.rely (hR : Rely i R) {s : InvoiceStatus} (hw : R w w') (h : Moved i w₀ w s) : Moved i w₀ w' s := by
  obtain ⟨inv, inv', h₀, h', hs, hb⟩ := h
  have hu := hR.undisturbed hw
  exact ⟨inv, inv', h₀, hu.invoice.trans h', hs, by rw [hu.artifacts]; exact hb⟩

theorem Moved.post {s : InvoiceStatus} (m : Message) (h : Moved i w₀ w s) : Moved i w₀ (w.post m) s := h

/-- What the commit of a stage does. -/
theorem Ended.commit (hR : Rely i R) (hG : ∀ w w', Act env R c (artifacts i w₀.ext) i w w' → G w w')
    {s : Option InvoiceStatus} (h : Ended env R c t i w₀ w u s) (hw : R w w') :
    G w' (w'.commit (u w'.now)) ∧ Committed t i w₀ (w'.commit (u w'.now)) s := by
  cases h with
  | idle hu hat he =>
    subst hu
    have hat' := hat.rely hR hw
    exact ⟨hG _ _ .noop, _, ⟨hat'.start, hat'.row, hat'.written⟩, he⟩
  | moved h₀ hrow hu hm hb =>
    have hun := hR.undisturbed hw
    have hrow' := hun.invoice.trans hrow
    have hch := hu _ hrow'
    refine ⟨hG _ _ (.move hrow' (hm.rely hR hw (DB.id_of_invoice hrow)) hch), _, _, h₀, hch.self, rfl, ?_⟩
    rw [Txn.World.commit_ext, hun.artifacts]
    exact hb

/-- A session scope commits what its body leaves pending, or rolls back. -/
theorem Tx.wp_sessionScope {body : Tx α} {E : World → (DB → DB) → Exn → Prop} {Q : World → (DB → DB) → α → Prop}
    (h : Txn.wp R G (fun w _ e => E w id e)
      (fun w u a => ∀ w', R w w' → G w' (w'.commit (u w'.now)) ∧ Q (w'.commit (u w'.now)) id a) body w u) :
    Txn.wp R G E Q (Tx.sessionScope body) w u :=
  (Txn.wp_tryCatch _ _ w u).mpr (Tx.wp_bind (Txn.wp_mono h fun _ _ _ h w' hw => h w' hw))

/-- The message of the next stage, after the commit. -/
theorem delay_wp (hR : Rely i R) (hG : ∀ w w', Act env R c (artifacts i w₀.ext) i w w' → G w w')
    {s : InvoiceStatus} (h : Moved i w₀ w s) (hs : TaskName.of s = some t) {E : World → (DB → DB) → Exn → Prop} :
    Txn.wp R G E (fun w u _ => u = id ∧ Over c i w₀ w) (delay t i) w id := by
  intro w' hw
  obtain ⟨inv, inv', h₀, h', rfl, hb⟩ := h.rely hR hw
  refine ⟨hG _ _ (.send h' (TaskName.entry_iff.mpr hs)), rfl, .moved ⟨inv, inv', h₀, h', rfl, hb⟩ fun t' ht' => ?_⟩
  rw [hs] at ht'
  cases ht'
  simp

/-- **A task**: its body in a session scope, and then the message of the
next stage. -/
theorem task_wp (hR : Rely i R) (hG : ∀ w w', Act env R c (artifacts i w₀.ext) i w w' → G w w')
    (hc : ∀ s, c.entry s = t.entry s) (next : α → Option TaskName) {body : Tx α} {k : α → Tx Unit}
    (hk : ∀ o, k o = match next o with | some t => delay t i | none => return ())
    (hbody : Txn.wp R G (fun w _ e => Raised i w₀ w e)
      (fun w u o => ∃ s, Ended env R c t i w₀ w u s ∧ s.bind TaskName.of = next o) body w₀ id) :
    Txn.wp R G (fun w u e => u = id ∧ Raised i w₀ w e) (fun w u _ => u = id ∧ Over c i w₀ w)
      (Tx.sessionScope body >>= k) w₀ id := by
  refine Tx.wp_bind (Tx.wp_sessionScope (Txn.wp_conseq (fun _ _ h => h) (fun _ _ h => h)
    (fun _ _ _ h => ⟨rfl, h⟩) ?_ body hbody))
  rintro w₁ u₁ o ⟨s, hend, hnext⟩ w₂ hw
  obtain ⟨hG₂, hover⟩ := hend.commit hR hG hw
  refine ⟨hG₂, ?_⟩
  rw [hk, ← hnext]
  cases s with
  | none =>
    obtain ⟨inv, hat, he⟩ := hover
    exact ⟨rfl, .idle hat ((hc _).trans he)⟩
  | some s =>
    cases hs : TaskName.of s with
    | none =>
      rw [Option.bind_some, hs]
      exact ⟨rfl, .moved hover fun t ht => by rw [hs] at ht; cases ht⟩
    | some t' =>
      rw [Option.bind_some, hs]
      exact delay_wp hR hG hover hs

theorem map_wp {body : Tx α} {f : α → β} {E : World → (DB → DB) → Exn → Prop} {Q : World → (DB → DB) → β → Prop}
    (h : Txn.wp R G E (fun w u a => Q w u (f a)) body w u) :
    Txn.wp R G E Q (do let a ← body; return f a) w u := Tx.wp_bind h

/-- **A decision.** Refused, it raises and leaves nothing; taken, its move
is pending, or committed and the export enqueued. -/
theorem decideService_wp (hR : Rely i R) (hG : ∀ w w', Act env R c (artifacts i w₀.ext) i w w' → G w w')
    {isApproval : Bool} {actor : String} {reason : Option String} :
    Txn.wp R G (fun w u e => u = id ∧ w.now.invoice i = w₀.now.invoice i ∧
        artifacts i w.ext = artifacts i w₀.ext ∧
        (w₀.now.invoice i = none ∧ e = .valueError ("invoice " ++ i.str ++ " not found") ∨
          ∃ inv, w₀.now.invoice i = some inv ∧ inv.status ≠ .needsReview ∧
            e = .illegalTransition inv.status (if isApproval then .approved else .rejected)))
      (fun w u _ => ∀ w', R w w' → G w' (w'.commit (u w'.now)) ∧ Over c i w₀ (w'.commit (u w'.now)))
      (decideService i isApproval actor reason) w₀ id := by
  have hcommit : ∀ {w w' u inv inv'}, At i inv w₀ w → Pends i inv inv' u →
      Move env R c (artifacts i w₀.ext) w inv inv' → inv'.exports = inv.exports → R w w' →
      G w' (w'.commit (u w'.now)) ∧ Moved i w₀ (w'.commit (u w'.now)) inv'.status := by
    intro w w' u inv inv' hat hu hm he hw
    have hend : Ended env R c .approveInvoice i w₀ w u (some inv'.status) := hat.moved hu hm he
    exact hend.commit hR hG hw
  cases isApproval with
  | false =>
    refine Txn.wp_mono (recordHumanDecision_wp env c hR) ?_
    rintro w u mem ⟨-, inv, inv', hat, hu, hm, hs, he⟩ w' hw
    obtain ⟨hG', hmoved⟩ := hcommit hat hu hm he hw
    exact ⟨hG', .moved hmoved fun t ht => by rw [hs] at ht; cases ht⟩
  | true =>
    refine Tx.wp_bind (Txn.wp_mono (recordHumanDecision_wp env c hR) ?_)
    rintro w u mem ⟨hid, inv, inv', hat, hu, hm, hs, he⟩
    refine Tx.wp_bind fun w₁ hw₁ => ?_
    obtain ⟨hG₁, hmoved⟩ := hcommit hat hu hm he hw₁
    refine ⟨hG₁, Tx.wp_bind fun w₂ hw₂ => ?_⟩
    have hmoved₂ := hmoved.rely hR hw₂
    rw [hs] at hmoved₂
    obtain ⟨inv₀, inv₂, h₀, h₂, hs₂, hb⟩ := id hmoved₂
    rw [hid]
    refine ⟨hG _ _ (.send h₂ (by rw [hs₂]; rfl)), fun w₃ hw₃ => ⟨hG _ _ .noop, ?_⟩⟩
    have hmoved₃ : Moved i w₀ w₃ .approved := (hmoved₂.post _).rely hR hw₃
    refine .moved hmoved₃ fun t ht => ?_
    cases ht
    exact (hR.undisturbed hw₃).sent.subset (by simp)

/-- **The decision endpoints.** -/
theorem recordDecision_wp (hR : Rely i R) (hG : ∀ w w', Act env R c (artifacts i w₀.ext) i w w' → G w w')
    {isApproval : Bool} {actor : String} {reason : Option String} :
    Txn.wp R G (fun w u e => u = id ∧ Raised i w₀ w e) (fun w u _ => u = id ∧ Over c i w₀ w)
      (recordDecision i isApproval actor reason) w₀ id := by
  refine Tx.wp_sessionScope (Tx.wp_bind ((Txn.wp_tryCatch _ _ _ _).mpr ?_))
  refine Txn.wp_conseq (fun _ _ h => h) (fun _ _ h => h) ?_ ?_ _
    (decideService_wp hR hG)
  · rintro w u e ⟨-, hrow, hart, ⟨-, rfl⟩ | ⟨inv, -, -, rfl⟩⟩
    · exact ⟨rfl, hrow, hart, fun h => by cases h⟩
    · exact ⟨rfl, hrow, hart, fun h => by cases h⟩
  · exact fun w u _ h w' hw => ⟨(h w' hw).1, rfl, (h w' hw).2⟩

theorem uiDecide_wp (hR : Rely i R) (hG : ∀ w w', Act env R c (artifacts i w₀.ext) i w w' → G w w')
    (hc : ∀ s, c.entry s = (s == .needsReview)) {isApproval : Bool} {actor reason : String} :
    Txn.wp R G (fun w u e => u = id ∧ Raised i w₀ w e) (fun w u _ => u = id ∧ Over c i w₀ w)
      (uiDecide env i isApproval actor reason) w₀ id := by
  refine Tx.wp_sessionScope ((Txn.wp_tryCatch _ _ _ _).mpr (Tx.wp_bind ?_))
  refine Txn.wp_conseq (fun _ _ h => h) (fun _ _ h => h) ?_ ?_ _
    (decideService_wp hR hG)
  · rintro w u e ⟨rfl, hrow, hart, ⟨hnone, rfl⟩ | ⟨inv, h₀, hs, rfl⟩⟩ w' hw
    · have hu := hR.undisturbed hw
      exact ⟨hG _ _ .noop, rfl, .refused (hu.invoice.trans hrow) (hu.artifacts.trans hart) hnone⟩
    · have hu := hR.undisturbed hw
      exact ⟨hG _ _ .noop, rfl, .idle ⟨h₀, (hu.invoice.trans hrow).trans h₀, hu.artifacts.trans hart⟩
        (by rw [hc]; simpa using hs)⟩
  · exact fun w u _ h w' hw => ⟨(h w' hw).1, rfl, (h w' hw).2⟩

/-- **Every call.** -/
theorem Call.wp (hR : Rely i R) (hG : ∀ w w', Act env R c (artifacts i w₀.ext) i w w' → G w w') :
    Txn.wp R G (fun w u e => u = id ∧ Raised i w₀ w e) (fun w u _ => u = id ∧ Over c i w₀ w)
      (c.prog env i) w₀ id := by
  cases c with
  | extract provider =>
    exact task_wp hR hG (fun _ => rfl) (fun o => if o = some true then some .matchInvoice else none)
      (fun o => by rcases o with _ | _ | _ <;> rfl) (map_wp (runExtraction_wp hR))
  | matchVendor =>
    exact task_wp hR hG (fun _ => rfl) (fun o => o.map fun _ => .validateInvoice)
      (fun o => by cases o <;> rfl) (map_wp (Txn.wp_mono (runMatching_wp hR) fun _ _ o ⟨s, h, hs⟩ =>
        ⟨s, h, by rw [hs, Option.map_map]; rfl⟩))
  | validate =>
    exact task_wp hR hG (fun _ => rfl) (fun o => o.map fun _ => .approveInvoice)
      (fun o => by cases o <;> rfl) (map_wp (Txn.wp_mono (runValidation_wp hR) fun _ _ o ⟨s, h, hs⟩ =>
        ⟨s, h, by rw [hs, Option.map_map]; rfl⟩))
  | approve =>
    exact task_wp hR hG (fun _ => rfl)
      (fun o => if o = some .autoApproved then some .exportInvoice else none)
      (fun o => by rcases o with _ | s <;> [rfl; cases s <;> rfl]) (map_wp (runApproval_wp hR))
  | «export» key now =>
    exact task_wp hR hG (fun _ => rfl) (fun _ => none) (fun o => rfl)
      (map_wp (runExport_wp hR hG))
  | decide isApproval actor reason => exact recordDecision_wp hR hG
  | decideForm isApproval actor reason => exact uiDecide_wp hR hG fun _ => rfl

end calls

end InvoiceOps
