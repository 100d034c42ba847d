/-
The task chain. A `Chain` is the world, whose `sent` holds the messages
that a finished task or request is about to send, and the messages that
are queued. Requests and deliveries are atomic and come in any order, a
delivery may leave its message queued, and no task raises.

`Awaited` is what every invoice is owed and `Timely` what every message
must be; `ChainOk`, which holds in every state, is both.
-/
import InvoiceOps.Facts.Lifecycle
import Mathlib.Data.Multiset.AddSub

namespace InvoiceOps

/-- `t` is `s`, or reached from `s` by legal moves. -/
def InvoiceStatus.Leads : InvoiceStatus → InvoiceStatus → Prop :=
  Relation.ReflTransGen fun s t => s.canTransition t = true

theorem Trail.leads {s t : InvoiceStatus} {es : List AuditLog} (h : Trail s es t) : s.Leads t := by
  induction h with
  | nil => exact .refl
  | cons he _ ih => exact .head he ih

/-- The task a call is a delivery of. -/
def Call.task : Call → Option TaskName
  | .extract _ => some .extractInvoice
  | .matchVendor => some .matchInvoice
  | .validate => some .validateInvoice
  | .approve => some .approveInvoice
  | .export _ _ => some .exportInvoice
  | .decide .. | .decideForm .. => none

theorem Call.entry_of_task {c : Call} {t : TaskName} (h : c.task = some t) (s : InvoiceStatus) :
    c.entry s = t.entry s := by
  cases c <;> cases h <;> rfl

/-- An upload or a human decision. -/
def Op.isRequest : Op → Bool
  | .upload .. | .uploadForm .. => true
  | .call _ c => c.task.isNone

structure Chain where
  world : World
  queued : Multiset Message

/-- The messages that are queued or about to be sent. -/
def Chain.pending (s : Chain) : Multiset Message := s.queued + (s.world.sent : Multiset Message)

inductive Event where
  | request (op : Op)
  /-- `c` is how the delivery of `m` goes; `again`: it will be delivered once more. -/
  | deliver (m : Message) (c : Call) (again : Bool)
  | enqueue (m : Message)

def Chain.step (env : Env) (s : Chain) : Event → Option Chain
  | .request op =>
    if op.isRequest then some { s with world := ((op.prog env).run s.world id).2.1 } else none
  | .deliver m c again =>
    if c.task = some m.task ∧ m ∈ s.queued then
      match (c.prog env m.invoiceId).run s.world id with
      | (.ok (), w, _) => some ⟨w, if again then s.queued else s.queued.erase m⟩
      | (.error _, _, _) => none
    else none
  | .enqueue m =>
    if m ∈ s.world.sent then
      some ⟨{ s.world with sent := s.world.sent.erase m }, m ::ₘ s.queued⟩
    else none

/-- The state after some events; none when one of them is not possible, or
its task raises. -/
def Chain.execute (env : Env) (s : Chain) : List Event → Option Chain
  | [] => some s
  | e :: es => (s.step env e).bind (execute env · es)

/-! ## What a message and an invoice are owed -/

/-- The invoice of `m` is committed, in the status `m` is about or a later one. -/
def Timely (w : World) (m : Message) : Prop :=
  ∃ inv s, w.now.invoice m.invoiceId = some inv ∧ m.task.entry s = true ∧ s.Leads inv.status

/-- The task that invoice `i` waits for is among the messages `p`. -/
def Awaited (p : Message → Prop) (d : DB) (i : Uuid) : Prop :=
  ∀ inv t, d.invoice i = some inv → t.entry inv.status = true → p ⟨t, i⟩

structure ChainOk (s : Chain) : Prop where
  timely : ∀ m ∈ s.pending, Timely s.world m
  awaited : ∀ i, Awaited (· ∈ s.pending) s.world.now i

section acts
variable {env : Env} {op : Op} {w₀ w w' : World}

theorem Timely.act {m : Message} (h : Timely w m) (hact : op.Acts env w₀ w w') : Timely w' m := by
  obtain ⟨inv, s, hi, he, hs⟩ := h
  have hrow := hact.row m.invoiceId
  rw [hi] at hrow
  generalize ho : w'.now.invoice m.invoiceId = o at hrow
  cases hrow with
  | same => exact ⟨inv, s, ho, he, hs⟩
  | moved _ _ hm =>
    obtain ⟨es, -, hes⟩ := hm.trail
    exact ⟨_, s, ho, he, hs.trans hes.leads⟩

/-- **A message is sent after the commit it is about.** -/
theorem Op.Acts.sent (hact : op.Acts env w₀ w w') :
    w.sent <+: w'.sent ∧ ∀ m ∈ w'.sent, m ∈ w.sent ∨ Timely w' m := by
  have hupload : ∀ {i data filename contentType}, UploadAct env i data filename contentType w w' →
      w.sent <+: w'.sent ∧ ∀ m ∈ w'.sent, m ∈ w.sent ∨ Timely w' m := by
    intro i data filename contentType h
    cases h with
    | @send inv hi hs =>
      refine ⟨List.prefix_append _ _, fun m hm => (List.mem_append.mp hm).imp_right fun hm => ?_⟩
      obtain rfl := List.mem_singleton.mp hm
      exact ⟨inv, .received, hi, rfl, hs ▸ .refl⟩
    | _ => exact ⟨List.prefix_refl _, fun m hm => .inl hm⟩
  cases op with
  | upload | uploadForm => exact hupload hact
  | call i c =>
    cases hact with
    | @send inv t hi ht =>
      refine ⟨List.prefix_append _ _, fun m hm => (List.mem_append.mp hm).imp_right fun hm => ?_⟩
      obtain rfl := List.mem_singleton.mp hm
      exact ⟨inv, inv.status, hi, ht, .refl⟩
    | _ => exact ⟨List.prefix_refl _, fun m hm => .inl hm⟩

/-- What an operation does to the messages, cut anywhere. -/
structure Sends (w w' : World) : Prop where
  sent : w.sent <+: w'.sent
  timely : ∀ m, Timely w m → Timely w' m
  new : ∀ m ∈ w'.sent, m ∈ w.sent ∨ Timely w' m

theorem Sends.of_acts (h : Relation.ReflTransGen (op.Acts env w₀) w w') : Sends w w' := by
  induction h with
  | refl => exact ⟨List.prefix_refl _, fun _ h => h, fun _ hm => .inl hm⟩
  | tail _ hact ih =>
    obtain ⟨hsent, hnew⟩ := hact.sent
    refine ⟨ih.sent.trans hsent, fun m hm => (ih.timely m hm).act hact, fun m hm => ?_⟩
    rcases hnew m hm with hm | hm
    · exact (ih.new m hm).imp_right (·.act hact)
    · exact .inr hm

/-- The uuid of the row an operation is about. -/
def Op.row : Op → Uuid
  | .upload id .. | .uploadForm id .. | .call id _ => id

/-- An operation leaves the other rows alone. -/
theorem Op.Acts.frame (hact : op.Acts env w₀ w w') {j : Uuid} (hj : j ≠ op.row) :
    w'.now.invoice j = w.now.invoice j := by
  have hupload : ∀ {i data filename contentType}, j ≠ i → UploadAct env i data filename contentType w w' →
      w'.now.invoice j = w.now.invoice j := by
    intro i data filename contentType hj h
    cases h with
    | insert hins => exact (DB.invoice_insert hins j).trans (if_neg hj)
    | _ => rfl
  cases op with
  | upload | uploadForm => exact hupload hj hact
  | call i c =>
    cases hact with
    | move _ _ hch => exact hch.other hj
    | _ => rfl

theorem frame_of_acts (h : Relation.ReflTransGen (op.Acts env w₀) w w') {j : Uuid} (hj : j ≠ op.row) :
    w'.now.invoice j = w.now.invoice j := by
  induction h with
  | refl => rfl
  | tail _ hact ih => exact (hact.frame hj).trans ih

end acts

/-! ## One event -/

section events
variable {env : Env} {s s' : Chain}

/-- Where an operation runs, the messages stay as they were or are new. -/
theorem ChainOk.timely_run {op : Op} {w : World} {q : Multiset Message} (h : ChainOk s)
    (hacts : Relation.ReflTransGen (op.Acts env s.world) s.world w) (hq : q ≤ s.queued) :
    ∀ m ∈ Chain.pending ⟨w, q⟩, Timely w m := by
  intro m hm
  have hsends := Sends.of_acts hacts
  have hold : m ∈ s.pending → Timely w m := fun hm => hsends.timely m (h.timely m hm)
  rcases Multiset.mem_add.mp hm with hm | hm
  · exact hold (Multiset.mem_add.mpr (.inl (Multiset.mem_of_le hq hm)))
  · rcases hsends.new m hm with hm | hm
    · exact hold (Multiset.mem_add.mpr (.inr hm))
    · exact hm

/-- The row an operation worked on waits for what it has just sent, or for
what was pending before, which is still there. -/
theorem ended_awaited {op : Op} {w₀ w : World} {p p' : Message → Prop} (hsent : ∀ m ∈ w.sent, p' m)
    (hkeep : ∀ t, (∀ c, op = .call op.row c → c.task ≠ some t) → p ⟨t, op.row⟩ → p' ⟨t, op.row⟩)
    (h₀ : Awaited p w₀.now op.row) (h : op.Ends w₀ w) : Awaited p' w.now op.row := by
  intro inv t hi ht
  have hingested : ∀ {i}, op.row = i → (∀ c, op ≠ .call i c) → Ingested i w₀ w → p' ⟨t, op.row⟩ := by
    rintro i rfl hne h
    cases h with
    | found hnow => exact hkeep t (fun c hc => absurd hc (hne c)) (h₀ inv t (hnow ▸ hi) ht)
    | created hi' hs hm =>
      rw [hi'] at hi
      cases hi
      rw [TaskName.entry_iff, hs] at ht
      cases ht
      exact hsent _ hm
  cases op with
  | upload i | uploadForm i => exact hingested rfl (fun _ => by simp) h
  | call i c =>
    cases h with
    | idle hat he =>
      obtain rfl : _ = inv := Option.some_injective _ (hat.row.symm.trans hi)
      refine hkeep t (fun c' hc' ht' => ?_) (h₀ _ t hat.start ht)
      cases hc'
      rw [Call.entry_of_task ht', ht] at he
      cases he
    | refused hrow _ hnone =>
      rw [Op.row, hrow, hnone] at hi
      cases hi
    | moved hm hs =>
      obtain ⟨_, inv', -, hi', rfl, -⟩ := hm
      obtain rfl : inv' = inv := Option.some_injective _ (hi'.symm.trans hi)
      exact hsent _ (hs t (TaskName.entry_iff.mp ht))

theorem failed_awaited {op : Op} {w₀ w : World} {e : Exn} {p : Message → Prop}
    (h₀ : Awaited p w₀.now op.row) (h : op.Fails w₀ w e) : Awaited p w.now op.row := by
  cases op with
  | upload | uploadForm =>
    obtain ⟨hnow, -⟩ := h
    rwa [hnow]
  | call i c =>
    intro inv t hi
    exact h₀ inv t (h.row ▸ hi)

/-- A request, whether it raises or not. -/
theorem ChainOk.request (h : ChainOk s) (op : Op) :
    ChainOk { s with world := ((op.prog env).run s.world id).2.1 } := by
  obtain ⟨hacts, hend⟩ := Txn.wp_run (fun _ => rfl) (op.wp env s.world)
  generalize (op.prog env).run s.world id = r at hacts hend
  have hle : ∀ m, m ∈ s.pending → m ∈ Chain.pending { s with world := r.2.1 } := fun m hm =>
    Multiset.mem_add.mpr ((Multiset.mem_add.mp hm).imp_right ((Sends.of_acts hacts).sent.subset ·))
  refine ⟨h.timely_run hacts le_rfl, fun i => ?_⟩
  by_cases hi : i = op.row
  · subst hi
    obtain ⟨e | a, w, u⟩ := r
    · exact failed_awaited (fun inv t hi ht => hle _ (h.awaited _ inv t hi ht)) hend.2
    · exact ended_awaited (fun m hm => Multiset.mem_add.mpr (.inr hm)) (fun t _ hm => hle _ hm)
        (h.awaited op.row) hend.2
  · intro inv t hinv ht
    exact hle _ (h.awaited i inv t (by rw [← frame_of_acts hacts hi]; exact hinv) ht)

/-- A delivery that does not raise. -/
theorem ChainOk.deliver (h : ChainOk s) {m : Message} {c : Call} {again : Bool} {w : World} {u : DB → DB}
    (hc : c.task = some m.task) (hrun : (c.prog env m.invoiceId).run s.world id = (.ok (), w, u)) :
    ChainOk ⟨w, if again then s.queued else s.queued.erase m⟩ := by
  obtain ⟨hacts, hend⟩ := Txn.wp_run (fun _ => rfl) ((Op.call m.invoiceId c).wp env s.world)
  rw [Op.prog, hrun] at hacts hend
  have hq : (if again then s.queued else s.queued.erase m) ≤ s.queued := by
    split
    · exact le_rfl
    · exact Multiset.erase_le _ _
  -- Every other message is still there.
  have hle : ∀ m', m' ≠ m → m' ∈ s.pending →
      m' ∈ Chain.pending ⟨w, if again then s.queued else s.queued.erase m⟩ := by
    intro m' hne hm'
    refine Multiset.mem_add.mpr ((Multiset.mem_add.mp hm').imp (fun hm' => ?_)
      ((Sends.of_acts hacts).sent.subset ·))
    split
    · exact hm'
    · exact (Multiset.mem_erase_of_ne hne).mpr hm'
  refine ⟨h.timely_run hacts hq, fun i => ?_⟩
  by_cases hi : i = m.invoiceId
  · subst hi
    have hkeep : ∀ t, (∀ c', Op.call m.invoiceId c = .call m.invoiceId c' → c'.task ≠ some t) →
        (⟨t, m.invoiceId⟩ : Message) ∈ s.pending →
        ⟨t, m.invoiceId⟩ ∈ Chain.pending ⟨w, if again then s.queued else s.queued.erase m⟩ :=
      fun t ht hm => hle _ (fun he => ht c rfl (by rw [hc, ← he])) hm
    exact ended_awaited (fun m hm => Multiset.mem_add.mpr (.inr hm)) hkeep (h.awaited m.invoiceId) hend.2
  · intro inv t hinv ht
    have hframe : w.now.invoice i = s.world.now.invoice i := frame_of_acts hacts hi
    exact hle _ (fun he => hi (by rw [← he])) (h.awaited i inv t (hframe ▸ hinv) ht)

/-- A message that reaches the queue is as pending as it was. -/
theorem Chain.pending_enqueue {m : Message} (hm : m ∈ s.world.sent) :
    Chain.pending ⟨{ s.world with sent := s.world.sent.erase m }, m ::ₘ s.queued⟩ = s.pending := by
  rw [Chain.pending, Chain.pending, Multiset.cons_add, ← Multiset.add_cons, ← Multiset.coe_erase,
    Multiset.cons_erase (Multiset.mem_coe.mpr hm)]

/-- **One event.** -/
theorem ChainOk.step (h : ChainOk s) {e : Event} (hs : s.step env e = some s') : ChainOk s' := by
  cases e with
  | request op =>
    rw [Chain.step] at hs
    split at hs
    · cases hs
      exact h.request op
    · cases hs
  | deliver m c again =>
    rw [Chain.step] at hs
    split at hs
    · next hc =>
      split at hs
      · next hrun =>
        cases hs
        exact h.deliver hc.1 hrun
      · cases hs
    · cases hs
  | enqueue m =>
    rw [Chain.step] at hs
    split at hs
    · next hm =>
      cases hs
      refine ⟨fun m' hm' => h.timely m' (Chain.pending_enqueue hm ▸ hm'), fun i inv t hi ht => ?_⟩
      rw [Chain.pending_enqueue hm]
      exact h.awaited i inv t hi ht
    · cases hs

theorem ChainOk.execute (h : ChainOk s) (es : List Event) (hs : s.execute env es = some s') : ChainOk s' := by
  induction es generalizing s with
  | nil =>
    cases hs
    exact h
  | cons e es ih =>
    obtain ⟨s₁, h₁, h₂⟩ := Option.bind_eq_some_iff.mp hs
    exact ih (h.step h₁) h₂

theorem chainOk_initial {w : World} (h : Initial w) : ChainOk ⟨w, 0⟩ where
  timely m hm := by simp [Chain.pending, h.sent] at hm
  awaited i inv t hi := by
    have hmem := (Table.mem_of_get? hi).1
    rw [h.invoices] at hmem
    cases hmem

/-- **No invoice is stranded**: the task each invoice waits for is pending,
each pending message is about a status its invoice has or has had, and no
operation, cut anywhere, has sent a message ahead of its commit. -/
theorem pending_of_chain {w : World} {es : List Event} (hw : Initial w)
    (hs : Chain.execute env ⟨w, 0⟩ es = some s) :
    (∀ i inv t, s.world.now.invoice i = some inv → t.entry inv.status = true → ⟨t, i⟩ ∈ s.pending) ∧
      (∀ m ∈ s.pending, Timely s.world m) ∧
      ∀ op n, ∀ m ∈ (cut env op n s.world).sent, Timely (cut env op n s.world) m := by
  have hok := (chainOk_initial hw).execute es hs
  refine ⟨hok.awaited, hok.timely, fun op n m hm => ?_⟩
  have hsends := Sends.of_acts (cut_acts env op n s.world)
  rcases hsends.new m hm with hm | hm
  · exact hsends.timely m (hok.timely m (Multiset.mem_add.mpr (.inr (Multiset.mem_coe.mpr hm))))
  · exact hm

end events

/-- An upload, two deliveries of its first message, and one of the next. -/
def Sample.events : List Event :=
  let extract : Message := ⟨.extractInvoice, Sample.uuid 5⟩
  let matchVendor : Message := ⟨.matchInvoice, Sample.uuid 5⟩
  [.request (.upload (Sample.uuid 5) (Sample.document "first") (some "invoice.pdf") (some "application/pdf")),
    .enqueue extract, .deliver extract (.extract (Sample.provider Sample.plain)) true, .enqueue matchVendor,
    .deliver matchVendor .matchVendor false, .deliver extract (.extract (Sample.provider Sample.plain)) false]

theorem Sample.statusOf_events :
    ((Chain.execute Sample.env ⟨Sample.world, 0⟩ Sample.events).map fun s => Sample.statusOf s.world 5) =
      some (some .validating) := by decide +kernel

theorem pending_of_sample : ∃ s, Chain.execute Sample.env ⟨Sample.world, 0⟩ Sample.events = some s ∧
    Sample.statusOf s.world 5 = some .validating ∧ ⟨.validateInvoice, Sample.uuid 5⟩ ∈ s.pending := by
  obtain ⟨s, hs, hstatus⟩ := Option.map_eq_some_iff.mp Sample.statusOf_events
  obtain ⟨inv, hi, hinv⟩ := Option.map_eq_some_iff.mp hstatus
  exact ⟨s, hs, hstatus, (pending_of_chain Sample.world_initial hs).1 _ inv .validateInvoice hi (by rw [hinv]; rfl)⟩

end InvoiceOps
