/-
The workers on their own: no more requests, each message is delivered once
and a task that raises is not run again. Whatever the order, they stop
(`Chain.load` falls with every step), and then no invoice waits for a task
but one whose task raised.

That holds from every state of the chain, and also after any crash, once a
sweep has queued the task of every invoice that waits for one.
-/
import InvoiceOps.Facts.Sends
import Mathlib.Algebra.BigOperators.Group.Multiset.Basic

namespace InvoiceOps

/-- One step of the workers, and the message whose task raised in it. -/
inductive Chain.Works (env : Env) (s : Chain) : Option Message → Chain → Prop
  | enqueue {m : Message} : m ∈ s.world.sent →
      Works env s none ⟨{ s.world with sent := s.world.sent.erase m }, m ::ₘ s.queued⟩
  | deliver {m : Message} {c : Call} : c.task = some m.task → m ∈ s.queued →
      ((c.prog env m.invoiceId).run s.world id).1 = .ok () →
      Works env s none ⟨((c.prog env m.invoiceId).run s.world id).2.1, s.queued.erase m⟩
  | raise {m : Message} {c : Call} {e : Exn} : c.task = some m.task → m ∈ s.queued →
      ((c.prog env m.invoiceId).run s.world id).1 = .error e →
      Works env s (some m) ⟨((c.prog env m.invoiceId).run s.world id).2.1, s.queued.erase m⟩

/-- Steps of the workers: `os` is what raised in each of them. -/
inductive Chain.Drains (env : Env) : Chain → List (Option Message) → Chain → Prop
  | done {s} : Drains env s [] s
  | step {s o s₁ os s'} : Works env s o s₁ → Drains env s₁ os s' → Drains env s (o :: os) s'

/-! ## They stop -/

/-- The steps that a message still to be sent may cost: each task of the rest
of its chain is queued once and delivered once. -/
def Message.cost (m : Message) : Nat := 2 * m.task.remaining

/-- The steps left. -/
def Chain.load (s : Chain) : Nat :=
  (s.queued.map fun m => m.cost - 1).sum + (s.world.sent.map Message.cost).sum

theorem Message.two_le_cost (m : Message) : 2 ≤ m.cost := by
  obtain ⟨t, i⟩ := m
  cases t <;> simp [Message.cost, TaskName.remaining]

section load
variable {env : Env} {s s' : Chain} {o : Option Message} {os : List (Option Message)}

/-- A message that leaves the queue leaves its cost. -/
theorem sum_erase_cost {q : Multiset Message} {m : Message} (h : m ∈ q) :
    (q.map fun m => m.cost - 1).sum = m.cost - 1 + ((q.erase m).map fun m => m.cost - 1).sum := by
  rw [← Multiset.sum_cons, ← Multiset.map_cons fun m : Message => m.cost - 1, Multiset.cons_erase h]

theorem load_delivered {m : Message} {c : Call} (hc : c.task = some m.task) (hm : m ∈ s.queued) :
    Chain.load ⟨((c.prog env m.invoiceId).run s.world id).2.1, s.queued.erase m⟩ < s.load := by
  have hcost := m.two_le_cost
  have hsum := sum_erase_cost hm
  simp only [Chain.load, hsum]
  rcases Op.sent_run env (.call m.invoiceId c) s.world with hs | ⟨m', hm', hs⟩
  · rw [Op.prog] at hs
    rw [hs]
    omega
  · rw [Op.prog] at hs
    rw [hs, List.map_append, List.sum_append, List.map_singleton, List.sum_singleton]
    -- The task it starts has one task less before it.
    have hrem : m'.task.remaining + 1 = m.task.remaining :=
      TaskName.remaining_next ((Call.next_of_task hc).symm.trans hm')
    simp only [Message.cost] at hcost ⊢
    omega

/-- **Every step makes the load less.** -/
theorem Chain.Works.load_lt (h : s.Works env o s') : s'.load < s.load := by
  cases h with
  | @enqueue m hm =>
    have hcost := m.two_le_cost
    have hsum : (s.world.sent.map Message.cost).sum = m.cost + ((s.world.sent.erase m).map Message.cost).sum := by
      rw [← List.sum_cons, ← List.map_cons]
      exact ((List.perm_cons_erase hm).map _).sum_eq
    simp only [Chain.load, Multiset.map_cons, Multiset.sum_cons, hsum]
    omega
  | deliver hc hm => exact load_delivered hc hm
  | raise hc hm => exact load_delivered hc hm

theorem Chain.Drains.length_le (h : s.Drains env os s') : os.length + s'.load ≤ s.load := by
  induction h with
  | done => simp
  | step hw _ ih =>
    have hlt := hw.load_lt
    rw [List.length_cons]
    omega

/-- They do not stop while there is a message. -/
theorem Chain.exists_works (env : Env) (h : s.pending ≠ 0) : ∃ o s', s.Works env o s' := by
  obtain ⟨m, hm⟩ := Multiset.exists_mem_of_ne_zero h
  rcases Multiset.mem_add.mp hm with hm | hm
  · obtain ⟨c, hc⟩ : ∃ c : Call, c.task = some m.task :=
      ⟨(⟨fun _ _ _ _ => .raised "", m.invoiceId, ""⟩ : Draws).call m.task, by cases m.task <;> rfl⟩
    cases hr : ((c.prog env m.invoiceId).run s.world id).1 with
    | ok u => exact ⟨_, _, .deliver hc hm hr⟩
    | error e => exact ⟨_, _, .raise hc hm hr⟩
  · exact ⟨_, _, .enqueue (Multiset.mem_coe.mp hm)⟩

/-- They can always finish, by induction on the load. -/
theorem Chain.exists_drained (env : Env) (s : Chain) : ∃ os s', s.Drains env os s' ∧ s'.pending = 0 := by
  induction hn : s.load using Nat.strong_induction_on generalizing s with
  | _ n ih =>
    by_cases hp : s.pending = 0
    · exact ⟨[], s, .done, hp⟩
    · obtain ⟨o, s₁, hw⟩ := Chain.exists_works env hp
      obtain ⟨os, s', hd, hp'⟩ := ih s₁.load (hn ▸ hw.load_lt) s₁ rfl
      exact ⟨o :: os, s', .step hw hd, hp'⟩

end load

/-! ## What is left then -/

/-- The invoice has come to an end, or waits for a reviewer. -/
def InvoiceStatus.atRest (s : InvoiceStatus) : Bool := s.isTerminal || s == .needsReview

/-- Every invoice's rows fit its status, and the task it waits for is pending
or one of `raised`. -/
structure Owed (s : Chain) (raised : List Message) : Prop where
  rows : Rows (fun _ => RowOk) s.world
  awaited : ∀ i, Awaited (fun m => m ∈ s.pending ∨ m ∈ raised) s.world.now i

section owed
variable {env : Env} {s s' : Chain} {raised : List Message} {op : Op} {w : World} {m : Message} {c : Call}

theorem rowOk_of_acts {w₀ : World} (h : Rows (fun _ => RowOk) w₀)
    (hacts : Relation.ReflTransGen (op.Acts env w₀) w₀ w) : Rows (fun _ => RowOk) w := by
  induction hacts with
  | refl => exact h
  | tail _ hact ih =>
    exact ih.act (fun _ h => h) (fun _ _ _ _ => .new (untouched_newInvoice ..)) (fun _ h hm => h.move hm) hact

/-- The messages that a delivery leaves. -/
theorem mem_pending_delivered (hacts : Relation.ReflTransGen (op.Acts env s.world) s.world w) {m' : Message}
    (hne : m' ≠ m) (hm' : m' ∈ s.pending) : m' ∈ Chain.pending ⟨w, s.queued.erase m⟩ :=
  Multiset.mem_add.mpr ((Multiset.mem_add.mp hm').imp (fun h => (Multiset.mem_erase_of_ne hne).mpr h)
    ((Sends.of_acts hacts).sent.subset ·))

/-- What another invoice waits for, it still waits for. -/
theorem Owed.other (h : Owed s raised) (hacts : Relation.ReflTransGen (op.Acts env s.world) s.world w) {i : Uuid}
    (hi : i ≠ op.row) (hm : m.invoiceId = op.row) :
    Awaited (fun m' => m' ∈ Chain.pending ⟨w, s.queued.erase m⟩ ∨ m' ∈ raised) w.now i := by
  intro inv t hinv ht
  rw [frame_of_acts hacts hi] at hinv
  exact (h.awaited i inv t hinv ht).imp_left (mem_pending_delivered hacts fun he => hi (by rw [← hm, ← he]))

theorem Owed.deliver (h : Owed s raised) (hc : c.task = some m.task)
    (hrun : ((c.prog env m.invoiceId).run s.world id).1 = .ok ()) :
    Owed ⟨((c.prog env m.invoiceId).run s.world id).2.1, s.queued.erase m⟩ raised := by
  obtain ⟨hacts, hend⟩ := Txn.wp_run (fun _ => rfl) ((Op.call m.invoiceId c).wp env s.world)
  rw [Op.prog] at hacts hend
  rw [hrun] at hend
  generalize ((c.prog env m.invoiceId).run s.world id).2.1 = w at hacts hend
  refine ⟨rowOk_of_acts h.rows hacts, fun i => ?_⟩
  by_cases hi : i = m.invoiceId
  · subst hi
    refine ended_awaited (fun m' hm' => .inl (Multiset.mem_add.mpr (.inr hm'))) (fun t ht hm' => ?_)
      (h.awaited m.invoiceId) hend.2
    exact hm'.imp_left (mem_pending_delivered hacts fun he => ht c rfl (by rw [hc, ← he]))
  · exact h.other hacts hi rfl

theorem Owed.raise (h : Owed s raised) {e : Exn} (hrun : ((c.prog env m.invoiceId).run s.world id).1 = .error e) :
    Owed ⟨((c.prog env m.invoiceId).run s.world id).2.1, s.queued.erase m⟩ (m :: raised) := by
  obtain ⟨hacts, hend⟩ := Txn.wp_run (fun _ => rfl) ((Op.call m.invoiceId c).wp env s.world)
  rw [Op.prog] at hacts hend
  rw [hrun] at hend
  generalize ((c.prog env m.invoiceId).run s.world id).2.1 = w at hacts hend
  refine ⟨rowOk_of_acts h.rows hacts, fun i => ?_⟩
  by_cases hi : i = m.invoiceId
  · subst hi
    refine failed_awaited (fun inv t hinv ht => ?_) hend.2
    by_cases hm : (⟨t, m.invoiceId⟩ : Message) = m
    · exact .inr (List.mem_cons.mpr (.inl hm))
    · exact (h.awaited _ inv t hinv ht).imp (mem_pending_delivered hacts hm) fun hr => List.mem_cons.mpr (.inr hr)
  · intro inv t hinv ht
    exact (h.other hacts hi rfl inv t hinv ht).imp_right fun hr => List.mem_cons.mpr (.inr hr)

/-- **One step.** -/
theorem Owed.works (h : Owed s raised) {o : Option Message} (hw : s.Works env o s') :
    Owed s' (o.toList ++ raised) := by
  cases hw with
  | @enqueue m hm =>
    exact ⟨h.rows, fun i inv t hi ht => Chain.pending_enqueue hm ▸ h.awaited i inv t hi ht⟩
  | deliver hc _ hr => exact h.deliver hc hr
  | raise _ _ hr => exact h.raise hr

/-- **Steps**, by induction: what each of them raised is waited for. -/
theorem Owed.drains {os : List (Option Message)} (h : Owed s raised) (hd : s.Drains env os s') :
    ∃ raised', Owed s' raised' ∧ ∀ m ∈ raised', m ∈ raised ∨ some m ∈ os := by
  induction hd generalizing raised with
  | done => exact ⟨raised, h, fun m hm => .inl hm⟩
  | @step s o s₁ os s' hw _ ih =>
    obtain ⟨raised', h', hmem⟩ := ih (h.works hw)
    refine ⟨raised', h', fun m hm => ?_⟩
    rcases hmem m hm with hm | hm
    · rcases List.mem_append.mp hm with hm | hm
      · exact .inr (by simp [Option.mem_toList.mp hm])
      · exact .inl hm
    · exact .inr (List.mem_cons_of_mem _ hm)

/-- An invoice that waits for no task is at rest. -/
theorem RowOk.atRest {inv : Invoice} (h : RowOk inv) (ht : TaskName.of inv.status = none) :
    inv.status.atRest = true := by
  have hsettled := h.settled
  revert ht hsettled
  cases inv.status <;> decide

/-- **When no message is left**, an invoice is at rest or its task raised. -/
theorem Owed.rest (h : Owed s raised) (hp : s.pending = 0) {i : Uuid} {inv : Invoice}
    (hi : s.world.now.invoice i = some inv) :
    inv.status.atRest = true ∨ ∃ t, t.entry inv.status = true ∧ ⟨t, i⟩ ∈ raised := by
  cases ht : TaskName.of inv.status with
  | none => exact .inl ((h.rows i inv hi).atRest ht)
  | some t =>
    have hentry := TaskName.entry_iff.mpr ht
    refine .inr ⟨t, hentry, (h.awaited i inv t hi hentry).resolve_left fun hm => ?_⟩
    rw [hp] at hm
    simp at hm

/-- **The workers come to an end.** -/
theorem Owed.drained (h : Owed s []) {os : List (Option Message)} (hd : s.Drains env os s') :
    os.length + s'.load ≤ s.load ∧ (s'.pending ≠ 0 → ∃ o s'', s'.Works env o s'') ∧
      (s'.pending = 0 → ∀ i inv, s'.world.now.invoice i = some inv →
        inv.status.atRest = true ∨ ∃ t, t.entry inv.status = true ∧ some ⟨t, i⟩ ∈ os) := by
  refine ⟨hd.length_le, Chain.exists_works env, fun hp i inv hi => ?_⟩
  obtain ⟨raised, h', hmem⟩ := h.drains hd
  refine (h'.rest hp hi).imp_right fun ⟨t, ht, hm⟩ => ⟨t, ht, (hmem _ hm).resolve_left ?_⟩
  simp

end owed

/-! ## From the chain, and after a crash -/

section sweep
variable {env : Env} {s s' : Chain} {w : World} {os : List (Option Message)}

theorem rowOk_step {e : Event} (h : Rows (fun _ => RowOk) s.world) (hs : s.step env e = some s') :
    Rows (fun _ => RowOk) s'.world := by
  cases e with
  | request op =>
    rw [Chain.step] at hs
    split at hs <;> cases hs
    exact rowOk_of_acts h (Txn.wp_run (fun _ => rfl) (op.wp env s.world)).1
  | deliver m c again =>
    have hacts := (Txn.wp_run (fun _ => rfl) ((Op.call m.invoiceId c).wp env s.world)).1
    rw [Chain.step] at hs
    split at hs
    · split at hs <;> cases hs
      next hrun =>
        rw [Op.prog, hrun] at hacts
        exact rowOk_of_acts h hacts
    · cases hs
  | enqueue m =>
    rw [Chain.step] at hs
    split at hs <;> cases hs
    exact h

theorem rowOk_execute {es : List Event} (h : Rows (fun _ => RowOk) s.world) (hs : s.execute env es = some s') :
    Rows (fun _ => RowOk) s'.world := by
  induction es generalizing s with
  | nil =>
    cases hs
    exact h
  | cons e es ih =>
    obtain ⟨s₁, h₁, h₂⟩ := Option.bind_eq_some_iff.mp hs
    exact ih (rowOk_step h h₁) h₂

/-- **The workers finish what was requested**: whatever happened before, in
whatever order they take the messages, and whichever tasks raise. -/
theorem rest_of_chain {es : List Event} (hw : Initial w) (hs : Chain.execute env ⟨w, 0⟩ es = some s)
    (hd : s.Drains env os s') :
    os.length + s'.load ≤ s.load ∧ (s'.pending ≠ 0 → ∃ o s'', s'.Works env o s'') ∧
      (s'.pending = 0 → ∀ i inv, s'.world.now.invoice i = some inv →
        inv.status.atRest = true ∨ ∃ t, t.entry inv.status = true ∧ some ⟨t, i⟩ ∈ os) := by
  have hok := (chainOk_initial hw).execute es hs
  have howed : Owed s [] := ⟨rowOk_execute (Rows.initial hw) hs, fun i inv t hi ht => .inl (hok.awaited i inv t hi ht)⟩
  exact howed.drained hd

/-- Every message is lost; the task of each invoice that waits for one is
queued again. -/
def sweep (w : World) : Chain where
  world := { w with sent := [] }
  queued := (w.now.invoices.rows.filterMap fun inv => (TaskName.of inv.status).map (⟨·, inv.id⟩) : List Message)

theorem load_sweep_le (w : World) : (sweep w).load ≤ 9 * w.now.invoices.rows.length := by
  simp only [sweep, Chain.load, Multiset.map_coe, Multiset.sum_coe, List.map_nil, List.sum_nil, Nat.add_zero]
  induction w.now.invoices.rows with
  | nil => simp
  | cons inv rows ih =>
    rw [List.filterMap_cons, List.length_cons]
    cases TaskName.of inv.status with
    | none => exact ih.trans (by omega)
    | some t =>
      have hcost : t.remaining ≤ 5 := by cases t <;> decide
      simp only [Option.map_some, List.map_cons, List.sum_cons, Message.cost] at ih ⊢
      omega

/-- **A sweep repairs every crash**: from any world that serial runs reach,
their operations cut anywhere and their messages lost. -/
theorem rest_of_sweep (h : Reachable env w) (hd : (sweep w).Drains env os s') :
    os.length ≤ 9 * w.now.invoices.rows.length ∧ (s'.pending ≠ 0 → ∃ o s'', s'.Works env o s'') ∧
      (s'.pending = 0 → ∀ i inv, s'.world.now.invoice i = some inv →
        inv.status.atRest = true ∨ ∃ t, t.entry inv.status = true ∧ some ⟨t, i⟩ ∈ os) := by
  have howed : Owed (sweep w) [] := by
    refine ⟨h.rowOk, fun i inv t hi ht => .inl ?_⟩
    refine Multiset.mem_add.mpr (.inl (Multiset.mem_coe.mpr (List.mem_filterMap.mpr ⟨inv, (Table.mem_of_get? hi).1, ?_⟩)))
    rw [TaskName.entry_iff.mp ht, DB.id_of_invoice hi, Option.map_some]
  obtain ⟨hlen, hrest⟩ := howed.drained hd
  have hload := load_sweep_le w
  exact ⟨by omega, hrest⟩

end sweep

theorem rest_of_events : ∃ s os s', Chain.execute Sample.env ⟨Sample.world, 0⟩ Sample.events = some s ∧
    s.Drains Sample.env os s' ∧ s'.pending = 0 ∧ ∀ i inv, s'.world.now.invoice i = some inv →
      inv.status.atRest = true ∨ ∃ t, t.entry inv.status = true ∧ some ⟨t, i⟩ ∈ os := by
  obtain ⟨s, hs, -⟩ := Option.map_eq_some_iff.mp Sample.statusOf_events
  obtain ⟨os, s', hd, hp⟩ := Chain.exists_drained Sample.env s
  exact ⟨s, os, s', hs, hd, hp, (rest_of_chain Sample.world_initial hs hd).2.2 hp⟩

theorem rest_of_crash : ∃ os s',
    (sweep (Sample.after (Sample.decided 5 "first" Sample.plain))).Drains Sample.env os s' ∧ s'.pending = 0 ∧
      ∀ i inv, s'.world.now.invoice i = some inv →
        inv.status.atRest = true ∨ ∃ t, t.entry inv.status = true ∧ some ⟨t, i⟩ ∈ os := by
  obtain ⟨os, s', hd, hp⟩ := Chain.exists_drained Sample.env (sweep (Sample.after (Sample.decided 5 "first" Sample.plain)))
  exact ⟨os, s', hd, hp, (rest_of_sweep (Sample.reachable_after _) hd).2.2 hp⟩

end InvoiceOps
