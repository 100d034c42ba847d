/-
Eager mode against the workers. A request that runs its tasks inline leaves
the database and the storage that the same request and tasks leave one
after another (`served_request`), so what holds of serial runs holds in
eager mode; but no message waits, and so a task that raised is never run
again.
-/
import InvoiceOps.Facts.Sends
import InvoiceOps.Facts.Interleaved

namespace InvoiceOps

/-! ## One message -/

/-- How a program goes when its message is served on the spot (`b`) and when
it is left (`a`). -/
inductive AtOnce (S : Message → Prop) (serve : Serve) (w : World) (a b : Except Exn Unit × World) : Prop
  | silent : a.2.sent = w.sent → b = a → AtOnce S serve w a b
  | sent (m : Message) (w₁ : World) : S m → a.1 = .ok () → a.2.sent = w.sent ++ [m] → Txn.World.Same a.2 w₁ →
      w₁.sent = w.sent → Txn.World.Same (serve m w₁).2 b.2 → b.2.sent = (serve m w₁).2.sent →
      AtOnce S serve w a b

section atOnce
variable {env : Env} {S : Message → Prop} {serve : Serve} {w : World}

theorem Tx.eager_atOnce {p : Tx Unit} (h : Txn.Tail S true p) :
    AtOnce S serve w (Tx.eager Txn.leave p w) (Tx.eager serve p w) := by
  rw [Tx.eager_leave]
  have hserved := h.runInline serve (w := w) fun _ => rfl
  cases hserved with
  | silent hsent heq => exact .silent hsent (by rw [Tx.eager, heq])
  | sent m w₁ hm hsent hu hok hsame hsent₁ hserve hraise =>
    obtain ⟨a, ha⟩ := hok
    have hend : Txn.World.Same (serve m w₁).2 (Tx.eager serve p w).2 ∧
        (Tx.eager serve p w).2.sent = (serve m w₁).2.sent := by
      generalize hs : serve m w₁ = s at hserve hraise
      obtain ⟨r, w₂⟩ := s
      cases r with
      | ok u =>
        obtain ⟨-, hsame₂, hsent₂, -⟩ := hserve w₂ rfl
        exact ⟨hsame₂, hsent₂⟩
      | error e =>
        rw [Tx.eager, hraise e w₂ rfl]
        exact ⟨.refl w₂, rfl⟩
    exact .sent m w₁ hm ha hsent hsame hsent₁ hend.1 hend.2

/-- A handler that raises or returns, and does nothing else. -/
theorem recordRefused_eq (e : Exn) : ∃ x, recordRefused e = Txn.ofExcept x := by
  cases e <;> exact ⟨.error _, rfl⟩

theorem uiRefused_eq (e : Exn) : ∃ x, uiRefused e = Txn.ofExcept x := by
  cases e <;> first | exact ⟨.ok (), rfl⟩ | exact ⟨.error _, rfl⟩

/-- What an endpoint makes of how its service ended. -/
def decideEnd (answer : Exn → Except Exn Unit) :
    Except Exn Invoice × World × (DB → DB) → Except Exn Unit × World
  | (.ok _, w, u) => (.ok (), w.commit (u w.now))
  | (.error e, w, u) =>
    match answer e with
    | .ok () => (.ok (), w.commit (u w.now))
    | .error e => (.error e, w)

theorem decideEager_eq {service : Tx Invoice} {refused : Exn → Tx Unit} {answer : Exn → Except Exn Unit}
    (hrefused : ∀ e, refused e = Txn.ofExcept (answer e)) :
    decideEager serve service refused w = decideEnd answer (service.runInline serve w id) := by
  rw [decideEager]
  obtain ⟨r, w', u⟩ := service.runInline serve w id
  cases r with
  | ok inv => rfl
  | error e =>
    dsimp only [decideEnd]
    rw [hrefused, Txn.runInline_ofExcept]
    cases answer e <;> rfl

theorem decideEnd_sent (answer : Exn → Except Exn Unit) (r : Except Exn Invoice × World × (DB → DB)) :
    (decideEnd answer r).2.sent = r.2.1.sent := by
  obtain ⟨e | inv, w, u⟩ := r
  · rw [decideEnd]
    split <;> rfl
  · rfl

theorem decideEnd_same (answer : Exn → Except Exn Unit) (r : Except Exn Invoice × World × (DB → DB))
    (hu : r.2.2 = id) : Txn.World.Same r.2.1 (decideEnd answer r).2 := by
  obtain ⟨e | inv, w, u⟩ := r
  all_goals
    obtain rfl : u = id := hu
  · rw [decideEnd]
    split <;> exact ⟨rfl, rfl⟩
  · exact ⟨rfl, rfl⟩

theorem decideEager_atOnce {service : Tx Invoice} {refused : Exn → Tx Unit} {answer : Exn → Except Exn Unit}
    (h : Txn.Tail S true service) (hrefused : ∀ e, refused e = Txn.ofExcept (answer e)) :
    AtOnce S serve w (decideEager Txn.leave service refused w) (decideEager serve service refused w) := by
  rw [decideEager_eq hrefused, decideEager_eq hrefused, Txn.runInline_leave]
  have hserved := h.runInline serve (w := w) fun _ => rfl
  cases hserved with
  | silent hsent heq => exact .silent ((decideEnd_sent _ _).trans hsent) (by rw [heq])
  | sent m w₁ hm hsent hu hok hsame hsent₁ hserve hraise =>
    obtain ⟨a, ha⟩ := hok
    have hend : Txn.World.Same (serve m w₁).2 (decideEnd answer (service.runInline serve w id)).2 ∧
        (decideEnd answer (service.runInline serve w id)).2.sent = (serve m w₁).2.sent := by
      rw [decideEnd_sent]
      generalize hs : serve m w₁ = s at hserve hraise
      obtain ⟨r, w₂⟩ := s
      cases r with
      | ok u =>
        obtain ⟨-, hsame₂, hsent₂, hu₂⟩ := hserve w₂ rfl
        exact ⟨hsame₂.trans (decideEnd_same _ _ hu₂), hsent₂⟩
      | error e =>
        rw [hraise e w₂ rfl]
        exact ⟨decideEnd_same answer (.error e, w₂, id) rfl, rfl⟩
    refine .sent m w₁ hm ?_ ((decideEnd_sent _ _).trans hsent) ((decideEnd_same _ _ hu).symm.trans hsame) hsent₁
      hend.1 hend.2
    generalize service.run w id = r at ha
    obtain ⟨_, w', u⟩ := r
    subst ha
    rfl

/-- **Every operation**, its message served on the spot or left. -/
theorem Op.atOnce (env : Env) (serve : Serve) (op : Op) (w : World) :
    AtOnce (TaskName.Is op.next) serve w (op.eager env Txn.leave w) (op.eager env serve w) := by
  have htail := op.tail env
  cases op with
  | upload | uploadForm => exact Tx.eager_atOnce htail
  | call i c =>
    cases c with
    | decide isApproval actor reason =>
      exact decideEager_atOnce (tail_decideService _ _ _) fun e => (recordRefused_eq e).choose_spec
    | decideForm isApproval actor reason =>
      exact decideEager_atOnce (tail_decideService _ _ _) fun e => (uiRefused_eq e).choose_spec
    | _ => exact Tx.eager_atOnce htail

end atOnce

/-! ## The same, one after another -/

/-- The world after some operations, one after another, each to its end. -/
def serial (env : Env) (ops : List Op) (w : World) : World := ops.foldl (fun w op => ((op.prog env).run w id).2.1) w

/-- Tasks that start one another: in world `w` operation `op` sends the
message that the first of them serves, and so on; the last operation sends
none. -/
inductive Starts (env : Env) (d : Draws) : World → Op → List TaskName → Prop
  | last {w op} : ((op.prog env).run w id).2.1.sent = w.sent → Starts env d w op []
  | next {w op t ts} : ((op.prog env).run w id).2.1.sent = w.sent ++ [⟨t, op.row⟩] →
      Starts env d ((op.prog env).run w id).2.1 (.call op.row (d.call t)) ts → Starts env d w op (t :: ts)

/-- The deliveries of some tasks. -/
def Draws.calls (d : Draws) (i : Uuid) (ts : List TaskName) : List Op := ts.map fun t => .call i (d.call t)

/-- Requests, and the operations that they and the tasks they start are, run
from world `w`. -/
inductive Unfolds (env : Env) (w : World) : List (Draws × Op) → List Op → Prop
  | nil : Unfolds env w [] []
  | concat {reqs ops d op ts} : Unfolds env w reqs ops → Starts env d (serial env ops w) op ts →
      Unfolds env w (reqs ++ [(d, op)]) (ops ++ op :: d.calls op.row ts)

/-- Requests in eager mode, one after another. -/
def eagerRuns (env : Env) (reqs : List (Draws × Op)) (w : World) : World :=
  reqs.foldl (fun w r => (r.2.eagerRun env r.1 w).2) w

/-- In the run of `ops` from world `w`, task `t` ran on invoice `i`, as `inv`
has it, and raised. -/
def RaisedIn (env : Env) (w : World) (ops : List Op) (i : Uuid) (inv : Invoice) (t : TaskName) : Prop :=
  ∃ pre c post e, ops = pre ++ .call i c :: post ∧ c.task = some t ∧
    (serial env pre w).now.invoice i = some inv ∧ ((c.prog env i).run (serial env pre w) id).1 = .error e

/-- Where invoice `i` waits for a task, `p` holds. -/
def WaitsOnly (p : Invoice → TaskName → Prop) (d : DB) (i : Uuid) : Prop :=
  ∀ inv t, d.invoice i = some inv → t.entry inv.status = true → p inv t

/-- The task an operation is a delivery of. -/
def Op.task : Op → Option TaskName
  | .upload .. | .uploadForm .. => none
  | .call _ c => c.task

section serial
variable {env : Env} {w w₀ : World} {op : Op} {ops ops' : List Op} {i : Uuid}

theorem serial_append (ops ops' : List Op) (w : World) :
    serial env (ops ++ ops') w = serial env ops' (serial env ops w) := by simp [serial]

theorem serial_concat (ops : List Op) (op : Op) (w : World) :
    serial env (ops ++ [op]) w = ((op.prog env).run (serial env ops w) id).2.1 := by simp [serial]

theorem Reachable.serial (h : Reachable env w) (ops : List Op) : Reachable env (serial env ops w) := by
  induction ops using List.reverseRecOn with
  | nil => exact h
  | append_singleton ops op ih => exact serial_concat ops op w ▸ ih.run op

/-- Operations on one invoice leave the others alone. -/
theorem serial_frame (h : ∀ op ∈ ops, op.row = i) {j : Uuid} (hj : j ≠ i) :
    (serial env ops w).now.invoice j = w.now.invoice j := by
  induction ops using List.reverseRecOn with
  | nil => rfl
  | append_singleton ops op ih =>
    rw [serial_concat, frame_of_acts (Txn.wp_run (fun _ => rfl) (op.wp env _)).1 (by rw [h op (by simp)]; exact hj)]
    exact ih fun op hop => h op (by simp [hop])

theorem RaisedIn.append {inv : Invoice} {t : TaskName} (h : RaisedIn env w ops i inv t) (ops' : List Op) :
    RaisedIn env w (ops ++ ops') i inv t := by
  obtain ⟨pre, c, post, e, rfl, hc, hi, he⟩ := h
  exact ⟨pre, c, post ++ ops', e, by simp, hc, hi, he⟩

/-- An operation sends messages about its invoice. -/
theorem Op.Acts.sent_row {w₁ w₂ : World} (h : op.Acts env w w₁ w₂) :
    ∃ l, w₂.sent = w₁.sent ++ l ∧ ∀ m ∈ l, m.invoiceId = op.row := by
  have hupload : ∀ {i data filename contentType}, UploadAct env i data filename contentType w₁ w₂ →
      ∃ l, w₂.sent = w₁.sent ++ l ∧ ∀ m ∈ l, m.invoiceId = i := by
    intro i data filename contentType h
    cases h with
    | send => exact ⟨_, rfl, by simp⟩
    | _ => exact ⟨[], by simp, by simp⟩
  cases op with
  | upload | uploadForm => exact hupload h
  | call i c =>
    cases h with
    | send => exact ⟨_, rfl, by simp [Op.row]⟩
    | _ => exact ⟨[], by simp, by simp⟩

theorem sent_row_of_acts {w' : World} (h : Relation.ReflTransGen (op.Acts env w) w w') :
    ∃ l, w'.sent = w.sent ++ l ∧ ∀ m ∈ l, m.invoiceId = op.row := by
  induction h with
  | refl => exact ⟨[], by simp, by simp⟩
  | tail _ h ih =>
    obtain ⟨l, hl, hrow⟩ := ih
    obtain ⟨l', hl', hrow'⟩ := h.sent_row
    refine ⟨l ++ l', by rw [hl', hl, List.append_assoc], fun m hm => ?_⟩
    rcases List.mem_append.mp hm with hm | hm
    · exact hrow m hm
    · exact hrow' m hm

/-- **One operation**: after it, its invoice waits for a task just started, or
for one it waited for before, which has raised if it was this one. -/
theorem WaitsOnly.run (env : Env) {p : Invoice → TaskName → Prop} (h : WaitsOnly p w.now op.row) :
    WaitsOnly (fun inv t => ⟨t, op.row⟩ ∈ ((op.prog env).run w id).2.1.sent ∨
        p inv t ∧ w.now.invoice op.row = some inv ∧
          (op.task = some t → ∃ e, ((op.prog env).run w id).1 = .error e))
      ((op.prog env).run w id).2.1.now op.row := by
  have hend := (Txn.wp_run (fun _ => rfl) (op.wp env w)).2
  generalize (op.prog env).run w id = r at hend
  intro inv t hi ht
  have hsame : r.2.1.now.invoice op.row = w.now.invoice op.row →
      p inv t ∧ w.now.invoice op.row = some inv := fun hrow => ⟨h inv t (hrow ▸ hi) ht, hrow ▸ hi⟩
  obtain ⟨e | a, w', u⟩ := r
  · have hrow : w'.now.invoice op.row = w.now.invoice op.row := by
      cases op with
      | upload | uploadForm => rw [hend.2.1]
      | call i c => exact hend.2.row
    exact .inr ⟨(hsame hrow).1, (hsame hrow).2, fun _ => ⟨e, rfl⟩⟩
  · have hingested : ∀ {i}, op.row = i → op.task = none → Ingested i w w' → ⟨t, op.row⟩ ∈ w'.sent ∨
        p inv t ∧ w.now.invoice op.row = some inv ∧
          (op.task = some t → ∃ e, (Except.ok a : Except Exn Unit) = .error e) := by
      rintro i rfl htask h
      cases h with
      | found hnow =>
        have hrow := hsame (by rw [hnow])
        exact .inr ⟨hrow.1, hrow.2, fun hc => by rw [htask] at hc; cases hc⟩
      | created hi' hs hm =>
        rw [hi'] at hi
        cases hi
        rw [TaskName.entry_iff, hs] at ht
        cases ht
        exact .inl hm
    cases op with
    | upload | uploadForm => exact hingested rfl rfl hend.2
    | call i c =>
      cases hend.2 with
      | idle hat he =>
        have hrow := hsame (hat.row.trans hat.start.symm)
        refine .inr ⟨hrow.1, hrow.2, fun hc => ?_⟩
        have hstart := hrow.2
        rw [Op.row, hat.start] at hstart
        cases hstart
        rw [Call.entry_of_task hc, ht] at he
        cases he
      | refused hrow _ hnone =>
        rw [Op.row, hrow, hnone] at hi
        cases hi
      | moved hm hs =>
        obtain ⟨_, inv', -, hi', rfl, -⟩ := hm
        obtain rfl : inv' = inv := Option.some_injective _ (hi'.symm.trans hi)
        exact .inl (hs t (TaskName.entry_iff.mp ht))

end serial

/-! ## A chain of tasks -/

section chain
variable {env : Env} {w w₀ : World} {op : Op} {ops : List Op} {d : Draws}

theorem Draws.call_next (d : Draws) (t : TaskName) : (d.call t).next = t.next := by cases t <;> rfl

theorem Draws.call_task (d : Draws) (t : TaskName) : (d.call t).task = some t := by cases t <;> rfl

/-- A message served at once is an operation in eager mode. -/
theorem eagerDelay_succ (n : Nat) (m : Message) (w : World) :
    eagerDelay env d (n + 1) m w = (Op.call m.invoiceId (d.call m.task)).eager env (eagerDelay env d n) w := by
  obtain ⟨t, i⟩ := m
  cases t <;> rfl

/-- What an operation that runs its tasks at once comes to: the operation and
its tasks, one after another, with no message left; and its invoice waits
only for a task that raised. `ops` is the run that led to world `w`. -/
structure Unfolded (env : Env) (w₀ : World) (ops : List Op) (d : Draws) (op : Op) (ts : List TaskName) (w : World) :
    Prop where
  starts : Starts env d (serial env ops w₀) op ts
  sent : w.sent = []
  same : Txn.World.Same (serial env (ops ++ op :: d.calls op.row ts) w₀) w
  waits : WaitsOnly (RaisedIn env w₀ (ops ++ op :: d.calls op.row ts) op.row) w.now op.row

theorem serial_same (op : Op) (h : Txn.World.Same (serial env ops w₀) w) :
    ((op.prog env).run w id).1 = ((op.prog env).run (serial env ops w₀) id).1 ∧
      Txn.World.Same (serial env (ops ++ [op]) w₀) ((op.prog env).run w id).2.1 := by
  rw [serial_concat]
  obtain ⟨h₁, h₂, -⟩ := Txn.run_same (op.prog env) id h
  exact ⟨h₁, h₂⟩

/-- It sends in the serial run what it sends in this one. -/
theorem serial_sent (op : Op) (h : Txn.World.Same (serial env ops w₀) w) {l : List Message}
    (hl : ((op.prog env).run w id).2.1.sent = w.sent ++ l) :
    ((op.prog env).run (serial env ops w₀) id).2.1.sent = (serial env ops w₀).sent ++ l := by
  obtain ⟨l', h₁, h₂⟩ := Txn.run_sent (op.prog env) id h
  rw [h₁, List.append_cancel_left (h₂.symm.trans hl)]

/-- What an invoice waits for after an operation that started nothing for it. -/
theorem raisedIn_concat (hsame : Txn.World.Same (serial env ops w₀) w) {inv : Invoice} {t : TaskName}
    (h : op.task = some t ∨ RaisedIn env w₀ ops op.row inv t) (hi : w.now.invoice op.row = some inv)
    (hraise : op.task = some t → ∃ e, ((op.prog env).run w id).1 = .error e) :
    RaisedIn env w₀ (ops ++ [op]) op.row inv t := by
  rcases h with htask | h
  · obtain ⟨e, he⟩ := hraise htask
    cases op with
    | upload | uploadForm => cases htask
    | call i c =>
      have heq := (serial_same (.call i c) hsame).1
      exact ⟨ops, c, [], e, rfl, htask, hsame.now ▸ hi, heq ▸ he⟩
  · exact h.append _

/-- One link of the chain: `serve` does the rest. -/
theorem Op.unfolded_step {serve : Serve} (hsent : w.sent = []) (hsame : Txn.World.Same (serial env ops w₀) w)
    (hwaits : WaitsOnly (fun inv t => op.task = some t ∨ RaisedIn env w₀ ops op.row inv t) w.now op.row)
    (hserve : ∀ m w₁, op.next = some m.task → m.invoiceId = op.row → w₁.sent = [] →
      Txn.World.Same (serial env (ops ++ [op]) w₀) w₁ →
      WaitsOnly (fun inv t => m.task = t ∨ RaisedIn env w₀ (ops ++ [op]) op.row inv t) w₁.now op.row →
      ∃ ts, Unfolded env w₀ (ops ++ [op]) d (.call op.row (d.call m.task)) ts (serve m w₁).2) :
    ∃ ts, Unfolded env w₀ ops d op ts (op.eager env serve w).2 := by
  have hrun := hwaits.run env
  obtain ⟨-, hsame₁⟩ := serial_same op hsame
  have hacts := sent_row_of_acts (Txn.wp_run (fun _ => rfl) (op.wp env w)).1
  have honce := op.atOnce env serve w
  rw [op.eager_leave] at honce
  cases honce with
  | silent hs heq =>
    rw [heq]
    have hlast := serial_sent op hsame (hs.trans (List.append_nil _).symm)
    refine ⟨[], .last (hlast.trans (List.append_nil _)), hs.trans hsent, hsame₁, fun inv t hi ht => ?_⟩
    rcases hrun inv t hi ht with hm | ⟨hp, hi, hraise⟩
    · rw [hs, hsent] at hm
      cases hm
    · exact raisedIn_concat hsame hp hi hraise
  | sent m w₁ hm hok hs hsame₂ hsent₁ hend hsent₂ =>
    obtain ⟨l, hl, hrow⟩ := hacts
    obtain rfl : [m] = l := List.append_cancel_left (hs.symm.trans hl)
    have hmrow : m.invoiceId = op.row := hrow m (List.mem_singleton_self m)
    obtain ⟨ts, hu⟩ := hserve m w₁ hm hmrow (hsent₁.trans hsent) (hsame₁.trans hsame₂) fun inv t hi ht => by
      rcases hrun inv t (hsame₂.now ▸ hi) ht with hm | ⟨hp, hi, hraise⟩
      · rw [hs, hsent, List.nil_append, List.mem_singleton] at hm
        exact .inl (by rw [← hm])
      · exact .inr (raisedIn_concat hsame hp hi hraise)
    have hops : ops ++ op :: d.calls op.row (m.task :: ts) =
        ops ++ [op] ++ .call op.row (d.call m.task) :: d.calls op.row ts := by simp [Draws.calls]
    have hnext := serial_sent op hsame hs
    refine ⟨m.task :: ts, .next ?_ (serial_concat ops op w₀ ▸ hu.starts), hsent₂.trans hu.sent,
      hops ▸ hu.same.trans hend, hops ▸ ?_⟩
    · rw [hnext, ← hmrow]
    · rw [hend.now]
      exact hu.waits

/-- **A chain of tasks in eager mode**, by induction on the depth of the
chain. -/
theorem Op.unfolded (n : Nat) : ∀ {op : Op} {w : World} {ops : List Op}, (∀ t, op.next = some t → t.remaining ≤ n) →
    w.sent = [] → Txn.World.Same (serial env ops w₀) w →
    WaitsOnly (fun inv t => op.task = some t ∨ RaisedIn env w₀ ops op.row inv t) w.now op.row →
    ∃ ts, Unfolded env w₀ ops d op ts (op.eager env (eagerDelay env d n) w).2 := by
  induction n with
  | zero =>
    intro op w ops hn hsent hsame hwaits
    refine Op.unfolded_step hsent hsame hwaits fun m w₁ hm => absurd (hn _ hm) ?_
    cases m.task <;> decide
  | succ n ih =>
    intro op w ops hn hsent hsame hwaits
    refine Op.unfolded_step hsent hsame hwaits fun m w₁ hm hrow hsent₁ hsame₁ hwaits₁ => ?_
    rw [eagerDelay_succ, hrow]
    refine ih (fun t ht => ?_) hsent₁ hsame₁ fun inv t hi ht => ?_
    · have hlt := TaskName.remaining_next (d.call_next m.task ▸ ht : m.task.next = some t)
      have hle := hn _ hm
      omega
    · exact (hwaits₁ inv t hi ht).imp_left fun h => by rw [Op.task, d.call_task, h]

end chain

/-! ## Runs -/

section runs
variable {env : Env} {w w₀ : World} {reqs : List (Draws × Op)} {i : Uuid}

theorem Op.next_remaining (op : Op) : ∀ t, op.next = some t → t.remaining ≤ 5 := by
  intro t _
  cases t <;> decide

theorem waits_initial (h : Initial w) (i : Uuid) : WaitsOnly (fun _ _ => False) w.now i := by
  intro inv t hi
  have hmem := (Table.mem_of_get? hi).1
  rw [h.invoices] at hmem
  cases hmem

/-- What the run of `ops` from world `w₀` comes to in eager mode. -/
structure Ran (env : Env) (w₀ : World) (ops : List Op) (w : World) : Prop where
  sent : w.sent = []
  same : Txn.World.Same (serial env ops w₀) w
  waits : ∀ i, WaitsOnly (RaisedIn env w₀ ops i) w.now i

/-- **One request**, which leaves the other invoices alone. -/
theorem Ran.eagerRun {ops : List Op} (h : Ran env w₀ ops w) (d : Draws) (op : Op) :
    ∃ ts, Starts env d (serial env ops w₀) op ts ∧ Ran env w₀ (ops ++ op :: d.calls op.row ts) (op.eagerRun env d w).2 ∧
      ∀ j, j ≠ op.row → (op.eagerRun env d w).2.now.invoice j = w.now.invoice j := by
  obtain ⟨ts, hu⟩ := Op.unfolded (d := d) 5 op.next_remaining h.sent h.same fun inv t hi ht => .inr (h.waits _ inv t hi ht)
  have hframe : ∀ j, j ≠ op.row → (op.eagerRun env d w).2.now.invoice j = w.now.invoice j := by
    intro j hj
    have hserial : (serial env (op :: d.calls op.row ts) (serial env ops w₀)).now.invoice j =
        (serial env ops w₀).now.invoice j :=
      serial_frame (by simp [Draws.calls, Op.row]) hj
    rwa [← serial_append, ← hu.same.now, ← h.same.now] at hserial
  refine ⟨ts, hu.starts, ⟨hu.sent, hu.same, fun i => ?_⟩, hframe⟩
  by_cases hi : i = op.row
  · exact hi ▸ hu.waits
  · intro inv t hinv ht
    exact (h.waits i inv t (hframe i hi ▸ hinv) ht).append _

theorem eagerRuns_concat (reqs : List (Draws × Op)) (d : Draws) (op : Op) (w : World) :
    eagerRuns env (reqs ++ [(d, op)]) w = (op.eagerRun env d (eagerRuns env reqs w)).2 := by
  simp [eagerRuns]

/-- **A run in eager mode.** -/
theorem ran_eagerRuns (env : Env) (hw : Initial w₀) (reqs : List (Draws × Op)) :
    ∃ ops, Unfolds env w₀ reqs ops ∧ Ran env w₀ ops (eagerRuns env reqs w₀) := by
  induction reqs using List.reverseRecOn with
  | nil => exact ⟨[], .nil, hw.sent, .refl _, fun i inv t hi ht => (waits_initial hw i inv t hi ht).elim⟩
  | append_singleton reqs r ih =>
    obtain ⟨d, op⟩ := r
    obtain ⟨ops, hops, hran⟩ := ih
    obtain ⟨ts, hstarts, hran', -⟩ := hran.eagerRun d op
    exact ⟨_, hops.concat hstarts, eagerRuns_concat reqs d op w₀ ▸ hran'⟩

/-- **Eager mode is a run of the workers**: requests that run their tasks
inline leave the database and the storage that the same requests leave when
every task is run after the operation that started it, whichever of them
raise; and no message is left. -/
theorem serial_of_eagerRuns (env : Env) (hw : Initial w₀) (reqs : List (Draws × Op)) :
    ∃ ops, Unfolds env w₀ reqs ops ∧ Reachable env (serial env ops w₀) ∧
      (eagerRuns env reqs w₀).now = (serial env ops w₀).now ∧ (eagerRuns env reqs w₀).ext = (serial env ops w₀).ext ∧
      (eagerRuns env reqs w₀).sent = [] := by
  obtain ⟨ops, hops, hran⟩ := ran_eagerRuns env hw reqs
  exact ⟨ops, hops, (Reachable.start hw).serial ops, hran.same.now, hran.same.ext, hran.sent⟩

/-- **Only a task that raised is waited for.** -/
theorem raised_of_eagerRuns (hw : Initial w₀) (reqs : List (Draws × Op)) :
    ∃ ops, Unfolds env w₀ reqs ops ∧ Txn.World.Same (serial env ops w₀) (eagerRuns env reqs w₀) ∧
      ∀ i inv t, (eagerRuns env reqs w₀).now.invoice i = some inv → t.entry inv.status = true →
        RaisedIn env w₀ ops i inv t := by
  obtain ⟨ops, hops, hran⟩ := ran_eagerRuns env hw reqs
  exact ⟨ops, hops, hran.same, hran.waits⟩

/-! ## What waits, waits for good -/

/-- The store and the messages are as they were. -/
def Still (w w' : World) : Prop := w'.now = w.now ∧ w'.sent = w.sent

theorem Still.of_steps {w' : World} (h : Relation.ReflTransGen Still w w') : Still w w' := by
  induction h with
  | refl => exact ⟨rfl, rfl⟩
  | tail _ h ih => exact ⟨h.1.trans ih.1, h.2.trans ih.2⟩

/-- An upload that has drawn the uuid of an invoice inserts nothing. -/
theorem ingestUpload_taken_wp {inv : Invoice} (hi : w₀.now.invoice i = some inv) (data : Bytes)
    (filename contentType : String) :
    Txn.wp Eq Still (fun _ u _ => u = id) (fun _ u _ => u = id) (ingestUpload env i data filename contentType) w₀ id := by
  have htaken : ∀ w : World, w.now = w₀.now → insertable (newInvoice i data filename contentType) w.now = false := by
    intro w hw
    rw [insertable, hw, show (newInvoice i data filename contentType).id = i from rfl, hi]
    rfl
  refine Tx.wp_bind (Tx.wp_read ?_)
  rintro w rfl
  cases findByDigest (sha256Hex data) (id w₀.now) with
  | some existing => exact rfl
  | none =>
    refine Tx.wp_bind (Tx.wp_putObject (fun w => w.now = w₀.now) rfl (fun w w' h hP => h ▸ hP) ?_ ?_ ?_)
    · exact fun w d hP _ => ⟨hP, rfl, rfl⟩
    · intro w p d hP _ _ _ _
      refine ⟨⟨rfl, rfl⟩, Tx.wp_bind ((Txn.wp_tryCatch _ _ _ _).mpr
        (Tx.wp_map (flushInsert_wp (fun hins => ?_) fun _ => ?_)))⟩
      · rw [htaken (w.setExt d) hP] at hins
        cases hins
      · refine Tx.wp_bind (Tx.wp_bind (Tx.wp_read ?_))
        rintro w' rfl
        cases findByDigest (sha256Hex data) (id (w.setExt d).now) with
        | none => exact rfl
        | some winner => exact rfl
    · exact fun w e hP he => rfl

theorem still_uploadScope {body : Tx Unit} (h : Txn.wp Eq Still (fun _ u _ => u = id) (fun _ u _ => u = id) body w id) :
    Txn.wp Eq Still (fun _ _ _ => True) (fun _ _ _ => True) (Tx.sessionScope body) w id := by
  refine Tx.wp_sessionScope (Txn.wp_conseq (fun _ _ h => h) (fun _ _ h => h) (fun _ _ _ _ => trivial) ?_ _ h)
  rintro w u a rfl w' rfl
  exact ⟨⟨rfl, rfl⟩, trivial⟩

/-- **A request on an invoice that waits** does nothing. -/
theorem still_request {op : Op} {inv : Invoice} {t : TaskName} (hreq : op.isRequest = true)
    (hi : w.now.invoice op.row = some inv) (ht : t.entry inv.status = true) :
    Still w ((op.prog env).run w id).2.1 := by
  have hwp : Txn.wp Eq Still (fun _ _ _ => True) (fun _ _ _ => True) (op.prog env) w id := by
    cases op with
    | upload id data filename contentType | uploadForm id data filename contentType =>
      refine still_uploadScope ?_
      dsimp only
      cases hv : validateUpload env.settings data (orElseText (contentType.getD "") "application/octet-stream") with
      | error e =>
        obtain ⟨code, detail, rfl⟩ := validateUpload_error hv
        exact rfl
      | ok _ => exact Tx.wp_bind (Txn.wp_mono (ingestUpload_taken_wp hi _ _ _) fun _ _ _ h => h)
    | call i c =>
      obtain ⟨k, hk, hinert⟩ := c.guarded env i
      have hentry : c.entry inv.status = false := by
        cases c with
        | decide | decideForm => cases t <;> cases hs : inv.status <;> rw [hs] at ht <;> first | rfl | cases ht
        | _ => cases hreq
      have hquiet := hinert w.now w.ext fun inv' hi' => by
        obtain rfl := Option.some.inj (hi.symm.trans hi')
        exact hentry
      rw [Op.prog, hk]
      rintro w' rfl
      exact Txn.wp_conseq (fun _ _ h => h) (fun _ _ h => h) (fun _ _ _ _ => trivial) (fun _ _ _ _ => trivial) _
        (hquiet.wp (fun _ => ⟨rfl, rfl⟩) w)
  exact .of_steps (Txn.wp_run (fun _ => rfl) hwp).1

/-- **In eager mode nothing runs a task again**: an invoice that waits for one
is as it is whatever is requested from then on. -/
theorem stuck_of_eagerRuns (hw : Initial w₀) {inv : Invoice} {t : TaskName}
    (hi : (eagerRuns env reqs w₀).now.invoice i = some inv) (ht : t.entry inv.status = true)
    {later : List (Draws × Op)} (hlater : ∀ r ∈ later, r.2.isRequest = true) :
    (eagerRuns env (reqs ++ later) w₀).now.invoice i = some inv := by
  induction later using List.reverseRecOn with
  | nil => rwa [List.append_nil]
  | append_singleton later r ih =>
    obtain ⟨d, op⟩ := r
    have hrow := ih fun r hr => hlater r (by simp [hr])
    obtain ⟨ops, -, hran⟩ := ran_eagerRuns env hw (reqs ++ later)
    obtain ⟨ts, -, -, hframe⟩ := hran.eagerRun d op
    rw [← List.append_assoc, eagerRuns_concat]
    by_cases hop : i = op.row
    · subst hop
      have hstill : Still _ ((op.prog env).run (eagerRuns env (reqs ++ later) w₀) id).2.1 :=
        still_request (hlater (d, op) (by simp)) hrow ht
      have honce := op.atOnce env (eagerDelay env d 5) (eagerRuns env (reqs ++ later) w₀)
      rw [op.eager_leave] at honce
      cases honce with
      | silent _ heq =>
        rw [Op.eagerRun, heq, hstill.1]
        exact hrow
      | sent m w₁ _ _ hs =>
        rw [hstill.2] at hs
        simp at hs
    · rw [hframe i hop]
      exact hrow

end runs

namespace Sample

/-- The provider cannot be reached. -/
def down : Llm := fun _ _ _ _ => .raised "connection refused"

/-- An upload, with what its tasks draw. -/
def uploaded (p : Llm) : List (Draws × Op) :=
  [(⟨p, uuid 15, "2024-05-18T09:30:00+00:00"⟩,
    .upload (uuid 5) (document "first") (some "invoice.pdf") (some "application/pdf"))]

theorem statusOf_uploaded : statusOf (eagerRuns env (uploaded (provider plain)) world) 5 = some .exported ∧
    statusOf (eagerRuns env (uploaded down) world) 5 = some .received := by decide +kernel

end Sample

theorem serial_of_sample : ∃ ops, Unfolds Sample.env Sample.world (Sample.uploaded (Sample.provider Sample.plain)) ops ∧
    Sample.statusOf (serial Sample.env ops Sample.world) 5 = some .exported := by
  obtain ⟨ops, hops, -, hnow, -, -⟩ := serial_of_eagerRuns Sample.env Sample.world_initial
    (Sample.uploaded (Sample.provider Sample.plain))
  exact ⟨ops, hops, by rw [Sample.statusOf, ← hnow]; exact Sample.statusOf_uploaded.1⟩

theorem raised_of_sample : ∃ ops inv, Unfolds Sample.env Sample.world (Sample.uploaded Sample.down) ops ∧
    RaisedIn Sample.env Sample.world ops (Sample.uuid 5) inv .extractInvoice := by
  obtain ⟨inv, hi, hs⟩ := Option.map_eq_some_iff.mp Sample.statusOf_uploaded.2
  obtain ⟨ops, hops, -, hraised⟩ := raised_of_eagerRuns Sample.world_initial (Sample.uploaded Sample.down)
  exact ⟨ops, inv, hops, hraised _ _ _ hi (by rw [hs]; rfl)⟩

theorem stuck_of_sample : Sample.statusOf (eagerRuns Sample.env
    (Sample.uploaded Sample.down ++ Sample.uploaded (Sample.provider Sample.plain)) Sample.world) 5 = some .received := by
  obtain ⟨inv, hi, hs⟩ := Option.map_eq_some_iff.mp Sample.statusOf_uploaded.2
  have hstuck := stuck_of_eagerRuns (t := .extractInvoice) Sample.world_initial hi (by rw [hs]; rfl)
    (show ∀ r ∈ Sample.uploaded (Sample.provider Sample.plain), r.2.isRequest = true by
      simp [Sample.uploaded, Op.isRequest])
  rw [Sample.statusOf, hstuck, Option.map_some, hs]

end InvoiceOps
