/-
The queue with `task_always_eager` and `task_eager_propagates`: `.delay()`
runs its task at once, in the caller, and raises what the task raises. A
request then runs its whole chain of tasks before it answers.

`Call.eager` and `Op.eager` are the calls and operations of `Api.Decisions`
in front of any service of their messages; with `Txn.leave`, which leaves a
message to the workers, they are `Call.prog` and `Op.prog` again
(`Op.eager_leave`).
-/
import InvoiceOps.Lib.Inline
import InvoiceOps.Api.Decisions

namespace InvoiceOps

/-- What is done about a message when it is sent. -/
abbrev Serve := Message → World → Except Exn Unit × World

/-- What a chain of tasks draws: the provider's answers, and the uuid of the
artifact and the time of the export. -/
structure Draws where
  provider : Llm
  key : Uuid
  now : String

def Draws.call (d : Draws) : TaskName → Call
  | .extractInvoice => .extract d.provider
  | .matchInvoice => .matchVendor
  | .validateInvoice => .validate
  | .approveInvoice => .approve
  | .exportInvoice => .export d.key d.now

/-- A session from its start to its end. -/
def Tx.eager {α : Type} (serve : Serve) (p : Tx α) (w : World) : Except Exn α × World :=
  ((p.runInline serve w id).1, (p.runInline serve w id).2.1)

/-- `.delay()`, for chains of at most `depth` tasks: what is below is left. -/
def eagerDelay (env : Env) (d : Draws) : Nat → Serve
  | 0 => Txn.leave
  | depth + 1 => fun m w => Tx.eager (eagerDelay env d depth) ((d.call m.task).prog env m.invoiceId) w

/-! ## The endpoints -/

/-- The `except` clauses of `_record_decision`. -/
def recordRefused : Exn → Tx Unit
  | .valueError message => Tx.raise (.httpException 404 message)
  | e => if e.isRuntimeError then Tx.raise (.httpException 409 e.str) else Tx.raise e

/-- The `except` clauses of `_decide`. -/
def uiRefused : Exn → Tx Unit
  | .valueError _ => return ()
  | e => if e.isRuntimeError then return () else Tx.raise e

/-- A decision endpoint: `service`, with its `except` clauses, in a session
scope. They stand around the tasks that `service` runs, too. -/
def decideEager (serve : Serve) (service : Tx Invoice) (refused : Exn → Tx Unit) (w : World) : Except Exn Unit × World :=
  let handled : Except Exn Unit × World × (DB → DB) :=
    match service.runInline serve w id with
    | (.ok _, w', u) => (.ok (), w', u)
    | (.error e, w', u) => (refused e).runInline serve w' u
  match handled with
  | (.ok (), w', u) => (.ok (), w'.commit (u w'.now))
  | (.error e, w', _) => (.error e, w')

def Call.eager (env : Env) (serve : Serve) (id : Uuid) : Call → World → Except Exn Unit × World
  | .decide isApproval actor reason => decideEager serve (decideService id isApproval actor reason) recordRefused
  | .decideForm isApproval actor reason =>
    decideEager serve
      (decideService id isApproval (orElseText (env.py.strip actor) "reviewer")
        (if env.py.strip reason = "" then none else some (env.py.strip reason))) uiRefused
  | c => Tx.eager serve (c.prog env id)

/-- An upload handles no exception of the task it runs: the session scope
only rolls back, and nothing is pending when the task runs. -/
def Op.eager (env : Env) (serve : Serve) : Op → World → Except Exn Unit × World
  | .call id c => c.eager env serve id
  | op => Tx.eager serve (op.prog env)

/-- A request, to its end and that of the tasks it starts. -/
def Op.eagerRun (env : Env) (d : Draws) (op : Op) (w : World) : Except Exn Unit × World :=
  op.eager env (eagerDelay env d 5) w

/-! ## Left to the workers -/

section leave
variable {env : Env}

theorem Tx.eager_leave {α : Type} (p : Tx α) (w : World) : Tx.eager Txn.leave p w = ((p.run w id).1, (p.run w id).2.1) := by
  rw [Tx.eager, Txn.runInline_leave]

theorem Tx.run_sessionScope {α : Type} (body : Tx α) (w : World) (u : DB → DB) :
    ((Tx.sessionScope body).run w u).1 = (body.run w u).1 ∧
      ((Tx.sessionScope body).run w u).2.1 =
        match (body.run w u).1 with
        | .ok _ => (body.run w u).2.1.commit ((body.run w u).2.2 (body.run w u).2.1.now)
        | .error _ => (body.run w u).2.1 := by
  rw [Tx.sessionScope, Txn.run_tryCatch, Txn.run_bind]
  obtain ⟨r, w', u'⟩ := body.run w u
  cases r <;> exact ⟨rfl, rfl⟩

theorem recordDecision_eager (i : Uuid) (isApproval : Bool) (actor : String) (reason : Option String) (w : World) :
    decideEager Txn.leave (decideService i isApproval actor reason) recordRefused w =
      (((recordDecision i isApproval actor reason).run w id).1,
        ((recordDecision i isApproval actor reason).run w id).2.1) := by
  have hscope := fun (h : Exn → Tx Invoice) (k : Invoice → Tx Unit) =>
    Tx.run_sessionScope (Txn.tryCatch (decideService i isApproval actor reason) h >>= k) w id
  rw [recordDecision, (hscope _ _).1, (hscope _ _).2, Txn.run_bind, Txn.run_tryCatch, decideEager,
    Txn.runInline_leave]
  obtain ⟨r, w', u⟩ := (decideService i isApproval actor reason).run w id
  cases r with
  | ok inv => rfl
  | error e =>
    dsimp only
    rw [Txn.runInline_leave]
    cases e <;> rfl

theorem uiDecide_eager (i : Uuid) (isApproval : Bool) (actor reason : String) (w : World) :
    decideEager Txn.leave (decideService i isApproval (orElseText (env.py.strip actor) "reviewer")
        (if env.py.strip reason = "" then none else some (env.py.strip reason))) uiRefused w =
      (((uiDecide env i isApproval actor reason).run w id).1, ((uiDecide env i isApproval actor reason).run w id).2.1) := by
  have hscope := fun (p : Tx Unit) => Tx.run_sessionScope p w id
  rw [uiDecide, (hscope _).1, (hscope _).2, Txn.run_tryCatch, Txn.run_bind, decideEager, Txn.runInline_leave]
  obtain ⟨r, w', u⟩ := (decideService i isApproval (orElseText (env.py.strip actor) "reviewer")
    (if env.py.strip reason = "" then none else some (env.py.strip reason))).run w id
  cases r with
  | ok inv => rfl
  | error e =>
    dsimp only
    rw [Txn.runInline_leave]
    cases e <;> rfl

theorem Op.eager_leave (op : Op) (w : World) :
    op.eager env Txn.leave w = (((op.prog env).run w id).1, ((op.prog env).run w id).2.1) := by
  cases op with
  | upload | uploadForm => exact Tx.eager_leave _ w
  | call i c =>
    cases c with
    | decide isApproval actor reason => exact recordDecision_eager i isApproval actor reason w
    | decideForm isApproval actor reason => exact uiDecide_eager i isApproval actor reason w
    | _ => exact Tx.eager_leave _ w

end leave

end InvoiceOps
