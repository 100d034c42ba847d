/-
Sessions over one store, interleaved node by node. Every read sees what is
committed when it is made, a session's writes become visible at its commit,
and a commit overwrites whatever was committed since the session read: this
is read committed with no version check.

A `Discipline` is a rely-guarantee proof for a family of operations. Each
operation works on one key (`owner`) and acts only when its `guard` passes
on the store its first node saw; a flight whose guard passed holds its key
until it ends. `Discipline.SysOk.runs` says what follows for every run in
which no two flights hold one key at the same time (`Exclusive`): the
invariant holds in every state, and a key nobody holds satisfies `Free`.
-/
import InvoiceOps.Lib.Txn
import Mathlib.Logic.Function.Basic

namespace Txn

/-- A session in flight: the operation it runs and the store committed when
it took its first node (none before that). -/
structure Flight (Op σ τ μ ε : Type) (α : Type := Unit) where
  op : Op
  first : Option σ
  session : Session σ τ μ ε α

structure Sys (Op σ τ μ ε : Type) (α : Type := Unit) where
  world : World σ τ μ
  flights : Nat → Option (Flight Op σ τ μ ε α)

inductive Action (Op : Type) where
  /-- A session for `op` opens, as number `t`. -/
  | begin (t : Nat) (op : Op)
  /-- Session `t` does its next node. -/
  | advance (t : Nat)
  /-- Session `t` dies; what it had not committed is lost. -/
  | abort (t : Nat)

variable {Op κ σ τ μ ε : Type}

namespace Sys

variable {α : Type}

/-- No session is open. -/
def idle (w : World σ τ μ) : Sys Op σ τ μ ε α := ⟨w, fun _ => none⟩

/-- World `w` and slot `t` holding `o`. -/
def put (s : Sys Op σ τ μ ε α) (w : World σ τ μ) (t : Nat) (o : Option (Flight Op σ τ μ ε α)) : Sys Op σ τ μ ε α :=
  ⟨w, Function.update s.flights t o⟩

@[simp] theorem put_world (s : Sys Op σ τ μ ε α) (w t o) : (s.put w t o).world = w := rfl

@[simp] theorem put_self (s : Sys Op σ τ μ ε α) (w t o) : (s.put w t o).flights t = o :=
  Function.update_self ..

theorem put_other (s : Sys Op σ τ μ ε α) (w) {t t' : Nat} (o) (h : t' ≠ t) :
    (s.put w t o).flights t' = s.flights t' :=
  Function.update_of_ne h ..

/-- The flights after slot `t` is given `o`. -/
theorem put_cases {s : Sys Op σ τ μ ε α} {w : World σ τ μ} {t t' : Nat} {o : Option (Flight Op σ τ μ ε α)}
    {f : Flight Op σ τ μ ε α} (h : (s.put w t o).flights t' = some f) :
    t' = t ∧ o = some f ∨ t' ≠ t ∧ s.flights t' = some f := by
  by_cases hne : t' = t
  · subst hne
    rw [put_self] at h
    exact .inl ⟨rfl, h⟩
  · rw [put_other _ _ _ hne] at h
    exact .inr ⟨hne, h⟩

/-- What holds of any two flights, when one more is put in that has it with
each of the others. -/
theorem put_pair {s : Sys Op σ τ μ ε α} {P : Flight Op σ τ μ ε α → Flight Op σ τ μ ε α → Prop}
    (hsymm : ∀ {f f'}, P f f' → P f' f)
    (hold : ∀ {t₁ t₂ f₁ f₂}, t₁ ≠ t₂ → s.flights t₁ = some f₁ → s.flights t₂ = some f₂ → P f₁ f₂)
    {w : World σ τ μ} {t : Nat} {f : Flight Op σ τ μ ε α}
    (hnew : ∀ {t' f'}, t' ≠ t → s.flights t' = some f' → P f f') {t₁ t₂ : Nat} {f₁ f₂ : Flight Op σ τ μ ε α}
    (hne : t₁ ≠ t₂) (h₁ : (s.put w t (some f)).flights t₁ = some f₁)
    (h₂ : (s.put w t (some f)).flights t₂ = some f₂) : P f₁ f₂ := by
  rcases put_cases h₁ with ⟨he₁, hf₁⟩ | ⟨hne₁, hf₁⟩ <;> rcases put_cases h₂ with ⟨he₂, hf₂⟩ | ⟨hne₂, hf₂⟩
  · exact absurd (he₁.trans he₂.symm) hne
  · cases hf₁
    exact hnew hne₂ hf₂
  · cases hf₂
    exact hsymm (hnew hne₁ hf₁)
  · exact hold hne hf₁ hf₂

def step (prog : Op → Txn σ τ μ ε α) (s : Sys Op σ τ μ ε α) : Action Op → Option (Sys Op σ τ μ ε α)
  | .begin t op =>
    match s.flights t with
    | some _ => none
    | none => some (s.put s.world t (some ⟨op, none, start (prog op)⟩))
  | .advance t =>
    match s.flights t with
    | none => none
    | some f =>
      match Txn.step s.world f.session with
      | none => none
      | some (w, se) =>
        some (s.put w t (some ⟨f.op, some (f.first.getD s.world.now), se⟩))
  | .abort t =>
    match s.flights t with
    | none => none
    | some _ => some (s.put s.world t none)

/-! What each action needs and does. -/

section actions
variable {prog : Op → Txn σ τ μ ε α} {s s' : Sys Op σ τ μ ε α} {t : Nat}

theorem step_begin {op : Op} (h : s.step prog (.begin t op) = some s') :
    s.flights t = none ∧ s' = s.put s.world t (some ⟨op, none, start (prog op)⟩) := by
  cases hf : s.flights t <;> simp only [step, hf] at h <;> cases h
  exact ⟨rfl, rfl⟩

theorem step_advance (h : s.step prog (.advance t) = some s') : ∃ f w se, s.flights t = some f ∧
    Txn.step s.world f.session = some (w, se) ∧
    s' = s.put w t (some ⟨f.op, some (f.first.getD s.world.now), se⟩) := by
  cases hf : s.flights t with
  | none => simp only [step, hf] at h; cases h
  | some f =>
    cases hst : Txn.step s.world f.session with
    | none => simp only [step, hf, hst] at h; cases h
    | some r =>
      simp only [step, hf, hst] at h
      exact ⟨f, r.1, r.2, rfl, hst, (Option.some.inj h).symm⟩

theorem step_abort (h : s.step prog (.abort t) = some s') : ∃ f, s.flights t = some f ∧ s' = s.put s.world t none := by
  cases hf : s.flights t <;> simp only [step, hf] at h <;> cases h
  exact ⟨_, rfl, rfl⟩

end actions

/-- The state after a list of actions; none when one of them is not possible. -/
def execute (prog : Op → Txn σ τ μ ε α) (s : Sys Op σ τ μ ε α) : List (Action Op) → Option (Sys Op σ τ μ ε α)
  | [] => some s
  | a :: as => (s.step prog a).bind (execute prog · as)

/-- One action that `ok` allows. -/
def Next (prog : Op → Txn σ τ μ ε α) (ok : Sys Op σ τ μ ε α → Action Op → Prop)
    (s s' : Sys Op σ τ μ ε α) : Prop :=
  ∃ a, ok s a ∧ s.step prog a = some s'

/-- A run of actions that `ok` allows. -/
def Runs (prog : Op → Txn σ τ μ ε α) (ok : Sys Op σ τ μ ε α → Action Op → Prop) :
    Sys Op σ τ μ ε α → Sys Op σ τ μ ε α → Prop :=
  Relation.ReflTransGen (Next prog ok)

/-- A run of a schedule is one of every laxer schedule. -/
theorem Runs.mono {prog : Op → Txn σ τ μ ε α} {ok ok' : Sys Op σ τ μ ε α → Action Op → Prop}
    (h : ∀ s a, ok s a → ok' s a) {s s' : Sys Op σ τ μ ε α} (hr : Runs prog ok s s') : Runs prog ok' s s' := by
  induction hr with
  | refl => exact .refl
  | tail _ hn ih =>
    obtain ⟨a, ha, hs⟩ := hn
    exact ih.tail ⟨a, h _ a ha, hs⟩

theorem runs_of_execute {prog : Op → Txn σ τ μ ε α} : ∀ (as : List (Action Op))
    {s s' : Sys Op σ τ μ ε α}, s.execute prog as = some s' → Runs prog (fun _ _ => True) s s'
  | [], s, s', h => by cases h; exact .refl
  | a :: as, s, s', h => by
    simp only [execute, Option.bind_eq_some_iff] at h
    obtain ⟨s₁, h₁, h₂⟩ := h
    exact .head ⟨a, trivial, h₁⟩ (runs_of_execute as h₂)

/-- The messages an action sends, each with the session that sends it. -/
def sends (s : Sys Op σ τ μ ε α) : Action Op → List (Nat × μ)
  | .advance t =>
    match s.flights t with
    | some ⟨_, _, _, .send m _⟩ => [(t, m)]
    | _ => []
  | _ => []

/-- A run of actions that `ok` allows, with the messages sent in it. -/
inductive Logged (prog : Op → Txn σ τ μ ε α) (ok : Sys Op σ τ μ ε α → Action Op → Prop)
    (s : Sys Op σ τ μ ε α) : List (Nat × μ) → Sys Op σ τ μ ε α → Prop
  | refl : Logged prog ok s [] s
  | tail {log s₁ s₂} (a : Action Op) : Logged prog ok s log s₁ → ok s₁ a → s₁.step prog a = some s₂ →
      Logged prog ok s (log ++ s₁.sends a) s₂

/-- What is logged is what was sent. -/
theorem sent_of_step {prog : Op → Txn σ τ μ ε α} {s s' : Sys Op σ τ μ ε α} {a : Action Op}
    (h : s.step prog a = some s') : s'.world.sent = s.world.sent ++ (s.sends a).map Prod.snd := by
  cases a with
  | begin t op =>
    obtain ⟨-, rfl⟩ := step_begin h
    simp [sends]
  | advance t =>
    obtain ⟨⟨op, first, u, p⟩, w, se, hf, hst, rfl⟩ := step_advance h
    cases p <;> cases hst <;> simp [sends, hf]
  | abort t =>
    obtain ⟨-, -, rfl⟩ := step_abort h
    simp [sends]

theorem Logged.sent {prog : Op → Txn σ τ μ ε α} {ok : Sys Op σ τ μ ε α → Action Op → Prop}
    {s s' : Sys Op σ τ μ ε α} {log : List (Nat × μ)} (h : Logged prog ok s log s') :
    s'.world.sent = s.world.sent ++ log.map Prod.snd := by
  induction h with
  | refl => simp
  | tail a _ _ hs ih => rw [sent_of_step hs, ih, List.map_append, List.append_assoc]

end Sys

/-- An inert session changes nothing: it may commit, but what it found. -/
theorem Inert.step {w w' : World σ τ μ} {p : Txn σ τ μ ε Unit} {s' : Session σ τ μ ε Unit} (h : Inert p)
    (hs : Txn.step w ⟨id, p⟩ = some (w', s')) :
    (w' = w ∨ w' = w.commit w.now) ∧ s'.pending = id ∧ Inert s'.prog := by
  cases p with
  | ret a => cases hs
  | raise e => cases hs
  | read k => cases hs; exact ⟨.inl rfl, rfl, h _ _⟩
  | write f k => exact h.elim
  | emit f k => exact h.elim
  | commit k => cases hs; exact ⟨.inr rfl, rfl, h⟩
  | rollback k => cases hs; exact ⟨.inl rfl, rfl, h⟩
  | send m k => exact h.elim

/-- A rely-guarantee proof for the operations `prog`. -/
structure Discipline (prog : Op → Txn σ τ μ ε Unit) (κ : Type) where
  /-- The key an operation works on. -/
  owner : Op → κ
  /-- What the operation wants of the store before it does anything. -/
  guard : Op → σ → Prop
  /-- Holds in every state. -/
  Inv : World σ τ μ → Prop
  /-- Holds of every key that no flight holds. -/
  Free : κ → World σ τ μ → Prop
  /-- What a flight that holds the key lets others do. -/
  R : κ → World σ τ μ → World σ τ μ → Prop
  /-- What a flight that holds the key does. -/
  G : κ → World σ τ μ → World σ τ μ → Prop
  refl : ∀ k w, R k w w
  trans : ∀ k w₁ w₂ w₃, R k w₁ w₂ → R k w₂ w₃ → R k w₁ w₃
  inv_guar : ∀ {k w w'}, Inv w → G k w w' → Inv w'
  rely_guar : ∀ {k l w w'}, Inv w → k ≠ l → G k w w' → R l w w'
  inv_noop : ∀ {w}, Inv w → Inv (w.commit w.now)
  rely_noop : ∀ k w, R k w (w.commit w.now)
  free_rely : ∀ {k w w'}, Free k w → R k w w' → Free k w'
  /-- Every operation first reads; when its guard passes, it keeps the rules
  and leaves its key free again; when not, it changes nothing. -/
  spec : ∀ op, ∃ k, prog op = .read k ∧ ∀ w, Inv w →
    (guard op w.now → Free (owner op) w →
      wp (R (owner op)) (G (owner op)) (fun w _ _ => Free (owner op) w) (fun w _ _ => Free (owner op) w)
        (k w.now w.ext) w id) ∧
    (¬ guard op w.now → Inert (k w.now w.ext))

namespace Discipline

variable {prog : Op → Txn σ τ μ ε Unit} (D : Discipline prog κ)

/-- The flight's guard passed and it has not ended. -/
def Holds (f : Flight Op σ τ μ ε) : Prop :=
  f.session.prog.isDone = false ∧ ∃ d, f.first = some d ∧ D.guard f.op d

/-- **The schedule a discipline asks for**: when a session takes its first
node and its guard passes, no other flight holds its key; and a session
dies only where that leaves its key free. -/
def Exclusive (s : Sys Op σ τ μ ε) : Action Op → Prop
  | .begin _ _ => True
  | .advance t => ∀ f, s.flights t = some f → f.first = none → D.guard f.op s.world.now →
      ∀ t' f', t' ≠ t → s.flights t' = some f' → D.owner f'.op = D.owner f.op → ¬ D.Holds f'
  | .abort t => ∀ f, s.flights t = some f → D.Holds f → D.Free (D.owner f.op) s.world

/-- What is known of a flight in world `w`. -/
def FlightOk (w : World σ τ μ) (f : Flight Op σ τ μ ε) : Prop :=
  match f.first with
  | none => f.session = start (prog f.op)
  | some d => f.session.prog.isDone = true ∨
      (D.guard f.op d ∧ wp (D.R (D.owner f.op)) (D.G (D.owner f.op)) (fun w _ _ => D.Free (D.owner f.op) w)
        (fun w _ _ => D.Free (D.owner f.op) w) f.session.prog w f.session.pending) ∨
      (¬ D.guard f.op d ∧ f.session.pending = id ∧ Inert f.session.prog)

structure SysOk (s : Sys Op σ τ μ ε) : Prop where
  inv : D.Inv s.world
  flight : ∀ {t f}, s.flights t = some f → D.FlightOk s.world f
  excl : ∀ {t t' f f'}, t ≠ t' → s.flights t = some f → s.flights t' = some f' →
    D.Holds f → D.Holds f' → D.owner f.op ≠ D.owner f'.op
  free : ∀ k, (∀ t f, s.flights t = some f → D.Holds f → D.owner f.op ≠ k) → D.Free k s.world

/-- Two flights that hold keys hold different ones. -/
def Apart (f f' : Flight Op σ τ μ ε) : Prop :=
  D.Holds f → D.Holds f' → D.owner f.op ≠ D.owner f'.op

/-- No flight but number `t` holds key `k`. -/
def Unheld (s : Sys Op σ τ μ ε) (t : Nat) (k : κ) : Prop :=
  ∀ t' f, t' ≠ t → s.flights t' = some f → D.Holds f → D.owner f.op ≠ k

/-- What one node of flight `f` does to world and rules when it makes the
flight `f'`: no key but its own notices. -/
structure Advanced (s : Sys Op σ τ μ ε) (t : Nat) (f : Flight Op σ τ μ ε) (w : World σ τ μ)
    (f' : Flight Op σ τ μ ε) : Prop where
  inv : D.Inv w
  flight : D.FlightOk w f'
  rely : ∀ k, (D.Holds f → k ≠ D.owner f.op) → D.R k s.world w
  excl : D.Holds f' → D.Unheld s t (D.owner f.op)
  free : ¬ D.Holds f' → D.Unheld s t (D.owner f.op) → D.Free (D.owner f.op) w

theorem sysOk_idle {w : World σ τ μ} (hinv : D.Inv w) (hfree : ∀ k, D.Free k w) : D.SysOk (.idle w) where
  inv := hinv
  flight h := by cases h
  excl _ h := by cases h
  free k _ := hfree k

variable {D}

theorem not_holds_of_first {f : Flight Op σ τ μ ε} (h : f.first = none) : ¬ D.Holds f := by
  rintro ⟨-, d, hd, -⟩
  rw [h] at hd
  cases hd

/-- A flight is not disturbed by a change its rely allows, and one that
holds nothing by no change. -/
theorem FlightOk.rely {w w' : World σ τ μ} {f : Flight Op σ τ μ ε} (h : D.FlightOk w f)
    (hR : D.Holds f → D.R (D.owner f.op) w w') : D.FlightOk w' f := by
  unfold FlightOk at h ⊢
  cases hf : f.first with
  | none => rw [hf] at h; exact h
  | some d =>
    rw [hf] at h
    rcases h with h | ⟨hg, hwp⟩ | h
    · exact .inl h
    · cases hd : f.session.prog.isDone with
      | true => exact .inl rfl
      | false =>
        refine .inr (.inl ⟨hg, wp_rely (D.trans _) ?_ ?_ (hR ⟨hd, d, hf, hg⟩) hwp⟩)
        · exact fun _ _ _ _ hR hF => D.free_rely hF hR
        · exact fun _ _ _ _ hR hF => D.free_rely hF hR
    · exact .inr (.inr h)

/-- An ended flight that held its key has left it free. -/
theorem free_of_isDone {k : κ} {w : World σ τ μ} {p : Txn σ τ μ ε Unit} {u : σ → σ}
    (h : wp (D.R k) (D.G k) (fun w _ _ => D.Free k w) (fun w _ _ => D.Free k w) p w u)
    (hd : p.isDone = true) : D.Free k w := by
  cases p with
  | ret a => exact h
  | raise e => exact h
  | _ => cases hd

theorem Apart.symm {f f' : Flight Op σ τ μ ε} (h : D.Apart f f') : D.Apart f' f :=
  fun hh hh' => (h hh' hh).symm

section step
variable {s s' : Sys Op σ τ μ ε} {t : Nat} {f : Flight Op σ τ μ ε}

/-- A key that neither flight `t` nor any other holds is free. -/
theorem SysOk.free_of_unheld (h : D.SysOk s) (hf : s.flights t = some f) {k : κ}
    (hown : D.Holds f → D.owner f.op ≠ k) (hothers : D.Unheld s t k) : D.Free k s.world := by
  refine h.free k fun t' f' hf' hh => ?_
  by_cases hne : t' = t
  · subst hne
    rw [hf] at hf'
    cases hf'
    exact hown hh
  · exact hothers t' f' hne hf' hh

/-- The first node only reads; from then on the guard has passed or not. -/
theorem advanced_first (h : D.SysOk s) (hf : s.flights t = some f) (hex : D.Exclusive s (.advance t))
    (hfirst : f.first = none) (hstart : f.session = start (prog f.op)) {w : World σ τ μ}
    {se : Session σ τ μ ε Unit} (hs : Txn.step s.world f.session = some (w, se)) :
    D.Advanced s t f w ⟨f.op, some s.world.now, se⟩ := by
  obtain ⟨k, hk, hspec⟩ := D.spec f.op
  rw [hstart, start, hk] at hs
  cases hs
  obtain ⟨hpass, hfail⟩ := hspec s.world h.inv
  have hothers : D.guard f.op s.world.now → D.Unheld s t (D.owner f.op) :=
    fun hg t' f' hne hf' hh ho => hex f hf hfirst hg t' f' hne hf' ho hh
  have hfree : D.Unheld s t (D.owner f.op) → D.Free (D.owner f.op) s.world :=
    h.free_of_unheld hf fun hh => absurd hh (not_holds_of_first hfirst)
  constructor
  case inv => exact h.inv
  case flight =>
    by_cases hg : D.guard f.op s.world.now
    · exact .inr (.inl ⟨hg, hpass hg (hfree (hothers hg))⟩)
    · exact .inr (.inr ⟨hg, rfl, hfail hg⟩)
  case rely => exact fun k _ => D.refl k _
  case excl =>
    rintro ⟨-, d, hd, hg⟩
    cases hd
    exact hothers hg
  case free => exact fun _ => hfree

/-- A flight whose guard passed does what its key's guarantee says. -/
theorem advanced_held (h : D.SysOk s) (hf : s.flights t = some f) {d : σ} (hfirst : f.first = some d)
    (hg : D.guard f.op d) (hwp : wp (D.R (D.owner f.op)) (D.G (D.owner f.op)) (fun w _ _ => D.Free (D.owner f.op) w)
      (fun w _ _ => D.Free (D.owner f.op) w) f.session.prog s.world f.session.pending)
    {w : World σ τ μ} {se : Session σ τ μ ε Unit} (hs : Txn.step s.world f.session = some (w, se)) :
    D.Advanced s t f w ⟨f.op, some d, se⟩ := by
  have hholds : D.Holds f := ⟨isDone_of_step hs, d, hfirst, hg⟩
  obtain ⟨hw, hwp'⟩ := wp_step (D.refl _) hwp hs
  constructor
  case inv =>
    rcases hw with rfl | hw
    · exact h.inv
    · exact D.inv_guar h.inv hw
  case flight => exact .inr (.inl ⟨hg, hwp'⟩)
  case rely =>
    intro k hk
    rcases hw with rfl | hw
    · exact D.refl _ _
    · exact D.rely_guar h.inv (hk hholds).symm hw
  case excl => exact fun _ t' f' hne hf' hh => h.excl hne hf' hf hh hholds
  case free =>
    intro hended _
    refine free_of_isDone hwp' ?_
    by_contra hdone
    exact hended ⟨by simpa using hdone, d, rfl, hg⟩

/-- A flight whose guard failed changes nothing. -/
theorem advanced_inert (h : D.SysOk s) (hf : s.flights t = some f) {d : σ} (hfirst : f.first = some d)
    (hg : ¬ D.guard f.op d) (hu : f.session.pending = id) (hin : Inert f.session.prog)
    {w : World σ τ μ} {se : Session σ τ μ ε Unit} (hs : Txn.step s.world f.session = some (w, se)) :
    D.Advanced s t f w ⟨f.op, some d, se⟩ := by
  have hse : f.session = ⟨id, f.session.prog⟩ := by rw [← hu]
  rw [hse] at hs
  obtain ⟨hw, hu', hin'⟩ := hin.step hs
  have hnot : ∀ {f' : Flight Op σ τ μ ε}, f'.op = f.op → f'.first = some d → ¬ D.Holds f' := by
    rintro f' ho hd ⟨-, d', hd', hg'⟩
    rw [hd] at hd'
    cases hd'
    rw [ho] at hg'
    exact hg hg'
  constructor
  case inv =>
    rcases hw with rfl | rfl
    · exact h.inv
    · exact D.inv_noop h.inv
  case flight => exact .inr (.inr ⟨hg, hu', hin'⟩)
  case rely =>
    intro k _
    rcases hw with rfl | rfl
    · exact D.refl _ _
    · exact D.rely_noop _ _
  case excl => exact fun hh => absurd hh (hnot rfl rfl)
  case free =>
    intro _ hothers
    have hfree := h.free_of_unheld hf (fun hh => absurd hh (hnot rfl hfirst)) hothers
    rcases hw with rfl | rfl
    · exact hfree
    · exact D.free_rely hfree (D.rely_noop _ _)

theorem SysOk.advanced (h : D.SysOk s) (hf : s.flights t = some f) (hex : D.Exclusive s (.advance t))
    {w : World σ τ μ} {se : Session σ τ μ ε Unit} (hs : Txn.step s.world f.session = some (w, se)) :
    D.Advanced s t f w ⟨f.op, some (f.first.getD s.world.now), se⟩ := by
  have hok := h.flight hf
  unfold FlightOk at hok
  cases hfirst : f.first with
  | none =>
    rw [hfirst] at hok
    exact advanced_first h hf hex hfirst hok hs
  | some d =>
    rw [hfirst] at hok
    rcases hok with hdone | ⟨hg, hwp⟩ | ⟨hg, hu, hin⟩
    · rw [isDone_of_step hs] at hdone
      cases hdone
    · exact advanced_held h hf hfirst hg hwp hs
    · exact advanced_inert h hf hfirst hg hu hin hs

theorem SysOk.begin (h : D.SysOk s) (hfree : s.flights t = none) {op : Op} :
    D.SysOk (s.put s.world t (some ⟨op, none, start (prog op)⟩)) := by
  constructor
  case inv => exact h.inv
  case flight =>
    intro t' f' hf'
    rcases Sys.put_cases hf' with ⟨-, he⟩ | ⟨-, he⟩
    · cases he
      exact rfl
    · exact h.flight he
  case excl =>
    intro t₁ t₂ f₁ f₂ hne h₁ h₂
    refine Sys.put_pair (P := D.Apart) Apart.symm h.excl ?_ hne h₁ h₂
    exact fun _ _ hh => absurd hh (not_holds_of_first rfl)
  case free =>
    intro k hk
    refine h.free k fun t' f' hf' => hk t' f' ?_
    rw [Sys.put_other _ _ _ fun he => by rw [he, hfree] at hf'; cases hf']
    exact hf'

theorem SysOk.advance (h : D.SysOk s) (hf : s.flights t = some f) {w : World σ τ μ} {f' : Flight Op σ τ μ ε}
    (hop : f'.op = f.op) (ha : D.Advanced s t f w f') : D.SysOk (s.put w t (some f')) := by
  constructor
  case inv => exact ha.inv
  case flight =>
    intro t' g hg
    rcases Sys.put_cases hg with ⟨-, he⟩ | ⟨hne, he⟩
    · cases he
      exact ha.flight
    · exact (h.flight he).rely fun hh => ha.rely _ fun hh' => h.excl hne he hf hh hh'
  case excl =>
    intro t₁ t₂ f₁ f₂ hne h₁ h₂
    refine Sys.put_pair (P := D.Apart) Apart.symm h.excl ?_ hne h₁ h₂
    intro t' g hne' hg hh hh'
    rw [hop]
    exact (ha.excl hh t' g hne' hg hh').symm
  case free =>
    intro k hk
    have hothers : D.Unheld s t k :=
      fun t' g hne hg => hk t' g (by rw [Sys.put_other _ _ _ hne]; exact hg)
    -- A key the flight does not own was free before; its own it has just left.
    by_cases hkf : k = D.owner f.op
    · subst hkf
      exact ha.free (fun hh => hk t _ (Sys.put_self ..) hh (congrArg D.owner hop)) hothers
    · exact D.free_rely (h.free_of_unheld hf (fun _ he => hkf he.symm) hothers) (ha.rely k fun _ => hkf)

theorem SysOk.abort (h : D.SysOk s) (hf : s.flights t = some f) (hex : D.Exclusive s (.abort t)) :
    D.SysOk (s.put s.world t none) := by
  have hold : ∀ {t' f'}, (s.put s.world t none).flights t' = some f' → s.flights t' = some f' := by
    intro t' f' hf'
    rcases Sys.put_cases hf' with ⟨-, he⟩ | ⟨-, he⟩
    · cases he
    · exact he
  constructor
  case inv => exact h.inv
  case flight => exact fun hf' => h.flight (hold hf')
  case excl => exact fun hne h₁ h₂ => h.excl hne (hold h₁) (hold h₂)
  case free =>
    intro k hk
    by_cases hkf : D.Holds f ∧ D.owner f.op = k
    · obtain ⟨hh, rfl⟩ := hkf
      exact hex f hf hh
    · refine h.free_of_unheld hf (fun hh he => hkf ⟨hh, he⟩) fun t' g hne hg => hk t' g ?_
      rw [Sys.put_other _ _ _ hne]
      exact hg

/-- **One action of an exclusive schedule keeps everything.** -/
theorem SysOk.step (h : D.SysOk s) {a : Action Op} (hex : D.Exclusive s a) (hs : s.step prog a = some s') :
    D.SysOk s' := by
  cases a with
  | begin t op =>
    obtain ⟨hf, rfl⟩ := Sys.step_begin hs
    exact h.begin hf
  | advance t =>
    obtain ⟨f, w, se, hf, hst, rfl⟩ := Sys.step_advance hs
    exact h.advance hf rfl (h.advanced hf hex hst)
  | abort t =>
    obtain ⟨f, hf, rfl⟩ := Sys.step_abort hs
    exact h.abort hf hex

end step

/-- **Soundness.** In every run of an exclusive schedule from a state where
the rules hold, they hold in every state. -/
theorem SysOk.runs {s s' : Sys Op σ τ μ ε} (h : D.SysOk s) (hr : Sys.Runs prog D.Exclusive s s') :
    D.SysOk s' := by
  induction hr with
  | refl => exact h
  | tail _ hn ih =>
    obtain ⟨a, hex, hs⟩ := hn
    exact ih.step hex hs

end Discipline

/-! ## A schedule checked as it runs -/

namespace Sys

variable {α : Type} {prog : Op → Txn σ τ μ ε α} {ok : Sys Op σ τ μ ε α → Action Op → Prop}

/-- The state after a list of actions; none when one of them is not possible
or not allowed. -/
def executeIf (prog : Op → Txn σ τ μ ε α) (ok : Sys Op σ τ μ ε α → Action Op → Prop) [∀ s a, Decidable (ok s a)]
    (s : Sys Op σ τ μ ε α) : List (Action Op) → Option (Sys Op σ τ μ ε α)
  | [] => some s
  | a :: as => if ok s a then (s.step prog a).bind (executeIf prog ok · as) else none

theorem runs_of_executeIf [∀ s a, Decidable (ok s a)] : ∀ (as : List (Action Op)) {s s' : Sys Op σ τ μ ε α},
    s.executeIf prog ok as = some s' → Runs prog ok s s'
  | [], s, s', h => by cases h; exact .refl
  | a :: as, s, s', h => by
    rw [executeIf] at h
    split at h
    · next hok =>
      obtain ⟨s₁, h₁, h₂⟩ := Option.bind_eq_some_iff.mp h
      exact .head ⟨a, hok, h₁⟩ (runs_of_executeIf as h₂)
    · cases h

/-- Of sessions `0` to `n - 1`, each takes a node only when `apart` holds of
it and every other one, and none dies. -/
def Apart (n : Nat) (apart : σ → Flight Op σ τ μ ε α → Flight Op σ τ μ ε α → Prop) (s : Sys Op σ τ μ ε α) :
    Action Op → Prop
  | .begin t _ => t < n
  | .advance t => ∀ f ∈ s.flights t, ∀ t' < n, t' ≠ t → ∀ f' ∈ s.flights t', apart s.world.now f f'
  | .abort _ => False

instance {n : Nat} {apart : σ → Flight Op σ τ μ ε α → Flight Op σ τ μ ε α → Prop}
    [∀ d f f', Decidable (apart d f f')] (s : Sys Op σ τ μ ε α) : ∀ a, Decidable (s.Apart n apart a)
  | .begin t _ => inferInstanceAs (Decidable (t < n))
  | .advance t => inferInstanceAs (Decidable
      (∀ f ∈ s.flights t, ∀ t' < n, t' ≠ t → ∀ f' ∈ s.flights t', apart s.world.now f f'))
  | .abort _ => inferInstanceAs (Decidable False)

/-- What is checked of finitely many sessions holds of all there are. -/
theorem Runs.of_apart {n : Nat} {apart : σ → Flight Op σ τ μ ε α → Flight Op σ τ μ ε α → Prop}
    (hbegin : ∀ s t op, ok s (.begin t op))
    (hadvance : ∀ s t, (∀ f t' f', s.flights t = some f → t' ≠ t → s.flights t' = some f' →
      apart s.world.now f f') → ok s (.advance t))
    {s s' : Sys Op σ τ μ ε α} (hn : ∀ t ≥ n, s.flights t = none) (hr : Runs prog (Apart n apart) s s') :
    Runs prog ok s s' := by
  suffices h : Runs prog ok s s' ∧ ∀ t ≥ n, s'.flights t = none from h.1
  induction hr with
  | refl => exact ⟨.refl, hn⟩
  | @tail s₁ s₂ _ hnext ih =>
    obtain ⟨hr, hn₁⟩ := ih
    obtain ⟨a, ha, hs⟩ := hnext
    have hlt : ∀ {t f}, s₁.flights t = some f → t < n := by
      intro t f hf
      by_contra hge
      rw [hn₁ t (by omega)] at hf
      cases hf
    cases a with
    | begin t op =>
      refine ⟨hr.tail ⟨_, hbegin s₁ t op, hs⟩, fun t' ht' => ?_⟩
      obtain ⟨-, rfl⟩ := step_begin hs
      rw [put_other _ _ _ (by have : t < n := ha; omega)]
      exact hn₁ t' ht'
    | advance t =>
      refine ⟨hr.tail ⟨_, hadvance s₁ t fun f t' f' hf hne hf' => ha f hf t' (hlt hf') hne f' hf', hs⟩,
        fun t' ht' => ?_⟩
      obtain ⟨f, w, se, hf, -, rfl⟩ := step_advance hs
      rw [put_other _ _ _ (by have := hlt hf; omega)]
      exact hn₁ t' ht'
    | abort t => exact ha.elim

end Sys

end Txn
