/-
Programs judged by their writes alone: `Writes K` holds of a program whose
every write takes a store to a `K`-related one, whatever the program reads
and whatever store the write is applied to. No schedule can get around
that (`Sys.Writing.execute`): from any state of a run to any later one, the
store changes only as the operations begun in the run may change it.
`Session.Writing.exec` is the case of a session alone.
-/
import InvoiceOps.Lib.ReadCommitted

namespace Txn

variable {Op σ τ μ ε α β : Type}

/-- Every write of the program is a `K`. -/
def Writes (K : σ → σ → Prop) : Txn σ τ μ ε α → Prop
  | .ret _ | .raise _ => True
  | .read k => ∀ s t, Writes K (k s t)
  | .write f k => (∀ d, K d (f d)) ∧ Writes K k
  | .emit _ k => ∀ r, Writes K (k r)
  | .commit k | .rollback k | .send _ k => Writes K k

section closure
variable {K K' : σ → σ → Prop}

theorem Writes.bind {p : Txn σ τ μ ε α} {f : α → Txn σ τ μ ε β} (hf : ∀ a, Writes K (f a)) :
    Writes K p → Writes K (p >>= f) := by
  change Writes K p → Writes K (p.bind f)
  induction p with
  | ret a => exact fun _ => hf a
  | raise e => exact fun _ => trivial
  | read k ih => exact fun h s t => ih s t (h s t)
  | write g k ih => exact fun h => ⟨h.1, ih h.2⟩
  | emit g k ih => exact fun h r => ih r (h r)
  | commit k ih => exact ih
  | rollback k ih => exact ih
  | send m k ih => exact ih

theorem Writes.tryCatch {p : Txn σ τ μ ε α} {h : ε → Txn σ τ μ ε α} (hh : ∀ e, Writes K (h e)) :
    Writes K p → Writes K (p.tryCatch h) := by
  induction p with
  | ret a => exact fun _ => trivial
  | raise e => exact fun _ => hh e
  | read k ih => exact fun h s t => ih s t (h s t)
  | write g k ih => exact fun h => ⟨h.1, ih h.2⟩
  | emit g k ih => exact fun h r => ih r (h r)
  | commit k ih => exact ih
  | rollback k ih => exact ih
  | send m k ih => exact ih

/-- What follows a query may use that its answer is one of some store. -/
theorem Writes.query_bind {q : σ → α} {f : α → Txn σ τ μ ε β} (h : ∀ s, Writes K (f (q s))) :
    Writes K (query q >>= f) := fun s _ => h s

end closure

/-! ## Judgements -/

theorem bind_ret (p : Txn σ τ μ ε α) : p >>= .ret = p := by
  change p.bind .ret = p
  induction p with
  | ret a => rfl
  | raise e => rfl
  | read k ih => exact congrArg Txn.read (funext fun s => funext fun t => ih s t)
  | write f k ih => exact congrArg (Txn.write f) ih
  | emit f k ih => exact congrArg (Txn.emit f) (funext ih)
  | commit k ih => exact congrArg Txn.commit ih
  | rollback k ih => exact congrArg Txn.rollback ih
  | send m k ih => exact congrArg (Txn.send m) ih

/-- A property of programs that ends and reads have, and that the parts of a
program hand on to the whole. -/
structure Judgement (P : ∀ ⦃α : Type⦄, Txn σ τ μ ε α → Prop) : Prop where
  ret : ∀ {α : Type} (a : α), P (.ret a)
  raise : ∀ {α : Type} (e : ε), P (.raise e : Txn σ τ μ ε α)
  query_bind : ∀ {α β : Type} {q : σ → α} {f : α → Txn σ τ μ ε β}, (∀ s, P (f (q s))) → P (query q >>= f)
  queryExt : ∀ {α : Type} (q : τ → α), P (queryExt q)
  commit : P commitNow
  rollback : P rollbackNow
  post : ∀ m, P (post m)
  bind : ∀ {α β : Type} {p : Txn σ τ μ ε α} {f : α → Txn σ τ μ ε β}, (∀ a, P (f a)) → P p → P (p >>= f)
  tryCatch : ∀ {α : Type} {p : Txn σ τ μ ε α} {h : ε → Txn σ τ μ ε α}, (∀ e, P (h e)) → P p → P (p.tryCatch h)

section judgements
variable {P : ∀ ⦃α : Type⦄, Txn σ τ μ ε α → Prop}

theorem Judgement.query (J : Judgement P) (q : σ → α) : P (query q) := J.query_bind fun s => J.ret (q s)

theorem Judgement.map (J : Judgement P) (f : α → β) {p : Txn σ τ μ ε α} (h : P p) : P (f <$> p) :=
  J.bind (fun a => J.ret (f a)) h

theorem Judgement.ofExcept (J : Judgement P) (x : Except ε α) : P (ofExcept x) := by
  cases x with
  | ok a => exact J.ret a
  | error e => exact J.raise e

/-- Judged by their writes. -/
theorem Writes.judgement (K : σ → σ → Prop) : Judgement fun α (p : Txn σ τ μ ε α) => Writes K p where
  ret _ := trivial
  raise _ := trivial
  query_bind := .query_bind
  queryExt _ := fun _ _ => trivial
  commit := trivial
  rollback := trivial
  post _ := trivial
  bind := .bind
  tryCatch := .tryCatch

end judgements

/-! ## One node -/

section step
variable {K : σ → σ → Prop} (hrefl : ∀ d, K d d) (htrans : ∀ {d₁ d₂ d₃}, K d₁ d₂ → K d₂ d₃ → K d₁ d₃)

/-- What is known of a session whose writes are all a `K`. -/
def Session.Writing (K : σ → σ → Prop) (s : Session σ τ μ ε α) : Prop :=
  Writes K s.prog ∧ ∀ d, K d (s.pending d)

include hrefl htrans

/-- **One node.** -/
theorem Session.Writing.step {w w' : World σ τ μ} {s s' : Session σ τ μ ε α} (h : s.Writing K)
    (hs : Txn.step w s = some (w', s')) : s'.Writing K ∧ K w.now w'.now := by
  obtain ⟨u, p⟩ := s
  obtain ⟨hp, hu⟩ := h
  cases p with
  | ret a => cases hs
  | raise e => cases hs
  | read k => cases hs; exact ⟨⟨hp _ _, hu⟩, hrefl _⟩
  | write f k => cases hs; exact ⟨⟨hp.2, fun d => htrans (hu d) (hp.1 _)⟩, hrefl _⟩
  | emit f k => cases hs; exact ⟨⟨hp _, hu⟩, hrefl _⟩
  | commit k => cases hs; exact ⟨⟨hp, hrefl⟩, hu w.now⟩
  | rollback k => cases hs; exact ⟨⟨hp, hrefl⟩, hrefl _⟩
  | send m k => cases hs; exact ⟨⟨hp, hu⟩, hrefl _⟩

/-- **A session alone, cut short anywhere.** -/
theorem Session.Writing.exec : ∀ (n : Nat) {w : World σ τ μ} {s : Session σ τ μ ε α}, s.Writing K →
    K w.now (exec n w s).1.now
  | 0, w, _, _ => hrefl w.now
  | n + 1, w, s, h => by
    rw [Txn.exec]
    cases hs : Txn.step w s with
    | none => exact hrefl w.now
    | some r =>
      obtain ⟨w', s'⟩ := r
      obtain ⟨h', hw⟩ := h.step hrefl htrans hs
      exact htrans hw (Session.Writing.exec n h')

end step

/-! ## Any schedule -/

namespace Sys

theorem execute_append {prog : Op → Txn σ τ μ ε α} : ∀ (as as' : List (Action Op)) (s : Sys Op σ τ μ ε α),
    s.execute prog (as ++ as') = (s.execute prog as).bind (execute prog · as')
  | [], as', s => rfl
  | a :: as, as', s => by
    simp only [List.cons_append, execute]
    cases s.step prog a with
    | none => rfl
    | some s₁ => exact execute_append as as' s₁

variable {prog : Op → Txn σ τ μ ε α} {K : Op → σ → σ → Prop} {B : Op → Prop} {s s' : Sys Op σ τ μ ε α}

/-- What is known of the flights when every operation begun is a `B`. -/
def Writing (K : Op → σ → σ → Prop) (B : Op → Prop) (s : Sys Op σ τ μ ε α) : Prop :=
  ∀ t f, s.flights t = some f → B f.op ∧ f.session.Writing (K f.op)

theorem Writing.put (h : s.Writing K B) {w : World σ τ μ} {t : Nat} {o : Option (Flight Op σ τ μ ε α)}
    (ho : ∀ f, o = some f → B f.op ∧ f.session.Writing (K f.op)) : (s.put w t o).Writing K B := by
  intro t' f hf
  rcases put_cases hf with ⟨-, hf⟩ | ⟨-, hf⟩
  · exact ho f hf
  · exact h t' f hf

section run
variable (hrefl : ∀ op d, K op d d) (htrans : ∀ op {d₁ d₂ d₃}, K op d₁ d₂ → K op d₂ d₃ → K op d₁ d₃)
  (hprog : ∀ op, Writes (K op) (prog op))
include hrefl htrans hprog

/-- **One action.** -/
theorem Writing.step (h : s.Writing K B) {a : Action Op} (ha : ∀ t op, a = .begin t op → B op)
    (hs : s.step prog a = some s') :
    s'.Writing K B ∧ (s'.world.now = s.world.now ∨ ∃ op, B op ∧ K op s.world.now s'.world.now) := by
  cases a with
  | begin t op =>
    obtain ⟨-, rfl⟩ := Sys.step_begin hs
    exact ⟨h.put fun f hf => by cases hf; exact ⟨ha t op rfl, hprog op, hrefl op⟩, .inl rfl⟩
  | abort t =>
    obtain ⟨-, -, rfl⟩ := Sys.step_abort hs
    exact ⟨h.put (fun f hf => by cases hf), .inl rfl⟩
  | advance t =>
    obtain ⟨f, w, se, hf, hstep, rfl⟩ := Sys.step_advance hs
    obtain ⟨hb, hw⟩ := h t f hf
    obtain ⟨hse, hst⟩ := hw.step (hrefl f.op) (htrans f.op) hstep
    exact ⟨h.put fun f' hf' => by cases hf'; exact ⟨hb, hse⟩, .inr ⟨f.op, hb, hst⟩⟩

/-- **Every schedule**: what relates a store to any that an operation begun
in the run makes of it relates it to every later one. -/
theorem Writing.execute {L : σ → σ → Prop} (hLrefl : ∀ d, L d d)
    (hLtrans : ∀ {d₁ d₂ d₃}, L d₁ d₂ → L d₂ d₃ → L d₁ d₃) (hKL : ∀ op, B op → ∀ {d d'}, K op d d' → L d d') :
    ∀ (as : List (Action Op)) {s s' : Sys Op σ τ μ ε α}, (∀ t op, Action.begin t op ∈ as → B op) →
      s.Writing K B → s.execute prog as = some s' → s'.Writing K B ∧ L s.world.now s'.world.now
  | [], s, s', _, h, hex => by cases hex; exact ⟨h, hLrefl _⟩
  | a :: as, s, s', has, h, hex => by
    simp only [Sys.execute, Option.bind_eq_some_iff] at hex
    obtain ⟨s₁, hs, hex⟩ := hex
    obtain ⟨h₁, hst⟩ := h.step hrefl htrans hprog (fun t op ha => has t op (ha ▸ List.mem_cons_self)) hs
    obtain ⟨h', hrest⟩ := Writing.execute hLrefl hLtrans hKL as
      (fun t op ha => has t op (List.mem_cons_of_mem _ ha)) h₁ hex
    refine ⟨h', ?_⟩
    rcases hst with hst | ⟨op, hb, hst⟩
    · rwa [hst] at hrest
    · exact hLtrans (hKL op hb hst) hrest

end run

theorem writing_idle (w : World σ τ μ) : (idle w : Sys Op σ τ μ ε α).Writing K B := fun _ _ h => by cases h

end Sys

end Txn
