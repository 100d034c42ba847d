/-
Programs that work on a store through one database session, as data: each
read, write, outside effect, commit and message is a node, so the same
program has a serial run (`run`), a run cut short after `n` nodes (`exec`)
and, in `Lib.ReadCommitted`, an interleaved run.

`σ` is the committed store, `τ` what a rollback does not undo (files, a
bucket), `μ` the messages sent, `ε` the exceptions. Writes are kept back as
an update of the store until the session commits; the session's own reads
see them, on top of whatever is committed when the read is made.

`Txn.wp` is the weakest precondition of a program under a rely `R` (what
others may do between two of its nodes) and a guarantee `G` (what each of
its own steps does to the world); `wp_exec` and `wp_run` are its soundness
for one program alone.
-/
import Mathlib.Logic.Relation
import Mathlib.Tactic.Common

inductive Txn (σ τ μ ε α : Type) where
  | ret (a : α)
  | raise (e : ε)
  | read (k : σ → τ → Txn σ τ μ ε α)
  | write (u : σ → σ) (k : Txn σ τ μ ε α)
  | emit (f : τ → Except ε Unit × τ) (k : Except ε Unit → Txn σ τ μ ε α)
  | commit (k : Txn σ τ μ ε α)
  | rollback (k : Txn σ τ μ ε α)
  | send (m : μ) (k : Txn σ τ μ ε α)

namespace Txn

variable {σ τ μ ε α β : Type}

/-! ## Composition -/

def bind : Txn σ τ μ ε α → (α → Txn σ τ μ ε β) → Txn σ τ μ ε β
  | .ret a, f => f a
  | .raise e, _ => .raise e
  | .read k, f => .read fun s t => (k s t).bind f
  | .write u k, f => .write u (k.bind f)
  | .emit g k, f => .emit g fun r => (k r).bind f
  | .commit k, f => .commit (k.bind f)
  | .rollback k, f => .rollback (k.bind f)
  | .send m k, f => .send m (k.bind f)

instance : Monad (Txn σ τ μ ε) where
  pure := .ret
  bind := bind

/-- `try p except e: h e`. What `p` wrote before it raised stays written. -/
def tryCatch : Txn σ τ μ ε α → (ε → Txn σ τ μ ε α) → Txn σ τ μ ε α
  | .ret a, _ => .ret a
  | .raise e, h => h e
  | .read k, h => .read fun s t => (k s t).tryCatch h
  | .write u k, h => .write u (k.tryCatch h)
  | .emit g k, h => .emit g fun r => (k r).tryCatch h
  | .commit k, h => .commit (k.tryCatch h)
  | .rollback k, h => .rollback (k.tryCatch h)
  | .send m k, h => .send m (k.tryCatch h)

/-- A query. -/
def query (q : σ → α) : Txn σ τ μ ε α := .read fun s _ => .ret (q s)

def queryExt (q : τ → α) : Txn σ τ μ ε α := .read fun _ t => .ret (q t)

def update (u : σ → σ) : Txn σ τ μ ε Unit := .write u (.ret ())

/-- An outside effect, which may fail. -/
def effect (f : τ → Except ε Unit × τ) : Txn σ τ μ ε Unit :=
  .emit f fun
    | .ok () => .ret ()
    | .error e => .raise e

/-- A value, or what it raises. -/
def ofExcept : Except ε α → Txn σ τ μ ε α
  | .ok a => .ret a
  | .error e => .raise e

def commitNow : Txn σ τ μ ε Unit := .commit (.ret ())

def rollbackNow : Txn σ τ μ ε Unit := .rollback (.ret ())

def post (m : μ) : Txn σ τ μ ε Unit := .send m (.ret ())

/-- The program has nothing left to do. -/
def isDone : Txn σ τ μ ε α → Bool
  | .ret _ | .raise _ => true
  | _ => false

/-- A program that changes nothing: it reads, and ends. -/
def Inert : Txn σ τ μ ε α → Prop
  | .ret _ | .raise _ => True
  | .read k => ∀ s t, Inert (k s t)
  | .commit k | .rollback k => Inert k
  | .write _ _ | .emit _ _ | .send _ _ => False

/-! ## Worlds and sessions -/

/-- What the sessions share: the committed store, the stores committed
before it (newest first), what lies outside the store, the messages sent. -/
structure World (σ τ μ : Type) where
  now : σ
  past : List σ
  ext : τ
  sent : List μ

namespace World

def commit (w : World σ τ μ) (s : σ) : World σ τ μ := { w with now := s, past := w.now :: w.past }

def setExt (w : World σ τ μ) (t : τ) : World σ τ μ := { w with ext := t }

def post (w : World σ τ μ) (m : μ) : World σ τ μ := { w with sent := w.sent ++ [m] }

/-- Every store committed so far, newest first. -/
def stores (w : World σ τ μ) : List σ := w.now :: w.past

@[simp] theorem commit_now (w : World σ τ μ) (s : σ) : (w.commit s).now = s := rfl
@[simp] theorem commit_ext (w : World σ τ μ) (s : σ) : (w.commit s).ext = w.ext := rfl
@[simp] theorem commit_sent (w : World σ τ μ) (s : σ) : (w.commit s).sent = w.sent := rfl
@[simp] theorem commit_stores (w : World σ τ μ) (s : σ) : (w.commit s).stores = s :: w.stores := rfl
@[simp] theorem setExt_now (w : World σ τ μ) (t : τ) : (w.setExt t).now = w.now := rfl
@[simp] theorem setExt_ext (w : World σ τ μ) (t : τ) : (w.setExt t).ext = t := rfl
@[simp] theorem setExt_sent (w : World σ τ μ) (t : τ) : (w.setExt t).sent = w.sent := rfl
@[simp] theorem post_sent (w : World σ τ μ) (m : μ) : (w.post m).sent = w.sent ++ [m] := rfl

end World

/-- A session on its way: its uncommitted writes and what it still has to do. -/
structure Session (σ τ μ ε α : Type) where
  pending : σ → σ
  prog : Txn σ τ μ ε α

/-- A session about to run `p`. -/
def start (p : Txn σ τ μ ε α) : Session σ τ μ ε α := ⟨id, p⟩

/-- The session's next node; none when it has ended. -/
def step (w : World σ τ μ) (s : Session σ τ μ ε α) : Option (World σ τ μ × Session σ τ μ ε α) :=
  match s.prog with
  | .ret _ | .raise _ => none
  | .read k => some (w, ⟨s.pending, k (s.pending w.now) w.ext⟩)
  | .write u k => some (w, ⟨fun d => u (s.pending d), k⟩)
  | .emit f k => some (w.setExt (f w.ext).2, ⟨s.pending, k (f w.ext).1⟩)
  | .commit k => some (w.commit (s.pending w.now), ⟨id, k⟩)
  | .rollback k => some (w, ⟨id, k⟩)
  | .send m k => some (w.post m, ⟨s.pending, k⟩)

/-- A session that takes a node has not ended. -/
theorem isDone_of_step {w : World σ τ μ} {s : Session σ τ μ ε α} {r : World σ τ μ × Session σ τ μ ε α}
    (h : step w s = some r) : s.prog.isDone = false := by
  obtain ⟨u, p⟩ := s
  cases p <;> first | rfl | cases h

/-- The first `n` nodes of a session with no other about. What it had not
committed by then is lost: this is the session that dies after `n` nodes. -/
def exec : Nat → World σ τ μ → Session σ τ μ ε α → World σ τ μ × Session σ τ μ ε α
  | 0, w, s => (w, s)
  | n + 1, w, s =>
    match step w s with
    | none => (w, s)
    | some (w', s') => exec n w' s'

/-- A whole session with no other about: how it ended, the world it leaves
and the writes it had not committed. -/
def run : Txn σ τ μ ε α → World σ τ μ → (σ → σ) → Except ε α × World σ τ μ × (σ → σ)
  | .ret a, w, u => (.ok a, w, u)
  | .raise e, w, u => (.error e, w, u)
  | .read k, w, u => (k (u w.now) w.ext).run w u
  | .write f k, w, u => k.run w fun d => f (u d)
  | .emit f k, w, u => (k (f w.ext).1).run (w.setExt (f w.ext).2) u
  | .commit k, w, u => k.run (w.commit (u w.now)) id
  | .rollback k, w, _ => k.run w id
  | .send m k, w, u => k.run (w.post m) u

/-- A run is `exec` for as many nodes as it takes. -/
theorem exec_run (p : Txn σ τ μ ε α) : ∀ (w : World σ τ μ) (u : σ → σ), ∃ n p',
    exec n w ⟨u, p⟩ = ((p.run w u).2.1, ⟨(p.run w u).2.2, p'⟩) ∧
      p' = match (p.run w u).1 with | .ok a => .ret a | .error e => .raise e := by
  induction p with
  | ret a => exact fun w u => ⟨0, _, rfl, rfl⟩
  | raise e => exact fun w u => ⟨0, _, rfl, rfl⟩
  | read k ih => exact fun w u => let ⟨n, p', h⟩ := ih (u w.now) w.ext w u; ⟨n + 1, p', h⟩
  | write f k ih => exact fun w u => let ⟨n, p', h⟩ := ih w (fun d => f (u d)); ⟨n + 1, p', h⟩
  | emit f k ih =>
    exact fun w u => let ⟨n, p', h⟩ := ih (f w.ext).1 (w.setExt (f w.ext).2) u; ⟨n + 1, p', h⟩
  | commit k ih => exact fun w u => let ⟨n, p', h⟩ := ih (w.commit (u w.now)) id; ⟨n + 1, p', h⟩
  | rollback k ih => exact fun w u => let ⟨n, p', h⟩ := ih w id; ⟨n + 1, p', h⟩
  | send m k ih => exact fun w u => let ⟨n, p', h⟩ := ih (w.post m) u; ⟨n + 1, p', h⟩

/-! ## Runs of compound programs -/

/-- What follows a program runs where it returned. -/
theorem run_bind (f : α → Txn σ τ μ ε β) (p : Txn σ τ μ ε α) : ∀ (w : World σ τ μ) (u : σ → σ),
    (p >>= f).run w u =
      match p.run w u with
      | (.ok a, w', u') => (f a).run w' u'
      | (.error e, w', u') => (.error e, w', u') := by
  change ∀ w u, (p.bind f).run w u = _
  induction p with
  | ret a => exact fun _ _ => rfl
  | raise e => exact fun _ _ => rfl
  | read k ih => exact fun w u => ih (u w.now) w.ext w u
  | write g k ih => exact fun w u => ih w fun d => g (u d)
  | emit g k ih => exact fun w u => ih (g w.ext).1 (w.setExt (g w.ext).2) u
  | commit k ih => exact fun w u => ih (w.commit (u w.now)) id
  | rollback k ih => exact fun w u => ih w id
  | send m k ih => exact fun w u => ih (w.post m) u

theorem run_map (f : α → β) (p : Txn σ τ μ ε α) (w : World σ τ μ) (u : σ → σ) :
    (f <$> p).run w u =
      match p.run w u with
      | (.ok a, w', u') => (.ok (f a), w', u')
      | (.error e, w', u') => (.error e, w', u') := run_bind (fun a => pure (f a)) p w u

/-- A handler runs where its body raised, with what that left written. -/
theorem run_tryCatch (h : ε → Txn σ τ μ ε α) (p : Txn σ τ μ ε α) : ∀ (w : World σ τ μ) (u : σ → σ),
    (p.tryCatch h).run w u =
      match p.run w u with
      | (.ok a, w', u') => (.ok a, w', u')
      | (.error e, w', u') => (h e).run w' u' := by
  induction p with
  | ret a => exact fun _ _ => rfl
  | raise e => exact fun _ _ => rfl
  | read k ih => exact fun w u => ih (u w.now) w.ext w u
  | write g k ih => exact fun w u => ih w fun d => g (u d)
  | emit g k ih => exact fun w u => ih (g w.ext).1 (w.setExt (g w.ext).2) u
  | commit k ih => exact fun w u => ih (w.commit (u w.now)) id
  | rollback k ih => exact fun w u => ih w id
  | send m k ih => exact fun w u => ih (w.post m) u

/-! ## Weakest preconditions -/

section wp
variable (R G : World σ τ μ → World σ τ μ → Prop) (E : World σ τ μ → (σ → σ) → ε → Prop)

/-- From world `w` with writes `u` pending: whatever `R` lets others do
between two nodes, each step of `p` on the world is a `G`, and `p` ends in
`Q` when it returns and in `E` when it raises. -/
def wp (Q : World σ τ μ → (σ → σ) → α → Prop) : Txn σ τ μ ε α → World σ τ μ → (σ → σ) → Prop
  | .ret a, w, u => Q w u a
  | .raise e, w, u => E w u e
  | .read k, w, u => ∀ w', R w w' → wp Q (k (u w'.now) w'.ext) w' u
  | .write f k, w, u => wp Q k w fun d => f (u d)
  | .emit f k, w, u => ∀ w', R w w' →
      G w' (w'.setExt (f w'.ext).2) ∧ wp Q (k (f w'.ext).1) (w'.setExt (f w'.ext).2) u
  | .commit k, w, u => ∀ w', R w w' →
      G w' (w'.commit (u w'.now)) ∧ wp Q k (w'.commit (u w'.now)) id
  | .rollback k, w, _ => wp Q k w id
  | .send m k, w, u => ∀ w', R w w' → G w' (w'.post m) ∧ wp Q k (w'.post m) u

end wp

section rules
variable {R R' G G' : World σ τ μ → World σ τ μ → Prop} {E E' : World σ τ μ → (σ → σ) → ε → Prop}
  {w w' : World σ τ μ} {u : σ → σ}

@[simp] theorem wp_query {Q : World σ τ μ → (σ → σ) → α → Prop} {q : σ → α} :
    wp R G E Q (query q : Txn σ τ μ ε α) w u ↔ ∀ w', R w w' → Q w' u (q (u w'.now)) := Iff.rfl

theorem wp_effect {Q : World σ τ μ → (σ → σ) → Unit → Prop} {f : τ → Except ε Unit × τ} :
    wp R G E Q (effect f : Txn σ τ μ ε Unit) w u ↔ ∀ w', R w w' →
      G w' (w'.setExt (f w'.ext).2) ∧
        match (f w'.ext).1 with
        | .ok () => Q (w'.setExt (f w'.ext).2) u ()
        | .error e => E (w'.setExt (f w'.ext).2) u e := by
  refine forall_congr' fun w' => imp_congr_right fun _ => and_congr_right fun _ => ?_
  cases (f w'.ext).1 <;> exact Iff.rfl

/-- The bind rule. -/
@[simp] theorem wp_bind {Q : World σ τ μ → (σ → σ) → β → Prop} (p : Txn σ τ μ ε α)
    (f : α → Txn σ τ μ ε β) : ∀ (w : World σ τ μ) (u : σ → σ),
    wp R G E Q (p >>= f) w u ↔ wp R G E (fun w u a => wp R G E Q (f a) w u) p w u := by
  change ∀ w u, wp R G E Q (p.bind f) w u ↔ _
  induction p with
  | ret a => exact fun w u => Iff.rfl
  | raise e => exact fun w u => Iff.rfl
  | read k ih =>
    exact fun w u => forall_congr' fun w' => imp_congr_right fun _ => ih (u w'.now) w'.ext w' u
  | write g k ih => exact fun w u => ih w (fun d => g (u d))
  | emit g k ih =>
    exact fun w u => forall_congr' fun w' => imp_congr_right fun _ => and_congr_right fun _ =>
      ih (g w'.ext).1 (w'.setExt (g w'.ext).2) u
  | commit k ih =>
    exact fun w u => forall_congr' fun w' => imp_congr_right fun _ => and_congr_right fun _ =>
      ih (w'.commit (u w'.now)) id
  | rollback k ih => exact fun w u => ih w id
  | send m k ih =>
    exact fun w u => forall_congr' fun w' => imp_congr_right fun _ => and_congr_right fun _ =>
      ih (w'.post m) u

/-- The handler's precondition is what the body may raise in. -/
@[simp] theorem wp_tryCatch {Q : World σ τ μ → (σ → σ) → α → Prop} (p : Txn σ τ μ ε α)
    (h : ε → Txn σ τ μ ε α) : ∀ (w : World σ τ μ) (u : σ → σ),
    wp R G E Q (p.tryCatch h) w u ↔ wp R G (fun w u e => wp R G E Q (h e) w u) Q p w u := by
  induction p with
  | ret a => exact fun w u => Iff.rfl
  | raise e => exact fun w u => Iff.rfl
  | read k ih =>
    exact fun w u => forall_congr' fun w' => imp_congr_right fun _ => ih (u w'.now) w'.ext w' u
  | write g k ih => exact fun w u => ih w (fun d => g (u d))
  | emit g k ih =>
    exact fun w u => forall_congr' fun w' => imp_congr_right fun _ => and_congr_right fun _ =>
      ih (g w'.ext).1 (w'.setExt (g w'.ext).2) u
  | commit k ih =>
    exact fun w u => forall_congr' fun w' => imp_congr_right fun _ => and_congr_right fun _ =>
      ih (w'.commit (u w'.now)) id
  | rollback k ih => exact fun w u => ih w id
  | send m k ih =>
    exact fun w u => forall_congr' fun w' => imp_congr_right fun _ => and_congr_right fun _ =>
      ih (w'.post m) u

/-- The consequence rule. -/
theorem wp_conseq {Q Q' : World σ τ μ → (σ → σ) → α → Prop} (hR : ∀ w w', R' w w' → R w w')
    (hG : ∀ w w', G w w' → G' w w') (hE : ∀ w u e, E w u e → E' w u e)
    (hQ : ∀ w u a, Q w u a → Q' w u a) (p : Txn σ τ μ ε α) :
    ∀ {w : World σ τ μ} {u : σ → σ}, wp R G E Q p w u → wp R' G' E' Q' p w u := by
  induction p with
  | ret a => exact fun h => hQ _ _ _ h
  | raise e => exact fun h => hE _ _ _ h
  | read k ih => exact fun h w' hw => ih _ _ (h w' (hR _ _ hw))
  | write f k ih => exact fun h => ih h
  | emit f k ih => exact fun h w' hw => ⟨hG _ _ (h w' (hR _ _ hw)).1, ih _ (h w' (hR _ _ hw)).2⟩
  | commit k ih => exact fun h w' hw => ⟨hG _ _ (h w' (hR _ _ hw)).1, ih (h w' (hR _ _ hw)).2⟩
  | rollback k ih => exact fun h => ih h
  | send m k ih => exact fun h w' hw => ⟨hG _ _ (h w' (hR _ _ hw)).1, ih (h w' (hR _ _ hw)).2⟩

theorem wp_mono {Q Q' : World σ τ μ → (σ → σ) → α → Prop} {p : Txn σ τ μ ε α}
    (h : wp R G E Q p w u) (hQ : ∀ w u a, Q w u a → Q' w u a) : wp R G E Q' p w u :=
  wp_conseq (fun _ _ h => h) (fun _ _ h => h) (fun _ _ _ h => h) hQ p h

/-- A fact that neither the others nor the program itself end may be used for
the guarantee. -/
theorem wp_stable {Q : World σ τ μ → (σ → σ) → α → Prop} {F : World σ τ μ → Prop}
    (hR : ∀ w w', F w → R' w w' → R w w' ∧ F w') (hG : ∀ w w', F w → G w w' → G' w w' ∧ F w')
    {p : Txn σ τ μ ε α} : ∀ {w : World σ τ μ} {u : σ → σ}, F w → wp R G E Q p w u → wp R' G' E Q p w u := by
  induction p with
  | ret a => exact fun _ h => h
  | raise e => exact fun _ h => h
  | read k ih =>
    intro w u hF h w' hw
    obtain ⟨hw, hF⟩ := hR _ _ hF hw
    exact ih _ _ hF (h w' hw)
  | write f k ih => exact fun hF h => ih hF h
  | emit f k ih =>
    intro w u hF h w' hw
    obtain ⟨hw, hF⟩ := hR _ _ hF hw
    obtain ⟨hstep, hF⟩ := hG _ _ hF (h w' hw).1
    exact ⟨hstep, ih _ hF (h w' hw).2⟩
  | commit k ih | send m k ih =>
    intro w u hF h w' hw
    obtain ⟨hw, hF⟩ := hR _ _ hF hw
    obtain ⟨hstep, hF⟩ := hG _ _ hF (h w' hw).1
    exact ⟨hstep, ih hF (h w' hw).2⟩
  | rollback k ih => exact fun hF h => ih hF h

/-- A precondition survives what `R` lets others do, when the
postconditions do. -/
theorem wp_rely {Q : World σ τ μ → (σ → σ) → α → Prop} (htrans : ∀ w₁ w₂ w₃, R w₁ w₂ → R w₂ w₃ → R w₁ w₃)
    (hQ : ∀ w w' u a, R w w' → Q w u a → Q w' u a) (hE : ∀ w w' u e, R w w' → E w u e → E w' u e)
    {p : Txn σ τ μ ε α} : ∀ {w w' : World σ τ μ} {u : σ → σ}, R w w' →
    wp R G E Q p w u → wp R G E Q p w' u := by
  induction p with
  | ret a => exact fun hw h => hQ _ _ _ _ hw h
  | raise e => exact fun hw h => hE _ _ _ _ hw h
  | read k ih => exact fun hw h w'' hw' => h w'' (htrans _ _ _ hw hw')
  | write f k ih => exact fun hw h => ih hw h
  | emit f k ih => exact fun hw h w'' hw' => h w'' (htrans _ _ _ hw hw')
  | commit k ih => exact fun hw h w'' hw' => h w'' (htrans _ _ _ hw hw')
  | rollback k ih => exact fun hw h => ih hw h
  | send m k ih => exact fun hw h w'' hw' => h w'' (htrans _ _ _ hw hw')

/-! ## Soundness for a session alone -/

/-- One node keeps the precondition, and what it does to the world is a `G`. -/
theorem wp_step {Q : World σ τ μ → (σ → σ) → α → Prop} (hrefl : ∀ w, R w w)
    {s s' : Session σ τ μ ε α} (h : wp R G E Q s.prog w s.pending) (hs : step w s = some (w', s')) :
    (w' = w ∨ G w w') ∧ wp R G E Q s'.prog w' s'.pending := by
  obtain ⟨u, p⟩ := s
  cases p with
  | ret a => cases hs
  | raise e => cases hs
  | read k => cases hs; exact ⟨.inl rfl, h _ (hrefl _)⟩
  | write f k => cases hs; exact ⟨.inl rfl, h⟩
  | emit f k => cases hs; exact ⟨.inr (h _ (hrefl _)).1, (h _ (hrefl _)).2⟩
  | commit k => cases hs; exact ⟨.inr (h _ (hrefl _)).1, (h _ (hrefl _)).2⟩
  | rollback k => cases hs; exact ⟨.inl rfl, h⟩
  | send m k => cases hs; exact ⟨.inr (h _ (hrefl _)).1, (h _ (hrefl _)).2⟩

/-- **A session alone, cut short anywhere**: what it does to the world is a
sequence of `G` steps. -/
theorem wp_exec {Q : World σ τ μ → (σ → σ) → α → Prop} (hrefl : ∀ w, R w w) :
    ∀ (n : Nat) {w : World σ τ μ} {s : Session σ τ μ ε α}, wp R G E Q s.prog w s.pending →
      Relation.ReflTransGen G w (exec n w s).1 ∧
        wp R G E Q (exec n w s).2.prog (exec n w s).1 (exec n w s).2.pending
  | 0, _, _, h => ⟨.refl, h⟩
  | n + 1, w, s, h => by
    rw [exec]
    cases hs : step w s with
    | none => exact ⟨.refl, h⟩
    | some r =>
      obtain ⟨w', s'⟩ := r
      obtain ⟨hw, h'⟩ := wp_step hrefl h hs
      obtain ⟨hG, hwp⟩ := wp_exec hrefl n h'
      rcases hw with rfl | hw
      · exact ⟨hG, hwp⟩
      · exact ⟨.head hw hG, hwp⟩

/-- **A session alone, to its end.** -/
theorem wp_run {Q : World σ τ μ → (σ → σ) → α → Prop} (hrefl : ∀ w, R w w) {p : Txn σ τ μ ε α}
    (h : wp R G E Q p w u) : Relation.ReflTransGen G w (p.run w u).2.1 ∧
      match (p.run w u).1 with
      | .ok a => Q (p.run w u).2.1 (p.run w u).2.2 a
      | .error e => E (p.run w u).2.1 (p.run w u).2.2 e := by
  obtain ⟨n, p', hex, hp⟩ := exec_run p w u
  have hstart : wp R G E Q (Session.mk u p).prog w (Session.mk u p).pending := h
  have hs := wp_exec hrefl n hstart
  rw [hex] at hs
  refine ⟨hs.1, ?_⟩
  have hwp := hs.2
  subst hp
  cases hr : (p.run w u).1 <;> simp only [hr] at hwp <;> exact hwp

/-- An inert program's precondition holds under any rely, for any guarantee
that allows an empty commit. -/
theorem Inert.wp {p : Txn σ τ μ ε α} (hG : ∀ w : World σ τ μ, G w (w.commit w.now)) :
    Inert p → ∀ w : World σ τ μ, wp R G (fun _ u _ => u = id) (fun _ u _ => u = id) p w id := by
  induction p with
  | ret a => exact fun _ _ => rfl
  | raise e => exact fun _ _ => rfl
  | read k ih => exact fun h w w' _ => ih _ _ (h _ _) w'
  | write f k => exact fun h => h.elim
  | emit f k => exact fun h => h.elim
  | commit k ih => exact fun h w w' _ => ⟨hG w', ih h _⟩
  | rollback k ih => exact fun h w => ih h w
  | send m k => exact fun h => h.elim

end rules

end Txn
