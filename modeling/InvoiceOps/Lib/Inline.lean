/-
Sessions whose messages are served where they are sent: `runInline` runs
the service of a message in the place of the `send`, and what the service
raises, the `send` raises.

A program that ends in its message (`Tail`: when it sends, it has nothing
uncommitted, and it then does nothing more) leaves the store the same way
whether its message is served on the spot or after it has ended; that is
`Tail.runInline`.
-/
import InvoiceOps.Lib.Txn

namespace Txn

variable {σ τ μ ε α β : Type}

/-- A whole session, each message served by `serve` when it is sent. -/
def runInline (serve : μ → World σ τ μ → Except ε Unit × World σ τ μ) :
    Txn σ τ μ ε α → World σ τ μ → (σ → σ) → Except ε α × World σ τ μ × (σ → σ)
  | .ret a, w, u => (.ok a, w, u)
  | .raise e, w, u => (.error e, w, u)
  | .read k, w, u => (k (u w.now) w.ext).runInline serve w u
  | .write f k, w, u => k.runInline serve w fun d => f (u d)
  | .emit f k, w, u => (k (f w.ext).1).runInline serve (w.setExt (f w.ext).2) u
  | .commit k, w, u => k.runInline serve (w.commit (u w.now)) id
  | .rollback k, w, _ => k.runInline serve w id
  | .send m k, w, u =>
    match serve m w with
    | (.ok (), w') => k.runInline serve w' u
    | (.error e, w') => (.error e, w', u)

/-- Left in the queue, a message is served later. -/
def leave (m : μ) (w : World σ τ μ) : Except ε Unit × World σ τ μ := (.ok (), w.post m)

theorem runInline_leave (p : Txn σ τ μ ε α) : ∀ (w : World σ τ μ) (u : σ → σ), p.runInline leave w u = p.run w u := by
  induction p with
  | ret a => exact fun _ _ => rfl
  | raise e => exact fun _ _ => rfl
  | read k ih => exact fun w u => ih (u w.now) w.ext w u
  | write g k ih => exact fun w u => ih w fun d => g (u d)
  | emit g k ih => exact fun w u => ih (g w.ext).1 (w.setExt (g w.ext).2) u
  | commit k ih => exact fun w u => ih (w.commit (u w.now)) id
  | rollback k ih => exact fun w u => ih w id
  | send m k ih => exact fun w u => ih (w.post m) u

theorem runInline_ofExcept (serve : μ → World σ τ μ → Except ε Unit × World σ τ μ) (x : Except ε α)
    (w : World σ τ μ) (u : σ → σ) : (ofExcept x : Txn σ τ μ ε α).runInline serve w u = (x, w, u) := by
  cases x <;> rfl

/-! ## Worlds with one store -/

/-- The store and what lies outside it are the same. -/
structure World.Same (w w' : World σ τ μ) : Prop where
  now : w'.now = w.now
  ext : w'.ext = w.ext

theorem World.Same.refl (w : World σ τ μ) : World.Same w w := ⟨rfl, rfl⟩

theorem World.Same.symm {w w' : World σ τ μ} (h : World.Same w w') : World.Same w' w := ⟨h.now.symm, h.ext.symm⟩

theorem World.Same.trans {w₁ w₂ w₃ : World σ τ μ} (h : World.Same w₁ w₂) (h' : World.Same w₂ w₃) :
    World.Same w₁ w₃ := ⟨h'.now.trans h.now, h'.ext.trans h.ext⟩

/-- A session looks at nothing else. -/
theorem run_same (p : Txn σ τ μ ε α) : ∀ {w w' : World σ τ μ} (u : σ → σ), World.Same w w' →
    (p.run w' u).1 = (p.run w u).1 ∧ World.Same (p.run w u).2.1 (p.run w' u).2.1 ∧
      (p.run w' u).2.2 = (p.run w u).2.2 := by
  induction p with
  | ret a => exact fun u h => ⟨rfl, h, rfl⟩
  | raise e => exact fun u h => ⟨rfl, h, rfl⟩
  | read k ih =>
    intro w w' u h
    simp only [run, h.now, h.ext]
    exact ih _ _ u h
  | write g k ih => exact fun u h => ih _ h
  | emit g k ih =>
    intro w w' u h
    simp only [run, h.ext]
    exact ih _ u ⟨h.now, rfl⟩
  | commit k ih =>
    intro w w' u h
    simp only [run, h.now]
    exact ih id ⟨rfl, h.ext⟩
  | rollback k ih => exact fun u h => ih id h
  | send m k ih => exact fun u h => ih u ⟨h.now, h.ext⟩

/-- Nor does it send other messages. -/
theorem run_sent (p : Txn σ τ μ ε α) : ∀ {w w' : World σ τ μ} (u : σ → σ), World.Same w w' →
    ∃ l, (p.run w u).2.1.sent = w.sent ++ l ∧ (p.run w' u).2.1.sent = w'.sent ++ l := by
  induction p with
  | ret a => exact fun u h => ⟨[], (List.append_nil _).symm, (List.append_nil _).symm⟩
  | raise e => exact fun u h => ⟨[], (List.append_nil _).symm, (List.append_nil _).symm⟩
  | read k ih =>
    intro w w' u h
    simp only [run, h.now, h.ext]
    exact ih _ _ u h
  | write g k ih => exact fun u h => ih _ h
  | emit g k ih =>
    intro w w' u h
    simp only [run, h.ext]
    have hset : World.Same (w.setExt (g w.ext).2) (w'.setExt (g w.ext).2) := ⟨h.now, rfl⟩
    exact ih _ u hset
  | commit k ih =>
    intro w w' u h
    simp only [run, h.now]
    have hcommit : World.Same (w.commit (u w.now)) (w'.commit (u w.now)) := ⟨rfl, h.ext⟩
    exact ih id hcommit
  | rollback k ih => exact fun u h => ih id h
  | send m k ih =>
    intro w w' u h
    have hpost : World.Same (w.post m) (w'.post m) := ⟨h.now, h.ext⟩
    obtain ⟨l, hl, hl'⟩ := ih u hpost
    exact ⟨m :: l, by rw [run, hl]; simp, by rw [run, hl']; simp⟩

/-! ## Programs that end in their message -/

/-- The program ends without an exception, and only commits on its way. -/
def Quiet : Txn σ τ μ ε α → Prop
  | .ret _ => True
  | .commit k | .rollback k => Quiet k
  | _ => False

/-- The program sends nothing. -/
def Silent : Txn σ τ μ ε α → Prop
  | .ret _ | .raise _ => True
  | .read k => ∀ s t, Silent (k s t)
  | .emit _ k => ∀ r, Silent (k r)
  | .write _ k | .commit k | .rollback k => Silent k
  | .send _ _ => False

/-- The program sends at most one message, one of `S`, with nothing
uncommitted, and is quiet from then on. `clean`: nothing is uncommitted now. -/
def Tail (S : μ → Prop) : Bool → Txn σ τ μ ε α → Prop
  | _, .ret _ | _, .raise _ => True
  | clean, .read k => ∀ s t, Tail S clean (k s t)
  | clean, .emit _ k => ∀ r, Tail S clean (k r)
  | _, .write _ k => Tail S false k
  | _, .commit k | _, .rollback k => Tail S true k
  | clean, .send m k => clean = true ∧ S m ∧ Quiet k

section closure
variable {S : μ → Prop} {clean : Bool}

theorem Quiet.bind {p : Txn σ τ μ ε α} {f : α → Txn σ τ μ ε β} (hf : ∀ a, Quiet (f a)) :
    Quiet p → Quiet (p >>= f) := by
  change Quiet p → Quiet (p.bind f)
  induction p with
  | ret a => exact fun _ => hf a
  | commit k ih => exact ih
  | rollback k ih => exact ih
  | _ => exact fun h => h.elim

theorem Quiet.tryCatch {p : Txn σ τ μ ε α} (h : ε → Txn σ τ μ ε α) : Quiet p → Quiet (p.tryCatch h) := by
  induction p with
  | ret a => exact fun h => h
  | commit k ih => exact ih
  | rollback k ih => exact ih
  | _ => exact fun h => h.elim

theorem Silent.bind {p : Txn σ τ μ ε α} {f : α → Txn σ τ μ ε β} (hf : ∀ a, Silent (f a)) :
    Silent p → Silent (p >>= f) := by
  change Silent p → Silent (p.bind f)
  induction p with
  | ret a => exact fun _ => hf a
  | raise e => exact fun _ => trivial
  | read k ih => exact fun h s t => ih s t (h s t)
  | write g k ih => exact ih
  | emit g k ih => exact fun h r => ih r (h r)
  | commit k ih => exact ih
  | rollback k ih => exact ih
  | send m k ih => exact fun h => h.elim

theorem Silent.tryCatch {p : Txn σ τ μ ε α} {h : ε → Txn σ τ μ ε α} (hh : ∀ e, Silent (h e)) :
    Silent p → Silent (p.tryCatch h) := by
  induction p with
  | ret a => exact fun _ => trivial
  | raise e => exact fun _ => hh e
  | read k ih => exact fun h s t => ih s t (h s t)
  | write g k ih => exact ih
  | emit g k ih => exact fun h r => ih r (h r)
  | commit k ih => exact ih
  | rollback k ih => exact ih
  | send m k ih => exact fun h => h.elim

theorem silent_query (q : σ → α) : Silent (query q : Txn σ τ μ ε α) := fun _ _ => trivial

theorem silent_queryExt (q : τ → α) : Silent (queryExt q : Txn σ τ μ ε α) := fun _ _ => trivial

theorem silent_ofExcept (x : Except ε α) : Silent (ofExcept x : Txn σ τ μ ε α) := by
  cases x <;> trivial

theorem silent_effect (f : τ → Except ε Unit × τ) : Silent (effect f : Txn σ τ μ ε Unit) := by
  intro r
  cases r <;> trivial

theorem Tail.mono {p : Txn σ τ μ ε α} : ∀ {clean : Bool}, Tail S false p → Tail S clean p := by
  induction p with
  | read k ih => exact fun h s t => ih s t (h s t)
  | emit g k ih => exact fun h r => ih r (h r)
  | send m k ih => exact fun h => absurd h.1 Bool.false_ne_true
  | _ => exact fun h => h

theorem Quiet.tail {p : Txn σ τ μ ε α} : ∀ {clean : Bool}, Quiet p → Tail S clean p := by
  induction p with
  | ret a => exact fun _ => trivial
  | commit k ih => exact fun h => ih h
  | rollback k ih => exact fun h => ih h
  | _ => exact fun h => h.elim

theorem Silent.tail {p : Txn σ τ μ ε α} : ∀ {clean : Bool}, Silent p → Tail S clean p := by
  induction p with
  | ret a => exact fun _ => trivial
  | raise e => exact fun _ => trivial
  | read k ih => exact fun h s t => ih s t (h s t)
  | emit g k ih => exact fun h r => ih r (h r)
  | send m k ih => exact fun h => h.elim
  | write g k ih => exact fun h => ih h
  | commit k ih => exact fun h => ih h
  | rollback k ih => exact fun h => ih h

/-- A message after a program that sends none. -/
theorem Silent.tail_bind {p : Txn σ τ μ ε α} {f : α → Txn σ τ μ ε β} (hf : ∀ a, Tail S false (f a)) :
    ∀ {clean : Bool}, Silent p → Tail S clean (p >>= f) := by
  change ∀ {clean : Bool}, Silent p → Tail S clean (p.bind f)
  induction p with
  | ret a => exact fun _ => (hf a).mono
  | raise e => exact fun _ => trivial
  | read k ih => exact fun h s t => ih s t (h s t)
  | write g k ih => exact fun h => ih h
  | emit g k ih => exact fun h r => ih r (h r)
  | commit k ih => exact fun h => ih h
  | rollback k ih => exact fun h => ih h
  | send m k ih => exact fun h => h.elim

/-- What is quiet may follow a message. -/
theorem Tail.bind {p : Txn σ τ μ ε α} {f : α → Txn σ τ μ ε β} (hf : ∀ a, Quiet (f a)) :
    ∀ {clean : Bool}, Tail S clean p → Tail S clean (p >>= f) := by
  change ∀ {clean : Bool}, Tail S clean p → Tail S clean (p.bind f)
  induction p with
  | ret a => exact fun _ => (hf a).tail
  | raise e => exact fun _ => trivial
  | read k ih => exact fun h s t => ih s t (h s t)
  | write g k ih => exact fun h => ih h
  | emit g k ih => exact fun h r => ih r (h r)
  | commit k ih => exact fun h => ih h
  | rollback k ih => exact fun h => ih h
  | send m k ih => exact fun h => ⟨h.1, h.2.1, h.2.2.bind hf⟩

theorem Tail.tryCatch {p : Txn σ τ μ ε α} {h : ε → Txn σ τ μ ε α} (hh : ∀ e, Tail S false (h e)) :
    ∀ {clean : Bool}, Tail S clean p → Tail S clean (p.tryCatch h) := by
  induction p with
  | ret a => exact fun _ => trivial
  | raise e => exact fun _ => (hh e).mono
  | read k ih => exact fun h s t => ih s t (h s t)
  | write g k ih => exact fun h => ih h
  | emit g k ih => exact fun h r => ih r (h r)
  | commit k ih => exact fun h => ih h
  | rollback k ih => exact fun h => ih h
  | send m k ih => exact fun h => ⟨h.1, h.2.1, h.2.2.tryCatch _⟩

end closure

/-! ## What a message changes -/

section tail
variable {S : μ → Prop} (serve : μ → World σ τ μ → Except ε Unit × World σ τ μ)

/-- From the message on, the world stays the same, and the end is one. -/
theorem Quiet.runs {p : Txn σ τ μ ε α} : Quiet p → ∃ a, ∀ w : World σ τ μ,
    (p.run w id).1 = .ok a ∧ (p.run w id).2.2 = id ∧ World.Same w (p.run w id).2.1 ∧
      (p.run w id).2.1.sent = w.sent ∧ p.runInline serve w id = p.run w id := by
  induction p with
  | ret a => exact fun _ => ⟨a, fun w => ⟨rfl, rfl, .refl w, rfl, rfl⟩⟩
  | commit k ih =>
    intro h
    obtain ⟨a, ha⟩ := ih h
    refine ⟨a, fun w => ?_⟩
    obtain ⟨h₁, h₂, h₃, h₄, h₅⟩ := ha (w.commit w.now)
    exact ⟨h₁, h₂, ⟨h₃.now, h₃.ext⟩, h₄, h₅⟩
  | rollback k ih => exact ih
  | _ => exact fun h => h.elim

/-- How a program that ends in its message runs, served on the spot by
`serve`, compared with its run alone. -/
inductive Served (S : μ → Prop) (serve : μ → World σ τ μ → Except ε Unit × World σ τ μ) (w : World σ τ μ)
    (r r' : Except ε α × World σ τ μ × (σ → σ)) : Prop
  | silent : r.2.1.sent = w.sent → r' = r → Served S serve w r r'
  | sent (m : μ) (w₁ : World σ τ μ) : S m → r.2.1.sent = w.sent ++ [m] → r.2.2 = id → (∃ a, r.1 = .ok a) →
      World.Same r.2.1 w₁ → w₁.sent = w.sent →
      (∀ w₂, serve m w₁ = (.ok (), w₂) → r'.1 = r.1 ∧ World.Same w₂ r'.2.1 ∧ r'.2.1.sent = w₂.sent ∧ r'.2.2 = id) →
      (∀ e w₂, serve m w₁ = (.error e, w₂) → r' = (.error e, w₂, id)) → Served S serve w r r'

/-- **A message served on the spot** is served in the world the program
leaves, and what follows changes nothing. -/
theorem Tail.runInline {p : Txn σ τ μ ε α} : ∀ {clean : Bool} {w : World σ τ μ} {u : σ → σ}, Tail S clean p →
    (clean = true → u = id) → Served S serve w (p.run w u) (p.runInline serve w u) := by
  induction p with
  | ret a => exact fun _ _ => .silent rfl rfl
  | raise e => exact fun _ _ => .silent rfl rfl
  | read k ih => exact fun h hu => ih _ _ (h _ _) hu
  | write g k ih => exact fun h hu => ih h fun hf => absurd hf Bool.false_ne_true
  | emit g k ih =>
    intro clean w u h hu
    have hrest := ih (g w.ext).1 (w := w.setExt (g w.ext).2) (h _) hu
    cases hrest with
    | silent h₁ h₂ => exact .silent h₁ h₂
    | sent m w₁ h₁ h₂ h₃ h₄ h₅ h₆ h₇ h₈ => exact .sent m w₁ h₁ h₂ h₃ h₄ h₅ h₆ h₇ h₈
  | commit k ih =>
    intro clean w u h hu
    have hrest := ih (w := w.commit (u w.now)) h fun _ => rfl
    cases hrest with
    | silent h₁ h₂ => exact .silent h₁ h₂
    | sent m w₁ h₁ h₂ h₃ h₄ h₅ h₆ h₇ h₈ => exact .sent m w₁ h₁ h₂ h₃ h₄ h₅ h₆ h₇ h₈
  | rollback k ih => exact fun h hu => ih h fun _ => rfl
  | send m k ih =>
    rintro clean w u ⟨hclean, hm, hquiet⟩ hu
    obtain rfl := hu hclean
    obtain ⟨a, ha⟩ := hquiet.runs serve
    obtain ⟨h₁, h₂, h₃, h₄, -⟩ := ha (w.post m)
    refine .sent m w hm h₄ h₂ ⟨a, h₁⟩ (.symm ⟨h₃.now, h₃.ext⟩) rfl (fun w₂ hs => ?_) fun e w₂ hs => ?_
    · obtain ⟨h₁', h₂', h₃', h₄', h₅'⟩ := ha w₂
      have hrun : Txn.runInline serve (.send m k) w id = k.run w₂ id := by rw [Txn.runInline, hs, ← h₅']
      rw [hrun]
      exact ⟨h₁'.trans h₁.symm, h₃', h₄', h₂'⟩
    · rw [Txn.runInline, hs]

end tail

end Txn
