/-
Rely-guarantee for operations that may overlap in every way, several on one
key included, and die anywhere. What two of them must not share is whatever
`Apart` says; a run in which no two operations begun clash keeps the
invariant (`Rules.Holds.execute`).

An operation of which only the commits and the effects matter is `Confined`:
it takes no reading for granted, so it relies on nothing.
-/
import InvoiceOps.Lib.Writes

namespace Txn

variable {Op σ τ μ ε α β : Type}

/-! ## Confined programs -/

/-- A commit that is a `K`, or an effect that is an `M`. -/
def Confined.Step (K : σ → σ → Prop) (M : τ → τ → Prop) (w w' : World σ τ μ) : Prop :=
  K w.now w'.now ∧ w'.ext = w.ext ∨ w'.now = w.now ∧ M w.ext w'.ext

/-- Whatever it reads, and whatever it had written by then is a `K`: the
program commits a `K`, its effects are an `M`, and it leaves a `K` written. -/
def Confined (K : σ → σ → Prop) (M : τ → τ → Prop) (p : Txn σ τ μ ε α) : Prop :=
  ∀ (w : World σ τ μ) (u : σ → σ), (∀ d, K d (u d)) →
    wp (fun _ _ => True) (Confined.Step K M) (fun _ u _ => ∀ d, K d (u d)) (fun _ u _ => ∀ d, K d (u d)) p w u

namespace Confined

variable {K : σ → σ → Prop} {M : τ → τ → Prop}

theorem bind {p : Txn σ τ μ ε α} {f : α → Txn σ τ μ ε β} (hf : ∀ a, Confined K M (f a)) (h : Confined K M p) :
    Confined K M (p >>= f) := fun w u hu =>
  (wp_bind p f w u).mpr (wp_mono (h w u hu) fun w u a hu => hf a w u hu)

theorem tryCatch {p : Txn σ τ μ ε α} {h : ε → Txn σ τ μ ε α} (hh : ∀ e, Confined K M (h e))
    (hp : Confined K M p) : Confined K M (p.tryCatch h) := fun w u hu =>
  (wp_tryCatch p h w u).mpr
    (wp_conseq (fun _ _ h => h) (fun _ _ h => h) (fun w u e hu => hh e w u hu) (fun _ _ _ h => h) p (hp w u hu))

/-- Judged by their commits and effects. -/
theorem judgement (hrefl : ∀ d, K d d) : Judgement fun α (p : Txn σ τ μ ε α) => Confined K M p where
  ret _ := fun _ _ hu => hu
  raise _ := fun _ _ hu => hu
  query_bind h := fun _ u hu w' _ => h _ w' u hu
  queryExt _ := fun _ _ hu _ _ => hu
  commit := fun _ _ hu w' _ => ⟨.inl ⟨hu w'.now, rfl⟩, hrefl⟩
  rollback := fun _ _ _ => hrefl
  post _ := fun _ _ hu w' _ => ⟨.inl ⟨hrefl w'.now, rfl⟩, hu⟩
  bind := .bind
  tryCatch := .tryCatch

theorem update (htrans : ∀ d₁ d₂ d₃, K d₁ d₂ → K d₂ d₃ → K d₁ d₃) {f : σ → σ} (h : ∀ d, K d (f d)) :
    Confined K M (update f : Txn σ τ μ ε Unit) := fun _ _ hu d => htrans _ _ _ (hu d) (h _)

/-- Writes in a row are one write, and need only be a `K` together. -/
theorem write (htrans : ∀ d₁ d₂ d₃, K d₁ d₂ → K d₂ d₃ → K d₁ d₃) {f : σ → σ} (h : ∀ d, K d (f d))
    {p : Txn σ τ μ ε α} (hp : Confined K M p) : Confined K M (.write f p) :=
  fun w _ hu => hp w _ fun d => htrans _ _ _ (hu d) (h _)

theorem effect {f : τ → Except ε Unit × τ} (h : ∀ t, M t (f t).2) :
    Confined K M (effect f : Txn σ τ μ ε Unit) :=
  fun _ _ hu => wp_effect.mpr fun w' _ => ⟨.inr ⟨rfl, h w'.ext⟩, by split <;> exact hu⟩

end Confined

/-! ## Operations side by side -/

/-- A rely-guarantee proof for the operations `prog`. -/
structure Rules (prog : Op → Txn σ τ μ ε Unit) where
  /-- Holds in every state. -/
  Inv : World σ τ μ → Prop
  /-- What an operation lets the others do. -/
  R : Op → World σ τ μ → World σ τ μ → Prop
  /-- What an operation does. -/
  G : Op → World σ τ μ → World σ τ μ → Prop
  /-- No two operations of a run may be otherwise. -/
  Apart : Op → Op → Prop
  /-- What an operation finds when it begins. -/
  Ready : Op → World σ τ μ → Prop
  symm : ∀ {op op'}, Apart op op' → Apart op' op
  refl : ∀ op w, R op w w
  trans : ∀ op w₁ w₂ w₃, R op w₁ w₂ → R op w₂ w₃ → R op w₁ w₃
  inv_guar : ∀ {op w w'}, Inv w → G op w w' → Inv w'
  rely_guar : ∀ {op op' w w'}, Apart op op' → Inv w → G op w w' → R op' w w'
  ready_rely : ∀ {op w w'}, Ready op w → R op w w' → Ready op w'
  spec : ∀ op w, Inv w → Ready op w → wp (R op) (G op) (fun _ _ _ => True) (fun _ _ _ => True) (prog op) w id

/-- The operations a schedule begins, in order. -/
def begun : List (Action Op) → List Op :=
  List.filterMap fun
    | .begin _ op => some op
    | _ => none

theorem mem_begun {as : List (Action Op)} {op : Op} : op ∈ begun as ↔ ∃ t, .begin t op ∈ as := by
  rw [begun, List.mem_filterMap]
  constructor
  · rintro ⟨a, ha, h⟩
    cases a with
    | begin t op' => cases h; exact ⟨t, ha⟩
    | _ => cases h
  · rintro ⟨t, ht⟩
    exact ⟨_, ht, rfl⟩

namespace Rules

variable {prog : Op → Txn σ τ μ ε Unit} (D : Rules prog)

/-- **The invariant of a run** that is still to begin `ops`. -/
structure Holds (ops : List Op) (s : Sys Op σ τ μ ε) : Prop where
  inv : D.Inv s.world
  flight : ∀ t f, s.flights t = some f →
    wp (D.R f.op) (D.G f.op) (fun _ _ _ => True) (fun _ _ _ => True) f.session.prog s.world f.session.pending
  apart : ∀ {t₁ t₂ f₁ f₂}, t₁ ≠ t₂ → s.flights t₁ = some f₁ → s.flights t₂ = some f₂ → D.Apart f₁.op f₂.op
  ready : ∀ op ∈ ops, D.Ready op s.world
  clear : ∀ t f, s.flights t = some f → ∀ op ∈ ops, D.Apart f.op op
  pairwise : ops.Pairwise D.Apart

variable {D} {ops : List Op} {s s' : Sys Op σ τ μ ε}

theorem Holds.idle {w : World σ τ μ} (hinv : D.Inv w) (hready : ∀ op ∈ ops, D.Ready op w)
    (hops : ops.Pairwise D.Apart) : D.Holds ops (.idle w) where
  inv := hinv
  flight _ _ h := by cases h
  apart _ h := by cases h
  ready := hready
  clear _ _ h := by cases h
  pairwise := hops

/-- A session opens. -/
theorem Holds.begin {t : Nat} {op : Op} (h : D.Holds (op :: ops) s) :
    D.Holds ops (s.put s.world t (some ⟨op, none, start (prog op)⟩)) where
  inv := h.inv
  flight t' f hf := by
    rcases Sys.put_cases hf with ⟨-, hf⟩ | ⟨-, hf⟩
    · cases hf
      exact D.spec op s.world h.inv (h.ready op List.mem_cons_self)
    · exact h.flight t' f hf
  apart := Sys.put_pair (P := fun f f' => D.Apart f.op f'.op) D.symm h.apart fun _ hf =>
    D.symm (h.clear _ _ hf op List.mem_cons_self)
  ready op' hop := h.ready op' (List.mem_cons_of_mem _ hop)
  clear t' f hf op' hop := by
    rcases Sys.put_cases hf with ⟨-, hf⟩ | ⟨-, hf⟩
    · cases hf
      exact List.rel_of_pairwise_cons h.pairwise hop
    · exact h.clear t' f hf op' (List.mem_cons_of_mem _ hop)
  pairwise := h.pairwise.of_cons

/-- A session takes a node: what it does, every other one relies on. -/
theorem Holds.advance {t : Nat} {f : Flight Op σ τ μ ε} {w : World σ τ μ} {se : Session σ τ μ ε Unit} {d : Option σ}
    (h : D.Holds ops s) (hf : s.flights t = some f) (hs : Txn.step s.world f.session = some (w, se)) :
    D.Holds ops (s.put w t (some ⟨f.op, d, se⟩)) := by
  obtain ⟨hw, hwp⟩ := wp_step (D.refl f.op) (h.flight t f hf) hs
  have hrely : ∀ op, D.Apart f.op op → D.R op s.world w := fun op hop => by
    rcases hw with rfl | hw
    · exact D.refl op _
    · exact D.rely_guar hop h.inv hw
  have hother : ∀ {t' f'}, t' ≠ t → s.flights t' = some f' → D.Apart f.op f'.op := fun hne => h.apart hne.symm hf
  refine ⟨?_, fun t' f' hf' => ?_, Sys.put_pair (P := fun f f' => D.Apart f.op f'.op) (f := ⟨f.op, d, se⟩) D.symm
    h.apart hother, fun op hop => ?_, fun t' f' hf' op hop => ?_, h.pairwise⟩
  · rcases hw with rfl | hw
    · exact h.inv
    · exact D.inv_guar h.inv hw
  · rcases Sys.put_cases hf' with ⟨-, hf'⟩ | ⟨hne, hf'⟩
    · cases hf'
      exact hwp
    · exact wp_rely (D.trans f'.op) (fun _ _ _ _ _ _ => trivial) (fun _ _ _ _ _ _ => trivial)
        (hrely f'.op (hother hne hf')) (h.flight t' f' hf')
  · exact D.ready_rely (h.ready op hop) (hrely op (h.clear t f hf op hop))
  · rcases Sys.put_cases hf' with ⟨-, hf'⟩ | ⟨-, hf'⟩
    · cases hf'
      exact h.clear t f hf op hop
    · exact h.clear t' f' hf' op hop

/-- A session dies. -/
theorem Holds.abort {t : Nat} (h : D.Holds ops s) : D.Holds ops (s.put s.world t none) := by
  have hput : ∀ {t' f'}, (s.put s.world t none).flights t' = some f' → s.flights t' = some f' := fun hf' => by
    rcases Sys.put_cases hf' with ⟨-, hf'⟩ | ⟨-, hf'⟩
    · cases hf'
    · exact hf'
  exact ⟨h.inv, fun t' f' hf' => h.flight t' f' (hput hf'), fun hne h₁ h₂ => h.apart hne (hput h₁) (hput h₂),
    h.ready, fun t' f' hf' => h.clear t' f' (hput hf'), h.pairwise⟩

/-- **Every part of a schedule** in which no two operations begun clash. -/
theorem Holds.execute : ∀ (as : List (Action Op)) {s s' : Sys Op σ τ μ ε}, D.Holds (begun as ++ ops) s →
    s.execute prog as = some s' →
      D.Holds ops s' ∧ Relation.ReflTransGen (fun w w' => ∃ op, D.G op w w') s.world s'.world
  | [], s, s', h, hex => by cases hex; exact ⟨h, .refl⟩
  | a :: as, s, s', h, hex => by
    simp only [Sys.execute, Option.bind_eq_some_iff] at hex
    obtain ⟨s₁, hs, hex⟩ := hex
    cases a with
    | begin t op =>
      obtain ⟨-, rfl⟩ := Sys.step_begin hs
      have hbegin : D.Holds (begun as ++ ops) (s.put s.world t (some ⟨op, none, start (prog op)⟩)) := h.begin
      have hrest := Holds.execute as hbegin hex
      exact hrest
    | advance t =>
      obtain ⟨f, w, se, hf, hstep, rfl⟩ := Sys.step_advance hs
      obtain ⟨hend, hrun⟩ := Holds.execute as (h.advance hf hstep) hex
      rcases (wp_step (D.refl f.op) (h.flight t f hf) hstep).1 with hw | hw
      · exact ⟨hend, hw ▸ hrun⟩
      · exact ⟨hend, .head ⟨f.op, hw⟩ hrun⟩
    | abort t =>
      obtain ⟨-, -, rfl⟩ := Sys.step_abort hs
      have habort : D.Holds (begun as ++ ops) (s.put s.world t none) := h.abort
      have hrest := Holds.execute as habort hex
      exact hrest

end Rules

end Txn
