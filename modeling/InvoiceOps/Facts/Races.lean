/-
One invoice, many sessions. The guards are checks on a row read without a
lock, so two sessions that both found the invoice in its turn both commit
(`raced`). Where no two such sessions overlap (`Alone`), an invoice is
extracted, decided on and exported at most once (`single_of_run`).
-/
import InvoiceOps.Facts.Interleaved

namespace InvoiceOps

/-! ## Human decisions -/

/-- The audit rows of a reviewer's decision. -/
def Invoice.decisions (inv : Invoice) : List AuditLog :=
  inv.auditLog.filter fun a => a.toStatus == .approved || a.toStatus == .rejected

/-- No decision follows a decision, or an automatic approval. -/
theorem Trail.decisions_length_le {s t : InvoiceStatus} {es : List AuditLog} (h : Trail s es t) :
    (es.filter fun a => a.toStatus == .approved || a.toStatus == .rejected).length ≤ if 7 ≤ s.rank then 0 else 1 := by
  induction h with
  | nil => simp
  | @cons e es t he _ ih =>
    have hlt := InvoiceStatus.rank_lt_of_canTransition he
    by_cases hd : (e.toStatus == .approved || e.toStatus == .rejected) = true
    · have hfrom : e.fromStatus = .needsReview := by
        simp only [Bool.or_eq_true, beq_iff_eq] at hd
        rcases hd with hd | hd <;> rw [hd] at he <;> cases hf : e.fromStatus <;> rw [hf] at he <;>
          first | rfl | cases he
      have hrank : 7 ≤ e.toStatus.rank := by
        rw [hfrom] at hlt
        exact hlt
      rw [if_pos hrank] at ih
      rw [List.filter_cons, if_pos hd, hfrom]
      exact Nat.succ_le_succ ih
    · rw [List.filter_cons, if_neg hd]
      refine ih.trans ?_
      split
      · exact Nat.zero_le _
      · next h => rw [if_neg (by omega)]

/-! ## What holds of every state -/

/-- As many artifacts as export rows. -/
def Balanced (i : Uuid) (w : World) : Prop :=
  ∀ inv, w.now.invoice i = some inv → (artifacts i w.ext).length = inv.exports.length

/-- Every row fits its status, and an artifact belongs to an invoice that
was being exported. -/
structure Single (w : World) : Prop where
  ok : Rows (fun _ => RowOk) w
  trail : Rows (fun _ inv => Trail .received inv.auditLog inv.status) w
  once : ∀ i, (artifacts i w.ext).length ≤ 1
  exporting : ∀ i, artifacts i w.ext ≠ [] →
    ∃ inv, w.now.invoice i = some inv ∧ (exportable inv.status = true ∨ inv.status = .exported)

section single
variable {env : Env} {c : Call} {a₀ : List Write} {i j : Uuid} {w w' : World} {inv inv' : Invoice}

theorem Fresh.single (h : Fresh w) (hart : ∀ i, artifacts i w.ext = []) : Single w where
  ok i inv hi := .new (h.untouched hi)
  trail i inv hi := .new (h.untouched hi)
  once i := by simp [hart i]
  exporting i hne := absurd (hart i) hne

theorem Fresh.balanced (h : Fresh w) (hart : ∀ i, artifacts i w.ext = []) (i : Uuid) : Balanced i w := by
  intro inv hi
  rw [hart i, (h.untouched hi).exports]
  rfl

/-- An invoice with an artifact can only be moved to EXPORTED. -/
theorem Move.exporting {R : World → World → Prop} (hm : Move env R c a₀ w inv inv')
    (hs : exportable inv.status = true ∨ inv.status = .exported) : inv'.status = .exported := by
  have hs' : (inv.status = .autoApproved ∨ inv.status = .approved) ∨ inv.status = .exported := by
    simpa [exportable] using hs
  cases hm with
  | exported => rfl
  | noExtraction reason hst => rcases hst with hst | hst <;> rw [hst] at hs' <;> simp at hs'
  | extracted _ _ _ hst | extractionFailed _ _ hst | matched _ _ hst | validated _ _ _ _ hst | decided _ _ _ hst
  | reviewed _ _ _ hst => rw [hst] at hs'; simp at hs'

/-- **One act**: an export writes its artifact where there is none. -/
theorem Single.act (h : Single w) (hact : Act env (Undisturbed i) c a₀ i w w')
    (ha₀ : ∀ key now, c = .export key now → a₀ = []) : Single w' := by
  have hok := hact.rows (fun _ h => h) (fun _ h hm => h.move hm) h.ok
  have htrail := hact.rows (fun _ h => h) (fun _ h hm => h.move hm) h.trail
  cases hact with
  | noop | send => exact ⟨hok, htrail, h.once, h.exporting⟩
  | @move inv inv' d hrow hm hch =>
    refine ⟨hok, htrail, h.once, fun j hne => ?_⟩
    obtain ⟨o, ho, hs⟩ := h.exporting j hne
    by_cases hji : j = i
    · subst hji
      obtain rfl := Option.some.inj (hrow.symm.trans ho)
      exact ⟨inv', hch.self, .inr (hm.exporting hs)⟩
    · exact ⟨o, (hch.other hji).trans ho, hs⟩
  | kept hk =>
    refine ⟨hok, htrail, fun j => ?_, fun j hne => ?_⟩
    · rw [Txn.World.setExt_ext, Artifacts.kept hk]
      exact h.once j
    · rw [Txn.World.setExt_ext, Artifacts.kept hk] at hne
      exact h.exporting j hne
  | @artifact inv key now p disk hc hrow hs hkey hl ha hw =>
    have hself : artifacts i disk = [p] := by rw [Artifacts.wrote hw hkey, ha, ha₀ key now hc]; rfl
    refine ⟨hok, htrail, fun j => ?_, fun j hne => ?_⟩
    · rw [Txn.World.setExt_ext]
      by_cases hij : i = j
      · rw [← hij, hself]
        exact le_rfl
      · rw [Artifacts.other hij hw hkey]
        exact h.once j
    · rw [Txn.World.setExt_ext] at hne
      by_cases hij : i = j
      · exact ⟨inv, hij ▸ hrow, .inl hs⟩
      · rw [Artifacts.other hij hw hkey] at hne
        exact h.exporting j hne

/-- A call that is over has written an artifact with its export row, or neither. -/
theorem Balanced.over (h : Balanced i w) (ho : Over c i w w') : Balanced i w' := by
  intro inv hi
  cases ho with
  | @idle inv₀ hat _ =>
    obtain rfl := Option.some.inj (hat.row.symm.trans hi)
    rw [hat.written]
    exact h _ hat.start
  | refused hrow _ hnone =>
    rw [hrow, hnone] at hi
    cases hi
  | moved hm _ =>
    obtain ⟨inv₀, inv₁, h₀, h₁, -, hlen⟩ := hm
    obtain rfl := Option.some.inj (h₁.symm.trans hi)
    have := h inv₀ h₀
    omega

theorem Balanced.raised {e : Exn} (h : Balanced i w) (hr : Raised i w w' e) : Balanced i w' := by
  intro inv hi
  rw [hr.artifacts]
  exact h inv (hr.row ▸ hi)

end single

/-! ## Runs -/

/-- The session's call found its invoice in its turn, and has not ended. -/
def Acting (f : Txn.Flight CallOn DB Disk Message Exn) : Prop :=
  f.session.prog.isDone = false ∧ ∃ d, f.first = some d ∧ f.op.Takes d

/-- A session whose call is about to find its invoice in its turn finds no
other acting on it; and none dies between an artifact and its export row. -/
def Alone (s : Sessions) : Txn.Action CallOn → Prop
  | .begin _ _ => True
  | .advance t => ∀ f, s.flights t = some f → f.first = none → f.op.Takes s.world.now →
      ∀ t' f', t' ≠ t → s.flights t' = some f' → f'.op.invoiceId = f.op.invoiceId → ¬ Acting f'
  | .abort t => ∀ f, s.flights t = some f → Acting f → Balanced f.op.invoiceId s.world

/-- Each call keeps `Single` while the others leave its invoice alone, and
leaves its invoice balanced. -/
def singleDiscipline (env : Env) : Txn.Discipline (CallOn.prog env) Uuid where
  owner := CallOn.invoiceId
  guard := CallOn.Takes
  Inv := Single
  Free := Balanced
  R := Undisturbed
  G i w w' := ∃ c a₀, Act env (Undisturbed i) c a₀ i w w' ∧ ∀ key now, c = .export key now → a₀ = []
  refl := .refl
  trans := .trans
  inv_guar h hG := by
    obtain ⟨c, a₀, hact, ha₀⟩ := hG
    exact h.act hact ha₀
  rely_guar _ hij hG := by
    obtain ⟨c, a₀, hact, -⟩ := hG
    exact hact.undisturbed hij
  inv_noop h := ⟨h.ok, h.trail, h.once, h.exporting⟩
  rely_noop := .noop
  free_rely h hR inv hi := by
    rw [hR.artifacts]
    exact h inv (hR.invoice ▸ hi)
  spec op := by
    obtain ⟨k, hk, hidle⟩ := op.call.guarded env op.invoiceId
    refine ⟨k, hk, fun w hw => ⟨fun hg hfree => ?_, fun hg => hidle _ _ fun inv hinv => ?_⟩⟩
    · obtain ⟨inv, hi, hentry⟩ := hg
      refine op.wp hk (fun _ _ h => ⟨_, _, h, fun key now hc => ?_⟩) (fun _ h => hfree.over h)
        fun _ _ h => hfree.raised h
      -- An invoice about to be exported has no export row, so it has no artifact.
      rw [hc] at hentry
      have hlen := (hw.ok _ inv hi).exported
      rw [if_neg (by rintro hs; rw [hs] at hentry; cases hentry), ← hfree inv hi] at hlen
      exact List.length_eq_zero_iff.mp hlen
    · by_contra hentry
      exact hg ⟨inv, hinv, by simpa using hentry⟩

section runs
variable {env : Env} {s : Sessions}

theorem Alone.exclusive {a : Txn.Action CallOn} (h : Alone s a) : (singleDiscipline env).Exclusive s a := by
  cases a <;> exact h

/-- **Once each**: where no two sessions act on one invoice at a time, an
invoice gets at most one human decision, one successful extraction, one
export row and one artifact, and none of these two when it is rejected. -/
theorem single_of_run {w : World} (hw : Fresh w) (hart : ∀ i, artifacts i w.ext = [])
    (hr : Txn.Sys.Runs (CallOn.prog env) Alone (.idle w) s) {i : Uuid} {inv : Invoice}
    (hi : s.world.now.invoice i = some inv) :
    inv.decisions.length ≤ 1 ∧ (inv.extractions.filter (·.ok)).length ≤ 1 ∧ inv.exports.length ≤ 1 ∧
      (artifacts i s.world.ext).length ≤ 1 ∧
      (inv.status = .rejected → inv.exports = [] ∧ artifacts i s.world.ext = []) := by
  have hok : (singleDiscipline env).SysOk (.idle w) :=
    (singleDiscipline env).sysOk_idle (hw.single hart) (hw.balanced hart)
  have h : Single s.world := (hok.runs (hr.mono fun _ _ h => h.exclusive)).inv
  have hrow := h.ok i inv hi
  refine ⟨(h.trail i inv hi).decisions_length_le, ?_, ?_, h.once i, fun hs => ⟨?_, ?_⟩⟩
  · refine (List.length_filter_le ..).trans ?_
    by_cases hr : inv.status = .received
    · simp [(hrow.received hr).1]
    · by_cases hf : inv.status = .failed
      · obtain ⟨e, he, -⟩ := hrow.failed hf
        simp [he]
      · obtain ⟨e, r, he, -⟩ := hrow.succeeded hr hf
        simp [he]
  · rw [hrow.exported]
    split <;> simp
  · have hlen := hrow.exported
    rw [hs] at hlen
    exact List.length_eq_zero_iff.mp hlen
  · by_contra hne
    obtain ⟨inv', hi', hst⟩ := h.exporting i hne
    obtain rfl := Option.some.inj (hi.symm.trans hi')
    rw [hs] at hst
    rcases hst with hst | hst <;> cases hst

end runs

namespace Sample

/-- Two deliveries of the extract task, each of which reads the row before
the other commits. -/
def extractedTwice : List (Txn.Action CallOn) :=
  [.begin 0 ⟨uuid 5, .extract (provider plain)⟩, .begin 1 ⟨uuid 5, .extract (provider plain)⟩, .advance 0, .advance 1] ++
    advances 0 8 ++ advances 1 8

/-- An invoice in review, approved and rejected at the same time; the export
that follows the approval is through before the rejection commits. -/
def decidedTwice : List (Txn.Action CallOn) :=
  [.begin 0 ⟨uuid 5, .extract (provider unordered)⟩] ++ advances 0 9 ++ [.begin 1 ⟨uuid 5, .matchVendor⟩] ++
    advances 1 11 ++ [.begin 2 ⟨uuid 5, .validate⟩] ++ advances 2 9 ++ [.begin 3 ⟨uuid 5, .approve⟩] ++ advances 3 7 ++
    [.begin 4 ⟨uuid 5, .decide true "first" none⟩, .begin 5 ⟨uuid 5, .decide false "second" none⟩, .advance 4,
      .advance 5] ++ advances 4 5 ++ [.begin 6 ⟨uuid 5, .export (uuid 15) "2024-05-18T09:30:00+00:00"⟩] ++
    advances 6 13 ++ advances 5 3

/-- What an invoice has come to. -/
structure Outcome where
  status : InvoiceStatus
  decisions : List InvoiceStatus
  /-- Whether each extraction succeeded. -/
  extractions : List Bool
  exports : Nat
  artifacts : Nat
  deriving DecidableEq

def outcome (w : World) : Option Outcome :=
  (w.now.invoice (uuid 5)).map fun inv => ⟨inv.status, inv.decisions.map (·.toStatus), inv.extractions.map (·.ok),
    inv.exports.length, (artifacts (uuid 5) w.ext).length⟩

def outcomeOf (as : List (Txn.Action CallOn)) : Option Outcome :=
  (Txn.Sys.execute (CallOn.prog env) (.idle received) as).bind fun s => outcome s.world

theorem exists_run {as : List (Txn.Action CallOn)} {o : Outcome} (h : outcomeOf as = some o) :
    ∃ s, Txn.Sys.Runs (CallOn.prog env) (fun _ _ => True) (.idle received) s ∧ outcome s.world = some o := by
  obtain ⟨s, hs, ho⟩ := Option.bind_eq_some_iff.mp h
  exact ⟨s, Txn.Sys.runs_of_execute as hs, ho⟩

theorem outcomes : [extractedTwice, decidedTwice].map outcomeOf =
    [some ⟨.extracted, [], [true, true], 0, 0⟩, some ⟨.rejected, [.approved, .rejected], [true], 1, 1⟩] := by
  decide +kernel

end Sample

/-- Overlapping sessions extract an invoice twice; and they approve, reject
and export one, which ends REJECTED. -/
theorem raced :
    (∃ s, Txn.Sys.Runs (CallOn.prog Sample.env) (fun _ _ => True) (.idle Sample.received) s ∧
      Sample.outcome s.world = some ⟨.extracted, [], [true, true], 0, 0⟩) ∧
    (∃ s, Txn.Sys.Runs (CallOn.prog Sample.env) (fun _ _ => True) (.idle Sample.received) s ∧
      Sample.outcome s.world = some ⟨.rejected, [.approved, .rejected], [true], 1, 1⟩) := by
  obtain ⟨h₁, h₂⟩ := List.cons.inj Sample.outcomes
  exact ⟨Sample.exists_run h₁, Sample.exists_run (List.cons.inj h₂).1⟩

namespace Sample

/-- An invoice extracted, decided on and exported while others do the same:
the extract task is delivered twice, a second reviewer decides and a second
export starts, each before the first of its kind has ended, and each reads
the row after the first has committed. -/
def again : List (Txn.Action CallOn) :=
  [.begin 0 ⟨uuid 5, .extract (provider unordered)⟩, .begin 1 ⟨uuid 6, .extract (provider plain)⟩,
    .begin 2 ⟨uuid 5, .extract (provider unordered)⟩, .advance 0, .advance 1] ++ advances 0 7 ++ advances 2 2 ++
    [.advance 0, .begin 3 ⟨uuid 5, .matchVendor⟩] ++ advances 3 6 ++ advances 1 8 ++ advances 3 5 ++
    [.begin 4 ⟨uuid 5, .validate⟩] ++ advances 4 9 ++ [.begin 5 ⟨uuid 5, .approve⟩] ++ advances 5 7 ++
    [.begin 6 ⟨uuid 5, .decide true "first" none⟩, .begin 7 ⟨uuid 5, .decide false "second" none⟩] ++
    advances 6 4 ++ advances 7 2 ++ advances 6 2 ++
    [.begin 8 ⟨uuid 5, .export (uuid 15) "2024-05-18T09:30:00+00:00"⟩,
      .begin 9 ⟨uuid 5, .export (uuid 14) "2024-05-18T09:31:00+00:00"⟩] ++ advances 8 13 ++ advances 9 2

instance (op : CallOn) (d : DB) : Decidable (op.Takes d) :=
  decidable_of_iff ((d.invoice op.invoiceId).any (op.call.entry ·.status) = true) (Option.any_eq_true _ _)

instance (f : Txn.Flight CallOn DB Disk Message Exn) : Decidable (Acting f) :=
  inferInstanceAs (Decidable (_ ∧ ∃ d ∈ f.first, f.op.Takes d))

/-- What `Alone` asks of the session that acts and another one. -/
def Away (d : DB) (f f' : Txn.Flight CallOn DB Disk Message Exn) : Prop :=
  f.first = none → f.op.Takes d → f'.op.invoiceId = f.op.invoiceId → ¬ Acting f'

instance (d : DB) (f f' : Txn.Flight CallOn DB Disk Message Exn) : Decidable (Away d f f') :=
  inferInstanceAs (Decidable (f.first = none → f.op.Takes d → f'.op.invoiceId = f.op.invoiceId → ¬ Acting f'))

theorem outcome_again :
    ((Txn.Sys.executeIf (CallOn.prog env) (Txn.Sys.Apart 10 Away) (.idle received) again).bind fun s => outcome s.world) =
      some ⟨.exported, [.approved], [true], 1, 1⟩ := by
  decide +kernel

end Sample

theorem single_of_sample : ∃ (s : Sessions) (inv : Invoice),
    Txn.Sys.Runs (CallOn.prog Sample.env) Alone (.idle Sample.received) s ∧
      s.world.now.invoice (Sample.uuid 5) = some inv ∧ inv.status = .exported ∧ inv.decisions.length ≤ 1 ∧
      (inv.extractions.filter (·.ok)).length ≤ 1 ∧ inv.exports.length ≤ 1 ∧
      (artifacts (Sample.uuid 5) s.world.ext).length ≤ 1 := by
  obtain ⟨s, hex, hs⟩ := Option.bind_eq_some_iff.mp Sample.outcome_again
  obtain ⟨inv, hi, ho⟩ := Option.map_eq_some_iff.mp hs
  have hr : Txn.Sys.Runs (CallOn.prog Sample.env) Alone (.idle Sample.received) s := by
    refine (Txn.Sys.runs_of_executeIf Sample.again hex).of_apart (fun _ _ _ => trivial) ?_ fun _ _ => rfl
    exact fun s t h f hf hfirst htakes t' f' hne hf' hid => h f t' f' hf hne hf' hfirst htakes hid
  obtain ⟨hd, he, hx, ha, -⟩ := single_of_run Sample.received_fresh Sample.received_artifacts hr hi
  exact ⟨s, inv, hr, hi, congrArg Sample.Outcome.status ho, hd, he, hx, ha⟩

end InvoiceOps
