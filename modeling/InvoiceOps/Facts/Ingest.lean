/-
Uploads of any bytes, interleaved node by node, against the unique index on
`content_sha256`. The pre-check is an optimisation: what keeps one row per
digest is that an INSERT waits for whoever holds the digest uncommitted, and
that the loser rolls back and reads the winner's row.

`IngestOk` is what holds of all calls together in every state of a run, one
lemma per kind of action; `ingested_once` reads the rest off it.
-/
import InvoiceOps.Facts.IngestStages

namespace InvoiceOps

/-- **The schedules.** A new id is fresh; an INSERT waits while another call
holds its digest uncommitted (its check and its write are one statement); a
call dies before its commit or not at all. -/
def Waits (s : Ingestion) : Txn.Action Upload → Prop
  | .begin _ up => s.world.now.invoice up.id = none ∧ ∀ t f, s.flights t = some f → f.op.id ≠ up.id
  | .advance t => ∀ f, s.flights t = some f → f.session.prog = f.op.inserting →
      ∀ t' f', t' ≠ t → s.flights t' = some f' → f'.op.digest = f.op.digest → ¬ f'.op.Held f'.session.prog
  | .abort t => ∀ f, s.flights t = some f → f.session.prog.isDone = false ∧ f.session.prog ≠ f.op.enqueueing

/-- What holds of a run that began in world `w₀` and sent `log`. -/
structure IngestOk (env : Env) (w₀ : World) (log : List (Nat × Message)) (s : Ingestion) : Prop where
  stage : ∀ {t f}, s.flights t = some f → Stage env f.op s.world.now f.session
  digests : UniqueDigests s.world.now
  ids : ∀ {t t' f f'}, t ≠ t' → s.flights t = some f → s.flights t' = some f' → f.op.id ≠ f'.op.id
  fresh : ∀ {t f}, s.flights t = some f → ¬ f.op.Won f.session.prog → s.world.now.invoice f.op.id = none
  held : ∀ {t t' f f'}, t ≠ t' → s.flights t = some f → s.flights t' = some f' → f.op.Held f.session.prog →
    f'.op.Held f'.session.prog → f.op.digest ≠ f'.op.digest
  rows : ∀ row, row ∈ s.world.now.invoices.rows ↔ row ∈ w₀.now.invoices.rows ∨
    ∃ t f, s.flights t = some f ∧ f.op.Won f.session.prog ∧ f.op.row = row
  /-- A call that created its row sent one message. -/
  sent : ∀ {t f}, s.flights t = some f → f.session.prog = .ret ⟨f.op.row, true⟩ →
    (log.filter fun e => e.1 = t) = [(t, ⟨.extractInvoice, f.op.id⟩)]
  /-- No other call sent any. -/
  sender : ∀ {t m}, (t, m) ∈ log → ∃ f, s.flights t = some f ∧ f.session.prog = .ret ⟨f.op.row, true⟩

section runs
variable {env : Env} {w₀ : World} {log : List (Nat × Message)} {s s' : Ingestion}

theorem ingestOk_idle (h : UniqueDigests w₀.now) : IngestOk env w₀ [] (.idle w₀) where
  stage h := by cases h
  digests := h
  ids _ h := by cases h
  fresh h := by cases h
  held _ h := by cases h
  rows row := by
    refine ⟨.inl, ?_⟩
    rintro (h | ⟨_, _, hf, -⟩)
    · exact h
    · cases hf
  sent h := by cases h
  sender h := by cases h

/-- Two calls that hold rows of their own hold them for different bytes. -/
def Apart (f f' : Uploading) : Prop :=
  f.op.Held f.session.prog → f'.op.Held f'.session.prog → f.op.digest ≠ f'.op.digest

theorem Apart.symm {f f' : Uploading} (h : Apart f f') : Apart f' f := fun hh hh' => (h hh' hh).symm

/-- A call that is at its first node has neither row nor message. -/
theorem Upload.not_won_prog (up : Upload) : ¬ up.Won (up.prog env) := by
  intro h
  rw [Upload.prog_eq] at h
  rcases h with h | h <;> cases h

theorem Upload.not_held_prog (up : Upload) : ¬ up.Held (up.prog env) := by
  intro h
  rw [Upload.prog_eq] at h
  rcases h with h | h <;> cases h

theorem IngestOk.begin (h : IngestOk env w₀ log s) {t : Nat} {up : Upload} (hfree : s.flights t = none)
    (hid : s.world.now.invoice up.id = none) (hids : ∀ t f, s.flights t = some f → f.op.id ≠ up.id) :
    IngestOk env w₀ log (s.put s.world t (some ⟨up, none, Txn.start (up.prog env)⟩)) := by
  have hold : ∀ {t' f}, s.flights t' = some f →
      (s.put s.world t (some ⟨up, none, Txn.start (up.prog env)⟩)).flights t' = some f := by
    intro t' f hf
    rw [Txn.Sys.put_other _ _ _ (fun he => by rw [he, hfree] at hf; cases hf)]
    exact hf
  constructor
  case stage =>
    intro t' f hf
    rcases Txn.Sys.put_cases hf with ⟨-, he⟩ | ⟨-, he⟩
    · cases he
      exact .checking
    · exact h.stage he
  case digests => exact h.digests
  case ids =>
    intro t₁ t₂ f₁ f₂ hne h₁ h₂
    refine Txn.Sys.put_pair (P := fun f f' => f.op.id ≠ f'.op.id) Ne.symm h.ids ?_ hne h₁ h₂
    exact fun _ hf => (hids _ _ hf).symm
  case fresh =>
    intro t' f hf hw
    rcases Txn.Sys.put_cases hf with ⟨-, he⟩ | ⟨-, he⟩
    · cases he
      exact hid
    · exact h.fresh he hw
  case held =>
    intro t₁ t₂ f₁ f₂ hne h₁ h₂
    refine Txn.Sys.put_pair (P := Apart) Apart.symm h.held ?_ hne h₁ h₂
    exact fun _ _ hh => absurd hh (Upload.not_held_prog up)
  case rows =>
    intro row
    rw [Txn.Sys.put_world, h.rows row]
    refine or_congr Iff.rfl ⟨?_, ?_⟩
    · rintro ⟨t', f, hf, hw⟩
      exact ⟨t', f, hold hf, hw⟩
    · rintro ⟨t', f, hf, hw, hrow⟩
      rcases Txn.Sys.put_cases hf with ⟨-, he⟩ | ⟨-, he⟩
      · cases he
        exact absurd hw (Upload.not_won_prog up)
      · exact ⟨t', f, he, hw, hrow⟩
  case sent =>
    intro t' f hf hp
    rcases Txn.Sys.put_cases hf with ⟨-, he⟩ | ⟨-, he⟩
    · cases he
      exact absurd (.inr hp) (Upload.not_won_prog up)
    · exact h.sent he hp
  case sender =>
    intro t' m hm
    obtain ⟨f, hf, hp⟩ := h.sender hm
    exact ⟨f, hold hf, hp⟩

theorem IngestOk.abort (h : IngestOk env w₀ log s) {t : Nat}
    (ht : ∀ f, s.flights t = some f → f.session.prog.isDone = false ∧ f.session.prog ≠ f.op.enqueueing) :
    IngestOk env w₀ log (s.put s.world t none) := by
  have hlive : ∀ f, s.flights t = some f → ¬ f.op.Won f.session.prog := by
    intro f hf hw
    obtain ⟨hd, he⟩ := ht f hf
    rcases hw with hw | hw
    · exact he hw
    · rw [hw] at hd
      cases hd
  have hold : ∀ {t' f}, (s.put s.world t none).flights t' = some f → s.flights t' = some f := by
    intro t' f hf
    rcases Txn.Sys.put_cases hf with ⟨-, he⟩ | ⟨-, he⟩
    · cases he
    · exact he
  have hkept : ∀ {t' f}, s.flights t' = some f → f.op.Won f.session.prog →
      (s.put s.world t none).flights t' = some f := by
    intro t' f hf hw
    rw [Txn.Sys.put_other _ _ _ (fun he => hlive f (by rw [← he]; exact hf) hw)]
    exact hf
  constructor
  case stage => exact fun hf => h.stage (hold hf)
  case digests => exact h.digests
  case ids => exact fun hne hf hf' => h.ids hne (hold hf) (hold hf')
  case fresh => exact fun hf => h.fresh (hold hf)
  case held => exact fun hne hf hf' => h.held hne (hold hf) (hold hf')
  case rows =>
    intro row
    rw [Txn.Sys.put_world, h.rows row]
    refine or_congr Iff.rfl ⟨?_, ?_⟩
    · rintro ⟨t', f, hf, hw, hrow⟩
      exact ⟨t', f, hkept hf hw, hw, hrow⟩
    · rintro ⟨t', f, hf, hw⟩
      exact ⟨t', f, hold hf, hw⟩
  case sent => exact fun hf => h.sent (hold hf)
  case sender =>
    intro t' m hm
    obtain ⟨f, hf, hp⟩ := h.sender hm
    exact ⟨f, hkept hf (.inr hp), hp⟩

theorem sends_enqueueing {t : Nat} {f : Uploading} (hf : s.flights t = some f)
    (hp : f.session.prog = f.op.enqueueing) : s.sends (.advance t) = [(t, ⟨.extractInvoice, f.op.id⟩)] := by
  obtain ⟨op, first, u, p⟩ := f
  dsimp only at hp
  subst hp
  simp only [Txn.Sys.sends, hf, Upload.enqueueing]

theorem sends_quiet {t : Nat} {f : Uploading} (hf : s.flights t = some f)
    (hp : ∀ m k, f.session.prog ≠ .send m k) : s.sends (.advance t) = [] := by
  obtain ⟨op, first, u, p⟩ := f
  cases p with
  | send m k => exact absurd rfl (hp m k)
  | _ => simp only [Txn.Sys.sends, hf]

/-- No other node sends. -/
theorem Node.sends {t : Nat} {f : Uploading} (hf : s.flights t = some f) {w : World} {p : Tx IngestResult}
    (h : Node f.op s.world w f.session.prog p) (hp : f.session.prog ≠ f.op.enqueueing) :
    s.sends (.advance t) = [] := by
  cases h with
  | quiet _ hq => exact sends_quiet hf hq
  | commit hc =>
    refine sends_quiet hf ?_
    rw [hc]
    intro m k h
    cases h
  | send he => exact absurd he hp

/-- A node sends no message but its own call's. -/
theorem Node.sends_other {t : Nat} {f : Uploading} (hf : s.flights t = some f) {w : World} {p : Tx IngestResult}
    (h : Node f.op s.world w f.session.prog p) {t' : Nat} (hne : t' ≠ t) :
    ((s.sends (.advance t)).filter fun e => e.1 = t') = [] := by
  by_cases hp : f.session.prog = f.op.enqueueing
  · rw [sends_enqueueing hf hp]
    simpa using hne.symm
  · rw [Node.sends hf h hp]
    rfl

/-- A call that has not ended has sent nothing. -/
theorem IngestOk.silent (h : IngestOk env w₀ log s) {t : Nat} {f : Uploading} (hf : s.flights t = some f)
    (hlive : f.session.prog.isDone = false) : (log.filter fun e => e.1 = t) = [] := by
  refine List.filter_eq_nil_iff.mpr ?_
  rintro ⟨t', m⟩ hm
  rw [decide_eq_true_eq]
  rintro rfl
  obtain ⟨f', hf', hp⟩ := h.sender hm
  rw [hf] at hf'
  cases hf'
  rw [hp] at hlive
  cases hlive

theorem IngestOk.advance (h : IngestOk env w₀ log s) {t : Nat} {f : Uploading} (hf : s.flights t = some f)
    (hwait : f.session.prog = f.op.inserting → ∀ t' f', t' ≠ t → s.flights t' = some f' →
      f'.op.digest = f.op.digest → ¬ f'.op.Held f'.session.prog)
    {w : World} {se : Txn.Session DB Disk Message Exn IngestResult} (hs : Txn.step s.world f.session = some (w, se)) :
    IngestOk env w₀ (log ++ s.sends (.advance t))
      (s.put w t (some ⟨f.op, some (f.first.getD s.world.now), se⟩)) := by
  obtain ⟨hstage, hnode⟩ := (h.stage hf).step (h.fresh hf) hs
  have hlive := Txn.isDone_of_step hs
  have hother : ∀ {t' f'}, t' ≠ t → s.flights t' = some f' →
      (s.put w t (some ⟨f.op, some (f.first.getD s.world.now), se⟩)).flights t' = some f' := by
    intro t' f' hne hf'
    rw [Txn.Sys.put_other _ _ _ hne]
    exact hf'
  have hheld : ∀ {t' f'}, t' ≠ t → s.flights t' = some f' → f.op.Held se.prog → f'.op.Held f'.session.prog →
      f.op.digest ≠ f'.op.digest := by
    intro t' f' hne hf' hh hh' hd
    rcases hnode.held hh with hi | hh
    · exact hwait hi t' f' hne hf' hd.symm hh'
    · exact h.held hne.symm hf hf' hh hh' hd
  constructor
  case stage =>
    intro t' f' hf'
    rcases Txn.Sys.put_cases hf' with ⟨-, he⟩ | ⟨hne, he⟩
    · cases he
      exact hstage
    · exact hnode.stage (h.stage he) (h.ids hne he hf) fun hh hh' => h.held hne.symm hf he hh hh'
  case digests => exact hnode.digests h.digests
  case ids =>
    intro t₁ t₂ f₁ f₂ hne h₁ h₂
    refine Txn.Sys.put_pair (P := fun f f' => f.op.id ≠ f'.op.id) Ne.symm h.ids ?_ hne h₁ h₂
    intro t' f' hne' hf'
    show f.op.id ≠ f'.op.id
    exact h.ids hne'.symm hf hf'
  case fresh =>
    intro t' f' hf' hw
    rcases Txn.Sys.put_cases hf' with ⟨-, he⟩ | ⟨hne, he⟩
    · cases he
      exact (congrArg (DB.invoice · f.op.id) (hnode.now_eq hw)).trans (h.fresh hf fun hp => hw (hnode.won hp))
    · exact (hnode.invoice (h.ids hne he hf)).trans (h.fresh he hw)
  case held =>
    intro t₁ t₂ f₁ f₂ hne h₁ h₂
    refine Txn.Sys.put_pair (P := Apart) Apart.symm h.held ?_ hne h₁ h₂
    intro t' f' hne' hf' hh hh'
    exact hheld hne' hf' hh hh'
  case rows =>
    intro row
    rw [Txn.Sys.put_world, hnode.rows ((h.stage hf).row_mem_of_won), h.rows row, or_assoc]
    refine or_congr Iff.rfl ⟨?_, ?_⟩
    · rintro (⟨t', f', hf', hw, hrow⟩ | ⟨hw, hrow⟩)
      · by_cases hne : t' = t
        · subst hne
          rw [hf] at hf'
          cases hf'
          exact ⟨t', _, Txn.Sys.put_self .., hnode.won hw, hrow⟩
        · exact ⟨t', f', hother hne hf', hw, hrow⟩
      · exact ⟨t, _, Txn.Sys.put_self .., hw, hrow⟩
    · rintro ⟨t', f', hf', hw, hrow⟩
      rcases Txn.Sys.put_cases hf' with ⟨-, he⟩ | ⟨-, he⟩
      · cases he
        exact .inr ⟨hw, hrow⟩
      · exact .inl ⟨t', f', he, hw, hrow⟩
  case sent =>
    intro t' f' hf' hp
    rw [List.filter_append]
    rcases Txn.Sys.put_cases hf' with ⟨rfl, he⟩ | ⟨hne, he⟩
    · cases he
      rw [sends_enqueueing hf (hnode.enqueueing hp), h.silent hf hlive]
      simp
    · rw [h.sent he hp, hnode.sends_other hf hne, List.append_nil]
  case sender =>
    intro t' m hm
    rcases List.mem_append.mp hm with hm | hm
    · obtain ⟨f', hf', hp⟩ := h.sender hm
      refine ⟨f', hother ?_ hf', hp⟩
      rintro rfl
      rw [hf] at hf'
      cases hf'
      rw [hp] at hlive
      cases hlive
    · by_cases hp : f.session.prog = f.op.enqueueing
      · rw [sends_enqueueing hf hp, List.mem_singleton] at hm
        cases hm
        exact ⟨_, Txn.Sys.put_self .., hnode.created hp⟩
      · rw [Node.sends hf hnode hp] at hm
        cases hm

theorem IngestOk.step (h : IngestOk env w₀ log s) {a : Txn.Action Upload} (ha : Waits s a)
    (hs : s.step (Upload.prog env) a = some s') : IngestOk env w₀ (log ++ s.sends a) s' := by
  cases a with
  | begin t up =>
    obtain ⟨hf, rfl⟩ := Txn.Sys.step_begin hs
    rw [show s.sends (.begin t up) = [] from rfl, List.append_nil]
    exact h.begin hf ha.1 ha.2
  | advance t =>
    obtain ⟨f, w, se, hf, hst, rfl⟩ := Txn.Sys.step_advance hs
    exact h.advance hf (ha f hf) hst
  | abort t =>
    obtain ⟨-, -, rfl⟩ := Txn.Sys.step_abort hs
    rw [show s.sends (.abort t) = [] from rfl, List.append_nil]
    exact h.abort ha

/-- **The rules hold in every state of a run.** -/
theorem ingestOk_of_logged (h₀ : UniqueDigests w₀.now)
    (hr : Txn.Sys.Logged (Upload.prog env) Waits (.idle w₀) log s) : IngestOk env w₀ log s := by
  induction hr with
  | refl => exact ingestOk_idle h₀
  | tail a _ ha hs ih => exact ih.step ha hs

/-- Rows with one digest are one row. -/
theorem UniqueDigests.eq {d : DB} (h : UniqueDigests d) {inv inv' : Invoice} (hi : inv ∈ d.invoices.rows)
    (hi' : inv' ∈ d.invoices.rows) (hd : inv.contentSha256 = inv'.contentSha256) : inv = inv' :=
  List.inj_on_of_nodup_map h hi hi' hd

/-- A call that returns gets the row of its bytes; it created the row when it
says so. -/
theorem Stage.returned {up : Upload} {d : DB} {se : Txn.Session DB Disk Message Exn IngestResult} {r : IngestResult}
    (h : Stage env up d se) (hp : se.prog = .ret r) : r.invoice ∈ d.invoices.rows ∧
      r.invoice.contentSha256 = up.digest ∧ (r.created = true → r = ⟨up.row, true⟩) := by
  cases h with
  | checking =>
    rw [Upload.prog_eq] at hp
    cases hp
  | storing hs => cases hs <;> cases hp
  | created hr =>
    cases hp
    exact ⟨hr, rfl, fun _ => rfl⟩
  | found hr hd =>
    cases hp
    exact ⟨hr, hd, fun h => by cases h⟩
  | _ => cases hp

/-- A message was sent by the call that created its row, for that row. -/
theorem IngestOk.message (h : IngestOk env w₀ log s) {t : Nat} {m : Message} (hm : (t, m) ∈ log) :
    ∃ f, s.flights t = some f ∧ f.session.prog = .ret ⟨f.op.row, true⟩ ∧ m = ⟨.extractInvoice, f.op.id⟩ := by
  obtain ⟨f, hf, hp⟩ := h.sender hm
  have hmem : (t, m) ∈ log.filter fun e => e.1 = t := List.mem_filter.mpr ⟨hm, decide_eq_true rfl⟩
  rw [h.sent hf hp, List.mem_singleton, Prod.mk.injEq] at hmem
  exact ⟨f, hf, hp, hmem.2⟩

/-- A call has the id of its row alone. -/
theorem IngestOk.slot_eq (h : IngestOk env w₀ log s) {t t' : Nat} {f f' : Uploading} (hf : s.flights t = some f)
    (hf' : s.flights t' = some f') (hid : f'.op.id = f.op.id) : t' = t := by
  by_contra hne
  exact h.ids hne hf' hf hid

/-- **Idempotent ingestion.** In every state of every run there is one row a
digest, a call that has returned holds the row of its own bytes, and what was
sent is for committed rows. Once every call has ended, each new row was
created by one call, which sent its one message; every other call that
returned for those bytes created nothing and sent nothing. -/
theorem ingested_once (h₀ : UniqueDigests w₀.now)
    (hr : Txn.Sys.Logged (Upload.prog env) Waits (.idle w₀) log s) :
    UniqueDigests s.world.now ∧
      (∀ t f r, s.flights t = some f → f.session.prog = .ret r →
        r.invoice ∈ s.world.now.invoices.rows ∧ r.invoice.contentSha256 = sha256Hex f.op.data) ∧
      (s.world.sent = w₀.sent ++ log.map Prod.snd ∧
        ∀ t m, (t, m) ∈ log → ∃ row ∈ s.world.now.invoices.rows, m = ⟨.extractInvoice, row.id⟩) ∧
      ((∀ t f, s.flights t = some f → f.session.prog.isDone = true) →
        ∀ row ∈ s.world.now.invoices.rows, row ∉ w₀.now.invoices.rows →
          ∃ t f, s.flights t = some f ∧ f.session.prog = .ret ⟨row, true⟩ ∧
            (log.filter fun e => e.2 = ⟨.extractInvoice, row.id⟩) = [(t, ⟨.extractInvoice, row.id⟩)] ∧
            ∀ t' f' r, t' ≠ t → s.flights t' = some f' → f'.session.prog = .ret r →
              sha256Hex f'.op.data = row.contentSha256 → r.created = false ∧ ∀ m, (t', m) ∉ log) := by
  have h := ingestOk_of_logged h₀ hr
  refine ⟨h.digests, ?_, ⟨hr.sent, ?_⟩, ?_⟩
  · intro t f r hf hp
    obtain ⟨hmem, hd, -⟩ := (h.stage hf).returned hp
    exact ⟨hmem, hd⟩
  · intro t m hm
    obtain ⟨f, hf, hp, rfl⟩ := h.message hm
    exact ⟨f.op.row, (h.stage hf).row_mem_of_won (.inr hp), rfl⟩
  · intro hdone row hrow hnew
    rcases (h.rows row).mp hrow with hold | ⟨t, f, hf, hw, rfl⟩
    · exact absurd hold hnew
    have hp : f.session.prog = .ret ⟨f.op.row, true⟩ := by
      rcases hw with hw | hw
      · have hd := hdone t f hf
        rw [hw] at hd
        cases hd
      · exact hw
    refine ⟨t, f, hf, hp, ?_, ?_⟩
    · refine (List.filter_congr ?_).trans (h.sent hf hp)
      rintro ⟨t', m⟩ hm
      obtain ⟨f', hf', hp', rfl⟩ := h.message hm
      refine decide_eq_decide.mpr ⟨fun he => h.slot_eq hf hf' (congrArg Message.invoiceId he), ?_⟩
      rintro rfl
      rw [hf] at hf'
      cases hf'
      rfl
    · intro t' f' r hne hf' hr' hd
      obtain ⟨hmem, hd', hcreated⟩ := (h.stage hf').returned hr'
      have hrow' : r.invoice = f.op.row := h.digests.eq hmem hrow (hd'.trans hd)
      have hfalse : r.created = false := by
        by_contra hc
        rw [Bool.not_eq_false] at hc
        have hid : f'.op.id = f.op.id := by
          rw [hcreated hc] at hrow'
          exact congrArg Invoice.id hrow'
        exact hne (h.slot_eq hf hf' hid)
      refine ⟨hfalse, ?_⟩
      intro m hm
      obtain ⟨f'', hf'', hp'', -⟩ := h.message hm
      rw [hf'] at hf''
      cases hf''
      rw [hr'] at hp''
      cases hp''
      cases hfalse

end runs

namespace Sample

/-- The settings with a bucket for storage. -/
def bucketEnv : Env := { env with settings := { env.settings with storageBackend := .s3 } }

def upload (n : Nat) : Upload := ⟨uuid n, utf8 "%PDF-", "invoice.pdf", "application/pdf"⟩

/-- Two uploads of the same bytes, in a run that brought them to sessions `p`
and `q`. -/
def Both (w : World) (p q : Txn.Session DB Disk Message Exn IngestResult) : Prop :=
  ∃ log s, Txn.Sys.Logged (Upload.prog bucketEnv) Waits (.idle world) log s ∧ s.world = w ∧
    (∃ d, s.flights 0 = some ⟨upload 5, d, p⟩) ∧ (∃ d, s.flights 1 = some ⟨upload 6, d, q⟩) ∧
    ∀ t ≥ 2, s.flights t = none

section both
variable {w w' : World} {p p' q q' : Txn.Session DB Disk Message Exn IngestResult}

theorem Both.start : Both world (Txn.start ((upload 5).prog bucketEnv)) (Txn.start ((upload 6).prog bucketEnv)) := by
  have h₀ : Txn.Sys.Logged (Upload.prog bucketEnv) Waits (.idle world) _ _ := .refl
  have h₁ := h₀.tail (.begin 0 (upload 5)) ⟨rfl, fun _ _ h => by cases h⟩ rfl
  have h₂ := h₁.tail (.begin 1 (upload 6)) ⟨rfl, fun t f hf => ?_⟩ rfl
  · exact ⟨_, _, h₂, rfl, ⟨none, rfl⟩, ⟨none, rfl⟩, fun t ht => by
      rw [Txn.Sys.put_other _ _ _ (by omega), Txn.Sys.put_other _ _ _ (by omega)]
      rfl⟩
  · rcases Txn.Sys.put_cases hf with ⟨-, he⟩ | ⟨-, he⟩
    · cases he
      decide
    · cases he

theorem Both.first (h : Both w p q) (hw : ¬ (upload 6).Held q.prog) (hs : Txn.step w p = some (w', p')) :
    Both w' p' q := by
  obtain ⟨log, s, hr, rfl, ⟨d, hp⟩, ⟨d', hq⟩, hnone⟩ := h
  refine ⟨_, _, hr.tail (.advance 0) ?_ (by simp only [Txn.Sys.step, hp, hs]; rfl), rfl,
    ⟨_, Txn.Sys.put_self ..⟩, ⟨d', ?_⟩, ?_⟩
  · intro f _ _ t' f' hne hf' _
    by_cases ht : t' = 1
    · subst ht
      rw [hq] at hf'
      cases hf'
      exact hw
    · rw [hnone t' (by omega)] at hf'
      cases hf'
  · rw [Txn.Sys.put_other _ _ _ (by omega), hq]
  · intro t ht
    rw [Txn.Sys.put_other _ _ _ (by omega), hnone t ht]

theorem Both.second (h : Both w p q) (hw : ¬ (upload 5).Held p.prog) (hs : Txn.step w q = some (w', q')) :
    Both w' p q' := by
  obtain ⟨log, s, hr, rfl, ⟨d, hp⟩, ⟨d', hq⟩, hnone⟩ := h
  refine ⟨_, _, hr.tail (.advance 1) ?_ (by simp only [Txn.Sys.step, hq, hs]; rfl), rfl,
    ⟨d, ?_⟩, ⟨_, Txn.Sys.put_self ..⟩, ?_⟩
  · intro f _ _ t' f' hne hf' _
    by_cases ht : t' = 0
    · subst ht
      rw [hp] at hf'
      cases hf'
      exact hw
    · rw [hnone t' (by omega)] at hf'
      cases hf'
  · rw [Txn.Sys.put_other _ _ _ (by omega), hp]
  · intro t ht
    rw [Txn.Sys.put_other _ _ _ (by omega), hnone t ht]

end both

/-- Both look before either inserts, and the second INSERT comes after the
first one's commit. -/
theorem both_returned : ∃ w, w.now.invoices.rows = [(upload 5).row] ∧
    Both w ⟨id, .ret ⟨(upload 5).row, true⟩⟩ ⟨id, .ret ⟨(upload 5).row, false⟩⟩ := by
  have hfound : findByDigest (upload 6).digest { world.now with invoices := world.now.invoices.insert (upload 5).row } =
      some (upload 5).row := List.find?_cons_of_pos (decide_eq_true rfl)
  have h₁ : Both _ ⟨id, (upload 5).storing bucketEnv⟩ _ :=
    Both.start.first (Upload.not_held_prog _) (by rw [Txn.start, Upload.prog_eq]; rfl)
  have h₂ : Both _ _ ⟨id, (upload 6).storing bucketEnv⟩ :=
    h₁.second (Upload.storing_storing _ _).not_held (by rw [Txn.start, Upload.prog_eq]; rfl)
  have h₃ : Both _ ⟨id, (upload 5).inserting⟩ _ := h₂.first (Upload.storing_storing _ _).not_held rfl
  have h₄ : Both _ _ ⟨id, (upload 6).inserting⟩ := h₃.second (Upload.Storing.inserting).not_held rfl
  have h₅ : Both _ ⟨id, (upload 5).writing⟩ _ := h₄.first (Upload.Storing.inserting).not_held rfl
  have h₆ : Both _ ⟨_, (upload 5).committing⟩ _ := h₅.first (Upload.Storing.inserting).not_held rfl
  have h₇ : Both _ ⟨id, (upload 5).enqueueing⟩ _ := h₆.first (Upload.Storing.inserting).not_held rfl
  have h₈ : Both _ _ ⟨id, (upload 6).conflicted⟩ :=
    h₇.second (fun h => by rcases h with h | h <;> cases h) (step_inserting hfound)
  have h₉ : Both _ _ ⟨id, (upload 6).rereading⟩ := h₈.second (fun h => by rcases h with h | h <;> cases h) rfl
  have h₁₀ : Both _ _ ⟨id, .ret ⟨(upload 5).row, false⟩⟩ :=
    h₉.second (fun h => by rcases h with h | h <;> cases h) (step_rereading hfound)
  exact ⟨_, rfl, h₁₀.first Upload.not_held_ret rfl⟩

/-- The second lost and sent nothing, and one message was sent. -/
theorem ingested_uploads : ∃ (log : List (Nat × Message)) (s : Ingestion) (t : Nat)
    (f : Txn.Flight Upload DB Disk Message Exn IngestResult),
    Txn.Sys.Logged (Upload.prog bucketEnv) Waits (.idle world) log s ∧ s.world.now.invoices.rows = [(upload 5).row] ∧
      s.flights 1 = some f ∧ f.op = upload 6 ∧ f.session.prog = .ret ⟨(upload 5).row, false⟩ ∧
      (log.filter fun e => e.2 = ⟨.extractInvoice, uuid 5⟩) = [(t, ⟨.extractInvoice, uuid 5⟩)] ∧ ∀ m, (1, m) ∉ log := by
  obtain ⟨w, hrows, log, s, hr, rfl, ⟨d, hp⟩, ⟨d', hq⟩, hnone⟩ := both_returned
  have hdone : ∀ t f, s.flights t = some f → f.session.prog.isDone = true := by
    intro t f hf
    by_cases h0 : t = 0
    · subst h0
      rw [hp] at hf
      cases hf
      rfl
    · by_cases h1 : t = 1
      · subst h1
        rw [hq] at hf
        cases hf
        rfl
      · rw [hnone t (by omega)] at hf
        cases hf
  have hrow : (upload 5).row ∈ s.world.now.invoices.rows := by rw [hrows]; exact List.mem_singleton_self _
  have hunique : UniqueDigests world.now := List.nodup_nil
  obtain ⟨-, -, -, hnew⟩ := ingested_once hunique hr
  obtain ⟨t, f, hf, hwon, hlog, hothers⟩ := hnew hdone _ hrow fun h => by cases h
  have hne : 1 ≠ t := by
    rintro rfl
    rw [hq] at hf
    cases hf
    cases hwon
  exact ⟨log, s, t, _, hr, hrows, hq, rfl, rfl, hlog, (hothers 1 _ _ hne hq rfl rfl).2⟩

end Sample

end InvoiceOps
