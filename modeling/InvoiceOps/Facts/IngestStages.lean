/-
One call of `ingest_upload` among others: `Stage` says where it stands,
`Stage.step` what its next node does (`Node`: as others see it), and
`Node.stage` that another call's node leaves it where it stands.
-/
import InvoiceOps.Facts.Serial
import InvoiceOps.Lib.ReadCommitted

namespace InvoiceOps

/-- A call of `ingest_upload`, with the `uuid4` of the row it may insert. -/
structure Upload where
  id : Uuid
  data : Bytes
  filename : String
  contentType : String

namespace Upload

def digest (up : Upload) : String := sha256Hex up.data

def row (up : Upload) : Invoice := newInvoice up.id up.data up.filename up.contentType

def prog (env : Env) (up : Upload) : Tx IngestResult :=
  ingestUpload env up.id up.data up.filename up.contentType

/-! What is left of the program after each of its steps. -/

def enqueueing (up : Upload) : Tx IngestResult := .send ⟨.extractInvoice, up.id⟩ (.ret ⟨up.row, true⟩)

def committing (up : Upload) : Tx IngestResult := .commit up.enqueueing

def writing (up : Upload) : Tx IngestResult :=
  .write (fun d => { d with invoices := d.invoices.insert up.row }) up.committing

def rereading (up : Upload) : Tx IngestResult :=
  .read fun d _ => match findByDigest up.digest d with
    | none => .raise .integrityError
    | some winner => .ret ⟨winner, false⟩

def conflicted (up : Upload) : Tx IngestResult := .rollback up.rereading

def inserting (up : Upload) : Tx IngestResult :=
  .read fun d _ => if insertable up.row d = true then up.writing else up.conflicted

def storing (env : Env) (up : Upload) : Tx IngestResult := do
  Tx.putObject env (storageKey up.digest up.filename) up.data
  up.inserting

/-- `ingest_upload`, by its first node and what follows. -/
theorem prog_eq (env : Env) (up : Upload) :
    up.prog env = .read fun d _ => match findByDigest up.digest d with
      | none => up.storing env
      | some existing => .ret ⟨existing, false⟩ := by
  refine congrArg Txn.read (funext fun d => funext fun _ => ?_)
  dsimp only [Txn.bind, digest]
  cases findByDigest (sha256Hex up.data) d with
  | none =>
    refine congrArg (Txn.bind _) (funext fun _ => congrArg Txn.read (funext fun d => funext fun _ => ?_))
    dsimp only [Txn.bind]
    by_cases h : insertable (newInvoice up.id up.data up.filename up.contentType) d = true
    · rw [if_pos h]
      exact (if_pos h).symm
    · rw [if_neg h]
      exact (if_neg h).symm
  | some existing => rfl

/-- The row is inserted and not yet committed. -/
def Held (up : Upload) (p : Tx IngestResult) : Prop := p = up.writing ∨ p = up.committing

/-- The row is committed. -/
def Won (up : Upload) (p : Tx IngestResult) : Prop := p = up.enqueueing ∨ p = .ret ⟨up.row, true⟩

/-- The program is at the document's write: outside effects, each of which
may raise, and then the INSERT. -/
inductive Storing (up : Upload) : Tx IngestResult → Prop
  | inserting : Storing up up.inserting
  | raised (e) : Storing up (.raise e)
  | effect {f k} : (∀ r, Storing up (k r)) → Storing up (.emit f k)

theorem storing_effect {up : Upload} {f : Disk → Except Exn Unit × Disk} {p : Tx IngestResult}
    (h : Storing up p) : Storing up (Txn.effect f >>= fun _ => p) := by
  refine .effect fun r => ?_
  cases r with
  | ok _ => exact h
  | error e => exact .raised e

theorem storing_storing (env : Env) (up : Upload) : Storing up (up.storing env) := by
  unfold storing Tx.putObject
  cases env.settings.storageBackend with
  | «local» =>
    cases hp : Storage.path env.py env.settings.storageLocalDir (storageKey up.digest up.filename) with
    | ok path =>
      refine .effect fun r => ?_
      cases r with
      | ok _ => exact storing_effect .inserting
      | error e => exact .raised e
    | error e => exact .raised e
  | s3 => exact storing_effect .inserting

end Upload

/-! ## Where a call stands -/

/-- The stages of a call, with the writes it holds back and what it has yet
to do, and what each says about the committed database. -/
inductive Stage (env : Env) (up : Upload) (d : DB) : Txn.Session DB Disk Message Exn IngestResult → Prop
  | checking : Stage env up d ⟨id, up.prog env⟩
  | storing {p} : up.Storing p → Stage env up d ⟨id, p⟩
  | writing : insertable up.row d = true → Stage env up d ⟨id, up.writing⟩
  | committing : insertable up.row d = true →
      Stage env up d ⟨fun d => { d with invoices := d.invoices.insert up.row }, up.committing⟩
  | enqueueing : up.row ∈ d.invoices.rows → Stage env up d ⟨id, up.enqueueing⟩
  | created : up.row ∈ d.invoices.rows → Stage env up d ⟨id, .ret ⟨up.row, true⟩⟩
  | conflicted {inv} : findByDigest up.digest d = some inv → Stage env up d ⟨id, up.conflicted⟩
  | rereading {inv} : findByDigest up.digest d = some inv → Stage env up d ⟨id, up.rereading⟩
  | found {inv} : inv ∈ d.invoices.rows → inv.contentSha256 = up.digest → Stage env up d ⟨id, .ret ⟨inv, false⟩⟩

abbrev Uploading := Txn.Flight Upload DB Disk Message Exn IngestResult

/-- Calls of `ingest_upload` on their way. -/
abbrev Ingestion := Txn.Sys Upload DB Disk Message Exn IngestResult

/-- No two rows have one digest. -/
def UniqueDigests (d : DB) : Prop := (d.invoices.rows.map (·.contentSha256)).Nodup

/-- What one node of a call does, as others see it. -/
inductive Node (up : Upload) (w w' : World) (p p' : Tx IngestResult) : Prop
  | quiet : w'.now = w.now → (∀ m k, p ≠ .send m k) → ¬ up.Won p → ¬ up.Won p' →
      (up.Held p' → p = up.inserting ∨ up.Held p) → Node up w w' p p'
  | commit : p = up.committing → p' = up.enqueueing → insertable up.row w.now = true →
      w'.now = { w.now with invoices := w.now.invoices.insert up.row } → Node up w w' p p'
  | send : p = up.enqueueing → p' = .ret ⟨up.row, true⟩ → w'.now = w.now → Node up w w' p p'

section stages
variable {env : Env} {up : Upload} {d : DB} {w w' : World} {s s' : Txn.Session DB Disk Message Exn IngestResult}

theorem Stage.row_mem_of_won (h : Stage env up d s) (hs : up.Won s.prog) : up.row ∈ d.invoices.rows := by
  cases h with
  | checking =>
    rw [Upload.prog_eq] at hs
    rcases hs with hs | hs <;> cases hs
  | storing hp => cases hp <;> rcases hs with hs | hs <;> cases hs
  | enqueueing hr | created hr => exact hr
  | _ => rcases hs with hs | hs <;> cases hs

theorem Upload.Storing.not_won {p : Tx IngestResult} (h : up.Storing p) : ¬ up.Won p := by
  intro hw
  cases h <;> rcases hw with hw | hw <;> cases hw

theorem Upload.Storing.not_held {p : Tx IngestResult} (h : up.Storing p) : ¬ up.Held p := by
  intro hw
  cases h <;> rcases hw with hw | hw <;> cases hw

theorem Upload.not_won_found {inv : Invoice} : ¬ up.Won (.ret ⟨inv, false⟩) := by
  intro hw
  rcases hw with hw | hw <;> cases hw

theorem Upload.not_held_ret {r : IngestResult} : ¬ up.Held (.ret r) := by
  intro hw
  rcases hw with hw | hw <;> cases hw

theorem mem_of_findByDigest {digest : String} {inv : Invoice} (h : findByDigest digest d = some inv) :
    inv ∈ d.invoices.rows ∧ inv.contentSha256 = digest :=
  ⟨List.mem_of_find?_eq_some h, by simpa using List.find?_some h⟩

theorem insertable_iff {inv : Invoice} :
    insertable inv d = true ↔ d.invoice inv.id = none ∧ findByDigest inv.contentSha256 d = none := by
  rw [insertable, Bool.and_eq_true, Option.isNone_iff_eq_none, Option.isNone_iff_eq_none]

theorem mem_insert {inv inv' : Invoice} (h : insertable inv d = true) :
    inv' ∈ (d.invoices.insert inv).rows ↔ inv' ∈ d.invoices.rows ∨ inv' = inv :=
  Table.mem_insert (insertable_iff.mp h).1

theorem findByDigest_insert {inv : Invoice} (h : insertable inv d = true) (digest : String) :
    findByDigest digest { d with invoices := d.invoices.insert inv } =
      (findByDigest digest d).or (if inv.contentSha256 = digest then some inv else none) := by
  have hrows : (d.invoices.insert inv).rows = d.invoices.rows ++ [inv] :=
    Table.rows_insert (insertable_iff.mp h).1
  simp only [findByDigest, hrows, List.find?_append, List.find?_cons, List.find?_nil]
  by_cases hd : inv.contentSha256 = digest <;> simp [hd]

/-- A row that cannot be inserted under an id of its own has a rival. -/
theorem findByDigest_of_not_insertable (hid : d.invoice up.id = none) (h : ¬ insertable up.row d = true) :
    ∃ inv, findByDigest up.digest d = some inv := by
  refine Option.ne_none_iff_exists'.mp fun hd => h ?_
  exact insertable_iff.mpr ⟨hid, hd⟩

/-- **One node of a call.** It reaches another stage, and others see a
commit, a message or nothing. -/
theorem Stage.step (h : Stage env up w.now s) (hfresh : ¬ up.Won s.prog → w.now.invoice up.id = none)
    (hs : Txn.step w s = some (w', s')) : Stage env up w'.now s' ∧ Node up w w' s.prog s'.prog := by
  cases h with
  | checking =>
    rw [Upload.prog_eq] at hs ⊢
    cases hd : findByDigest up.digest w.now with
    | none =>
      simp only [Txn.step, id_eq, hd] at hs
      cases hs
      have hp := Upload.storing_storing env up
      exact ⟨.storing hp, .quiet rfl (fun _ _ h => by cases h) (fun h => by rcases h with h | h <;> cases h)
        hp.not_won fun h => absurd h hp.not_held⟩
    | some inv =>
      simp only [Txn.step, id_eq, hd] at hs
      cases hs
      exact ⟨.found (mem_of_findByDigest hd).1 (mem_of_findByDigest hd).2, .quiet rfl (fun _ _ h => by cases h)
        (fun h => by rcases h with h | h <;> cases h) Upload.not_won_found fun h => absurd h Upload.not_held_ret⟩
  | storing hp =>
    have hw := hp.not_won
    cases hp with
    | inserting =>
      by_cases hi : insertable up.row w.now = true
      · simp only [Txn.step, Upload.inserting, id_eq, hi, if_true] at hs
        cases hs
        exact ⟨.writing hi, .quiet rfl (fun _ _ h => by cases h) hw (fun h => by rcases h with h | h <;> cases h)
          fun _ => .inl rfl⟩
      · obtain ⟨inv, hd⟩ := findByDigest_of_not_insertable (hfresh hw) hi
        simp only [Txn.step, Upload.inserting, id_eq, hi] at hs
        cases hs
        exact ⟨.conflicted hd, .quiet rfl (fun _ _ h => by cases h) hw
          (fun h => by rcases h with h | h <;> cases h) fun _ => .inl rfl⟩
    | raised e => cases hs
    | effect hk =>
      cases hs
      exact ⟨.storing (hk _), .quiet rfl (fun _ _ h => by cases h) hw (hk _).not_won
        fun h => absurd h (hk _).not_held⟩
  | writing hi =>
    cases hs
    exact ⟨.committing hi, .quiet rfl (fun _ _ h => by cases h) (fun h => by rcases h with h | h <;> cases h)
      (fun h => by rcases h with h | h <;> cases h) fun _ => .inr (.inl rfl)⟩
  | committing hi =>
    cases hs
    exact ⟨.enqueueing ((mem_insert hi).mpr (.inr rfl)), .commit rfl rfl hi rfl⟩
  | enqueueing hr =>
    cases hs
    exact ⟨.created hr, .send rfl rfl rfl⟩
  | conflicted hd =>
    cases hs
    exact ⟨.rereading hd, .quiet rfl (fun _ _ h => by cases h) (fun h => by rcases h with h | h <;> cases h)
      (fun h => by rcases h with h | h <;> cases h) fun h => by rcases h with h | h <;> cases h⟩
  | rereading hd =>
    simp only [Txn.step, Upload.rereading, id_eq, hd] at hs
    cases hs
    exact ⟨.found (mem_of_findByDigest hd).1 (mem_of_findByDigest hd).2, .quiet rfl (fun _ _ h => by cases h)
      (fun h => by rcases h with h | h <;> cases h) Upload.not_won_found fun h => absurd h Upload.not_held_ret⟩
  | created | found => cases hs

theorem step_inserting {inv : Invoice} (h : findByDigest up.digest w.now = some inv) :
    Txn.step w ⟨id, up.inserting⟩ = some (w, ⟨id, up.conflicted⟩) := by
  have hi : ¬ insertable up.row w.now = true := by
    intro hi
    rw [show findByDigest up.digest w.now = none from (insertable_iff.mp hi).2] at h
    cases h
  simp [Txn.step, Upload.inserting, hi]

theorem step_rereading {inv : Invoice} (h : findByDigest up.digest w.now = some inv) :
    Txn.step w ⟨id, up.rereading⟩ = some (w, ⟨id, .ret ⟨inv, false⟩⟩) := by
  simp only [Txn.step, Upload.rereading, id_eq, h]

/-- **Another call's commit** leaves a call at its stage, if they do not hold
one digest. -/
theorem Stage.inserted {up' : Upload} (h : Stage env up d s) (hi : insertable up'.row d = true) (hid : up.id ≠ up'.id)
    (hheld : up.Held s.prog → up'.digest ≠ up.digest) :
    Stage env up { d with invoices := d.invoices.insert up'.row } s := by
  have hrow : ∀ {inv}, inv ∈ d.invoices.rows → inv ∈ (d.invoices.insert up'.row).rows :=
    fun hr => (mem_insert hi).mpr (.inl hr)
  have hfind : ∀ {inv}, findByDigest up.digest d = some inv →
      findByDigest up.digest { d with invoices := d.invoices.insert up'.row } = some inv := by
    intro inv hd
    rw [findByDigest_insert hi, hd, Option.some_or]
  have hins : insertable up.row d = true → up.Held s.prog →
      insertable up.row { d with invoices := d.invoices.insert up'.row } = true := by
    intro hu hh
    obtain ⟨hnone, hd⟩ := insertable_iff.mp hu
    refine insertable_iff.mpr ⟨?_, ?_⟩
    · rw [DB.invoice, Table.get?_insert (insertable_iff.mp hi).1]
      exact (if_neg hid).trans hnone
    · rw [findByDigest_insert hi, hd, Option.none_or]
      exact if_neg (hheld hh)
  cases h with
  | checking => exact .checking
  | storing hp => exact .storing hp
  | writing hu => exact .writing (hins hu (.inl rfl))
  | committing hu => exact .committing (hins hu (.inr rfl))
  | enqueueing hr => exact .enqueueing (hrow hr)
  | created hr => exact .created (hrow hr)
  | conflicted hd => exact .conflicted (hfind hd)
  | rereading hd => exact .rereading (hfind hd)
  | found hr hd => exact .found (hrow hr) hd

section node
variable {p p' : Tx IngestResult}

theorem Node.won (h : Node up w w' p p') (hw : up.Won p) : up.Won p' := by
  cases h with
  | quiet _ _ hn => exact absurd hw hn
  | commit _ hp' => exact .inl hp'
  | send _ hp' => exact .inr hp'

theorem Node.now_eq (h : Node up w w' p p') (hw : ¬ up.Won p') : w'.now = w.now := by
  cases h with
  | quiet hnow | send _ _ hnow => exact hnow
  | commit _ hp' => exact absurd (.inl hp') hw

theorem Node.created (h : Node up w w' p p') (hp : p = up.enqueueing) : p' = .ret ⟨up.row, true⟩ := by
  cases h with
  | quiet _ _ hn => exact absurd (.inl hp) hn
  | commit hc =>
    rw [hp] at hc
    cases hc
  | send _ hp' => exact hp'

theorem Node.held (h : Node up w w' p p') (hh : up.Held p') : p = up.inserting ∨ up.Held p := by
  cases h with
  | quiet _ _ _ _ hheld => exact hheld hh
  | commit _ hp' | send _ hp' =>
    subst hp'
    rcases hh with hh | hh <;> cases hh

theorem Node.enqueueing (h : Node up w w' p p') (hc : p' = .ret ⟨up.row, true⟩) : p = up.enqueueing := by
  cases h with
  | quiet _ _ _ hn => exact absurd (.inr hc) hn
  | commit _ hp' =>
    rw [hp'] at hc
    cases hc
  | send hp => exact hp

/-- A node adds the call's row when it commits it, and no other. -/
theorem Node.rows (h : Node up w w' p p') (hmem : up.Won p → up.row ∈ w.now.invoices.rows) (row : Invoice) :
    row ∈ w'.now.invoices.rows ↔ row ∈ w.now.invoices.rows ∨ up.Won p' ∧ up.row = row := by
  cases h with
  | quiet hnow _ _ hn => simp [hnow, hn]
  | commit _ hp' hi hnow =>
    have hw : up.Won p' := .inl hp'
    simp only [hnow, mem_insert hi, hw, true_and]
    exact or_congr Iff.rfl eq_comm
  | send hp _ hnow =>
    rw [hnow]
    refine ⟨.inl, ?_⟩
    rintro (h | ⟨-, rfl⟩)
    · exact h
    · exact hmem (.inl hp)

theorem Node.invoice (h : Node up w w' p p') {i : Uuid} (hi : i ≠ up.id) : w'.now.invoice i = w.now.invoice i := by
  cases h with
  | quiet hnow | send _ _ hnow => rw [hnow]
  | commit _ _ hins hnow =>
    rw [hnow, DB.invoice, Table.get?_insert (insertable_iff.mp hins).1]
    exact if_neg hi

theorem Node.digests (h : Node up w w' p p') (hd : UniqueDigests w.now) : UniqueDigests w'.now := by
  cases h with
  | quiet hnow | send _ _ hnow => rwa [hnow]
  | commit _ _ hi hnow =>
    obtain ⟨hid, hfind⟩ := insertable_iff.mp hi
    rw [hnow, UniqueDigests, Table.rows_insert hid, List.map_append, List.nodup_append]
    refine ⟨hd, List.nodup_singleton _, ?_⟩
    intro digest hmem digest' hmem' he
    obtain ⟨inv, hinv, rfl⟩ := List.mem_map.mp hmem
    rw [List.map_singleton, List.mem_singleton] at hmem'
    subst hmem'
    rw [findByDigest, List.find?_eq_none] at hfind
    exact hfind inv hinv (by simpa using he)

/-- Another call stays at its stage. -/
theorem Node.stage {up' : Upload} (h : Node up w w' p p') (hs : Stage env up' w.now s) (hid : up'.id ≠ up.id)
    (hheld : up.Held p → up'.Held s.prog → up.digest ≠ up'.digest) : Stage env up' w'.now s := by
  cases h with
  | quiet hnow | send _ _ hnow => rwa [hnow]
  | commit hp _ hi hnow =>
    rw [hnow]
    exact hs.inserted hi hid (hheld (.inr hp))

end node

end stages

end InvoiceOps
