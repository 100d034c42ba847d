/-
The specs of the uploads, for a session nobody interrupts: each step is an
`UploadAct`, nothing is left uncommitted, and the upload ends with the
database as it was or with a new RECEIVED invoice and its message
(`Ingested`).
-/
import InvoiceOps.Facts.Calls

namespace InvoiceOps

/-- How an upload with new id `i` that began in world `w₀` ends. -/
inductive Ingested (i : Uuid) (w₀ w : World) : Prop
  | found : w.now = w₀.now → Ingested i w₀ w
  | created {inv} : w.now.invoice i = some inv → inv.status = .received → ⟨.extractInvoice, i⟩ ∈ w.sent →
      Ingested i w₀ w

section uploads
variable {env : Env} {G : World → World → Prop} {i : Uuid} {data : Bytes} {filename contentType : String}
  {w₀ : World}

theorem DB.invoice_insert {d : DB} {inv : Invoice} (h : insertable inv d = true) (j : Uuid) :
    ({ d with invoices := d.invoices.insert inv } : DB).invoice j = if j = inv.id then some inv else d.invoice j := by
  rw [insertable, Bool.and_eq_true, Option.isNone_iff_eq_none] at h
  exact Table.get?_insert h.1 j

theorem Tx.wp_read {α : Type} {R G : World → World → Prop} {E : World → (DB → DB) → Exn → Prop} {w : World}
    {u : DB → DB} {q : DB → α} {Q : World → (DB → DB) → α → Prop} (h : ∀ w', R w w' → Q w' u (q (u w'.now))) :
    Txn.wp R G E Q (Txn.query q : Tx α) w u := h

/-- The insert: refused when the digest was taken meanwhile. -/
theorem flushInsert_wp {inv : Invoice} {E : World → (DB → DB) → Exn → Prop} {w : World}
    {Q : World → (DB → DB) → Unit → Prop}
    (hok : insertable inv w.now = true → Q w (fun d => { d with invoices := d.invoices.insert inv }) ())
    (herr : insertable inv w.now = false → E w id .integrityError) :
    Txn.wp Eq G E Q (flushInsert inv) w id := by
  refine Tx.wp_bind (Tx.wp_read ?_)
  rintro w rfl
  cases h : insertable inv w.now with
  | true =>
    simp only [id_eq, h, if_true]
    exact hok h
  | false =>
    simp only [id_eq, h, Bool.false_eq_true, if_false]
    exact herr h

/-- **`ingest_upload`.** -/
theorem ingestUpload_wp (hv : validateUpload env.settings data contentType = .ok ())
    (hG : ∀ w w', UploadAct env i data filename contentType w w' → G w w') :
    Txn.wp Eq G (fun w _ e => w.now = w₀.now ∧ e.isIllegalTransition = false)
      (fun w u _ => u = id ∧ Ingested i w₀ w) (ingestUpload env i data filename contentType) w₀ id := by
  refine Tx.wp_bind (Tx.wp_read ?_)
  rintro w rfl
  cases hfind : findByDigest (sha256Hex data) (id w₀.now) with
  | some existing => exact ⟨rfl, .found rfl⟩
  | none =>
    refine Tx.wp_bind (Tx.wp_putObject (fun w => w.now = w₀.now) rfl (fun w w' h hP => h ▸ hP) ?_ ?_ ?_)
    · exact fun w d hP hk => ⟨hP, hG _ _ (.kept hk)⟩
    · intro w p d hP hkey hbytes hloc hw
      refine ⟨hG _ _ (.document hv (by rw [hP]; exact hfind) hkey hbytes hloc hw), ?_⟩
      have hcont : d.contents p.location = some data := by rw [hw.2, if_pos rfl, hbytes]
      refine Tx.wp_bind ((Txn.wp_tryCatch _ _ _ _).mpr (Tx.wp_map (flushInsert_wp (fun hins => ?_) fun _ => ?_)))
      · refine Tx.wp_bind ?_
        rintro w' rfl
        refine ⟨hG _ _ (.insert hins (by rw [← hkey]; exact hloc) hcont), Tx.wp_bind ?_⟩
        rintro w' rfl
        have hrow := (DB.invoice_insert hins i).trans (if_pos rfl)
        exact ⟨hG _ _ (.send hrow rfl), rfl, .created hrow rfl (by simp)⟩
      · refine Tx.wp_bind (Tx.wp_bind (Tx.wp_read ?_))
        rintro w' rfl
        cases findByDigest (sha256Hex data) (id (w.setExt d).now) with
        | none => exact ⟨hP, rfl⟩
        | some winner => exact ⟨rfl, .found hP⟩
    · exact fun w e hP he => ⟨hP, he⟩

theorem uploadScope_wp {α : Type} {body : Tx α}
    (hG : ∀ w w', UploadAct env i data filename contentType w w' → G w w')
    (h : Txn.wp Eq G (fun w _ e => w.now = w₀.now ∧ e.isIllegalTransition = false)
      (fun w u _ => u = id ∧ Ingested i w₀ w) body w₀ id) :
    Txn.wp Eq G (fun w u e => u = id ∧ w.now = w₀.now ∧ e.isIllegalTransition = false)
      (fun w u _ => u = id ∧ Ingested i w₀ w) (Tx.sessionScope body) w₀ id := by
  refine Tx.wp_sessionScope (Txn.wp_conseq (fun _ _ h => h) (fun _ _ h => h) (fun _ _ _ h => ⟨rfl, h⟩) ?_ _ h)
  rintro w u a ⟨rfl, hin⟩ w' rfl
  refine ⟨hG _ _ .noop, rfl, ?_⟩
  cases hin with
  | found h => exact .found h
  | created h hs hm => exact .created h hs hm

end uploads

end InvoiceOps
