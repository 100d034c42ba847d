/-
Every invoice has its document, under every schedule, as long as no two
uploads of the run clash (`Harmless`): two that are named `..` and whose
digests begin alike but differ.

The document is stored before its row is, and outside the transaction. What
is relied on is that whoever writes there later writes the same digest, so
what one upload stored another may store again (`Keeps`).
-/
import InvoiceOps.Facts.Documents
import InvoiceOps.Facts.Pointers

namespace InvoiceOps

/-- The bytes and the file name of an upload. -/
def Op.document : Op → Option (Bytes × String)
  | .upload _ data filename _ | .uploadForm _ data filename _ =>
    some (data, orElseText (filename.getD "") "upload.bin")
  | .call .. => none

/-- An upload of the run has this digest and this name. -/
def Documented (B : Op → Prop) (digest name : String) : Prop :=
  ∃ op data, B op ∧ op.document = some (data, name) ∧ sha256Hex data = digest

/-- No two uploads of the run clash. -/
def Harmless (B : Op → Prop) : Prop := ∀ {digest name digest' name'}, Documented B digest name →
  Documented B digest' name' → baseName name = ".." → baseName name' = ".." → shard digest = shard digest' →
    digest = digest'

/-- Bytes of this digest lie where a document of it with this name belongs. -/
def Holding (env : Env) (digest name : String) (d : Disk) : Prop :=
  ∃ l data, env.locate (storageKey digest name) = .ok l ∧ d.contents l = some data ∧ sha256Hex data = digest

/-- What lies in place of a document stays one of its digest. -/
def Retains (env : Env) (B : Op → Prop) (d d' : Disk) : Prop :=
  ∀ {digest name}, Documented B digest name → Holding env digest name d → Holding env digest name d'

/-- The document of an invoice is there, and an upload of the run brought it. -/
structure Stocked (env : Env) (B : Op → Prop) (w : World) (inv : Invoice) : Prop where
  document : Documented B inv.contentSha256 inv.originalFilename
  key : inv.storageKey = storageKey inv.contentSha256 inv.originalFilename
  holding : Holding env inv.contentSha256 inv.originalFilename w.ext

/-- What the run does to the storage. -/
def Deposits (env : Env) (B : Op → Prop) (d d' : Disk) : Prop :=
  Disk.Kept d d' ∨ ∃ q, Disk.Wrote q d d' ∧ env.locate q.key = .ok q.location ∧
    ((∃ i k, q.key = exportKey i k) ∨
      ∃ name, Documented B (sha256Hex q.bytes) name ∧ q.key = storageKey (sha256Hex q.bytes) name)

/-- What every operation does, and relies on. -/
structure Keeps (env : Env) (B : Op → Prop) (w w' : World) : Prop where
  retains : Retains env B w.ext w'.ext
  stocked : Rows (Stocked env B) w → Rows (Stocked env B) w'

section holdings
variable {env : Env} {B : Op → Prop} {w w' : World} {d d' d'' : DB} {digest name : String}

/-- **What lies where a document belongs has its digest.** -/
theorem Deposits.retains (hB : Harmless B) {t t' : Disk} (hd : Deposits env B t t') : Retains env B t t' := by
  rintro digest name hdoc ⟨l, data, hl, hc, hdigest⟩
  rcases hd with hk | ⟨q, hw, hq, hkind⟩
  · exact ⟨l, data, hl, (hk.2 l).trans hc, hdigest⟩
  · by_cases hloc : l = q.location
    · subst hloc
      refine ⟨q.location, q.bytes, hl, by rw [hw.2, if_pos rfl], ?_⟩
      obtain ⟨op, data₀, hop, hdocument, rfl⟩ := id hdoc
      rcases hkind with ⟨i, k, hkey⟩ | ⟨name', hdoc', hkey⟩
      · rw [hkey] at hq
        exact absurd hl (Storage.locate_exportKey_ne hq)
      · rw [hkey] at hq
        rcases Storage.resolve_storageKey_eq (Storage.resolve_eq_of_locate hq hl) with heq | ⟨hdots', hdots, hshard⟩
        · exact heq
        · exact hB hdoc' hdoc hdots' hdots hshard
    · exact ⟨l, data, hl, by rw [hw.2, if_neg hloc, hc], hdigest⟩

/-! ## Commits -/

/-- The rows are those there were, and more of each. -/
def DB.Continues (d d' : DB) : Prop := ∀ i inv', d'.invoice i = some inv' →
  ∃ inv, d.invoice i = some inv ∧ inv.Extends (fun _ => True) inv'

theorem DB.Continues.refl (d : DB) : d.Continues d := fun _ inv hi => ⟨inv, hi, .refl inv⟩

theorem DB.Continues.trans (h : d.Continues d') (h' : d'.Continues d'') : d.Continues d'' := by
  intro i inv'' hi''
  obtain ⟨inv', hi', hext'⟩ := h' i inv'' hi''
  obtain ⟨inv, hi, hext⟩ := h i inv' hi'
  exact ⟨inv, hi, hext.trans hext'⟩

theorem DB.Continues.patch {i : Uuid} {f : Invoice → Invoice} {u : DB → DB} (hu : Patches i f u)
    (hf : ∀ r : Invoice, r.Extends (fun _ => True) (f r)) (d : DB) : d.Continues (u d) := fun j inv' hj => by
  rcases hu.cases hj with ⟨-, inv, hi, rfl⟩ | ⟨-, hi⟩
  · exact ⟨inv, hi, hf inv⟩
  · exact ⟨inv', hi, .refl inv'⟩

theorem Stocked.grows {inv inv' : Invoice} (h : Stocked env B w inv) (hext : inv.Extends (fun _ => True) inv')
    (hd : Retains env B w.ext w'.ext) : Stocked env B w' inv' where
  document := by rw [hext.contentSha256, hext.originalFilename]; exact h.document
  key := by rw [hext.storageKey, hext.contentSha256, hext.originalFilename]; exact h.key
  holding := by
    rw [hext.contentSha256, hext.originalFilename]
    exact hd h.document h.holding

/-! ## What an operation does -/

theorem Keeps.refl (w : World) : Keeps env B w w := ⟨fun _ h => h, id⟩

theorem Keeps.trans {w'' : World} (h : Keeps env B w w') (h' : Keeps env B w' w'') : Keeps env B w w'' where
  retains hdoc hh := h'.retains hdoc (h.retains hdoc hh)
  stocked hw := h'.stocked (h.stocked hw)

/-- A step on the storage. -/
theorem Keeps.deposits (hB : Harmless B) {t : Disk} (h : Deposits env B w.ext t) : Keeps env B w (w.setExt t) where
  retains := h.retains hB
  stocked hw i inv hi := (hw i inv hi).grows (.refl inv) (h.retains hB)

/-- A step of a program that brings no invoice. -/
theorem Keeps.confined (hB : Harmless B) (h : Txn.Confined.Step DB.Continues (Deposits env B) w w') :
    Keeps env B w w' := by
  rcases h with ⟨hd, hext⟩ | ⟨hnow, hdeposits⟩
  · have hretains : Retains env B w.ext w'.ext := fun _ hh => hext ▸ hh
    refine ⟨hretains, fun hw i inv' hi => ?_⟩
    obtain ⟨inv, hi₀, hgrown⟩ := hd i inv' hi
    exact (hw i inv hi₀).grows hgrown hretains
  · refine ⟨hdeposits.retains hB, fun hw i inv hi => ?_⟩
    exact (hw i inv (hnow ▸ hi)).grows (.refl inv) (hdeposits.retains hB)

/-- **Every call**, whatever it reads. -/
theorem confined_call (env : Env) (B : Op → Prop) (i : Uuid) (c : Call) :
    Txn.Confined DB.Continues (Deposits env B) (c.prog env i) := by
  have J := Txn.Confined.judgement (τ := Disk) (μ := Message) (ε := Exn) (M := Deposits env B) DB.Continues.refl
  have hedits : ∀ S, Edits (fun α (p : Tx α) => Txn.Confined DB.Continues (Deposits env B) p) i S := fun S =>
    confined_edits (fun _ _ _ => .trans) fun hu hf => .patch hu hf.grows
  refine judged_call J (hedits _) fun key now _ =>
    (hedits fun _ => True).runExport J (fun _ _ _ _ _ => trivial) (fun data => ?_) fun e => ?_
  · exact confined_putObject (fun _ _ => .inl) fun q _ _ hw hkey _ hl => .inr ⟨q, hw, hl, .inl ⟨i, key, hkey⟩⟩
  · have hpatches := (Patches.nothing i).update (fun r => { r with exports := r.exports ++ [e] }) fun _ => rfl
    exact .update (fun _ _ _ => .trans) (.patch hpatches fun r => r.extends_exports e)

/-- The row of an upload whose document is in place. -/
theorem Keeps.insert {inv : Invoice} (hdoc : Documented B inv.contentSha256 inv.originalFilename)
    (hkey : inv.storageKey = storageKey inv.contentSha256 inv.originalFilename)
    (hh : Holding env inv.contentSha256 inv.originalFilename w.ext) :
    Keeps env B w (w.commit { w.now with invoices := w.now.invoices.insert inv }) where
  retains _ h := h
  stocked hw j inv' hj := by
    rcases DB.insert_cases hj with hold | ⟨-, rfl⟩
    · exact ⟨(hw j inv' hold).document, (hw j inv' hold).key, (hw j inv' hold).holding⟩
    · exact ⟨hdoc, hkey, hh⟩

theorem Tx.wp_rollback {R G : World → World → Prop} {E : World → (DB → DB) → Exn → Prop}
    {Q : World → (DB → DB) → Unit → Prop} {u : DB → DB} (h : Q w id ()) : Txn.wp R G E Q Txn.rollbackNow w u := h

/-- **An upload**: its document, and then its row. -/
theorem ingestUpload_keeps (hB : Harmless B) {i : Uuid} {data : Bytes} {filename contentType : String}
    (hdoc : Documented B (sha256Hex data) filename) :
    Txn.wp (Keeps env B) (Keeps env B) (fun _ _ _ => True)
      (fun w u _ => ∀ w', Keeps env B w w' → Keeps env B w' (w'.commit (u w'.now)))
      (ingestUpload env i data filename contentType) w id := by
  have hnoop : ∀ w' : World, Keeps env B w' (w'.commit w'.now) := fun w' => .confined hB (.inl ⟨.refl _, rfl⟩)
  refine Tx.wp_bind (Txn.wp_query.mpr fun w₁ _ => ?_)
  rw [id_eq]
  cases findByDigest (sha256Hex data) w₁.now with
  | some existing => exact fun w' _ => hnoop w'
  | none =>
    refine Tx.wp_bind (Tx.wp_putObject (fun _ => True) trivial (fun _ _ _ _ => trivial) ?_ ?_ fun _ _ _ _ => by trivial)
    · exact fun w d _ hk => ⟨trivial, .deposits hB (.inl hk)⟩
    · rintro w p d - hkey rfl hl hw
      refine ⟨.deposits hB (.inr ⟨p, hw, hl, .inr ⟨filename, hdoc, hkey⟩⟩), ?_⟩
      have hh : Holding env (sha256Hex p.bytes) filename d :=
        ⟨p.location, p.bytes, hkey ▸ hl, by rw [hw.2, if_pos rfl], rfl⟩
      refine Tx.wp_bind ((Txn.wp_tryCatch _ _ _ _).mpr (Tx.wp_map (Tx.wp_bind (Txn.wp_query.mpr fun w₂ h₂ => ?_))))
      split
      · refine fun w₃ h₃ => ⟨.insert hdoc rfl (h₃.retains hdoc (h₂.retains hdoc hh)), fun w₄ _ => ⟨?_, ?_⟩⟩
        · exact .confined hB (.inl ⟨.refl _, rfl⟩)
        · exact fun w' _ => hnoop w'
      · -- Another upload inserted the same bytes first; its row is looked up.
        refine Tx.wp_bind (Tx.wp_rollback (Tx.wp_bind (Txn.wp_query.mpr fun w₃ _ => ?_)))
        cases findByDigest (sha256Hex p.bytes) (id w₃.now) with
        | none => trivial
        | some winner => exact fun w' _ => hnoop w'

/-- **Every operation.** -/
theorem Op.keeps (hB : Harmless B) (op : Op) (hop : B op) :
    Txn.wp (Keeps env B) (Keeps env B) (fun _ _ _ => True) (fun _ _ _ => True) (op.prog env) w id := by
  cases op with
  | upload i data filename contentType | uploadForm i data filename contentType =>
    refine Tx.wp_sessionScope ?_
    dsimp only
    split
    · first | trivial | exact fun w' _ => ⟨.confined hB (.inl ⟨.refl _, rfl⟩), trivial⟩
    · trivial
    · refine Tx.wp_bind (Txn.wp_mono (ingestUpload_keeps hB ⟨_, data, hop, rfl, rfl⟩) ?_)
      exact fun w u _ hcommit w' hl => ⟨hcommit w' hl, trivial⟩
  | call i c =>
    exact Txn.wp_conseq (fun _ _ _ => trivial) (fun _ _ hstep => .confined hB hstep) (fun _ _ _ _ => trivial)
      (fun _ _ _ _ => trivial) _ (confined_call env B i c w id .refl)

end holdings

/-! ## Every schedule -/

/-- **The rules of the storage.** -/
def holdingRules (env : Env) (B : Op → Prop) (hB : Harmless B) : Txn.Rules (Op.prog env) where
  Inv := Rows (Stocked env B)
  R _ := Keeps env B
  G _ := Keeps env B
  Apart _ _ := True
  Ready op _ := B op
  symm _ := trivial
  refl _ := .refl
  trans _ _ _ _ := .trans
  inv_guar h hd := hd.stocked h
  rely_guar _ _ hd := hd
  ready_rely h _ := h
  spec op _ _ hop := op.keeps hB hop

/-- **Every document is in place**, whatever the calls interleave and
wherever they die, if no two uploads of the run clash. -/
theorem stocked_of_schedule {env : Env} {w : World} {as : List (Txn.Action Op)}
    {s : Txn.Sys Op DB Disk Message Exn} {i : Uuid} {inv : Invoice} (hw : Initial w)
    (hB : Harmless fun op => ∃ t, .begin t op ∈ as) (hex : Txn.Sys.execute (Op.prog env) (.idle w) as = some s)
    (hi : s.world.now.invoice i = some inv) :
    (∃ t op data, .begin t op ∈ as ∧ op.document = some (data, inv.originalFilename) ∧
      sha256Hex data = inv.contentSha256) ∧
    ∃ data, sha256Hex data = inv.contentSha256 ∧
      Storage.getObject env.py env.settings.storageBackend env.settings.storageLocalDir inv.storageKey s.world.ext =
        .ok data := by
  have hstart : (holdingRules env _ hB).Holds (Txn.begun as ++ []) (.idle w) :=
    .idle (.initial hw) (fun op hop => Txn.mem_begun.mp (by simpa using hop))
      (List.pairwise_of_forall fun _ _ => trivial)
  have hstocked := (hstart.execute as hex).1.inv i inv hi
  obtain ⟨⟨op, data, ⟨t, ht⟩, hdocument, hdigest⟩, hkey, l, stored, hl, hc, hd⟩ := hstocked
  refine ⟨⟨t, op, data, ht, hdocument, hdigest⟩, stored, hd, ?_⟩
  rw [hkey]
  exact Storage.getObject_eq_ok hl hc

namespace Sample

/-- The same bytes under two names; the first upload stores its document
after the other has committed its row. -/
def sameBytes : List (Txn.Action Op) :=
  turns 0 (.upload (uuid 5) [5] (some "a.pdf") (some "application/pdf")) 1 ++
    turns 1 (.upload (uuid 6) [5] (some "b.pdf") (some "application/pdf")) 8 ++ List.replicate 6 (.advance 0)

theorem invoice_sameBytes : ((Txn.Sys.execute (Op.prog env) (.idle world) sameBytes).bind fun s =>
    (s.world.now.invoice (uuid 6)).map (·.originalFilename)) = some "b.pdf" := by decide +kernel

theorem harmless_sameBytes : Harmless fun op => ∃ t, .begin t op ∈ sameBytes := by
  have hdocument : ∀ {digest name}, Documented (fun op => ∃ t, .begin t op ∈ sameBytes) digest name →
      digest = sha256Hex [5] := by
    rintro digest name ⟨op, data, ⟨t, ht⟩, hop, rfl⟩
    simp only [sameBytes, turns, List.mem_append, List.mem_cons, List.mem_replicate, Txn.Action.begin.injEq,
      reduceCtorEq, and_false, or_false] at ht
    rcases ht with ⟨-, rfl⟩ | ⟨-, rfl⟩ <;> cases hop <;> rfl
  intro _ _ _ _ h h' _ _ _
  exact (hdocument h).trans (hdocument h').symm

end Sample

theorem stocked_of_sameBytes : ∃ s inv data,
    Txn.Sys.execute (Op.prog Sample.env) (.idle Sample.world) Sample.sameBytes = some s ∧
      s.world.now.invoice (Sample.uuid 6) = some inv ∧ sha256Hex data = inv.contentSha256 ∧
      Storage.getObject Sample.py .local Sample.env.settings.storageLocalDir inv.storageKey s.world.ext = .ok data := by
  obtain ⟨s, hex, hrun⟩ := Option.bind_eq_some_iff.mp Sample.invoice_sameBytes
  obtain ⟨inv, hi, -⟩ := Option.map_eq_some_iff.mp hrun
  obtain ⟨-, data, hdigest, hget⟩ := stocked_of_schedule Sample.world_initial Sample.harmless_sameBytes hex hi
  exact ⟨s, inv, data, hex, hi, hdigest, hget⟩

end InvoiceOps
