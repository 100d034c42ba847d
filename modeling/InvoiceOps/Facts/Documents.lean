/-
Stored documents stay bound to their invoices: in every run of uploads,
tasks and decisions on local storage in which no upload clobbers another's
document, the object of every invoice is the bytes of its digest. An upload
clobbers when its file name comes down to `..`, which takes it out of the
directory of its digest, and an invoice with such a name is already there.
-/
import InvoiceOps.Facts.Serial
import InvoiceOps.Facts.Keys

namespace InvoiceOps

/-- The operation is an upload that would write where the document of a
committed invoice lies: both are named `..`, and their digests begin alike. -/
def Clobbers (env : Env) (w : World) : Op → Prop
  | .upload _ data filename contentType | .uploadForm _ data filename contentType =>
    validateUpload env.settings data (orElseText (contentType.getD "") "application/octet-stream") = .ok () ∧
      findByDigest (sha256Hex data) w.now = none ∧
      baseName (orElseText (filename.getD "") "upload.bin") = ".." ∧
      ∃ i inv, w.now.invoice i = some inv ∧ baseName inv.originalFilename = ".." ∧
        shard inv.contentSha256 = shard (sha256Hex data)
  | .call .. => False

/-- A serial run in which no operation clobbers. -/
inductive CleanRun (env : Env) : World → Prop
  | start {w} : Initial w → CleanRun env w
  | step {w} (op : Op) (n : Nat) : CleanRun env w → ¬ Clobbers env w op → CleanRun env (cut env op n w)

theorem CleanRun.run {env : Env} {w : World} (h : CleanRun env w) (op : Op) (hclean : ¬ Clobbers env w op) :
    CleanRun env ((op.prog env).run w id).2.1 := by
  obtain ⟨n, hn⟩ := exists_cut_eq_run env op w
  exact hn ▸ h.step op n hclean

/-- The document of an invoice is there. -/
structure Bound (env : Env) (w : World) (inv : Invoice) (data : Bytes) : Prop where
  digest : inv.contentSha256 = sha256Hex data
  key : inv.storageKey = storageKey (sha256Hex data) inv.originalFilename
  contents : ∃ l, env.locate inv.storageKey = .ok l ∧ w.ext.contents l = some data

section documents
variable {env : Env} {w w' w₀ : World} {inv inv' : Invoice} {op : Op} {data : Bytes}

/-- A move leaves the document's fields alone. -/
theorem Bound.move {R : World → World → Prop} {c : Call} {a₀ : List Write} (h : Bound env w inv data)
    (hm : Move env R c a₀ w' inv inv') : Bound env w inv' data := by
  obtain ⟨hd, hk, hc⟩ := h
  cases hm <;> exact ⟨hd, hk, hc⟩

theorem findByDigest_eq_none {d : DB} {digest : String} :
    findByDigest digest d = none ↔ ∀ i inv, d.invoice i = some inv → inv.contentSha256 ≠ digest := by
  rw [findByDigest, List.find?_eq_none]
  refine ⟨fun h i inv hi => by simpa using h inv (Table.mem_of_get? hi).1, fun h inv hmem => ?_⟩
  simpa using h inv.id inv (Table.mem_rows_iff.mp hmem)

/-- Within one upload, rows stay, and the only new one is the upload's. -/
theorem Acts.rows_of_upload {id : Uuid} {name contentType : String}
    (h : Relation.ReflTransGen (UploadAct env id data name contentType) w₀ w) (j : Uuid) (inv : Invoice) :
    (w₀.now.invoice j = some inv → w.now.invoice j = some inv) ∧
      (w.now.invoice j = some inv → w₀.now.invoice j = some inv ∨ inv.contentSha256 = sha256Hex data) := by
  induction h with
  | refl => exact ⟨fun hj => hj, .inl⟩
  | tail _ hact ih =>
    cases hact with
    | insert hins =>
      rw [Txn.World.commit_now, DB.invoice_insert hins]
      rw [insertable, Bool.and_eq_true, Option.isNone_iff_eq_none] at hins
      split
      · next hid =>
        refine ⟨fun hj => ?_, fun hj => by cases hj; exact .inr rfl⟩
        have hnone := hid ▸ ih.1 hj
        rw [hins.1] at hnone
        cases hnone
      · exact ih
    | _ => exact ih

/-- **No clobbering, no overwriting**: an object written in a clean step is
not where a committed invoice has its document. -/
theorem DiskAct.apart {d : Disk} (hclean : ¬ Clobbers env w₀ op)
    (hacts : Relation.ReflTransGen (op.Acts env w₀) w₀ w) (h : DiskAct env w₀ w d op) {j : Uuid} {stored : Bytes}
    (hj : w.now.invoice j = some inv) (hb : Bound env w inv stored) :
    ∃ l, env.locate inv.storageKey = .ok l ∧ d.contents l = some stored := by
  obtain ⟨l, hl, hc⟩ := hb.contents
  refine ⟨l, hl, ?_⟩
  cases h with
  | kept hk => rw [hk.2, hc]
  | artifact hkey hloc ha hw =>
    rw [hw.2, if_neg, hc]
    rintro rfl
    rw [hkey] at hloc
    rw [hb.key] at hl
    exact Storage.locate_exportKey_ne hloc hl
  | @document _ q id data filename contentType hop hv hf hkey hbytes hloc hw =>
    rw [hw.2, if_neg, hc]
    rintro rfl
    rw [hkey] at hloc
    rw [hb.key] at hl
    rcases Storage.resolve_storageKey_eq (Storage.resolve_eq_of_locate hl hloc) with heq | ⟨hdots, hdots', hshard⟩
    · exact findByDigest_eq_none.mp hf j inv hj (hb.digest.trans heq)
    · have hupload : Relation.ReflTransGen (UploadAct env id data (orElseText (filename.getD "") "upload.bin")
          (orElseText (contentType.getD "") "application/octet-stream")) w₀ w := by
        rcases hop with rfl | rfl <;> exact hacts
      rcases (Acts.rows_of_upload hupload j inv).2 hj with hold | hnew
      · have hf₀ : findByDigest (sha256Hex data) w₀.now = none := findByDigest_eq_none.mpr fun i o hi =>
          findByDigest_eq_none.mp hf i o ((Acts.rows_of_upload hupload i o).1 hi)
        have hwould : validateUpload env.settings data
              (orElseText (contentType.getD "") "application/octet-stream") = .ok () ∧
            findByDigest (sha256Hex data) w₀.now = none ∧
            baseName (orElseText (filename.getD "") "upload.bin") = ".." ∧
            ∃ i inv, w₀.now.invoice i = some inv ∧ baseName inv.originalFilename = ".." ∧
              shard inv.contentSha256 = shard (sha256Hex data) :=
          ⟨hv, hf₀, hdots', j, inv, hold, hdots, by rw [hb.digest]; exact hshard⟩
        rcases hop with rfl | rfl <;> exact hclean hwould
      · exact findByDigest_eq_none.mp hf j inv hj hnew

theorem bound_act (hclean : ¬ Clobbers env w₀ op)
    (hacts : Relation.ReflTransGen (op.Acts env w₀) w₀ w) (hP : Rows (fun w inv => ∃ data, Bound env w inv data) w)
    (h : op.Acts env w₀ w w') : Rows (fun w inv => ∃ data, Bound env w inv data) w' := by
  intro j inv' hj
  have hdisk := h.disk
  -- A row that was there has its document where it was.
  have hold : ∀ {o}, w.now.invoice j = some o → ∃ data, Bound env w' o data := by
    intro o ho
    obtain ⟨data, hb⟩ := hP j o ho
    exact ⟨data, hb.digest, hb.key, hdisk.apart hclean hacts ho hb⟩
  have hupload : ∀ {id data name contentType}, UploadAct env id data name contentType w w' →
      ∃ data, Bound env w' inv' data := by
    intro id data name contentType hact
    cases hact with
    | @insert l hins hl hc =>
      rw [Txn.World.commit_now, DB.invoice_insert hins] at hj
      split at hj
      · cases hj
        exact ⟨data, rfl, rfl, l, hl, hc⟩
      · exact hold hj
    | _ => exact hold hj
  cases op with
  | upload | uploadForm => exact hupload h
  | call i c =>
    cases h with
    | @move inv _ _ hrow hm hch =>
      rw [Txn.World.commit_now, hch.invoice] at hj
      split at hj
      · next hji =>
        cases hj
        subst hji
        obtain ⟨data, hb⟩ := hold hrow
        exact ⟨data, hb.move hm⟩
      · exact hold hj
    | _ => exact hold hj

/-- **Every document is bound**, in every clean run. -/
theorem bound_of_cleanRun (h : CleanRun env w) {i : Uuid} (hi : w.now.invoice i = some inv) :
    ∃ data, sha256Hex data = inv.contentSha256 ∧
      Storage.getObject env.py env.settings.storageBackend env.settings.storageLocalDir inv.storageKey w.ext =
        .ok data := by
  have hrows : Rows (fun w inv => ∃ data, Bound env w inv data) w := by
    clear hi
    induction h with
    | start h => exact .initial h
    | @step w₀ op n _ hclean ih =>
      have hacts := cut_acts env op n w₀
      generalize cut env op n w₀ = w at hacts
      induction hacts with
      | refl => exact ih
      | tail hs h ih' => exact bound_act hclean hs ih' h
  obtain ⟨data, hb⟩ := hrows i inv hi
  obtain ⟨l, hl, hc⟩ := hb.contents
  exact ⟨data, hb.digest.symm, Storage.getObject_eq_ok hl hc⟩

end documents

/-- Two uploads named `..`, of the bytes 5 and 11, whose digests begin `e7`. -/
def Sample.clobbered : World :=
  Sample.after [.upload (Sample.uuid 5) [5] (some "..") (some "application/pdf"),
    .upload (Sample.uuid 6) [11] (some "..") (some "application/pdf")]

/-- The object of the first invoice is the second's document. -/
theorem clobbered_document :
    (Sample.clobbered.now.invoice (Sample.uuid 5)).map (fun inv => (inv.contentSha256,
      (Storage.getObject Sample.py .local Sample.env.settings.storageLocalDir inv.storageKey
        Sample.clobbered.ext).toOption)) = some (sha256Hex [5], some [11]) ∧
      sha256Hex [11] ≠ sha256Hex [5] := by
  decide +kernel

/-- Two uploads named `..`, whose digests begin differently. -/
def Sample.beside (n : Nat) : Op := .upload (uuid n) [UInt8.ofNat n] (some "..") (some "application/pdf")

theorem Sample.beside_rows :
    (after [beside 5]).now.invoices.rows.map (·.contentSha256) = [sha256Hex [5]] ∧
      shard (sha256Hex [5]) ≠ shard (sha256Hex [6]) ∧
      ∀ n ∈ [5, 6], ((after [beside 5, beside 6]).now.invoice (uuid n)).map (baseName ·.originalFilename) =
        some ".." := by
  decide +kernel

/-- After both, the object of the `n`th is a document of its digest. -/
def Sample.Besides (n : Nat) : Prop := ∃ inv data,
  (after [beside 5, beside 6]).now.invoice (uuid n) = some inv ∧ baseName inv.originalFilename = ".." ∧
    sha256Hex data = inv.contentSha256 ∧
    Storage.getObject py .local env.settings.storageLocalDir inv.storageKey (after [beside 5, beside 6]).ext = .ok data

theorem bound_of_sample : Sample.Besides 5 ∧ Sample.Besides 6 := by
  obtain ⟨hrows, hshard, hnames⟩ := Sample.beside_rows
  -- When the first comes there is no invoice yet, and the second goes elsewhere.
  have hclean₅ : ¬ Clobbers Sample.env Sample.world (Sample.beside 5) := by
    rintro ⟨-, -, -, i, inv, hinv, -⟩
    cases hinv
  have hclean₆ : ¬ Clobbers Sample.env (Sample.after [Sample.beside 5]) (Sample.beside 6) := by
    rintro ⟨-, -, -, i, inv, hinv, -, heq⟩
    have hdigest : inv.contentSha256 ∈ (Sample.after [Sample.beside 5]).now.invoices.rows.map (·.contentSha256) :=
      List.mem_map_of_mem (Table.mem_of_get? hinv).1
    rw [hrows, List.mem_singleton] at hdigest
    rw [hdigest] at heq
    exact hshard heq
  have hrun₅ : CleanRun Sample.env (Sample.after [Sample.beside 5]) :=
    (CleanRun.start Sample.world_initial).run _ hclean₅
  have hrun : CleanRun Sample.env (Sample.after [Sample.beside 5, Sample.beside 6]) := by
    have hlast := Sample.after_concat [Sample.beside 5] (Sample.beside 6)
    rw [List.singleton_append] at hlast
    rw [hlast]
    exact hrun₅.run _ hclean₆
  have hboth : ∀ n ∈ [5, 6], Sample.Besides n := by
    intro n hn
    obtain ⟨inv, hi, hname⟩ := Option.map_eq_some_iff.mp (hnames n hn)
    obtain ⟨data, hdata⟩ := bound_of_cleanRun hrun hi
    exact ⟨inv, data, hi, hname, hdata⟩
  exact ⟨hboth 5 (by decide), hboth 6 (by decide)⟩

end InvoiceOps
