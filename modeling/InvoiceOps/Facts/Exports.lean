/-
What is exported is what was validated and approved: every export row of a
serial run has its signed artifact in storage, never overwritten, and the
artifact describes the extraction, the match and the approval that the
stages before it worked from.

The artifact is written outside the transaction. A run that dies after it
leaves an artifact without a row, never a row without its artifact; and the
next attempt draws a new uuid, so it writes elsewhere.
-/
import InvoiceOps.Facts.Grounds
import InvoiceOps.Facts.Keys

namespace InvoiceOps

/-! ## Runs with fresh uuids -/

/-- The uuids an operation draws. -/
def Op.draws : Op → List Uuid
  | .upload id .. | .uploadForm id .. => [id]
  | .call _ (.export key _) => [key]
  | .call .. => []

/-- A serial run in which every uuid drawn is new; `used` are those drawn. -/
inductive FreshRun (env : Env) : World → List Uuid → Prop
  | start {w} : Initial w → FreshRun env w []
  | step {w used} (op : Op) (n : Nat) : FreshRun env w used → (∀ u ∈ op.draws, u ∉ used) →
      FreshRun env (cut env op n w) (op.draws ++ used)

section runs
variable {env : Env} {w w' : World} {used : List Uuid}

theorem FreshRun.reachable (h : FreshRun env w used) : Reachable env w := by
  induction h with
  | start h => exact .start h
  | step op n _ _ ih => exact ih.step op n

/-- Invariants of runs with fresh uuids. -/
theorem FreshRun.induct {P : World → List Uuid → Prop} (hinit : ∀ w, Initial w → P w [])
    (hdraw : ∀ {w used us}, P w used → P w (us ++ used))
    (hact : ∀ (op : Op) (used : List Uuid) (w₀ w w' : World), (∀ u ∈ op.draws, u ∉ used) → P w₀ used →
      Relation.ReflTransGen (op.Acts env w₀) w₀ w → P w (op.draws ++ used) → op.Acts env w₀ w w' →
      P w' (op.draws ++ used)) (h : FreshRun env w used) : P w used := by
  induction h with
  | start h => exact hinit _ h
  | @step w₀ used op n _ hfresh ih =>
    have hacts := cut_acts env op n w₀
    generalize cut env op n w₀ = w at hacts
    induction hacts with
    | refl => exact hdraw ih
    | tail hs h ih' => exact hact op used w₀ _ _ hfresh ih hs ih' h

/-! ## Objects -/

/-- What a run that drew `used` writes. -/
structure Filed (env : Env) (used : List Uuid) (p : Write) : Prop where
  location : env.locate p.key = .ok p.location
  key : (∃ data name, p.key = storageKey (sha256Hex data) name) ∨ ∃ i k, p.key = exportKey i k ∧ k ∈ used

theorem Filed.mono {us : List Uuid} {p : Write} (h : Filed env used p) : Filed env (us ++ used) p where
  location := h.location
  key := h.key.imp_right fun ⟨i, k, hk, hmem⟩ => ⟨i, k, hk, List.mem_append_right _ hmem⟩

/-- An export with a new uuid has its location to itself. -/
theorem Filed.location_ne {p q : Write} {i key : Uuid} (h : Filed env used p) (hkey : q.key = exportKey i key)
    (hloc : env.locate q.key = .ok q.location) (hnew : key ∉ used) : p.location ≠ q.location := by
  intro heq
  rw [hkey] at hloc
  have hp := h.location
  rw [heq] at hp
  rcases h.key with ⟨data, name, hd⟩ | ⟨j, k, hk, hmem⟩
  · rw [hd] at hp
    exact Storage.locate_exportKey_ne hloc hp
  · rw [hk] at hp
    obtain ⟨-, rfl⟩ := Storage.locate_exportKey_injective hp hloc
    exact hnew hmem

/-- Within one call, every new object is an artifact of its invoice. -/
theorem Acts.new_artifacts {i : Uuid} {c : Call} {w₀ : World}
    (h : Relation.ReflTransGen ((Op.call i c).Acts env w₀) w₀ w) :
    ∃ new, w.ext.writes = w₀.ext.writes ++ new ∧ artifacts i w.ext = artifacts i w₀.ext ++ new := by
  induction h with
  | refl => exact ⟨[], by simp, by simp⟩
  | @tail w w' _ hact ih =>
    obtain ⟨new, hw, ha⟩ := ih
    cases hact.disk with
    | kept hk => exact ⟨new, hk.1.trans hw, (Artifacts.kept hk).trans ha⟩
    | document hop => rcases hop with hop | hop <;> cases hop
    | @artifact _ _ _ p hkey _ _ hwrote =>
      refine ⟨new ++ [p], ?_, ?_⟩
      · rw [hwrote.1, hw, List.append_assoc]
      · rw [Artifacts.wrote hwrote hkey, ha, List.append_assoc]

/-- An object written at the location of an export is that export. -/
theorem DiskAct.fresh {op : Op} {w₀ : World} {d : Disk} (hfresh : ∀ u ∈ op.draws, u ∉ used)
    (hfiled : ∀ p ∈ w₀.ext.writes, Filed env used p) (hacts : Relation.ReflTransGen (op.Acts env w₀) w₀ w)
    (h : DiskAct env w₀ w d op) : Disk.Kept w.ext d ∨ ∃ q, Disk.Wrote q w.ext d ∧ Filed env (op.draws ++ used) q ∧
      ∀ p ∈ w.ext.writes, ∀ i k, p.key = exportKey i k → env.locate p.key = .ok p.location →
        p.location ≠ q.location := by
  cases h with
  | kept hk => exact .inl hk
  | document hop hv hf hkey hb hl hw =>
    refine .inr ⟨_, hw, ⟨hl, .inl ⟨_, _, hkey⟩⟩, fun p _ i k hp hpl heq => ?_⟩
    rw [hp, heq] at hpl
    rw [hkey] at hl
    exact Storage.locate_exportKey_ne hpl hl
  | @artifact i key now q hkey hl ha hw =>
    refine .inr ⟨q, hw, ⟨hl, .inr ⟨i, key, hkey, by simp [Op.draws]⟩⟩, fun p hp _ _ _ _ => ?_⟩
    -- The call has written nothing yet, so `p` was there before it drew its uuid.
    obtain ⟨new, hnew, hart⟩ := Acts.new_artifacts hacts
    have hnil : new = [] := by
      rw [ha] at hart
      simpa using hart.symm
    rw [hnew, hnil, List.append_nil] at hp
    exact (hfiled p hp).location_ne hkey hl (hfresh key (by simp [Op.draws]))

/-- The object of an export row: written once, signed, and there. -/
structure Sealed (env : Env) (w : World) (e : Export) (p : Write) : Prop where
  key : p.key = e.storageKey
  location : env.locate p.key = .ok p.location
  once : w.ext.writes.filter (fun q => q.location = p.location) = [p]
  contents : w.ext.contents p.location = some p.bytes
  signature : e.signature = signPayload p.bytes env.settings.exportSigningSecret

/-- It stays so while only other objects are written. -/
theorem Sealed.disk {e : Export} {p : Write} (h : Sealed env w e p)
    (hd : Disk.Kept w.ext w'.ext ∨ ∃ q, Disk.Wrote q w.ext w'.ext ∧ p.location ≠ q.location) : Sealed env w' e p := by
  refine ⟨h.key, h.location, ?_, ?_, h.signature⟩
  · rcases hd with hk | ⟨q, hw, hne⟩
    · rw [hk.1, h.once]
    · rw [hw.1, List.filter_append, h.once, List.filter_cons, if_neg (by simpa using hne.symm)]
      rfl
  · rcases hd with hk | ⟨q, hw, hne⟩
    · rw [hk.2, h.contents]
    · rw [hw.2, if_neg hne, h.contents]

theorem Sealed.mem {e : Export} {p : Write} (h : Sealed env w e p) : p ∈ w.ext.writes :=
  (List.mem_filter.mp (h.once ▸ List.mem_singleton_self p)).1

end runs

/-! ## The approval -/

/-- The audit rows of an approval, by the system or by a reviewer. -/
def approvals (l : List AuditLog) : List AuditLog :=
  l.filter fun e => e.toStatus == .autoApproved || e.toStatus == .approved

theorem approvalAuditEntry_eq (l : List AuditLog) : approvalAuditEntry l = (approvals l).getLast? := by
  rw [approvalAuditEntry, ← List.head?_filter, List.filter_reverse, List.head?_reverse, approvals]

/-- An approved invoice was approved once. -/
theorem Trail.approvals {s : InvoiceStatus} {es : List AuditLog} (h : Trail .received es s)
    (hs : exportable s = true) : ∃ a, InvoiceOps.approvals es = [a] ∧ a.toStatus = s := by
  have hs' : s = .autoApproved ∨ s = .approved := by simpa [exportable] using hs
  obtain ⟨a, ha, rfl⟩ := h.exists_last (by rcases hs' with hs | hs <;> rw [hs] <;> decide)
  have hmem : a ∈ InvoiceOps.approvals es := List.mem_filter.mpr ⟨ha, hs⟩
  refine ⟨a, ?_, rfl⟩
  -- All approvals have one rank, and the rows climb.
  have hpair : (InvoiceOps.approvals es).Pairwise fun e e' => e.toStatus.rank < e'.toStatus.rank :=
    h.pairwise.sublist List.filter_sublist
  have hrank : ∀ e ∈ InvoiceOps.approvals es, e.toStatus.rank = 7 := by
    intro e he
    have hto := (List.mem_filter.mp he).2
    simp only [Bool.or_eq_true, beq_iff_eq] at hto
    rcases hto with hto | hto <;> rw [hto] <;> rfl
  generalize InvoiceOps.approvals es = l at hmem hpair hrank
  cases l with
  | nil => cases hmem
  | cons b rest =>
    cases rest with
    | nil => rw [List.mem_singleton.mp hmem]
    | cons c rest =>
      have hlt := List.rel_of_pairwise_cons hpair (show c ∈ c :: rest from List.mem_cons_self)
      rw [hrank b (by simp), hrank c (by simp)] at hlt
      exact absurd hlt (lt_irrefl 7)

/-! ## The artifact -/

/-- What a payload says: the invoice as extracted, the match row's ids, the
approval. -/
structure Describes (payload : ExportPayload) (i : Uuid) (r : ExtractedInvoice) (row : InvoiceMatch) (a : AuditLog) :
    Prop where
  invoiceId : payload.invoiceId = i.str
  supplierName : payload.supplierName = r.supplierName
  supplierTaxId : payload.supplierTaxId = r.supplierTaxId
  invoiceNumber : payload.invoiceNumber = r.invoiceNumber
  invoiceDate : payload.invoiceDate = r.invoiceDate.map PyDate.isoformat
  currency : payload.currency = r.currency
  subtotal : payload.subtotal = r.subtotal.map PyDecimal.str
  taxAmount : payload.taxAmount = r.taxAmount.map PyDecimal.str
  total : payload.total = r.total.map PyDecimal.str
  lineItems : payload.lineItems = r.lineItems.map LineItem.dump
  vendorId : payload.vendorId = row.vendorId.map Uuid.str
  poId : payload.poId = row.poId.map Uuid.str
  status : payload.status = a.toStatus.value
  approvedBy : payload.approvedBy = some a.actor
  approvedReason : payload.approvedReason = a.reason

/-- An export row and its artifact. -/
inductive Delivered (env : Env) (w : World) (inv : Invoice) (e : Export) : Prop
  | mk (p : Write) (k : Uuid) (r : ExtractionResult) (a : AuditLog) (vendor : Option Vendor)
      (po : Option PurchaseOrder) (now : String) : Sealed env w e p → e.storageKey = exportKey inv.id k →
      inv.result = some r → approvals inv.auditLog = [a] →
      p.bytes = (exportPayload inv.id a.toStatus r.invoice (latestMatch inv.invoiceMatches) vendor po (some a)
        now).toJsonBytes → Delivered env w inv e

/-- What is kept of the invoices and of the objects. -/
structure ExportsOk (env : Env) (w : World) (used : List Uuid) : Prop where
  backed : Rows (Backed env Eq) w
  filed : ∀ p ∈ w.ext.writes, Filed env used p
  delivered : Rows (fun w inv => ∀ e ∈ inv.exports, Delivered env w inv e) w

section exports
variable {env : Env} {w w' : World} {inv inv' : Invoice}

/-- A move adds no export row, or is an export; an exported invoice does not
move. -/
theorem Move.exports {c : Call} {a₀ : List Write} (hm : Move env Eq c a₀ w inv inv') :
    inv'.exports = inv.exports ∧ inv.status ≠ .exported ∨ exportable inv.status = true := by
  cases hm with
  | exported key now r e p w₀ hc hs => exact .inr hs
  | noExtraction reason hs => exact .inl ⟨rfl, by rcases hs with hs | hs <;> rw [hs] <;> decide⟩
  | extracted e r reason hs | extractionFailed e error hs | matched r reason hs | validated r cs results reason hs
  | decided v e d hs | reviewed isApproval actor reason hs => exact .inl ⟨rfl, by rw [hs]; decide⟩

theorem Delivered.disk {e : Export} (h : Delivered env w inv e)
    (hd : Disk.Kept w.ext w'.ext ∨ ∃ q, Disk.Wrote q w.ext w'.ext ∧
      ∀ p ∈ w.ext.writes, ∀ i k, p.key = exportKey i k → env.locate p.key = .ok p.location → p.location ≠ q.location) :
    Delivered env w' inv e := by
  obtain ⟨p, k, r, a, vendor, po, now, hsealed, hkey, hr, ha, hb⟩ := h
  refine ⟨p, k, r, a, vendor, po, now, hsealed.disk ?_, hkey, hr, ha, hb⟩
  exact hd.imp_right fun ⟨q, hw, hne⟩ =>
    ⟨q, hw, hne p hsealed.mem inv.id k (hsealed.key.trans hkey) hsealed.location⟩

/-- **The export's own commit.** -/
theorem Delivered.move {c : Call} {i : Uuid} {w₀ : World} {used : List Uuid} (hid : inv.id = i)
    (hfresh : ∀ u ∈ (Op.call i c).draws, u ∉ used) (hfiled : ∀ p ∈ w₀.ext.writes, Filed env used p)
    (hacts : Relation.ReflTransGen ((Op.call i c).Acts env w₀) w₀ w) (hb : Backed env Eq w inv)
    (hm : Move env Eq c (artifacts i w₀.ext) w inv inv') (hs : exportable inv.status = true) :
    ∀ e ∈ inv'.exports, Delivered env w inv' e := by
  have hs' : inv.status = .autoApproved ∨ inv.status = .approved := by simpa [exportable] using hs
  cases hm with
  | exported key now r e p w₁ hc _ hr hkey hart ha hcont hw₁ =>
    obtain rfl : w = w₁ := hw₁.symm
    subst hc hid
    intro e' he'
    have hnone : inv.exports = [] := hb.ok.exports_eq_nil (by rcases hs' with hs | hs <;> rw [hs] <;> decide)
    obtain rfl : e' = e := by simpa [hnone] using he'
    obtain ⟨a, happ, hto⟩ := hb.trail.approvals hs
    -- The call wrote one object, and no earlier one lies where it does.
    obtain ⟨new, hnew, hart'⟩ := Acts.new_artifacts hacts
    obtain rfl : new = [p] := by
      rw [ha] at hart'
      exact (List.append_cancel_left hart').symm
    have honce : w.ext.writes.filter (fun q => q.location = p.location) = [p] := by
      rw [hnew, List.filter_append, List.filter_eq_nil_iff.mpr fun q hq => ?_]
      · simp
      · have hne := (hfiled q hq).location_ne (hart.key.trans hkey) hart.location (hfresh key (by simp [Op.draws]))
        simpa using hne
    refine ⟨p, key, r, a, vendorOf w.now (latestMatch inv.invoiceMatches), poOf w.now (latestMatch inv.invoiceMatches),
      now, ⟨hart.key, hart.location, honce, hcont, hart.signature⟩, hkey, hr, ?_, ?_⟩
    · simpa [approvals, List.filter_append] using happ
    · have hbytes := hart.bytes
      rw [approvalAuditEntry_eq, happ, List.getLast?_singleton, ← hto] at hbytes
      exact hbytes
  | _ => rcases hs' with hs' | hs' <;> simp_all

theorem ExportsOk.act {op : Op} {used : List Uuid} {w₀ : World} (hfresh : ∀ u ∈ op.draws, u ∉ used)
    (h₀ : ExportsOk env w₀ used) (hacts : Relation.ReflTransGen (op.Acts env w₀) w₀ w)
    (h : ExportsOk env w (op.draws ++ used)) (hact : op.Acts env w₀ w w') : ExportsOk env w' (op.draws ++ used) := by
  have hdisk := hact.disk.fresh hfresh h₀.filed hacts
  refine ⟨h.backed.act (fun hg hb => hb.grows hg) (fun _ _ _ _ => .new w (untouched_newInvoice ..))
    (fun hid hb hm => hb.move hid hm) hact, ?_, ?_⟩
  · intro p hp
    rcases hdisk with hk | ⟨q, hw, hq, -⟩
    · exact h.filed p (hk.1 ▸ hp)
    · rw [hw.1, List.mem_append, List.mem_singleton] at hp
      rcases hp with hp | rfl
      · exact h.filed p hp
      · exact hq
  · intro j inv' hj
    have hrow := hact.row j
    rw [hj] at hrow
    generalize ho : w.now.invoice j = o at hrow
    have hd : Disk.Kept w.ext w'.ext ∨ ∃ q, Disk.Wrote q w.ext w'.ext ∧ ∀ p ∈ w.ext.writes, ∀ i k,
        p.key = exportKey i k → env.locate p.key = .ok p.location → p.location ≠ q.location :=
      hdisk.imp_right fun ⟨q, hw, _, hne⟩ => ⟨q, hw, hne⟩
    cases hrow with
    | same => exact fun e he => (h.delivered j inv' ho e he).disk hd
    | new => exact fun e he => by cases he
    | @moved i c inv _ hop hi hm =>
      subst hop
      rcases hm.exports with ⟨hsame, hne⟩ | hs
      · rw [hsame, (h.backed j inv ho).ok.exports_eq_nil hne]
        exact fun e he => by cases he
      · exact fun e he => (Delivered.move (DB.id_of_invoice hi) hfresh h₀.filed hacts (h.backed j inv ho) hm hs e
          he).disk hd

theorem FreshRun.exportsOk {used : List Uuid} (h : FreshRun env w used) : ExportsOk env w used :=
  h.induct (fun w hw => ⟨.initial hw, fun p hp => (by rw [hw.writes] at hp; cases hp), .initial hw⟩)
    (fun h => ⟨h.backed, fun p hp => (h.filed p hp).mono, h.delivered⟩)
    fun _ _ _ _ _ hfresh h₀ hacts h hact => h₀.act hfresh hacts h hact

/-- **What is exported is what was validated and approved.** -/
theorem delivered_of_run {used : List Uuid} (h : FreshRun env w used) {i : Uuid} (hi : w.now.invoice i = some inv)
    {e : Export} (he : e ∈ inv.exports) : ∃ ex r row v d a p payload,
      (inv.extractions = [ex] ∧ ex.resultJson = some r) ∧
      (inv.invoiceMatches = [row] ∧ row = matchRow env.py r.invoice w.now) ∧
      (inv.validations = [v] ∧ Judged env Eq w i (some row) r v) ∧
      (Decided inv v ex d ∧ ⟨.validated, d.outcome, "system", some (decisionReason d)⟩ ∈ inv.auditLog) ∧
      approvals inv.auditLog = [a] ∧
      Describes payload i r.invoice row a ∧ p.bytes = payload.toJsonBytes ∧ Sealed env w e p ∧
      Storage.getObject env.py env.settings.storageBackend env.settings.storageLocalDir e.storageKey w.ext =
        .ok p.bytes ∧
      verifySignature p.bytes env.settings.exportSigningSecret e.signature = true := by
  have hok := h.exportsOk
  have hb := hok.backed i inv hi
  have hid := DB.id_of_invoice hi
  obtain ⟨p, k, r, a, vendor, po, now, hsealed, hkey, hr, ha, hbytes⟩ := hok.delivered i inv hi e he
  have hs : inv.status = .exported := hb.ok.status_eq he
  obtain ⟨r₁, hr₁, hrow⟩ := hb.matched (by rw [hs]; rfl)
  obtain ⟨r₂, v, hr₂, hv, hj⟩ := hb.judged (by rw [hs]; rfl)
  obtain ⟨v₁, ex, d, hd, hmem⟩ := hb.decided (by rw [hs]; rfl)
  obtain rfl : r = r₁ := Option.some.inj (hr.symm.trans hr₁)
  obtain rfl : r = r₂ := Option.some.inj (hr.symm.trans hr₂)
  obtain rfl : v = v₁ := List.singleton_injective (hv.symm.trans hd.1)
  have hres : ex.resultJson = some r := by
    obtain ⟨ex₁, r₃, hex₁, -, hres₁, -, hr₃, -⟩ := hb.ok.extraction (by rw [hs]; decide) (by rw [hs]; decide)
    obtain rfl : ex = ex₁ := List.singleton_injective (hd.2.1.symm.trans hex₁)
    rw [hr₃, ← hres₁, hr]
  have hlatest : latestMatch inv.invoiceMatches = some (matchRow env.py r.invoice w.now) := by rw [hrow]; rfl
  rw [hlatest, hid] at hj hbytes
  refine ⟨ex, r, _, v, d, a, p, _, ⟨hd.2.1, hres⟩, ⟨hrow, rfl⟩, ⟨hv, hj⟩, ⟨hd, hmem⟩, ha, ?_, hbytes, hsealed, ?_, ?_⟩
  · exact ⟨rfl, rfl, rfl, rfl, rfl, rfl, rfl, rfl, rfl, rfl, rfl, rfl, rfl, rfl, rfl⟩
  · rw [← hsealed.key]
    exact Storage.getObject_eq_ok hsealed.location hsealed.contents
  · rw [hsealed.signature]
    exact verifySignature_signPayload ..

end exports

theorem FreshRun.run {env : Env} {w : World} {used : List Uuid} (h : FreshRun env w used) (op : Op)
    (hfresh : ∀ u ∈ op.draws, u ∉ used) : FreshRun env ((op.prog env).run w id).2.1 (op.draws ++ used) := by
  obtain ⟨n, hn⟩ := exists_cut_eq_run env op w
  exact hn ▸ h.step op n hfresh

theorem Sample.freshRun_after (ops : List Op) (h : (ops.flatMap Op.draws).Nodup) :
    ∃ used, FreshRun env (after ops) used ∧ ∀ u ∈ used, u ∈ ops.flatMap Op.draws := by
  induction ops using List.reverseRecOn with
  | nil => exact ⟨[], .start world_initial, fun u hu => by cases hu⟩
  | append_singleton ops op ih =>
    simp only [List.flatMap_append, List.flatMap_singleton] at h ⊢
    obtain ⟨hops, -, hdisj⟩ := List.nodup_append.mp h
    obtain ⟨used, hrun, hused⟩ := ih hops
    refine ⟨op.draws ++ used, after_concat ops op ▸ hrun.run op fun u hu hmem => hdisj u (hused u hmem) u hu rfl, ?_⟩
    intro u hu
    rw [List.mem_append] at hu ⊢
    exact hu.elim .inr fun hu => .inl (hused u hu)

theorem delivered_of_sample : ∃ inv e p,
    (Sample.after (Sample.exported 5 "first" Sample.plain)).now.invoice (Sample.uuid 5) = some inv ∧
      inv.status = .exported ∧ inv.exports = [e] ∧
      Sealed Sample.env (Sample.after (Sample.exported 5 "first" Sample.plain)) e p ∧
      verifySignature p.bytes "secret" e.signature = true := by
  have hrun : Sample.statusOf (Sample.after (Sample.exported 5 "first" Sample.plain)) 5 = some .exported := by
    decide +kernel
  obtain ⟨used, hfresh, -⟩ := Sample.freshRun_after (Sample.exported 5 "first" Sample.plain) (by decide)
  obtain ⟨inv, hi, hs⟩ := Option.map_eq_some_iff.mp hrun
  obtain ⟨e, he⟩ : ∃ e, inv.exports = [e] := by
    have hlen := (hfresh.reachable.rowOk _ inv hi).exported
    rw [if_pos hs] at hlen
    exact List.length_eq_one_iff.mp hlen
  obtain ⟨ex, r, row, v, d, a, p, payload, -, -, -, -, -, -, -, hsealed, -, hsig⟩ :=
    delivered_of_run hfresh hi (he ▸ List.mem_singleton_self e)
  exact ⟨inv, e, p, hi, hs, he, hsealed, hsig⟩

end InvoiceOps
