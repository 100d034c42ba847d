/-
No export row points at nothing, and none at the wrong thing, under every
schedule: sessions interleaved node by node, several on one invoice, dying
anywhere. Only the uuids must be fresh.

The export itself relies on nobody else writing where it does, on rows only
being added to its invoice, and on its own object being in place before its
row is (`Prepared`).
-/
import InvoiceOps.Facts.Intact

namespace InvoiceOps

/-! ## The export -/

/-- What a finished export makes of its row. -/
structure Exports (e : Export) (f : Invoice → Invoice) : Prop where
  grows : ∀ r : Invoice, r.Extends (fun _ => True) (f r)
  exports : ∀ r, (f r).exports = r.exports ++ [e]
  logged : ∀ r, ∃ a ∈ (f r).auditLog, a.toStatus = (f r).status

section exporting
variable {env : Env} {B : Op → Prop} {op : Op} {w w' : World} {i key : Uuid} {now : String} {inv : Invoice}
  {e : Export} {f : Invoice → Invoice} {u : DB → DB} {p : Write} {α : Type}

theorem Lets.row (h : Lets env B op w w') (hi : w.now.invoice i = some inv) :
    ∃ inv', w'.now.invoice i = some inv' ∧ inv.Extends (fun _ => True) inv' := h.grows.kept i inv hi

theorem Sealed.sameAt (h : Sealed env w e p) (hsame : SameAt p.location w.ext w'.ext) : Sealed env w' e p where
  key := h.key
  location := h.location
  once := hsame.writes.trans h.once
  contents := hsame.contents.trans h.contents
  signature := h.signature

/-- **The commit of an export**, its object in place. -/
theorem Does.commit_export (hb : B (.call i (.export key now))) (hi : w.now.invoice i = some inv)
    (hkey : e.storageKey = exportKey i key) (hsealed : Sealed env w e p) (hr : Reports w.now inv now p.bytes)
    (hu : Patches i f u) (hf : Exports e f) : Does env B op w (w.commit (u w.now)) where
  grows := .patch hu hf.grows w.now
  stores := .inl (.refl _)
  intact hw := by
    have hgrows : w.now.Grows (u w.now) := .patch hu hf.grows w.now
    refine ⟨fun j inv' hj => ?_, fun j inv' hj e' he' => ?_⟩
    · rcases hu.cases hj with ⟨rfl, inv₁, hi₁, rfl⟩ | ⟨-, hold⟩
      · obtain rfl : inv = inv₁ := Option.some.inj (hi.symm.trans hi₁)
        obtain ⟨_, _, _, _, _, _, hcited, _⟩ := hr
        exact ⟨.inr (hf.logged inv), fun _ => (hf.grows inv).matched (List.ne_nil_of_mem hcited.invoiceMatch)⟩
      · exact hw.orderly j inv' hold
    · rcases hu.cases hj with ⟨rfl, inv₁, hi₁, rfl⟩ | ⟨-, hold⟩
      · obtain rfl : inv = inv₁ := Option.some.inj (hi.symm.trans hi₁)
        have hid : (f inv).id = inv.id := (DB.id_of_invoice hj).trans (DB.id_of_invoice hi).symm
        rw [hf.exports, List.mem_append, List.mem_singleton] at he'
        rcases he' with he' | rfl
        · exact (hw.anchored j inv hi e' he').grows hgrows (hf.grows inv) hid (.inl (.refl _))
        · have hinv : (f inv).id = j := DB.id_of_invoice hj
          exact ⟨key, now, p, hinv.symm ▸ hb, hinv.symm ▸ hkey, hsealed.sameAt (.refl _ _),
            hr.grows hgrows (hf.grows inv) hid⟩
      · exact (hw.anchored j inv' hold e' he').grows hgrows (.refl _) rfl (.inl (.refl _))

section reads
variable {G : World → World → Prop} {E : World → (DB → DB) → Exn → Prop}

theorem Patches.wp_updateInvoice (hu : Patches i f u) {g : Invoice → Invoice} {hg : ∀ r, (g r).id = r.id}
    {R : World → World → Prop} {Q : World → (DB → DB) → Unit → Prop}
    (h : ∀ u', Patches i (fun r => g (f r)) u' → Q w u' ()) : Txn.wp R G E Q (Tx.updateInvoice i g hg) w u :=
  h _ (hu.update g hg)

theorem Patches.wp_advance (hu : Patches i f u) (hid : inv.id = i) {t : InvoiceStatus} {actor : String}
    {reason : Option String} {R : World → World → Prop} {Q : World → (DB → DB) → Invoice → Prop}
    (herr : ∀ e, E w u e)
    (h : ∀ u', Patches i (fun r => (f r).advanced inv.status t actor reason) u' → Q w u' (inv.setStatus t)) :
    Txn.wp R G E Q (advance inv t actor reason) w u := by
  subst hid
  unfold advance
  split
  · exact h _ ((hu.update (fun r => { r with auditLog := r.auditLog ++ [⟨inv.status, t, actor, reason⟩] })
      fun _ => rfl).update (fun r => r.setStatus t) fun _ => rfl)
  · exact herr _

/-- The children of a row, as far as they came by now. -/
theorem Patches.wp_children (hu : Patches i f u) (hi : w.now.invoice i = some inv) {rows : Invoice → List α}
    {Q : World → (DB → DB) → List α → Prop}
    (h : ∀ w' inv', Lets env B op w w' → w'.now.invoice i = some inv' → inv.Extends (fun _ => True) inv' →
      Q w' u (rows (f inv'))) : Txn.wp (Lets env B op) G E Q (Tx.children i rows) w u := by
  intro w' hw
  obtain ⟨inv', hi', hext⟩ := hw.row hi
  change Q w' u ((((u w'.now).invoice i).map rows).getD [])
  rw [hu.invoice, if_pos rfl, hi']
  exact h w' inv' hw hi' hext

/-- Vendors and orders stay as they are. -/
theorem Patches.wp_related (hu : Patches i f u) {id? : Option Uuid} {get : DB → Uuid → Option α}
    (hget : ∀ d d' : DB, d'.vendors = d.vendors → d'.purchaseOrders = d.purchaseOrders → get d' = get d)
    {Q : World → (DB → DB) → Option α → Prop}
    (h : ∀ w', Lets env B op w w' → Q w' u (id?.bind (get w.now))) :
    Txn.wp (Lets env B op) G E Q (related id? get) w u := by
  cases id? with
  | none => exact h w (.refl _ _)
  | some id =>
    intro w' hw
    change Q w' u (get (u w'.now) id)
    rw [hget w.now (u w'.now) ((hu.vendors _).trans hw.grows.vendors)
      ((hu.purchaseOrders _).trans hw.grows.purchaseOrders)]
    exact h w' hw

end reads

theorem approvalAuditEntry_mem {l : List AuditLog} {a : AuditLog} (h : approvalAuditEntry l = some a) :
    a ∈ l ∧ exportable a.toStatus = true := by
  have hs := List.find?_some h
  exact ⟨List.mem_reverse.mp (List.mem_of_find?_eq_some h), hs⟩

theorem exists_approvalAuditEntry {l : List AuditLog} {a : AuditLog} (ha : a ∈ l) (hs : exportable a.toStatus = true) :
    ∃ b, approvalAuditEntry l = some b :=
  Option.isSome_iff_exists.mp (List.find?_isSome.mpr ⟨a, List.mem_reverse.mpr ha, hs⟩)

theorem Orderly.approval (h : Orderly inv) (hs : exportable inv.status = true) :
    ∃ a ∈ inv.auditLog, exportable a.toStatus = true := by
  rcases h.logged with h | ⟨a, ha, hto⟩
  · rw [h] at hs
    cases hs
  · exact ⟨a, ha, hto ▸ hs⟩

theorem atOrPast_of_exportable {s : InvoiceStatus} (h : exportable s = true) :
    InvoiceStatus.atOrPast .validating s = true := by
  cases s <;> first | rfl | cases h

theorem exists_latestMatch {l : List InvoiceMatch} (h : l ≠ []) : ∃ m ∈ l, latestMatch l = some m :=
  ⟨l.getLast h, List.getLast_mem h, List.getLast?_eq_some_getLast h⟩

theorem latestSuccessfulExtraction_mem {l : List Extraction} {x : Extraction}
    (h : latestSuccessfulExtraction l = some x) : x ∈ l ∧ x.ok = true :=
  ⟨List.mem_reverse.mp (List.mem_of_find?_eq_some h), List.find?_some h⟩

/-- An invoice that may be exported has what the artifact quotes, also when
the match rows and the audit rows are read later, one after the other. -/
theorem Orderly.reports {inv₃ inv₄ : Invoice} {x : Extraction} {r : ExtractionResult} (h : Orderly inv)
    (hs : exportable inv.status = true) (h₃ : inv.Extends (fun _ => True) inv₃)
    (h₄ : inv₃.Extends (fun _ => True) inv₄) (hid : inv₄.id = inv.id) (hx : x ∈ inv₄.extractions) (hok : x.ok = true)
    (hr : x.resultJson = some r) (d : DB) (now : String) : ∃ a, approvalAuditEntry inv₄.auditLog = some a ∧
      Reports d inv₄ now (exportPayload inv.id inv.status r.invoice (latestMatch inv₃.invoiceMatches)
        (vendorOf d (latestMatch inv₃.invoiceMatches)) (poOf d (latestMatch inv₃.invoiceMatches)) (some a)
        now).toJsonBytes := by
  obtain ⟨m, hm, hlatest⟩ := exists_latestMatch (h₃.matched (h.matched (atOrPast_of_exportable hs)))
  obtain ⟨b, hb, happroves⟩ := h.approval hs
  obtain ⟨es, hlog, -⟩ := (h₃.trans h₄).auditLog
  obtain ⟨a, ha⟩ := exists_approvalAuditEntry (hlog ▸ List.mem_append_left es hb) happroves
  obtain ⟨hmem, hsa⟩ := approvalAuditEntry_mem ha
  refine ⟨a, ha, inv.status, x, r, m, a, hs, ⟨hx, hok, hr, h₄.invoiceMatches.subset hm, hmem, hsa⟩, ?_⟩
  rw [hlatest, hid]

/-- What the export knows from its last read to its commit. -/
structure Prepared (env : Env) (B : Op → Prop) (i key : Uuid) (now : String) (bytes : Bytes) (w : World) :
    Prop where
  intact : Intact env B w
  ready : Ready env B (.call i (.export key now)) w
  reports : ∃ inv, w.now.invoice i = some inv ∧ Reports w.now inv now bytes

theorem Prepared.lets {bytes : Bytes} (h : Prepared env B i key now bytes w)
    (hl : Lets env B (.call i (.export key now)) w w') : Prepared env B i key now bytes w' where
  intact := hl.intact h.intact
  ready := h.ready.lets hl
  reports := by
    obtain ⟨inv, hi, hr⟩ := h.reports
    obtain ⟨inv', hi', hext⟩ := hl.row hi
    exact ⟨inv', hi', hr.grows hl.grows hext ((DB.id_of_invoice hi').trans (DB.id_of_invoice hi).symm)⟩

/-- **The object of the export**: nothing was there, and nobody else writes
there. -/
theorem Prepared.put {bytes : Bytes} {d : Disk} (h : Prepared env B i key now bytes w)
    (hkey : p.key = exportKey i key) (hloc : env.locate p.key = .ok p.location) (hw : Disk.Wrote p w.ext d) :
    Does env B (.call i (.export key now)) w (w.setExt d) ∧ (w.setExt d).ext.writes.filter
      (fun q => q.location = p.location) = [p] := by
  have hfree := h.ready.free i key now p.location rfl (hkey ▸ hloc)
  have hapart : ∀ p' ∈ w.ext.writes, ∀ j k, p'.key = exportKey j k → env.locate p'.key = .ok p'.location →
      p'.location ≠ p.location := fun p' hp' _ _ _ _ heq => by
    have hmem : p' ∈ w.ext.writes.filter fun q => q.location = p.location :=
      List.mem_filter.mpr ⟨hp', by simpa using heq⟩
    rw [hfree] at hmem
    cases hmem
  have hfiled : Filed env [key] p := ⟨hloc, .inr ⟨i, key, hkey, List.mem_singleton_self key⟩⟩
  have hspares : Spares env w.ext d := .inr ⟨p, hw, hapart⟩
  refine ⟨⟨.refl _, fun hintact => hintact.carries (x := none) (.refl _) (fun _ hi => by cases hi) hspares,
    .inr ⟨p, hw, hfiled⟩⟩, ?_⟩
  rw [Txn.World.setExt_ext, hw.1, List.filter_append, hfree]
  simp

/-- The end of the export: its object, its row, its last move. -/
theorem Prepared.wp {bytes : Bytes} {reason : Option String} (h : Prepared env B i key now bytes w)
    (hu : Patches i f u) (hgrows : ∀ r : Invoice, r.Extends (fun _ => True) (f r))
    (hexports : ∀ r, (f r).exports = r.exports) (hid : inv.id = i) (hkey : e.storageKey = exportKey i key)
    (hsig : e.signature = signPayload bytes env.settings.exportSigningSecret) :
    Txn.wp (Lets env B (.call i (.export key now))) (Does env B (.call i (.export key now))) (fun _ _ _ => True)
      (fun w u _ => ∀ w', Lets env B (.call i (.export key now)) w w' →
        Does env B (.call i (.export key now)) w' (w'.commit (u w'.now)))
      (do Tx.putObject env (exportKey i key) bytes
          Tx.updateInvoice i fun r => { r with exports := r.exports ++ [e] }
          let _ ← advance inv .exported "system" reason
          return some e) w u := by
  refine Tx.wp_bind (Tx.wp_putObject (Prepared env B i key now bytes) h (fun _ _ hl hp => hp.lets hl) ?_ ?_
    fun _ _ _ _ => trivial)
  · intro w d hp hk
    have hdoes : Does env B (.call i (.export key now)) w (w.setExt d) :=
      ⟨.refl _, fun hintact => hintact.carries (x := none) (.refl _) (fun _ hi => by cases hi) (.inl hk), .inl hk⟩
    exact ⟨hp.lets ⟨.refl _, hdoes.intact, fun _ _ _ l _ _ => .kept hk⟩, hdoes⟩
  · intro w p d hp hpkey hbytes hloc hw
    obtain ⟨hdoes, honce⟩ := hp.put hpkey hloc hw
    refine ⟨hdoes, Tx.wp_bind (hu.wp_updateInvoice fun u₂ hu₂ => ?_)⟩
    refine Tx.wp_bind (hu₂.wp_advance hid (fun _ => by trivial) fun u₃ hu₃ w' hl => ?_)
    obtain ⟨inv₁, hi₁, hr₁⟩ := hp.reports
    obtain ⟨inv', hi', hext⟩ := hl.row (w := w.setExt d) hi₁
    have hsealed : Sealed env (w.setExt d) e p :=
      ⟨hpkey.trans hkey.symm, hloc, honce, by rw [Txn.World.setExt_ext, hw.2, if_pos rfl], by rw [hsig, hbytes]⟩
    refine .commit_export hp.ready.begun hi' hkey (hsealed.sameAt (hl.artifact i key now _ rfl (hpkey ▸ hloc)))
      (hbytes ▸ hr₁.grows hl.grows hext ((DB.id_of_invoice hi').trans (DB.id_of_invoice hi₁).symm)) hu₃
      ⟨fun r => ?_, fun r => ?_, fun r => ?_⟩
    · exact ((hgrows r).trans (Invoice.extends_exports _ e)).trans
        ((Invoice.extends_auditLog _ trivial).trans (Invoice.extends_setStatus _ .exported))
    · show (f r).exports ++ [e] = _
      rw [hexports]
    · exact ⟨_, List.mem_append_right _ (List.mem_singleton_self _), rfl⟩

/-- **`run_export`**, whoever else works on its invoice. -/
theorem runExport_intact (h : Intact env B w) (hready : Ready env B (.call i (.export key now)) w) :
    Txn.wp (Lets env B (.call i (.export key now))) (Does env B (.call i (.export key now))) (fun _ _ _ => True)
      (fun w u _ => ∀ w', Lets env B (.call i (.export key now)) w w' →
        Does env B (.call i (.export key now)) w' (w'.commit (u w'.now)))
      (runExport env key now i) w id := by
  refine Tx.wp_bind (Tx.wp_getInvoice fun w₁ h₁ => ?_)
  cases hi₁ : w₁.now.invoice i with
  | none => trivial
  | some inv =>
    obtain rfl : inv.id = i := DB.id_of_invoice hi₁
    cases hs : exportable inv.status with
    | false =>
      simp only [hs, Bool.not_false, if_true]
      exact fun w' _ => .noop _ w'
    | true =>
      simp only [hs, Bool.not_true, Bool.false_eq_true, if_false]
      refine Tx.wp_bind ((Patches.nothing inv.id).wp_children hi₁ fun w₂ inv₂ h₂ hi₂ hext₂ => ?_)
      cases hx : (latestSuccessfulExtraction inv₂.extractions).bind (·.resultJson) with
      | none =>
        have J := Txn.Confined.judgement (τ := Disk) (μ := Message) (ε := Exn) (M := Stores env [])
          (DB.Carries.refl (x := none))
        have hgiveUp : Txn.Confined (DB.Carries none) (Stores env []) (do
            let inv ← setFailureReason inv (some "no successful extraction to export")
            let _ ← advance inv .failed "system" (some "no successful extraction to export")
            return (none : Option Export)) :=
          (confined_edits (S := fun a => a.toStatus = .failed) (fun _ _ _ => .trans) fun hu hf => .patch hu hf
            (.inr fun a ha _ => by rw [ha]; rfl)).giveUp J rfl fun _ _ => rfl
        have hnone : ∀ (w : World), ∀ i ∈ (none : Option Uuid), w.now.Matched i := fun _ _ hi => by cases hi
        refine Txn.wp_conseq (fun _ _ _ => trivial) (fun w₃ _ hstep => .confined (hnone w₃) hstep)
          (fun _ _ _ _ => trivial) ?_ _ (hgiveUp w₂ id .refl)
        exact fun w u _ hu w' _ => .confined (hnone w') (.inl ⟨hu w'.now, rfl⟩)
      | some r =>
        obtain ⟨x, hlatest, hresult⟩ := Option.bind_eq_some_iff.mp hx
        obtain ⟨hmemx, hok⟩ := latestSuccessfulExtraction_mem hlatest
        refine Tx.wp_bind ((Patches.nothing inv.id).wp_advance rfl (fun _ => by trivial) fun u₁ hu₁ => ?_)
        refine Tx.wp_bind (Tx.wp_map (hu₁.wp_children hi₂ fun w₃ inv₃ h₃ hi₃ hext₃ => ?_))
        refine Tx.wp_bind (Tx.wp_map (hu₁.wp_children hi₃ fun w₄ inv₄ h₄ hi₄ hext₄ => ?_))
        refine Tx.wp_bind (hu₁.wp_related (fun d d' hv _ => by rw [hv]) fun w₅ h₅ => ?_)
        refine Tx.wp_bind (hu₁.wp_related (fun d d' _ hp => by rw [hp]) fun w₆ h₆ => ?_)
        have h₀₄ := Lets.trans _ _ _ _ (Lets.trans _ _ _ _ h₁ h₂) (Lets.trans _ _ _ _ h₃ h₄)
        have h₄₆ := Lets.trans _ _ _ _ h₅ h₆
        have hid₄ : inv₄.id = inv.id := DB.id_of_invoice hi₄
        -- There were a match row and an approval at the first read, so there are at the third and fourth.
        obtain ⟨a, ha, hreports⟩ := ((h₁.intact h).orderly _ inv hi₁).reports hs (hext₂.trans hext₃) hext₄ hid₄
          ((hext₃.trans hext₄).extractions.subset hmemx) hok hresult w₄.now now
        have happr : approvalAuditEntry (inv₄.advanced inv.status .exporting "system"
            (some "starting accounting export")).auditLog = some a := (approvalAuditEntry_append rfl).trans ha
        have hpo : poOf w₅.now (latestMatch inv₃.invoiceMatches) = poOf w₄.now (latestMatch inv₃.invoiceMatches) :=
          poOf_congr h₅.grows.purchaseOrders _
        rw [happr]
        rw [← hpo] at hreports
        have hprepared : Prepared env B inv.id key now _ w₄ :=
          ⟨h₀₄.intact h, hready.lets h₀₄, inv₄, hi₄, hreports⟩
        exact (hprepared.lets h₄₆).wp hu₁
          (fun r => (r.extends_auditLog trivial).trans (Invoice.extends_setStatus _ _)) (fun _ => rfl) rfl rfl rfl

end exporting

/-! ## Every schedule -/

/-- **The rules every operation keeps.** -/
def pointerRules (env : Env) (B : Op → Prop) : Txn.Rules (Op.prog env) where
  Inv := Intact env B
  R := Lets env B
  G := Does env B
  Apart op op' := ∀ u ∈ op.draws, u ∉ op'.draws
  Ready := Ready env B
  symm h u hu hmem := h u hmem hu
  refl := .refl
  trans := .trans
  inv_guar h hd := hd.intact h
  rely_guar ha _ hd := hd.lets ha
  ready_rely := .lets
  spec op w h hready := by
    by_cases hop : ∃ i key now, op = .call i (.export key now)
    · obtain ⟨i, key, now, rfl⟩ := hop
      refine Tx.wp_bind (Tx.wp_sessionScope (map_wp (Txn.wp_mono (runExport_intact h hready) ?_)))
      exact fun w u _ hcommit w' hl => ⟨hcommit w' hl, trivial⟩
    · exact op_intact h fun i key now he => hop ⟨i, key, now, he⟩

section schedule
variable {env : Env} {w : World} {as : List (Txn.Action Op)} {s : Txn.Sys Op DB Disk Message Exn} {i : Uuid}
  {inv : Invoice} {e : Export}

/-- No session is open, and no uuid has been drawn. -/
theorem pointers_idle {B : Op → Prop} {ops : List Op} (hw : Initial w) (hB : ∀ op ∈ ops, B op)
    (hfresh : (ops.flatMap Op.draws).Nodup) : (pointerRules env B).Holds ops (.idle w) := by
  refine .idle ⟨.initial hw, .initial hw⟩ (fun op hop => ⟨hB op hop, fun i key now l _ _ => ?_⟩) ?_
  · rw [hw.writes]
    rfl
  · exact (List.nodup_flatMap.mp hfresh).2.imp fun h u hu hmem => h hu hmem

theorem intact_of_execute (hw : Initial w) (hfresh : ((Txn.begun as).flatMap Op.draws).Nodup)
    (hex : Txn.Sys.execute (Op.prog env) (.idle w) as = some s) : Intact env (· ∈ Txn.begun as) s.world := by
  have hstart : (pointerRules env (· ∈ Txn.begun as)).Holds (Txn.begun as ++ []) (.idle w) :=
    pointers_idle hw (by simp) (by simpa using hfresh)
  exact (hstart.execute as hex).1.inv

/-- Only the approval task approves as the system. -/
theorem Call.Signs.autoApproved {c : Call} {a : AuditLog} (h : c.Signs env a) (ha : a.toStatus = .autoApproved) :
    c = .approve ∧ a.actor = "system" := by
  have htarget := h.target
  have hactor := h.actor
  rw [ha] at htarget
  cases c with
  | approve => exact ⟨rfl, hactor⟩
  | decide isApproval | decideForm isApproval => cases isApproval <;> simp [Call.targets] at htarget
  | _ => simp [Call.targets] at htarget

/-- What a consumer reads is on the invoice: one of its extractions, one of
its match rows, and its approval `a`. -/
structure Quotes (payload : ExportPayload) (inv : Invoice) (a : AuditLog) (d : DB) : Prop where
  invoiceId : payload.invoiceId = inv.id.str
  status : payload.status = "auto_approved" ∨ payload.status = "approved"
  extracted : ∃ x r, x ∈ inv.extractions ∧ x.ok = true ∧ x.resultJson = some r ∧
    payload.invoice? = some { r.invoice with purchaseOrderNumber := none }
  matched : ∃ m ∈ inv.invoiceMatches, payload.vendorId = m.vendorId.map Uuid.str ∧
    payload.vendorName = (vendorOf d (some m)).map (·.legalName) ∧ payload.poId = m.poId.map Uuid.str ∧
    payload.poNumber = (poOf d (some m)).map (·.poNumber)
  approval : a ∈ inv.auditLog
  approves : a.toStatus = .autoApproved ∨ a.toStatus = .approved
  approvedBy : payload.approvedBy = some a.actor
  approvedReason : payload.approvedReason = a.reason

theorem Anchored.quotes {B : Op → Prop} (h : Anchored env B w inv e) : ∃ key now a payload,
    B (.call inv.id (.export key now)) ∧ e.storageKey = exportKey inv.id key ∧ consume env e w.ext = some payload ∧
      payload.exportedAt = now ∧ Quotes payload inv a w.now := by
  obtain ⟨key, now, p, hb, hkey, hsealed, t, x, r, m, a, ht, hc, hbytes⟩ := h
  have hstatus : ∀ {s : InvoiceStatus}, exportable s = true → s = .autoApproved ∨ s = .approved := fun hs => by
    simpa [exportable] using hs
  refine ⟨key, now, a, _, hb, hkey, consume_of_sealed hsealed hbytes rfl, rfl,
    rfl, ?_, ⟨x, r, hc.extraction, hc.ok, hc.result, invoice?_exportPayload ..⟩,
      ⟨m, hc.invoiceMatch, rfl, rfl, rfl, rfl⟩, hc.approval, hstatus hc.approves, rfl, rfl⟩
  exact (hstatus ht).imp (congrArg InvoiceStatus.value) (congrArg InvoiceStatus.value)

/-- **No export row dangles**, whatever the calls interleave and wherever
they die: its artifact is there and verifies, what it says is on the
invoice, and its approval was asked for on this invoice: the system's by the
approval task, a person's by a request to approve, in that person's name. -/
theorem quoted_of_schedule (hw : Initial w) (hfresh : ((Txn.begun as).flatMap Op.draws).Nodup)
    (hex : Txn.Sys.execute (Op.prog env) (.idle w) as = some s) (hi : s.world.now.invoice i = some inv)
    (he : e ∈ inv.exports) : ∃ t key now a payload,
      .begin t (.call i (.export key now)) ∈ as ∧ e.storageKey = exportKey i key ∧
        consume env e s.world.ext = some payload ∧ payload.exportedAt = now ∧ Quotes payload inv a s.world.now ∧
        (a.toStatus = .autoApproved ∧ (∃ t, .begin t (.call i .approve) ∈ as) ∧ a.actor = "system" ∨
          a.toStatus = .approved ∧ ∃ t c, .begin t (.call i c) ∈ as ∧ c.targets = [.approved] ∧
            c.decider env = some (a.actor, a.reason)) := by
  obtain ⟨key, now, a, payload, hb, hkey, hconsume, hnow, hquotes⟩ :=
    ((intact_of_execute hw hfresh hex).anchored i inv hi e he).quotes
  rw [DB.id_of_invoice hi] at hb hkey
  obtain ⟨t, ht⟩ := Txn.mem_begun.mp hb
  refine ⟨t, key, now, a, payload, ht, hkey, hconsume, hnow, hquotes, ?_⟩
  have hnone : w.now.invoice i = none := by
    rw [DB.invoice, Table.get?_eq_none_iff, hw.invoices]
    exact List.not_mem_nil
  have hidle : Flying env as (.idle w) := Txn.Sys.writing_idle w
  obtain ⟨t', c, hbegun, hsigns⟩ :=
    (hidle.execute (List.Subset.refl _) hex).2.added i inv hnone hi a hquotes.approval
  rcases hquotes.approves with hauto | happroved
  · obtain ⟨rfl, hactor⟩ := hsigns.autoApproved hauto
    exact .inl ⟨hauto, ⟨t', hbegun⟩, hactor⟩
  · obtain ⟨actor, reason, hdecider, ha⟩ := hsigns.decider (.inl happroved)
    -- A decision request has one target, and this row went to it.
    obtain ⟨target, htargets⟩ := c.targets_of_decider hdecider
    have htarget := hsigns.target
    rw [htargets, List.mem_singleton, happroved] at htarget
    rw [← htarget] at htargets
    refine .inr ⟨happroved, t', c, hbegun, htargets, ?_⟩
    rw [ha]
    exact hdecider

theorem Stores.writes {used : List Uuid} {d d' : Disk} (h : Stores env used d d') : d.writes <+: d'.writes := by
  rcases h with hk | ⟨q, hw, -⟩
  · rw [hk.1]
  · rw [hw.1]
    exact List.prefix_append _ _

/-- From any moment of a run to any later one, rows and objects only come. -/
theorem Does.run {B : Op → Prop} {w w' : World}
    (h : Relation.ReflTransGen (fun w w' => ∃ op, Does env B op w w') w w') :
    w.now.Grows w'.now ∧ w.ext.writes <+: w'.ext.writes := by
  induction h with
  | refl => exact ⟨.refl _, List.prefix_refl _⟩
  | tail _ hdoes ih =>
    obtain ⟨op, hdoes⟩ := hdoes
    exact ⟨ih.1.trans hdoes.grows, ih.2.trans hdoes.stores.writes⟩

/-- A sealed object is read the same wherever it is still sealed. -/
theorem consume_of_sealed_twice {w' : World} {p : Write} (h : Sealed env w e p) (h' : Sealed env w' e p) :
    consume env e w'.ext = consume env e w.ext := by
  have hget : ∀ {w : World}, Sealed env w e p → Storage.getObject env.py env.settings.storageBackend
      env.settings.storageLocalDir e.storageKey w.ext = .ok p.bytes := fun h => by
    rw [← h.key]
    exact Storage.getObject_eq_ok h.location h.contents
  rw [consume, consume, hget h, hget h']

/-- **An export never changes**: whatever goes on later, its row stays, and a
consumer reads from its artifact the payload it read before. -/
theorem consume_of_later {as' : List (Txn.Action Op)} {s' : Txn.Sys Op DB Disk Message Exn} (hw : Initial w)
    (hfresh : ((Txn.begun (as ++ as')).flatMap Op.draws).Nodup)
    (hex : Txn.Sys.execute (Op.prog env) (.idle w) as = some s) (hex' : s.execute (Op.prog env) as' = some s')
    (hi : s.world.now.invoice i = some inv) (he : e ∈ inv.exports) :
    (∃ inv', s'.world.now.invoice i = some inv' ∧ e ∈ inv'.exports) ∧
      ∃ payload, consume env e s.world.ext = some payload ∧ consume env e s'.world.ext = some payload := by
  have hops : Txn.begun (as ++ as') = Txn.begun as ++ Txn.begun as' := List.filterMap_append
  rw [hops] at hfresh
  have hstart : (pointerRules env fun _ => True).Holds (Txn.begun as ++ (Txn.begun as' ++ [])) (.idle w) :=
    pointers_idle hw (fun _ _ => trivial) (by simpa using hfresh)
  have hmid := (hstart.execute as hex).1
  obtain ⟨hend, hrun⟩ := hmid.execute as' hex'
  obtain ⟨hgrows, hwrites⟩ := Does.run hrun
  obtain ⟨inv', hi', hext⟩ := hgrows.kept i inv hi
  have he' : e ∈ inv'.exports := hext.exports.subset he
  obtain ⟨-, -, -, payload, -, -, hconsume, -⟩ := (hmid.inv.anchored i inv hi e he).quotes
  obtain ⟨key, -, p, -, -, hsealed, -⟩ := hmid.inv.anchored i inv hi e he
  obtain ⟨-, -, p', -, -, hsealed', -⟩ := hend.inv.anchored i inv' hi' e he'
  -- Both objects have the row's key, so they lie at one place, where only one was written.
  have hloc : p'.location = p.location := by
    have hp := hsealed.location
    rw [hsealed.key, ← hsealed'.key, hsealed'.location] at hp
    exact Except.ok.inj hp
  have hmem : p ∈ s'.world.ext.writes.filter fun q => q.location = p'.location :=
    List.mem_filter.mpr ⟨hwrites.subset hsealed.mem, by simp [hloc]⟩
  rw [hsealed'.once, List.mem_singleton] at hmem
  subst hmem
  exact ⟨⟨inv', hi', he'⟩, payload, hconsume, (consume_of_sealed_twice hsealed hsealed').trans hconsume⟩

end schedule

namespace Sample

/-- Two deliveries of the export task; the second reads the invoice, and
waits until the first has committed. -/
def deliveredOnce : List (Txn.Action Op) :=
  toReview ++ turns 5 (.call (uuid 5) (.decide true "first" none)) 6 ++
    turns 7 (.call (uuid 5) (.export (uuid 15) "2024-05-18T09:30:00+00:00")) 1 ++
    turns 8 (.call (uuid 5) (.export (uuid 14) "2024-05-18T09:31:00+00:00")) 13

def deliveredAgain : List (Txn.Action Op) := List.replicate 12 (.advance 7)

/-- The export rows of invoice 5. -/
def exportsOf (w : World) : Option Nat := (w.now.invoice (uuid 5)).map fun inv => inv.exports.length

theorem exportsOf_delivered : ((Txn.Sys.execute (Op.prog env) (.idle world) deliveredOnce).bind fun s =>
    (s.execute (Op.prog env) deliveredAgain).bind fun s' => (exportsOf s.world).bind fun n =>
      (exportsOf s'.world).map fun n' => (n, n')) = some (1, 2) := by decide +kernel

/-- Both commit. -/
theorem runs_delivered : ∃ s s' inv inv', Txn.Sys.execute (Op.prog env) (.idle world) deliveredOnce = some s ∧
    s.execute (Op.prog env) deliveredAgain = some s' ∧ s.world.now.invoice (uuid 5) = some inv ∧
      s'.world.now.invoice (uuid 5) = some inv' ∧ inv.exports.length = 1 ∧ inv'.exports.length = 2 := by
  obtain ⟨s, hex, hrun⟩ := Option.bind_eq_some_iff.mp exportsOf_delivered
  obtain ⟨s', hex', hrun⟩ := Option.bind_eq_some_iff.mp hrun
  obtain ⟨n, hn, hrun⟩ := Option.bind_eq_some_iff.mp hrun
  obtain ⟨n', hn', hcounts⟩ := Option.map_eq_some_iff.mp hrun
  obtain ⟨rfl, rfl⟩ := Prod.mk.inj hcounts
  obtain ⟨inv, hi, hlen⟩ := Option.map_eq_some_iff.mp hn
  obtain ⟨inv', hi', hlen'⟩ := Option.map_eq_some_iff.mp hn'
  exact ⟨s, s', inv, inv', hex, hex', hi, hi', hlen, hlen'⟩

end Sample

/-- Whose approval the two artifacts quote. -/
theorem Sample.approvals_delivered :
    ((Txn.Sys.execute (Op.prog env) (.idle world) (deliveredOnce ++ deliveredAgain)).bind fun s =>
      (s.world.now.invoice (uuid 5)).map fun inv => (approvals inv.auditLog).map fun a => (a.toStatus, a.actor)) =
      some [(.approved, "first")] := by decide +kernel

theorem quoted_of_delivered : ∃ s inv,
    Txn.Sys.execute (Op.prog Sample.env) (.idle Sample.world) (Sample.deliveredOnce ++ Sample.deliveredAgain) = some s ∧
      s.world.now.invoice (Sample.uuid 5) = some inv ∧ inv.exports.length = 2 ∧
      ∀ e ∈ inv.exports, ∃ a payload, consume Sample.env e s.world.ext = some payload ∧
        Quotes payload inv a s.world.now ∧ a.toStatus = .approved ∧ a.actor = "first" ∧
        ∃ t c, .begin t (.call (Sample.uuid 5) c) ∈ Sample.deliveredOnce ++ Sample.deliveredAgain ∧
          c.targets = [.approved] ∧ c.decider Sample.env = some (a.actor, a.reason) := by
  obtain ⟨s, s', inv, inv', hex, hex', -, hi', -, hlen⟩ := Sample.runs_delivered
  have hrun : Txn.Sys.execute (Op.prog Sample.env) (.idle Sample.world)
      (Sample.deliveredOnce ++ Sample.deliveredAgain) = some s' := by
    rw [Txn.Sys.execute_append, hex]
    exact hex'
  refine ⟨s', inv', hrun, hi', hlen, fun e he => ?_⟩
  obtain ⟨t, key, now, a, payload, -, -, hconsume, -, hquotes, hcase⟩ :=
    quoted_of_schedule Sample.world_initial (by decide) hrun hi' he
  have hactor : (a.toStatus, a.actor) = (.approved, "first") := by
    have happrovals := Sample.approvals_delivered
    rw [hrun, Option.bind_some, hi', Option.map_some, Option.some.injEq] at happrovals
    have hmem : a ∈ approvals inv'.auditLog :=
      List.mem_filter.mpr ⟨hquotes.approval, by simpa [exportable] using hquotes.approves⟩
    exact List.mem_singleton.mp (happrovals ▸ List.mem_map_of_mem hmem)
  obtain ⟨hto, hname⟩ := Prod.mk.inj hactor
  rcases hcase with ⟨hauto, -⟩ | ⟨-, hrequest⟩
  · rw [hto] at hauto
    cases hauto
  · exact ⟨a, payload, hconsume, hquotes, hto, hname, hrequest⟩

theorem consume_of_delivered : ∃ s s' inv e,
    Txn.Sys.execute (Op.prog Sample.env) (.idle Sample.world) Sample.deliveredOnce = some s ∧
      s.execute (Op.prog Sample.env) Sample.deliveredAgain = some s' ∧
      s.world.now.invoice (Sample.uuid 5) = some inv ∧ inv.exports = [e] ∧
      ∃ payload, consume Sample.env e s.world.ext = some payload ∧ consume Sample.env e s'.world.ext = some payload := by
  obtain ⟨s, s', inv, inv', hex, hex', hi, -, hlen, -⟩ := Sample.runs_delivered
  obtain ⟨e, he⟩ := List.length_eq_one_iff.mp hlen
  exact ⟨s, s', inv, e, hex, hex', hi, he,
    (consume_of_later Sample.world_initial (by decide) hex hex' hi (he ▸ List.mem_singleton_self e)).2⟩

end InvoiceOps
