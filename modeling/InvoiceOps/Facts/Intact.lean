/-
What a committed export row rests on stays in place whatever the sessions
interleave, several of them on one invoice: its artifact, and the rows of
its invoice the artifact was made from (`Intact`).

Storage is written outside the transactions, so no serial order helps here:
what a session may rely on (`Lets`) is what every other one keeps to
(`Does`). Every operation but the export is covered here.
-/
import InvoiceOps.Facts.Provenance
import InvoiceOps.Lib.Parallel

namespace InvoiceOps

/-! ## What is kept -/

/-- An invoice that has moved has the audit row of its last move, and from
VALIDATING on it has a match row. -/
structure Orderly (inv : Invoice) : Prop where
  logged : inv.status = .received ∨ ∃ a ∈ inv.auditLog, a.toStatus = inv.status
  matched : InvoiceStatus.atOrPast .validating inv.status = true → inv.invoiceMatches ≠ []

/-- The rows of an invoice that an artifact was made from. -/
structure Cited (inv : Invoice) (x : Extraction) (r : ExtractionResult) (m : InvoiceMatch) (a : AuditLog) : Prop where
  extraction : x ∈ inv.extractions
  ok : x.ok = true
  result : x.resultJson = some r
  invoiceMatch : m ∈ inv.invoiceMatches
  approval : a ∈ inv.auditLog
  approves : exportable a.toStatus = true

/-- These bytes are an artifact of `inv`, of the time `now`. -/
def Reports (d : DB) (inv : Invoice) (now : String) (bytes : Bytes) : Prop :=
  ∃ s x r m a, exportable s = true ∧ Cited inv x r m a ∧
    bytes = (exportPayload inv.id s r.invoice (some m) (vendorOf d (some m)) (poOf d (some m)) (some a) now).toJsonBytes

/-- The artifact of an export row is there, and the export that wrote it was
asked for. -/
def Anchored (env : Env) (B : Op → Prop) (w : World) (inv : Invoice) (e : Export) : Prop :=
  ∃ key now p, B (.call inv.id (.export key now)) ∧ e.storageKey = exportKey inv.id key ∧ Sealed env w e p ∧
    Reports w.now inv now p.bytes

structure Intact (env : Env) (B : Op → Prop) (w : World) : Prop where
  orderly : Rows (fun _ => Orderly) w
  anchored : Rows (fun w inv => ∀ e ∈ inv.exports, Anchored env B w inv e) w

/-- No artifact is overwritten. -/
def Spares (env : Env) (d d' : Disk) : Prop := Disk.Kept d d' ∨ ∃ q, Disk.Wrote q d d' ∧
  ∀ p ∈ d.writes, ∀ i k, p.key = exportKey i k → env.locate p.key = .ok p.location → p.location ≠ q.location

/-- Rows only come. -/
abbrev DB.Grows (d d' : DB) : Prop := d.Extends (fun _ _ => True) d'

/-- The invoice has a match row. -/
def DB.Matched (d : DB) (i : Uuid) : Prop := ∃ inv, d.invoice i = some inv ∧ inv.invoiceMatches ≠ []

section kept
variable {env : Env} {B : Op → Prop} {w w' : World} {d d' : DB} {inv inv' : Invoice} {e : Export} {now : String}
  {bytes : Bytes}

theorem Reports.grows (h : Reports d inv now bytes) (hd : d.Grows d') (hi : inv.Extends (fun _ => True) inv')
    (hid : inv'.id = inv.id) : Reports d' inv' now bytes := by
  obtain ⟨s, x, r, m, a, hs, hc, hb⟩ := h
  obtain ⟨es, hlog, -⟩ := hi.auditLog
  refine ⟨s, x, r, m, a, hs, ⟨hi.extractions.subset hc.extraction, hc.ok, hc.result,
    hi.invoiceMatches.subset hc.invoiceMatch, ?_, hc.approves⟩, ?_⟩
  · rw [hlog]
    exact List.mem_append_left _ hc.approval
  · rw [hb, hid, vendorOf_congr hd.vendors, poOf_congr hd.purchaseOrders]

/-- An artifact stays in place while rows come and other objects are written. -/
theorem Anchored.grows (h : Anchored env B w inv e) (hd : w.now.Grows w'.now)
    (hi : inv.Extends (fun _ => True) inv') (hid : inv'.id = inv.id) (hdisk : Spares env w.ext w'.ext) :
    Anchored env B w' inv' e := by
  obtain ⟨key, now, p, hb, hkey, hsealed, hr⟩ := h
  refine ⟨key, now, p, hid ▸ hb, hid ▸ hkey, hsealed.disk ?_, hr.grows hd hi hid⟩
  exact hdisk.imp_right fun ⟨q, hw, hne⟩ =>
    ⟨q, hw, hne p hsealed.mem inv.id key (hsealed.key.trans hkey) hsealed.location⟩

theorem Invoice.Extends.matched {S : AuditLog → Prop} (h : inv.Extends S inv') (hne : inv.invoiceMatches ≠ []) :
    inv'.invoiceMatches ≠ [] := fun hnil => hne (List.prefix_nil.mp (hnil ▸ h.invoiceMatches))

/-- A match row is not lost. -/
theorem DB.Matched.grows {i : Uuid} (h : d.Matched i) (hd : d.Grows d') : d'.Matched i := by
  obtain ⟨inv, hi, hne⟩ := h
  obtain ⟨inv', hi', hext⟩ := hd.kept i inv hi
  exact ⟨inv', hi', hext.matched hne⟩

end kept

/-! ## Commits -/

/-- The store grows, and no export row comes; where invoice `x` has a match
row, the rows stay in order. -/
structure DB.Carries (x : Option Uuid) (d d' : DB) : Prop where
  grows : d.Grows d'
  exports : ∀ i inv', d'.invoice i = some inv' → inv'.exports = ((d.invoice i).map (·.exports)).getD []
  orderly : (∀ i ∈ x, d.Matched i) → (∀ i inv, d.invoice i = some inv → Orderly inv) →
    ∀ i inv', d'.invoice i = some inv' → Orderly inv'

/-- What the stages make of a row: a status that changes is that of an audit
row, and of one that is `S` and not to VALIDATING where there is no match
row. -/
structure Edited (S : AuditLog → Prop) (f : Invoice → Invoice) : Prop where
  grows : ∀ r : Invoice, r.Extends (fun _ => True) (f r)
  exports : ∀ r, (f r).exports = r.exports
  status : ∀ r, (f r).status = r.status ∨ ∃ a ∈ (f r).auditLog, a.toStatus = (f r).status ∧
    ((f r).invoiceMatches ≠ [] ∨ S a ∧ a.toStatus ≠ .validating)

section commits
variable {env : Env} {B : Op → Prop} {w w' : World} {d d' d'' : DB} {i : Uuid} {x : Option Uuid}
  {f : Invoice → Invoice} {u : DB → DB} {S : AuditLog → Prop}

theorem DB.Carries.refl (d : DB) : d.Carries x d where
  grows := .refl d
  exports i inv hi := by rw [hi, Option.map_some, Option.getD_some]
  orderly _ h := h

theorem DB.Carries.trans (h : d.Carries x d') (h' : d'.Carries x d'') : d.Carries x d'' where
  grows := h.grows.trans h'.grows
  exports i inv'' hi := by
    rw [h'.exports i inv'' hi]
    cases hi' : d'.invoice i with
    | some inv' => exact h.exports i inv' hi'
    | none =>
      cases ho : d.invoice i with
      | none => rfl
      | some inv =>
        obtain ⟨inv', hnew, -⟩ := h.grows.kept i inv ho
        rw [hi'] at hnew
        cases hnew
  orderly hx hd := h'.orderly (fun i hi => (hx i hi).grows h.grows) (h.orderly hx hd)

/-- A row that is edited stays in order, if it has a match row or is not
moved on to where it needs one. -/
theorem Edited.orderly (hf : Edited S f) {r : Invoice} (hr : Orderly r)
    (hS : r.invoiceMatches ≠ [] ∨
      ∀ a, S a → a.toStatus ≠ .validating → InvoiceStatus.atOrPast .validating a.toStatus = false) :
    Orderly (f r) := by
  have hgrows := hf.grows r
  rcases hf.status r with hs | ⟨a, ha, hto, hcase⟩
  · refine ⟨?_, fun hpast => hgrows.matched (hr.matched (hs ▸ hpast))⟩
    obtain ⟨es, hlog, -⟩ := hgrows.auditLog
    rw [hs, hlog]
    exact hr.logged.imp_right fun ⟨a, ha, hto⟩ => ⟨a, List.mem_append_left es ha, hto⟩
  · refine ⟨.inr ⟨a, ha, hto⟩, fun hpast => ?_⟩
    rcases hcase with hne | ⟨hsigned, hval⟩
    · exact hne
    · rcases hS with hne | hS
      · exact hgrows.matched hne
      · rw [← hto, hS a hsigned hval] at hpast
        cases hpast

theorem DB.Carries.patch (hu : Patches i f u) (hf : Edited S f) (hx : i ∈ x ∨
    ∀ a, S a → a.toStatus ≠ .validating → InvoiceStatus.atOrPast .validating a.toStatus = false) (d : DB) :
    d.Carries x (u d) where
  grows := .patch hu hf.grows d
  exports j inv' hj := by
    rcases hu.cases hj with ⟨-, inv, hi, rfl⟩ | ⟨-, hi⟩
    · rw [hi, hf.exports, Option.map_some, Option.getD_some]
    · rw [hi, Option.map_some, Option.getD_some]
  orderly hm hd j inv' hj := by
    rcases hu.cases hj with ⟨rfl, inv, hi, rfl⟩ | ⟨-, hi⟩
    · refine hf.orderly (hd j inv hi) (hx.imp_left fun hx => ?_)
      obtain ⟨inv₁, hi₁, hne⟩ := hm j hx
      obtain rfl := Option.some.inj (hi.symm.trans hi₁)
      exact hne
    · exact hd j inv' hi

/-- Without an export, every artifact stays. -/
theorem Intact.carries (h : Intact env B w) (hd : w.now.Carries x w'.now) (hx : ∀ i ∈ x, w.now.Matched i)
    (hdisk : Spares env w.ext w'.ext) : Intact env B w' where
  orderly := hd.orderly hx h.orderly
  anchored i inv' hi e he := by
    rw [hd.exports i inv' hi] at he
    cases ho : w.now.invoice i with
    | none =>
      rw [ho] at he
      cases he
    | some inv =>
      rw [ho] at he
      obtain ⟨inv₁, hi₁, hext⟩ := hd.grows.kept i inv ho
      obtain rfl : inv' = inv₁ := Option.some.inj (hi.symm.trans hi₁)
      exact (h.anchored i inv ho e he).grows hd.grows hext
        ((DB.id_of_invoice hi).trans (DB.id_of_invoice ho).symm) hdisk

end commits

/-! ## Everything but the export -/

/-- What an operation that draws `used` does to the storage. -/
def Stores (env : Env) (used : List Uuid) (d d' : Disk) : Prop :=
  Disk.Kept d d' ∨ ∃ q, Disk.Wrote q d d' ∧ Filed env used q

section confined
variable {env : Env} {M : Disk → Disk → Prop} {i : Uuid} {S : AuditLog → Prop}

/-- What a program needs of `K` to write what the stages write to invoice `i`. -/
def Patchable (i : Uuid) (S : AuditLog → Prop) (K : DB → DB → Prop) : Prop :=
  ∀ {f : Invoice → Invoice} {u : DB → DB}, Patches i f u → Edited S f → ∀ d, K d (u d)

/-- The audit row of a move comes before its status, and a match row before
the move to VALIDATING: only together are they an edit. -/
theorem confined_edits {K : DB → DB → Prop} (htrans : ∀ d₁ d₂ d₃, K d₁ d₂ → K d₂ d₃ → K d₁ d₃)
    (hpatch : Patchable i S K) : Edits (fun α (p : Tx α) => Txn.Confined K M p) i S where
  advance {α inv t actor reason k} hid hne hS hk := by
    subst hid
    unfold advance
    split
    · next hcan =>
      have hlog := (Patches.nothing inv.id).update
        (fun r => { r with auditLog := r.auditLog ++ [⟨inv.status, t, actor, reason⟩] }) fun _ => rfl
      have hu := hlog.update (fun r => r.setStatus t) fun _ => rfl
      have hrun := Txn.Confined.write (M := M) htrans (hpatch hu ⟨fun r => ?_, fun _ => rfl, fun r => ?_⟩) hk
      · exact hrun
      · exact (r.extends_auditLog trivial).trans (Invoice.extends_setStatus _ t)
      · exact .inr ⟨_, List.mem_append_right _ (List.mem_singleton_self _), rfl, .inr ⟨hS hcan, hne⟩⟩
    · exact fun _ _ hu => hu
  matched {α inv m reason k} hid hS hk := by
    subst hid
    have hmatch := (Patches.nothing inv.id).update
      (fun r => { r with invoiceMatches := r.invoiceMatches ++ [m] }) fun _ => rfl
    unfold advance
    split
    · next hcan =>
      have hlog := hmatch.update
        (fun r => { r with auditLog := r.auditLog ++ [⟨inv.status, .validating, "system", reason⟩] }) fun _ => rfl
      have hu := hlog.update (fun r => r.setStatus .validating) fun _ => rfl
      have hrun := Txn.Confined.write (M := M) htrans (hpatch hu ⟨fun r => ?_, fun _ => rfl, fun r => ?_⟩) hk
      · exact hrun
      · exact (r.extends_invoiceMatches m).trans
          ((Invoice.extends_auditLog _ trivial).trans (Invoice.extends_setStatus _ .validating))
      · exact .inr ⟨_, List.mem_append_right _ (List.mem_singleton_self _), rfl,
          .inl (List.append_ne_nil_of_right_ne_nil r.invoiceMatches (List.cons_ne_nil m []))⟩
    · exact .write htrans (hpatch hmatch ⟨fun r => r.extends_invoiceMatches m, fun _ => rfl, fun _ => .inl rfl⟩)
        fun _ _ hu => hu
  failureReason reason := .update htrans (hpatch ((Patches.nothing i).update _ _)
    ⟨fun r => r.extends_setFailureReason reason, fun _ => rfl, fun _ => .inl rfl⟩)
  extraction e := .update htrans (hpatch ((Patches.nothing i).update _ _)
    ⟨fun r => r.extends_extractions e, fun _ => rfl, fun _ => .inl rfl⟩)
  validation v := .update htrans (hpatch ((Patches.nothing i).update _ _)
    ⟨fun r => r.extends_validations v, fun _ => rfl, fun _ => .inl rfl⟩)

theorem confined_putObject {K : DB → DB → Prop} {key : String} {data : Bytes}
    (hkept : ∀ d d', Disk.Kept d d' → M d d')
    (hwrote : ∀ q d d', Disk.Wrote q d d' → q.key = key → q.bytes = data → env.locate q.key = .ok q.location →
      M d d') : Txn.Confined K M (Tx.putObject env key data) := by
  unfold Tx.putObject
  cases hb : env.settings.storageBackend with
  | «local» =>
    cases hp : Storage.path env.py env.settings.storageLocalDir key with
    | error e => exact fun _ _ hu => hu
    | ok path =>
      change Txn.Confined K M (Txn.effect (Disk.mkdirs path) >>= fun _ => Txn.effect (Disk.writeBytes key path data))
      refine .bind (fun _ => .effect fun t => ?_) (.effect fun t => hkept _ _ (Disk.mkdirs_kept path t))
      rcases Disk.writeBytes_cases key path data t with ⟨e, -, hsame⟩ | ⟨-, hw⟩
      · rw [hsame]
        exact hkept _ _ (.refl t)
      · refine hwrote _ _ _ hw rfl rfl ?_
        rw [Env.locate, hb, Storage.locate, hp]
        rfl
  | s3 =>
    refine .effect fun t => hwrote _ _ _ (Disk.putKey_wrote _ _ t) rfl rfl ?_
    rw [Env.locate, hb, Storage.locate]

theorem confined_flushInsert {inv : Invoice} (hs : inv.status = .received) (hlog : inv.auditLog = [])
    (hexports : inv.exports = []) {x : Option Uuid} : Txn.Confined (DB.Carries x) M (flushInsert inv) := by
  refine (Txn.Confined.judgement DB.Carries.refl).query_bind fun d => ?_
  split
  · refine .update (fun _ _ _ => .trans) fun d => ⟨.insert hlog d, fun j r hj => ?_, fun _ hd j r hj => ?_⟩
    · rcases DB.insert_cases hj with hold | ⟨hnone, rfl⟩
      · rw [hold, Option.map_some, Option.getD_some]
      · rw [hnone, hexports, Option.map_none, Option.getD_none]
    · rcases DB.insert_cases hj with hold | ⟨-, rfl⟩
      · exact hd j r hold
      · exact ⟨.inl hs, fun hpast => by rw [hs] at hpast; cases hpast⟩
  · exact fun _ _ hu => hu

/-- The invoice that has its match row when the operation works on it. -/
def Op.late : Op → Option Uuid
  | .upload .. | .uploadForm .. | .call _ (.extract _) | .call _ .matchVendor => none
  | .call i _ => some i

/-- Before there is a match row, an invoice does not come past MATCHING. -/
theorem Call.late_or (env : Env) (c : Call) (i : Uuid) : i ∈ (Op.call i c).late ∨ ∀ a, c.Signs env a →
    a.toStatus ≠ .validating → InvoiceStatus.atOrPast .validating a.toStatus = false := by
  cases c with
  | extract | matchVendor =>
    refine .inr fun a hsigns hne => ?_
    have htarget := hsigns.target
    generalize a.toStatus = t at htarget hne
    simp only [Call.targets, List.mem_cons, List.not_mem_nil, or_false] at htarget
    rcases htarget with rfl | rfl | rfl <;> first | rfl | exact absurd rfl hne
  | _ => exact .inl rfl

/-- Those calls take no invoice before VALIDATING. -/
theorem Call.atOrPast_of_entry {c : Call} {i j : Uuid} {s : InvoiceStatus} (hc : (Op.call i c).late = some j)
    (hs : c.entry s = true) : InvoiceStatus.atOrPast .validating s = true := by
  cases c with
  | extract | matchVendor => cases hc
  | _ => cases s <;> first | rfl | cases hs

/-- **Every operation but the export**, whatever it reads. -/
theorem confined_op (env : Env) (op : Op) (hop : ∀ i key now, op ≠ .call i (.export key now)) :
    Txn.Confined (DB.Carries op.late) (Stores env []) (op.prog env) := by
  have J := Txn.Confined.judgement (τ := Disk) (μ := Message) (ε := Exn) (M := Stores env [])
    (DB.Carries.refl (x := op.late))
  cases op with
  | upload id data filename contentType | uploadForm id data filename contentType =>
    refine judged_sessionScope J ?_
    dsimp only
    split
    · exact fun _ _ hu => hu
    · exact fun _ _ hu => hu
    · refine J.bind (fun _ => J.ret _) (judged_upload J (confined_putObject (fun _ _ => .inl) ?_)
        (confined_flushInsert rfl rfl rfl))
      exact fun q _ _ hw hkey _ hl => .inr ⟨q, hw, hl, .inl ⟨data, _, hkey⟩⟩
  | call i c =>
    exact judged_call J (confined_edits (fun _ _ _ => .trans) fun hu hf => .patch hu hf (c.late_or env i))
      fun key now hc => absurd (congrArg (Op.call i) hc) (hop i key now)

end confined

/-! ## The rules of a schedule -/

/-- Nobody writes at this location. -/
structure SameAt (l : Location) (d d' : Disk) : Prop where
  writes : d'.writes.filter (fun q => q.location = l) = d.writes.filter fun q => q.location = l
  contents : d'.contents l = d.contents l

/-- What an operation lets the others do. -/
structure Lets (env : Env) (B : Op → Prop) (op : Op) (w w' : World) : Prop where
  grows : w.now.Grows w'.now
  intact : Intact env B w → Intact env B w'
  artifact : ∀ i key now l, op = .call i (.export key now) → env.locate (exportKey i key) = .ok l →
    SameAt l w.ext w'.ext

/-- What it does itself. -/
structure Does (env : Env) (B : Op → Prop) (op : Op) (w w' : World) : Prop where
  grows : w.now.Grows w'.now
  intact : Intact env B w → Intact env B w'
  stores : Stores env op.draws w.ext w'.ext

/-- What it finds: it was begun, and no object lies where it will write. -/
structure Ready (env : Env) (B : Op → Prop) (op : Op) (w : World) : Prop where
  begun : B op
  free : ∀ i key now l, op = .call i (.export key now) → env.locate (exportKey i key) = .ok l →
    w.ext.writes.filter (fun q => q.location = l) = []

section rules
variable {env : Env} {B : Op → Prop} {op op' : Op} {w w' : World} {l : Location} {d d' d'' : Disk}

theorem SameAt.refl (l : Location) (d : Disk) : SameAt l d d := ⟨rfl, rfl⟩

theorem SameAt.trans (h : SameAt l d d') (h' : SameAt l d' d'') : SameAt l d d'' :=
  ⟨h'.writes.trans h.writes, h'.contents.trans h.contents⟩

theorem SameAt.kept (h : Disk.Kept d d') : SameAt l d d' := ⟨by rw [h.1], h.2 l⟩

theorem SameAt.wrote {q : Write} (h : Disk.Wrote q d d') (hne : q.location ≠ l) : SameAt l d d' where
  writes := by
    rw [h.1, List.filter_append, List.filter_cons, if_neg (by simpa using hne), List.filter_nil, List.append_nil]
  contents := by rw [h.2, if_neg hne.symm]

/-- The object of one export is not where another writes. -/
theorem Stores.sameAt {used : List Uuid} {i key : Uuid} (h : Stores env used d d')
    (hl : env.locate (exportKey i key) = .ok l) (hkey : key ∉ used) : SameAt l d d' := by
  rcases h with hk | ⟨q, hw, hq⟩
  · exact .kept hk
  · exact .wrote hw (hq.location_ne (q := ⟨exportKey i key, l, []⟩) rfl hl hkey)

theorem Lets.refl (op : Op) (w : World) : Lets env B op w w := ⟨.refl _, id, fun _ _ _ _ _ _ => .refl _ _⟩

theorem Lets.trans (op : Op) (w₁ w₂ w₃ : World) (h : Lets env B op w₁ w₂) (h' : Lets env B op w₂ w₃) :
    Lets env B op w₁ w₃ where
  grows := h.grows.trans h'.grows
  intact hw := h'.intact (h.intact hw)
  artifact i key now l hop hl := (h.artifact i key now l hop hl).trans (h'.artifact i key now l hop hl)

/-- **Nobody disturbs anybody**, as long as no uuid is drawn twice. -/
theorem Does.lets (h : Does env B op w w') (hapart : ∀ u ∈ op.draws, u ∉ op'.draws) :
    Lets env B op' w w' where
  grows := h.grows
  intact := h.intact
  artifact i key now l hop hl := by
    refine h.stores.sameAt hl fun hmem => hapart key hmem ?_
    rw [hop]
    exact List.mem_singleton_self key

theorem Ready.lets (h : Ready env B op w) (hl : Lets env B op w w') : Ready env B op w' where
  begun := h.begun
  free i key now l hop hloc := by rw [(hl.artifact i key now l hop hloc).writes, h.free i key now l hop hloc]

/-- Documents are not where the artifacts are. -/
theorem Stores.spares (h : Stores env [] d d') : Spares env d d' := by
  refine h.imp_right fun ⟨q, hw, hq⟩ => ⟨q, hw, fun p _ i k hp hl => ?_⟩
  exact (hq.location_ne hp hl List.not_mem_nil).symm

theorem Stores.draws (h : Stores env [] d d') (us : List Uuid) : Stores env us d d' := by
  refine h.imp_right fun ⟨q, hw, hq⟩ => ⟨q, hw, ?_⟩
  have hmono : Filed env (us ++ []) q := hq.mono
  rwa [List.append_nil] at hmono

/-- A step of an operation that exports nothing. -/
theorem Does.confined {x : Option Uuid} (hx : ∀ i ∈ x, w.now.Matched i)
    (h : Txn.Confined.Step (DB.Carries x) (Stores env []) w w') : Does env B op w w' := by
  rcases h with ⟨hd, hext⟩ | ⟨hnow, hstores⟩
  · exact ⟨hd.grows, fun hw => hw.carries hd hx (.inl (hext ▸ .refl _)), .inl (hext ▸ .refl _)⟩
  · have hd : w.now.Carries x w'.now := hnow ▸ .refl _
    exact ⟨hd.grows, fun hw => hw.carries hd hx hstores.spares, hstores.draws _⟩

/-- An empty commit. -/
theorem Does.noop (op : Op) (w : World) : Does env B op w (w.commit w.now) :=
  .confined (x := none) (fun _ hi => by cases hi) (.inl ⟨.refl _, rfl⟩)

/-- **Every operation but the export**, in any company: one that comes past
the matching finds a match row, and that stays. -/
theorem op_intact (h : Intact env B w) (hop : ∀ i key now, op ≠ .call i (.export key now)) :
    Txn.wp (Lets env B op) (Does env B op) (fun _ _ _ => True) (fun _ _ _ => True) (op.prog env) w id := by
  have hconfined := confined_op env op hop
  cases hlate : op.late with
  | none =>
    refine Txn.wp_conseq (fun _ _ _ => trivial) (fun _ _ hstep => .confined (fun i hi => ?_) hstep)
      (fun _ _ _ _ => trivial) (fun _ _ _ _ => trivial) _ (hconfined w id .refl)
    rw [hlate] at hi
    cases hi
  | some j =>
    cases op with
    | upload | uploadForm => cases hlate
    | call i c =>
      obtain rfl : i = j := by cases c <;> cases hlate <;> rfl
      obtain ⟨k, hk, hidle⟩ := c.guarded env i
      have hread : (Op.call i c).prog env = .read k := hk
      rw [hread, hlate] at hconfined
      rw [hread]
      intro w' hl
      by_cases hentry : ∃ inv, w'.now.invoice i = some inv ∧ c.entry inv.status = true
      · obtain ⟨inv, hi, hentry⟩ := hentry
        have hmatched : w'.now.Matched i :=
          ⟨inv, hi, ((hl.intact h).orderly i inv hi).matched (c.atOrPast_of_entry hlate hentry)⟩
        refine Txn.wp_stable (F := fun w => w.now.Matched i) (fun _ _ hF hl => ⟨trivial, hF.grows hl.grows⟩)
          (fun w₁ w₂ hF hstep => ?_) hmatched (Txn.wp_conseq (fun _ _ h => h) (fun _ _ h => h)
            (fun _ _ _ _ => trivial) (fun _ _ _ _ => trivial) _ (hconfined w id .refl w' trivial))
        have hdoes : Does env B (.call i c) w₁ w₂ := .confined (fun _ hj => Option.some.inj hj ▸ hF) hstep
        exact ⟨hdoes, hF.grows hdoes.grows⟩
      · have hinert := hidle w'.now w'.ext fun inv hi => by
          by_contra hne
          exact hentry ⟨inv, hi, by simpa using hne⟩
        exact Txn.wp_conseq (fun _ _ h => h) (fun _ _ h => h) (fun _ _ _ _ => trivial) (fun _ _ _ _ => trivial) _
          (hinert.wp (Does.noop _) w')

end rules

end InvoiceOps
