/-
The ids in an exported payload, in every serial run. They are the ids of
the match row: both are there when the system approved the invoice, and
either may be null when a reviewer did.
-/
import InvoiceOps.Facts.Exports

namespace InvoiceOps

/-- Payload `payload` is what the export row `e` signs, and was written under
its key. -/
structure Shipped (env : Env) (w : World) (e : Export) (payload : ExportPayload) : Prop where
  written : ∃ p ∈ w.ext.writes, p.key = e.storageKey ∧ p.bytes = payload.toJsonBytes
  signature : e.signature = signPayload payload.toJsonBytes env.settings.exportSigningSecret

/-- The payload of an export row of `inv`: the invoice's match and approval. -/
inductive Exported (env : Env) (w : World) (inv : Invoice) (e : Export) : Prop
  | mk (r : ExtractionResult) (a : AuditLog) (vendor : Option Vendor) (po : Option PurchaseOrder) (now : String) :
      approvals inv.auditLog = [a] → exportable a.toStatus = true →
      Shipped env w e (exportPayload inv.id a.toStatus r.invoice (latestMatch inv.invoiceMatches) vendor po (some a)
        now) → Exported env w inv e

/-- What is kept of the invoices and their exports. -/
structure PayloadsOk (env : Env) (w : World) : Prop where
  backed : Rows (Backed env Eq) w
  exported : Rows (fun w inv => ∀ e ∈ inv.exports, Exported env w inv e) w

/-- The payload of an export row of `inv`, and all it was made from: the
invoice's result, its match row, the rows that names, and its approval. -/
inductive Sourced (env : Env) (w : World) (inv : Invoice) (e : Export) : Prop
  | mk (r : ExtractionResult) (a : AuditLog) (now : String) : inv.result = some r → approvals inv.auditLog = [a] →
      exportable a.toStatus = true →
      Shipped env w e (exportPayload inv.id a.toStatus r.invoice (latestMatch inv.invoiceMatches)
        (vendorOf w.now (latestMatch inv.invoiceMatches)) (poOf w.now (latestMatch inv.invoiceMatches)) (some a)
        now) → Sourced env w inv e

section payloads
variable {env : Env} {w w' : World} {inv inv' : Invoice} {e : Export}

/-- What was written is never taken off the record. -/
theorem Op.Acts.writes {op : Op} {w₀ : World} (h : op.Acts env w₀ w w') : w.ext.writes <+: w'.ext.writes := by
  cases h.disk with
  | kept hk => rw [hk.1]
  | document _ _ _ _ _ _ hw | artifact _ _ _ hw => rw [hw.1]; exact List.prefix_append _ _

theorem vendorOf_congr {d d' : DB} (h : d'.vendors = d.vendors) (row : Option InvoiceMatch) :
    vendorOf d' row = vendorOf d row := by
  simp only [vendorOf, h]

theorem Sourced.grows (hg : Grows w w') (hw : w.ext.writes <+: w'.ext.writes) (h : Sourced env w inv e) :
    Sourced env w' inv e := by
  obtain ⟨r, a, now, hr, ha, hs, ⟨p, hp, hkey⟩, hsig⟩ := h
  refine ⟨r, a, now, hr, ha, hs, ?_⟩
  rw [vendorOf_congr hg.vendors, poOf_congr hg.purchaseOrders]
  exact ⟨⟨p, hw.subset hp, hkey⟩, hsig⟩

theorem Sourced.exported (h : Sourced env w inv e) : Exported env w inv e := by
  obtain ⟨r, a, now, -, ha, hs, hshipped⟩ := h
  exact ⟨r, a, _, _, now, ha, hs, hshipped⟩

/-- **The export's own commit**: the invoice had no export, and gets one. -/
theorem Sourced.move {c : Call} {a₀ : List Write} (hb : Backed env Eq w inv) (hm : Move env Eq c a₀ w inv inv')
    (hs : exportable inv.status = true) : ∀ e ∈ inv'.exports, Sourced env w inv' e := by
  have hs' : inv.status = .autoApproved ∨ inv.status = .approved := by simpa [exportable] using hs
  cases hm with
  | exported key now r e p w₀ hc _ hr hkey hart ha hcont hw₀ =>
    intro e' he'
    have hnone : inv.exports = [] := hb.ok.exports_eq_nil (by rcases hs' with hs | hs <;> rw [hs] <;> decide)
    obtain rfl : e' = e := by simpa [hnone] using he'
    obtain ⟨a, happ, hto⟩ := hb.trail.approvals hs
    have hmem : p ∈ w.ext.writes := (List.mem_filter.mp (ha ▸ List.mem_append_right _ (List.mem_singleton_self p))).1
    have hbytes := hart.bytes
    rw [approvalAuditEntry_eq, happ, List.getLast?_singleton, ← hto] at hbytes
    refine ⟨r, a, now, hr, by simpa [approvals, List.filter_append] using happ, hto ▸ hs,
      ⟨p, hmem, hart.key, hbytes⟩, ?_⟩
    rw [hart.signature, hbytes]
    rfl
  | _ => rcases hs' with hs' | hs' <;> simp_all

/-- What is kept of the invoices and the sources of their exports. -/
structure SourcesOk (env : Env) (w : World) : Prop where
  backed : Rows (Backed env Eq) w
  sourced : Rows (fun w inv => ∀ e ∈ inv.exports, Sourced env w inv e) w

theorem SourcesOk.act {op : Op} {w₀ : World} (h : SourcesOk env w) (hact : op.Acts env w₀ w w') :
    SourcesOk env w' := by
  refine ⟨h.backed.act (fun hg hb => hb.grows hg) (fun _ _ _ _ => .new w (untouched_newInvoice ..))
    (fun hid hb hm => hb.move hid hm) hact, ?_⟩
  intro j inv' hj
  have hrow := hact.row j
  rw [hj] at hrow
  generalize ho : w.now.invoice j = o at hrow
  cases hrow with
  | same => exact fun e he => (h.sourced j inv' ho e he).grows hact.grows hact.writes
  | new => exact fun e he => by cases he
  | @moved i c inv _ hop hi hm =>
    rcases hm.exports with ⟨hsame, hne⟩ | hs
    · rw [hsame, (h.backed j inv ho).ok.exports_eq_nil hne]
      exact fun e he => by cases he
    · exact fun e he => (Sourced.move (h.backed j inv ho) hm hs e he).grows hact.grows hact.writes

theorem Reachable.sourcesOk (h : Reachable env w) : SourcesOk env w :=
  h.induct (fun _ hw => ⟨.initial hw, .initial hw⟩) fun _ _ _ _ _ _ h hact => h.act hact

theorem Reachable.payloadsOk (h : Reachable env w) : PayloadsOk env w :=
  ⟨h.sourcesOk.backed, fun i inv hi e he => (h.sourcesOk.sourced i inv hi e he).exported⟩

theorem mem_of_approvals {l : List AuditLog} {a : AuditLog} (h : approvals l = [a]) : a ∈ l :=
  (List.mem_filter.mp (h ▸ List.mem_singleton_self a)).1

/-- An exported payload has the ids of the invoice's one match row and the
status of its one approval. -/
theorem Reachable.shipped (h : Reachable env w) {i : Uuid} (hi : w.now.invoice i = some inv) (he : e ∈ inv.exports) :
    ∃ r a payload, inv.invoiceMatches = [matchRow env.py r w.now] ∧ a ∈ inv.auditLog ∧
      exportable a.toStatus = true ∧ Shipped env w e payload ∧ payload.status = a.toStatus.value ∧
      payload.vendorId = (matchRow env.py r w.now).vendorId.map Uuid.str ∧
      payload.poId = (matchRow env.py r w.now).poId.map Uuid.str := by
  have hb := h.payloadsOk.backed i inv hi
  obtain ⟨r', a, vendor, po, now, ha, hs, hshipped⟩ := h.payloadsOk.exported i inv hi e he
  obtain ⟨r, -, hrow⟩ := hb.matched (by rw [hb.ok.status_eq he]; rfl)
  have hlatest : latestMatch inv.invoiceMatches = some (matchRow env.py r.invoice w.now) := by rw [hrow]; rfl
  rw [hlatest] at hshipped
  exact ⟨r.invoice, a, _, hrow, mem_of_approvals ha, hs, hshipped, rfl, rfl, rfl⟩

/-- **The ids of an exported payload** are those of the invoice's match row,
and neither is null where the system approved. -/
theorem ids_of_export (h : Reachable env w) {i : Uuid} (hi : w.now.invoice i = some inv) (he : e ∈ inv.exports) :
    ∃ row payload, inv.invoiceMatches = [row] ∧ Shipped env w e payload ∧
      payload.vendorId = row.vendorId.map Uuid.str ∧ payload.poId = row.poId.map Uuid.str ∧
      (payload.status = "auto_approved" ∧ payload.vendorId ≠ none ∧ payload.poId ≠ none ∨
        payload.status = "approved") := by
  obtain ⟨r, a, payload, hrow, ha, hs, hshipped, hstatus, hvendor, hpo⟩ := h.shipped hi he
  refine ⟨_, payload, hrow, hshipped, hvendor, hpo, ?_⟩
  have hto : a.toStatus = .autoApproved ∨ a.toStatus = .approved := by simpa [exportable] using hs
  rcases hto with hto | hto
  · left
    obtain ⟨e₁, r₁, v₁, hg⟩ := h.grounds hi ⟨a, ha, hto⟩
    have hsame : matchRow env.py r w.now = matchRow env.py r₁.invoice w.now :=
      List.singleton_injective (hrow.symm.trans hg.row)
    have hidentified := hg.identified
    have hordered := hg.po
    rw [← hsame] at hidentified hordered
    simp only [vendorIdentified, Bool.and_eq_true, Option.isSome_iff_ne_none] at hidentified
    simp only [hasPo, Option.bind_some, Option.isSome_iff_ne_none] at hordered
    rw [hvendor, hpo, ne_eq, Option.map_eq_none_iff, ne_eq, Option.map_eq_none_iff]
    exact ⟨by rw [hstatus, hto]; rfl, hidentified.1, hordered⟩
  · right
    rw [hstatus, hto]
    rfl

end payloads

namespace Sample

theorem ids_of_plain : ∃ inv e row payload,
    (after (exported 5 "first" plain)).now.invoice (uuid 5) = some inv ∧ e ∈ inv.exports ∧
      inv.invoiceMatches = [row] ∧ Shipped env (after (exported 5 "first" plain)) e payload ∧
      payload.vendorId = row.vendorId.map Uuid.str ∧ payload.poId = row.poId.map Uuid.str := by
  have hrun : ((after (exported 5 "first" plain)).now.invoice (uuid 5)).map (·.exports.length) = some 1 := by
    decide +kernel
  obtain ⟨inv, hi, hlen⟩ := Option.map_eq_some_iff.mp hrun
  obtain ⟨e, he⟩ := List.length_eq_one_iff.mp hlen
  have hmem : e ∈ inv.exports := he ▸ List.mem_singleton_self e
  obtain ⟨row, payload, hrow, hshipped, hvendor, hpo, -⟩ := ids_of_export (reachable_after _) hi hmem
  exact ⟨inv, e, row, payload, hi, hmem, hrow, hshipped, hvendor, hpo⟩

/-- An invoice with no purchase order, approved by a reviewer and exported. -/
def reviewed : List Op :=
  decided 5 "first" unordered ++ [.call (uuid 5) (.decide true "reviewer" none),
    .call (uuid 5) (.export (uuid 15) "2024-05-18T09:30:00+00:00")]

theorem orderless : Reachable env (after reviewed) ∧ ∃ inv e payload,
    (after reviewed).now.invoice (uuid 5) = some inv ∧ e ∈ inv.exports ∧ Shipped env (after reviewed) e payload ∧
      payload.poId = none := by
  have hrun : ((after reviewed).now.invoice (uuid 5)).map (fun inv =>
      (inv.exports.length, inv.invoiceMatches.map (·.poId))) = some (1, [none]) := by decide +kernel
  obtain ⟨inv, hi, hrows⟩ := Option.map_eq_some_iff.mp hrun
  obtain ⟨hlen, hids⟩ := Prod.mk.inj hrows
  obtain ⟨e, he⟩ := List.length_eq_one_iff.mp hlen
  have hmem : e ∈ inv.exports := he ▸ List.mem_singleton_self e
  obtain ⟨r, a, payload, hrow, -, -, hshipped, -, -, hpo⟩ := (reachable_after reviewed).shipped hi hmem
  rw [hrow] at hids
  have hnone : (matchRow env.py r (after reviewed).now).poId = none := List.singleton_injective hids
  refine ⟨reachable_after _, inv, e, payload, hi, hmem, hshipped, ?_⟩
  rw [hpo, hnone]
  rfl

end Sample

end InvoiceOps
