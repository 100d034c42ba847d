/-
The other end of the export contract. A consumer fetches the artifact of an
export row, verifies its signature, reads the JSON and takes the invoice
from it (`consume`, `ExportPayload.invoice?`). What it gets is the invoice
that was matched, validated and approved, amounts and dates included; the
purchase order number the supplier wrote is not in the contract.
-/
import InvoiceOps.Facts.Canonical
import InvoiceOps.Facts.Overlap
import InvoiceOps.Facts.Payloads
import InvoiceOps.Facts.Vendors
import InvoiceOps.Lib.PyDecimalText

namespace InvoiceOps

/-! ## Dates -/

/-- `date.fromisoformat(s)`, for a text YYYY-MM-DD. -/
def PyDate.ofIso? (s : String) : Option PyDate :=
  let number := fun cs : List Char => Nat.ofDigitChars 10 cs 0
  let year := number (s.toList.take 4)
  let month := number ((s.toList.drop 5).take 2)
  let day := number ((s.toList.drop 8).take 2)
  if h : (1 ≤ year ∧ year ≤ 9999) ∧ (1 ≤ month ∧ month ≤ 12) ∧ 1 ≤ day ∧ day ≤ daysInMonth year month then
    if PyDate.isoformat ⟨year, month, day, h⟩ = s then some ⟨year, month, day, h⟩ else none
  else none

section dates

/-- A number of at most `w` digits, padded to `w` digits, and read back. -/
theorem zeroPadded_digits {w n : Nat} (hn : n < 10 ^ w) (hw : 0 < w) :
    (zeroPadded w n).toList.length = w ∧ Nat.ofDigitChars 10 (zeroPadded w n).toList 0 = n := by
  have hlen : (Nat.repr n).toList.length ≤ w := by
    rw [Nat.toList_repr, Nat.length_toDigits_le_iff (by decide) hw]
    exact hn
  rw [zeroPadded, String.toList_ofList]
  constructor
  · rw [List.length_append, List.length_replicate]
    omega
  · rw [Nat.ofDigitChars_append, Nat.ofDigitChars_replicate_zero, Nat.mul_zero, Nat.toList_repr,
      Nat.ofDigitChars_ten_toDigits]

theorem daysInMonth_le (year month : Nat) : daysInMonth year month ≤ 31 := by
  unfold daysInMonth
  split
  · split <;> omega
  · split <;> omega

theorem ofIso?_isoformat (d : PyDate) : PyDate.ofIso? d.isoformat = some d := by
  obtain ⟨⟨-, hy⟩, ⟨-, hm⟩, -, hd⟩ := d.valid
  have hdays := daysInMonth_le d.year d.month
  obtain ⟨hyl, hyn⟩ := @zeroPadded_digits 4 d.year (by omega) (by decide)
  obtain ⟨hml, hmn⟩ := @zeroPadded_digits 2 d.month (by omega) (by decide)
  obtain ⟨hdl, hdn⟩ := @zeroPadded_digits 2 d.day (by omega) (by decide)
  have htext : d.isoformat.toList =
      (zeroPadded 4 d.year).toList ++ '-' :: ((zeroPadded 2 d.month).toList ++ '-' :: (zeroPadded 2 d.day).toList) := by
    simp [PyDate.isoformat, String.toList_append]
  have hyear : d.isoformat.toList.take 4 = (zeroPadded 4 d.year).toList := by
    rw [htext, List.take_left' hyl]
  have hmonth : (d.isoformat.toList.drop 5).take 2 = (zeroPadded 2 d.month).toList := by
    rw [htext, List.drop_append, List.drop_eq_nil_of_le (by omega), hyl, List.nil_append,
      List.drop_succ_cons, List.drop_zero, List.take_left' hml]
  have hday : (d.isoformat.toList.drop 8).take 2 = (zeroPadded 2 d.day).toList := by
    rw [htext, List.drop_append, List.drop_eq_nil_of_le (by omega), hyl, List.nil_append,
      List.drop_succ_cons, List.drop_append, List.drop_eq_nil_of_le (by omega), hml, List.nil_append,
      List.drop_succ_cons, List.drop_zero, List.take_of_length_le (by omega)]
  unfold PyDate.ofIso?
  simp only [hyear, hmonth, hday, hyn, hmn, hdn]
  rw [dif_pos d.valid]
  exact if_pos trivial

end dates

/-! ## The invoice in a payload -/

/-- A text as a value, or null. -/
def optional? {α : Type} (read : String → Option α) : Option String → Option (Option α)
  | none => some none
  | some s => (read s).map some

def LineItem.load? (d : Dict (Option String)) : Option LineItem := do
  let description ← (← d.get "description")
  let quantity ← optional? PyDecimal.ofStr? (← d.get "quantity")
  let unitPrice ← optional? PyDecimal.ofStr? (← d.get "unit_price")
  let lineTotal ← optional? PyDecimal.ofStr? (← d.get "line_total")
  return ⟨description, quantity, unitPrice, lineTotal⟩

/-- The invoice a payload describes. -/
def ExportPayload.invoice? (p : ExportPayload) : Option ExtractedInvoice := do
  let invoiceDate ← optional? PyDate.ofIso? p.invoiceDate
  let lineItems ← p.lineItems.mapM LineItem.load?
  let subtotal ← optional? PyDecimal.ofStr? p.subtotal
  let taxAmount ← optional? PyDecimal.ofStr? p.taxAmount
  let total ← optional? PyDecimal.ofStr? p.total
  return {
    supplierName := p.supplierName
    supplierTaxId := p.supplierTaxId
    invoiceNumber := p.invoiceNumber
    invoiceDate
    currency := p.currency
    purchaseOrderNumber := none
    lineItems
    subtotal
    taxAmount
    total }

/-- The artifact of an export row, fetched, verified and read; a consumer
takes no other contract version. -/
def consume (env : Env) (e : Export) (d : Disk) : Option ExportPayload := do
  let data ← (Storage.getObject env.py env.settings.storageBackend env.settings.storageLocalDir e.storageKey d).toOption
  if verifySignature data env.settings.exportSigningSecret e.signature then
    let payload ← (Json.loads data).bind Json.payload?
    if payload.contractVersion = contractVersion then some payload else none
  else none

section invoice

theorem optional?_map {α : Type} {read : String → Option α} {text : α → String} (h : ∀ a, read (text a) = some a)
    (o : Option α) : optional? read (o.map text) = some o := by
  cases o with
  | none => rfl
  | some a => exact congrArg (Option.map some) (h a)

theorem load?_dump (li : LineItem) : LineItem.load? li.dump.sorted = some li := by
  have hget : ∀ {k v}, li.dump.get k = some v → li.dump.sorted.get k = some v := fun h => by rw [Dict.get_sorted, h]
  unfold LineItem.load?
  rw [hget (show li.dump.get "description" = some (some li.description) from rfl),
    hget (show li.dump.get "quantity" = some (li.quantity.map PyDecimal.str) from rfl),
    hget (show li.dump.get "unit_price" = some (li.unitPrice.map PyDecimal.str) from rfl),
    hget (show li.dump.get "line_total" = some (li.lineTotal.map PyDecimal.str) from rfl)]
  simp only [Option.bind_eq_bind, Option.bind_some, optional?_map PyDecimal.ofStr?_str]
  rfl

/-- **The invoice comes back**, whatever else the payload says. -/
theorem invoice?_exportPayload (i : Uuid) (s : InvoiceStatus) (r : ExtractedInvoice) (row : Option InvoiceMatch)
    (vendor : Option Vendor) (po : Option PurchaseOrder) (a : Option AuditLog) (now : String) :
    (exportPayload i s r row vendor po a now).sorted.invoice? = some { r with purchaseOrderNumber := none } := by
  have hitems : (exportPayload i s r row vendor po a now).sorted.lineItems.mapM LineItem.load? = some r.lineItems := by
    show ((r.lineItems.map LineItem.dump).map Dict.sorted).mapM LineItem.load? = _
    rw [List.map_map]
    exact mapM_map_eq_some load?_dump _
  unfold ExportPayload.invoice?
  rw [hitems]
  simp only [ExportPayload.sorted, exportPayload, Option.bind_eq_bind, Option.bind_some,
    optional?_map PyDecimal.ofStr?_str, optional?_map ofIso?_isoformat]
  rfl

end invoice

/-! ## Consuming an export -/

/-- What a consumer learns of invoice `i`, with match row `row` and approval
`a`, from a payload; the names are those of the rows of `d`. -/
structure Understood (payload : ExportPayload) (i : Uuid) (r : ExtractedInvoice) (row : InvoiceMatch) (a : AuditLog)
    (d : DB) : Prop where
  invoiceId : payload.invoiceId = i.str
  invoice : payload.invoice? = some { r with purchaseOrderNumber := none }
  status : payload.status = a.toStatus.value
  approvedBy : payload.approvedBy = some a.actor
  approvedReason : payload.approvedReason = a.reason
  vendorId : payload.vendorId = row.vendorId.map Uuid.str
  vendorName : payload.vendorName = (vendorOf d (some row)).map (·.legalName)
  poId : payload.poId = row.poId.map Uuid.str
  poNumber : payload.poNumber = (poOf d (some row)).map (·.poNumber)

section consume
variable {env : Env} {w : World} {used : List Uuid} {i : Uuid} {inv : Invoice} {e : Export}

/-- A sealed artifact is what the consumer gets. -/
theorem consume_of_sealed {p : Write} {payload : ExportPayload} (h : Sealed env w e p)
    (hbytes : p.bytes = payload.toJsonBytes) (hversion : payload.contractVersion = contractVersion) :
    consume env e w.ext = some payload.sorted := by
  have hget : Storage.getObject env.py env.settings.storageBackend env.settings.storageLocalDir e.storageKey w.ext =
      .ok payload.toJsonBytes := by
    rw [← h.key, ← hbytes]
    exact Storage.getObject_eq_ok h.location h.contents
  have hsig : verifySignature payload.toJsonBytes env.settings.exportSigningSecret e.signature = true := by
    rw [h.signature, hbytes]
    exact verifySignature_signPayload ..
  have hloads := payloadOf_loads payload
  unfold consume
  rw [hget]
  simp only [Except.toOption, Option.bind_eq_bind, Option.bind_some, hsig, if_true, hloads]
  exact if_pos hversion

/-- **The artifact is what the sources say.** Of the objects written, only
the sealed one has its key. -/
theorem FreshRun.consume (h : FreshRun env w used) (hi : w.now.invoice i = some inv) (he : e ∈ inv.exports) :
    ∃ r a now, inv.result = some r ∧ approvals inv.auditLog = [a] ∧
      consume env e w.ext = some (exportPayload inv.id a.toStatus r.invoice (latestMatch inv.invoiceMatches)
        (vendorOf w.now (latestMatch inv.invoiceMatches)) (poOf w.now (latestMatch inv.invoiceMatches)) (some a)
        now).sorted := by
  have hok := h.exportsOk
  obtain ⟨p, -, -, -, -, -, -, hsealed, -, -, -, -⟩ := hok.delivered i inv hi e he
  obtain ⟨r, a, now, hr, ha, -, ⟨p', hp', hkey, hbytes⟩, -⟩ := h.reachable.sourcesOk.sourced i inv hi e he
  have hloc : p'.location = p.location := by
    have hfiled := (hok.filed p' hp').location
    rw [hkey, ← hsealed.key, hsealed.location] at hfiled
    exact (Except.ok.inj hfiled).symm
  have hmem : p' ∈ w.ext.writes.filter fun q => q.location = p.location :=
    List.mem_filter.mpr ⟨hp', by simpa using hloc⟩
  rw [hsealed.once, List.mem_singleton] at hmem
  subst hmem
  exact ⟨r, a, now, hr, ha, consume_of_sealed hsealed hbytes rfl⟩

/-- **A consumer gets what was approved**: from the artifact of every export
row, with its signature, the very invoice that was extracted, matched and
validated, in the names of the rows it was matched to, and who approved it. -/
theorem understood_of_run (h : FreshRun env w used) (hi : w.now.invoice i = some inv) (he : e ∈ inv.exports) :
    ∃ r row a payload, inv.result = some r ∧ inv.invoiceMatches = [row] ∧ approvals inv.auditLog = [a] ∧
      consume env e w.ext = some payload ∧ Understood payload i r.invoice row a w.now := by
  obtain ⟨r, a, now, hr, ha, hconsume⟩ := h.consume hi he
  have hb := h.exportsOk.backed i inv hi
  obtain ⟨r', -, hrow⟩ := hb.matched (by rw [hb.ok.status_eq he]; rfl)
  have hlatest : latestMatch inv.invoiceMatches = some (matchRow env.py r'.invoice w.now) := by rw [hrow]; rfl
  rw [hlatest, DB.id_of_invoice hi] at hconsume
  exact ⟨r, _, a, _, hr, hrow, ha, hconsume,
    ⟨rfl, invoice?_exportPayload .., rfl, rfl, rfl, rfl, rfl, rfl, rfl⟩⟩

end consume

/-! ## What the system approved -/

section auto
variable {env : Env} {w : World} {used : List Uuid} {i : Uuid} {inv : Invoice} {e : Export}

theorem mem_of_matchVendor {py : Py} {extracted : ExtractedInvoice} {vendors : List VendorIdentity} {id : Uuid}
    (h : (matchVendor py extracted vendors).vendorId = some id) : ∃ v ∈ vendors, v.vendorId = id := by
  rcases matchVendor_cases py extracted vendors with ⟨v, -, hv, hm⟩ | ⟨-, hm⟩
  · rw [hm] at h
    exact ⟨v, List.mem_of_mem_filter (hv ▸ List.mem_singleton_self v), Option.some.inj h⟩
  · rw [hm] at h
    rcases matchName_resolved py extracted vendors with ⟨v, hv, hid, -⟩ | ⟨hid, -⟩
    · exact ⟨v, hv, Option.some.inj (hid.symm.trans h)⟩
    · rw [hid] at h
      cases h

theorem mem_of_vendorOf {d : DB} {row : Option InvoiceMatch} {vendor : Vendor} (h : vendorOf d row = some vendor) :
    vendor ∈ d.vendors.rows := by
  obtain ⟨_, -, hget⟩ := Option.bind_eq_some_iff.mp h
  exact (Table.mem_of_get? hget).1

theorem mem_of_poOf {d : DB} {row : Option InvoiceMatch} {po : PurchaseOrder} (h : poOf d row = some po) :
    po ∈ d.purchaseOrders.rows := by
  obtain ⟨_, -, hget⟩ := Option.bind_eq_some_iff.mp h
  exact (Table.mem_of_get? hget).1

/-- A match row names an active vendor. -/
theorem vendorOf_matchRow {py : Py} {extracted : ExtractedInvoice} {d : DB} {id : Uuid}
    (h : (matchRow py extracted d).vendorId = some id) :
    ∃ vendor, vendorOf d (some (matchRow py extracted d)) = some vendor ∧ vendor.id = id ∧ vendor.active = true := by
  obtain ⟨v, hv, rfl⟩ := mem_of_matchVendor h
  obtain ⟨vendor, hvendor, rfl⟩ := List.mem_map.mp hv
  obtain ⟨hmem, hactive⟩ := List.mem_filter.mp hvendor
  refine ⟨vendor, ?_, rfl, hactive⟩
  rw [vendorOf, Option.bind_some, h, Option.bind_some]
  exact Table.mem_rows_iff.mp hmem

/-- Such an approval is by the system. -/
theorem Backed.actor_of_autoApproved {R : World → World → Prop} (h : Backed env R w inv) (hauto : AutoApproved inv)
    {a : AuditLog} (ha : approvals inv.auditLog = [a]) : a.actor = "system" := by
  obtain ⟨hs, v, ex, d, ⟨hv, hex, hd⟩, hout⟩ := h.approved hauto
  obtain ⟨v', ex', d', ⟨hv', hex', hd'⟩, hmem⟩ := h.decided (by rcases hs with hs | hs <;> rw [hs] <;> rfl)
  obtain rfl : v = v' := List.singleton_injective (hv.symm.trans hv')
  obtain rfl : ex = ex' := List.singleton_injective (hex.symm.trans hex')
  obtain rfl : d = d' := hd.trans hd'.symm
  rw [hout] at hmem
  have happ : (⟨.validated, .autoApproved, "system", some (decisionReason d)⟩ : AuditLog) ∈ approvals inv.auditLog :=
    List.mem_filter.mpr ⟨hmem, rfl⟩
  rw [ha, List.mem_singleton] at happ
  rw [← happ]

/-- **What a consumer may pay without a reviewer**: an artifact whose status
says that the system approved it names an active vendor and a purchase
order of that vendor, and its total is at most the order's and the
tolerance. -/
theorem payable_of_run (h : FreshRun env w used) (hi : w.now.invoice i = some inv) (he : e ∈ inv.exports)
    {payload : ExportPayload} (hp : consume env e w.ext = some payload) (hs : payload.status = "auto_approved") :
    payload.approvedBy = some "system" ∧ ∃ vendor po extracted total,
      vendor ∈ w.now.vendors.rows ∧ vendor.active = true ∧ po ∈ w.now.purchaseOrders.rows ∧ po.vendorId = vendor.id ∧
      payload.vendorName = some vendor.legalName ∧ payload.poNumber = some po.poNumber ∧
      payload.invoice? = some extracted ∧ extracted.total = some total ∧
      (0 < po.total.cents → total.toRat ≤ (1 + tolerance) * po.total.toDecimal.toRat) := by
  obtain ⟨r, a, now, hr, ha, hconsume⟩ := h.consume hi he
  obtain rfl := Option.some.inj (hp.symm.trans hconsume)
  have hback := h.reachable.backed i inv hi
  have hto : a.toStatus = .autoApproved := by
    have happ := (List.mem_filter.mp (ha ▸ List.mem_singleton_self a : a ∈ approvals inv.auditLog)).2
    rw [Bool.or_eq_true, beq_iff_eq, beq_iff_eq] at happ
    refine happ.resolve_right fun hto => ?_
    replace hs : a.toStatus.value = "auto_approved" := hs
    rw [hto] at hs
    exact absurd hs (by decide)
  have hauto : AutoApproved inv := ⟨a, mem_of_approvals ha, hto⟩
  obtain ⟨e₁, r₁, row, v, vendorId, po, d, he₁, hstored, -, hrow, -, -, hvid, hpo, -, hgate⟩ := hback.gated hauto
  obtain ⟨e₂, r₂, v₂, g⟩ := h.reachable.grounds hi hauto
  -- The rows are the same, however they are found.
  obtain rfl : r = r₂ := Option.some.inj (hr.symm.trans g.result)
  obtain rfl : e₁ = e₂ := List.singleton_injective (he₁.symm.trans g.extraction)
  obtain rfl : r = r₁ := Option.some.inj (g.stored.symm.trans hstored)
  obtain rfl : row = _ := List.singleton_injective (hrow.symm.trans g.row)
  obtain ⟨vendor, hvendor, rfl, hactive⟩ := vendorOf_matchRow hvid
  obtain ⟨total, htotal⟩ := Option.ne_none_iff_exists'.mp hgate.required.2.2.2.2
  have hlatest : latestMatch inv.invoiceMatches = some (matchRow env.py r.invoice w.now) := by rw [hrow]; rfl
  have hnames : ∀ now, exportPayload inv.id a.toStatus r.invoice (latestMatch inv.invoiceMatches)
      (vendorOf w.now (latestMatch inv.invoiceMatches)) (poOf w.now (latestMatch inv.invoiceMatches)) (some a) now =
      exportPayload inv.id a.toStatus r.invoice (some (matchRow env.py r.invoice w.now)) (some vendor) (some po)
        (some a) now := fun now => by rw [hlatest, hvendor, hpo]
  refine ⟨congrArg some (hback.actor_of_autoApproved hauto ha), vendor, po, _, total, mem_of_vendorOf hvendor, hactive,
    mem_of_poOf hpo, hgate.vendor.2, ?_, ?_, invoice?_exportPayload .., htotal, fun hpos => ?_⟩
  · rw [hnames]
    rfl
  · rw [hnames]
    rfl
  · rcases hgate.amount with ⟨hzero, -⟩ | ⟨-, -, total', htotal', hwithin⟩
    · omega
    · obtain rfl : total = total' := Option.some.inj (htotal.symm.trans htotal')
      exact hwithin.le hpos

end auto

namespace Sample

/-- The invoice the system approves has one export. -/
theorem export_of_plain : ∃ used inv e, FreshRun env (after (exported 5 "first" plain)) used ∧
    (after (exported 5 "first" plain)).now.invoice (uuid 5) = some inv ∧ e ∈ inv.exports := by
  obtain ⟨used, hfresh, -⟩ := freshRun_after (exported 5 "first" plain) (by decide)
  have hrun : ((after (exported 5 "first" plain)).now.invoice (uuid 5)).map (·.exports.length) = some 1 := by
    decide +kernel
  obtain ⟨inv, hi, hlen⟩ := Option.map_eq_some_iff.mp hrun
  obtain ⟨e, he⟩ := List.length_eq_one_iff.mp hlen
  exact ⟨used, inv, e, hfresh, hi, he ▸ List.mem_singleton_self e⟩

theorem understood_of_plain : ∃ inv e r row a payload,
    (after (exported 5 "first" plain)).now.invoice (uuid 5) = some inv ∧ e ∈ inv.exports ∧
      consume env e (after (exported 5 "first" plain)).ext = some payload ∧
      Understood payload (uuid 5) r row a (after (exported 5 "first" plain)).now := by
  obtain ⟨used, inv, e, hfresh, hi, he⟩ := export_of_plain
  obtain ⟨r, row, a, payload, -, -, -, hconsume, hunderstood⟩ := understood_of_run hfresh hi he
  exact ⟨inv, e, r.invoice, row, a, payload, hi, he, hconsume, hunderstood⟩

theorem payable_of_plain : ∃ inv e payload,
    (after (exported 5 "first" plain)).now.invoice (uuid 5) = some inv ∧ e ∈ inv.exports ∧
      consume env e (after (exported 5 "first" plain)).ext = some payload ∧
      payload.status = "auto_approved" ∧ payload.approvedBy = some "system" := by
  obtain ⟨used, inv, e, hfresh, hi, he⟩ := export_of_plain
  have hrun : ((after (exported 5 "first" plain)).now.invoice (uuid 5)).map (fun inv =>
      (approvals inv.auditLog).map (·.toStatus)) = some [.autoApproved] := by decide +kernel
  obtain ⟨inv', hi', hto⟩ := Option.map_eq_some_iff.mp hrun
  obtain rfl : inv = inv' := Option.some.inj (hi.symm.trans hi')
  obtain ⟨r, a, now, -, ha, hconsume⟩ := hfresh.consume hi he
  rw [ha] at hto
  have hauto : a.toStatus = .autoApproved := List.singleton_injective hto
  have hs : a.toStatus.value = "auto_approved" := by rw [hauto]; rfl
  exact ⟨inv, e, _, hi, he, hconsume, hs, (payable_of_run hfresh hi he hconsume hs).1⟩

end Sample

end InvoiceOps
