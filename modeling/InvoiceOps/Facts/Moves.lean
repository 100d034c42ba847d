/-
What an operation can do to the shared world, said once. A `Move` is the
change a stage makes to its invoice, with the data it was made from; an
`Act` is one step of a call on the world, a move being its commit; an
`UploadAct` is one step of an upload. The specs of the programs
(`Facts.Stages`, `Facts.Calls`, `Facts.Uploads`) say that they do nothing
else, and every invariant is proved from here.

`R` is what others may do between two steps of the call: nothing at all
(`Eq`) in a serial run, anything that leaves its invoice alone
(`Undisturbed`) in an interleaved one.
-/
import InvoiceOps.Api.Decisions

namespace InvoiceOps

/-- `d'` is `d` with invoice `i` replaced by `inv`. -/
structure DB.Changed (i : Uuid) (inv : Invoice) (d d' : DB) : Prop where
  vendors : d'.vendors = d.vendors
  purchaseOrders : d'.purchaseOrders = d.purchaseOrders
  invoice : ∀ j, d'.invoice j = if j = i then some inv else d.invoice j

theorem DB.Changed.self {i : Uuid} {inv : Invoice} {d d' : DB} (h : DB.Changed i inv d d') :
    d'.invoice i = some inv := by rw [h.invoice, if_pos rfl]

theorem DB.Changed.other {i j : Uuid} {inv : Invoice} {d d' : DB} (h : DB.Changed i inv d d') (hj : j ≠ i) :
    d'.invoice j = d.invoice j := by rw [h.invoice, if_neg hj]

/-- The export artifacts of invoice `i`, in the order they were written. -/
def artifacts (i : Uuid) (d : Disk) : List Write :=
  d.writes.filter fun p => ("exports/" ++ i.str ++ "/").toList <+: p.key.toList

/-- What others may do while a call is on invoice `i`. -/
structure Undisturbed (i : Uuid) (w w' : World) : Prop where
  vendors : w'.now.vendors = w.now.vendors
  purchaseOrders : w'.now.purchaseOrders = w.now.purchaseOrders
  invoice : w'.now.invoice i = w.now.invoice i
  history : w.stores <:+ w'.stores
  artifacts : artifacts i w'.ext = artifacts i w.ext
  sent : w.sent <+: w'.sent

structure Rely (i : Uuid) (R : World → World → Prop) : Prop where
  refl : ∀ w, R w w
  trans : ∀ {w₁ w₂ w₃}, R w₁ w₂ → R w₂ w₃ → R w₁ w₃
  undisturbed : ∀ {w w'}, R w w' → Undisturbed i w w'

theorem Undisturbed.refl (i : Uuid) (w : World) : Undisturbed i w w :=
  ⟨rfl, rfl, rfl, List.suffix_refl _, rfl, List.prefix_refl _⟩

theorem Undisturbed.trans (i : Uuid) (w₁ w₂ w₃ : World) (h : Undisturbed i w₁ w₂) (h' : Undisturbed i w₂ w₃) :
    Undisturbed i w₁ w₃ :=
  ⟨h'.vendors.trans h.vendors, h'.purchaseOrders.trans h.purchaseOrders, h'.invoice.trans h.invoice,
    h.history.trans h'.history, h'.artifacts.trans h.artifacts, h.sent.trans h'.sent⟩

/-- Nor is an invoice disturbed by an empty commit. -/
theorem Undisturbed.noop (i : Uuid) (w : World) : Undisturbed i w (w.commit w.now) :=
  ⟨rfl, rfl, rfl, List.suffix_cons _ _, rfl, List.prefix_refl _⟩

/-- Nobody else does anything. -/
theorem Rely.alone (i : Uuid) : Rely i Eq :=
  ⟨fun _ => rfl, fun h h' => h.trans h', fun h => h ▸ .refl i _⟩

/-- Nobody else touches invoice `i`. -/
theorem Rely.others (i : Uuid) : Rely i (Undisturbed i) :=
  ⟨.refl i, .trans i _ _ _, fun h => h⟩

/-! ## The duplicate check -/

section duplicates
variable (py : Py) (R : World → World → Prop) (normalized : String)

/-- The check of one other invoice, begun in world `w` and over in `w'`. -/
inductive Looked (id : Uuid) (w : World) : World → Option DuplicateCandidate → Prop
  | missing {w₁} : R w w₁ → w₁.now.invoice id = none → Looked id w w₁ none
  | excluded {w₁ o} : R w w₁ → w₁.now.invoice id = some o → excludedFromDuplicateCheck o.status = true →
      Looked id w w₁ none
  | compared {w₁ o w₂} : R w w₁ → w₁.now.invoice id = some o →
      excludedFromDuplicateCheck o.status = false → R w₁ w₂ →
      Looked id w w₂ ((sameNumber py normalized (((w₂.now.invoice id).map (·.extractions)).getD [])).map
        fun number => ⟨id, number, o.status.value⟩)

/-- The check of a list of other invoices. -/
inductive Collected : World → List Uuid → World → List DuplicateCandidate → Prop
  | nil {w} : Collected w [] w []
  | cons {w w₁ w₂ id ids c cs} : Looked py R normalized id w w₁ c → Collected w₁ ids w₂ cs →
      Collected w (id :: ids) w₂ (c.toList ++ cs)

/-- The candidates `run_validation` ends up with in world `w`, for the
invoice `i` with match row `row`. -/
inductive Checked (i : Uuid) (row : Option InvoiceMatch) (extracted : ExtractedInvoice) (w : World) :
    List DuplicateCandidate → Prop
  | noVendor : row.bind (·.vendorId) = none → Checked i row extracted w []
  | noNumber : Py.truthy extracted.invoiceNumber = false → Checked i row extracted w []
  | checked {vendorId number w₁ w₂ cs} : row.bind (·.vendorId) = some vendorId →
      extracted.invoiceNumber = some number → number ≠ "" →
      Collected py R (py.lower (py.strip number)) w₁ (otherIds i vendorId w₁.now) w₂ cs → R w₁ w → R w₂ w →
      Checked i row extracted w cs

end duplicates

section looked
variable {py : Py} {R : World → World → Prop} {normalized : String} {i id : Uuid} {w w' : World}
  {c : Option DuplicateCandidate} {ids : List Uuid} {cs : List DuplicateCandidate}

theorem Looked.rely (hR : Rely i R) (h : Looked py R normalized id w w' c) : R w w' := by
  cases h with
  | missing h _ | excluded h _ _ => exact h
  | compared h _ _ h' => exact hR.trans h h'

theorem Collected.rely (hR : Rely i R) (h : Collected py R normalized w ids w' cs) : R w w' := by
  induction h with
  | nil => exact hR.refl _
  | cons hl _ ih => exact hR.trans (hl.rely hR) ih

/-- A list with no candidate: each invoice on it was looked at, and was none. -/
theorem Collected.none_of_nil (hR : Rely i R) (h : Collected py R normalized w ids w' cs) (hcs : cs = [])
    (hid : id ∈ ids) : ∃ w₁ w₂, R w w₁ ∧ Looked py R normalized id w₁ w₂ none ∧ R w₂ w' := by
  induction h with
  | nil => cases hid
  | @cons w w₁ w₂ j ids c cs hl hrest ih =>
    obtain ⟨hc, hcs⟩ := List.append_eq_nil_iff.mp hcs
    cases hid with
    | head =>
      rw [Option.toList_eq_nil_iff] at hc
      subst hc
      exact ⟨w, w₁, hR.refl w, hl, hrest.rely hR⟩
    | tail _ hid =>
      obtain ⟨w₃, w₄, h₁, hl', h₂⟩ := ih hcs hid
      exact ⟨w₃, w₄, hR.trans (hl.rely hR) h₁, hl', h₂⟩

end looked

/-! ## Moves -/

/-- The rows the match row of an export names. -/
def vendorOf (d : DB) (row : Option InvoiceMatch) : Option Vendor := (row.bind (·.vendorId)).bind d.vendors.get?

def poOf (d : DB) (row : Option InvoiceMatch) : Option PurchaseOrder :=
  (row.bind (·.poId)).bind d.purchaseOrders.get?

/-- What the stages after extraction work from. -/
def Invoice.result (inv : Invoice) : Option ExtractionResult :=
  (latestSuccessfulExtraction inv.extractions).bind (·.resultJson)

/-- The row `run_matching` adds. -/
def matchRow (py : Py) (extracted : ExtractedInvoice) (d : DB) : InvoiceMatch :=
  let v := matchVendor py extracted (vendorIdentities d)
  let po := matchPo py extracted (poIdentities d)
  { vendorId := v.vendorId, vendorMatchMethod := v.method, vendorConfidence := v.confidence,
    vendorCandidates := v.candidates, poId := po.poId, poMatchMethod := po.method }

/-- The signed artifact of an export, as the export row describes it. -/
structure Artifact (env : Env) (w : World) (inv : Invoice) (result : ExtractionResult) (now : String) (e : Export)
    (p : Write) : Prop where
  bytes : p.bytes = (exportPayload inv.id inv.status result.invoice (latestMatch inv.invoiceMatches)
    (vendorOf w.now (latestMatch inv.invoiceMatches)) (poOf w.now (latestMatch inv.invoiceMatches))
    (approvalAuditEntry inv.auditLog) now).toJsonBytes
  key : p.key = e.storageKey
  version : e.contractVersion = contractVersion
  signature : e.signature = signPayload p.bytes env.settings.exportSigningSecret
  location : env.locate p.key = .ok p.location

/-- A row after `advance`. -/
def Invoice.advanced (inv : Invoice) (source target : InvoiceStatus) (actor : String) (reason : Option String) :
    Invoice :=
  { inv with status := target, auditLog := inv.auditLog ++ [⟨source, target, actor, reason⟩] }

section advanced
variable (inv : Invoice) (s t : InvoiceStatus) (actor : String) (reason : Option String)

@[simp] theorem Invoice.advanced_id : (inv.advanced s t actor reason).id = inv.id := rfl
@[simp] theorem Invoice.advanced_status : (inv.advanced s t actor reason).status = t := rfl
@[simp] theorem Invoice.advanced_failureReason :
    (inv.advanced s t actor reason).failureReason = inv.failureReason := rfl
@[simp] theorem Invoice.advanced_extractions :
    (inv.advanced s t actor reason).extractions = inv.extractions := rfl
@[simp] theorem Invoice.advanced_invoiceMatches :
    (inv.advanced s t actor reason).invoiceMatches = inv.invoiceMatches := rfl
@[simp] theorem Invoice.advanced_validations :
    (inv.advanced s t actor reason).validations = inv.validations := rfl
@[simp] theorem Invoice.advanced_exports : (inv.advanced s t actor reason).exports = inv.exports := rfl
@[simp] theorem Invoice.advanced_auditLog :
    (inv.advanced s t actor reason).auditLog = inv.auditLog ++ [⟨s, t, actor, reason⟩] := rfl

end advanced

section moves
variable (env : Env) (R : World → World → Prop) (c : Call) (a₀ : List Write)

/-- What call `c` makes of `inv`, its invoice, when it commits in world `w`;
`a₀` are the artifacts the invoice had when the call began. -/
inductive Move (w : World) (inv : Invoice) : Invoice → Prop
  | extracted (e : Extraction) (r : ExtractionResult) (reason : String) :
      inv.status = .received → e.ok = true → e.resultJson = some r →
      e.fieldConfidence = some r.fieldConfidence →
      Move w inv (({ inv with failureReason := none, extractions := inv.extractions ++ [e] }.advanced
        .received .extracting "system" (some "starting text + LLM extraction")).advanced
        .extracting .extracted "system" (some reason))
  | extractionFailed (e : Extraction) (error : String) :
      inv.status = .received → e.ok = false → e.resultJson = none → e.error = some error →
      Move w inv (({ inv with failureReason := some error, extractions := inv.extractions ++ [e] }.advanced
        .received .extracting "system" (some "starting text + LLM extraction")).advanced
        .extracting .failed "system" (some error))
  | noExtraction (reason : String) :
      inv.status = .extracted ∨ inv.status = .validating → inv.result = none →
      Move w inv ({ inv with failureReason := some reason }.advanced inv.status .failed "system" (some reason))
  | matched (r : ExtractionResult) (reason : String) :
      inv.status = .extracted → inv.result = some r →
      Move w inv (({ inv with
          invoiceMatches := inv.invoiceMatches ++ [matchRow env.py r.invoice w.now] }.advanced
        .extracted .matching "system" (some "starting vendor + PO matching")).advanced
        .matching .validating "system" (some reason))
  | validated (r : ExtractionResult) (cs : List DuplicateCandidate) (results : List RuleResult)
      (reason : String) :
      inv.status = .validating → inv.result = some r →
      Checked env.py R inv.id (latestMatch inv.invoiceMatches) r.invoice w cs →
      runRules env.py ⟨r.invoice, (poOf w.now (latestMatch inv.invoiceMatches)).map poSnapshot,
        (latestMatch inv.invoiceMatches).bind (·.vendorId), cs⟩ = .ok results →
      Move w inv ({ inv with
          validations := inv.validations ++ [(⟨results, !hasBlockingFailure results⟩ : Validation)] }.advanced
        .validating .validated "system" (some reason))
  | decided (v : Validation) (e : Extraction) (d : ApprovalDecision) :
      inv.status = .validated → latestValidation inv.validations = some v →
      latestSuccessfulExtraction inv.extractions = some e →
      d = decideApproval v.passed (vendorIdentified (latestMatch inv.invoiceMatches))
        (hasPo (latestMatch inv.invoiceMatches)) (e.fieldConfidence.getD .empty) →
      Move w inv (inv.advanced .validated d.outcome "system" (some (decisionReason d)))
  | reviewed (isApproval : Bool) (actor : String) (reason : Option String) :
      inv.status = .needsReview →
      Move w inv (inv.advanced .needsReview (if isApproval then .approved else .rejected) actor reason)
  | exported (key : Uuid) (now : String) (r : ExtractionResult) (e : Export) (p : Write) (w₀ : World) :
      c = .export key now → exportable inv.status = true → inv.result = some r →
      e.storageKey = exportKey inv.id key → Artifact env w inv r now e p →
      artifacts inv.id w.ext = a₀ ++ [p] → w₀.ext.contents p.location = some p.bytes → R w₀ w →
      Move w inv (({ inv with exports := inv.exports ++ [e] }.advanced
        inv.status .exporting "system" (some "starting accounting export")).advanced
        .exporting .exported "system" (some ("exported to " ++ e.storageKey)))

/-- The statuses in which a task does its work. -/
def TaskName.entry : TaskName → InvoiceStatus → Bool
  | .extractInvoice, s => s == .received
  | .matchInvoice, s => s == .extracted
  | .validateInvoice, s => s == .validating
  | .approveInvoice, s => s == .validated
  | .exportInvoice, s => exportable s

/-- One step on the world of call `c` on invoice `i`. -/
inductive Act (i : Uuid) (w : World) : World → Prop
  | noop : Act i w (w.commit w.now)
  | move {inv inv' d} : w.now.invoice i = some inv → Move env R c a₀ w inv inv' → DB.Changed i inv' w.now d →
      Act i w (w.commit d)
  | send {inv t} : w.now.invoice i = some inv → TaskName.entry t inv.status = true → Act i w (w.post ⟨t, i⟩)
  | kept {disk} : Disk.Kept w.ext disk → Act i w (w.setExt disk)
  | artifact {inv key now p disk} : c = .export key now → w.now.invoice i = some inv →
      exportable inv.status = true → p.key = exportKey i key →
      env.locate p.key = .ok p.location →
      artifacts i w.ext = a₀ → Disk.Wrote p w.ext disk → Act i w (w.setExt disk)

end moves

/-- One step of an upload of `data` that nobody interrupts. -/
inductive UploadAct (env : Env) (i : Uuid) (data : Bytes) (filename contentType : String) (w : World) :
    World → Prop
  | noop : UploadAct env i data filename contentType w (w.commit w.now)
  | kept {disk} : Disk.Kept w.ext disk → UploadAct env i data filename contentType w (w.setExt disk)
  | document {p disk} : validateUpload env.settings data contentType = .ok () →
      findByDigest (sha256Hex data) w.now = none → p.key = storageKey (sha256Hex data) filename →
      p.bytes = data →
      env.locate p.key = .ok p.location →
      Disk.Wrote p w.ext disk → UploadAct env i data filename contentType w (w.setExt disk)
  | insert {l} : insertable (newInvoice i data filename contentType) w.now = true →
      env.locate (storageKey (sha256Hex data) filename) = .ok l →
      w.ext.contents l = some data →
      UploadAct env i data filename contentType w
        (w.commit { w.now with invoices := w.now.invoices.insert (newInvoice i data filename contentType) })
  | send {inv} : w.now.invoice i = some inv → inv.status = .received →
      UploadAct env i data filename contentType w (w.post ⟨.extractInvoice, i⟩)

/-! ## A move under the rely -/

section rely
variable {env : Env} {R : World → World → Prop} {c : Call} {a₀ : List Write} {i : Uuid}

theorem Checked.rely (hR : Rely i R) {py : Py} {j : Uuid} {row : Option InvoiceMatch}
    {extracted : ExtractedInvoice} {w w' : World} {cs : List DuplicateCandidate} (hw : R w w')
    (h : Checked py R j row extracted w cs) : Checked py R j row extracted w' cs := by
  cases h with
  | noVendor h => exact .noVendor h
  | noNumber h => exact .noNumber h
  | checked hv hn hne hc h₁ h₂ => exact .checked hv hn hne hc (hR.trans h₁ hw) (hR.trans h₂ hw)

/-- A move still stands after what others do. -/
theorem Move.rely (hR : Rely i R) {w w' : World} (hw : R w w') {inv inv' : Invoice} (hid : inv.id = i)
    (h : Move env R c a₀ w inv inv') : Move env R c a₀ w' inv inv' := by
  have hu := hR.undisturbed hw
  have hpo : ∀ row, poOf w'.now row = poOf w.now row := fun row => by simp only [poOf, hu.purchaseOrders]
  have hvendor : ∀ row, vendorOf w'.now row = vendorOf w.now row := fun row => by
    simp only [vendorOf, hu.vendors]
  cases h with
  | extracted e r reason hs hok hr hc => exact .extracted e r reason hs hok hr hc
  | extractionFailed e error hs hok hr he => exact .extractionFailed e error hs hok hr he
  | noExtraction reason hs hr => exact .noExtraction reason hs hr
  | matched r reason hs hr =>
    have hrow : matchRow env.py r.invoice w'.now = matchRow env.py r.invoice w.now := by
      simp only [matchRow, vendorIdentities, poIdentities, hu.vendors, hu.purchaseOrders]
    rw [← hrow]
    exact .matched r reason hs hr
  | validated r cs results reason hs hr hc hrules =>
    exact .validated r cs results reason hs hr (hc.rely hR hw) (by rw [hpo]; exact hrules)
  | decided v e d hs hv he hd => exact .decided v e d hs hv he hd
  | reviewed isApproval actor reason hs => exact .reviewed isApproval actor reason hs
  | exported key now r e p w₀ hc hs hr hkey hart ha hcont hw₀ =>
    refine .exported key now r e p w₀ hc hs hr hkey ⟨?_, hart.key, hart.version, hart.signature, hart.location⟩
      (by rw [hid, hu.artifacts, ← hid]; exact ha) hcont (hR.trans hw₀ hw)
    rw [hpo, hvendor]
    exact hart.bytes

end rely

end InvoiceOps
