/-
Serial runs: one operation after another, in any order and any number of
times, each alone and each cut short after any number of its nodes. A cut
covers every exception and every crash: what was committed, stored or sent
by then stays, the rest is lost.

`Reachable.induct` is how every invariant of serial runs is proved: from
what one act of an operation keeps.
-/
import InvoiceOps.Facts.Uploads

namespace InvoiceOps

/-- One step on the world of an operation that began in world `w₀`. -/
def Op.Acts (env : Env) (w₀ : World) : Op → World → World → Prop
  | .upload id data filename contentType | .uploadForm id data filename contentType =>
    UploadAct env id data (orElseText (filename.getD "") "upload.bin")
      (orElseText (contentType.getD "") "application/octet-stream")
  | .call id c => Act env Eq c (artifacts id w₀.ext) id

/-- How an operation that began in world `w₀` ends. -/
def Op.Ends (w₀ w : World) : Op → Prop
  | .upload id .. | .uploadForm id .. => Ingested id w₀ w
  | .call id c => Over c id w₀ w

/-- What is known when it raises. -/
def Op.Fails (w₀ w : World) (e : Exn) : Op → Prop
  | .upload .. | .uploadForm .. => w.now = w₀.now ∧ e.isIllegalTransition = false
  | .call id _ => Raised id w₀ w e

theorem validateUpload_error {settings : Settings} {data : Bytes} {contentType : String} {e : Exn}
    (h : validateUpload settings data contentType = .error e) : ∃ code detail, e = .uploadRejected code detail := by
  unfold validateUpload at h
  split at h
  · cases h; exact ⟨_, _, rfl⟩
  · split at h
    · cases h; exact ⟨_, _, rfl⟩
    · split at h <;> cases h
      exact ⟨_, _, rfl⟩

/-- **Every operation.** -/
theorem Op.wp (env : Env) (op : Op) (w₀ : World) :
    Txn.wp Eq (op.Acts env w₀) (fun w u e => u = id ∧ op.Fails w₀ w e) (fun w u _ => u = id ∧ op.Ends w₀ w)
      (op.prog env) w₀ id := by
  cases op with
  | upload id data filename contentType =>
    refine uploadScope_wp (fun _ _ h => h) ?_
    dsimp only
    cases hv : validateUpload env.settings data (orElseText (contentType.getD "") "application/octet-stream") with
    | error e =>
      obtain ⟨code, detail, rfl⟩ := validateUpload_error hv
      exact ⟨rfl, rfl⟩
    | ok _ => exact Tx.wp_bind (ingestUpload_wp hv fun _ _ h => h)
  | uploadForm id data filename contentType =>
    refine uploadScope_wp (fun _ _ h => h) ?_
    dsimp only
    cases hv : validateUpload env.settings data (orElseText (contentType.getD "") "application/octet-stream") with
    | error e =>
      obtain ⟨code, detail, rfl⟩ := validateUpload_error hv
      exact ⟨rfl, .found rfl⟩
    | ok _ => exact Tx.wp_bind (ingestUpload_wp hv fun _ _ h => h)
  | call id c => exact Call.wp (.alone id) fun _ _ h => h

/-! ## Runs -/

/-- Some vendors, some purchase orders, no invoices, and nothing done yet. -/
structure Initial (w : World) : Prop where
  invoices : w.now.invoices.rows = []
  past : w.past = []
  writes : w.ext.writes = []
  sent : w.sent = []

/-- One operation of a serial run, cut short after `n` nodes. -/
def cut (env : Env) (op : Op) (n : Nat) (w : World) : World := (Txn.exec n w (Txn.start (op.prog env))).1

/-- The worlds of serial runs. -/
inductive Reachable (env : Env) : World → Prop
  | start {w} : Initial w → Reachable env w
  | step {w} (op : Op) (n : Nat) : Reachable env w → Reachable env (cut env op n w)

section runs
variable {env : Env} {w w' : World}

/-- An operation acts, one step at a time. -/
theorem cut_acts (env : Env) (op : Op) (n : Nat) (w : World) :
    Relation.ReflTransGen (op.Acts env w) w (cut env op n w) :=
  (Txn.wp_exec (fun _ => rfl) n (show Txn.wp _ _ _ _ (Txn.start (op.prog env)).prog w _ from op.wp env w)).1

/-- **Invariants of serial runs.** What holds initially and is kept by each
act of each operation holds in every reachable world. An act may use that
the invariant held when its operation began. -/
theorem Reachable.induct {P : World → Prop} (hinit : ∀ w, Initial w → P w)
    (hact : ∀ (op : Op) (w₀ w w' : World), P w₀ → Relation.ReflTransGen (op.Acts env w₀) w₀ w → P w →
      op.Acts env w₀ w w' → P w') (h : Reachable env w) : P w := by
  induction h with
  | start h => exact hinit _ h
  | @step w₀ op n _ ih =>
    have hacts := cut_acts env op n w₀
    generalize cut env op n w₀ = w at hacts
    induction hacts with
    | refl => exact ih
    | tail hs h ih' => exact hact op w₀ _ _ ih hs ih' h

/-- A whole operation is a step, too. -/
theorem exists_cut_eq_run (env : Env) (op : Op) (w : World) : ∃ n, cut env op n w = ((op.prog env).run w id).2.1 := by
  obtain ⟨n, p, hex, -⟩ := Txn.exec_run (op.prog env) w id
  exact ⟨n, by rw [cut, Txn.start, hex]⟩

theorem Reachable.run (h : Reachable env w) (op : Op) : Reachable env ((op.prog env).run w id).2.1 := by
  obtain ⟨n, hn⟩ := exists_cut_eq_run env op w
  exact hn ▸ h.step op n

/-! ## Invariants of one row -/

/-- What an act of `op`, begun in world `w₀`, does to a row in world `w`. -/
inductive RowAct (env : Env) (op : Op) (w₀ w : World) : Option Invoice → Option Invoice → Prop
  | same {o} : RowAct env op w₀ w o o
  | new (i : Uuid) (data : Bytes) (filename contentType : String) :
      RowAct env op w₀ w none (some (newInvoice i data filename contentType))
  | moved {i c inv inv'} : op = .call i c → w.now.invoice i = some inv →
      Move env Eq c (artifacts i w₀.ext) w inv inv' → RowAct env op w₀ w (some inv) (some inv')

theorem UploadAct.row {op : Op} {w₀ : World} {i : Uuid} {data : Bytes} {filename contentType : String}
    (h : UploadAct env i data filename contentType w w') (j : Uuid) :
    RowAct env op w₀ w (w.now.invoice j) (w'.now.invoice j) := by
  cases h with
  | insert hins hl hc =>
    rw [Txn.World.commit_now, DB.invoice_insert hins]
    split
    · next hj =>
      rw [insertable, Bool.and_eq_true, Option.isNone_iff_eq_none] at hins
      rw [hj, hins.1]
      exact .new ..
    · exact .same
  | _ => exact .same

/-- **One act, one row.** -/
theorem Op.Acts.row {op : Op} {w₀ : World} (h : op.Acts env w₀ w w') (j : Uuid) :
    RowAct env op w₀ w (w.now.invoice j) (w'.now.invoice j) := by
  cases op with
  | upload | uploadForm => exact UploadAct.row h j
  | call i c =>
    cases h with
    | move hrow hm hch =>
      rw [Txn.World.commit_now, hch.invoice]
      split
      · next hj =>
        rw [hj, hrow]
        exact .moved rfl hrow hm
      · exact .same
    | _ => exact .same

/-- **One act, the storage**: no object changes, or one object is written,
the document of an upload or the artifact of an export. -/
inductive DiskAct (env : Env) (w₀ w : World) (d : Disk) : Op → Prop
  | kept {op} : Disk.Kept w.ext d → DiskAct env w₀ w d op
  | document {op p id data filename contentType} :
      op = .upload id data filename contentType ∨ op = .uploadForm id data filename contentType →
      validateUpload env.settings data (orElseText (contentType.getD "") "application/octet-stream") = .ok () →
      findByDigest (sha256Hex data) w.now = none →
      p.key = storageKey (sha256Hex data) (orElseText (filename.getD "") "upload.bin") → p.bytes = data →
      env.locate p.key = .ok p.location → Disk.Wrote p w.ext d → DiskAct env w₀ w d op
  | artifact {i key now p} : p.key = exportKey i key → env.locate p.key = .ok p.location →
      artifacts i w.ext = artifacts i w₀.ext → Disk.Wrote p w.ext d →
      DiskAct env w₀ w d (.call i (.export key now))

theorem Op.Acts.disk {op : Op} {w₀ : World} (h : op.Acts env w₀ w w') : DiskAct env w₀ w w'.ext op := by
  cases op with
  | upload id data filename contentType =>
    cases h with
    | kept hk => exact .kept hk
    | document hv hf hkey hb hl hw => exact .document (.inl rfl) hv hf hkey hb hl hw
    | _ => exact .kept (.refl _)
  | uploadForm id data filename contentType =>
    cases h with
    | kept hk => exact .kept hk
    | document hv hf hkey hb hl hw => exact .document (.inr rfl) hv hf hkey hb hl hw
    | _ => exact .kept (.refl _)
  | call i c =>
    cases h with
    | kept hk => exact .kept hk
    | artifact hc _ _ hkey hl ha hw =>
      subst hc
      exact .artifact hkey hl ha hw
    | _ => exact .kept (.refl _)

/-- What no act undoes. -/
structure Grows (w w' : World) : Prop where
  vendors : w'.now.vendors = w.now.vendors
  purchaseOrders : w'.now.purchaseOrders = w.now.purchaseOrders
  stores : w.stores <:+ w'.stores

theorem Grows.refl (w : World) : Grows w w := ⟨rfl, rfl, List.suffix_refl _⟩

theorem Grows.trans {w₁ w₂ w₃ : World} (h : Grows w₁ w₂) (h' : Grows w₂ w₃) : Grows w₁ w₃ :=
  ⟨h'.vendors.trans h.vendors, h'.purchaseOrders.trans h.purchaseOrders, h.stores.trans h'.stores⟩

theorem Act.grows {R : World → World → Prop} {c : Call} {a₀ : List Write} {i : Uuid}
    (h : Act env R c a₀ i w w') : Grows w w' := by
  cases h with
  | noop => exact ⟨rfl, rfl, List.suffix_cons _ _⟩
  | move _ _ hch => exact ⟨hch.vendors, hch.purchaseOrders, List.suffix_cons _ _⟩
  | _ => exact ⟨rfl, rfl, List.suffix_refl _⟩

theorem UploadAct.grows {i : Uuid} {data : Bytes} {filename contentType : String}
    (h : UploadAct env i data filename contentType w w') : Grows w w' := by
  cases h with
  | noop | insert => exact ⟨rfl, rfl, List.suffix_cons _ _⟩
  | _ => exact ⟨rfl, rfl, List.suffix_refl _⟩

theorem Op.Acts.grows {op : Op} {w₀ : World} (h : op.Acts env w₀ w w') : Grows w w' := by
  cases op with
  | upload | uploadForm => exact UploadAct.grows h
  | call i c => exact Act.grows h

theorem cut_grows (env : Env) (op : Op) (n : Nat) (w : World) : Grows w (cut env op n w) := by
  have hacts := cut_acts env op n w
  generalize cut env op n w = w' at hacts
  induction hacts with
  | refl => exact .refl w
  | tail _ h ih => exact ih.trans h.grows

/-- Every committed invoice satisfies `P`. -/
def Rows (P : World → Invoice → Prop) (w : World) : Prop := ∀ i inv, w.now.invoice i = some inv → P w inv

/-- What a new invoice satisfies and every move keeps, every act keeps. -/
theorem Rows.act {P : World → Invoice → Prop} {op : Op} {w₀ : World}
    (hkeep : ∀ {inv}, Grows w w' → P w inv → P w' inv)
    (hnew : ∀ i data filename contentType, P w (newInvoice i data filename contentType))
    (hmove : ∀ {c a₀ inv inv'}, w.now.invoice inv.id = some inv → P w inv → Move env Eq c a₀ w inv inv' → P w inv')
    (hP : Rows P w) (h : op.Acts env w₀ w w') : Rows P w' := by
  intro j inv' hj
  have hrow := h.row j
  rw [hj] at hrow
  generalize ho : w.now.invoice j = o at hrow
  refine hkeep h.grows ?_
  cases hrow with
  | same => exact hP j _ ho
  | new => exact hnew ..
  | moved _ _ hm => exact hmove (DB.id_of_invoice ho ▸ ho) (hP j _ ho) hm

theorem Rows.initial {P : World → Invoice → Prop} (h : Initial w) : Rows P w := by
  intro i inv hi
  have hmem := (Table.mem_of_get? hi).1
  rw [h.invoices] at hmem
  cases hmem

/-- A row invariant of serial runs. -/
theorem Reachable.rows {P : World → Invoice → Prop} (hkeep : ∀ {w w' inv}, Grows w w' → P w inv → P w' inv)
    (hnew : ∀ w i data filename contentType, P w (newInvoice i data filename contentType))
    (hmove : ∀ {w c a₀ inv inv'}, w.now.invoice inv.id = some inv → P w inv → Move env Eq c a₀ w inv inv' → P w inv')
    (h : Reachable env w) : Rows P w :=
  h.induct (fun _ => .initial) fun _ _ _ _ _ _ hP hact => hP.act hkeep (hnew _) hmove hact

end runs

/-! ## A small installation -/

namespace Sample

/-- The text operations on ASCII text. -/
def py : Py where
  lower s := String.ofList (s.toList.map Char.toLower)
  upper s := String.ofList (s.toList.map Char.toUpper)
  isspace c := c = ' ' ∨ (0x09 ≤ c.toNat ∧ c.toNat ≤ 0x0d) ∨ (0x1c ≤ c.toNat ∧ c.toNat ≤ 0x1f)
  isalnum c := c.isAlphanum
  isprintable c := 0x20 ≤ c.toNat ∧ c.toNat < 0x7f
  ratio a b := if a = b then 1 else 0

def uuid (n : Nat) : Uuid := ⟨List.replicate 31 0 ++ [Fin.ofNat 16 n], by simp⟩

def vendor : Vendor := ⟨uuid 1, "ACME", none, [], true⟩

/-- A purchase order of 100.00. -/
def order : PurchaseOrder := ⟨uuid 2, "PO-1", vendor.id, "EUR", ⟨10000, by decide⟩⟩

/-- A purchase order of nothing. -/
def emptyOrder : PurchaseOrder := ⟨uuid 3, "PO-2", vendor.id, "EUR", ⟨0, by decide⟩⟩

/-- A PDF document of one page with a line of text. -/
def document (line : String) : Bytes :=
  ["%PDF-1.4\n", "1 0 obj<</Type/Catalog", "/Pages 2 0 R>>endobj\n", "2 0 obj<</Type/Pages",
    "/Kids[3 0 R]/Count 1>>endobj\n", "3 0 obj<</Type/Page", "/Parent 2 0 R", "/MediaBox[0 0 612 792]",
    "/Contents 4 0 R", "/Resources<</Font<</F1<<", "/Type/Font/Subtype/Type1", "/BaseFont/Helvetica",
    ">>>>>>>>endobj\n", "4 0 obj<</Length ", Nat.repr (line.toList.length + 31), ">>stream\n",
    "BT /F1 12 Tf 72 720 Td (", line, ") Tj ET\n", "endstream endobj\n", "trailer<</Root 1 0 R>>\n",
    "%%EOF\n"].flatMap utf8

/-- What the model says of an invoice of 100.00, as JSON text and as the
value it is read as. -/
structure Answer where
  number : String
  currency : Option String
  orderNumber : String
  confidence : Nat
  deriving DecidableEq

def Answer.text (a : Answer) : String :=
  "\x7b\"invoice\": \x7b\"supplier_name\": \"ACME\", \"invoice_number\": \"" ++ a.number ++
    "\", \"invoice_date\": \"2024-05-17\", \"currency\": " ++
    (match a.currency with | none => "null" | some c => "\"" ++ c ++ "\"") ++
    ", \"purchase_order_number\": \"" ++ a.orderNumber ++ "\", \"total\": \"100.00\"\x7d, " ++
    "\"field_confidence\": \x7b" ++
    Py.join ", " (criticalFields.map fun f => "\"" ++ f ++ "\": " ++ Nat.repr a.confidence ++ ".0") ++ "\x7d\x7d"

def Answer.result (a : Answer) : ExtractionResult where
  invoice := {
    supplierName := some "ACME"
    supplierTaxId := none
    invoiceNumber := some a.number
    invoiceDate := some ⟨2024, 5, 17, by decide⟩
    currency := a.currency
    purchaseOrderNumber := some a.orderNumber
    lineItems := []
    subtotal := none
    taxAmount := none
    total := some ⟨false, 10000, -2⟩ }
  fieldConfidence := ⟨criticalFields.map fun f => (f, .fin a.confidence), by simp [criticalFields]⟩
  notes := none

def plain : Answer := ⟨"N-1", some "EUR", "PO-1", 1⟩

/-- No purchase order has the number: this one goes to review. -/
def unordered : Answer := { plain with orderNumber := "PO-9" }

def answers : List Answer := [plain, { plain with number := "N-2" }, { plain with number := "" },
  { plain with currency := none }, { plain with orderNumber := "PO-2" }, { plain with confidence := 2 }, unordered]

def env : Env where
  py := py
  settings := {
    storageBackend := .local
    storageLocalDir := ["data"]
    maxUploadBytes := 1000000
    allowedUploadContentTypes := ["application/pdf"]
    openrouterApiKey := some "key"
    llmModel := "model"
    llmMaxRetries := 2
    exportSigningSecret := "secret" }
  resultJsonSchema := "\x7b\x7d"
  parseReply content :=
    match answers.find? fun a => a.text = content with
    | some a => .accepted a.result
    | none => .notJson "Expecting value: line 1 column 1 (char 0)"
  pdfPages data :=
    match ["first", "second"].find? fun line => document line = data with
    | some line => .ok [line]
    | none => .error "No /Root object! - Is this really a PDF?"

theorem parseReply_some {content : String} {a : Answer} (h : answers.find? (fun a => a.text = content) = some a) :
    env.parseReply content = .accepted a.result := by
  unfold env
  dsimp only
  rw [h]

theorem parseReply_none {content : String} (h : answers.find? (fun a => a.text = content) = none) :
    env.parseReply content = .notJson "Expecting value: line 1 column 1 (char 0)" := by
  unfold env
  dsimp only
  rw [h]

/-- A model that gives one answer. -/
def provider (a : Answer) : Llm := fun _ _ _ _ => .response (some a.text) "model"

def world : World where
  now := ⟨⟨[vendor], by decide⟩, ⟨[order, emptyOrder], by decide⟩, .empty⟩
  past := []
  ext := ⟨.empty, fun _ => none, []⟩
  sent := []

theorem world_initial : Initial world := ⟨rfl, rfl, rfl, rfl⟩

/-- The world after some operations, each to its end. -/
def after (ops : List Op) : World := ops.foldl (fun w op => ((op.prog env).run w id).2.1) world

theorem after_concat (ops : List Op) (op : Op) : after (ops ++ [op]) = ((op.prog env).run (after ops) id).2.1 := by
  simp [after]

theorem reachable_after (ops : List Op) : Reachable env (after ops) := by
  induction ops using List.reverseRecOn with
  | nil => exact .start world_initial
  | append_singleton ops op ih => exact after_concat ops op ▸ ih.run op

theorem grows_after (ops : List Op) : Grows world (after ops) := by
  induction ops using List.reverseRecOn with
  | nil => exact .refl world
  | append_singleton ops op ih =>
    obtain ⟨n, hn⟩ := exists_cut_eq_run env op (after ops)
    exact after_concat ops op ▸ hn ▸ ih.trans (cut_grows env op n _)

/-- An upload and the stages up to the decision. -/
def decided (n : Nat) (line : String) (a : Answer) : List Op :=
  [.upload (uuid n) (document line) (some "invoice.pdf") (some "application/pdf"),
    .call (uuid n) (.extract (provider a)), .call (uuid n) .matchVendor, .call (uuid n) .validate,
    .call (uuid n) .approve]

/-- The same, and the export. -/
def exported (n : Nat) (line : String) (a : Answer) : List Op :=
  decided n line a ++ [.call (uuid n) (.export (uuid 15) "2024-05-18T09:30:00+00:00")]

/-- The status of an invoice. -/
def statusOf (w : World) (n : Nat) : Option InvoiceStatus := (w.now.invoice (uuid n)).map (·.status)

theorem statusOf_decided : statusOf (after (decided 5 "first" plain)) 5 = some .autoApproved := by decide +kernel

end Sample

end InvoiceOps
