/-
The signed encoding of an export. Its bytes, read as JSON, give back the
payload with the keys of each line item sorted (`payloadOf_loads`), so they
are those of one payload, up to the order of these keys; and so is a
signature, as far as the keyed hash tells messages apart.
-/
import InvoiceOps.Facts.Serial
import InvoiceOps.JsonReader
import InvoiceOps.Lib.Ranking
import Mathlib.Data.String.Basic

namespace InvoiceOps

/-! ## Sorted keys -/

section keys
variable {α : Type}

instance total_keys : Std.Total fun a b : String × α => a.1 ≤ b.1 := ⟨fun a b => le_total a.1 b.1⟩

instance trans_keys : IsTrans (String × α) fun a b => a.1 ≤ b.1 := ⟨fun _ _ _ => le_trans⟩

/-- Two entries of a dict with one key are the same entry. -/
theorem Dict.eq_of_keys (d : Dict α) : ∀ a ∈ d.rows, ∀ b ∈ d.rows, a.1 ≤ b.1 → b.1 ≤ a.1 → a = b :=
  fun _ ha _ hb hab hba => List.inj_on_of_nodup_map d.nodup ha hb (le_antisymm hab hba)

/-- The dict with its keys sorted. -/
def Dict.sorted (d : Dict α) : Dict α where
  rows := d.rows.insertionSort fun a b => a.1 ≤ b.1
  nodup := ((List.perm_insertionSort _ d.rows).map Prod.fst).nodup_iff.mpr d.nodup

theorem Dict.sorted_inj {d d' : Dict α} : d.sorted = d'.sorted ↔ d.rows.Perm d'.rows := by
  rw [Table.mk.injEq]
  exact Ranking.insertionSort_eq_iff d.eq_of_keys

theorem Dict.sorted_perm (d : Dict α) : d.rows.Perm d.sorted.rows := (List.perm_insertionSort _ d.rows).symm

/-- The dict with its values changed. -/
def Dict.mapValues {β : Type} (f : α → β) (d : Dict α) : Dict β where
  rows := d.rows.map fun kv => (kv.1, f kv.2)
  nodup := by
    rw [List.map_map]
    exact d.nodup

theorem Dict.sorted_mapValues {β : Type} (f : α → β) (d : Dict α) : (d.mapValues f).sorted = d.sorted.mapValues f := by
  rw [Table.mk.injEq]
  exact (List.map_insertionSort (fun a b : String × α => a.1 ≤ b.1) (fun a b : String × β => a.1 ≤ b.1)
    (fun kv => (kv.1, f kv.2)) d.rows fun _ _ _ _ => Iff.rfl).symm

theorem Dict.sorted_sorted (d : Dict α) : d.sorted.sorted = d.sorted := Dict.sorted_inj.mpr d.sorted_perm.symm

theorem Dict.get_mapValues {β : Type} (f : α → β) (d : Dict α) (k : String) :
    (d.mapValues f).get k = (d.get k).map f := by
  rw [Dict.get, Dict.get, Table.get?, Table.get?, mapValues, List.find?_map, Option.map_map, Option.map_map]
  rfl

/-- A dict is read the same in any order of its keys. -/
theorem Dict.get_sorted (d : Dict α) (k : String) : d.sorted.get k = d.get k := by
  rw [Dict.get, Dict.get]
  cases hk : d.get? k with
  | none =>
    rw [Table.get?_eq_none_iff] at hk
    have hk' : d.sorted.get? k = none :=
      Table.get?_eq_none_iff.mpr fun h => hk ((d.sorted_perm.map Prod.fst).mem_iff.mpr h)
    rw [hk']
  | some kv =>
    obtain ⟨hmem, rfl⟩ := Table.mem_of_get? hk
    rw [Table.mem_rows_iff.mp (d.sorted_perm.mem_iff.mp hmem)]

theorem mapM_map_eq_some {β : Type} {f : β → Option α} {g : α → β} (h : ∀ a, f (g a) = some a) (l : List α) :
    (l.map g).mapM f = some l := by
  induction l with
  | nil => rfl
  | cons a l ih =>
    rw [List.map_cons, List.mapM_cons, h, ih]
    rfl

theorem Json.sortFields_eq (fields : List (String × Json)) :
    Json.sortFields fields = fields.map fun kv => (kv.1, kv.2.sortKeys) := by
  induction fields with
  | nil => rw [Json.sortFields, List.map_nil]
  | cons kv fields ih => rw [Json.sortFields, ih, List.map_cons]

theorem Json.sortItems_eq (xs : List Json) : Json.sortItems xs = xs.map Json.sortKeys := by
  induction xs with
  | nil => rw [Json.sortItems, List.map_nil]
  | cons x xs ih => rw [Json.sortItems, ih, List.map_cons]

theorem Json.sortKeys_obj (d : Dict Json) : (Json.obj d.rows).sortKeys = .obj (d.mapValues Json.sortKeys).sorted.rows := by
  rw [Json.sortKeys, Json.sortFields_eq]
  rfl

theorem Json.sortKeys_ofOption (o : Option String) : (Json.ofOption o).sortKeys = Json.ofOption o := by
  cases o <;> rw [Json.ofOption, Json.sortKeys]

end keys

/-! ## Reading a payload -/

namespace Json

/-- The dict an object is, when its keys differ. -/
def dict? : Json → Option (Dict Json)
  | .obj fields => if h : (fields.map Prod.fst).Nodup then some ⟨fields, h⟩ else none
  | _ => none

/-- A text. -/
def str? : Json → Option String
  | .str s => some s
  | _ => none

/-- A text or null. -/
def text? : Json → Option (Option String)
  | .null => some none
  | .str s => some (some s)
  | _ => none

/-- A dict of texts and nulls. -/
def item? (v : Json) : Option (Dict (Option String)) := do
  let d ← v.dict?
  let rows ← d.rows.mapM fun kv => kv.2.text?.map fun t => (kv.1, t)
  if h : (rows.map Prod.fst).Nodup then some ⟨rows, h⟩ else none

def items? : Json → Option (List (Dict (Option String)))
  | .arr xs => xs.mapM item?
  | _ => none

/-- The payload an object has the fields of. -/
def payload? (v : Json) : Option ExportPayload := do
  let d ← v.dict?
  let contractVersion ← (d.get "contract_version").bind str?
  let invoiceId ← (d.get "invoice_id").bind str?
  let status ← (d.get "status").bind str?
  let supplierName ← (d.get "supplier_name").bind text?
  let supplierTaxId ← (d.get "supplier_tax_id").bind text?
  let invoiceNumber ← (d.get "invoice_number").bind text?
  let invoiceDate ← (d.get "invoice_date").bind text?
  let currency ← (d.get "currency").bind text?
  let subtotal ← (d.get "subtotal").bind text?
  let taxAmount ← (d.get "tax_amount").bind text?
  let total ← (d.get "total").bind text?
  let lineItems ← (d.get "line_items").bind items?
  let vendorId ← (d.get "vendor_id").bind text?
  let vendorName ← (d.get "vendor_name").bind text?
  let poId ← (d.get "po_id").bind text?
  let poNumber ← (d.get "po_number").bind text?
  let approvedBy ← (d.get "approved_by").bind text?
  let approvedReason ← (d.get "approved_reason").bind text?
  let exportedAt ← (d.get "exported_at").bind str?
  return {
    contractVersion, invoiceId, status, supplierName, supplierTaxId, invoiceNumber, invoiceDate, currency, subtotal,
    taxAmount, total, lineItems, vendorId, vendorName, poId, poNumber, approvedBy, approvedReason, exportedAt }

theorem dict?_obj (d : Dict Json) : (Json.obj d.rows).dict? = some d := dif_pos d.nodup

theorem text?_ofOption (o : Option String) : (ofOption o).text? = some o := by
  cases o <;> rfl

/-- The JSON of a line item. -/
theorem sortKeys_item (li : Dict (Option String)) :
    (Json.obj (li.mapValues ofOption).rows).sortKeys = .obj (li.sorted.mapValues ofOption).rows := by
  rw [sortKeys_obj, Dict.sorted_mapValues, Dict.sorted_mapValues]
  simp only [Dict.mapValues, List.map_map, Function.comp_def, sortKeys_ofOption]

theorem item?_sorted (li : Dict (Option String)) :
    (Json.obj (li.mapValues ofOption).rows).sortKeys.item? = some li.sorted := by
  have hrows : ((li.sorted.mapValues ofOption).rows.mapM fun kv => kv.2.text?.map fun t => (kv.1, t)) =
      some li.sorted.rows := mapM_map_eq_some (fun kv => by rw [text?_ofOption]; rfl) li.sorted.rows
  rw [sortKeys_item, item?, dict?_obj]
  simp only [Option.bind_eq_bind, Option.bind_some, hrows]
  exact dif_pos li.sorted.nodup

theorem items?_sorted (lis : List (Dict (Option String))) :
    (Json.arr (lis.map fun li => .obj (li.mapValues ofOption).rows)).sortKeys.items? = some (lis.map Dict.sorted) := by
  rw [sortKeys, sortItems_eq, List.map_map, items?]
  induction lis with
  | nil => rfl
  | cons li lis ih =>
    rw [List.map_cons, List.mapM_cons, ih, Function.comp_apply, item?_sorted]
    rfl

end Json

/-- Equal up to the order of the keys inside the line items. -/
structure ExportPayload.Same (p q : ExportPayload) : Prop where
  fields : { p with lineItems := [] } = { q with lineItems := [] }
  lineItems : List.Forall₂ (fun a b => a.rows.Perm b.rows) p.lineItems q.lineItems

/-- The payload with the keys inside its line items sorted. -/
def ExportPayload.sorted (p : ExportPayload) : ExportPayload := { p with lineItems := p.lineItems.map Dict.sorted }

section payload
variable {p q : ExportPayload}

theorem ExportPayload.sorted_inj : p.sorted = q.sorted ↔ p.Same q := by
  have hitems : p.lineItems.map Dict.sorted = q.lineItems.map Dict.sorted ↔
      List.Forall₂ (fun a b => a.rows.Perm b.rows) p.lineItems q.lineItems := by
    rw [← List.forall₂_eq_eq_eq, List.forall₂_map_left_iff, List.forall₂_map_right_iff]
    simp only [Dict.sorted_inj]
  constructor
  · intro h
    exact ⟨congrArg (fun r : ExportPayload => { r with lineItems := [] }) h,
      hitems.mp (congrArg ExportPayload.lineItems h)⟩
  · intro h
    have hfields := h.fields
    simp only [ExportPayload.mk.injEq] at hfields
    simp only [ExportPayload.sorted, hfields, hitems.mpr h.lineItems]

/-- The fields of `asdict(p)`, as a dict. -/
def ExportPayload.dict (p : ExportPayload) : Dict Json where
  rows :=
    match p.asdict with
    | .obj fields => fields
    | _ => []
  nodup := by
    change List.Nodup ["contract_version", "invoice_id", "status", "supplier_name", "supplier_tax_id",
      "invoice_number", "invoice_date", "currency", "subtotal", "tax_amount", "total", "line_items", "vendor_id",
      "vendor_name", "po_id", "po_number", "approved_by", "approved_reason", "exported_at"]
    decide

theorem ExportPayload.asdict_eq (p : ExportPayload) : p.asdict = .obj p.dict.rows := rfl

/-- What is loaded of a payload, as a dict. -/
def ExportPayload.loaded (p : ExportPayload) : Dict Json := (p.dict.mapValues Json.sortKeys).sorted

theorem ExportPayload.get_loaded (p : ExportPayload) (k : String) :
    p.loaded.get k = (p.dict.get k).map Json.sortKeys := by
  rw [loaded, Dict.get_sorted, Dict.get_mapValues]

theorem ExportPayload.str?_loaded (p : ExportPayload) {k s : String} (h : p.dict.get k = some (.str s)) :
    (p.loaded.get k).bind Json.str? = some s := by
  rw [p.get_loaded, h, Option.map_some, Json.sortKeys]
  rfl

theorem ExportPayload.text?_loaded (p : ExportPayload) {k : String} {o : Option String}
    (h : p.dict.get k = some (.ofOption o)) : (p.loaded.get k).bind Json.text? = some o := by
  rw [p.get_loaded, h, Option.map_some, Json.sortKeys_ofOption, Option.bind_some, Json.text?_ofOption]

theorem ExportPayload.items?_loaded (p : ExportPayload) :
    (p.loaded.get "line_items").bind Json.items? = some (p.lineItems.map Dict.sorted) := by
  have hget : p.dict.get "line_items" =
      some (.arr (p.lineItems.map fun li => .obj (li.mapValues Json.ofOption).rows)) := rfl
  rw [p.get_loaded, hget, Option.map_some, Option.bind_some, Json.items?_sorted]

theorem bind_of_eq {α β : Type} {o : Option α} {f : α → Option β} {a : α} {r : Option β} (h : o = some a)
    (hf : f a = r) : o >>= f = r := by
  rw [h]
  exact hf

/-- **What was signed is read back**: the bytes of a payload are JSON, of the
payload with its line items' keys sorted. -/
theorem payloadOf_loads (p : ExportPayload) : (Json.loads p.toJsonBytes).bind Json.payload? = some p.sorted := by
  have hdict : p.asdict.sortKeys.dict? = some p.loaded := by
    rw [p.asdict_eq, Json.sortKeys_obj, Json.dict?_obj]
    rfl
  rw [ExportPayload.toJsonBytes, Json.loads_toBytes, Option.bind_some, Json.payload?]
  refine bind_of_eq hdict ?_
  -- The fields in the order they are read.
  refine bind_of_eq (p.str?_loaded rfl) ?_
  refine bind_of_eq (p.str?_loaded rfl) ?_
  refine bind_of_eq (p.str?_loaded rfl) ?_
  refine bind_of_eq (p.text?_loaded rfl) ?_
  refine bind_of_eq (p.text?_loaded rfl) ?_
  refine bind_of_eq (p.text?_loaded rfl) ?_
  refine bind_of_eq (p.text?_loaded rfl) ?_
  refine bind_of_eq (p.text?_loaded rfl) ?_
  refine bind_of_eq (p.text?_loaded rfl) ?_
  refine bind_of_eq (p.text?_loaded rfl) ?_
  refine bind_of_eq (p.text?_loaded rfl) ?_
  refine bind_of_eq p.items?_loaded ?_
  refine bind_of_eq (p.text?_loaded rfl) ?_
  refine bind_of_eq (p.text?_loaded rfl) ?_
  refine bind_of_eq (p.text?_loaded rfl) ?_
  refine bind_of_eq (p.text?_loaded rfl) ?_
  refine bind_of_eq (p.text?_loaded rfl) ?_
  refine bind_of_eq (p.text?_loaded rfl) ?_
  refine bind_of_eq (p.str?_loaded rfl) ?_
  rfl

theorem sortKeys_asdict_sorted (p : ExportPayload) : p.sorted.asdict.sortKeys = p.asdict.sortKeys := by
  have hitem : ∀ li : Dict (Option String), (Json.obj (li.sorted.mapValues Json.ofOption).rows).sortKeys =
      (Json.obj (li.mapValues Json.ofOption).rows).sortKeys := fun li => by
    rw [Json.sortKeys_item, Json.sortKeys_item, li.sorted_sorted]
  have hitems : (Json.arr (p.sorted.lineItems.map fun li => .obj (li.mapValues Json.ofOption).rows)).sortKeys =
      (Json.arr (p.lineItems.map fun li => .obj (li.mapValues Json.ofOption).rows)).sortKeys := by
    rw [Json.sortKeys, Json.sortKeys, Json.sortItems_eq, Json.sortItems_eq, ExportPayload.sorted, List.map_map,
      List.map_map, List.map_map]
    exact congrArg Json.arr (List.map_congr_left fun li _ => hitem li)
  simp only [Dict.mapValues] at hitems
  simp only [ExportPayload.asdict, Json.sortKeys.eq_def (.obj _), Json.sortFields, hitems]
  rfl

/-- **The encoding is canonical**: the bytes are the same for payloads that
are the same up to the order of their line items' keys, and for no others. -/
theorem toJsonBytes_inj : p.toJsonBytes = q.toJsonBytes ↔ p.Same q := by
  rw [← ExportPayload.sorted_inj]
  constructor
  · intro h
    exact Option.some.inj (by rw [← payloadOf_loads, h, payloadOf_loads])
  · intro h
    rw [ExportPayload.toJsonBytes, ExportPayload.toJsonBytes, Json.toBytes_inj, ← sortKeys_asdict_sorted p, h,
      sortKeys_asdict_sorted]

/-! ## Signatures -/

theorem digitChar_inj {m n : Nat} (hm : m < 16) (hn : n < 16) (h : Nat.digitChar m = Nat.digitChar n) : m = n :=
  Option.some.inj (by rw [← Json.hexValue_digitChar m hm, h, Json.hexValue_digitChar n hn])

/-- Hexadecimal text names its bytes. -/
theorem hexdigest_injective : Function.Injective hexdigest := by
  intro bs
  induction bs with
  | nil =>
    intro cs h
    cases cs with
    | nil => rfl
    | cons c cs => cases String.ofList_injective h
  | cons b bs ih =>
    intro cs h
    cases cs with
    | nil => cases String.ofList_injective h
    | cons c cs =>
      have hb : b.toNat < 256 := b.toNat_lt
      have hc : c.toNat < 256 := c.toNat_lt
      obtain ⟨hhigh, htail⟩ := List.cons.inj (String.ofList_injective h)
      obtain ⟨hlow, hrest⟩ := List.cons.inj htail
      have hhigh := digitChar_inj (by omega) (by omega) hhigh
      have hlow := digitChar_inj (by omega) (by omega) hlow
      rw [ih (congrArg String.ofList hrest), UInt8.toNat_inj.mp (show b.toNat = c.toNat by omega)]

/-- `sign_payload`, over a keyed hash. -/
def signPayloadWith (mac : Bytes → Bytes → Bytes) (payload : Bytes) (secret : String) : String :=
  hexdigest (mac (utf8 secret) payload)

/-- `verify_signature`, over a keyed hash. -/
def verifySignatureWith (mac : Bytes → Bytes → Bytes) (payload : Bytes) (secret signature : String) : Bool :=
  signPayloadWith mac payload secret == signature

theorem signPayload_eq : signPayload = signPayloadWith Sha256.hmac := rfl

theorem verifySignature_eq : verifySignature = verifySignatureWith Sha256.hmac := rfl

/-- Where the keyed hash tells messages apart, a signature is that of one
message. -/
theorem verifySignatureWith_iff {mac : Bytes → Bytes → Bytes} {m m' : Bytes} {secret : String}
    (hmac : Function.Injective (mac (utf8 secret))) :
    verifySignatureWith mac m' secret (signPayloadWith mac m secret) = true ↔ m' = m := by
  rw [verifySignatureWith, beq_iff_eq, signPayloadWith, signPayloadWith, hexdigest_injective.eq_iff, hmac.eq_iff]

/-- **The signed encoding**: it determines the payload up to the order of the
keys inside its line items, read as JSON it is that payload, and under a
keyed hash that tells messages apart no other payload has its signature. The
code's keyed hash is HMAC-SHA256. -/
theorem encoding_canonical (p q : ExportPayload) :
    (p.toJsonBytes = q.toJsonBytes ↔ p.Same q) ∧
    (∃ p', (Json.loads p.toJsonBytes).bind Json.payload? = some p' ∧ p.Same p') ∧
    (∀ (mac : Bytes → Bytes → Bytes) (secret : String), Function.Injective (mac (utf8 secret)) →
      (verifySignatureWith mac q.toJsonBytes secret (signPayloadWith mac p.toJsonBytes secret) = true ↔ p.Same q)) ∧
    signPayload = signPayloadWith Sha256.hmac ∧ verifySignature = verifySignatureWith Sha256.hmac := by
  refine ⟨toJsonBytes_inj, ⟨p.sorted, payloadOf_loads p, ?_⟩, fun mac secret hmac => ?_, signPayload_eq,
    verifySignature_eq⟩
  · exact ExportPayload.sorted_inj.mp (by simp only [ExportPayload.sorted, List.map_map, Function.comp_def,
      Dict.sorted_sorted])
  · rw [verifySignatureWith_iff hmac, eq_comm]
    exact toJsonBytes_inj

end payload

namespace Sample

def descriptionFirst : Dict (Option String) := ⟨[("description", some "bolts \"M8\""), ("quantity", none)], by decide⟩

def quantityFirst : Dict (Option String) := ⟨[("quantity", none), ("description", some "bolts \"M8\"")], by decide⟩

def bolts (item : Dict (Option String)) : ExportPayload where
  contractVersion := contractVersion
  invoiceId := (uuid 5).str
  status := "approved"
  supplierName := some "Schraubenhändler 🔩"
  supplierTaxId := none
  invoiceNumber := some "null"
  invoiceDate := none
  currency := some "EUR"
  subtotal := none
  taxAmount := none
  total := some "100.00"
  lineItems := [item]
  vendorId := none
  vendorName := none
  poId := none
  poNumber := none
  approvedBy := some "reviewer"
  approvedReason := none
  exportedAt := "2024-05-18T09:30:00+00:00"

/-- The two orders of one item's keys, under a keyed hash that keeps the
message. -/
theorem encoding_of_bolts : (bolts descriptionFirst).toJsonBytes = (bolts quantityFirst).toJsonBytes ∧
    verifySignatureWith (fun key m => key ++ m) (bolts quantityFirst).toJsonBytes "secret"
      (signPayloadWith (fun key m => key ++ m) (bolts descriptionFirst).toJsonBytes "secret") = true := by
  have hsame : (bolts descriptionFirst).Same (bolts quantityFirst) := ⟨rfl, .cons (List.Perm.swap _ _ _) .nil⟩
  obtain ⟨hbytes, -, hsigned, -⟩ := encoding_canonical (bolts descriptionFirst) (bolts quantityFirst)
  exact ⟨hbytes.mpr hsame, (hsigned _ _ fun _ _ h => List.append_cancel_left h).mpr hsame⟩

end Sample

end InvoiceOps
