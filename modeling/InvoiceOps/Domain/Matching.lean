/-
Deterministic vendor and PO matching: an ordered list of increasingly fuzzy
checks, the first unambiguous hit wins, and anything short of that is
recorded, not guessed.
-/
import InvoiceOps.Domain.Extraction

namespace InvoiceOps

/-- A fuzzy hit below this similarity is no candidate. -/
def fuzzyFloor : ℚ := PyFloat.double (60 / 100)
/-- A fuzzy hit at or above this, with a clear lead, is accepted. -/
def fuzzyAutoAccept : ℚ := PyFloat.double (88 / 100)
/-- A clear lead. -/
def fuzzyAmbiguityGap : ℚ := PyFloat.double (8 / 100)

def normalizeText (py : Py) (value : Option String) : String :=
  if Py.truthy value then Py.join " " (py.split (py.lower (py.strip (value.getD "")))) else ""

/-- For tax ids and PO numbers: letters and digits alone, upper case. -/
def normalizeCode (py : Py) (value : Option String) : String :=
  if Py.truthy value then String.ofList ((py.upper (value.getD "")).toList.filter py.isalnum) else ""

structure VendorIdentity where
  vendorId : Uuid
  legalName : String
  taxId : Option String
  aliases : List String

structure VendorCandidate where
  vendorId : Uuid
  legalName : String
  score : ℚ

inductive VendorMatchMethod where
  | taxId
  | exactName
  | fuzzyName
  | ambiguous
  | none
  deriving DecidableEq

def VendorMatchMethod.value : VendorMatchMethod → String
  | .taxId => "tax_id"
  | .exactName => "exact_name"
  | .fuzzyName => "fuzzy_name"
  | .ambiguous => "ambiguous"
  | .none => "none"

structure VendorMatchResult where
  vendorId : Option Uuid
  method : VendorMatchMethod
  confidence : ℚ
  candidates : List VendorCandidate

/-- `max(scores, default=0.0)` -/
def bestScore : List ℚ → ℚ
  | [] => 0
  | s :: ss => ss.foldl max s

/-- The vendors at or above the floor, best first, ties in the given order. -/
def scoredVendors (py : Py) (name : String) (vendors : List VendorIdentity) : List VendorCandidate :=
  let scored := vendors.map fun v =>
    (⟨v.vendorId, v.legalName,
      bestScore ((v.legalName :: v.aliases).map fun n => py.ratio name (normalizeText py (some n)))⟩ :
        VendorCandidate)
  (scored.filter fun c => fuzzyFloor ≤ c.score).insertionSort fun a b => b.score ≤ a.score

/-- The fuzzy stage of `match_vendor`. -/
def matchFuzzy (py : Py) (name : String) (vendors : List VendorIdentity) : VendorMatchResult :=
  match scoredVendors py name vendors with
  | [] => ⟨none, .none, 0, []⟩
  | top :: rest =>
    let runnerUp := match rest with | [] => 0 | c :: _ => c.score
    if fuzzyAutoAccept ≤ top.score ∧ fuzzyAmbiguityGap ≤ PyFloat.double (top.score - runnerUp) then
      ⟨some top.vendorId, .fuzzyName, top.score, top :: rest⟩
    else ⟨none, .ambiguous, top.score, top :: rest⟩

/-- The name stages of `match_vendor`: exact, then fuzzy. -/
def matchName (py : Py) (extracted : ExtractedInvoice) (vendors : List VendorIdentity) : VendorMatchResult :=
  let name := normalizeText py extracted.supplierName
  if name = "" then ⟨none, .none, 0, []⟩
  else
    match vendors.filter fun v => name = normalizeText py (some v.legalName) ∨
        (v.aliases.map fun a => normalizeText py (some a)).contains name with
    | [v] => ⟨some v.vendorId, .exactName, PyFloat.double (95 / 100), []⟩
    | _ => matchFuzzy py name vendors

def matchVendor (py : Py) (extracted : ExtractedInvoice) (vendors : List VendorIdentity) : VendorMatchResult :=
  let taxId := normalizeCode py extracted.supplierTaxId
  if taxId = "" then matchName py extracted vendors
  else
    match vendors.filter fun v => normalizeCode py v.taxId = taxId with
    | [v] => ⟨some v.vendorId, .taxId, 1, []⟩
    | _ => matchName py extracted vendors

structure PoIdentity where
  poId : Uuid
  poNumber : String

inductive PoMatchMethod where
  | exactNumber
  | notFound
  | notProvided
  | ambiguous
  deriving DecidableEq

def PoMatchMethod.value : PoMatchMethod → String
  | .exactNumber => "exact_number"
  | .notFound => "not_found"
  | .notProvided => "not_provided"
  | .ambiguous => "ambiguous"

structure PoMatchResult where
  poId : Option Uuid
  method : PoMatchMethod

def matchPo (py : Py) (extracted : ExtractedInvoice) (purchaseOrders : List PoIdentity) : PoMatchResult :=
  let number := normalizeCode py extracted.purchaseOrderNumber
  if number = "" then ⟨none, .notProvided⟩
  else
    match purchaseOrders.filter fun po => normalizeCode py (some po.poNumber) = number with
    | [po] => ⟨some po.poId, .exactNumber⟩
    | [] => ⟨none, .notFound⟩
    | _ => ⟨none, .ambiguous⟩

/-- A PO is reported only from the list searched. -/
theorem mem_of_matchPo {py : Py} {extracted : ExtractedInvoice} {pos : List PoIdentity} {id : Uuid}
    (h : (matchPo py extracted pos).poId = some id) : ∃ po ∈ pos, po.poId = id := by
  unfold matchPo at h
  simp only at h
  split at h
  · cases h
  · split at h
    · next po hpo =>
      cases h
      have hmem : po ∈ pos.filter fun po => normalizeCode py (some po.poNumber) =
          normalizeCode py extracted.purchaseOrderNumber := by
        rw [hpo]
        exact List.mem_singleton_self po
      exact ⟨po, (List.mem_filter.mp hmem).1, rfl⟩
    · cases h
    · cases h

end InvoiceOps
