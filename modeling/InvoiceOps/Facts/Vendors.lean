/-
Vendor matching over any list of vendors: what each stage returns
(`matchVendor_cases`, `matchName_cases`, `matchFuzzy_cases`), that the order
of the list is of no account, that a tie is never broken, and what a tax id
has to do with the vendor returned.
-/
import InvoiceOps.Facts.Serial
import InvoiceOps.Lib.Ranking

namespace InvoiceOps

/-- The vendors with the invoice's tax id. -/
def taxHits (py : Py) (extracted : ExtractedInvoice) (vendors : List VendorIdentity) : List VendorIdentity :=
  vendors.filter fun v => normalizeCode py v.taxId = normalizeCode py extracted.supplierTaxId

/-- The tax-id stage resolves: one vendor has the invoice's tax id. -/
def TaxResolved (py : Py) (extracted : ExtractedInvoice) (vendors : List VendorIdentity) : Prop :=
  normalizeCode py extracted.supplierTaxId ≠ "" ∧ (taxHits py extracted vendors).length = 1

/-- The vendors with `name` for their legal name or an alias. -/
def nameHits (py : Py) (name : String) (vendors : List VendorIdentity) : List VendorIdentity :=
  vendors.filter fun v => name = normalizeText py (some v.legalName) ∨
    (v.aliases.map fun a => normalizeText py (some a)).contains name

/-- The best similarity of a vendor's names. -/
def nameScore (py : Py) (name : String) (v : VendorIdentity) : ℚ :=
  bestScore ((v.legalName :: v.aliases).map fun n => py.ratio name (normalizeText py (some n)))

section cases
variable {py : Py} {extracted : ExtractedInvoice} {vendors : List VendorIdentity} {name : String}

theorem matchVendor_cases (py : Py) (extracted : ExtractedInvoice) (vendors : List VendorIdentity) :
    (∃ v, normalizeCode py extracted.supplierTaxId ≠ "" ∧ taxHits py extracted vendors = [v] ∧
      matchVendor py extracted vendors = ⟨some v.vendorId, .taxId, 1, []⟩) ∨
    ¬ TaxResolved py extracted vendors ∧ matchVendor py extracted vendors = matchName py extracted vendors := by
  unfold matchVendor
  dsimp only
  split
  · next h => exact .inr ⟨fun hr => hr.1 h, rfl⟩
  · next h =>
    split
    · next v hv => exact .inl ⟨v, h, hv, rfl⟩
    · next hnot =>
      refine .inr ⟨fun hr => ?_, rfl⟩
      obtain ⟨v, hv⟩ := List.length_eq_one_iff.mp hr.2
      exact hnot v hv

theorem matchName_cases (py : Py) (extracted : ExtractedInvoice) (vendors : List VendorIdentity) :
    (normalizeText py extracted.supplierName = "" ∧ matchName py extracted vendors = ⟨none, .none, 0, []⟩) ∨
    normalizeText py extracted.supplierName ≠ "" ∧
      ((∃ v, nameHits py (normalizeText py extracted.supplierName) vendors = [v] ∧
        matchName py extracted vendors = ⟨some v.vendorId, .exactName, PyFloat.double (95 / 100), []⟩) ∨
      (nameHits py (normalizeText py extracted.supplierName) vendors).length ≠ 1 ∧
        matchName py extracted vendors = matchFuzzy py (normalizeText py extracted.supplierName) vendors) := by
  unfold matchName
  dsimp only
  split
  · next h => exact .inl ⟨h, rfl⟩
  · next h =>
    split
    · next v hv => exact .inr ⟨h, .inl ⟨v, hv, rfl⟩⟩
    · next hnot =>
      refine .inr ⟨h, .inr ⟨fun hone => ?_, rfl⟩⟩
      obtain ⟨v, hv⟩ := List.length_eq_one_iff.mp hone
      exact hnot v hv

/-- The score of the second candidate, 0 when there is none. -/
def runnerUp : List VendorCandidate → ℚ
  | [] => 0
  | c :: _ => c.score

/-- The first candidate is accepted. -/
def Leads (top : VendorCandidate) (rest : List VendorCandidate) : Prop :=
  fuzzyAutoAccept ≤ top.score ∧ fuzzyAmbiguityGap ≤ PyFloat.double (top.score - runnerUp rest)

theorem matchFuzzy_cases (py : Py) (name : String) (vendors : List VendorIdentity) :
    (scoredVendors py name vendors = [] ∧ matchFuzzy py name vendors = ⟨none, .none, 0, []⟩) ∨
    ∃ top rest, scoredVendors py name vendors = top :: rest ∧
      (Leads top rest ∧ matchFuzzy py name vendors = ⟨some top.vendorId, .fuzzyName, top.score, top :: rest⟩ ∨
        ¬ Leads top rest ∧ matchFuzzy py name vendors = ⟨none, .ambiguous, top.score, top :: rest⟩) := by
  unfold matchFuzzy
  split
  · next h => exact .inl ⟨h, rfl⟩
  · next top rest h =>
    refine .inr ⟨top, rest, h, ?_⟩
    by_cases hl : Leads top rest
    · exact .inl ⟨hl, by cases rest <;> exact if_pos hl⟩
    · exact .inr ⟨hl, by cases rest <;> exact if_neg hl⟩

/-! ## Ranking -/

/-- The candidate a vendor is ranked as. -/
def candidateOf (py : Py) (name : String) (v : VendorIdentity) : VendorCandidate :=
  ⟨v.vendorId, v.legalName, nameScore py name v⟩

theorem scoredVendors_eq (py : Py) (name : String) (vendors : List VendorIdentity) :
    scoredVendors py name vendors = ((vendors.map (candidateOf py name)).filter fun c => fuzzyFloor ≤ c.score).insertionSort
      fun a b => b.score ≤ a.score := rfl

theorem ranked_scoredVendors (py : Py) (name : String) (vendors : List VendorIdentity) :
    Ranking.Ranked VendorCandidate.score (scoredVendors py name vendors) :=
  Ranking.ranked_insertionSort VendorCandidate.score _

theorem scoredVendors_perm {vendors' : List VendorIdentity} (h : vendors.Perm vendors') :
    (scoredVendors py name vendors).Perm (scoredVendors py name vendors') := by
  rw [scoredVendors_eq, scoredVendors_eq]
  refine (List.perm_insertionSort _ _).trans (.trans ?_ (List.perm_insertionSort _ _).symm)
  exact (h.map _).filter _

theorem gap_pos : 0 < fuzzyAmbiguityGap := by decide +kernel

/-- A candidate that leads is ahead of every other one. -/
theorem Leads.lt {top : VendorCandidate} {rest : List VendorCandidate} (h : Leads top rest)
    (hr : Ranking.Ranked VendorCandidate.score (top :: rest)) : ∀ c ∈ rest, c.score < top.score := by
  cases rest with
  | nil => exact fun c hc => by cases hc
  | cons b rest =>
    have hlt : b.score < top.score := by
      refine lt_of_le_of_ne (Ranking.le_head hr (List.mem_cons_self ..)) fun he => ?_
      have hgap := h.2
      rw [runnerUp, he, sub_self, show PyFloat.double 0 = 0 from if_pos rfl] at hgap
      exact absurd hgap (not_le.mpr gap_pos)
    intro c hc
    rcases List.mem_cons.mp hc with rfl | hc
    · exact hlt
    · exact (Ranking.le_head (List.Pairwise.of_cons hr) hc).trans_lt hlt

/-! ## The order of the vendors -/

/-- The two results differ at most in the order of tied candidates. -/
structure SameMatch (r r' : VendorMatchResult) : Prop where
  vendorId : r.vendorId = r'.vendorId
  method : r.method = r'.method
  confidence : r.confidence = r'.confidence
  candidates : r.candidates.Perm r'.candidates

theorem SameMatch.refl (r : VendorMatchResult) : SameMatch r r := ⟨rfl, rfl, rfl, .refl _⟩

theorem runnerUp_eq {rest rest' : List VendorCandidate} (h : rest.map (·.score) = rest'.map (·.score)) :
    runnerUp rest = runnerUp rest' := by
  cases rest <;> cases rest' <;> simp_all [runnerUp]

theorem matchFuzzy_perm {vendors' : List VendorIdentity} (h : vendors.Perm vendors') :
    SameMatch (matchFuzzy py name vendors) (matchFuzzy py name vendors') := by
  have hperm : (scoredVendors py name vendors).Perm (scoredVendors py name vendors') := scoredVendors_perm h
  have hr := ranked_scoredVendors py name vendors
  have hr' := ranked_scoredVendors py name vendors'
  rcases matchFuzzy_cases py name vendors with ⟨hs, hm⟩ | ⟨top, rest, hs, hm⟩ <;>
    rcases matchFuzzy_cases py name vendors' with ⟨hs', hm'⟩ | ⟨top', rest', hs', hm'⟩ <;>
    rw [hs, hs'] at hperm
  · rw [hm, hm']
    exact .refl _
  · exact absurd hperm.length_eq (by simp)
  · exact absurd hperm.length_eq (by simp)
  · rw [hs] at hr
    rw [hs'] at hr'
    obtain ⟨htop, hrest⟩ := List.cons.inj (Ranking.scores_eq_of_perm hperm hr hr')
    have hleads : Leads top rest ↔ Leads top' rest' := by
      rw [Leads, Leads, htop, runnerUp_eq hrest]
    rcases hm with ⟨hl, hm⟩ | ⟨hl, hm⟩ <;> rcases hm' with ⟨hl', hm'⟩ | ⟨hl', hm'⟩
    · rw [hm, hm']
      obtain rfl := Ranking.head_eq_of_perm hperm hr hr' (hl.lt hr)
      exact ⟨rfl, rfl, rfl, hperm⟩
    · exact absurd (hleads.mp hl) hl'
    · exact absurd (hleads.mpr hl') hl
    · rw [hm, hm']
      exact ⟨rfl, rfl, htop, hperm⟩

theorem matchName_perm {vendors' : List VendorIdentity} (h : vendors.Perm vendors') :
    SameMatch (matchName py extracted vendors) (matchName py extracted vendors') := by
  have hperm : (nameHits py (normalizeText py extracted.supplierName) vendors).Perm
      (nameHits py (normalizeText py extracted.supplierName) vendors') := h.filter _
  rcases matchName_cases py extracted vendors with
    ⟨hn, hm⟩ | ⟨hn, ⟨v, hv, hm⟩ | ⟨hv, hm⟩⟩ <;>
  rcases matchName_cases py extracted vendors' with
    ⟨hn', hm'⟩ | ⟨hn', ⟨v', hv', hm'⟩ | ⟨hv', hm'⟩⟩ <;>
  rw [hm, hm']
  · exact .refl _
  · exact absurd hn hn'
  · exact absurd hn hn'
  · exact absurd hn' hn
  · rw [hv, hv', List.singleton_perm_singleton] at hperm
    rw [hperm]
    exact .refl _
  · exact absurd (hperm.length_eq.symm.trans (by rw [hv]; rfl)) hv'
  · exact absurd hn' hn
  · exact absurd (hperm.length_eq.trans (by rw [hv']; rfl)) hv
  · exact matchFuzzy_perm h

theorem matchVendor_perm {vendors' : List VendorIdentity} (h : vendors.Perm vendors') :
    SameMatch (matchVendor py extracted vendors) (matchVendor py extracted vendors') := by
  have hperm : (taxHits py extracted vendors).Perm (taxHits py extracted vendors') := h.filter _
  rcases matchVendor_cases py extracted vendors with ⟨v, ht, hv, hm⟩ | ⟨hv, hm⟩ <;>
  rcases matchVendor_cases py extracted vendors' with
    ⟨v', ht', hv', hm'⟩ | ⟨hv', hm'⟩ <;>
  rw [hm, hm']
  · rw [hv, hv', List.singleton_perm_singleton] at hperm
    rw [hperm]
    exact .refl _
  · exact absurd ⟨ht, hperm.length_eq.symm.trans (by rw [hv]; rfl)⟩ hv'
  · exact absurd ⟨ht', hperm.length_eq.trans (by rw [hv']; rfl)⟩ hv
  · exact matchName_perm h

theorem ranked_candidates (py : Py) (extracted : ExtractedInvoice) (vendors : List VendorIdentity) :
    Ranking.Ranked VendorCandidate.score (matchVendor py extracted vendors).candidates := by
  have hnil : Ranking.Ranked VendorCandidate.score [] := List.Pairwise.nil
  rcases matchVendor_cases py extracted vendors with ⟨v, -, -, hm⟩ | ⟨-, hm⟩
  · rw [hm]
    exact hnil
  rcases matchName_cases py extracted vendors with
    ⟨-, hn⟩ | ⟨-, ⟨v, -, hn⟩ | ⟨-, hn⟩⟩ <;> rw [hm, hn]
  · exact hnil
  · exact hnil
  have hr := ranked_scoredVendors py (normalizeText py extracted.supplierName) vendors
  rcases matchFuzzy_cases py (normalizeText py extracted.supplierName) vendors with
    ⟨-, hf⟩ | ⟨top, rest, hs, ⟨-, hf⟩ | ⟨-, hf⟩⟩ <;> rw [hf]
  · exact hnil
  · rwa [hs] at hr
  · rwa [hs] at hr

/-! ## Ties -/

theorem foldl_max_le {b : ℚ} : ∀ {ss : List ℚ} {s : ℚ}, s ≤ b → (∀ x ∈ ss, x ≤ b) → ss.foldl max s ≤ b
  | [], _, hs, _ => hs
  | x :: ss, _, hs, h => by
    rw [List.foldl_cons]
    exact foldl_max_le (max_le hs (h x (List.mem_cons_self ..))) fun y hy => h y (List.mem_cons_of_mem _ hy)

theorem le_foldl_max {x : ℚ} : ∀ {ss : List ℚ} {s : ℚ}, x ≤ s ∨ x ∈ ss → x ≤ ss.foldl max s
  | [], _, h => h.elim (fun h => h) fun h => by cases h
  | y :: ss, s, h => by
    rw [List.foldl_cons]
    refine le_foldl_max ?_
    rcases h with h | h
    · exact .inl (h.trans (le_max_left ..))
    · rcases List.mem_cons.mp h with rfl | h
      · exact .inl (le_max_right ..)
      · exact .inr h

/-- What is assumed of the similarity. -/
structure Similarity (ratio : String → String → ℚ) : Prop where
  nonneg : ∀ a b, 0 ≤ ratio a b
  le_one : ∀ a b, ratio a b ≤ 1
  self : ∀ a, ratio a a = 1

theorem nameScore_le (h : Similarity py.ratio) (v : VendorIdentity) : nameScore py name v ≤ 1 := by
  refine foldl_max_le (h.le_one _ _) fun x hx => ?_
  obtain ⟨n, -, rfl⟩ := List.mem_map.mp hx
  exact h.le_one _ _

/-- A vendor with the name scores 1. -/
theorem nameScore_hit (h : Similarity py.ratio) {v : VendorIdentity} (hv : v ∈ nameHits py name vendors) :
    nameScore py name v = 1 := by
  have hone : ∀ n, name = normalizeText py (some n) → py.ratio name (normalizeText py (some n)) = 1 := by
    rintro n rfl
    exact h.self _
  refine le_antisymm (nameScore_le h v) ?_
  have hname := (List.mem_filter.mp hv).2
  rw [decide_eq_true_eq, List.contains_iff_mem] at hname
  refine le_foldl_max ?_
  rcases hname with hn | hn
  · exact .inl (hone _ hn).ge
  · obtain ⟨a, ha, he⟩ := List.mem_map.mp hn
    refine .inr (List.mem_map.mpr ⟨a, ha, hone a he.symm⟩)

theorem floor_le_one : fuzzyFloor ≤ 1 := by decide +kernel

/-- Two vendors with the name tie for the first place. -/
theorem matchFuzzy_tie (h : Similarity py.ratio) (htwo : 2 ≤ (nameHits py name vendors).length) :
    (matchFuzzy py name vendors).vendorId = none ∧ (matchFuzzy py name vendors).method = .ambiguous := by
  have hr := ranked_scoredVendors py name vendors
  have hle : ∀ c ∈ scoredVendors py name vendors, c.score ≤ 1 := by
    intro c hc
    rw [scoredVendors_eq, List.mem_insertionSort] at hc
    obtain ⟨v, -, rfl⟩ := List.mem_map.mp (List.mem_filter.mp hc).1
    exact nameScore_le h v
  have hcount : 2 ≤ (scoredVendors py name vendors).countP fun c => c.score = 1 := by
    rw [scoredVendors_eq, (List.perm_insertionSort _ _).countP_eq, List.countP_filter, List.countP_map]
    refine htwo.trans ?_
    rw [nameHits, ← List.countP_eq_length_filter]
    refine List.countP_mono_left fun v hv hn => ?_
    have hs := nameScore_hit h (List.mem_filter.mpr ⟨hv, hn⟩)
    simp only [Function.comp, candidateOf, hs, decide_true, Bool.true_and, decide_eq_true_eq]
    exact floor_le_one
  obtain ⟨a, b, rest, hs, ha, hb⟩ := Ranking.tie_of_two hr hle hcount
  rcases matchFuzzy_cases py name vendors with ⟨hs', -⟩ | ⟨top, rest', hs', hm⟩
  · rw [hs] at hs'
    cases hs'
  rw [hs] at hs' hr
  cases hs'
  rcases hm with ⟨hl, -⟩ | ⟨-, hm⟩
  · exact absurd (hl.lt hr b (List.mem_cons_self ..)) (by rw [ha, hb]; exact lt_irrefl _)
  · rw [hm]
    exact ⟨rfl, rfl⟩

/-- **Order and ties.** The order of the vendors decides nothing but the
places of tied candidates; and when several vendors have the supplier's name,
and the tax id has not decided, none of them is picked. -/
theorem matchVendor_order {vendors' : List VendorIdentity} (hsim : Similarity py.ratio) (h : vendors.Perm vendors') :
    SameMatch (matchVendor py extracted vendors) (matchVendor py extracted vendors') ∧
      Ranking.Ranked VendorCandidate.score (matchVendor py extracted vendors).candidates ∧
      (¬ TaxResolved py extracted vendors → normalizeText py extracted.supplierName ≠ "" →
        2 ≤ (nameHits py (normalizeText py extracted.supplierName) vendors).length →
        (matchVendor py extracted vendors).vendorId = none ∧
          (matchVendor py extracted vendors).method = .ambiguous) := by
  refine ⟨matchVendor_perm h, ranked_candidates py extracted vendors, fun htax hname htwo => ?_⟩
  have hm : matchVendor py extracted vendors =
      matchFuzzy py (normalizeText py extracted.supplierName) vendors := by
    rcases matchVendor_cases py extracted vendors with ⟨v, ht, hv, -⟩ | ⟨-, hm⟩
    · exact absurd ⟨ht, by rw [hv]; rfl⟩ htax
    rcases matchName_cases py extracted vendors with
      ⟨hn, -⟩ | ⟨-, ⟨v, hv, -⟩ | ⟨-, hn⟩⟩
    · exact absurd hn hname
    · rw [hv] at htwo
      simp at htwo
    · exact hm.trans hn
  rw [hm]
  exact matchFuzzy_tie hsim htwo

/-! ## Tax ids -/

theorem mem_of_taxHits {v : VendorIdentity} (h : taxHits py extracted vendors = [v]) :
    v ∈ vendors ∧ normalizeCode py v.taxId = normalizeCode py extracted.supplierTaxId := by
  have hmem : v ∈ taxHits py extracted vendors := by
    rw [h]
    exact List.mem_singleton_self v
  obtain ⟨hv, hcode⟩ := List.mem_filter.mp hmem
  exact ⟨hv, of_decide_eq_true hcode⟩

/-- The name stages return one of the vendors, or none. -/
theorem matchName_resolved (py : Py) (extracted : ExtractedInvoice) (vendors : List VendorIdentity) :
    (∃ v ∈ vendors, (matchName py extracted vendors).vendorId = some v.vendorId ∧
      (matchName py extracted vendors).method ∈ [VendorMatchMethod.exactName, .fuzzyName]) ∨
    (matchName py extracted vendors).vendorId = none ∧
      (matchName py extracted vendors).method ∈ [VendorMatchMethod.ambiguous, .none] := by
  rcases matchName_cases py extracted vendors with ⟨-, hn⟩ | ⟨-, ⟨v, hv, hn⟩ | ⟨-, hn⟩⟩
  · rw [hn]
    exact .inr ⟨rfl, by simp⟩
  · have hmem : v ∈ nameHits py (normalizeText py extracted.supplierName) vendors := by
      rw [hv]
      exact List.mem_singleton_self v
    rw [hn]
    exact .inl ⟨v, List.mem_of_mem_filter hmem, rfl, by simp⟩
  rcases matchFuzzy_cases py (normalizeText py extracted.supplierName) vendors with
    ⟨-, hf⟩ | ⟨top, rest, hs, ⟨-, hf⟩ | ⟨-, hf⟩⟩
  · rw [hn, hf]
    exact .inr ⟨rfl, by simp⟩
  · have hmem : top ∈ scoredVendors py (normalizeText py extracted.supplierName) vendors := by
      rw [hs]
      exact List.mem_cons_self
    rw [scoredVendors_eq, List.mem_insertionSort] at hmem
    obtain ⟨v, hv, rfl⟩ := List.mem_map.mp (List.mem_of_mem_filter hmem)
    rw [hn, hf]
    exact .inl ⟨v, hv, rfl, by simp⟩
  · rw [hn, hf]
    exact .inr ⟨rfl, by simp⟩

/-- **What the tax id decides.** When one vendor has it, that vendor is
returned; a vendor found by name is returned only when none or several have
it, and its own tax id is not looked at. -/
theorem taxId_of_matchVendor {id : Uuid} (ht : normalizeCode py extracted.supplierTaxId ≠ "")
    (h : (matchVendor py extracted vendors).vendorId = some id) : ∃ v ∈ vendors, v.vendorId = id ∧
      ((matchVendor py extracted vendors).method = .taxId ∧ (taxHits py extracted vendors).length = 1 ∧
        normalizeCode py v.taxId = normalizeCode py extracted.supplierTaxId ∨
      (matchVendor py extracted vendors).method ∈ [VendorMatchMethod.exactName, .fuzzyName] ∧
        (taxHits py extracted vendors).length ≠ 1) := by
  rcases matchVendor_cases py extracted vendors with ⟨v, -, hv, hm⟩ | ⟨htax, hm⟩
  · obtain ⟨hmem, hcode⟩ := mem_of_taxHits hv
    rw [hm] at h ⊢
    exact ⟨v, hmem, Option.some.inj h, .inl ⟨rfl, by rw [hv]; rfl, hcode⟩⟩
  · have hlen : (taxHits py extracted vendors).length ≠ 1 := fun hone => htax ⟨ht, hone⟩
    rw [hm] at h ⊢
    rcases matchName_resolved py extracted vendors with ⟨v, hv, hid, hmethod⟩ | ⟨hid, -⟩
    · exact ⟨v, hv, Option.some.inj (hid.symm.trans h), .inr ⟨hmethod, hlen⟩⟩
    · rw [hid] at h
      cases h

end cases

namespace Sample

theorem similarity_py : Similarity py.ratio where
  nonneg a b := by
    show 0 ≤ if a = b then (1 : ℚ) else 0
    split <;> norm_num
  le_one a b := by
    show (if a = b then (1 : ℚ) else 0) ≤ 1
    split <;> norm_num
  self a := if_pos rfl

/-- An invoice from a supplier with a name and a tax id. -/
def billed (name taxId : Option String) : ExtractedInvoice :=
  { plain.result.invoice with supplierName := name, supplierTaxId := taxId }

/-- Two suppliers of one name, and one of another. -/
def suppliers : List VendorIdentity :=
  [⟨uuid 1, "ACME", some "IT-1", []⟩, ⟨uuid 2, "Acme ", some "IT-2", []⟩, ⟨uuid 3, "Bolt", some "IT-3", []⟩]

/-- Two suppliers without a name. -/
def nameless : List VendorIdentity := [⟨uuid 1, "", none, []⟩, ⟨uuid 2, "", none, []⟩]

/-- "ACME" is ambiguous, in whichever order. -/
theorem matchVendor_order_suppliers :
    SameMatch (matchVendor py (billed (some "acme") none) suppliers)
        (matchVendor py (billed (some "acme") none) suppliers.reverse) ∧
      (matchVendor py (billed (some "acme") none) suppliers).method = .ambiguous := by
  obtain ⟨hsame, -, htie⟩ := @matchVendor_order py (billed (some "acme") none) _ _ similarity_py
    (List.reverse_perm suppliers).symm
  exact ⟨hsame, (htie (fun h => h.1 (by decide +kernel)) (by decide +kernel) (by decide +kernel)).2⟩

/-- An invoice without a supplier name is not ambiguous between vendors
without one. -/
theorem matchVendor_nameless : Similarity py.ratio ∧
    ¬ (¬ TaxResolved py (billed none none) nameless →
      2 ≤ (nameHits py (normalizeText py (billed none none).supplierName) nameless).length →
      (matchVendor py (billed none none) nameless).vendorId = none ∧
        (matchVendor py (billed none none) nameless).method = .ambiguous) := by
  refine ⟨similarity_py, fun h => ?_⟩
  have hfalse := (h (fun h => h.1 (by decide +kernel)) (by decide +kernel)).2
  exact absurd hfalse (by decide +kernel)

/-- A tax id nobody has: the name decides, for a vendor with another one. -/
theorem taxId_of_bolt : ∃ v ∈ suppliers, v.vendorId = uuid 3 ∧
    ((matchVendor py (billed (some "Bolt") (some "IT-9")) suppliers).method = .taxId ∧
        (taxHits py (billed (some "Bolt") (some "IT-9")) suppliers).length = 1 ∧
        normalizeCode py v.taxId = normalizeCode py (billed (some "Bolt") (some "IT-9")).supplierTaxId ∨
      (matchVendor py (billed (some "Bolt") (some "IT-9")) suppliers).method ∈ [VendorMatchMethod.exactName, .fuzzyName] ∧
        (taxHits py (billed (some "Bolt") (some "IT-9")) suppliers).length ≠ 1) :=
  taxId_of_matchVendor (by decide +kernel) (by decide +kernel)

/-- The vendor returned may have a tax id of its own that is not the
invoice's. -/
theorem taxId_contradicted : Similarity py.ratio ∧
    ¬ ∀ v ∈ suppliers, (matchVendor py (billed (some "Bolt") (some "IT-9")) suppliers).vendorId = some v.vendorId →
      normalizeCode py v.taxId = "" ∨
        normalizeCode py v.taxId = normalizeCode py (billed (some "Bolt") (some "IT-9")).supplierTaxId :=
  ⟨similarity_py, by decide +kernel⟩

end Sample

end InvoiceOps
