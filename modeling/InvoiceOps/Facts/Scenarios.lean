/-
Whether the eval's labels are right. For fixtures of whole cents they all
are exactly when the invoice itself passes, its number is not empty, its
total is three cents at least (a fifth of less is rounded away), and its
currency and supplier are not the ones the eval takes for others
(`Calibrated`); then, and only then, the eval reports a precision and a
recall of 1.0 (`figures_perfect_iff`).
-/
import InvoiceOps.Facts.Aggregate
import InvoiceOps.Facts.Discrepancy
import InvoiceOps.Facts.Scoring
import InvoiceOps.Facts.Tolerance

namespace InvoiceOps

open PyDecimal (defaultContext)

/-! ## Amounts in cents -/

section cents
variable {total factor : PyDecimal} {n k : ℕ} {m : ℤ}

theorem lt_overflowLimit : (10 : ℚ) ^ 29 < overflowLimit := by
  have ha : (1 : ℚ) ≤ 10 ^ (999970 : ℤ) := one_le_zpow₀ (by norm_num) (by norm_num)
  rw [overflowLimit_eq]
  generalize (10 : ℚ) ^ (999970 : ℤ) = a at ha
  norm_num
  linarith

/-- Cents of no more digits than the context has are exact. -/
theorem holds_cents (h : |m| ≤ 10 ^ 28) : decimals.Holds (m / 100) :=
  ⟨m, -2, by rw [zpow_neg, div_eq_mul_inv]; norm_num, by decide, by exact_mod_cast h⟩

/-- An amount times a number of tenths, rounded to cents. -/
theorem scaled_value (ht : total.toRat = n / 100) (hf : factor.toRat = k / 10) (h : n * k ≤ 10 ^ 28) :
    ∃ result, Discrepancy.scaled total factor = .ok result ∧
      result.toRat = Rounding.nearestEven (n * k / 10) / 100 := by
  have hv : total.toRat * factor.toRat = ((n * k : ℤ) : ℚ) * 10 ^ (-3 : ℤ) := by
    rw [ht, hf, zpow_neg]
    push_cast
    ring
  have hholds : decimals.Holds (total.toRat * factor.toRat) := by
    refine ⟨n * k, -3, hv, by decide, ?_⟩
    rw [abs_of_nonneg (by positivity)]
    exact_mod_cast h
  have hlt : |total.toRat * factor.toRat| < overflowLimit := by
    have hbound : ((n * k : ℤ) : ℚ) ≤ 10 ^ 28 := by exact_mod_cast h
    have hunit : (10 : ℚ) ^ (-3 : ℤ) = 1 / 1000 := by norm_num
    rw [hv, abs_of_nonneg (by positivity), hunit]
    linarith [lt_overflowLimit]
  have hproduct := (PyDecimal.mul_rounds (c := defaultContext) (by decide) etiny_le_etop total factor).value?
  change PyDecimal.value? _ = computed _ at hproduct
  rw [computed_eq, if_pos hlt, Rounding.Format.round_of_holds hholds] at hproduct
  obtain ⟨product, hok, hval⟩ : ∃ product, total.mul defaultContext factor = .ok product ∧
      product.toRat = total.toRat * factor.toRat := by
    cases hm : total.mul defaultContext factor with
    | error e => rw [hm] at hproduct; cases hproduct
    | ok product => rw [hm] at hproduct; exact ⟨product, rfl, Option.some.inj hproduct⟩
  have hcents : cents product = Rounding.nearestEven (n * k / 10) := by
    rw [cents, hval, hv]
    congr 1
    rw [zpow_neg]
    push_cast
    ring
  have hlow : (0 : ℤ) ≤ cents product := by
    rw [hcents, ← Rounding.nearestEven_intCast 0]
    exact Rounding.nearestEven_mono (by positivity)
  have hhigh : cents product ≤ 10 ^ 27 := by
    rw [hcents, ← Rounding.nearestEven_intCast (10 ^ 27)]
    refine Rounding.nearestEven_mono ?_
    have hbound : ((n * k : ℕ) : ℚ) ≤ 10 ^ 28 := by exact_mod_cast h
    push_cast at hbound ⊢
    linarith
  have hq : product.quantize defaultContext (-2) = some (product.rescale (-2)) := by
    rw [quantize_cents, if_pos (by omega)]
  refine ⟨product.rescale (-2), ?_, ?_⟩
  · rw [Discrepancy.scaled, hok, PyDecimal.ok_bind, hq]
    rfl
  · have hunit : (10 : ℚ) ^ (-2 : ℤ) = 1 / 100 := by norm_num
    rw [PyDecimal.toRat, rescale_cents, rescale_exp, hcents, hunit, mul_one_div]

/-- Against an order of cents a difference of cents is compared with 2%, up
to the rounding of the quotient. -/
theorem toleranceVerdict_cents (hn : 0 < n) (h : |m - n| ≤ 10 ^ 28) : toleranceVerdict (m / 100) (n / 100) =
    some (decide (|(m : ℚ) - n| ≤ (1 / 50 + 5 / 10 ^ 30) * n)) := by
  have hnq : (0 : ℚ) < n := by exact_mod_cast hn
  have hn1 : (1 : ℚ) ≤ n := by exact_mod_cast hn
  have hdiff : (m / 100 - n / 100 : ℚ) = ((m - n : ℤ) : ℚ) / 100 := by push_cast; ring
  have habs : |(m / 100 - n / 100 : ℚ)| = |(m : ℚ) - n| / 100 := by
    rw [hdiff, abs_div, abs_of_pos (show (0 : ℚ) < 100 by norm_num)]
    push_cast
    rfl
  have hbound : |(m : ℚ) - n| ≤ 10 ^ 28 := by exact_mod_cast h
  have hlimit := lt_overflowLimit
  have hpct : |(m / 100 - n / 100 : ℚ)| / (n / 100) = |(m : ℚ) - n| / n := by
    rw [habs]
    field_simp
  have hpct0 : 0 ≤ |(m : ℚ) - n| / n := by positivity
  have hpct1 : |(m : ℚ) - n| / n ≤ 10 ^ 28 := (div_le_self (abs_nonneg _) hn1).trans hbound
  rw [toleranceVerdict, computed_eq, if_pos (by rw [habs]; linarith), Option.bind_some,
    Rounding.Format.round_of_holds (by rw [hdiff]; exact holds_cents h), hpct, computed_eq,
    if_pos (by rw [abs_of_nonneg hpct0]; linarith), Option.map_some]
  congr 1
  rw [decide_eq_decide, round_le_tolerance, div_le_iff₀ hnq]

/-- A fifth more or less of three cents on is beyond the tolerance. -/
theorem beyond_tolerance (hn : 3 ≤ n) (hk : (k : ℚ) = 8 ∨ (k : ℚ) = 12) :
    ¬ |(Rounding.nearestEven (n * k / 10) : ℚ) - n| ≤ (1 / 50 + 5 / 10 ^ 30) * n := by
  have hnq : (3 : ℚ) ≤ n := by exact_mod_cast hn
  have hround := abs_le.mp (Rounding.abs_nearestEven_sub_le (n * k / 10))
  rw [abs_le, not_and_or, not_le, not_le]
  rcases hk with hk | hk
  · left
    rw [hk] at hround ⊢
    linarith [hround.2]
  · right
    rw [hk] at hround ⊢
    linarith [hround.1]

end cents

/-! ## The rules on a variant -/

section rules
variable {py : Py} {inp inp' : ValidationInput} {po : PoSnapshot} {s t : PyDecimal}

/-- A rule that may raise, as to whether it blocks. -/
def blocksOf (x : Except PyDecimal.Signal RuleResult) : Option Bool := x.toOption.map RuleResult.blocks

theorem blocking_eq_false_iff : blocking py inp = some false ↔
    (ruleRequiredFieldsPresent inp).blocks = false ∧ blocksOf (ruleArithmeticConsistency inp) = some false ∧
      blocksOf (ruleLineItemsSumToSubtotal inp) = some false ∧ blocksOf (rulePoAmountTolerance inp) = some false ∧
      (rulePoCurrencyMatch py inp).blocks = false ∧ (rulePoVendorMismatch inp).blocks = false ∧
      (ruleDuplicateInvoiceNumber py inp).blocks = false := by
  rw [blocking_eq, blocksOf, blocksOf, blocksOf]
  cases (ruleArithmeticConsistency inp).toOption with
  | none => simp
  | some arithmetic =>
    cases (ruleLineItemsSumToSubtotal inp).toOption with
    | none => simp
    | some lines =>
      cases (rulePoAmountTolerance inp).toOption with
      | none => simp
      | some amount => simp

theorem blocking_isSome_iff : (blocking py inp).isSome = true ↔ (blocksOf (ruleArithmeticConsistency inp)).isSome = true ∧
    (blocksOf (ruleLineItemsSumToSubtotal inp)).isSome = true ∧ (blocksOf (rulePoAmountTolerance inp)).isSome = true := by
  rw [blocking_eq, blocksOf, blocksOf, blocksOf]
  cases (ruleArithmeticConsistency inp).toOption with
  | none => simp
  | some arithmetic =>
    cases (ruleLineItemsSumToSubtotal inp).toOption with
    | none => simp
    | some lines => simp

/-- Blocked, that is, computed and not passed. -/
theorem blocking_eq_true_iff : blocking py inp = some true ↔
    (blocking py inp).isSome = true ∧ blocking py inp ≠ some false := by
  rcases blocking py inp with _ | _ | _ <;> simp

theorem arithmetic_blocks {subtotal tax : PyDecimal} (hs : inp.invoice.subtotal = some subtotal)
    (hx : inp.invoice.taxAmount = some tax) (ht : inp.invoice.total = some t) :
    blocksOf (ruleArithmeticConsistency inp) = (arithmeticVerdict subtotal.toRat tax.toRat t.toRat).map (!·) := by
  rw [← arithmetic_verdict hs hx ht, blocksOf]
  cases hr : ruleArithmeticConsistency inp with
  | error e => rfl
  | ok r =>
    unfold ruleArithmeticConsistency at hr
    simp only [hs, hx, ht, Except.bind_eq_ok] at hr
    obtain ⟨_, _, _, _, _, _, hr⟩ := hr
    cases hr
    exact congrArg some (blocks_severityOf rfl)

/-- With an amount missing there is nothing to add up. -/
theorem arithmetic_skipped (h : inp.invoice.subtotal = none ∨ inp.invoice.taxAmount = none) :
    blocksOf (ruleArithmeticConsistency inp) = some false := by
  unfold ruleArithmeticConsistency
  rcases h with h | h
  · simp only [h]
    rfl
  · cases hs : inp.invoice.subtotal with
    | none => rfl
    | some subtotal =>
      simp only [h]
      rfl

/-- The total is added up as a number. -/
theorem arithmetic_blocks_congr (hs : inp'.invoice.subtotal = inp.invoice.subtotal)
    (hx : inp'.invoice.taxAmount = inp.invoice.taxAmount) (ht : inp.invoice.total = some t)
    (ht' : inp'.invoice.total = some s) (h : s.toRat = t.toRat) :
    blocksOf (ruleArithmeticConsistency inp') = blocksOf (ruleArithmeticConsistency inp) := by
  cases hsub : inp.invoice.subtotal with
  | none => rw [arithmetic_skipped (.inl hsub), arithmetic_skipped (.inl (hs.trans hsub))]
  | some subtotal =>
    cases htax : inp.invoice.taxAmount with
    | none => rw [arithmetic_skipped (.inr htax), arithmetic_skipped (.inr (hx.trans htax))]
    | some tax =>
      rw [arithmetic_blocks hsub htax ht, arithmetic_blocks (hs.trans hsub) (hx.trans htax) ht', h]

/-- Where one total adds up, one near to it is compared. -/
theorem arithmetic_isSome (hs : inp'.invoice.subtotal = inp.invoice.subtotal)
    (hx : inp'.invoice.taxAmount = inp.invoice.taxAmount) (ht : inp.invoice.total = some t)
    (ht' : inp'.invoice.total = some s) (hnear : |s.toRat - t.toRat| ≤ 10 ^ 28)
    (h : blocksOf (ruleArithmeticConsistency inp) = some false) :
    (blocksOf (ruleArithmeticConsistency inp')).isSome = true := by
  cases hsub : inp.invoice.subtotal with
  | none => rw [arithmetic_skipped (.inl (hs.trans hsub))]; rfl
  | some subtotal =>
    cases htax : inp.invoice.taxAmount with
    | none => rw [arithmetic_skipped (.inr (hx.trans htax))]; rfl
    | some tax =>
      rw [arithmetic_blocks hsub htax ht, Option.map_eq_some_iff] at h
      obtain ⟨passed, hv, hp⟩ := h
      have hclose := (arithmeticVerdict_iff hv).mp (by simpa using hp)
      have hsum := (arithmeticVerdict_isSome.mp (by rw [hv]; rfl)).1
      rw [arithmetic_blocks (hs.trans hsub) (hx.trans htax) ht', Option.isSome_map, arithmeticVerdict_isSome]
      refine ⟨hsum, ?_⟩
      calc |decimals.round (subtotal.toRat + tax.toRat) - s.toRat|
          ≤ |decimals.round (subtotal.toRat + tax.toRat) - t.toRat| + |t.toRat - s.toRat| := abs_sub_le _ _ _
        _ ≤ (1 / 50 + 5 / 10 ^ 30) + 10 ^ 28 := add_le_add hclose (by rwa [abs_sub_comm])
        _ < overflowLimit := by linarith [lt_overflowLimit]

/-- An order of nothing only warns. -/
theorem amount_blocks_zero (hpo : inp.matchedPo = some po) (h : po.total.isZero = true) :
    blocksOf (rulePoAmountTolerance inp) = some false := by
  unfold rulePoAmountTolerance
  cases inp.invoice.total with
  | none => simp only [hpo]; rfl
  | some total => simp only [hpo, h, if_true]; rfl

theorem currency_blocks {currency : String} (hpo : inp.matchedPo = some po) (hc : inp.invoice.currency = some currency)
    (hne : currency ≠ "") : (rulePoCurrencyMatch py inp).blocks = true ↔
      py.upper (py.strip currency) ≠ py.upper (py.strip po.currency) := by
  have htruthy : Py.truthy inp.invoice.currency = true := by
    rw [hc]
    simpa [Py.truthy] using hne
  unfold rulePoCurrencyMatch
  simp only [hpo]
  rw [if_pos htruthy, hc, Option.getD_some, blocks_severityOf rfl]
  simp

end rules

/-! ## The decision on a variant -/

section decision
variable {py : Py} {invoice : ExtractedInvoice} {vendor : VendorIdentity} {po : Option PoIdentity} {poTotal : PyDecimal}
  {poCurrency : String} {others : List ExtractedInvoice} {f : Fixture}

/-- The eval decides where the rules raise nothing. -/
theorem decides_iff (uuid4 : Nat → Uuid) :
    (∃ b, Discrepancy.decide py uuid4 invoice vendor po poTotal poCurrency others = .ok b) ↔
      (blocking py ⟨invoice, Discrepancy.matchedPo py invoice vendor po poTotal poCurrency,
        (matchVendor py invoice [vendor]).vendorId, []⟩).isSome = true := by
  have hrefl : ∀ po : Option PoSnapshot, Option.Rel PoSnapshot.Alike po po := by
    intro po
    cases po with
    | none => exact .none
    | some po => exact .some ⟨rfl, rfl, rfl, rfl⟩
  rw [← Option.isSome_map, ← blocking_of_alike (hrefl _), blocking, Discrepancy.decide]
  cases runRules py ⟨invoice, Discrepancy.matchedPo py invoice vendor po poTotal poCurrency,
      (matchVendor py invoice [vendor]).vendorId, Discrepancy.duplicates uuid4 invoice others⟩ with
  | error e =>
    refine iff_of_false ?_ (by simp [Except.toOption])
    rintro ⟨b, hb⟩
    cases hb
  | ok results => exact iff_of_true ⟨_, rfl⟩ rfl

/-- **The eval approves.** -/
theorem decide_eq_false_iff (uuid4 : Nat → Uuid) :
    Discrepancy.decide py uuid4 invoice vendor po poTotal poCurrency others = .ok false ↔
      Approvable py invoice vendor po poTotal poCurrency ∧
        ¬ (Py.truthy invoice.invoiceNumber && !(Discrepancy.duplicates uuid4 invoice others).isEmpty) = true := by
  have htrue := @decide_iff py invoice vendor po poTotal poCurrency others uuid4
  have hdecides := @decides_iff py invoice vendor po poTotal poCurrency others uuid4
  constructor
  · intro h
    have hno : ¬ Discrepancy.decide py uuid4 invoice vendor po poTotal poCurrency others = .ok true := by simp [h]
    rw [htrue, ← hdecides] at hno
    exact Classical.not_imp.mp fun himp => hno ⟨⟨false, h⟩, himp⟩
  · rintro ⟨hA, hdup⟩
    obtain ⟨b, hb⟩ := hdecides.mpr (by rw [hA.unblocked]; rfl)
    cases b with
    | false => exact hb
    | true => exact absurd ((htrue.mp hb).2 hA) hdup

/-- Without other invoices there is no duplicate. -/
theorem not_duplicate (uuid4 : Nat → Uuid) :
    ¬ (Py.truthy invoice.invoiceNumber && !(Discrepancy.duplicates uuid4 invoice []).isEmpty) = true := by
  simp [Discrepancy.duplicates]

theorem matchVendor_congr {vendors : List VendorIdentity} {invoice' : ExtractedInvoice}
    (hname : invoice'.supplierName = invoice.supplierName) (htax : invoice'.supplierTaxId = invoice.supplierTaxId) :
    matchVendor py invoice' vendors = matchVendor py invoice vendors := by
  simp only [matchVendor, matchName, hname, htax]

theorem matchedPo_congr {invoice' : ExtractedInvoice} (h : invoice'.purchaseOrderNumber = invoice.purchaseOrderNumber) :
    Discrepancy.matchedPo py invoice' vendor po poTotal poCurrency =
      Discrepancy.matchedPo py invoice vendor po poTotal poCurrency := by
  have hmatch : ∀ pos, matchPo py invoice' pos = matchPo py invoice pos := by
    intro pos
    unfold matchPo
    rw [h]
  rw [Discrepancy.matchedPo, hmatch, Discrepancy.matchedPo]

end decision

/-! ## The seven cases -/

namespace Fixture

/-- The total is a whole number of cents. -/
def Priced (f : Fixture) : Prop :=
  ∃ (total : PyDecimal) (n : ℕ), f.raw.total = some total ∧ total.toRat = n / 100 ∧ n ≤ 10 ^ 26

/-- The seeded order. -/
def snapshot (f : Fixture) : PoSnapshot := ⟨f.poNumber, f.poCurrency, f.poTotal, f.vendor.vendorId⟩

/-- What the rules get of a variant of the invoice. -/
def input (f : Fixture) (invoice : ExtractedInvoice) : ValidationInput :=
  ⟨invoice, some f.snapshot, some f.vendor.vendorId, []⟩

/-- The invoice with another total. -/
def priced (f : Fixture) (total : PyDecimal) : ExtractedInvoice := { f.invoice with total := some total }

def mismatched (f : Fixture) : ExtractedInvoice := { f.invoice with currency := some f.otherCurrency }

def withoutPo (f : Fixture) : ExtractedInvoice := { f.invoice with purchaseOrderNumber := none }

theorem poTotal_toRat {f : Fixture} {total : PyDecimal} (h : f.raw.total = some total) : f.poTotal.toRat = total.toRat := by
  unfold poTotal
  rw [h]
  dsimp only
  split
  · next hz => rw [(PyDecimal.isZero_iff total).mp hz, PyDecimal.toRat_of_coef_zero rfl]
  · rfl

end Fixture

/-- Everything the labels rely on. -/
structure Calibrated (py : Py) (f : Fixture) : Prop where
  approvable : Approvable py f.invoice f.vendor (some f.po) f.poTotal f.poCurrency
  number : f.raw.invoiceNumber ≠ some ""
  total : 3 / 100 ≤ f.poTotal.toRat
  currency : py.upper (py.strip f.otherCurrency) ≠ py.upper (py.strip f.poCurrency)
  stranger : identifiedMethods.contains (matchVendor py f.unknown [f.vendor]).method = false

section cases
variable {py : Py} {f : Fixture} {invoice : ExtractedInvoice} {total factor : PyDecimal} {n k : ℕ}

/-- The invoice as it is passes. -/
theorem clean_iff : Discrepancy.review py f f.invoice [] = .ok false ↔
    Approvable py f.invoice f.vendor (some f.po) f.poTotal f.poCurrency := by
  rw [Discrepancy.review, decide_eq_false_iff, and_iff_left (not_duplicate _)]

theorem vendorId_of_identified (h : identifiedMethods.contains (matchVendor py invoice [f.vendor]).method = true) :
    (matchVendor py invoice [f.vendor]).vendorId = some f.vendor.vendorId := by
  rcases @identified_cases py invoice [f.vendor] with ⟨v, hv, hid, -⟩ | ⟨-, hm⟩
  · rw [hid, List.mem_singleton.mp hv]
  · rw [hm] at h
    cases h

theorem missingFields_nil {extracted : ExtractedInvoice} (hname : extracted.supplierName ≠ none)
    (hnumber : extracted.invoiceNumber ≠ none) (hdate : extracted.invoiceDate ≠ none) (htotal : extracted.total ≠ none) :
    missingFields extracted = [] := by
  simp [missingFields, hname, hnumber, hdate, htotal]

theorem required_blocks_iff {inp : ValidationInput} :
    (ruleRequiredFieldsPresent inp).blocks = false ↔ missingFields inp.invoice = [] := by
  rw [blocks_severityOf rfl, Bool.not_eq_false']
  exact List.isEmpty_iff

section approvable
variable (hA : Approvable py f.invoice f.vendor (some f.po) f.poTotal f.poCurrency)
include hA

theorem Approvable.matchedPo_eq (h : invoice.purchaseOrderNumber = some f.poNumber) :
    Discrepancy.matchedPo py invoice f.vendor (some f.po) f.poTotal f.poCurrency = some f.snapshot := by
  have hordered := hA.ordered
  have hsame : Discrepancy.matchedPo py invoice f.vendor (some f.po) f.poTotal f.poCurrency =
      Discrepancy.matchedPo py f.invoice f.vendor (some f.po) f.poTotal f.poCurrency := matchedPo_congr h
  rw [← hsame] at hordered
  unfold Discrepancy.matchedPo at hordered ⊢
  split at hordered
  · next hpo => rw [if_pos hpo]; rfl
  · cases hordered

theorem Approvable.blocking_eq : blocking py (f.input f.invoice) = some false := by
  have hb := hA.unblocked
  rwa [hA.matchedPo_eq rfl, vendorId_of_identified hA.identified] at hb

/-- A variant of the same supplier and order is reviewed when the rules
block it. -/
theorem Approvable.review_iff (invoice : ExtractedInvoice) (hname : invoice.supplierName = f.raw.supplierName)
    (htax : invoice.supplierTaxId = f.raw.supplierTaxId) (hpo : invoice.purchaseOrderNumber = some f.poNumber) :
    Discrepancy.review py f invoice [] = .ok true ↔ blocking py (f.input invoice) = some true := by
  have hvendor : matchVendor py invoice [f.vendor] = matchVendor py f.invoice [f.vendor] := matchVendor_congr hname htax
  rw [Discrepancy.review, decide_iff, approvable_iff, hvendor, hA.matchedPo_eq hpo, vendorId_of_identified hA.identified,
    blocking_eq_true_iff]
  refine and_congr_right fun _ => ⟨fun h hb => ?_, fun h hAp => absurd hAp.2.2 h⟩
  exact absurd (h ⟨hA.identified, rfl, hb⟩) (not_duplicate _)

theorem Approvable.currency_iff : Discrepancy.review py f f.mismatched [] = .ok true ↔
    py.upper (py.strip f.otherCurrency) ≠ py.upper (py.strip f.poCurrency) := by
  have hne : f.otherCurrency ≠ "" := by
    unfold Fixture.otherCurrency
    split <;> decide
  have hcurrency : (rulePoCurrencyMatch py (f.input f.mismatched)).blocks = true ↔
      py.upper (py.strip f.otherCurrency) ≠ py.upper (py.strip f.poCurrency) :=
    @currency_blocks py (f.input f.mismatched) f.snapshot _ rfl rfl hne
  obtain ⟨hreq, harith, hlines, hamount, -, hvendor, hdup⟩ := blocking_eq_false_iff.mp hA.blocking_eq
  -- The other rules see what they saw.
  replace harith : blocksOf (ruleArithmeticConsistency (f.input f.mismatched)) = some false := harith
  replace hlines : blocksOf (ruleLineItemsSumToSubtotal (f.input f.mismatched)) = some false := hlines
  replace hamount : blocksOf (rulePoAmountTolerance (f.input f.mismatched)) = some false := hamount
  replace hreq : (ruleRequiredFieldsPresent (f.input f.mismatched)).blocks = false := hreq
  replace hvendor : (rulePoVendorMismatch (f.input f.mismatched)).blocks = false := hvendor
  replace hdup : (ruleDuplicateInvoiceNumber py (f.input f.mismatched)).blocks = false := hdup
  rw [hA.review_iff f.mismatched rfl rfl rfl, ← hcurrency, blocking_eq_true_iff, blocking_isSome_iff, ne_eq,
    blocking_eq_false_iff, harith, hlines, hamount, hreq, hvendor, hdup]
  simp

theorem Approvable.duplicate_iff : Discrepancy.review py f f.invoice [f.invoice] = .ok true ↔
    f.raw.invoiceNumber ≠ some "" := by
  obtain ⟨hreq, -⟩ := blocking_eq_false_iff.mp hA.blocking_eq
  have hnumber : f.raw.invoiceNumber ≠ none := (missingFields_eq_nil (required_blocks_iff.mp hreq)).2.1
  rw [Discrepancy.review, decide_iff, hA.unblocked, duplicates_iff]
  obtain ⟨number, hn⟩ := Option.ne_none_iff_exists'.mp hnumber
  have hn' : f.invoice.invoiceNumber = some number := hn
  rw [hn, hn']
  simp [hA, hn']

theorem Approvable.unknown_iff : Discrepancy.review py f f.unknown [] = .ok true ↔
    identifiedMethods.contains (matchVendor py f.unknown [f.vendor]).method = false := by
  obtain ⟨hreq, harith, hlines, hamount, hcurrency, hvendor, hdup⟩ := blocking_eq_false_iff.mp hA.blocking_eq
  obtain ⟨-, hnumber, hdate, htotal⟩ := missingFields_eq_nil (required_blocks_iff.mp hreq)
  rw [Discrepancy.review, decide_iff, approvable_iff, hA.matchedPo_eq rfl]
  constructor
  · rintro ⟨-, h⟩
    rw [← Bool.not_eq_true]
    intro hid
    have hmissing : missingFields f.unknown = [] := missingFields_nil (Option.some_ne_none _) hnumber hdate htotal
    refine absurd (h ⟨hid, rfl, ?_⟩) (not_duplicate _)
    rw [vendorId_of_identified hid]
    exact blocking_eq_false_iff.mpr
      ⟨required_blocks_iff.mpr hmissing, harith, hlines, hamount, hcurrency, hvendor, hdup⟩
  · intro hid
    refine ⟨blocking_isSome_iff.mpr ⟨?_, ?_, ?_⟩, fun h => ?_⟩
    · exact Option.isSome_of_eq_some harith
    · exact Option.isSome_of_eq_some hlines
    · exact Option.isSome_of_eq_some hamount
    · rw [hid] at h
      cases h.1

theorem Approvable.withoutPo_review : Discrepancy.review py f f.withoutPo [] = .ok true := by
  obtain ⟨-, harith, hlines, -⟩ := blocking_eq_false_iff.mp hA.blocking_eq
  have hnone : Discrepancy.matchedPo py f.withoutPo f.vendor (some f.po) f.poTotal f.poCurrency = none := by
    rfl
  rw [Discrepancy.review, decide_iff, approvable_iff, hnone, blocking_isSome_iff]
  refine ⟨⟨?_, ?_, rfl⟩, fun h => by cases h.2.1⟩
  · exact Option.isSome_of_eq_some harith
  · exact Option.isSome_of_eq_some hlines

/-- A total beyond the tolerance of the order is reviewed. -/
theorem Approvable.beyond_review (ht : f.raw.total = some total) (hn : total.toRat = n / 100) (hpos : 0 < n) {s : PyDecimal}
    {m : ℤ} (hs : s.toRat = m / 100) (hnear : |m - n| ≤ 10 ^ 28)
    (hbeyond : ¬ |(m : ℚ) - n| ≤ (1 / 50 + 5 / 10 ^ 30) * n) : Discrepancy.review py f (f.priced s) [] = .ok true := by
  obtain ⟨-, harith, hlines, -⟩ := blocking_eq_false_iff.mp hA.blocking_eq
  have hpo : f.poTotal.toRat = n / 100 := (f.poTotal_toRat ht).trans hn
  have hne : f.poTotal.toRat ≠ 0 := by
    rw [hpo]
    positivity
  have hdiff : |s.toRat - total.toRat| ≤ 10 ^ 28 := by
    have hbound : |(m : ℚ) - n| ≤ 10 ^ 28 := by exact_mod_cast hnear
    rw [hs, hn, ← sub_div, abs_div, abs_of_pos (show (0 : ℚ) < 100 by norm_num)]
    linarith
  have hamount : blocksOf (rulePoAmountTolerance (f.input (f.priced s))) = some true := by
    rw [blocksOf, @amount_blocks (f.input (f.priced s)) f.snapshot s rfl rfl hne, hs]
    change (toleranceVerdict _ f.poTotal.toRat).map _ = _
    rw [hpo, toleranceVerdict_cents hpos hnear, decide_eq_false hbeyond]
    rfl
  replace harith : (blocksOf (ruleArithmeticConsistency (f.input (f.priced s)))).isSome = true :=
    @arithmetic_isSome (f.input f.invoice) (f.input (f.priced s)) _ _ rfl rfl ht rfl hdiff harith
  replace hlines : blocksOf (ruleLineItemsSumToSubtotal (f.input (f.priced s))) = some false := hlines
  rw [hA.review_iff (f.priced s) rfl rfl rfl, blocking_eq_true_iff, blocking_isSome_iff, ne_eq, blocking_eq_false_iff,
    hamount, hlines]
  simp [harith]

/-- The same amount, spelled otherwise perhaps, is not. -/
theorem Approvable.same_review (ht : f.raw.total = some total) {s : PyDecimal} (hs : s.toRat = total.toRat) :
    ¬ Discrepancy.review py f (f.priced s) [] = .ok true := by
  obtain ⟨hreq, harith, hlines, hamount, hcurrency, hvendor, hdup⟩ := blocking_eq_false_iff.mp hA.blocking_eq
  obtain ⟨hname, hnumber, hdate, -⟩ := missingFields_eq_nil (required_blocks_iff.mp hreq)
  have hmissing : missingFields (f.priced s) = [] := missingFields_nil hname hnumber hdate (Option.some_ne_none _)
  replace harith : blocksOf (ruleArithmeticConsistency (f.input (f.priced s))) = some false :=
    (@arithmetic_blocks_congr (f.input f.invoice) (f.input (f.priced s)) _ _ rfl rfl ht rfl hs).trans harith
  replace hamount : blocksOf (rulePoAmountTolerance (f.input (f.priced s))) = some false := by
    by_cases h0 : f.poTotal.toRat = 0
    · exact @amount_blocks_zero (f.input (f.priced s)) f.snapshot rfl ((PyDecimal.isZero_iff _).mpr h0)
    · rw [blocksOf, @amount_blocks (f.input f.invoice) f.snapshot total rfl ht h0] at hamount
      rw [blocksOf, @amount_blocks (f.input (f.priced s)) f.snapshot s rfl rfl h0, hs]
      exact hamount
  have hpasses : blocking py (f.input (f.priced s)) = some false := blocking_eq_false_iff.mpr
    ⟨required_blocks_iff.mpr hmissing, harith, hlines, hamount, hcurrency, hvendor, hdup⟩
  rw [hA.review_iff (f.priced s) rfl rfl rfl, hpasses]
  simp

/-- **A fifth more or less** is noticed from three cents on. -/
theorem Approvable.scaled_review (ht : f.raw.total = some total) (hn : total.toRat = n / 100) (hle : n ≤ 10 ^ 26)
    (h : 3 ≤ n) (hf : factor.toRat = k / 10) (hk : k = 8 ∨ k = 12) :
    ∃ s, Discrepancy.scaled f.poTotal factor = .ok s ∧ Discrepancy.review py f (f.priced s) [] = .ok true := by
  have hnk : n * k ≤ 10 ^ 28 := by rcases hk with rfl | rfl <;> omega
  have hkq : (k : ℚ) = 8 ∨ (k : ℚ) = 12 := by rcases hk with rfl | rfl <;> simp
  obtain ⟨s, hok, hs⟩ := scaled_value ((f.poTotal_toRat ht).trans hn) hf hnk
  refine ⟨s, hok, hA.beyond_review ht hn (by omega) hs ?_ (beyond_tolerance h hkq)⟩
  have hnq : (n : ℚ) ≤ 10 ^ 26 := by exact_mod_cast hle
  have hn0 : (0 : ℚ) ≤ n := by positivity
  have hround := abs_le.mp (Rounding.abs_nearestEven_sub_le (n * k / 10))
  have hq : |(Rounding.nearestEven (n * k / 10) : ℚ) - n| ≤ 10 ^ 28 := by
    rw [abs_le]
    rcases hkq with hk | hk <;> rw [hk] at hround ⊢ <;> constructor <;> linarith
  exact_mod_cast hq

/-- A fifth of less is rounded away. -/
theorem Approvable.scaled_missed (ht : f.raw.total = some total) (hn : total.toRat = n / 100) (h : n < 3)
    (hf : factor.toRat = (12 : ℕ) / 10) {s : PyDecimal} (hok : Discrepancy.scaled f.poTotal factor = .ok s) :
    ¬ Discrepancy.review py f (f.priced s) [] = .ok true := by
  obtain ⟨s', hok', hs⟩ := scaled_value ((f.poTotal_toRat ht).trans hn) hf (by omega)
  obtain rfl : s = s' := Except.ok.inj (hok.symm.trans hok')
  have hround := abs_le.mp (Rounding.abs_nearestEven_sub_le (n * (12 : ℕ) / 10))
  have hnq : (n : ℚ) ≤ 2 := by exact_mod_cast (by omega : n ≤ 2)
  have hn0 : (0 : ℚ) ≤ n := by positivity
  have hsame : Rounding.nearestEven (n * (12 : ℕ) / 10) = n := by
    push_cast at hround ⊢
    have hlow : (n : ℚ) - 1 < Rounding.nearestEven (n * 12 / 10) := by linarith [hround.1]
    have hhigh : (Rounding.nearestEven (n * 12 / 10) : ℚ) < n + 1 := by linarith [hround.2]
    have hlow' : (n : ℤ) - 1 < Rounding.nearestEven (n * 12 / 10) := by exact_mod_cast hlow
    have hhigh' : Rounding.nearestEven (n * 12 / 10) < (n : ℤ) + 1 := by exact_mod_cast hhigh
    omega
  refine hA.same_review ht ?_
  rw [hs, hsame, hn, Int.cast_natCast]

end approvable

/-- Every label is right. -/
def Right (py : Py) (f : Fixture) : Prop :=
  ∃ cases, Discrepancy.scenarios py f = .ok cases ∧ ∀ c ∈ cases, c.actual = c.expected

/-- The labels, one by one. -/
theorem right_iff : Right py f ↔ Discrepancy.review py f f.invoice [] = .ok false ∧
    (∃ s, Discrepancy.scaled f.poTotal ⟨false, 120, -2⟩ = .ok s ∧ Discrepancy.review py f (f.priced s) [] = .ok true) ∧
    (∃ s, Discrepancy.scaled f.poTotal ⟨false, 80, -2⟩ = .ok s ∧ Discrepancy.review py f (f.priced s) [] = .ok true) ∧
    Discrepancy.review py f f.invoice [f.invoice] = .ok true ∧ Discrepancy.review py f f.mismatched [] = .ok true ∧
    Discrepancy.review py f f.unknown [] = .ok true ∧ Discrepancy.review py f f.withoutPo [] = .ok true := by
  unfold Right Discrepancy.scenarios
  simp only [Except.bind_eq_ok]
  constructor
  · rintro ⟨cases, ⟨clean, hclean, raised, hraised, poOverage, h₂, lowered, hlowered, poUnderage, h₃, duplicate, h₄,
      mismatch, h₅, unknown, h₆, noPo, h₇, hcases⟩, hright⟩
    cases hcases
    simp only [List.forall_mem_cons] at hright
    obtain ⟨rfl, rfl, rfl, rfl, rfl, rfl, rfl, -⟩ := hright
    exact ⟨hclean, ⟨raised, hraised, h₂⟩, ⟨lowered, hlowered, h₃⟩, h₄, h₅, h₆, h₇⟩
  · rintro ⟨hclean, ⟨raised, hraised, h₂⟩, ⟨lowered, hlowered, h₃⟩, h₄, h₅, h₆, h₇⟩
    exact ⟨_, ⟨_, hclean, raised, hraised, _, h₂, lowered, hlowered, _, h₃, _, h₄, _, h₅, _, h₆, _, h₇, rfl⟩, by simp⟩

/-- **When the labels are right.** -/
theorem right_iff_calibrated (hpriced : f.Priced) : Right py f ↔ Calibrated py f := by
  obtain ⟨total, n, ht, hn, hle⟩ := hpriced
  have hpo : f.poTotal.toRat = n / 100 := (f.poTotal_toRat ht).trans hn
  have hover : (⟨false, 120, -2⟩ : PyDecimal).toRat = (12 : ℕ) / 10 := by
    rw [PyDecimal.toRat, PyDecimal.signed]
    norm_num
  have hunder : (⟨false, 80, -2⟩ : PyDecimal).toRat = (8 : ℕ) / 10 := by
    rw [PyDecimal.toRat, PyDecimal.signed]
    norm_num
  have hcents : 3 / 100 ≤ f.poTotal.toRat ↔ 3 ≤ n := by
    rw [hpo, div_le_div_iff_of_pos_right (by norm_num)]
    exact_mod_cast Iff.rfl
  rw [right_iff, clean_iff]
  constructor
  · rintro ⟨hA, ⟨s, hok, hreview⟩, -, hnumber, hcurrency, hunknown, -⟩
    refine ⟨hA, hA.duplicate_iff.mp hnumber, hcents.mpr ?_, hA.currency_iff.mp hcurrency, hA.unknown_iff.mp hunknown⟩
    by_contra hlt
    exact hA.scaled_missed ht hn (by omega) hover hok hreview
  · intro h
    have hA := h.approvable
    have hthree := hcents.mp h.total
    exact ⟨hA, hA.scaled_review ht hn hle hthree hover (.inr rfl), hA.scaled_review ht hn hle hthree hunder (.inl rfl),
      hA.duplicate_iff.mpr h.number, hA.currency_iff.mpr h.currency, hA.unknown_iff.mpr h.stranger, hA.withoutPo_review⟩

end cases

/-! ## The figures -/

section figures
variable {py : Py} {f : Fixture} {fixtures : List Fixture} {cases : List Discrepancy.Case} {r r' : Discrepancy.Figures}

/-- The cases counted, by what was expected. -/
theorem foldl_count (cases : List Discrepancy.Case) (r : Discrepancy.Figures) :
    (cases.foldl Discrepancy.Figures.count r).tp + (cases.foldl Discrepancy.Figures.count r).fn =
        r.tp + r.fn + cases.countP (·.expected) ∧
      (cases.foldl Discrepancy.Figures.count r).fp + (cases.foldl Discrepancy.Figures.count r).tn =
        r.fp + r.tn + cases.countP (!·.expected) ∧
      (cases.foldl Discrepancy.Figures.count r).fp + (cases.foldl Discrepancy.Figures.count r).fn =
        r.fp + r.fn + cases.countP (fun c => c.actual != c.expected) := by
  induction cases generalizing r with
  | nil => exact ⟨rfl, rfl, rfl⟩
  | cons c cases ih =>
    obtain ⟨h₁, h₂, h₃⟩ := ih (r.count c)
    rw [List.foldl_cons, h₁, h₂, h₃, List.countP_cons, List.countP_cons, List.countP_cons, Discrepancy.Figures.count]
    cases c.expected <;> cases c.actual <;> simp <;> omega

theorem scenarios_labels (h : Discrepancy.scenarios py f = .ok cases) :
    cases.countP (·.expected) = 6 ∧ cases.countP (!·.expected) = 1 := by
  unfold Discrepancy.scenarios at h
  simp only [Except.bind_eq_ok] at h
  obtain ⟨_, _, _, _, _, _, _, _, _, _, _, _, _, _, _, _, _, _, h⟩ := h
  cases h
  exact ⟨rfl, rfl⟩

/-- One round of the loop. -/
def Discrepancy.Figures.add (py : Py) (r : Discrepancy.Figures) (f : Fixture) :
    Except PyDecimal.Signal Discrepancy.Figures :=
  do return (← Discrepancy.scenarios py f).foldl Discrepancy.Figures.count r

theorem add_eq_ok (h : r.add py f = .ok r') : r'.tp + r'.fn = r.tp + r.fn + 6 ∧ r'.fp + r'.tn = r.fp + r.tn + 1 ∧
    r.fp + r.fn ≤ r'.fp + r'.fn ∧ (r'.fp + r'.fn = r.fp + r.fn → Right py f) := by
  obtain ⟨cases, hcases, hr⟩ := Except.bind_eq_ok.mp h
  cases hr
  obtain ⟨hpos, hneg⟩ := scenarios_labels hcases
  obtain ⟨h₁, h₂, h₃⟩ := foldl_count cases r
  refine ⟨by omega, by omega, by omega, fun hsame => ⟨cases, hcases, fun c hc => ?_⟩⟩
  have hnone := List.countP_eq_zero.mp (show cases.countP (fun c => c.actual != c.expected) = 0 by omega) c hc
  simpa using hnone

theorem add_of_right (h : Right py f) : r.add py f = .ok ⟨r.tp + 6, r.fp, r.tn + 1, r.fn⟩ := by
  obtain ⟨cases, hcases, hright⟩ := h
  have hlist := hcases
  unfold Discrepancy.scenarios at hlist
  simp only [Except.bind_eq_ok] at hlist
  obtain ⟨_, _, _, _, _, _, _, _, _, _, _, _, _, _, _, _, _, _, hlist⟩ := hlist
  cases hlist
  simp only [List.forall_mem_cons] at hright
  obtain ⟨rfl, rfl, rfl, rfl, rfl, rfl, rfl, -⟩ := hright
  rw [Discrepancy.Figures.add, hcases]
  rfl

theorem figures_eq (py : Py) (fixtures : List Fixture) :
    Discrepancy.figures py fixtures = fixtures.foldlM (Discrepancy.Figures.add py) ⟨0, 0, 0, 0⟩ := rfl

/-- **The loop**: every fixture adds six cases to flag and one to pass, and
a wrong label stays counted. -/
theorem foldlM_add (fixtures : List Fixture) (r : Discrepancy.Figures)
    (h : fixtures.foldlM (Discrepancy.Figures.add py) r = .ok r') :
    r'.tp + r'.fn = r.tp + r.fn + 6 * fixtures.length ∧ r'.fp + r'.tn = r.fp + r.tn + fixtures.length ∧
      r.fp + r.fn ≤ r'.fp + r'.fn ∧ (r'.fp + r'.fn = r.fp + r.fn → ∀ f ∈ fixtures, Right py f) := by
  induction fixtures generalizing r with
  | nil =>
    cases h
    exact ⟨rfl, rfl, le_rfl, fun _ f hf => by cases hf⟩
  | cons f fixtures ih =>
    rw [List.foldlM_cons, Except.bind_eq_ok] at h
    obtain ⟨r₁, hadd, hrest⟩ := h
    obtain ⟨h₁, h₂, h₃, h₄⟩ := add_eq_ok hadd
    obtain ⟨h₁', h₂', h₃', h₄'⟩ := ih r₁ hrest
    rw [List.length_cons]
    refine ⟨by omega, by omega, by omega, fun hsame => ?_⟩
    rw [List.forall_mem_cons]
    exact ⟨h₄ (by omega), h₄' (by omega)⟩

theorem foldlM_of_right (h : ∀ f ∈ fixtures, Right py f) (r : Discrepancy.Figures) :
    fixtures.foldlM (Discrepancy.Figures.add py) r =
      .ok ⟨r.tp + 6 * fixtures.length, r.fp, r.tn + fixtures.length, r.fn⟩ := by
  induction fixtures generalizing r with
  | nil => rfl
  | cons f fixtures ih =>
    rw [List.forall_mem_cons] at h
    rw [List.foldlM_cons, add_of_right h.1, PyDecimal.ok_bind, ih h.2, List.length_cons]
    dsimp only
    congr 2 <;> omega

/-- **The eval's figures.** On fixtures of whole cents it reports a
precision and a recall of 1.0 exactly when every fixture is calibrated, and
then every label was right. -/
theorem figures_perfect_iff (hpriced : ∀ f ∈ fixtures, f.Priced) (hlen : 7 * fixtures.length ≤ 2 ^ 53) :
    ((∃ r, Discrepancy.figures py fixtures = .ok r ∧ r.precision = 1 ∧ r.recall = 1) ↔
        ∀ f ∈ fixtures, Calibrated py f) ∧
      ((∀ f ∈ fixtures, Calibrated py f) →
        Discrepancy.figures py fixtures = .ok ⟨6 * fixtures.length, 0, fixtures.length, 0⟩ ∧
          (fixtures ≠ [] → Discrepancy.main py fixtures = .ok 0)) := by
  have hright : (∀ f ∈ fixtures, Right py f) ↔ ∀ f ∈ fixtures, Calibrated py f :=
    forall₂_congr fun f hf => right_iff_calibrated (hpriced f hf)
  have hperfect : (∀ f ∈ fixtures, Right py f) →
      Discrepancy.figures py fixtures = .ok ⟨6 * fixtures.length, 0, fixtures.length, 0⟩ := by
    intro h
    rw [figures_eq, foldlM_of_right h]
    simp
  rw [← hright]
  refine ⟨⟨?_, fun h => ⟨_, hperfect h, ?_, ?_⟩⟩, fun h => ⟨hperfect h, fun hne => ?_⟩⟩
  · rintro ⟨r, hr, hprecision, hrecall⟩
    obtain ⟨h₁, h₂, -, h₄⟩ := foldlM_add fixtures _ ((figures_eq py fixtures).symm.trans hr)
    dsimp only at h₁ h₂ h₄
    have hfp := (PyFloat.quotientOr1_eq_one_iff (Nat.le_add_right _ _) (by omega)).mp hprecision
    have hfn := (PyFloat.quotientOr1_eq_one_iff (Nat.le_add_right _ _) (by omega)).mp hrecall
    exact h₄ (by omega)
  · exact (PyFloat.quotientOr1_eq_one_iff le_rfl (by dsimp only; omega)).mpr rfl
  · exact (PyFloat.quotientOr1_eq_one_iff le_rfl (by dsimp only; omega)).mpr rfl
  · rw [Discrepancy.main, if_neg (by simpa using hne), hperfect h]
    rfl

end figures

namespace Sample

/-- The invoice of ACME, as a fixture. -/
def fixture : Fixture := ⟨"acme", extractedAs "N-1", uuid⟩

theorem fixture_priced : fixture.Priced := by
  refine ⟨_, 10000, rfl, ?_, by norm_num⟩
  rw [PyDecimal.toRat, PyDecimal.signed]
  norm_num

theorem fixture_calibrated : Calibrated py fixture where
  approvable := ⟨by decide +kernel, by decide +kernel, by decide +kernel⟩
  number := by decide
  total := by
    rw [fixture.poTotal_toRat rfl, PyDecimal.toRat, PyDecimal.signed]
    norm_num
  currency := by decide +kernel
  stranger := by decide +kernel

theorem figures_of_fixture : Discrepancy.figures py [fixture] = .ok ⟨6, 0, 1, 0⟩ ∧
    ∃ r, Discrepancy.figures py [fixture] = .ok r ∧ r.precision = 1 ∧ r.recall = 1 := by
  have hpriced : ∀ f ∈ [fixture], f.Priced := fun f hf => by rw [List.mem_singleton.mp hf]; exact fixture_priced
  have hcalibrated : ∀ f ∈ [fixture], Calibrated py f := fun f hf => by
    rw [List.mem_singleton.mp hf]
    exact fixture_calibrated
  have hiff := @figures_perfect_iff py _ hpriced (by decide)
  exact ⟨(hiff.2 hcalibrated).1, hiff.1.mpr hcalibrated⟩

end Sample

end InvoiceOps
