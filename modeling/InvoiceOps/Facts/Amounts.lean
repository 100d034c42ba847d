/-
The rules on amounts, as functions of the numbers alone: a verdict, or none
where an intermediate result overflows. How an amount is written, its
trailing zeros and its exponent, makes no difference.
-/
import InvoiceOps.Domain.Validation
import InvoiceOps.Lib.PyDecimalRounding

namespace InvoiceOps

open PyDecimal (defaultContext value?)

/-- Numbers of 28 digits. -/
def decimals : Rounding.Format := defaultContext.format (by decide)

/-- From here on a result overflows. -/
def overflowLimit : ℚ := defaultContext.limit

theorem etiny_le_etop : defaultContext.etiny ≤ defaultContext.etop := by decide

/-- An exact result as it is computed: rounded to 28 digits, none when it
overflows. -/
def computed (v : ℚ) : Option ℚ := defaultContext.outcome (by decide) v

theorem computed_eq (v : ℚ) : computed v = if |v| < overflowLimit then some (decimals.round v) else none := rfl

theorem computed_eq_some {v r : ℚ} : computed v = some r ↔ |v| < overflowLimit ∧ decimals.round v = r := by
  rw [computed_eq]
  split_ifs with h <;> simp [h]

theorem computed_isSome {v : ℚ} : (computed v).isSome = true ↔ |v| < overflowLimit := by
  rw [computed_eq]
  split_ifs with h <;> simp [h]

/-- Two cents, and 2%. -/
theorem amountTolerance_toRat : amountTolerance.toRat = 1 / 50 := by
  norm_num [amountTolerance, PyDecimal.toRat, PyDecimal.signed]

theorem poTolerancePct_toRat : poTolerancePct.toRat = 1 / 50 := amountTolerance_toRat

/-! ## The verdicts -/

def closeVerdict (a b : ℚ) : Option Bool := (computed (a - b)).map fun diff => decide (|diff| ≤ 1 / 50)

def arithmeticVerdict (subtotal tax total : ℚ) : Option Bool :=
  (computed (subtotal + tax)).bind fun expected => closeVerdict expected total

/-- The sum as it is computed, item by item. -/
def linesTotal (lineTotals : List ℚ) : Option ℚ := lineTotals.foldlM (fun s x => computed (s + x)) 0

def linesVerdict (lineTotals : List ℚ) (subtotal : ℚ) : Option Bool :=
  (linesTotal lineTotals).bind fun totalLines => closeVerdict totalLines subtotal

def toleranceVerdict (total orderTotal : ℚ) : Option Bool :=
  (computed (total - orderTotal)).bind fun diff =>
    (computed (|diff| / orderTotal)).map fun pct => decide (pct ≤ 1 / 50)

/-! ## The rules give them -/

section rules
variable {inp : ValidationInput} {a b : PyDecimal}

theorem add_value (a b : PyDecimal) : value? (a.add defaultContext b) = computed (a.toRat + b.toRat) :=
  (PyDecimal.add_rounds _ etiny_le_etop a b).value?

theorem sub_value (a b : PyDecimal) : value? (a.sub defaultContext b) = computed (a.toRat - b.toRat) :=
  (PyDecimal.sub_rounds etiny_le_etop a b).value?

theorem div_value (a : PyDecimal) (hb : b.coef ≠ 0) :
    value? (a.div defaultContext b) = computed (a.toRat / b.toRat) :=
  (PyDecimal.div_rounds etiny_le_etop hb a).value?

theorem coef_ne_zero (h : a.toRat ≠ 0) : a.coef ≠ 0 := fun h0 => h (PyDecimal.toRat_of_coef_zero h0)

/-- `abs(a - b)`: it overflows where the difference does. -/
theorem abs_sub_cases (a b : PyDecimal) :
    (∃ d m, a.sub defaultContext b = .ok d ∧ d.abs defaultContext = .ok m ∧
        computed (a.toRat - b.toRat) = some d.toRat ∧ m.toRat = |d.toRat|) ∨
      computed (a.toRat - b.toRat) = none ∧ ∃ e, a.sub defaultContext b = .error e := by
  have hval := sub_value a b
  cases hd : a.sub defaultContext b with
  | error e =>
    rw [hd] at hval
    exact .inr ⟨hval.symm, e, rfl⟩
  | ok d =>
    rw [hd] at hval
    have habs := PyDecimal.abs_value? etiny_le_etop hval.symm
    cases hm : d.abs defaultContext with
    | error e => rw [hm] at habs; cases habs
    | ok m =>
      rw [hm] at habs
      exact .inl ⟨d, m, rfl, hm, hval.symm, Option.some.inj habs⟩

theorem le_amountTolerance (a : PyDecimal) : a.le amountTolerance = decide (a.toRat ≤ 1 / 50) := by
  rw [Bool.eq_iff_iff, PyDecimal.le_iff, amountTolerance_toRat, decide_eq_true_iff]

/-- **`rule_arithmetic_consistency`.** -/
theorem arithmetic_verdict {subtotal tax total : PyDecimal} (hs : inp.invoice.subtotal = some subtotal)
    (hx : inp.invoice.taxAmount = some tax) (ht : inp.invoice.total = some total) :
    (ruleArithmeticConsistency inp).toOption.map (·.passed) =
      arithmeticVerdict subtotal.toRat tax.toRat total.toRat := by
  unfold ruleArithmeticConsistency
  simp only [hs, hx, ht]
  rw [PyDecimal.toOption_bind, arithmeticVerdict, ← add_value]
  cases subtotal.add defaultContext tax with
  | error e => rfl
  | ok expected =>
    change _ = closeVerdict expected.toRat total.toRat
    rw [closeVerdict]
    rcases abs_sub_cases expected total with ⟨d, m, hd, hm, hv, hmd⟩ | ⟨hv, e, he⟩
    · simp only [Except.toOption, Option.bind_some, hd, PyDecimal.ok_bind, hm, hv, Option.map_some, le_amountTolerance, hmd]
      rfl
    · simp only [Except.toOption, Option.bind_some, he, hv]
      rfl

theorem priced_eq {items : List LineItem} {lineTotals : List PyDecimal}
    (hl : items.map (·.lineTotal) = lineTotals.map some) : items.filterMap (·.lineTotal) = lineTotals := by
  rw [show items.filterMap (·.lineTotal) = (items.map (·.lineTotal)).filterMap id by rw [List.filterMap_map]; rfl, hl,
    List.filterMap_map]
  exact List.filterMap_some ..

/-- **`rule_line_items_sum_to_subtotal`**, every item priced. -/
theorem lines_verdict {subtotal : PyDecimal} {lineTotals : List PyDecimal} (hs : inp.invoice.subtotal = some subtotal)
    (hl : inp.invoice.lineItems.map (·.lineTotal) = lineTotals.map some) (hne : inp.invoice.lineItems ≠ []) :
    (ruleLineItemsSumToSubtotal inp).toOption.map (·.passed) =
      linesVerdict (lineTotals.map PyDecimal.toRat) subtotal.toRat := by
  have hpriced := priced_eq hl
  have hlen : lineTotals.length = inp.invoice.lineItems.length := by
    simpa using (congrArg List.length hl).symm
  unfold ruleLineItemsSumToSubtotal
  cases hi : inp.invoice.lineItems with
  | nil => exact absurd hi hne
  | cons item items =>
    rw [hi] at hpriced hlen
    simp only [hs, hpriced, hlen, ne_eq, not_true_eq_false, if_false]
    rw [PyDecimal.toOption_bind, linesVerdict, linesTotal]
    have hsum := PyDecimal.sum_value? (by decide) etiny_le_etop lineTotals
    change value? _ = List.foldlM (fun s x => computed (s + x)) 0 _ at hsum
    rw [← hsum]
    cases PyDecimal.sum defaultContext lineTotals with
    | error e => rfl
    | ok totalLines =>
      change _ = closeVerdict totalLines.toRat subtotal.toRat
      rw [closeVerdict]
      rcases abs_sub_cases totalLines subtotal with ⟨d, m, hd, hm, hv, hmd⟩ | ⟨hv, e, he⟩
      · simp only [Except.toOption, Option.bind_some, hd, PyDecimal.ok_bind, hm, hv, Option.map_some, le_amountTolerance, hmd]
        rfl
      · simp only [Except.toOption, Option.bind_some, he, hv]
        rfl

/-- **`rule_po_amount_tolerance`**, against an order that is not zero. -/
theorem tolerance_verdict {total : PyDecimal} {po : PoSnapshot} (ht : inp.invoice.total = some total)
    (hpo : inp.matchedPo = some po) (hne : po.total.toRat ≠ 0) :
    (rulePoAmountTolerance inp).toOption.map (·.passed) = toleranceVerdict total.toRat po.total.toRat := by
  have hcoef := coef_ne_zero hne
  have hz : po.total.isZero = false := Bool.eq_false_iff.mpr (mt (PyDecimal.isZero_iff po.total).mp hne)
  unfold rulePoAmountTolerance
  simp only [ht, hpo, hz, Bool.false_eq_true, if_false]
  rw [toleranceVerdict]
  rcases abs_sub_cases total po.total with ⟨d, m, hd, hm, hv, hmd⟩ | ⟨hv, e, he⟩
  · have hdiv := div_value m hcoef
    rw [hmd] at hdiv
    simp only [hd, hm, hv, PyDecimal.ok_bind, Option.bind_some]
    rw [← hdiv]
    cases m.div defaultContext po.total with
    | error e => rfl
    | ok pct =>
      have hle : pct.le poTolerancePct = decide (pct.toRat ≤ 1 / 50) := le_amountTolerance pct
      change some (pct.le poTolerancePct) = some (decide (pct.toRat ≤ 1 / 50))
      rw [hle]
  · simp only [he, hv]
    rfl

/-- An amount that passed the comparison. -/
theorem WithinTolerance.verdict {total orderTotal : PyDecimal} (hne : orderTotal.toRat ≠ 0)
    (h : WithinTolerance total orderTotal) : toleranceVerdict total.toRat orderTotal.toRat = some true := by
  obtain ⟨diff, size, pct, hdiff, hsize, hpct, hle⟩ := h
  rcases abs_sub_cases total orderTotal with ⟨d, m, hd, hm, hv, hmd⟩ | ⟨-, e, he⟩
  case inr => cases hdiff.symm.trans he
  obtain rfl : diff = d := Except.ok.inj (hdiff.symm.trans hd)
  obtain rfl : size = m := Except.ok.inj (hsize.symm.trans hm)
  have hdiv := div_value size (coef_ne_zero hne)
  rw [hpct, hmd] at hdiv
  have hpassed : pct.toRat ≤ 1 / 50 := of_decide_eq_true ((le_amountTolerance pct).symm.trans hle)
  rw [toleranceVerdict, hv, Option.bind_some, ← hdiv]
  exact congrArg some (decide_eq_true hpassed)

end rules

end InvoiceOps
