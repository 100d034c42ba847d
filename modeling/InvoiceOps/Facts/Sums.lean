/-
The two sum checks. Every sum is rounded to 28 digits, so a check compares
the rounded sum; on amounts of a common unit that are small enough for
nothing to be rounded it is exact, and the order of the items does not
matter.
-/
import InvoiceOps.Facts.Amounts
import Mathlib.Algebra.Order.BigOperators.Group.Multiset

namespace InvoiceOps

/-- The sum of the line totals, rounded after each. -/
def roundedSum (lineTotals : List ℚ) : ℚ := lineTotals.foldl (fun s x => decimals.round (s + x)) 0

/-- Multiples of one unit that add up, their signs left out, to no more than
`10 ^ 28` units. -/
def Commensurable (amounts : List ℚ) : Prop :=
  ∃ e : ℤ, decimals.etiny ≤ e ∧ (∀ a ∈ amounts, ∃ n : ℤ, a = n * 10 ^ e) ∧
    (amounts.map fun a => |a|).sum ≤ 10 ^ 28 * 10 ^ e

section sums
variable {a b s v : ℚ} {passed : Bool} {e : ℤ} {l : List ℚ}

/-- Half a unit of the last digit of 0.02 is rounded off. -/
theorem round_le_tolerance : decimals.round v ≤ 1 / 50 ↔ v ≤ 1 / 50 + 5 / 10 ^ 30 := by
  have hgrid : (1 / 50 : ℚ) = ((2 * 10 ^ 27 : ℤ) : ℚ) * 10 ^ (-29 : ℤ) := by norm_num
  have hhalf : (((2 * 10 ^ 27 : ℤ) : ℚ) + 1 / 2) * 10 ^ (-29 : ℤ) = 1 / 50 + 5 / 10 ^ 30 := by norm_num
  rw [hgrid, Rounding.Format.round_le_iff (f := decimals) (by decide) (by decide) (by decide), hhalf, ← hgrid,
    le_iff_lt_or_eq]
  exact or_congr_right (and_iff_left (by decide))

theorem abs_round_le_tolerance : |decimals.round v| ≤ 1 / 50 ↔ |v| ≤ 1 / 50 + 5 / 10 ^ 30 := by
  rw [← Rounding.Format.round_abs, round_le_tolerance]

theorem closeVerdict_iff (h : closeVerdict a b = some passed) :
    passed = true ↔ |a - b| ≤ 1 / 50 + 5 / 10 ^ 30 := by
  obtain ⟨d, hd, rfl⟩ := Option.map_eq_some_iff.mp h
  obtain ⟨-, rfl⟩ := computed_eq_some.mp hd
  rw [decide_eq_true_iff, abs_round_le_tolerance]

/-- A difference that needs no rounding is compared exactly. -/
theorem closeVerdict_iff_of_holds (h : closeVerdict a b = some passed) (hab : decimals.Holds (a - b)) :
    passed = true ↔ |a - b| ≤ 1 / 50 := by
  obtain ⟨d, hd, rfl⟩ := Option.map_eq_some_iff.mp h
  obtain ⟨-, rfl⟩ := computed_eq_some.mp hd
  rw [decide_eq_true_iff, Rounding.Format.round_of_holds hab]

theorem arithmeticVerdict_iff {subtotal tax total : ℚ} (h : arithmeticVerdict subtotal tax total = some passed) :
    passed = true ↔ |decimals.round (subtotal + tax) - total| ≤ 1 / 50 + 5 / 10 ^ 30 := by
  obtain ⟨d, hd, h⟩ := Option.bind_eq_some_iff.mp h
  obtain ⟨-, rfl⟩ := computed_eq_some.mp hd
  exact closeVerdict_iff h

/-- The sum, item by item, where none overflows. -/
theorem foldlM_computed : ∀ {l : List ℚ} {s r : ℚ}, l.foldlM (fun s x => computed (s + x)) s = some r →
    l.foldl (fun s x => decimals.round (s + x)) s = r
  | [], s, r, h => by cases h; rfl
  | x :: l, s, r, h => by
    rw [List.foldlM_cons] at h
    obtain ⟨d, hd, h⟩ := Option.bind_eq_some_iff.mp h
    obtain ⟨-, rfl⟩ := computed_eq_some.mp hd
    rw [List.foldl_cons]
    exact foldlM_computed h

theorem linesVerdict_iff {subtotal : ℚ} (h : linesVerdict l subtotal = some passed) :
    passed = true ↔ |roundedSum l - subtotal| ≤ 1 / 50 + 5 / 10 ^ 30 := by
  obtain ⟨d, hd, h⟩ := Option.bind_eq_some_iff.mp h
  rw [roundedSum, foldlM_computed hd]
  exact closeVerdict_iff h

/-! ## Amounts of a common unit -/

theorem abs_sum_le (l : List ℚ) : |l.sum| ≤ (l.map fun a => |a|).sum := by
  simpa using Multiset.abs_sum_le_sum_abs (s := (l : Multiset ℚ))

theorem multiple_add (ha : ∃ n : ℤ, a = n * 10 ^ e) (hb : ∃ n : ℤ, b = n * 10 ^ e) :
    ∃ n : ℤ, a + b = n * 10 ^ e := by
  obtain ⟨n, rfl⟩ := ha
  obtain ⟨m, rfl⟩ := hb
  exact ⟨n + m, by push_cast; ring⟩

theorem multiple_neg (ha : ∃ n : ℤ, a = n * 10 ^ e) : ∃ n : ℤ, -a = n * 10 ^ e := by
  obtain ⟨n, rfl⟩ := ha
  exact ⟨-n, by push_cast; ring⟩

/-- Up to `10 ^ 28` units there is nothing to round. -/
theorem holds_of_multiple (he : decimals.etiny ≤ e) (ha : ∃ n : ℤ, a = n * 10 ^ e) (hle : |a| ≤ 10 ^ 28 * 10 ^ e) :
    decimals.Holds a := by
  obtain ⟨n, rfl⟩ := ha
  refine ⟨n, e, rfl, he, ?_⟩
  have hu := Rounding.Format.ten_pos e
  rw [abs_mul, abs_of_pos hu, mul_le_mul_iff_left₀ hu] at hle
  have hn : |n| ≤ 10 ^ 28 := by exact_mod_cast hle
  exact hn

/-- A sum of a common unit is not rounded on the way. -/
theorem roundedSum_exact (he : decimals.etiny ≤ e) : ∀ {l : List ℚ} {s : ℚ}, (∃ n : ℤ, s = n * 10 ^ e) →
    (∀ a ∈ l, ∃ n : ℤ, a = n * 10 ^ e) → |s| + (l.map fun a => |a|).sum ≤ 10 ^ 28 * 10 ^ e →
    l.foldl (fun s x => decimals.round (s + x)) s = s + l.sum
  | [], s, _, _, _ => by simp
  | x :: l, s, hs, hl, hle => by
    rw [List.map_cons, List.sum_cons] at hle
    have hx := multiple_add hs (hl x List.mem_cons_self)
    have hrest : 0 ≤ (l.map fun a => |a|).sum := List.sum_nonneg fun y hy => by
      obtain ⟨z, -, rfl⟩ := List.mem_map.mp hy
      exact abs_nonneg z
    have htri := abs_add_le s x
    rw [List.foldl_cons, Rounding.Format.round_of_holds (holds_of_multiple he hx (by linarith)),
      roundedSum_exact he hx (fun a ha => hl a (List.mem_cons_of_mem x ha)) (by linarith), List.sum_cons, add_assoc]

theorem closeVerdict_exact {subtotal : ℚ} (hc : Commensurable (subtotal :: l)) :
    decimals.Holds (l.sum - subtotal) := by
  obtain ⟨e, he, hmul, hle⟩ := hc
  rw [List.map_cons, List.sum_cons] at hle
  have hsum : ∃ n : ℤ, l.sum = n * 10 ^ e := by
    clear hle
    induction l with
    | nil => exact ⟨0, by simp⟩
    | cons a l ih =>
      rw [List.sum_cons]
      exact multiple_add (hmul a (by simp)) (ih fun b hb => hmul b (by
        rcases List.mem_cons.mp hb with rfl | hb
        · simp
        · simp [hb]))
  rw [sub_eq_add_neg]
  refine holds_of_multiple he (multiple_add hsum (multiple_neg (hmul subtotal List.mem_cons_self))) ?_
  have h₁ := abs_add_le l.sum (-subtotal)
  have h₂ := abs_sum_le l
  rw [abs_neg] at h₁
  linarith

theorem linesVerdict_exact {subtotal : ℚ} (hc : Commensurable (subtotal :: l))
    (h : linesVerdict l subtotal = some passed) : passed = true ↔ |l.sum - subtotal| ≤ 1 / 50 := by
  have hholds := closeVerdict_exact hc
  obtain ⟨e, he, hmul, hle⟩ := hc
  rw [List.map_cons, List.sum_cons] at hle
  obtain ⟨d, hd, h⟩ := Option.bind_eq_some_iff.mp h
  have hsum := roundedSum_exact (s := 0) he ⟨0, by simp⟩ (fun a ha => hmul a (List.mem_cons_of_mem _ ha))
    (by rw [abs_zero]; linarith [abs_nonneg subtotal])
  rw [foldlM_computed hd, zero_add] at hsum
  subst hsum
  exact closeVerdict_iff_of_holds h hholds

theorem arithmeticVerdict_exact {subtotal tax total : ℚ} (hc : Commensurable [total, subtotal, tax])
    (h : arithmeticVerdict subtotal tax total = some passed) :
    passed = true ↔ |subtotal + tax - total| ≤ 1 / 50 := by
  have hholds := closeVerdict_exact hc
  obtain ⟨e, he, hmul, hle⟩ := hc
  simp only [List.map_cons, List.map_nil, List.sum_cons, List.sum_nil, add_zero] at hle hholds
  obtain ⟨d, hd, h⟩ := Option.bind_eq_some_iff.mp h
  obtain ⟨-, rfl⟩ := computed_eq_some.mp hd
  have hadd : decimals.Holds (subtotal + tax) :=
    holds_of_multiple he (multiple_add (hmul _ (by simp)) (hmul _ (by simp)))
      (by linarith [abs_add_le subtotal tax, abs_nonneg total])
  rw [Rounding.Format.round_of_holds hadd] at h
  exact closeVerdict_iff_of_holds h hholds

/-- The line totals in another order. -/
theorem exists_priced_of_perm {items items' : List LineItem} {lineTotals : List PyDecimal} (hp : items'.Perm items)
    (hl : items.map (·.lineTotal) = lineTotals.map some) :
    ∃ lineTotals' : List PyDecimal, items'.map (·.lineTotal) = lineTotals'.map some ∧ lineTotals'.Perm lineTotals := by
  refine ⟨items'.filterMap (·.lineTotal), ?_, priced_eq hl ▸ hp.filterMap _⟩
  rw [List.map_filterMap]
  have hsome : ∀ item ∈ items', item.lineTotal.isSome := by
    intro item hitem
    have hmem : item.lineTotal ∈ lineTotals.map some := hl ▸ List.mem_map_of_mem (hp.mem_iff.mp hitem)
    obtain ⟨x, -, hx⟩ := List.mem_map.mp hmem
    rw [← hx]
    rfl
  rw [← List.filterMap_eq_map]
  refine List.filterMap_congr fun item hitem => ?_
  obtain ⟨x, hx⟩ := Option.isSome_iff_exists.mp (hsome item hitem)
  simp [hx]

/-- **The sum checks.** Each compares the rounded sum, up to half a unit in
the last digit of the tolerance; and each is exact on amounts of a common
unit that fit in 28 digits, so that there the order of the items does not
matter. -/
theorem sum_checks {inp : ValidationInput} {subtotal : PyDecimal} (hs : inp.invoice.subtotal = some subtotal) :
    (∀ (tax total : PyDecimal) (r : RuleResult), inp.invoice.taxAmount = some tax → inp.invoice.total = some total →
      ruleArithmeticConsistency inp = .ok r →
      (r.passed = true ↔ |decimals.round (subtotal.toRat + tax.toRat) - total.toRat| ≤ 1 / 50 + 5 / 10 ^ 30) ∧
      (Commensurable [total.toRat, subtotal.toRat, tax.toRat] →
        (r.passed = true ↔ |subtotal.toRat + tax.toRat - total.toRat| ≤ 1 / 50))) ∧
    ∀ (lineTotals : List PyDecimal) (r : RuleResult), inp.invoice.lineItems.map (·.lineTotal) = lineTotals.map some →
      inp.invoice.lineItems ≠ [] → ruleLineItemsSumToSubtotal inp = .ok r →
      (r.passed = true ↔ |roundedSum (lineTotals.map PyDecimal.toRat) - subtotal.toRat| ≤ 1 / 50 + 5 / 10 ^ 30) ∧
      (Commensurable (subtotal.toRat :: lineTotals.map PyDecimal.toRat) →
        (r.passed = true ↔ |(lineTotals.map PyDecimal.toRat).sum - subtotal.toRat| ≤ 1 / 50) ∧
        ∀ (inp' : ValidationInput) (r' : RuleResult), inp'.invoice.subtotal = some subtotal →
          inp'.invoice.lineItems.Perm inp.invoice.lineItems → ruleLineItemsSumToSubtotal inp' = .ok r' →
          r'.passed = r.passed) := by
  constructor
  · intro tax total r hx ht h
    have hv := arithmetic_verdict hs hx ht
    rw [h] at hv
    exact ⟨arithmeticVerdict_iff hv.symm, fun hc => arithmeticVerdict_exact hc hv.symm⟩
  · intro lineTotals r hl hne h
    have hv := lines_verdict hs hl hne
    rw [h] at hv
    refine ⟨linesVerdict_iff hv.symm, fun hc => ⟨linesVerdict_exact hc hv.symm, ?_⟩⟩
    intro inp' r' hs' hperm h'
    -- The same amounts in another order: commensurable too, with the same sum.
    have hne' : inp'.invoice.lineItems ≠ [] := fun h0 => hne (List.Perm.nil_eq (h0 ▸ hperm)).symm
    obtain ⟨lineTotals', hl', hperm'⟩ := exists_priced_of_perm hperm hl
    have hv' := lines_verdict hs' hl' hne'
    rw [h'] at hv'
    have hp := hperm'.map PyDecimal.toRat
    have hc' : Commensurable (subtotal.toRat :: lineTotals'.map PyDecimal.toRat) := by
      obtain ⟨e, he, hmul, hle⟩ := hc
      refine ⟨e, he, fun a ha => hmul a ((hp.cons _).mem_iff.mp ha), ?_⟩
      rwa [((hp.cons subtotal.toRat).map _).sum_eq]
    rw [Bool.eq_iff_iff, linesVerdict_exact hc hv.symm, linesVerdict_exact hc' hv'.symm, hp.sum_eq]

end sums

namespace Sample

/-- An invoice with these amounts and no purchase order. -/
def amounts (subtotal tax total : PyDecimal) (lineTotals : List PyDecimal) : ValidationInput where
  invoice := {
    supplierName := some "ACME"
    supplierTaxId := none
    invoiceNumber := some "N-1"
    invoiceDate := none
    currency := some "EUR"
    purchaseOrderNumber := none
    lineItems := lineTotals.map fun lineTotal => ⟨"item", none, none, some lineTotal⟩
    subtotal := some subtotal
    taxAmount := some tax
    total := some total }
  matchedPo := none
  matchedVendorId := none
  duplicateCandidates := []

/-- 100.00 and 22.00, from these items. -/
def taxedOf (lineTotals : List PyDecimal) : ValidationInput :=
  amounts ⟨false, 10000, -2⟩ ⟨false, 2200, -2⟩ ⟨false, 12200, -2⟩ lineTotals

/-- 60.00 and 40.00. -/
def taxed : ValidationInput := taxedOf [⟨false, 6000, -2⟩, ⟨false, 4000, -2⟩]

/-- The same items the other way round. -/
def taxedBack : ValidationInput := taxedOf [⟨false, 4000, -2⟩, ⟨false, 6000, -2⟩]

/-- Amounts in whole cents. -/
def inCents (ns : List ℕ) : List ℚ := ns.map fun n => PyDecimal.toRat ⟨false, n, -2⟩

theorem commensurable_inCents {ns : List ℕ} (h : ((inCents ns).map fun a => |a|).sum ≤ 10 ^ 28 * 10 ^ (-2 : ℤ)) :
    Commensurable (inCents ns) := by
  refine ⟨-2, by decide, fun a ha => ?_, h⟩
  obtain ⟨n, -, rfl⟩ := List.mem_map.mp ha
  exact ⟨n, rfl⟩

/-- Both rules pass, the one on the items in either order. -/
theorem sum_checks_taxed : ∃ r r₁ r₂, ruleArithmeticConsistency taxed = .ok r ∧ r.passed = true ∧
    ruleLineItemsSumToSubtotal taxed = .ok r₁ ∧ r₁.passed = true ∧
    ruleLineItemsSumToSubtotal taxedBack = .ok r₂ ∧ r₂.passed = true := by
  obtain ⟨harithmetic, hlines⟩ := @sum_checks taxed _ rfl
  obtain ⟨-, hexact⟩ := harithmetic ⟨false, 2200, -2⟩ ⟨false, 12200, -2⟩ _ rfl rfl rfl
  obtain ⟨-, hitems⟩ := hlines [⟨false, 6000, -2⟩, ⟨false, 4000, -2⟩] _ rfl (by decide) rfl
  have hamounts : Commensurable (inCents [12200, 10000, 2200]) :=
    commensurable_inCents (by norm_num [inCents, PyDecimal.toRat, PyDecimal.signed])
  have hlineTotals : Commensurable (inCents [10000, 6000, 4000]) :=
    commensurable_inCents (by norm_num [inCents, PyDecimal.toRat, PyDecimal.signed])
  obtain ⟨hsum, horder⟩ := hitems hlineTotals
  have htotal := (hexact hamounts).mpr (by norm_num [PyDecimal.toRat, PyDecimal.signed])
  have hpassed := hsum.mpr (by norm_num [PyDecimal.toRat, PyDecimal.signed])
  exact ⟨_, _, _, rfl, htotal, rfl, hpassed, rfl, (horder taxedBack _ rfl (.swap ..) rfl).trans hpassed⟩

/-- `1E28 + 1` is the total exactly, and fails; and three items pass in one
order and fail in another. -/
theorem sums_inexact :
    (ruleArithmeticConsistency (amounts ⟨false, 1, 28⟩ ⟨false, 1, 0⟩ ⟨false, 10 ^ 28 + 1, 0⟩ [])).toOption.map
        (·.passed) = some false ∧
      |PyDecimal.toRat ⟨false, 1, 28⟩ + PyDecimal.toRat ⟨false, 1, 0⟩ - PyDecimal.toRat ⟨false, 10 ^ 28 + 1, 0⟩| = 0 ∧
      (ruleLineItemsSumToSubtotal (amounts ⟨false, 10 ^ 28 + 10, 0⟩ ⟨false, 0, 0⟩ ⟨false, 0, 0⟩
        [⟨false, 5, 0⟩, ⟨false, 5, 0⟩, ⟨false, 1, 28⟩])).toOption.map (·.passed) = some true ∧
      (ruleLineItemsSumToSubtotal (amounts ⟨false, 10 ^ 28 + 10, 0⟩ ⟨false, 0, 0⟩ ⟨false, 0, 0⟩
        [⟨false, 1, 28⟩, ⟨false, 5, 0⟩, ⟨false, 5, 0⟩])).toOption.map (·.passed) = some false := by
  refine ⟨by decide +kernel, ?_, by decide +kernel, by decide +kernel⟩
  norm_num [PyDecimal.toRat, PyDecimal.signed]

end Sample

end InvoiceOps
