/-
Which invoices the rules raise on: those where an exact sum, difference or
quotient, of operands already rounded to 28 digits, reaches the overflow
limit. Such an invoice stays in VALIDATING.
-/
import InvoiceOps.Facts.Pipeline
import InvoiceOps.Facts.Sums

namespace InvoiceOps

/-- No result the rules compute overflows. -/
structure NoOverflow (extracted : ExtractedInvoice) (po : Option PoSnapshot) : Prop where
  arithmetic : ∀ subtotal tax total, extracted.subtotal = some subtotal → extracted.taxAmount = some tax →
    extracted.total = some total → |subtotal.toRat + tax.toRat| < overflowLimit ∧
      |decimals.round (subtotal.toRat + tax.toRat) - total.toRat| < overflowLimit
  lines : ∀ (subtotal : PyDecimal) (lineTotals : List PyDecimal), extracted.subtotal = some subtotal →
    extracted.lineItems ≠ [] → extracted.lineItems.map (·.lineTotal) = lineTotals.map some →
    (∀ l₁ x l₂, lineTotals.map PyDecimal.toRat = l₁ ++ x :: l₂ → |roundedSum l₁ + x| < overflowLimit) ∧
      |roundedSum (lineTotals.map PyDecimal.toRat) - subtotal.toRat| < overflowLimit
  amount : ∀ total order, extracted.total = some total → po = some order → order.total.toRat ≠ 0 →
    |total.toRat - order.total.toRat| < overflowLimit ∧
      |decimals.round (total.toRat - order.total.toRat)| / |order.total.toRat| < overflowLimit

section overflow
variable {inp : ValidationInput} {a b : ℚ} {l : List ℚ}

theorem closeVerdict_isSome : (closeVerdict a b).isSome = true ↔ |a - b| < overflowLimit := by
  rw [closeVerdict, Option.isSome_map, computed_isSome]

theorem computed_bind_isSome {α : Type} {f : ℚ → Option α} :
    ((computed a).bind f).isSome = true ↔ |a| < overflowLimit ∧ (f (decimals.round a)).isSome = true := by
  rw [computed_eq]
  split_ifs with h <;> simp [h]

theorem arithmeticVerdict_isSome {subtotal tax total : ℚ} : (arithmeticVerdict subtotal tax total).isSome = true ↔
    |subtotal + tax| < overflowLimit ∧ |decimals.round (subtotal + tax) - total| < overflowLimit := by
  rw [arithmeticVerdict, computed_bind_isSome, closeVerdict_isSome]

/-- A sum that was computed is the rounded sum. -/
theorem linesTotal_eq (h : (linesTotal l).isSome = true) : linesTotal l = some (roundedSum l) := by
  obtain ⟨s, hs⟩ := Option.isSome_iff_exists.mp h
  rw [hs, roundedSum, foldlM_computed hs]

theorem linesTotal_append (x : ℚ) : linesTotal (l ++ [x]) = (linesTotal l).bind fun s => computed (s + x) := by
  rw [linesTotal, List.foldlM_append]
  simp only [List.foldlM_cons, List.foldlM_nil, bind_pure]
  rfl

theorem linesTotal_isSome : (linesTotal l).isSome = true ↔
    ∀ l₁ x l₂, l = l₁ ++ x :: l₂ → |roundedSum l₁ + x| < overflowLimit := by
  induction l using List.reverseRecOn with
  | nil =>
    refine iff_of_true rfl fun l₁ x l₂ h => ?_
    simp at h
  | append_singleton l y ih =>
    constructor
    · intro h l₁ x l₂ heq
      rw [linesTotal_append] at h
      obtain ⟨s, hs⟩ := Option.isSome_iff_exists.mp h
      obtain ⟨t, ht, hs⟩ := Option.bind_eq_some_iff.mp hs
      have hl : (linesTotal l).isSome = true := by rw [ht]; rfl
      have htl : t = roundedSum l := Option.some.inj (ht.symm.trans (linesTotal_eq hl))
      rcases List.eq_nil_or_concat l₂ with rfl | ⟨l₂, z, rfl⟩
      · obtain ⟨rfl, hxy⟩ := List.append_inj' heq rfl
        obtain rfl : y = x := List.singleton_injective hxy
        rw [← htl]
        exact (computed_eq_some.mp hs).1
      · rw [List.concat_eq_append, ← List.cons_append, ← List.append_assoc] at heq
        exact ih.mp hl l₁ x l₂ (List.append_inj' heq rfl).1
    · intro h
      have hl := ih.mpr fun l₁ x l₂ heq => h l₁ x (l₂ ++ [y]) (by rw [heq, List.append_assoc, List.cons_append])
      rw [linesTotal_append, linesTotal_eq hl, Option.bind_some, computed_isSome]
      exact h l y [] rfl

theorem linesVerdict_isSome {subtotal : ℚ} : (linesVerdict l subtotal).isSome = true ↔
    (∀ l₁ x l₂, l = l₁ ++ x :: l₂ → |roundedSum l₁ + x| < overflowLimit) ∧
      |roundedSum l - subtotal| < overflowLimit := by
  rw [← linesTotal_isSome, linesVerdict]
  cases h : linesTotal l with
  | none => simp
  | some s =>
    have hs := linesTotal_eq (l := l) (by rw [h]; rfl)
    rw [h] at hs
    rw [Option.bind_some, closeVerdict_isSome, Option.some.inj hs]
    simp

theorem toleranceVerdict_isSome {total orderTotal : ℚ} : (toleranceVerdict total orderTotal).isSome = true ↔
    |total - orderTotal| < overflowLimit ∧ |decimals.round (total - orderTotal)| / |orderTotal| < overflowLimit := by
  rw [toleranceVerdict, computed_bind_isSome, Option.isSome_map, computed_isSome, abs_div, abs_abs]

/-! ## The rule set -/

/-- A rule raises, or gives a verdict. -/
theorem exists_ok_iff {x : Except PyDecimal.Signal RuleResult} {v : Option Bool}
    (h : x.toOption.map (·.passed) = v) : (∃ r, x = .ok r) ↔ v.isSome = true := by
  subst h
  cases x with
  | ok r => exact iff_of_true ⟨r, rfl⟩ rfl
  | error e =>
    refine iff_of_false ?_ (by simp [Except.toOption])
    rintro ⟨r, hr⟩
    cases hr

theorem arithmetic_ok_iff : (∃ r, ruleArithmeticConsistency inp = .ok r) ↔
    ∀ subtotal tax total, inp.invoice.subtotal = some subtotal → inp.invoice.taxAmount = some tax →
      inp.invoice.total = some total → |subtotal.toRat + tax.toRat| < overflowLimit ∧
        |decimals.round (subtotal.toRat + tax.toRat) - total.toRat| < overflowLimit := by
  constructor
  · intro h subtotal tax total hs hx ht
    exact arithmeticVerdict_isSome.mp ((exists_ok_iff (arithmetic_verdict hs hx ht)).mp h)
  · intro h
    cases hs : inp.invoice.subtotal with
    | none => exact ⟨_, by unfold ruleArithmeticConsistency; simp only [hs]; rfl⟩
    | some subtotal =>
      cases hx : inp.invoice.taxAmount with
      | none => exact ⟨_, by unfold ruleArithmeticConsistency; simp only [hs, hx]; rfl⟩
      | some tax =>
        cases ht : inp.invoice.total with
        | none => exact ⟨_, by unfold ruleArithmeticConsistency; simp only [hs, hx, ht]; rfl⟩
        | some total =>
          exact (exists_ok_iff (arithmetic_verdict hs hx ht)).mpr
            (arithmeticVerdict_isSome.mpr (h subtotal tax total hs hx ht))

/-- The items are all priced, or one has no line total. -/
theorem exists_priced {items : List LineItem}
    (h : (items.filterMap (·.lineTotal)).length = items.length) :
    items.map (·.lineTotal) = (items.filterMap (·.lineTotal)).map some := by
  induction items with
  | nil => rfl
  | cons item items ih =>
    cases hi : item.lineTotal with
    | none =>
      have hle : (items.filterMap (·.lineTotal)).length ≤ items.length := List.length_filterMap_le ..
      rw [List.filterMap_cons_none hi, List.length_cons] at h
      exact absurd h (Nat.ne_of_lt (Nat.lt_succ_of_le hle))
    | some x =>
      rw [List.filterMap_cons_some hi, List.length_cons, List.length_cons] at h
      rw [List.map_cons, List.filterMap_cons_some hi, List.map_cons, hi, ih (Nat.succ.inj h)]

theorem lines_ok_iff : (∃ r, ruleLineItemsSumToSubtotal inp = .ok r) ↔
    ∀ (subtotal : PyDecimal) (lineTotals : List PyDecimal), inp.invoice.subtotal = some subtotal →
      inp.invoice.lineItems ≠ [] → inp.invoice.lineItems.map (·.lineTotal) = lineTotals.map some →
      (∀ l₁ x l₂, lineTotals.map PyDecimal.toRat = l₁ ++ x :: l₂ → |roundedSum l₁ + x| < overflowLimit) ∧
        |roundedSum (lineTotals.map PyDecimal.toRat) - subtotal.toRat| < overflowLimit := by
  constructor
  · intro h subtotal lineTotals hs hne hl
    exact linesVerdict_isSome.mp ((exists_ok_iff (lines_verdict hs hl hne)).mp h)
  · intro h
    cases hi : inp.invoice.lineItems with
    | nil => exact ⟨_, by unfold ruleLineItemsSumToSubtotal; simp only [hi]; rfl⟩
    | cons item items =>
      cases hs : inp.invoice.subtotal with
      | none => exact ⟨_, by unfold ruleLineItemsSumToSubtotal; simp only [hi, hs]; rfl⟩
      | some subtotal =>
        have hne : inp.invoice.lineItems ≠ [] := by rw [hi]; exact List.cons_ne_nil _ _
        by_cases hlen : (inp.invoice.lineItems.filterMap (·.lineTotal)).length = inp.invoice.lineItems.length
        · have hl := exists_priced hlen
          exact (exists_ok_iff (lines_verdict hs hl hne)).mpr (linesVerdict_isSome.mpr (h subtotal _ hs hne hl))
        · rw [hi] at hlen
          exact ⟨_, by unfold ruleLineItemsSumToSubtotal; simp only [hi, hs, hlen, ne_eq, not_false_eq_true, if_true]; rfl⟩

theorem amount_ok_iff : (∃ r, rulePoAmountTolerance inp = .ok r) ↔
    ∀ total order, inp.invoice.total = some total → inp.matchedPo = some order → order.total.toRat ≠ 0 →
      |total.toRat - order.total.toRat| < overflowLimit ∧
        |decimals.round (total.toRat - order.total.toRat)| / |order.total.toRat| < overflowLimit := by
  constructor
  · intro h total order ht hpo hne
    exact toleranceVerdict_isSome.mp ((exists_ok_iff (tolerance_verdict ht hpo hne)).mp h)
  · intro h
    cases hpo : inp.matchedPo with
    | none => exact ⟨_, by unfold rulePoAmountTolerance; simp only [hpo]; rfl⟩
    | some order =>
      cases ht : inp.invoice.total with
      | none => exact ⟨_, by unfold rulePoAmountTolerance; simp only [hpo, ht]; rfl⟩
      | some total =>
        by_cases hne : order.total.toRat = 0
        · have hz := (PyDecimal.isZero_iff order.total).mpr hne
          exact ⟨_, by unfold rulePoAmountTolerance; simp only [hpo, ht, hz, if_true]; rfl⟩
        · exact (exists_ok_iff (tolerance_verdict ht hpo hne)).mpr
            (toleranceVerdict_isSome.mpr (h total order ht hpo hne))

theorem runRules_ok_iff {py : Py} : (∃ results, runRules py inp = .ok results) ↔
    (∃ r, ruleArithmeticConsistency inp = .ok r) ∧ (∃ r, ruleLineItemsSumToSubtotal inp = .ok r) ∧
      ∃ r, rulePoAmountTolerance inp = .ok r := by
  constructor
  · rintro ⟨results, h⟩
    obtain ⟨arithmetic, lines, amount, ha, hl, hm, -⟩ := runRules_eq_ok h
    exact ⟨⟨arithmetic, ha⟩, ⟨lines, hl⟩, amount, hm⟩
  · rintro ⟨⟨arithmetic, ha⟩, ⟨lines, hl⟩, amount, hm⟩
    exact ⟨_, by unfold runRules; simp only [ha, hl, hm, PyDecimal.ok_bind]; rfl⟩

/-- The rule set raises nothing exactly when nothing overflows. -/
theorem runRules_ok_iff_noOverflow {py : Py} :
    (∃ results, runRules py inp = .ok results ∧ results.length = 7) ↔ NoOverflow inp.invoice inp.matchedPo := by
  have hlength : ∀ {results}, runRules py inp = .ok results → results.length = 7 := by
    intro results h
    obtain ⟨arithmetic, lines, amount, -, -, -, rfl⟩ := runRules_eq_ok h
    rfl
  have hok : (∃ results, runRules py inp = .ok results ∧ results.length = 7) ↔ ∃ results, runRules py inp = .ok results :=
    exists_congr fun results => and_iff_left_of_imp hlength
  rw [hok, runRules_ok_iff, arithmetic_ok_iff, lines_ok_iff, amount_ok_iff]
  constructor
  · rintro ⟨ha, hl, hm⟩
    exact ⟨ha, hl, hm⟩
  · rintro ⟨ha, hl, hm⟩
    exact ⟨ha, hl, hm⟩

end overflow

/-- **What validation needs.** The rules raise nothing exactly when nothing
overflows, and exactly then a validating invoice with a result is validated;
else the transaction is rolled back, with nothing on record. -/
theorem validated_iff_noOverflow {env : Env} {w : World} {inv : Invoice} {r : ExtractionResult}
    (hrow : w.now.invoice inv.id = some inv) (hs : inv.status = .validating) (hr : inv.result = some r) :
    (∀ inp : ValidationInput, (∃ results, runRules env.py inp = .ok results ∧ results.length = 7) ↔
        NoOverflow inp.invoice inp.matchedPo) ∧
      (((served (runValidation env inv.id) w).2.now.invoice inv.id).map (·.status) = some .validated ↔
        NoOverflow r.invoice ((poOf w.now (latestMatch inv.invoiceMatches)).map poSnapshot)) := by
  refine ⟨fun inp => runRules_ok_iff_noOverflow, ?_⟩
  obtain ⟨cs, -, h⟩ := @served_runValidation env _ _ _ hrow hs hr
  have hiff := @runRules_ok_iff_noOverflow (inv.ruleInput r.invoice w.now cs) env.py
  generalize (served (runValidation env inv.id) w).2.now = d' at h
  cases h with
  | raised herr =>
    refine iff_of_false ?_ fun hno => ?_
    · rw [hrow, Option.map_some, hs]
      decide
    · obtain ⟨results, hok, -⟩ := hiff.mpr hno
      cases herr.symm.trans hok
  | @validated results inv' _ hok hinv' hch =>
    obtain ⟨_, _, _, -, -, -, hresults⟩ := runRules_eq_ok hok
    refine iff_of_true ?_ (hiff.mp ⟨results, hok, by rw [hresults]; rfl⟩)
    rw [hch.self, Option.map_some, hinv'.status]

namespace Sample

/-- An invoice in VALIDATING with this extraction, -/
def validatingRow (extracted : ExtractedInvoice) : Invoice :=
  ⟨uuid 5, .validating, .upload, "invoice.pdf", "application/pdf", 0, "", "", none,
    [⟨"model", .pdfplumber, 1, true, some ⟨extracted, .empty, none⟩, some .empty, none, none⟩], [], [], [], []⟩

/-- and no other. -/
def validating (extracted : ExtractedInvoice) : World where
  now := ⟨.empty, .empty, ⟨[validatingRow extracted], by simp⟩⟩
  past := []
  ext := ⟨.empty, fun _ => none, []⟩
  sent := []

theorem status_taxed :
    statusOf (served (runValidation env (uuid 5)) (validating taxed.invoice)).2 5 = some .validated := by decide +kernel

theorem validated_taxed : NoOverflow taxed.invoice none ∧
    (∃ results, runRules py taxed = .ok results ∧ results.length = 7) ∧
    statusOf (served (runValidation env (uuid 5)) (validating taxed.invoice)).2 5 = some .validated := by
  obtain ⟨hrules, hstatus⟩ :=
    @validated_iff_noOverflow env (validating taxed.invoice) (validatingRow taxed.invoice) _ rfl rfl rfl
  have hno : NoOverflow taxed.invoice none := hstatus.mp status_taxed
  exact ⟨hno, (hrules taxed).mpr hno, status_taxed⟩

/-- `9E999999` and the same again: their sum has no representation, and the
invoice is left in VALIDATING. -/
def vast : ValidationInput := amounts ⟨false, 9, 999999⟩ ⟨false, 9, 999999⟩ ⟨false, 1, 0⟩ []

theorem stalled_vast : (runRules py vast).toOption.isNone = true ∧
    statusOf (validating vast.invoice) 5 = some .validating ∧
    (served (runValidation env (uuid 5)) (validating vast.invoice)).1.isOk = false ∧
    statusOf (served (runValidation env (uuid 5)) (validating vast.invoice)).2 5 = some .validating := by
  decide +kernel

end Sample

end InvoiceOps
