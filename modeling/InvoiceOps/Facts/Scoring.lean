/-
The comparison of amounts in the score. An amount is compared by the text of
what it is quantized to, or by its own text where it has too many digits for
that (`compared`); both are texts of numbers in the sense of `PyDecimal.str`,
so equal texts are equal signs, coefficients and exponents. That is a
comparison of cents but for the sign of a zero and for the amounts that are
not quantized.
-/
import InvoiceOps.Evaluation.Scoring
import InvoiceOps.Facts.Serial
import InvoiceOps.Lib.PyDecimalRounding

namespace InvoiceOps

open PyDecimal (defaultContext)

/-- The amount, rounded half-even to cents. -/
def cents (d : PyDecimal) : ℤ := Rounding.nearestEven (d.toRat * 100)

/-- What an amount is compared by. -/
def compared (d : PyDecimal) : PyDecimal := (d.quantize defaultContext (-2)).getD d

section compared
variable {d e a : PyDecimal}

theorem rescale_cents (d : PyDecimal) : (d.rescale (-2)).signed = cents d := by
  rw [PyDecimal.rescale_signed, cents, zpow_neg, div_inv_eq_mul]
  norm_num

theorem coef_cents (d : PyDecimal) : (d.rescale (-2)).coef = (cents d).natAbs := by
  rw [← rescale_cents, PyDecimal.natAbs_signed]

theorem rescale_exp (d : PyDecimal) : (d.rescale (-2)).exp = -2 := by
  rw [PyDecimal.rescale]
  split <;> rfl

theorem rescale_sign (d : PyDecimal) : (d.rescale (-2)).sign = d.sign := by
  rw [PyDecimal.rescale]
  split <;> rfl

theorem rescale_eq (d : PyDecimal) : d.rescale (-2) = ⟨d.sign, (cents d).natAbs, -2⟩ := calc
  d.rescale (-2) = ⟨(d.rescale (-2)).sign, (d.rescale (-2)).coef, (d.rescale (-2)).exp⟩ := rfl
  _ = ⟨d.sign, (cents d).natAbs, -2⟩ := by rw [rescale_sign, coef_cents, rescale_exp]

theorem quantize_cents (d : PyDecimal) : d.quantize defaultContext (-2) =
    if (cents d).natAbs < 10 ^ 28 then some (d.rescale (-2)) else none := by
  rw [PyDecimal.quantize_eq (by decide) (by decide) (by decide), coef_cents]
  rfl

theorem compared_of_lt (h : (cents d).natAbs < 10 ^ 28) : compared d = d.rescale (-2) := by
  rw [compared, quantize_cents, if_pos h, Option.getD_some]

theorem compared_of_ge (h : 10 ^ 28 ≤ (cents d).natAbs) : compared d = d := by
  rw [compared, quantize_cents, if_neg (not_lt.mpr h), Option.getD_none]

/-- A number other than zero has the sign of its text. -/
theorem sign_of_signed (hcoef : e.coef ≠ 0) (h : e.signed = a.signed) : e.sign = a.sign := by
  have habs : a.coef = e.coef := by rw [← PyDecimal.natAbs_signed, ← h, PyDecimal.natAbs_signed]
  unfold PyDecimal.signed at h
  rw [habs] at h
  cases he : e.sign <;> cases ha : a.sign <;> simp only [he, ha] at h ⊢ <;> grind

/-- What a small amount is compared by is not what a large one is. -/
theorem compared_ne (he : (cents e).natAbs < 10 ^ 28) (ha : 10 ^ 28 ≤ (cents a).natAbs) : compared e ≠ compared a := by
  intro h
  rw [compared_of_lt he, compared_of_ge ha] at h
  have hcoef : (cents a).natAbs = (cents e).natAbs := by
    have hself : a.rescale (-2) = a := by rw [← rescale_exp e, h]; exact PyDecimal.rescale_self a
    rw [← coef_cents, hself, ← h, coef_cents]
  omega

/-- An amount quantized is its cents, and the sign where they are none. -/
theorem rescale_eq_iff : e.rescale (-2) = a.rescale (-2) ↔ cents e = cents a ∧ (cents e = 0 → e.sign = a.sign) := by
  constructor
  · intro h
    refine ⟨by rw [← rescale_cents, h, rescale_cents], fun _ => ?_⟩
    rw [← rescale_sign e, h, rescale_sign]
  · rintro ⟨hcents, hzero⟩
    have hsign : e.sign = a.sign := by
      by_cases h0 : cents e = 0
      · exact hzero h0
      rw [← rescale_sign e, ← rescale_sign a]
      refine sign_of_signed ?_ (by rw [rescale_cents, rescale_cents, hcents])
      rw [coef_cents]
      exact Int.natAbs_ne_zero.mpr h0
    rw [rescale_eq, rescale_eq, hsign, hcents]

/-- **Amounts that compare equal**: the same cents, with the same sign if
they are none, and spelled the same where they are not quantized. -/
theorem compared_eq_iff : compared e = compared a ↔
    cents e = cents a ∧ (cents e = 0 → e.sign = a.sign) ∧ (10 ^ 28 ≤ (cents e).natAbs → e = a) := by
  rcases Nat.lt_or_ge (cents e).natAbs (10 ^ 28) with he | he <;>
    rcases Nat.lt_or_ge (cents a).natAbs (10 ^ 28) with ha | ha
  · rw [compared_of_lt he, compared_of_lt ha, rescale_eq_iff]
    exact and_congr_right fun _ => (and_iff_left fun h => absurd he (not_lt.mpr h)).symm
  · refine iff_of_false (compared_ne he ha) fun h => ?_
    rw [h.1] at he
    omega
  · refine iff_of_false (compared_ne ha he).symm fun h => ?_
    rw [h.1] at he
    omega
  · rw [compared_of_ge he, compared_of_ge ha]
    exact ⟨fun h => h ▸ ⟨rfl, fun _ => rfl, fun _ => rfl⟩, fun h => h.2.2 he⟩

end compared

/-! ## The texts compared -/

section text
variable {py : Py}

/-- The letter of an exponent, in upper case again. -/
def restore (c : Char) : Char := if c = 'e' then 'E' else c

theorem toLower_digit {c : Char} (h : c.isDigit = true) : c.toLower = c := by
  have hc := Char.isDigit_iff_toNat.mp h
  have hlower : ¬ ('A'.val ≤ c.val ∧ c.val ≤ 'Z'.val) := by
    intro hupper
    have hA : 65 ≤ c.toNat := UInt32.le_iff_toNat_le.mp hupper.1
    have h9 : '9'.toNat = 57 := rfl
    omega
  exact dif_neg hlower

/-- What stands in a number's text is between `+` and `E`. -/
theorem toNat_of_mem_str {d : PyDecimal} {c : Char} (h : c ∈ d.str.toList) : 0x2b ≤ c.toNat ∧ c.toNat ≤ 0x45 := by
  rcases PyDecimal.mem_str h with hdigit | hmark
  · have hc := Char.isDigit_iff_toNat.mp hdigit
    have h0 : '0'.toNat = 48 := rfl
    have h9 : '9'.toNat = 57 := rfl
    omega
  · simp only [List.mem_cons, List.not_mem_nil, or_false] at hmark
    rcases hmark with rfl | rfl | rfl | rfl <;> decide

theorem restore_of_mem_str {d : PyDecimal} {c : Char} (h : c ∈ d.str.toList) : restore c = c := by
  rw [restore, if_neg]
  rintro rfl
  have he : 'e'.toNat = 0x65 := rfl
  have := toNat_of_mem_str h
  omega

theorem restore_toLower_of_mem_str {d : PyDecimal} {c : Char} (h : c ∈ d.str.toList) : restore c.toLower = c := by
  rcases PyDecimal.mem_str h with hdigit | hmark
  · rw [toLower_digit hdigit, restore_of_mem_str h]
  · simp only [List.mem_cons, List.not_mem_nil, or_false] at hmark
    rcases hmark with rfl | rfl | rfl | rfl <;> decide

theorem Py.strip_eq_self {s : String} (h : ∀ c ∈ s.toList, py.isspace c = false) : py.strip s = s := by
  have hdrop : ∀ cs : List Char, (∀ c ∈ cs, py.isspace c = false) → cs.dropWhile py.isspace = cs := by
    intro cs hcs
    cases cs with
    | nil => rfl
    | cons c cs => rw [List.dropWhile_cons, hcs c (List.mem_cons_self ..), if_neg Bool.false_ne_true]
  rw [Py.strip, hdrop _ h, hdrop _ fun c hc => h c (List.mem_reverse.mp hc), List.reverse_reverse, String.ofList_toList]

theorem strip_str (hpy : py.Ascii) (d : PyDecimal) : py.strip d.str = d.str := by
  refine Py.strip_eq_self fun c hc => ?_
  have hbounds := toNat_of_mem_str hc
  rw [Bool.eq_false_iff, ne_eq, hpy.isspace c (by omega)]
  rintro (rfl | hcontrol | hseparator)
  · exact absurd hbounds.1 (by decide)
  · omega
  · omega

theorem lower_str (hpy : py.Ascii) (d : PyDecimal) : py.lower d.str = String.ofList (d.str.toList.map Char.toLower) :=
  hpy.lower _ fun _ hc => (toNat_of_mem_str hc).2.trans_lt (by decide)

/-- An amount's text for comparison. -/
theorem normMoney_eq (hpy : py.Ascii) (d : PyDecimal) : normMoney py (some (.money d)) =
    some (if (cents d).natAbs < 10 ^ 28 then (compared d).str else py.lower (compared d).str) := by
  rw [normMoney, Option.map_some, FieldValue.str, quantizedText, PyDecimal.ofStr?_str, Option.bind_some, quantize_cents]
  split
  next h => rw [Option.map_some, Option.getD_some, compared_of_lt h]
  next h => rw [Option.map_none, Option.getD_none, strip_str hpy, compared_of_ge (not_lt.mp h)]

/-- The text gives back what the amount is compared by. -/
theorem restore_normMoney (hpy : py.Ascii) (d : PyDecimal) :
    (normMoney py (some (.money d))).map (fun s => s.toList.map restore) = some (compared d).str.toList := by
  rw [normMoney_eq hpy, Option.map_some]
  congr 1
  split
  · rw [List.map_congr_left fun c hc => restore_of_mem_str hc, List.map_id']
  · rw [lower_str hpy, String.toList_ofList, List.map_map]
    exact (List.map_congr_left fun c hc => restore_toLower_of_mem_str hc).trans (List.map_id' _)

theorem normMoney_eq_iff (hpy : py.Ascii) (e a : PyDecimal) :
    normMoney py (some (.money e)) = normMoney py (some (.money a)) ↔ compared e = compared a := by
  constructor
  · intro h
    have hlist : (compared e).str.toList = (compared a).str.toList :=
      Option.some.inj (by rw [← restore_normMoney hpy, h, restore_normMoney hpy])
    exact PyDecimal.str_injective (String.toList_inj.mp hlist)
  · intro h
    rw [normMoney_eq hpy, normMoney_eq hpy, h, (compared_eq_iff.mp h).1]

end text

/-! ## The verdict -/

/-- Amounts of the same cents that are not judged the same: nothing with
either sign, and an amount too large to be quantized in two spellings. -/
def SpelledApart (e a : PyDecimal) : Prop :=
  cents e = cents a ∧ (cents e = 0 ∧ e.sign ≠ a.sign ∨ 10 ^ 28 ≤ (cents e).natAbs ∧ e ≠ a)

section verdict
variable {py : Py} {field : String}

/-- Two amounts are judged correct or wrong, by their texts. -/
theorem verdict_money (hfield : field ∈ moneyFields) (e a : PyDecimal) :
    verdict py field (some (.money e)) (some (.money a)) =
      if normMoney py (some (.money e)) = normMoney py (some (.money a)) then .correct else .wrong := by
  have hnorm : normalize py field = normMoney py := by rw [normalize, if_pos (List.contains_iff_mem.mpr hfield)]
  have hsome : ∀ d : PyDecimal, ∃ text, normMoney py (some (.money d)) = some text := fun d => ⟨_, rfl⟩
  obtain ⟨expected, he⟩ := hsome e
  obtain ⟨actual, ha⟩ := hsome a
  rw [verdict, hnorm, he, ha]
  simp only [Option.some.injEq]

theorem verdict_correct_iff (hpy : py.Ascii) (hfield : field ∈ moneyFields) (e a : PyDecimal) :
    verdict py field (some (.money e)) (some (.money a)) = .correct ↔ cents e = cents a ∧ ¬ SpelledApart e a := by
  rw [verdict_money hfield, ite_eq_left_iff, normMoney_eq_iff hpy, compared_eq_iff, SpelledApart]
  simp only [reduceCtorEq, imp_false, not_not]
  tauto

theorem cents_eq_of_toRat {d d' : PyDecimal} (h : d.toRat = d'.toRat) : cents d = cents d' := by
  rw [cents, h, cents]

/-- Two verdicts on amounts are the same when they are correct together. -/
theorem verdict_eq_iff (hfield : field ∈ moneyFields) (e a e' a' : PyDecimal) :
    verdict py field (some (.money e')) (some (.money a')) = verdict py field (some (.money e)) (some (.money a)) ↔
      (verdict py field (some (.money e')) (some (.money a')) = .correct ↔
        verdict py field (some (.money e)) (some (.money a)) = .correct) := by
  rw [verdict_money hfield, verdict_money hfield]
  split <;> split <;> simp

/-- **Which amounts are judged by their cents**: all but those that are
spelled apart. So a numerically equal amount is correct, and may replace
another without a change of the verdict, exactly where it is not spelled
apart from the one it is compared with. -/
theorem money_verdict (hpy : py.Ascii) (hfield : field ∈ moneyFields) (e a : PyDecimal) :
    ((verdict py field (some (.money e)) (some (.money a)) = .correct ↔ cents e = cents a) ↔ ¬ SpelledApart e a) ∧
    (e.toRat = a.toRat →
      (verdict py field (some (.money e)) (some (.money a)) = .correct ↔ ¬ SpelledApart e a)) ∧
    (∀ e', e'.toRat = e.toRat →
      (verdict py field (some (.money e')) (some (.money a)) = verdict py field (some (.money e)) (some (.money a)) ↔
        (SpelledApart e' a ↔ SpelledApart e a))) ∧
    (∀ a', a'.toRat = a.toRat →
      (verdict py field (some (.money e)) (some (.money a')) = verdict py field (some (.money e)) (some (.money a)) ↔
        (SpelledApart e a' ↔ SpelledApart e a))) := by
  have hcents : ∀ {e a}, SpelledApart e a → cents e = cents a := fun h => h.1
  refine ⟨?_, fun h => ?_, fun e' h => ?_, fun a' h => ?_⟩
  · rw [verdict_correct_iff hpy hfield, and_iff_left_iff_imp]
    exact ⟨fun h hapart => h (hcents hapart) hapart, fun h _ => h⟩
  · rw [verdict_correct_iff hpy hfield, and_iff_right (cents_eq_of_toRat h)]
  · rw [verdict_eq_iff hfield, verdict_correct_iff hpy hfield, verdict_correct_iff hpy hfield, cents_eq_of_toRat h]
    have h₁ := @hcents e a
    have h₂ : SpelledApart e' a → cents e = cents a := fun hapart => cents_eq_of_toRat h ▸ hcents hapart
    tauto
  · rw [verdict_eq_iff hfield, verdict_correct_iff hpy hfield, verdict_correct_iff hpy hfield, cents_eq_of_toRat h]
    have h₁ := @hcents e a
    have h₂ : SpelledApart e a' → cents e = cents a := fun hapart => cents_eq_of_toRat h ▸ hcents hapart
    tauto

end verdict

namespace Sample

theorem py_ascii : py.Ascii := ⟨fun _ _ => rfl, fun _ _ => decide_eq_true_iff⟩

/-- 100.00 for 100.0. -/
theorem verdict_of_hundred :
    verdict py "total" (some (.money ⟨false, 10000, -2⟩)) (some (.money ⟨false, 1000, -1⟩)) = .correct := by
  have hvalue : (⟨false, 10000, -2⟩ : PyDecimal).toRat = (⟨false, 1000, -1⟩ : PyDecimal).toRat := by
    rw [PyDecimal.toRat, PyDecimal.toRat, PyDecimal.signed, PyDecimal.signed]
    norm_num
  have hcents : cents ⟨false, 10000, -2⟩ = 10000 := by
    have hinteger : (⟨false, 10000, -2⟩ : PyDecimal).toRat * 100 = ((10000 : ℤ) : ℚ) := by
      rw [PyDecimal.toRat, PyDecimal.signed]
      norm_num
    rw [cents, hinteger, Rounding.nearestEven_intCast]
  have hnot : ¬ SpelledApart ⟨false, 10000, -2⟩ ⟨false, 1000, -1⟩ := by
    rintro ⟨-, ⟨-, hsign⟩ | ⟨hlarge, -⟩⟩
    · exact hsign rfl
    · rw [hcents] at hlarge
      exact absurd hlarge (by decide)
  exact ((money_verdict py_ascii (by decide) ⟨false, 10000, -2⟩ ⟨false, 1000, -1⟩).2.1 hvalue).mpr hnot

/-- 0.00 for -0.00, and 1E+27 for the same written out, are wrong. -/
theorem verdict_of_spellings :
    ¬ (verdict py "tax_amount" (some (.money ⟨false, 0, -2⟩)) (some (.money ⟨true, 0, -2⟩)) = .correct ↔
      cents ⟨false, 0, -2⟩ = cents ⟨true, 0, -2⟩) ∧
    ¬ (verdict py "total" (some (.money ⟨false, 1, 27⟩)) (some (.money ⟨false, 10 ^ 27, 0⟩)) = .correct ↔
      cents ⟨false, 1, 27⟩ = cents ⟨false, 10 ^ 27, 0⟩) := by
  constructor
  · have hwrong : verdict py "tax_amount" (some (.money ⟨false, 0, -2⟩)) (some (.money ⟨true, 0, -2⟩)) = .wrong := by
      decide +kernel
    have hcents : cents ⟨false, 0, -2⟩ = cents ⟨true, 0, -2⟩ :=
      cents_eq_of_toRat (by rw [PyDecimal.toRat_of_coef_zero rfl, PyDecimal.toRat_of_coef_zero rfl])
    rw [hwrong]
    exact fun h => absurd (h.mpr hcents) (by decide)
  · have hwrong : verdict py "total" (some (.money ⟨false, 1, 27⟩)) (some (.money ⟨false, 10 ^ 27, 0⟩)) = .wrong := by
      decide +kernel
    have hcents : cents ⟨false, 1, 27⟩ = cents ⟨false, 10 ^ 27, 0⟩ :=
      cents_eq_of_toRat (by rw [PyDecimal.toRat, PyDecimal.toRat, PyDecimal.signed, PyDecimal.signed]; norm_num)
    rw [hwrong]
    exact fun h => absurd (h.mpr hcents) (by decide)

end Sample

end InvoiceOps
