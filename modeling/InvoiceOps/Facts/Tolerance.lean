/-
The tolerance rule against a purchase order. The quotient it compares with
2% keeps the sign of the order's total, and is rounded twice, so an order
below zero takes any invoice, and an order above zero takes a little more
than 2%: how much more depends on the digits of its total.
-/
import InvoiceOps.Facts.Overflow

namespace InvoiceOps

open PyDecimal (defaultContext)

/-! ## The edge -/

/-- The unit of the 28 digits of 2% of `n` cents. -/
def toleranceUnit (n : ℕ) : ℚ := 10 ^ ((Nat.log 10 (2 * n) : ℤ) - 31)

/-- Half a unit of the quotient's last digit, in whole units of the
difference. -/
def toleranceSlack (n : ℕ) : ℕ := 5 * n / 10 ^ (Nat.log 10 (2 * n) + 1)

/-- Differences up to here are rounded to no more than 2% of `n` cents. -/
def toleranceEdge (n : ℕ) : ℚ := n / 5000 + (toleranceSlack n + 1 / 2) * toleranceUnit n

/-- From here on a difference from `n` cents, or its quotient, overflows. -/
def toleranceLimit (n : ℕ) : ℚ :=
  let c := min n 100
  (c * 10 ^ (28 - Nat.clog 10 c) - 1 / 2) * 10 ^ (999970 + Nat.clog 10 c : ℤ)

section edge
variable {n : ℕ} {v : ℚ}

theorem log_le_of_bound (h : n < 10 ^ 12) : Nat.log 10 (2 * n) ≤ 12 := by
  have : 2 * n < 10 ^ 13 := by omega
  exact Nat.lt_succ_iff.mp (Nat.log_lt_of_lt_pow' (by norm_num) this)

theorem toleranceSlack_le (n : ℕ) : toleranceSlack n ≤ 2 := by
  have h : 2 * n < 10 ^ (Nat.log 10 (2 * n) + 1) := Nat.lt_pow_succ_log_self (by norm_num) _
  rw [toleranceSlack]
  have : 5 * n / 10 ^ (Nat.log 10 (2 * n) + 1) < 3 := (Nat.div_lt_iff_lt_mul (by positivity)).mpr (by omega)
  omega

/-- The difference is compared with 2% and half a unit of the quotient's
last digit, itself rounded. -/
theorem round_le_edge (hn : 0 < n) (hbound : n < 10 ^ 12) :
    decimals.round v ≤ n / 5000 + 5 * n / 10 ^ 32 ↔
      v < toleranceEdge n ∨ v = toleranceEdge n ∧ toleranceSlack n ≠ 1 := by
  have hlog := log_le_of_bound hbound
  have hlow : 10 ^ Nat.log 10 (2 * n) ≤ 2 * n := Nat.pow_log_le_self 10 (by omega)
  have hhigh : 2 * n < 10 ^ (Nat.log 10 (2 * n) + 1) := Nat.lt_pow_succ_log_self (by norm_num) _
  have hslack := toleranceSlack_le n
  have hmod : 5 * n = 10 ^ (Nat.log 10 (2 * n) + 1) * toleranceSlack n + 5 * n % 10 ^ (Nat.log 10 (2 * n) + 1) :=
    (Nat.div_add_mod _ _).symm
  have hlt : 5 * n % 10 ^ (Nat.log 10 (2 * n) + 1) < 10 ^ (Nat.log 10 (2 * n) + 1) := Nat.mod_lt _ (by positivity)
  rw [toleranceEdge, toleranceUnit]
  generalize toleranceSlack n = s at *
  generalize Nat.log 10 (2 * n) = l at *
  generalize 5 * n % 10 ^ (l + 1) = rest at *
  -- `q` of the finer units make one, and `p` coarser ones a digit of the amount.
  have hu := Rounding.Format.ten_pos ((l : ℤ) - 31)
  have hq : ((10 ^ (l + 1) : ℕ) : ℚ) = 10 ^ 32 * 10 ^ ((l : ℤ) - 31) := by
    rw [Nat.cast_pow, ← zpow_natCast, ← zpow_natCast, Nat.cast_ofNat, ← Rounding.Format.ten_add]
    congr 1
    push_cast
    ring
  have hp : ((10 ^ (27 - l) : ℕ) : ℚ) * 10 ^ ((l : ℤ) - 31) = 1 / 10 ^ 4 := by
    rw [Nat.cast_pow, ← zpow_natCast, Nat.cast_ofNat, ← Rounding.Format.ten_add]
    rw [show ((27 - l : ℕ) : ℤ) + (l - 31) = -4 by omega]
    norm_num
  have hpq : 10 ^ l * 10 ^ (27 - l) = 10 ^ 27 := by rw [← pow_add]; congr 1; omega
  have hple : 10 ^ 15 ≤ 10 ^ (27 - l) := Nat.pow_le_pow_right (by norm_num) (by omega)
  have hpow : 10 ^ (l + 1) = 10 * 10 ^ l := pow_succ' 10 l
  have hfirst : 10 ^ 27 ≤ 2 * n * 10 ^ (27 - l) + s := by
    have := Nat.mul_le_mul_right (10 ^ (27 - l)) hlow
    omega
  have hlast : 2 * n * 10 ^ (27 - l) + s < 10 ^ 28 := by
    have := Nat.mul_le_mul_right (10 ^ (27 - l)) (show 2 * n + 1 ≤ 10 * 10 ^ l by omega)
    rw [mul_assoc 10, hpq, Nat.add_mul] at this
    omega
  -- 2% and what is added to it, in the coarser unit.
  have hn' : (n : ℚ) / 5000 = (2 * n * (10 ^ (27 - l) : ℕ) : ℚ) * 10 ^ ((l : ℤ) - 31) := by
    rw [mul_assoc, hp]
    ring
  have hadd : 5 * (n : ℚ) / 10 ^ 32 = s * 10 ^ ((l : ℤ) - 31) + rest / 10 ^ 32 := by
    have hcast : (5 : ℚ) * n = (10 ^ (l + 1) : ℕ) * s + rest := by exact_mod_cast hmod
    rw [hcast, hq]
    ring
  have hrest : (rest : ℚ) / 10 ^ 32 < 10 ^ ((l : ℤ) - 31) := by
    rw [div_lt_iff₀ (by positivity), mul_comm, ← hq]
    exact_mod_cast hlt
  have hrest0 : (0 : ℚ) ≤ rest / 10 ^ 32 := by positivity
  have hcast : (((2 * n * 10 ^ (27 - l) + s : ℕ) : ℤ) : ℚ) = 2 * n * (10 ^ (27 - l) : ℕ) + s := by push_cast; ring
  have heven : Even ((2 * n * 10 ^ (27 - l) + s : ℕ) : ℤ) ↔ s ≠ 1 := by
    rw [Int.even_coe_nat, mul_assoc, Nat.even_add, iff_true_left (even_two_mul _)]
    rw [Nat.even_iff]
    omega
  have key := Rounding.Format.round_le_iff_of_between (f := decimals) (n := (2 * n * 10 ^ (27 - l) + s : ℕ))
    (e := (l : ℤ) - 31) (x := n / 5000 + 5 * n / 10 ^ 32) (v := v)
    (by change (10 : ℤ) ^ 27 ≤ _; exact_mod_cast hfirst) (by change _ < (10 : ℤ) ^ 28; exact_mod_cast hlast)
    (by change (-1000026 : ℤ) ≤ _; omega) (by rw [hcast, hn', hadd]; linarith) (by rw [hcast, hn', hadd]; linarith)
  rw [key, hcast, heven]
  rw [show (2 * (n : ℚ) * (10 ^ (27 - l) : ℕ) + s + 1 / 2) * 10 ^ ((l : ℤ) - 31) =
    n / 5000 + (s + 1 / 2) * 10 ^ ((l : ℤ) - 31) by rw [hn']; ring]

theorem overflowLimit_eq : overflowLimit = (100 * 10 ^ 28 - 50) * 10 ^ (999970 : ℤ) := by
  have hetop : defaultContext.etop = 999970 + 2 := by decide
  rw [overflowLimit, PyDecimal.Context.limit, hetop, Rounding.Format.ten_add]
  generalize (10 : ℚ) ^ (999970 : ℤ) = a
  norm_num [defaultContext]
  ring

/-- Of the digits of an order of up to 100 cents, the last that counts. -/
theorem clog_bounds {c : ℕ} (hc : 0 < c) (hle : c ≤ 100) :
    Nat.clog 10 c ≤ 2 ∧ c ≤ 10 ^ Nat.clog 10 c ∧ 10 ^ Nat.clog 10 c < 10 * c := by
  refine ⟨Nat.clog_le_of_le_pow hle, Nat.le_pow_clog (by norm_num) c, ?_⟩
  rcases (Nat.succ_le_of_lt hc).eq_or_lt with rfl | hlt
  · simp
  · have hpos := Nat.clog_pos (b := 10) (by norm_num) hlt
    have hpred := Nat.pow_pred_clog_lt_self (b := 10) (by norm_num) hlt
    obtain ⟨k, hk⟩ : ∃ k, Nat.clog 10 c = k + 1 := ⟨Nat.clog 10 c - 1, by omega⟩
    rw [hk, Nat.pred_succ] at hpred
    rw [hk, pow_succ']
    omega

/-- Against an order of up to 100 cents it is the quotient that overflows. -/
theorem round_lt_limit {c : ℕ} (hc : 0 < c) (hle : c ≤ 100) :
    decimals.round v < overflowLimit * (c / 100) ↔ v < toleranceLimit c := by
  obtain ⟨hk, hck, hkc⟩ := clog_bounds hc hle
  rw [toleranceLimit, Nat.min_eq_left hle, overflowLimit_eq]
  generalize Nat.clog 10 c = k at *
  have hpq : 10 ^ k * 10 ^ (28 - k) = 10 ^ 28 := by rw [← pow_add]; congr 1; omega
  obtain ⟨m, hm⟩ : ∃ m, m = c * 10 ^ (28 - k) := ⟨_, rfl⟩
  have hfirst : 10 ^ 27 + 1 ≤ m := by
    have := Nat.mul_lt_mul_of_pos_right hkc (show 0 < 10 ^ (28 - k) by positivity)
    rw [hpq, mul_assoc, ← hm] at this
    omega
  have hlast : m ≤ 10 ^ 28 := by
    have := Nat.mul_le_mul_right (10 ^ (28 - k)) hck
    rwa [hpq, ← hm] at this
  have hodd : ¬ Even ((m : ℤ) - 1) := by
    obtain ⟨j, hj⟩ : ∃ j, 28 - k = j + 1 := ⟨27 - k, by omega⟩
    rw [Int.even_sub_one, not_not, Int.even_coe_nat, hm, hj, pow_succ, ← mul_assoc, Nat.even_mul]
    exact .inr (by decide)
  have hmq : (c : ℚ) * 10 ^ (28 - k) = m := by rw [hm]; push_cast; rfl
  have hmk : (m : ℚ) * 10 ^ k = c * 10 ^ 28 := by
    have hpqq : (10 : ℚ) ^ k * 10 ^ (28 - k) = 10 ^ 28 := by exact_mod_cast hpq
    rw [← hmq, mul_assoc, mul_comm ((10 : ℚ) ^ (28 - k)), hpqq]
  have hkcq : (c : ℚ) < 2 * 10 ^ k := by
    have : c < 2 * 10 ^ k := by omega
    exact_mod_cast this
  have ha := Rounding.Format.ten_pos 999970
  have hunit : (10 : ℚ) ^ (999970 + k : ℤ) = 10 ^ k * 10 ^ (999970 : ℤ) := by
    rw [Rounding.Format.ten_add, zpow_natCast, mul_comm]
  generalize (10 : ℚ) ^ (999970 : ℤ) = a at *
  have hbelow : (((m : ℤ) - 1 : ℤ) : ℚ) * (10 ^ k * a) < (100 * 10 ^ 28 - 50) * a * (c / 100) :=
    calc (((m : ℤ) - 1 : ℤ) : ℚ) * (10 ^ k * a) = (c * 10 ^ 28 - 10 ^ k) * a := by rw [← hmk]; push_cast; ring
      _ < (c * 10 ^ 28 - c / 2) * a := mul_lt_mul_of_pos_right (by linarith) ha
      _ = (100 * 10 ^ 28 - 50) * a * (c / 100) := by ring
  have habove : (100 * 10 ^ 28 - 50) * a * (c / 100) ≤ ((((m : ℤ) - 1 : ℤ) : ℚ) + 1) * (10 ^ k * a) :=
    calc (100 * 10 ^ 28 - 50) * a * (c / 100) ≤ (c * 10 ^ 28) * a := by
          rw [show (100 * 10 ^ 28 - 50) * a * (c / 100) = (c * 10 ^ 28 - c / 2) * a by ring]
          exact mul_le_mul_of_nonneg_right (by have : (0 : ℚ) ≤ c := by positivity
                                               linarith) ha.le
      _ = _ := by rw [← hmk]; push_cast; ring
  have key := Rounding.Format.round_lt_iff_of_between (f := decimals) (n := (m : ℤ) - 1)
    (e := 999970 + (k : ℤ)) (x := (100 * 10 ^ 28 - 50) * a * (c / 100)) (v := v)
    (by change (10 : ℤ) ^ 27 ≤ _; omega) (by change _ < (10 : ℤ) ^ 28; omega)
    (by change (-1000026 : ℤ) ≤ _; omega) (hunit ▸ hbelow) (hunit ▸ habove)
  rw [key, hmq, or_iff_left fun h => hodd h.2, Int.cast_sub, Int.cast_natCast, Int.cast_one]
  rw [show (m : ℚ) - 1 + 1 / 2 = m - 1 / 2 by ring]

theorem toleranceLimit_of_le (h : 100 ≤ n) : toleranceLimit n = overflowLimit := by
  have hclog : Nat.clog 10 100 = 2 := Nat.clog_pow 10 2 (by norm_num)
  rw [toleranceLimit, Nat.min_eq_right h, hclog, overflowLimit_eq, Nat.cast_ofNat, Rounding.Format.ten_add]
  generalize (10 : ℚ) ^ (999970 : ℤ) = a
  norm_num
  ring

theorem overflowLimit_pos : 0 < overflowLimit := by
  rw [overflowLimit_eq]
  exact mul_pos (by norm_num) (Rounding.Format.ten_pos _)

/-- Neither the difference nor the quotient overflows. -/
theorem quotient_lt_iff (hn : 0 < n) :
    |v| < overflowLimit ∧ |decimals.round v| / (n / 100) < overflowLimit ↔ |v| < toleranceLimit n := by
  have hnq : (0 : ℚ) < n / 100 := by positivity
  have hfull : decimals.round |v| < overflowLimit ↔ |v| < overflowLimit := by
    have h := round_lt_limit (v := |v|) (c := 100) (by omega) le_rfl
    rwa [toleranceLimit_of_le le_rfl, Nat.cast_ofNat, div_self (by norm_num), mul_one] at h
  rw [div_lt_iff₀ hnq, ← Rounding.Format.round_abs]
  rcases le_total n 100 with hle | hge
  · rw [round_lt_limit hn hle]
    refine and_iff_right_of_imp fun h => hfull.mp (((round_lt_limit hn hle).mpr h).trans_le ?_)
    have hle' : (n : ℚ) ≤ 100 := by exact_mod_cast hle
    exact mul_le_of_le_one_right overflowLimit_pos.le (by linarith)
  · rw [toleranceLimit_of_le hge]
    refine and_iff_left_of_imp fun h => (hfull.mpr h).trans_le ?_
    have hge' : (100 : ℚ) ≤ n := by exact_mod_cast hge
    exact le_mul_of_one_le_right overflowLimit_pos.le (by linarith)

/-- No amount of cents comes near the limit. -/
theorem lt_toleranceLimit (hn : 0 < n) (hv : |v| ≤ 10 ^ 12) : |v| < toleranceLimit n := by
  have ha : (1 : ℚ) ≤ 10 ^ (999970 : ℤ) := one_le_zpow₀ (by norm_num) (by norm_num)
  have hlimit : (10 : ℚ) ^ 14 < overflowLimit := by
    rw [overflowLimit_eq]
    generalize (10 : ℚ) ^ (999970 : ℤ) = a at ha
    linarith
  have hround : |decimals.round v| ≤ 10 ^ 12 := by
    rw [← Rounding.Format.round_abs]
    refine (Rounding.Format.round_mono hv).trans_eq (Rounding.Format.round_of_holds ?_)
    exact ⟨1, 12, by norm_num, by decide, by decide⟩
  have hn1 : (1 : ℚ) ≤ n := by exact_mod_cast hn
  refine (quotient_lt_iff hn).mp ⟨by linarith, ?_⟩
  rw [div_lt_iff₀ (by positivity)]
  nlinarith

end edge

/-! ## The rule -/

section tolerance
variable {inp : ValidationInput} {po : PoSnapshot} {total : PyDecimal} {x : ℚ} {n : ℕ} {passed : Bool} {r : RuleResult}

theorem toleranceVerdict_pos_iff (hn : 0 < n) (hbound : n < 10 ^ 12) (h : toleranceVerdict x (n / 100) = some passed) :
    passed = true ↔ |x - n / 100| < toleranceEdge n ∨ |x - n / 100| = toleranceEdge n ∧ toleranceSlack n ≠ 1 := by
  obtain ⟨diff, hdiff, h⟩ := Option.bind_eq_some_iff.mp h
  obtain ⟨pct, hpct, rfl⟩ := Option.map_eq_some_iff.mp h
  obtain ⟨-, rfl⟩ := computed_eq_some.mp hdiff
  obtain ⟨-, rfl⟩ := computed_eq_some.mp hpct
  have hnq : (0 : ℚ) < n / 100 := by positivity
  rw [decide_eq_true_iff, round_le_tolerance, div_le_iff₀ hnq, ← Rounding.Format.round_abs, ← round_le_edge hn hbound]
  rw [show (1 / 50 + 5 / 10 ^ 30 : ℚ) * (n / 100) = n / 5000 + 5 * n / 10 ^ 32 by ring]

/-- Against an order below zero the quotient is not positive. -/
theorem toleranceVerdict_neg {t : ℚ} (ht : t < 0) (h : toleranceVerdict x t = some passed) : passed = true := by
  obtain ⟨diff, hdiff, h⟩ := Option.bind_eq_some_iff.mp h
  obtain ⟨pct, hpct, rfl⟩ := Option.map_eq_some_iff.mp h
  obtain ⟨-, rfl⟩ := computed_eq_some.mp hpct
  have hquot : decimals.round (|diff| / t) ≤ 0 := by
    rw [← Rounding.Format.round_zero (f := decimals)]
    exact Rounding.Format.round_mono (div_nonpos_of_nonneg_of_nonpos (abs_nonneg _) ht.le)
  rw [decide_eq_true_iff]
  linarith

/-- The sign of a difference that is not nothing. -/
theorem isPos_sub_iff {a b diff : PyDecimal} (h : computed (a.toRat - b.toRat) = some diff.toRat) (hne : diff.toRat ≠ 0) :
    diff.isPos = true ↔ b.toRat < a.toRat := by
  have hd := (computed_eq_some.mp h).2
  rw [PyDecimal.isPos_iff]
  constructor
  · intro hpos
    by_contra hle
    have := Rounding.Format.round_mono (f := decimals) (sub_nonpos.mpr (not_lt.mp hle))
    rw [Rounding.Format.round_zero] at this
    linarith
  · intro hlt
    have := Rounding.Format.round_nonneg (f := decimals) (sub_nonneg.mpr hlt.le)
    rw [hd] at this
    exact this.lt_of_ne hne.symm

/-- What a failure of the rule says. -/
theorem tolerance_failed (ht : inp.invoice.total = some total) (hpo : inp.matchedPo = some po)
    (hne : po.total.toRat ≠ 0) (h : rulePoAmountTolerance inp = .ok r) (hf : r.passed = false) :
    r.severity = .error ∧ ∃ rest, r.message = "invoice " ++
      (if po.total.toRat < total.toRat then "exceeds" else "is under") ++ " PO " ++ po.poNumber ++ rest := by
  have hz : po.total.isZero = false := Bool.eq_false_iff.mpr (mt (PyDecimal.isZero_iff po.total).mp hne)
  unfold rulePoAmountTolerance at h
  simp only [hpo, ht, hz, Bool.false_eq_true, if_false, Except.bind_eq_ok] at h
  obtain ⟨diff, hdiff, size, hsize, pct, hpct, h⟩ := h
  cases h
  rcases abs_sub_cases total po.total with ⟨d, m, hd, hm, hval, hs⟩ | ⟨-, e, he⟩
  case inr => cases hdiff.symm.trans he
  obtain rfl : diff = d := Except.ok.inj (hdiff.symm.trans hd)
  obtain rfl : size = m := Except.ok.inj (hsize.symm.trans hm)
  -- A difference of nothing is within tolerance, so this one has a sign.
  have hne0 : diff.toRat ≠ 0 := by
    intro h0
    have hquot := div_value size (coef_ne_zero hne)
    rw [hpct, hs, h0, abs_zero, zero_div] at hquot
    have hp := (computed_eq_some.mp hquot.symm).2
    rw [Rounding.Format.round_zero] at hp
    have hle : pct.le poTolerancePct = true := by
      rw [PyDecimal.le_iff, ← hp, poTolerancePct_toRat]
      norm_num
    exact absurd (hle.symm.trans hf) (by decide)
  have hpos := isPos_sub_iff hval hne0
  dsimp only at hf ⊢
  rw [hf, if_neg Bool.false_ne_true]
  refine ⟨rfl, " value by " ++ size.str ++ " (" ++ pct.percent ++ "). Payment blocked pending review.", ?_⟩
  by_cases hlt : po.total.toRat < total.toRat
  · rw [if_pos (hpos.mpr hlt), if_pos hlt]
    simp only [String.append_assoc]
  · rw [if_neg fun h => hlt (hpos.mp h), if_neg hlt]
    simp only [String.append_assoc]

end tolerance

/-- The rule decides the relative bound, and its failure names the
direction. -/
def DecidesTolerance (inp : ValidationInput) (po : PoSnapshot) (total : PyDecimal) : Prop :=
  ∃ r, rulePoAmountTolerance inp = .ok r ∧
    (r.passed = true ↔ |total.toRat - po.total.toRat| ≤ 1 / 50 * |po.total.toRat|) ∧
    (r.passed = false → r.severity = .error ∧ ∃ rest, r.message =
      "invoice " ++ (if po.total.toRat < total.toRat then "exceeds" else "is under") ++ " PO " ++ po.poNumber ++ rest)

/-- Within 2%; or, against an order above zero, past the edge and short of
an overflow. -/
def ClearOfEdge (difference : ℚ) (cents : ℤ) : Prop :=
  difference ≤ 1 / 50 * |(cents : ℚ) / 100| ∨
    0 < cents ∧ (toleranceEdge cents.natAbs < difference ∨ toleranceEdge cents.natAbs = difference ∧
      toleranceSlack cents.natAbs = 1) ∧ difference < toleranceLimit cents.natAbs

theorem Numeric.toRat_toDecimal (n : Numeric) : n.toDecimal.toRat = n.cents / 100 := by
  have hcents : n.toDecimal.signed = n.cents := by
    simp only [PyDecimal.signed, toDecimal, decide_eq_true_eq]
    split <;> omega
  rw [PyDecimal.toRat, hcents]
  norm_num [toDecimal]
  ring

/-! ## The verdict against an order -/

/-- There is a verdict, and it is the bound's. -/
def ExactVerdict (x t : ℚ) : Prop :=
  ∃ passed, toleranceVerdict x t = some passed ∧ (passed = true ↔ |x - t| ≤ 1 / 50 * |t|)

section verdict
variable {x : ℚ} {cents : ℤ}

theorem decidesTolerance_iff_exact {inp : ValidationInput} {po : PoSnapshot} {total : PyDecimal}
    (ht : inp.invoice.total = some total) (hpo : inp.matchedPo = some po) (hne : po.total.toRat ≠ 0) :
    DecidesTolerance inp po total ↔ ExactVerdict total.toRat po.total.toRat := by
  rw [ExactVerdict, ← tolerance_verdict ht hpo hne]
  constructor
  · rintro ⟨r, hr, hiff, -⟩
    exact ⟨r.passed, by rw [hr]; rfl, hiff⟩
  · rintro ⟨passed, hp, hiff⟩
    obtain ⟨r, hr, rfl⟩ := Option.map_eq_some_iff.mp hp
    cases hrule : rulePoAmountTolerance inp with
    | error e => rw [hrule] at hr; cases hr
    | ok r' =>
      rw [hrule] at hr
      cases hr
      exact ⟨r, hrule, hiff, tolerance_failed ht hpo hne hrule⟩

theorem abs_cents (cents : ℤ) : |(cents : ℚ) / 100| = cents.natAbs / 100 := by
  rw [abs_div, abs_of_pos (by norm_num : (0 : ℚ) < 100), Nat.cast_natAbs, Int.cast_abs]

/-- There is a verdict short of an overflow. -/
theorem exists_verdict_iff (hne : cents ≠ 0) :
    (∃ passed, toleranceVerdict x (cents / 100) = some passed) ↔ |x - cents / 100| < toleranceLimit cents.natAbs := by
  rw [← Option.isSome_iff_exists, toleranceVerdict_isSome, abs_cents, quotient_lt_iff (Int.natAbs_pos.mpr hne)]

theorem exists_verdict_of_le (hne : cents ≠ 0) (hbound : cents.natAbs < 10 ^ 12)
    (h : |x - cents / 100| ≤ 1 / 50 * |(cents : ℚ) / 100|) : ∃ passed, toleranceVerdict x (cents / 100) = some passed := by
  refine (exists_verdict_iff hne).mpr (lt_toleranceLimit (Int.natAbs_pos.mpr hne) (h.trans ?_))
  have hbq : (cents.natAbs : ℚ) < 10 ^ 12 := by exact_mod_cast hbound
  rw [abs_cents]
  linarith

/-- Against an order below zero everything passes: within the bound as it
should, and beyond it all the same. -/
theorem exactVerdict_neg (hneg : cents < 0) (hbound : cents.natAbs < 10 ^ 12) :
    ExactVerdict x (cents / 100) ↔ |x - cents / 100| ≤ 1 / 50 * |(cents : ℚ) / 100| := by
  have hneg' : (cents : ℚ) / 100 < 0 := div_neg_of_neg_of_pos (Int.cast_lt_zero.mpr hneg) (by norm_num)
  constructor
  · rintro ⟨passed, hp, hiff⟩
    exact hiff.mp (toleranceVerdict_neg hneg' hp)
  · intro h
    obtain ⟨passed, hp⟩ := exists_verdict_of_le hneg.ne hbound h
    exact ⟨passed, hp, iff_of_true (toleranceVerdict_neg hneg' hp) h⟩

theorem lt_toleranceEdge (n : ℕ) : (n : ℚ) / 5000 < toleranceEdge n := by
  have hunit := Rounding.Format.ten_pos ((Nat.log 10 (2 * n) : ℤ) - 31)
  have hslack : (0 : ℚ) ≤ toleranceSlack n := by positivity
  rw [toleranceEdge, toleranceUnit, lt_add_iff_pos_right]
  exact mul_pos (by linarith) hunit

/-- Against an order above zero what is past the bound passes up to the
edge. -/
theorem exactVerdict_pos (hpos : 0 < cents) (hbound : cents.natAbs < 10 ^ 12) :
    ExactVerdict x (cents / 100) ↔ |x - cents / 100| ≤ 1 / 50 * |(cents : ℚ) / 100| ∨
      (toleranceEdge cents.natAbs < |x - cents / 100| ∨ toleranceEdge cents.natAbs = |x - cents / 100| ∧
        toleranceSlack cents.natAbs = 1) ∧ |x - cents / 100| < toleranceLimit cents.natAbs := by
  have hnat : (cents : ℚ) = cents.natAbs := by rw [Nat.cast_natAbs, abs_of_pos hpos]
  have hpass : ∀ {passed}, toleranceVerdict x (cents / 100) = some passed → (passed = true ↔
      |x - cents / 100| < toleranceEdge cents.natAbs ∨
        |x - cents / 100| = toleranceEdge cents.natAbs ∧ toleranceSlack cents.natAbs ≠ 1) := by
    intro passed h
    rw [hnat] at h ⊢
    exact toleranceVerdict_pos_iff (Int.natAbs_pos.mpr hpos.ne') hbound h
  have hedge : 1 / 50 * |(cents : ℚ) / 100| < toleranceEdge cents.natAbs := by
    rw [abs_cents, show (1 / 50 * ((cents.natAbs : ℚ) / 100)) = cents.natAbs / 5000 by ring]
    exact lt_toleranceEdge _
  constructor
  · rintro ⟨passed, hp, hiff⟩
    by_cases hd : |x - cents / 100| ≤ 1 / 50 * |(cents : ℚ) / 100|
    · exact .inl hd
    · have hnot := fun h => hd (hiff.mp ((hpass hp).mpr h))
      refine .inr ⟨?_, (exists_verdict_iff hpos.ne').mp ⟨passed, hp⟩⟩
      rcases lt_trichotomy |x - cents / 100| (toleranceEdge cents.natAbs) with h | h | h
      · exact absurd (.inl h) hnot
      · exact .inr ⟨h.symm, by_contra fun hs => hnot (.inr ⟨h, hs⟩)⟩
      · exact .inl h
  · rintro (h | ⟨hfar, hlim⟩)
    · obtain ⟨passed, hp⟩ := exists_verdict_of_le hpos.ne' hbound h
      exact ⟨passed, hp, iff_of_true ((hpass hp).mpr (.inl (h.trans_lt hedge))) h⟩
    · obtain ⟨passed, hp⟩ := (exists_verdict_iff hpos.ne').mpr hlim
      refine ⟨passed, hp, iff_of_false (fun h => ?_) fun h => ?_⟩
      · rcases hfar with hlt | ⟨heq, hs⟩
        · rcases (hpass hp).mp h with h | ⟨h, -⟩ <;> linarith
        · rcases (hpass hp).mp h with h | ⟨-, h⟩
          · linarith
          · exact h hs
      · rcases hfar with hlt | ⟨heq, -⟩ <;> linarith

end verdict

/-- **The tolerance rule** decides the two-sided relative bound exactly when
the difference is within it or clear of the edge: for no order below zero
and an invoice out of bounds. -/
theorem decidesTolerance_iff {inp : ValidationInput} {po : PoSnapshot} {total : PyDecimal} {orderTotal : Numeric}
    (ht : inp.invoice.total = some total) (hpo : inp.matchedPo = some po) (hn : po.total = orderTotal.toDecimal)
    (hne : orderTotal.cents ≠ 0) :
    DecidesTolerance inp po total ↔ ClearOfEdge |total.toRat - po.total.toRat| orderTotal.cents := by
  have hcents : po.total.toRat = orderTotal.cents / 100 := by rw [hn, Numeric.toRat_toDecimal]
  have hto : po.total.toRat ≠ 0 := by
    rw [hcents]
    exact div_ne_zero (Int.cast_ne_zero.mpr hne) (by norm_num)
  rw [decidesTolerance_iff_exact ht hpo hto, hcents, ClearOfEdge]
  rcases lt_or_gt_of_ne hne with hneg | hpos
  · rw [exactVerdict_neg hneg orderTotal.bound, or_iff_left fun h => absurd h.1 (by omega)]
  · rw [exactVerdict_pos hpos orderTotal.bound]
    simp only [gt_iff_lt.mp hpos, true_and]

namespace Sample

/-- An invoice over `total` and its order. -/
def ordered (total : PyDecimal) (orderTotal : Numeric) : ValidationInput :=
  { amounts total ⟨false, 0, 0⟩ total [] with
    matchedPo := some ⟨"PO-1", "EUR", orderTotal.toDecimal, vendor.id⟩ }

/-- 101.00 against an order of 100.00 is within the bound. -/
theorem decidesTolerance_near :
    ClearOfEdge |PyDecimal.toRat ⟨false, 10100, -2⟩ - (Numeric.toDecimal ⟨10000, by decide⟩).toRat| 10000 ∧
      DecidesTolerance (ordered ⟨false, 10100, -2⟩ ⟨10000, by decide⟩)
        ⟨"PO-1", "EUR", Numeric.toDecimal ⟨10000, by decide⟩, vendor.id⟩ ⟨false, 10100, -2⟩ := by
  have hclear : ClearOfEdge |PyDecimal.toRat ⟨false, 10100, -2⟩ - (Numeric.toDecimal ⟨10000, by decide⟩).toRat| 10000 := by
    refine .inl ?_
    rw [Numeric.toRat_toDecimal]
    norm_num [PyDecimal.toRat, PyDecimal.signed]
  exact ⟨hclear, (@decidesTolerance_iff _ _ _ ⟨10000, by decide⟩ rfl rfl rfl (by decide)).mpr hclear⟩

/-- 500.00 passes against an order of -100.00, and a little more than 102
against one of 100.00. -/
theorem tolerance_exceeded :
    ¬ DecidesTolerance (ordered ⟨false, 50000, -2⟩ ⟨-10000, by decide⟩)
        ⟨"PO-1", "EUR", Numeric.toDecimal ⟨-10000, by decide⟩, vendor.id⟩ ⟨false, 50000, -2⟩ ∧
      ¬ DecidesTolerance (ordered ⟨false, 102 * 10 ^ 28 + 4, -28⟩ ⟨10000, by decide⟩)
        ⟨"PO-1", "EUR", Numeric.toDecimal ⟨10000, by decide⟩, vendor.id⟩ ⟨false, 102 * 10 ^ 28 + 4, -28⟩ := by
  have hmiss : ∀ {inp po total}, (rulePoAmountTolerance inp).toOption.map (·.passed) = some true →
      1 / 50 * |po.total.toRat| < |total.toRat - po.total.toRat| → ¬ DecidesTolerance inp po total := by
    intro inp po total hp hlt h
    obtain ⟨r, hr, hiff, -⟩ := h
    rw [hr] at hp
    exact absurd (hiff.mp (Option.some.inj hp)) (not_le.mpr hlt)
  constructor
  · refine hmiss (by decide +kernel) ?_
    dsimp only
    rw [Numeric.toRat_toDecimal]
    norm_num [PyDecimal.toRat, PyDecimal.signed]
  · refine hmiss (by decide +kernel) ?_
    dsimp only
    rw [Numeric.toRat_toDecimal]
    norm_num [PyDecimal.toRat, PyDecimal.signed]

end Sample

end InvoiceOps
