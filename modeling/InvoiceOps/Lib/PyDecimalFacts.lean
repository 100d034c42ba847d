/-
The numbers that `Lib.PyDecimal` computes with, over the rationals: signs and
comparison are exact (`isPos_iff`, `le_iff`), sum and difference are exact
results handed to `fix` (`add_fix`, `sub_fix`), and a quotient is one of
coefficients at a shift that leaves more digits than the precision
(`abs_div_eq`, `pow_le_shifted`).
-/
import InvoiceOps.Lib.PyDecimal
import Mathlib.Tactic.Positivity
import Mathlib.Tactic.FieldSimp
import Mathlib.Algebra.Order.Field.Power
import Mathlib.Tactic.NormNum
import Mathlib.Tactic.Ring
import Mathlib.Tactic.GCongr

namespace PyDecimal

/-! ## Values -/

theorem ten_ne : (10 : ℚ) ≠ 0 := by norm_num

theorem ten_zpow_pos (e : Int) : (0 : ℚ) < 10 ^ e := zpow_pos (by norm_num) e

/-- The sign as a factor. -/
def unit (s : Bool) : ℚ := if s then -1 else 1

theorem abs_unit (s : Bool) : |unit s| = 1 := by cases s <;> simp [unit]

theorem signed_cast (d : PyDecimal) : (d.signed : ℚ) = unit d.sign * d.coef := by
  unfold signed unit; cases d.sign <;> simp

theorem toRat_eq (d : PyDecimal) : d.toRat = unit d.sign * d.coef * 10 ^ d.exp := by
  rw [toRat, signed_cast]

theorem abs_toRat (d : PyDecimal) : |d.toRat| = d.coef * 10 ^ d.exp := by
  rw [toRat_eq, abs_mul, abs_mul, abs_unit, one_mul, abs_of_pos (ten_zpow_pos _), Nat.abs_cast]

theorem toRat_of_coef_zero {d : PyDecimal} (h : d.coef = 0) : d.toRat = 0 := by
  rw [toRat_eq, h]; simp

theorem toRat_ne_zero {d : PyDecimal} (h : d.coef ≠ 0) : d.toRat ≠ 0 := by
  have habs : 0 < |d.toRat| := by
    rw [abs_toRat]
    exact mul_pos (by exact_mod_cast Nat.pos_of_ne_zero h) (ten_zpow_pos _)
  exact abs_pos.mp habs

theorem isZero_iff (d : PyDecimal) : d.isZero = true ↔ d.toRat = 0 := by
  rw [isZero, beq_iff_eq]
  exact ⟨toRat_of_coef_zero, fun h => by_contra fun hc => toRat_ne_zero hc h⟩

theorem isPos_iff (d : PyDecimal) : d.isPos = true ↔ 0 < d.toRat := by
  rw [isPos, isZero, toRat_eq, unit]
  have hexp := ten_zpow_pos d.exp
  cases d.sign with
  | true =>
    refine iff_of_false (by simp) (not_lt.mpr ?_)
    exact mul_nonpos_of_nonpos_of_nonneg (by simp) hexp.le
  | false =>
    rw [if_neg Bool.false_ne_true, one_mul, mul_pos_iff_of_pos_right hexp, Nat.cast_pos, Nat.pos_iff_ne_zero]
    simp

theorem scaled_mul (d : PyDecimal) {e : Int} (h : e ≤ d.exp) : (d.scaled e : ℚ) * 10 ^ e = d.toRat := by
  have he : d.exp = ((d.exp - e).toNat : Int) + e := by omega
  rw [toRat, scaled, he, zpow_add₀ ten_ne]
  push_cast
  rw [← he, zpow_natCast, mul_assoc]

/-- Comparison is exact. -/
theorem le_iff (a b : PyDecimal) : a.le b = true ↔ a.toRat ≤ b.toRat := by
  rw [le, decide_eq_true_eq, ← scaled_mul a (min_le_left a.exp b.exp),
    ← scaled_mul b (min_le_right a.exp b.exp), mul_le_mul_iff_left₀ (ten_zpow_pos _), Int.cast_le]

theorem toRat_neg (d : PyDecimal) : d.neg.toRat = -d.toRat := by
  simp only [toRat_eq, neg, unit]; cases d.sign <;> simp

/-! ## Rounding -/

theorem halfEven_le (n m : Nat) : halfEven n m ≤ n / m + 1 := by
  unfold halfEven
  split_ifs <;> omega

theorem pow_digits_le {n : Nat} (h : n ≠ 0) : 10 ^ (digits n - 1) ≤ n := by
  rw [digits, Nat.add_sub_cancel]
  exact Nat.pow_log_le_self 10 h

theorem lt_pow_digits (n : Nat) : n < 10 ^ digits n := Nat.lt_pow_succ_log_self (by norm_num) n

theorem digits_le_of_lt {n k : Nat} (hk : 0 < k) (h : n < 10 ^ k) : digits n ≤ k := by
  have := Nat.log_lt_of_lt_pow' hk.ne' h
  unfold digits
  omega

/-- The rounded coefficient has `prec` digits, or is the next power of ten. -/
theorem halfEven_le_pow {n k p : Nat} (h : digits n ≤ k + p) : halfEven n (10 ^ k) ≤ 10 ^ p := by
  have hlt : n / 10 ^ k < 10 ^ p := by
    rw [Nat.div_lt_iff_lt_mul (by positivity), ← pow_add, add_comm p k]
    exact (lt_pow_digits n).trans_le (Nat.pow_le_pow_right (by norm_num) h)
  exact (halfEven_le n (10 ^ k)).trans hlt

/-- A carry leaves a multiple of ten. -/
theorem carry_eq {q p : Nat} (hp : 0 < p) (hq : q ≤ 10 ^ p) (h : p < digits q) : q / 10 * 10 = q := by
  have hge : 10 ^ p ≤ q := by
    by_contra hlt
    have := digits_le_of_lt hp (Nat.lt_of_not_le hlt)
    omega
  obtain rfl : q = 10 ^ p := le_antisymm hq hge
  obtain ⟨p, rfl⟩ : ∃ p', p = p' + 1 := ⟨p - 1, by omega⟩
  rw [pow_succ, Nat.mul_div_cancel _ (by norm_num)]

/-! ## Operations -/

theorem toRat_sum (a b : PyDecimal) :
    (⟨if a.scaled (min a.exp b.exp) + b.scaled (min a.exp b.exp) = 0 then a.sign && b.sign && a.isZero
        else decide (a.scaled (min a.exp b.exp) + b.scaled (min a.exp b.exp) < 0),
      (a.scaled (min a.exp b.exp) + b.scaled (min a.exp b.exp)).natAbs, min a.exp b.exp⟩ : PyDecimal).toRat =
      a.toRat + b.toRat := by
  rw [← scaled_mul a (min_le_left a.exp b.exp), ← scaled_mul b (min_le_right a.exp b.exp), ← add_mul,
    toRat]
  congr 1
  rw [← Int.cast_add, Int.cast_inj]
  generalize a.scaled (min a.exp b.exp) + b.scaled (min a.exp b.exp) = s
  unfold signed
  by_cases h0 : s = 0
  · simp [h0]
  · by_cases hneg : s < 0
    · simp only [h0, hneg, if_false, decide_true, if_true]; omega
    · simp only [h0, hneg, if_false, decide_false, Bool.false_eq_true]; omega

/-- A sum is the exact sum, rounded. -/
theorem add_fix (c : Context) (a b : PyDecimal) :
    ∃ d, add c a b = fix c d ∧ d.toRat = a.toRat + b.toRat :=
  ⟨_, rfl, toRat_sum a b⟩

theorem sub_fix (c : Context) (a b : PyDecimal) :
    ∃ d, sub c a b = fix c d ∧ d.toRat = a.toRat - b.toRat := by
  obtain ⟨d, hd, hv⟩ := add_fix c a b.neg
  exact ⟨d, hd, by rw [hv, toRat_neg, sub_eq_add_neg]⟩

theorem stripZeros_value : ∀ (n q : Nat) (e : Int),
    ((stripZeros n q e).1 : ℚ) * 10 ^ (stripZeros n q e).2 = q * 10 ^ e
  | 0, q, e => rfl
  | n + 1, q, e => by
    rw [stripZeros]
    split
    · next h =>
      have hq : ((q / 10 : Nat) : ℚ) * 10 = q := by
        exact_mod_cast Nat.div_mul_cancel (Nat.dvd_of_mod_eq_zero h)
      rw [stripZeros_value n (q / 10) (e + 1), zpow_add₀ ten_ne, ← hq, zpow_one]
      ring
    · rfl

/-- The exact quotient of the coefficients at the chosen shift has more than
`prec` digits. -/
theorem pow_le_shifted {a b : Nat} (ha : a ≠ 0) (p : Nat) :
    10 ^ p * (b * 10 ^ (-((digits b : Int) - digits a + p + 1)).toNat) ≤
      a * 10 ^ ((digits b : Int) - digits a + p + 1).toNat := by
  have hb := (lt_pow_digits b).le
  have ha' := pow_digits_le ha
  have hpos : 0 < digits a := Nat.succ_pos _
  calc 10 ^ p * (b * 10 ^ (-((digits b : Int) - digits a + p + 1)).toNat)
      ≤ 10 ^ p * (10 ^ digits b * 10 ^ (-((digits b : Int) - digits a + p + 1)).toNat) := by gcongr
    _ = 10 ^ (digits a - 1) * 10 ^ ((digits b : Int) - digits a + p + 1).toNat := by
        rw [← pow_add, ← pow_add, ← pow_add]
        congr 1
        omega
    _ ≤ a * 10 ^ ((digits b : Int) - digits a + p + 1).toNat := by gcongr

/-- The exact quotient, by the coefficients at any shift. -/
theorem abs_div_eq (a b : PyDecimal) (shift : Int) : |a.toRat| / |b.toRat| =
    ((a.coef * 10 ^ shift.toNat : Nat) : ℚ) / (b.coef * 10 ^ (-shift).toNat : Nat) * 10 ^ (a.exp - b.exp - shift) := by
  by_cases hb : b.coef = 0
  · simp [abs_toRat, hb]
  have hb' : (b.coef : ℚ) ≠ 0 := by exact_mod_cast hb
  have hsh : (10 : ℚ) ^ shift.toNat = 10 ^ (-shift).toNat * 10 ^ shift := by
    rw [← zpow_natCast, ← zpow_natCast, ← zpow_add₀ ten_ne]
    congr 1
    omega
  rw [abs_toRat, abs_toRat, zpow_sub₀ ten_ne, zpow_sub₀ ten_ne]
  push_cast
  rw [hsh]
  have := (ten_zpow_pos shift).ne'
  have := (ten_zpow_pos b.exp).ne'
  field_simp

end PyDecimal
