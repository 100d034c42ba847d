/-
Rounding to a decimal floating format, on the rationals: to the nearest
multiple of a unit that leaves `prec` digits, or of the least unit, ties to
even.

The laws a proof needs of it: it is odd and monotone (`round_mono`), it
leaves the numbers of the format alone (`round_of_holds`), and it stays on
its side of a grid point up to half a unit (`round_le_iff`).
-/
import Mathlib.Data.Int.Log
import Mathlib.Algebra.Order.Field.Rat
import Mathlib.Data.Rat.Floor
import Mathlib.Algebra.Order.Field.Power
import Mathlib.Algebra.Ring.Int.Parity
import Mathlib.Tactic.Linarith
import Mathlib.Tactic.Positivity
import Mathlib.Tactic.NormNum
import Mathlib.Tactic.Ring

namespace Rounding

/-! ## To an integer -/

/-- The nearest integer, the even one of two. -/
def nearestEven (q : ℚ) : ℤ :=
  if Int.fract q < 1 / 2 then ⌊q⌋
  else if 1 / 2 < Int.fract q then ⌊q⌋ + 1
  else if Even ⌊q⌋ then ⌊q⌋ else ⌊q⌋ + 1

theorem nearestEven_le_iff {q : ℚ} {n : ℤ} : nearestEven q ≤ n ↔ q < n + 1 / 2 ∨ q = n + 1 / 2 ∧ Even n := by
  have hq : (⌊q⌋ : ℚ) + Int.fract q = q := Int.floor_add_fract q
  have h1 := Int.fract_lt_one q
  have h0 := Int.fract_nonneg q
  have hle : ∀ {a b : ℤ}, a < b → (a : ℚ) + 1 ≤ b := fun h => by exact_mod_cast h
  unfold nearestEven
  generalize Int.fract q = r at *
  generalize ⌊q⌋ = f at *
  rcases lt_trichotomy f n with hlt | rfl | hgt
  · have := hle hlt
    refine iff_of_true ?_ (.inl (by linarith))
    split_ifs <;> omega
  · split_ifs with h₁ h₂ h₃
    · exact iff_of_true le_rfl (.inl (by linarith))
    · refine iff_of_false (by omega) ?_
      rintro (h | ⟨h, -⟩) <;> linarith
    · exact iff_of_true le_rfl (.inr ⟨by linarith, h₃⟩)
    · refine iff_of_false (by omega) ?_
      rintro (h | ⟨-, h⟩)
      · linarith
      · exact h₃ h
  · have := hle hgt
    refine iff_of_false ?_ ?_
    · split_ifs <;> omega
    · rintro (h | ⟨h, -⟩) <;> linarith

theorem le_nearestEven_iff {q : ℚ} {n : ℤ} : n ≤ nearestEven q ↔ n - 1 / 2 < q ∨ q = n - 1 / 2 ∧ Even n := by
  rw [← not_lt, ← Int.le_sub_one_iff, nearestEven_le_iff, Int.even_sub_one]
  push_cast
  rw [show (n : ℚ) - 1 + 1 / 2 = n - 1 / 2 by ring, not_or, not_lt, not_and, not_not, le_iff_lt_or_eq]
  constructor
  · rintro ⟨h | h, hev⟩
    · exact .inl h
    · exact .inr ⟨h.symm, hev h.symm⟩
  · rintro (h | ⟨h, hev⟩)
    · exact ⟨.inl h, fun h' => by rw [h'] at h; exact absurd h (lt_irrefl _)⟩
    · exact ⟨.inr h.symm, fun _ => hev⟩

theorem nearestEven_mono {q q' : ℚ} (h : q ≤ q') : nearestEven q ≤ nearestEven q' := by
  rw [nearestEven_le_iff]
  rcases nearestEven_le_iff.mp (le_refl (nearestEven q')) with h' | ⟨h', hev⟩
  · exact .inl (h.trans_lt h')
  · rcases (h.trans_eq h').lt_or_eq with hlt | heq
    · exact .inl hlt
    · exact .inr ⟨heq, hev⟩

@[simp] theorem nearestEven_intCast (n : ℤ) : nearestEven n = n :=
  le_antisymm (nearestEven_le_iff.mpr (.inl (by linarith))) (le_nearestEven_iff.mpr (.inl (by linarith)))

theorem nearestEven_neg (q : ℚ) : nearestEven (-q) = -nearestEven q := by
  refine eq_of_forall_ge_iff fun n => ?_
  rw [nearestEven_le_iff, neg_le, le_nearestEven_iff, even_neg]
  push_cast
  refine or_congr ?_ (and_congr_left' ?_)
  · constructor <;> intro h <;> linarith
  · constructor <;> intro h <;> linarith

/-- At most half a unit off. -/
theorem abs_nearestEven_sub_le (q : ℚ) : |nearestEven q - q| ≤ 1 / 2 := by
  rw [abs_le]
  constructor
  · rcases nearestEven_le_iff.mp (le_refl (nearestEven q)) with h | ⟨h, -⟩ <;> linarith
  · rcases le_nearestEven_iff.mp (le_refl (nearestEven q)) with h | ⟨h, -⟩ <;> linarith

/-! ## To a format -/

/-- A decimal floating format with unbounded exponents above. -/
structure Format where
  prec : Nat
  prec_pos : 0 < prec
  /-- The least unit is `10 ^ etiny`. -/
  etiny : Int

namespace Format

variable (f : Format)

/-- The unit of `v`, as a power of ten. -/
def exponent (v : ℚ) : ℤ := max (Int.log 10 |v| + 1 - f.prec) f.etiny

def round (v : ℚ) : ℚ := nearestEven (v / 10 ^ f.exponent v) * 10 ^ f.exponent v

/-- `v` is a number of the format. -/
def Holds (v : ℚ) : Prop := ∃ (n e : ℤ), v = n * 10 ^ e ∧ f.etiny ≤ e ∧ |n| ≤ 10 ^ f.prec

variable {f} {v v' x : ℚ} {e : ℤ}

theorem ten_pos (e : ℤ) : (0 : ℚ) < 10 ^ e := zpow_pos (by norm_num) e

theorem ten_add (a b : ℤ) : (10 : ℚ) ^ (a + b) = 10 ^ a * 10 ^ b := zpow_add₀ (by norm_num) a b

theorem exponent_neg : f.exponent (-v) = f.exponent v := by rw [exponent, exponent, abs_neg]

theorem exponent_mono (hv : v ≠ 0) (h : |v| ≤ |v'|) : f.exponent v ≤ f.exponent v' :=
  max_le_max_right _ (by have := Int.log_mono_right (b := 10) (abs_pos.mpr hv) h; omega)

/-- Below the next power of ten. -/
theorem abs_lt_of_exponent (v : ℚ) : |v| < 10 ^ (f.exponent v + f.prec) := by
  refine (Int.lt_zpow_succ_log_self (b := 10) (by norm_num) |v|).trans_le ?_
  refine zpow_le_zpow_right₀ (by norm_num) ?_
  have := le_max_left (Int.log 10 |v| + 1 - f.prec) f.etiny
  unfold exponent
  omega

/-- Of full precision, but for the least unit. -/
theorem le_abs_of_exponent (hv : v ≠ 0) (h : f.etiny < f.exponent v) :
    (10 : ℚ) ^ (f.exponent v + f.prec - 1) ≤ |v| := by
  have hlog : f.exponent v = Int.log 10 |v| + 1 - f.prec := by
    unfold exponent at h ⊢
    omega
  rw [hlog, show Int.log 10 |v| + 1 - (f.prec : ℤ) + f.prec - 1 = Int.log 10 |v| by ring]
  exact_mod_cast Int.zpow_log_le_self (b := 10) (by norm_num) (abs_pos.mpr hv)

theorem exponent_eq (hlow : (10 : ℚ) ^ (e + f.prec - 1) ≤ v) (hhigh : v < 10 ^ (e + f.prec)) (he : f.etiny ≤ e) :
    f.exponent v = e := by
  have hpos : 0 < v := (ten_pos _).trans_le hlow
  have h₁ : e + f.prec - 1 ≤ Int.log 10 v :=
    (Int.zpow_le_iff_le_log (b := 10) (by norm_num) hpos).mp (by exact_mod_cast hlow)
  have h₂ : Int.log 10 v < e + f.prec :=
    (Int.lt_zpow_iff_log_lt (b := 10) (by norm_num) hpos).mp (by exact_mod_cast hhigh)
  rw [exponent, abs_of_pos hpos]
  omega

@[simp] theorem round_zero : f.round 0 = 0 := by
  rw [round, zero_div, show nearestEven 0 = 0 from nearestEven_intCast 0, Int.cast_zero, zero_mul]

theorem round_neg (v : ℚ) : f.round (-v) = -f.round v := by
  rw [round, round, exponent_neg, neg_div, nearestEven_neg, Int.cast_neg, neg_mul]

theorem round_nonneg (h : 0 ≤ v) : 0 ≤ f.round v := by
  have hn : 0 ≤ nearestEven (v / 10 ^ f.exponent v) := by
    rw [← nearestEven_intCast 0]
    exact nearestEven_mono (by rw [Int.cast_zero]; exact div_nonneg h (ten_pos _).le)
  exact mul_nonneg (by exact_mod_cast hn) (ten_pos _).le

/-- A multiple of its unit stays. -/
theorem round_eq_self {n : ℤ} (h : v = n * 10 ^ f.exponent v) : f.round v = v := by
  have hn : v / 10 ^ f.exponent v = n := by rw [div_eq_iff (ten_pos _).ne', ← h]
  rw [round, hn, nearestEven_intCast, ← h]

theorem round_of_holds (h : f.Holds v) : f.round v = v := by
  obtain ⟨n, e, rfl, he, hn⟩ := h
  by_cases hz : (n : ℚ) * 10 ^ e = 0
  · rw [hz, round_zero]
  rcases hn.lt_or_eq with hlt | heq
  · -- Fewer digits than the format has: the unit divides `10 ^ e`.
    have hexp : f.exponent (n * 10 ^ e) ≤ e := by
      have hbound : |(n : ℚ) * 10 ^ e| < 10 ^ (e + f.prec) := by
        rw [abs_mul, abs_of_pos (ten_pos e), add_comm, ten_add, zpow_natCast]
        exact mul_lt_mul_of_pos_right (by exact_mod_cast hlt) (ten_pos e)
      have hlog := (Int.lt_zpow_iff_log_lt (b := 10) (by norm_num) (abs_pos.mpr hz)).mp (by exact_mod_cast hbound)
      unfold exponent
      omega
    obtain ⟨k, hk⟩ : ∃ k : ℕ, e = k + f.exponent (n * 10 ^ e) := ⟨(e - f.exponent (n * 10 ^ e)).toNat, by omega⟩
    refine round_eq_self (n := n * 10 ^ k) ?_
    conv_lhs => rw [hk, ten_add]
    push_cast
    rw [zpow_natCast, mul_assoc]
  · -- A power of ten: the unit is ten times `10 ^ e`, or `10 ^ e` again.
    have habs : |(n : ℚ) * 10 ^ e| = 10 ^ (e + f.prec) := by
      rw [abs_mul, abs_of_pos (ten_pos e), add_comm, ten_add, zpow_natCast]
      congr 1
      exact_mod_cast heq
    have hlog : Int.log 10 |(n : ℚ) * 10 ^ e| = e + f.prec := by
      rw [habs]
      exact_mod_cast Int.log_zpow (R := ℚ) (b := 10) (by norm_num) (e + f.prec)
    have hexp : f.exponent (n * 10 ^ e) = e + 1 := by
      unfold exponent
      rw [hlog]
      omega
    obtain ⟨p, hp⟩ : ∃ p, f.prec = p + 1 := ⟨f.prec - 1, by have := f.prec_pos; omega⟩
    obtain ⟨m, hm⟩ : (10 : ℤ) ∣ n := (dvd_abs 10 n).mp (by rw [heq, hp, pow_succ]; exact dvd_mul_left _ _)
    refine round_eq_self (n := m) ?_
    rw [hexp, hm, ten_add, zpow_one]
    push_cast
    ring

/-- Rounding lands in the format. -/
theorem holds_round (v : ℚ) : f.Holds (f.round v) := by
  refine ⟨_, _, rfl, le_max_right _ _, ?_⟩
  have hlt := abs_lt_of_exponent (f := f) v
  rw [add_comm, ten_add, zpow_natCast, ← div_lt_iff₀ (ten_pos _), ← abs_of_pos (ten_pos (f.exponent v)), ← abs_div,
    abs_lt] at hlt
  rw [abs_le]
  constructor
  · refine le_nearestEven_iff.mpr (.inl ?_)
    push_cast
    linarith [hlt.1]
  · refine nearestEven_le_iff.mpr (.inl ?_)
    push_cast
    linarith [hlt.2]

@[simp] theorem round_round (v : ℚ) : f.round (f.round v) = f.round v := round_of_holds (holds_round v)

theorem holds_pow (he : f.etiny ≤ e) : f.Holds (10 ^ (e + f.prec)) :=
  ⟨10 ^ f.prec, e, by push_cast; rw [add_comm, ten_add, zpow_natCast], he, (abs_of_pos (by positivity)).le⟩

theorem round_mono_of_nonneg (hv : 0 ≤ v) (h : v ≤ v') : f.round v ≤ f.round v' := by
  rcases hv.eq_or_lt with rfl | hpos
  · rw [round_zero]
    exact round_nonneg h
  have habs : |v| ≤ |v'| := by rwa [abs_of_pos hpos, abs_of_pos (hpos.trans_le h)]
  rcases (exponent_mono (f := f) hpos.ne' habs).eq_or_lt with heq | hlt
  · rw [round, round, ← heq]
    refine mul_le_mul_of_nonneg_right ?_ (ten_pos _).le
    exact_mod_cast nearestEven_mono (div_le_div_of_nonneg_right h (ten_pos _).le)
  · -- A power of ten lies between the two, and bounds both results.
    have hlow := le_abs_of_exponent (hpos.trans_le h).ne' ((le_max_right _ _).trans_lt hlt)
    have hhigh := abs_lt_of_exponent (f := f) v
    rw [abs_of_pos (hpos.trans_le h)] at hlow
    rw [abs_of_pos hpos] at hhigh
    calc f.round v ≤ 10 ^ (f.exponent v + f.prec) := by
          rw [round, add_comm, ten_add, zpow_natCast]
          refine mul_le_mul_of_nonneg_right ?_ (ten_pos _).le
          rw [add_comm, ten_add, zpow_natCast, ← div_lt_iff₀ (ten_pos _)] at hhigh
          have : nearestEven (v / 10 ^ f.exponent v) ≤ 10 ^ f.prec :=
            nearestEven_le_iff.mpr (.inl (by push_cast; linarith))
          exact_mod_cast this
      _ ≤ 10 ^ (f.exponent v' + f.prec - 1) := zpow_le_zpow_right₀ (by norm_num) (by omega)
      _ ≤ f.round v' := by
          obtain ⟨p, hp⟩ : ∃ p, f.prec = p + 1 := ⟨f.prec - 1, by have := f.prec_pos; omega⟩
          have hsplit : (10 : ℚ) ^ (f.exponent v' + f.prec - 1) = (10 ^ p : ℤ) * 10 ^ f.exponent v' := by
            rw [hp, show f.exponent v' + ((p + 1 : ℕ) : ℤ) - 1 = p + f.exponent v' by push_cast; ring, ten_add]
            push_cast
            rw [zpow_natCast]
          rw [hsplit] at hlow ⊢
          rw [round]
          refine mul_le_mul_of_nonneg_right ?_ (ten_pos _).le
          rw [← le_div_iff₀ (ten_pos _)] at hlow
          have : (10 ^ p : ℤ) ≤ nearestEven (v' / 10 ^ f.exponent v') := by
            rw [← nearestEven_intCast (10 ^ p)]
            exact nearestEven_mono hlow
          exact_mod_cast this

/-- **Rounding is monotone.** -/
theorem round_mono (h : v ≤ v') : f.round v ≤ f.round v' := by
  rcases le_total 0 v with hv | hv
  · exact round_mono_of_nonneg hv h
  · rcases le_total 0 v' with hv' | hv'
    · refine le_trans ?_ (round_nonneg hv')
      rw [← neg_neg v, round_neg, neg_nonpos]
      exact round_nonneg (neg_nonneg.mpr hv)
    · rw [← neg_le_neg_iff, ← round_neg, ← round_neg]
      exact round_mono_of_nonneg (neg_nonneg.mpr hv') (neg_le_neg h)

theorem round_abs (v : ℚ) : f.round |v| = |f.round v| := by
  rcases le_total 0 v with hv | hv
  · rw [abs_of_nonneg hv, abs_of_nonneg (round_nonneg hv)]
  · have hr : f.round v ≤ 0 := by simpa using round_mono (f := f) hv
    rw [abs_of_nonpos hv, abs_of_nonpos hr, round_neg]

/-- Numbers on the same side of every multiple of five units, all of them
of more digits than the format has, round alike: what a sticky last digit
relies on. -/
theorem round_congr (hv : (10 : ℚ) ^ (e + f.prec) ≤ v) (hv' : (10 : ℚ) ^ (e + f.prec) ≤ v')
    (h : ∀ n : ℤ, v < 5 * n * 10 ^ e ↔ v' < 5 * n * 10 ^ e) (h' : ∀ n : ℤ, v = 5 * n * 10 ^ e ↔ v' = 5 * n * 10 ^ e) :
    f.round v = f.round v' := by
  have hp := f.prec_pos
  have hpos : 0 < v := (ten_pos _).trans_le hv
  have hpos' : 0 < v' := (ten_pos _).trans_le hv'
  have hlow : ∀ {x : ℚ}, 0 < x → (10 : ℚ) ^ (e + f.prec) ≤ x → e + f.prec ≤ Int.log 10 x := fun hx hle =>
    (Int.zpow_le_iff_le_log (b := 10) (by norm_num) hx).mp (by exact_mod_cast hle)
  -- A power of ten above `10 ^ e` is such a multiple.
  have hpow : ∀ k : ℤ, e < k → ((10 : ℚ) ^ k ≤ v ↔ (10 : ℚ) ^ k ≤ v') := by
    intro k hk
    obtain ⟨j, rfl⟩ : ∃ j : ℕ, k = j + 1 + e := ⟨(k - 1 - e).toNat, by omega⟩
    have hmul : (10 : ℚ) ^ ((j : ℤ) + 1 + e) = 5 * (2 * 10 ^ j : ℤ) * 10 ^ e := by
      rw [ten_add, ten_add, zpow_natCast, zpow_one]
      push_cast
      ring
    rw [hmul, ← not_lt, ← not_lt, h]
  have hlog : Int.log 10 v = Int.log 10 v' := by
    refine le_antisymm ?_ ?_
    · refine (Int.zpow_le_iff_le_log (b := 10) (by norm_num) hpos').mp ?_
      have := (hpow (Int.log 10 v) (by have := hlow hpos hv; omega)).mp
        (by exact_mod_cast Int.zpow_log_le_self (b := 10) (by norm_num) hpos)
      exact_mod_cast this
    · refine (Int.zpow_le_iff_le_log (b := 10) (by norm_num) hpos).mp ?_
      have := (hpow (Int.log 10 v') (by have := hlow hpos' hv'; omega)).mpr
        (by exact_mod_cast Int.zpow_log_le_self (b := 10) (by norm_num) hpos')
      exact_mod_cast this
  have hexp : f.exponent v = f.exponent v' := by rw [exponent, exponent, abs_of_pos hpos, abs_of_pos hpos', hlog]
  have hge : e + 1 ≤ f.exponent v := by
    have := hlow hpos hv
    rw [exponent, abs_of_pos hpos]
    omega
  rw [round, round, ← hexp]
  congr 2
  refine eq_of_forall_ge_iff fun n => ?_
  obtain ⟨j, hj⟩ : ∃ j : ℕ, f.exponent v = j + 1 + e := ⟨(f.exponent v - 1 - e).toNat, by omega⟩
  have hhalf : ((n : ℚ) + 1 / 2) * 10 ^ f.exponent v = 5 * ((2 * n + 1) * 10 ^ j : ℤ) * 10 ^ e := by
    rw [hj, ten_add, ten_add, zpow_natCast, zpow_one]
    push_cast
    ring
  rw [nearestEven_le_iff, nearestEven_le_iff, div_lt_iff₀ (ten_pos _), div_eq_iff (ten_pos _).ne',
    div_lt_iff₀ (ten_pos _), div_eq_iff (ten_pos _).ne', hhalf, h, h']

/-! ## Grid points -/

section grid
variable {n : ℤ} (hlow : 10 ^ (f.prec - 1) ≤ n) (hhigh : n < 10 ^ f.prec) (he : f.etiny ≤ e)
include hlow hhigh he

theorem holds_grid : f.Holds (n * 10 ^ e) := by
  refine ⟨n, e, rfl, he, ?_⟩
  have : (0 : ℤ) < 10 ^ (f.prec - 1) := by positivity
  rw [abs_of_pos (by omega)]
  exact hhigh.le

theorem holds_grid_succ : f.Holds ((n + 1) * 10 ^ e) := by
  refine ⟨n + 1, e, by push_cast; rfl, he, ?_⟩
  have : (0 : ℤ) < 10 ^ (f.prec - 1) := by positivity
  rw [abs_of_pos (by omega)]
  omega

/-- From a grid point up to the next the unit is the grid's. -/
theorem exponent_grid (h : n * 10 ^ e ≤ v) (h' : v < (n + 1) * 10 ^ e) : f.exponent v = e := by
  refine exponent_eq ?_ ?_ he
  · refine le_trans ?_ h
    obtain ⟨p, hp⟩ : ∃ p, f.prec = p + 1 := ⟨f.prec - 1, by have := f.prec_pos; omega⟩
    rw [hp, Nat.add_sub_cancel] at hlow
    rw [hp, show e + ((p + 1 : ℕ) : ℤ) - 1 = p + e by push_cast; ring, ten_add, zpow_natCast]
    exact mul_le_mul_of_nonneg_right (by exact_mod_cast hlow) (ten_pos e).le
  · refine h'.trans_le ?_
    rw [add_comm e, ten_add, zpow_natCast]
    have hsucc : (n : ℚ) + 1 ≤ 10 ^ f.prec := by exact_mod_cast (hhigh : n + 1 ≤ 10 ^ f.prec)
    exact mul_le_mul_of_nonneg_right hsucc (ten_pos e).le

/-- **The side of a grid point**: a number is rounded to it or below exactly
up to half a unit above it, the half included when its digit is even. -/
theorem round_le_iff : f.round v ≤ n * 10 ^ e ↔
    v < (n + 1 / 2) * 10 ^ e ∨ v = (n + 1 / 2) * 10 ^ e ∧ Even n := by
  have hu := ten_pos e
  rcases lt_or_ge v (n * 10 ^ e) with hlt | hge
  · refine iff_of_true ?_ (.inl (hlt.trans_le ?_))
    · exact (round_mono hlt.le).trans_eq (round_of_holds (holds_grid hlow hhigh he))
    · exact mul_le_mul_of_nonneg_right (by linarith) hu.le
  rcases lt_or_ge v ((n + 1) * 10 ^ e) with hlt | hge'
  · rw [round, exponent_grid hlow hhigh he hge hlt, mul_le_mul_iff_left₀ hu, Int.cast_le, nearestEven_le_iff,
      div_lt_iff₀ hu, div_eq_iff hu.ne']
  · have hr := (round_of_holds (holds_grid_succ hlow hhigh he)).symm.trans_le (round_mono hge')
    have hstep : (n : ℚ) * 10 ^ e < (n + 1 / 2) * 10 ^ e := mul_lt_mul_of_pos_right (by linarith) hu
    have hstep' : ((n : ℚ) + 1 / 2) * 10 ^ e < (n + 1) * 10 ^ e := mul_lt_mul_of_pos_right (by linarith) hu
    refine iff_of_false (by linarith) ?_
    rintro (h | ⟨h, -⟩) <;> linarith

/-- Nothing is rounded to between a grid point and the next. -/
theorem round_grid_cases (v : ℚ) : f.round v ≤ n * 10 ^ e ∨ (n + 1) * 10 ^ e ≤ f.round v := by
  have hu := ten_pos e
  rcases lt_or_ge v (n * 10 ^ e) with hlt | hge
  · exact .inl ((round_mono hlt.le).trans_eq (round_of_holds (holds_grid hlow hhigh he)))
  rcases lt_or_ge v ((n + 1) * 10 ^ e) with hlt | hge'
  · rw [round, exponent_grid hlow hhigh he hge hlt, mul_le_mul_iff_left₀ hu, mul_le_mul_iff_left₀ hu, Int.cast_le]
    rcases le_or_gt (nearestEven (v / 10 ^ e)) n with h | h
    · exact .inl h
    · exact .inr (by exact_mod_cast h)
  · exact .inr ((round_of_holds (holds_grid_succ hlow hhigh he)).symm.trans_le (round_mono hge'))

/-- The same with any bound from the grid point up to the next. -/
theorem round_le_iff_of_between (h : n * 10 ^ e ≤ x) (h' : x < (n + 1) * 10 ^ e) : f.round v ≤ x ↔
    v < (n + 1 / 2) * 10 ^ e ∨ v = (n + 1 / 2) * 10 ^ e ∧ Even n := by
  rw [← round_le_iff hlow hhigh he]
  refine ⟨fun hv => ?_, fun hv => hv.trans h⟩
  exact (round_grid_cases hlow hhigh he v).resolve_right fun hc => absurd (hc.trans hv) (not_le.mpr h')

theorem round_lt_iff_of_between (h : n * 10 ^ e < x) (h' : x ≤ (n + 1) * 10 ^ e) : f.round v < x ↔
    v < (n + 1 / 2) * 10 ^ e ∨ v = (n + 1 / 2) * 10 ^ e ∧ Even n := by
  rw [← round_le_iff hlow hhigh he]
  refine ⟨fun hv => ?_, fun hv => hv.trans_lt h⟩
  exact (round_grid_cases hlow hhigh he v).resolve_right fun hc => absurd (h'.trans hc) (not_le.mpr hv)

end grid

end Format
end Rounding
