/-
`Lib.PyDecimal` computes the exact result, rounded: what each operation
gives is a matter of the numbers its operands denote (`Rounds`), not of
their coefficients and exponents. The exact result overflows from
`Context.limit` on, and nothing else is signalled.
-/
import InvoiceOps.Lib.PyDecimalFacts
import InvoiceOps.Lib.Rounding
import Mathlib.Data.Nat.Cast.Field

namespace PyDecimal

open Rounding

/-- The numbers of a context, its greatest exponent apart. -/
def Context.format (c : Context) (hp : 0 < c.prec) : Format := ⟨c.prec, hp, c.etiny⟩

/-- From here on a result overflows: half a unit above the greatest number. -/
def Context.limit (c : Context) : ℚ := (10 ^ c.prec - 1 / 2) * 10 ^ c.etop

section rounding
variable {c : Context} {hp : 0 < c.prec} {v : ℚ} {a b d r : PyDecimal}

theorem lt_limit_iff (hp : 0 < c.prec) (hc : c.etiny ≤ c.etop) :
    |v| < c.limit ↔ |(c.format hp).round v| < 10 ^ (c.etop + c.prec) := by
  obtain ⟨p, hp'⟩ : ∃ p, c.prec = p + 1 := ⟨c.prec - 1, by omega⟩
  have hpow : (1 : ℤ) ≤ 10 ^ p := one_le_pow₀ (by norm_num)
  have hlow : (10 : ℤ) ^ ((c.format hp).prec - 1) ≤ 10 ^ c.prec - 1 := by
    change (10 : ℤ) ^ (c.prec - 1) ≤ 10 ^ c.prec - 1
    rw [hp', Nat.add_sub_cancel, pow_succ]
    omega
  have hodd : ¬ Even ((10 : ℤ) ^ c.prec - 1) := by
    rw [Int.even_sub_one, not_not, hp', pow_succ]
    exact Even.mul_left (by decide) _
  have hu := Format.ten_pos c.etop
  rw [← Format.round_abs, add_comm, Format.ten_add, zpow_natCast,
    Format.round_lt_iff_of_between (n := 10 ^ c.prec - 1) (e := c.etop) hlow (sub_one_lt _) hc
      (by push_cast; exact mul_lt_mul_of_pos_right (by linarith) hu) (by push_cast; rw [sub_add_cancel])]
  push_cast
  rw [show (10 : ℚ) ^ c.prec - 1 + 1 / 2 = 10 ^ c.prec - 1 / 2 by ring]
  exact ⟨.inl, fun h => h.resolve_right fun h => hodd h.2⟩

/-- `x` is the outcome of an operation whose exact result is `v`. -/
def Rounds (c : Context) (hp : 0 < c.prec) (v : ℚ) : Except Signal PyDecimal → Prop
  | .ok r => |v| < c.limit ∧ r.toRat = (c.format hp).round v
  | .error s => s = .overflow ∧ c.limit ≤ |v|

theorem rounds_of_ok (hc : c.etiny ≤ c.etop) (hr : r.toRat = (c.format hp).round v)
    (h : |r.toRat| < 10 ^ (c.etop + c.prec)) : Rounds c hp v (.ok r) :=
  ⟨(lt_limit_iff hp hc).mpr (hr ▸ h), hr⟩

theorem rounds_of_overflow (hc : c.etiny ≤ c.etop) (h : (10 : ℚ) ^ (c.etop + c.prec) ≤ |(c.format hp).round v|) :
    Rounds c hp v (.error .overflow) :=
  ⟨rfl, not_lt.mp fun hlt => absurd ((lt_limit_iff hp hc).mp hlt) (not_lt.mpr h)⟩

theorem halfEven_eq (n : Nat) {m : Nat} (hm : 0 < m) : (halfEven n m : ℤ) = nearestEven ((n : ℚ) / m) := by
  have hfloor : ⌊(n : ℚ) / m⌋ = ((n / m : Nat) : ℤ) := by
    rw [Int.floor_div_natCast, Int.floor_natCast, Int.natCast_ediv]
  have hfract : Int.fract ((n : ℚ) / m) = ((n % m : Nat) : ℚ) / m := Int.fract_div_natCast_eq_div_natCast_mod
  have hmq : (0 : ℚ) < m := by exact_mod_cast hm
  have hlt : ((n % m : Nat) : ℚ) / m < 1 / 2 ↔ 2 * (n % m) < m := by
    rw [div_lt_div_iff₀ hmq (by norm_num), one_mul, mul_comm]
    exact_mod_cast Iff.rfl
  have hgt : 1 / 2 < ((n % m : Nat) : ℚ) / m ↔ m < 2 * (n % m) := by
    rw [div_lt_div_iff₀ (by norm_num) hmq, one_mul, mul_comm _ (2 : ℚ)]
    exact_mod_cast Iff.rfl
  have heven : Even ((n / m : Nat) : ℤ) ↔ n / m % 2 = 0 := by rw [Int.even_coe_nat, Nat.even_iff]
  unfold halfEven nearestEven
  rw [hfloor, hfract]
  simp only [hlt, hgt, heven]
  split_ifs <;> push_cast <;> rfl

/-- The digits of a coefficient give the exponent of the number. -/
theorem log_toRat (h : d.coef ≠ 0) : Int.log 10 |d.toRat| = digits d.coef + d.exp - 1 := by
  have hpos : 0 < |d.toRat| := abs_pos.mpr (toRat_ne_zero h)
  have hdig : 0 < digits d.coef := Nat.succ_pos _
  have hlow : (10 : ℚ) ^ ((digits d.coef : ℤ) + d.exp - 1) ≤ |d.toRat| := by
    rw [abs_toRat, show (digits d.coef : ℤ) + d.exp - 1 = (digits d.coef - 1 : Nat) + d.exp by omega,
      Format.ten_add, zpow_natCast]
    exact mul_le_mul_of_nonneg_right (by exact_mod_cast pow_digits_le h) (ten_zpow_pos _).le
  have hhigh : |d.toRat| < (10 : ℚ) ^ ((digits d.coef : ℤ) + d.exp) := by
    rw [abs_toRat, Format.ten_add, zpow_natCast]
    exact mul_lt_mul_of_pos_right (by exact_mod_cast lt_pow_digits d.coef) (ten_zpow_pos _)
  have h₁ := (Int.zpow_le_iff_le_log (b := 10) (by norm_num) hpos).mp (by exact_mod_cast hlow)
  have h₂ := (Int.lt_zpow_iff_log_lt (b := 10) (by norm_num) hpos).mp (by exact_mod_cast hhigh)
  omega

theorem exponent_toRat (hp : 0 < c.prec) (h : d.coef ≠ 0) :
    (c.format hp).exponent d.toRat = max (digits d.coef + d.exp - c.prec) c.etiny := by
  rw [Format.exponent, log_toRat h]
  change max ((digits d.coef : ℤ) + d.exp - 1 + 1 - c.prec) c.etiny = _
  rw [sub_add_cancel]

theorem round_unit (s : Bool) (v : ℚ) : (c.format hp).round (unit s * v) = unit s * (c.format hp).round v := by
  cases s with
  | false => simp [unit]
  | true => simp [unit, Format.round_neg]

/-- The exact coefficient in a larger unit, to the nearest integer. -/
theorem round_rescaled (hp : 0 < c.prec) (h : d.coef ≠ 0) {k : Nat} {e : Int} (hk : e = k + d.exp)
    (he : e = max (digits d.coef + d.exp - c.prec) c.etiny) :
    (c.format hp).round d.toRat = unit d.sign * halfEven d.coef (10 ^ k) * 10 ^ e := by
  have hexp : (c.format hp).exponent d.toRat = e := (exponent_toRat hp h).trans he.symm
  have habs : d.toRat = unit d.sign * |d.toRat| := by rw [abs_toRat, toRat_eq, mul_assoc]
  have hscale : |d.toRat| / 10 ^ e = (d.coef : ℚ) / (10 ^ k : Nat) := by
    rw [abs_toRat, hk, Format.ten_add, zpow_natCast, mul_div_mul_right _ _ (ten_zpow_pos _).ne']
    push_cast
    rfl
  rw [habs, round_unit, Format.round, Format.exponent, abs_abs, ← Format.exponent, hexp, hscale,
    ← halfEven_eq _ (by positivity), mul_assoc, Int.cast_natCast]

/-- A rounded coefficient, brought back to `prec` digits when it carried. -/
theorem carried_rounds (hc : c.etiny ≤ c.etop) {s : Bool} {q : Nat} {e : Int}
    (hr : (c.format hp).round v = unit s * q * 10 ^ e) (hq : q ≤ 10 ^ c.prec) (he : e ≤ c.etop) :
    Rounds c hp v (if c.prec < digits q then
      if c.etop < e + 1 then .error .overflow else .ok ⟨s, q / 10, e + 1⟩ else .ok ⟨s, q, e⟩) := by
  have habs : |unit s * q * 10 ^ e| = q * 10 ^ e := by
    rw [abs_mul, abs_mul, abs_unit, one_mul, Nat.abs_cast, abs_of_pos (ten_zpow_pos _)]
  split
  · next hcarry =>
    have hq10 := carry_eq hp hq hcarry
    split
    · next htop =>
      have htop' : e = c.etop := by omega
      refine rounds_of_overflow hc ?_
      rw [hr, habs, htop', add_comm, Format.ten_add, zpow_natCast]
      have hge : 10 ^ c.prec ≤ q := by
        by_contra hlt
        have := digits_le_of_lt hp (Nat.lt_of_not_le hlt)
        omega
      exact mul_le_mul_of_nonneg_right (by exact_mod_cast hge) (ten_zpow_pos _).le
    · next htop =>
      have hq10' : ((q / 10 : Nat) : ℚ) * 10 = q := by exact_mod_cast hq10
      have hr' : (⟨s, q / 10, e + 1⟩ : PyDecimal).toRat = unit s * q * 10 ^ e := by
        rw [toRat_eq, ← hq10']
        simp only [zpow_add₀ ten_ne, zpow_one]
        ring
      refine rounds_of_ok hc (hr'.trans hr.symm) ?_
      rw [hr', habs]
      calc (q : ℚ) * 10 ^ e ≤ 10 ^ c.prec * 10 ^ e :=
            mul_le_mul_of_nonneg_right (by exact_mod_cast hq) (ten_zpow_pos _).le
        _ = 10 ^ (e + c.prec) := by rw [add_comm, Format.ten_add, zpow_natCast]
        _ < 10 ^ (c.etop + c.prec) := zpow_lt_zpow_right₀ (by norm_num) (by omega)
  · next hcarry =>
    have hr' : (⟨s, q, e⟩ : PyDecimal).toRat = unit s * q * 10 ^ e := toRat_eq _
    refine rounds_of_ok hc (hr'.trans hr.symm) ?_
    rw [hr', habs]
    calc (q : ℚ) * 10 ^ e < 10 ^ c.prec * 10 ^ e := by
          refine mul_lt_mul_of_pos_right ?_ (ten_zpow_pos _)
          have := (lt_pow_digits q).trans_le (Nat.pow_le_pow_right (by norm_num) (not_lt.mp hcarry))
          exact_mod_cast this
      _ = 10 ^ (e + c.prec) := by rw [add_comm, Format.ten_add, zpow_natCast]
      _ ≤ 10 ^ (c.etop + c.prec) := zpow_le_zpow_right₀ (by norm_num) (by omega)

/-- **`_fix` rounds.** -/
theorem fix_rounds (hc : c.etiny ≤ c.etop) (d : PyDecimal) : Rounds c hp d.toRat (fix c d) := by
  unfold fix
  split
  · next h0 =>
    have hr : (⟨d.sign, d.coef, min (max d.exp c.etiny) c.emax⟩ : PyDecimal).toRat = 0 := toRat_of_coef_zero h0
    refine rounds_of_ok hc ?_ ?_
    · exact hr.trans (by rw [toRat_of_coef_zero h0, Format.round_zero])
    · refine (congrArg _ hr).trans_lt ?_
      rw [abs_zero]
      exact ten_zpow_pos _
  next h0 =>
  split
  · next hbig =>
    -- More digits than the greatest number has.
    refine rounds_of_overflow hc ?_
    have hge : (10 : ℚ) ^ (c.etop + c.prec) ≤ |d.toRat| := by
      refine (zpow_le_zpow_right₀ (by norm_num) ?_).trans
        (Int.zpow_log_le_self (b := 10) (by norm_num) (abs_pos.mpr (toRat_ne_zero h0)))
      rw [log_toRat h0]
      omega
    rw [← Format.round_abs]
    exact (Format.round_of_holds (Format.holds_pow (f := c.format hp) hc)).symm.trans_le (Format.round_mono hge)
  next hbig =>
  dsimp only
  split
  · next hlt =>
    obtain ⟨k, hk⟩ : ∃ k : Nat, max (digits d.coef + d.exp - c.prec) c.etiny = k + d.exp :=
      ⟨(max (digits d.coef + d.exp - c.prec) c.etiny - d.exp).toNat, by omega⟩
    have hround := round_rescaled hp h0 hk rfl
    rw [show (max (digits d.coef + d.exp - c.prec) c.etiny - d.exp).toNat = k by omega]
    exact carried_rounds hc hround (halfEven_le_pow (by omega)) (max_le (not_lt.mp hbig) hc)
  · next hge =>
    -- A multiple of its unit already.
    have hexp := exponent_toRat hp h0
    generalize max (digits d.coef + d.exp - c.prec) c.etiny = e at *
    obtain ⟨k, hk⟩ : ∃ k : Nat, d.exp = k + e := ⟨(d.exp - e).toNat, by omega⟩
    refine rounds_of_ok hc (Format.round_eq_self (n := d.signed * 10 ^ k) ?_).symm ?_
    · rw [hexp, toRat, hk, Format.ten_add, zpow_natCast]
      push_cast
      ring
    · refine (Int.lt_zpow_succ_log_self (b := 10) (by norm_num) |d.toRat|).trans_le ?_
      rw [log_toRat h0]
      exact zpow_le_zpow_right₀ (by norm_num) (by omega)

/-! ## Operations -/

theorem Rounds.congr (hc : c.etiny ≤ c.etop) {v' : ℚ} {x : Except Signal PyDecimal}
    (h : (c.format hp).round v = (c.format hp).round v') (hx : Rounds c hp v x) : Rounds c hp v' x := by
  cases x with
  | ok r => exact ⟨(lt_limit_iff _ hc).mpr (h ▸ (lt_limit_iff _ hc).mp hx.1), hx.2.trans h⟩
  | error s =>
    refine ⟨hx.1, not_lt.mp fun hlt => ?_⟩
    have hlt' := (lt_limit_iff hp hc).mp hlt
    rw [← h] at hlt'
    exact absurd ((lt_limit_iff _ hc).mpr hlt') (not_lt.mpr hx.2)

theorem add_rounds (hp : 0 < c.prec) (hc : c.etiny ≤ c.etop) (a b : PyDecimal) :
    Rounds c hp (a.toRat + b.toRat) (add c a b) := by
  obtain ⟨d, hd, hv⟩ := add_fix c a b
  rw [hd, ← hv]
  exact fix_rounds hc d

theorem sub_rounds (hc : c.etiny ≤ c.etop) (a b : PyDecimal) : Rounds c hp (a.toRat - b.toRat) (sub c a b) := by
  obtain ⟨d, hd, hv⟩ := sub_fix c a b
  rw [hd, ← hv]
  exact fix_rounds hc d

theorem mul_rounds (hp : 0 < c.prec) (hc : c.etiny ≤ c.etop) (a b : PyDecimal) :
    Rounds c hp (a.toRat * b.toRat) (mul c a b) := by
  have hunit : unit (a.sign ^^ b.sign) = unit a.sign * unit b.sign := by
    cases a.sign <;> cases b.sign <;> norm_num [unit]
  have hv : (⟨a.sign ^^ b.sign, a.coef * b.coef, a.exp + b.exp⟩ : PyDecimal).toRat = a.toRat * b.toRat := by
    simp only [toRat_eq, hunit, Format.ten_add, Nat.cast_mul]
    ring
  rw [← hv]
  exact fix_rounds hc _

theorem abs_rounds (hp : 0 < c.prec) (hc : c.etiny ≤ c.etop) (d : PyDecimal) : Rounds c hp |d.toRat| (abs c d) := by
  have hv : (⟨false, d.coef, d.exp⟩ : PyDecimal).toRat = |d.toRat| := by rw [abs_toRat, toRat_eq, unit]; simp
  rw [← hv]
  exact fix_rounds hc _

theorem toRat_div_eq (a b : PyDecimal) : a.toRat / b.toRat = unit (a.sign ^^ b.sign) * (|a.toRat| / |b.toRat|) := by
  have hunit : unit (a.sign ^^ b.sign) = unit a.sign / unit b.sign := by
    cases a.sign <;> cases b.sign <;> norm_num [unit]
  rw [hunit, abs_toRat, abs_toRat, toRat_eq, toRat_eq, mul_assoc, mul_assoc, mul_div_mul_comm]

/-- **The sticky digit.** The quotient before rounding rounds as the exact
one does. -/
theorem round_quotient (ha : a.coef ≠ 0) (hb : b.coef ≠ 0) :
    (c.format hp).round (quotient c a b).toRat = (c.format hp).round (a.toRat / b.toRat) := by
  set shift : Int := digits b.coef - digits a.coef + c.prec + 1 with hshift
  set n := a.coef * 10 ^ shift.toNat with hn
  set m := b.coef * 10 ^ (-shift).toNat with hm
  set e := a.exp - b.exp - shift with he
  have hm0 : 0 < m := Nat.mul_pos (Nat.pos_of_ne_zero hb) (by positivity)
  have hmq : (0 : ℚ) < m := by exact_mod_cast hm0
  have hexact : |a.toRat| / |b.toRat| = (n : ℚ) / m * 10 ^ e := abs_div_eq a b shift
  have hdef : quotient c a b = if n % m = 0 then
      ⟨a.sign ^^ b.sign, (stripZeros shift.toNat (n / m) e).1, (stripZeros shift.toNat (n / m) e).2⟩
      else ⟨a.sign ^^ b.sign, if n / m % 5 = 0 then n / m + 1 else n / m, e⟩ := rfl
  rw [toRat_div_eq, hexact, hdef]
  split
  · next hdvd =>
    rw [toRat_eq, mul_assoc, stripZeros_value, Nat.cast_div (Nat.dvd_of_mod_eq_zero hdvd) hmq.ne']
  · next hrem =>
    set q := if n / m % 5 = 0 then n / m + 1 else n / m with hq
    have hbig : 10 ^ c.prec ≤ n / m := (Nat.le_div_iff_mul_le hm0).mpr (pow_le_shifted ha c.prec)
    have hge : n / m ≤ q := by rw [hq]; split <;> omega
    have hscale : ∀ {x y : ℚ}, x * 10 ^ e < y * 10 ^ e ↔ x < y := mul_lt_mul_iff_left₀ (ten_zpow_pos e)
    have hlow : ∀ {x : ℚ}, (10 : ℚ) ^ c.prec ≤ x → (10 : ℚ) ^ (e + (c.format hp).prec) ≤ x * 10 ^ e := by
      intro x hx
      change (10 : ℚ) ^ (e + c.prec) ≤ _
      rw [add_comm, Format.ten_add, zpow_natCast]
      exact mul_le_mul_of_nonneg_right hx (ten_zpow_pos e).le
    rw [toRat_eq, mul_assoc, round_unit, round_unit]
    congr 1
    refine Format.round_congr (e := e) (hlow (by exact_mod_cast hbig.trans hge)) (hlow ?_) (fun k => ?_) fun k => ?_
    · rw [le_div_iff₀ hmq]
      exact_mod_cast pow_le_shifted ha c.prec
    · rw [hscale, hscale]
      rcases le_or_gt k 0 with hk | hk
      · have hk' : (5 : ℚ) * k ≤ 0 := by exact_mod_cast (by omega : 5 * k ≤ 0)
        exact iff_of_false (not_lt.mpr (hk'.trans (Nat.cast_nonneg q)))
          (not_lt.mpr (hk'.trans (div_nonneg (Nat.cast_nonneg n) hmq.le)))
      · obtain ⟨j, rfl⟩ : ∃ j : Nat, k = j := ⟨k.toNat, by omega⟩
        rw [div_lt_iff₀ hmq]
        have hdiv : n / m < 5 * j ↔ n < 5 * j * m := Nat.div_lt_iff_lt_mul hm0
        have hstep : q < 5 * j ↔ n / m < 5 * j := by rw [hq]; split <;> omega
        exact_mod_cast hstep.trans hdiv
    · -- Neither is such a multiple.
      have hmul : ∀ {x y : ℚ}, x * 10 ^ e = y * 10 ^ e ↔ x = y := mul_left_inj' (ten_zpow_pos e).ne'
      rw [hmul, hmul, div_eq_iff hmq.ne']
      refine iff_of_false (fun h => ?_) fun h => ?_
      · have hk : (q : ℤ) = 5 * k := by exact_mod_cast h
        rw [hq] at hk
        split at hk <;> omega
      · have hk : (n : ℤ) = 5 * k * m := by exact_mod_cast h
        have hmod : (n : ℤ) % m = 0 := by rw [hk]; exact Int.mul_emod_left ..
        exact hrem (by exact_mod_cast hmod)

theorem div_rounds (hc : c.etiny ≤ c.etop) (hb : b.coef ≠ 0) (a : PyDecimal) :
    Rounds c hp (a.toRat / b.toRat) (div c a b) := by
  unfold div
  rw [if_neg hb]
  split
  · next ha =>
    have hv : (⟨a.sign ^^ b.sign, 0, a.exp - b.exp⟩ : PyDecimal).toRat = a.toRat / b.toRat := by
      rw [toRat_of_coef_zero rfl, toRat_of_coef_zero ha, zero_div]
    exact hv ▸ fix_rounds hc _
  · next ha => exact (fix_rounds hc _).congr hc (round_quotient ha hb)

/-! ## Outcomes as numbers -/

/-- The outcome of an operation whose exact result is `v`: none when it
overflows. -/
def Context.outcome (c : Context) (hp : 0 < c.prec) (v : ℚ) : Option ℚ :=
  if |v| < c.limit then some ((c.format hp).round v) else none

/-- The number an outcome denotes. -/
def value? (x : Except Signal PyDecimal) : Option ℚ := x.toOption.map toRat

theorem Rounds.value? {x : Except Signal PyDecimal} (h : Rounds c hp v x) : PyDecimal.value? x = c.outcome hp v := by
  cases x with
  | ok r => rw [Context.outcome, if_pos h.1, ← h.2]; rfl
  | error s => rw [Context.outcome, if_neg (not_lt.mpr h.2)]; rfl

theorem toOption_bind {α β : Type} (x : Except Signal α) (f : α → Except Signal β) :
    (x >>= f).toOption = x.toOption.bind fun a => (f a).toOption := by cases x <;> rfl

theorem ok_bind {α β : Type} (a : α) (f : α → Except Signal β) : ((.ok a : Except Signal α) >>= f) = f a := rfl

/-- A result can be added up or compared without further rounding. -/
theorem outcome_abs_round (hc : c.etiny ≤ c.etop) (h : |v| < c.limit) :
    c.outcome hp |(c.format hp).round v| = some |(c.format hp).round v| := by
  have hlim : |(|(c.format hp).round v|)| < c.limit := by
    rw [abs_abs, lt_limit_iff hp hc, Format.round_round]
    exact (lt_limit_iff _ hc).mp h
  rw [Context.outcome, if_pos hlim, Format.round_abs, Format.round_round]

/-- The absolute value of a result is exact. -/
theorem abs_value? (hc : c.etiny ≤ c.etop) (hd : c.outcome hp v = some d.toRat) :
    value? (abs c d) = some |d.toRat| := by
  rw [(abs_rounds hp hc d).value?]
  by_cases hlt : |v| < c.limit
  · rw [Context.outcome, if_pos hlt] at hd
    rw [← Option.some.inj hd]
    exact outcome_abs_round hc hlt
  · rw [Context.outcome, if_neg hlt] at hd
    cases hd

/-- `sum(ds, Decimal("0"))`, over the numbers. -/
theorem sum_value? (hp : 0 < c.prec) (hc : c.etiny ≤ c.etop) (ds : List PyDecimal) :
    value? (sum c ds) = (ds.map toRat).foldlM (fun s x => c.outcome hp (s + x)) 0 := by
  have hgen : ∀ (ds : List PyDecimal) (s : PyDecimal), value? (ds.foldlM (add c) s) =
      (ds.map toRat).foldlM (fun s x => c.outcome hp (s + x)) s.toRat := by
    intro ds
    induction ds with
    | nil => exact fun s => rfl
    | cons d ds ih =>
      intro s
      rw [List.foldlM_cons, List.map_cons, List.foldlM_cons, value?, toOption_bind,
        ← (add_rounds hp hc s d).value?]
      cases add c s d with
      | ok r => exact ih r
      | error e => rfl
  rw [sum, hgen, toRat_of_coef_zero rfl]

/-! ## To an exponent -/

/-- A number at exponent `e` is the nearest integer to it in units of `10 ^ e`. -/
theorem rescale_signed (d : PyDecimal) (e : Int) : (rescale d e).signed = nearestEven (d.toRat / 10 ^ e) := by
  have hunit : ∀ n : Nat, (PyDecimal.mk d.sign n e).signed = if d.sign then -(n : ℤ) else n := fun n => rfl
  have hneg : ∀ q : ℚ, nearestEven (unit d.sign * q) = if d.sign then -nearestEven q else nearestEven q := by
    intro q
    cases d.sign with
    | true => rw [unit, if_pos rfl, neg_one_mul, nearestEven_neg, if_pos rfl]
    | false => rw [unit, if_neg Bool.false_ne_true, one_mul, if_neg Bool.false_ne_true]
  have hvalue : d.toRat / 10 ^ e = unit d.sign * (d.coef * 10 ^ (d.exp - e)) := by
    rw [toRat_eq, zpow_sub₀ ten_ne]
    ring
  rw [hvalue, hneg, rescale]
  split
  next he =>
    obtain ⟨k, hk⟩ : ∃ k : ℕ, d.exp - e = k := ⟨(d.exp - e).toNat, by omega⟩
    have hint : (d.coef : ℚ) * 10 ^ (d.exp - e) = ((d.coef * 10 ^ k : ℕ) : ℤ) := by
      rw [hk, zpow_natCast]
      push_cast
      rfl
    rw [hint, nearestEven_intCast, hunit, hk, Int.toNat_natCast]
  next he =>
    obtain ⟨k, hk⟩ : ∃ k : ℕ, e - d.exp = k := ⟨(e - d.exp).toNat, by omega⟩
    have hdiv : (d.coef : ℚ) * 10 ^ (d.exp - e) = (d.coef : ℚ) / (10 ^ k : ℕ) := by
      rw [show d.exp - e = -(k : ℤ) by omega, zpow_neg, zpow_natCast, div_eq_mul_inv]
      push_cast
      rfl
    rw [hdiv, hunit, hk, Int.toNat_natCast, halfEven_eq d.coef (by positivity)]

theorem natAbs_signed (d : PyDecimal) : d.signed.natAbs = d.coef := by
  unfold signed
  split <;> simp

theorem digits_le_iff {n k : Nat} (hk : 0 < k) : digits n ≤ k ↔ n < 10 ^ k :=
  ⟨fun h => (lt_pow_digits n).trans_le (Nat.pow_le_pow_right (by norm_num) h), digits_le_of_lt hk⟩

/-- What has the context's digits is quantized. -/
theorem quantize_eq {e : Int} (hp : 0 < c.prec) (he : c.etiny ≤ e) (hmax : e + c.prec - 1 ≤ c.emax) :
    quantize c d e = if (rescale d e).coef < 10 ^ c.prec then some (rescale d e) else none := by
  rw [quantize]
  by_cases h : digits (rescale d e).coef ≤ c.prec
  · rw [if_pos ((digits_le_iff hp).mp h), if_pos ⟨he, by omega, h⟩]
  · rw [if_neg fun hlt => h ((digits_le_iff hp).mpr hlt), if_neg fun hall => h hall.2.2]

/-- What is at the exponent already stays. -/
theorem rescale_self (d : PyDecimal) : rescale d d.exp = d := by
  rw [rescale, if_pos le_rfl, Int.sub_self]
  simp

end rounding

end PyDecimal
