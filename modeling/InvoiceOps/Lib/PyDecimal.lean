/-
Python's `decimal` arithmetic on finite numbers: sign, coefficient and
exponent, every operation rounded half-even to the context's precision, the
trapped signals (Overflow, DivisionByZero, InvalidOperation) as errors.
Comparison is exact.

The definitions follow the reference implementation (`_fix`, `__truediv__`,
`_rescale`, `__str__`); addition is the exact sum rounded, which is what its
shortcuts for far-apart exponents compute.
-/
import Mathlib.Data.Nat.Log
import Mathlib.Data.Rat.Defs
import Mathlib.Algebra.Order.Field.Rat
import Mathlib.Algebra.Field.Basic

structure PyDecimal where
  sign : Bool
  coef : Nat
  exp : Int
  deriving DecidableEq, Repr

namespace PyDecimal

structure Context where
  prec : Nat
  emax : Int
  emin : Int

/-- The context a thread starts with. -/
def defaultContext : Context := ⟨28, 999999, -999999⟩

/-- The least exponent a result may have. -/
def Context.etiny (c : Context) : Int := c.emin - c.prec + 1

/-- The greatest exponent a full-precision result may have. -/
def Context.etop (c : Context) : Int := c.emax - c.prec + 1

inductive Signal where
  | invalidOperation
  | divisionByZero
  | overflow
  deriving DecidableEq, Repr

/-! ## Values -/

def signed (d : PyDecimal) : Int := if d.sign then -(d.coef : Int) else d.coef

/-- The number `d` denotes. -/
def toRat (d : PyDecimal) : ℚ := (d.signed : ℚ) * (10 : ℚ) ^ d.exp

/-- `d` in units of `10 ^ e`, for an `e` not above its exponent. -/
def scaled (d : PyDecimal) (e : Int) : Int := d.signed * 10 ^ (d.exp - e).toNat

def le (a b : PyDecimal) : Bool :=
  decide (a.scaled (min a.exp b.exp) ≤ b.scaled (min a.exp b.exp))

def isZero (d : PyDecimal) : Bool := d.coef == 0

/-- `d > 0`. -/
def isPos (d : PyDecimal) : Bool := !d.sign && !d.isZero

/-! ## Rounding -/

/-- `len(str(n))`. -/
def digits (n : Nat) : Nat := Nat.log 10 n + 1

/-- `n / m` to the nearest integer, ties to even. -/
def halfEven (n m : Nat) : Nat :=
  if 2 * (n % m) < m then n / m
  else if m < 2 * (n % m) then n / m + 1
  else if (n / m) % 2 = 0 then n / m else n / m + 1

/-- `_fix`: an exact result brought into the context. -/
def fix (c : Context) (d : PyDecimal) : Except Signal PyDecimal :=
  if d.coef = 0 then .ok { d with exp := min (max d.exp c.etiny) c.emax }
  else if c.etop < digits d.coef + d.exp - c.prec then .error .overflow
  else
    let expMin := max (digits d.coef + d.exp - c.prec) c.etiny
    if d.exp < expMin then
      let q := halfEven d.coef (10 ^ (expMin - d.exp).toNat)
      -- A carry into one more digit: the coefficient is a power of ten.
      if c.prec < digits q then
        if c.etop < expMin + 1 then .error .overflow else .ok ⟨d.sign, q / 10, expMin + 1⟩
      else .ok ⟨d.sign, q, expMin⟩
    else .ok d

/-! ## Operations -/

def add (c : Context) (a b : PyDecimal) : Except Signal PyDecimal :=
  let e := min a.exp b.exp
  let s := a.scaled e + b.scaled e
  fix c ⟨if s = 0 then a.sign && b.sign && a.isZero else decide (s < 0), s.natAbs, e⟩

def neg (d : PyDecimal) : PyDecimal := { d with sign := !d.sign }

def sub (c : Context) (a b : PyDecimal) : Except Signal PyDecimal := add c a b.neg

def abs (c : Context) (d : PyDecimal) : Except Signal PyDecimal := fix c { d with sign := false }

def mul (c : Context) (a b : PyDecimal) : Except Signal PyDecimal :=
  fix c ⟨a.sign ^^ b.sign, a.coef * b.coef, a.exp + b.exp⟩

/-- Trailing zeros dropped, at most `n` of them. -/
def stripZeros : Nat → Nat → Int → Nat × Int
  | 0, q, e => (q, e)
  | n + 1, q, e => if q % 10 = 0 then stripZeros n (q / 10) (e + 1) else (q, e)

/-- The quotient to one digit more than the precision, its last digit made
sticky when it is inexact. -/
def quotient (c : Context) (a b : PyDecimal) : PyDecimal :=
  let shift : Int := digits b.coef - digits a.coef + c.prec + 1
  let n := a.coef * 10 ^ shift.toNat
  let m := b.coef * 10 ^ (-shift).toNat
  let e := a.exp - b.exp - shift
  let sign := a.sign ^^ b.sign
  if n % m = 0 then
    let r := stripZeros shift.toNat (n / m) e
    ⟨sign, r.1, r.2⟩
  else ⟨sign, if n / m % 5 = 0 then n / m + 1 else n / m, e⟩

def div (c : Context) (a b : PyDecimal) : Except Signal PyDecimal :=
  if b.coef = 0 then .error (if a.coef = 0 then .invalidOperation else .divisionByZero)
  else if a.coef = 0 then fix c ⟨a.sign ^^ b.sign, 0, a.exp - b.exp⟩
  else fix c (quotient c a b)

/-- `sum(ds, Decimal("0"))`. -/
def sum (c : Context) (ds : List PyDecimal) : Except Signal PyDecimal :=
  ds.foldlM (add c) ⟨false, 0, 0⟩

/-! ## Text -/

/-- The decimal point after the first `point` digits of `ds`. -/
def placePoint (ds : List Char) (point : Int) : List Char :=
  if point ≤ 0 then '0' :: '.' :: (List.replicate (-point).toNat '0' ++ ds)
  else if (ds.length : Int) ≤ point then ds ++ List.replicate (point - ds.length).toNat '0'
  else ds.take point.toNat ++ '.' :: ds.drop point.toNat

def signText (d : PyDecimal) : List Char := if d.sign then ['-'] else []

/-- `str(d)`. -/
def str (d : PyDecimal) : String :=
  let ds := (Nat.repr d.coef).toList
  let left : Int := d.exp + ds.length
  let plain := decide (d.exp ≤ 0 ∧ -6 < left)
  let point : Int := if plain then left else 1
  let e : Int := left - point
  let tail := if e = 0 then [] else
    'E' :: (if e < 0 then '-' else '+') :: (Nat.repr e.natAbs).toList
  String.ofList (d.signText ++ placePoint ds point ++ tail)

/-- `_rescale` with half-even rounding. -/
def rescale (d : PyDecimal) (e : Int) : PyDecimal :=
  if e ≤ d.exp then ⟨d.sign, d.coef * 10 ^ (d.exp - e).toNat, e⟩
  else ⟨d.sign, halfEven d.coef (10 ^ (e - d.exp).toNat), e⟩

/-- `d.quantize(Decimal((0, (1,), e)))`; none is `InvalidOperation`, for a
result of more digits than the context has or beyond its exponents. -/
def quantize (c : Context) (d : PyDecimal) (e : Int) : Option PyDecimal :=
  let r := rescale d e
  if c.etiny ≤ e ∧ digits r.coef + e - 1 ≤ c.emax ∧ digits r.coef ≤ c.prec then some r else none

/-- `f"{d:.1%}"`. -/
def percent (d : PyDecimal) : String :=
  let r := rescale { d with exp := d.exp + 2 } (-1)
  let ds := (Nat.repr r.coef).toList
  String.ofList (d.signText ++ placePoint ds (ds.length - 1) ++ ['%'])

example : (do let q ← div defaultContext ⟨false, 650000, 0⟩ ⟨false, 4200000, 0⟩; pure q.percent :
    Except Signal String) = .ok "15.5%" := by decide +kernel

end PyDecimal
