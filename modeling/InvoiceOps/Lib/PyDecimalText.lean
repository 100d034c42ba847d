/-
Numerals read back: `Decimal(s)`, for the texts that denote finite numbers in
ASCII digits. (The constructor also takes blanks around them, underscores in
them, the digits of other scripts, and the special values; none of these is
in the text of a finite number.) Reading inverts `str` (`ofStr?_str`), so a
text is that of one sign, coefficient and exponent.
-/
import InvoiceOps.Lib.PyDecimal
import Mathlib.Data.List.TakeWhile

namespace PyDecimal

def readSign : List Char → Bool × List Char
  | '-' :: cs => (true, cs)
  | '+' :: cs => (false, cs)
  | cs => (false, cs)

/-- The digits after a point, and what follows. -/
def readFraction : List Char → List Char × List Char
  | '.' :: cs => (cs.takeWhile Char.isDigit, cs.dropWhile Char.isDigit)
  | cs => ([], cs)

/-- The exponent that ends a numeral. -/
def readExponent : List Char → Option Int
  | [] => some 0
  | c :: cs =>
    let (neg, ds) := readSign cs
    if (c = 'E' ∨ c = 'e') ∧ ds ≠ [] ∧ ds.all Char.isDigit then
      some (if neg then -(Nat.ofDigitChars 10 ds 0 : Int) else Nat.ofDigitChars 10 ds 0)
    else none

/-- `Decimal(s)`; none is `InvalidOperation`. -/
def ofStr? (s : String) : Option PyDecimal := do
  let (sign, cs) := readSign s.toList
  let whole := cs.takeWhile Char.isDigit
  let (fraction, rest) := readFraction (cs.dropWhile Char.isDigit)
  let exp ← readExponent rest
  if whole ++ fraction = [] then none
  else some ⟨sign, Nat.ofDigitChars 10 (whole ++ fraction) 0, exp - fraction.length⟩

/-- Digits, with a point and more digits if there are any. -/
def numeral (whole fraction : List Char) : List Char := whole ++ if fraction = [] then [] else '.' :: fraction

/-- The exponent as `str` writes it. -/
def exponentText (e : Int) : List Char :=
  if e = 0 then [] else 'E' :: (if e < 0 then '-' else '+') :: (Nat.repr e.natAbs).toList

def AllDigits (cs : List Char) : Prop := ∀ c ∈ cs, c.isDigit = true

section read
variable {whole fraction tail : List Char} {e : Int}

theorem allDigits_repr (n : Nat) : AllDigits (Nat.repr n).toList := fun c hc =>
  Nat.isDigit_of_mem_toDigits (by decide) (by decide) (Nat.toList_repr ▸ hc)

theorem readSign_digit {c : Char} (h : c.isDigit = true) (cs : List Char) : readSign (c :: cs) = (false, c :: cs) := by
  unfold readSign
  split
  next heq =>
    cases heq
    cases h
  next heq =>
    cases heq
    cases h
  next => rfl

theorem readSign_digits (hne : whole ≠ []) (h : AllDigits whole) (rest : List Char) :
    readSign (whole ++ rest) = (false, whole ++ rest) := by
  cases whole with
  | nil => exact absurd rfl hne
  | cons c cs => exact readSign_digit (h c (List.mem_cons_self ..)) _

/-- What follows the digits of a numeral. -/
theorem takeWhile_tail (htail : tail = [] ∨ ∃ cs, tail = 'E' :: cs) :
    tail.takeWhile Char.isDigit = [] ∧ tail.dropWhile Char.isDigit = tail ∧ readFraction tail = ([], tail) := by
  rcases htail with rfl | ⟨cs, rfl⟩
  · exact ⟨rfl, rfl, rfl⟩
  · exact ⟨rfl, rfl, rfl⟩

theorem takeWhile_digits (h : AllDigits whole) (htail : tail.takeWhile Char.isDigit = [])
    (hdrop : tail.dropWhile Char.isDigit = tail) : (whole ++ tail).takeWhile Char.isDigit = whole ∧
      (whole ++ tail).dropWhile Char.isDigit = tail := by
  rw [List.takeWhile_append_of_pos h, List.dropWhile_append_of_pos h, htail, hdrop, List.append_nil]
  exact ⟨rfl, rfl⟩

/-- The digits before the point, and those after it. -/
theorem read_numeral (hw : AllDigits whole) (hf : AllDigits fraction) (htail : tail = [] ∨ ∃ cs, tail = 'E' :: cs) :
    (numeral whole fraction ++ tail).takeWhile Char.isDigit = whole ∧
      readFraction ((numeral whole fraction ++ tail).dropWhile Char.isDigit) = (fraction, tail) := by
  obtain ⟨ht, hd, hr⟩ := takeWhile_tail htail
  rw [numeral, List.append_assoc]
  by_cases hnil : fraction = []
  · subst hnil
    rw [if_pos rfl, List.nil_append, (takeWhile_digits hw ht hd).1, (takeWhile_digits hw ht hd).2, hr]
    exact ⟨rfl, rfl⟩
  · obtain ⟨h₁, h₂⟩ := @takeWhile_digits whole ('.' :: (fraction ++ tail)) hw rfl rfl
    obtain ⟨h₃, h₄⟩ := takeWhile_digits hf ht hd
    rw [if_neg hnil, List.cons_append, h₁, h₂, readFraction, h₃, h₄]
    exact ⟨rfl, rfl⟩

theorem ofStr?_numeral (sign : Bool) (hne : whole ≠ []) (hw : AllDigits whole) (hf : AllDigits fraction)
    (htail : tail = [] ∨ ∃ cs, tail = 'E' :: cs) (he : readExponent tail = some e) :
    ofStr? (String.ofList ((if sign then ['-'] else []) ++ numeral whole fraction ++ tail)) =
      some ⟨sign, Nat.ofDigitChars 10 (whole ++ fraction) 0, e - fraction.length⟩ := by
  obtain ⟨hwhole, hrest⟩ := read_numeral hw hf htail
  have hsign : readSign ((if sign then ['-'] else []) ++ (numeral whole fraction ++ tail)) =
      (sign, numeral whole fraction ++ tail) := by
    cases sign with
    | true => rfl
    | false =>
      rw [if_neg Bool.false_ne_true, List.nil_append, numeral, List.append_assoc]
      exact readSign_digits hne hw _
  rw [ofStr?, String.toList_ofList, List.append_assoc, hsign]
  dsimp only
  rw [hwhole, hrest]
  dsimp only
  rw [he, Option.bind_eq_bind, Option.bind_some, if_neg (List.append_ne_nil_of_left_ne_nil hne _)]

/-- The text of the digits is a numeral, with as many digits after the point
as the point is from their end. -/
theorem placePoint_eq {ds : List Char} {point : Int} (hne : ds ≠ []) (hd : AllDigits ds) (h : point ≤ ds.length) :
    ∃ whole fraction, placePoint ds point = numeral whole fraction ∧ whole ≠ [] ∧ AllDigits whole ∧
      AllDigits fraction ∧ Nat.ofDigitChars 10 (whole ++ fraction) 0 = Nat.ofDigitChars 10 ds 0 ∧
      (fraction.length : Int) = ds.length - point := by
  have hzeros : ∀ n, AllDigits (List.replicate n '0') := fun n c hc => by rw [List.eq_of_mem_replicate hc]; rfl
  rw [placePoint]
  split
  next hp =>
    refine ⟨['0'], List.replicate (-point).toNat '0' ++ ds, ?_, List.cons_ne_nil _ _, hzeros 1,
      List.forall_mem_append.mpr ⟨hzeros _, hd⟩, ?_, ?_⟩
    · rw [numeral, if_neg (List.append_ne_nil_of_right_ne_nil _ hne)]
      rfl
    · rw [Nat.ofDigitChars_append, Nat.ofDigitChars_append, show ['0'] = List.replicate 1 '0' from rfl,
        Nat.ofDigitChars_replicate_zero, Nat.ofDigitChars_replicate_zero, Nat.mul_zero]
    · rw [List.length_append, List.length_replicate]
      omega
  next hp =>
    split
    next hl =>
      obtain rfl : point = ds.length := by omega
      refine ⟨ds, [], ?_, hne, hd, List.forall_mem_nil _, by rw [List.append_nil], by rw [Int.sub_self]; rfl⟩
      rw [numeral, if_pos rfl, Int.sub_self]
      rfl
    next hl =>
      have hlen : (ds.take point.toNat).length = point.toNat := by rw [List.length_take]; omega
      refine ⟨ds.take point.toNat, ds.drop point.toNat, ?_, ?_, fun c hc => hd c (List.mem_of_mem_take hc),
        fun c hc => hd c (List.mem_of_mem_drop hc), by rw [List.take_append_drop], ?_⟩
      · rw [numeral, if_neg (by rw [List.drop_eq_nil_iff]; omega)]
      · exact List.ne_nil_of_length_pos (by omega)
      · rw [List.length_drop]
        omega

end read

theorem exponentText_cases (e : Int) : exponentText e = [] ∨ ∃ cs, exponentText e = 'E' :: cs := by
  rw [exponentText]
  split
  · exact .inl rfl
  · exact .inr ⟨_, rfl⟩

theorem readExponent_text (e : Int) : readExponent (exponentText e) = some e := by
  have hdigits : (Nat.repr e.natAbs).toList ≠ [] ∧ ((Nat.repr e.natAbs).toList.all Char.isDigit) = true :=
    ⟨by rw [Nat.toList_repr]; exact Nat.toDigits_ne_nil, List.all_eq_true.mpr (allDigits_repr _)⟩
  have hvalue : Nat.ofDigitChars 10 (Nat.repr e.natAbs).toList 0 = e.natAbs := by
    rw [Nat.toList_repr, Nat.ofDigitChars_ten_toDigits]
  rw [exponentText]
  by_cases he : e = 0
  · rw [if_pos he, he, readExponent]
  rw [if_neg he, readExponent]
  by_cases hneg : e < 0
  · rw [if_pos hneg, readSign]
    dsimp only
    rw [if_pos ⟨.inl rfl, hdigits⟩, if_pos rfl, hvalue]
    congr 1
    omega
  · rw [if_neg hneg, readSign]
    dsimp only
    rw [if_pos ⟨.inl rfl, hdigits⟩, if_neg Bool.false_ne_true, hvalue]
    congr 1
    omega

/-- `str` writes a sign, a numeral and an exponent. -/
theorem str_eq (d : PyDecimal) : ∃ whole fraction e,
    d.str = String.ofList ((if d.sign then ['-'] else []) ++ numeral whole fraction ++ exponentText e) ∧ whole ≠ [] ∧
      AllDigits whole ∧ AllDigits fraction ∧ Nat.ofDigitChars 10 (whole ++ fraction) 0 = d.coef ∧
      e - fraction.length = d.exp := by
  have hne : (Nat.repr d.coef).toList ≠ [] := by rw [Nat.toList_repr]; exact Nat.toDigits_ne_nil
  have hpos := List.length_pos_iff.mpr hne
  rw [str]
  generalize hpoint : (if decide (d.exp ≤ 0 ∧ -6 < d.exp + ((Nat.repr d.coef).toList.length : Int)) = true then
    d.exp + ((Nat.repr d.coef).toList.length : Int) else 1) = point
  have hle : point ≤ (Nat.repr d.coef).toList.length := by
    rw [← hpoint]
    split
    next h =>
      rw [decide_eq_true_eq] at h
      omega
    next => omega
  obtain ⟨whole, fraction, htext, hw, hwd, hfd, hvalue, hlen⟩ := placePoint_eq hne (allDigits_repr d.coef) hle
  refine ⟨whole, fraction, d.exp + ((Nat.repr d.coef).toList.length : Int) - point, ?_, hw, hwd, hfd, ?_, ?_⟩
  · rw [htext, signText, ← exponentText]
  · rw [hvalue, Nat.toList_repr, Nat.ofDigitChars_ten_toDigits]
  · omega

/-- **Reading inverts `str`.** -/
theorem ofStr?_str (d : PyDecimal) : ofStr? d.str = some d := by
  obtain ⟨whole, fraction, e, htext, hw, hwd, hfd, hcoef, hexp⟩ := d.str_eq
  rw [htext, ofStr?_numeral d.sign hw hwd hfd (exponentText_cases _) (readExponent_text _), hcoef, hexp]

theorem str_injective : Function.Injective str := fun d d' h =>
  Option.some.inj (by rw [← ofStr?_str, h, ofStr?_str])

/-- The characters `str` writes. -/
theorem mem_str {d : PyDecimal} {c : Char} (h : c ∈ d.str.toList) : c.isDigit = true ∨ c ∈ ['-', '.', 'E', '+'] := by
  obtain ⟨whole, fraction, e, htext, -, hwd, hfd, -, -⟩ := d.str_eq
  rw [htext, String.toList_ofList, numeral, List.mem_append, List.mem_append, List.mem_append] at h
  rcases h with (hsign | hwhole | hfraction) | hexp
  · split at hsign
    · exact .inr (by rw [List.mem_singleton.mp hsign]; decide)
    · cases hsign
  · exact .inl (hwd c hwhole)
  · split at hfraction
    · cases hfraction
    · rcases List.mem_cons.mp hfraction with rfl | hmem
      · exact .inr (by decide)
      · exact .inl (hfd c hmem)
  · rw [exponentText] at hexp
    split at hexp
    · cases hexp
    rcases List.mem_cons.mp hexp with rfl | hexp
    · exact .inr (by decide)
    rcases List.mem_cons.mp hexp with rfl | hmem
    · exact .inr (by split <;> decide)
    · exact .inl (allDigits_repr _ c hmem)

end PyDecimal
