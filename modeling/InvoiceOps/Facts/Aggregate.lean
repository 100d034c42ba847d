/-
What the aggregate of a batch of scores says. Its counts are counts of
verdicts, so they split what was scored, add up over batches and do not see
their order, and truth and extraction may change places. An accuracy is a
quotient rounded to a double: it is 1.0 for agreement alone, as long as no
more than `2 ^ 53` fields are graded.
-/
import InvoiceOps.Evaluation.Scoring
import InvoiceOps.Facts.Serial

namespace InvoiceOps

/-! ## Doubles below one -/

namespace PyFloat

theorem nearest_le {q : ℚ} {n : ℤ} (h : q ≤ n) : nearest q ≤ n := by
  have hfloor : ⌊q⌋ ≤ n := by exact_mod_cast (Int.floor_le q).trans h
  unfold nearest
  dsimp only
  by_cases heq : ⌊q⌋ = n
  · -- Then `q` is the integer.
    have hq : q - ⌊q⌋ ≤ 0 := by rw [heq]; linarith
    rw [if_pos (by linarith)]
    exact hfloor
  · split_ifs <;> omega

/-- Of what is below one by a unit of the last place of the double below it. -/
theorem double_lt_one {q : ℚ} (hpos : 0 < q) (h : q ≤ 1 - 1 / 2 ^ 53) : double q < 1 := by
  have hlog : Int.log 2 q ≤ -1 := by
    have hlt : q < ((2 : ℕ) : ℚ) ^ (0 : ℤ) := by
      rw [zpow_zero]
      linarith [show (0 : ℚ) < 1 / 2 ^ 53 by positivity]
    have := (Int.lt_zpow_iff_log_lt (by norm_num) hpos).mp hlt
    omega
  rw [double, if_neg hpos.ne', abs_of_pos hpos]
  generalize he : max (Int.log 2 q - 52) (-1074) = e
  have htwo : (0 : ℚ) < 2 ^ e := zpow_pos (by norm_num) e
  have hpow : ((2 ^ 53 : ℤ) : ℚ) * 2 ^ e = 2 ^ (53 + e) := by
    rw [zpow_add₀ (by norm_num)]
    norm_num
  rcases (show e ≤ -53 by omega).lt_or_eq with hlt | heq
  · -- Below one half: a unit is at most half as large.
    have hq : q / 2 ^ e ≤ ((2 ^ 53 : ℤ) : ℚ) := by
      rw [div_le_iff₀ htwo, hpow]
      refine (Int.lt_zpow_succ_log_self (b := 2) (by norm_num) q).le.trans ?_
      exact zpow_le_zpow_right₀ (by norm_num) (by omega)
    calc (nearest (q / 2 ^ e) : ℚ) * 2 ^ e ≤ (2 ^ 53 : ℤ) * 2 ^ e :=
          mul_le_mul_of_nonneg_right (by exact_mod_cast nearest_le hq) htwo.le
      _ = 2 ^ (53 + e) := hpow
      _ < 2 ^ (0 : ℤ) := zpow_lt_zpow_right₀ (by norm_num) (by omega)
      _ = 1 := zpow_zero _
  · have hunit : (2 : ℚ) ^ e = 1 / 2 ^ 53 := by rw [heq]; norm_num
    have hq : q / 2 ^ e ≤ ((2 ^ 53 - 1 : ℤ) : ℚ) := by
      rw [hunit, div_le_iff₀ (by positivity)]
      refine h.trans_eq ?_
      norm_num
    calc (nearest (q / 2 ^ e) : ℚ) * 2 ^ e ≤ (2 ^ 53 - 1 : ℤ) * 2 ^ e :=
          mul_le_mul_of_nonneg_right (by exact_mod_cast nearest_le hq) htwo.le
      _ = 1 - 1 / 2 ^ 53 := by rw [hunit]; norm_num
      _ < 1 := by norm_num

/-- A share of at most `2 ^ 53` is 1.0 when it is all of them. -/
theorem quotientOr1_eq_one_iff {n d : ℕ} (hle : n ≤ d) (h : d ≤ 2 ^ 53) : quotientOr1 n d = 1 ↔ n = d := by
  rw [quotientOr1]
  by_cases hd : d = 0
  · rw [if_pos hd]
    exact iff_of_true rfl (by omega)
  rw [if_neg hd]
  have hdq : (0 : ℚ) < d := by exact_mod_cast Nat.pos_of_ne_zero hd
  constructor
  · intro hone
    by_contra hne
    refine absurd hone (ne_of_lt ?_)
    rcases Nat.eq_zero_or_pos n with rfl | hn
    · rw [Nat.cast_zero, zero_div, show double 0 = 0 from if_pos rfl]
      exact one_pos
    · refine double_lt_one (div_pos (by exact_mod_cast hn) hdq) ?_
      have hsub : (n : ℚ) ≤ d - 1 := by
        rw [le_sub_iff_add_le]
        exact_mod_cast (by omega : n + 1 ≤ d)
      have hbound : (d : ℚ) ≤ 2 ^ 53 := by exact_mod_cast h
      rw [div_le_iff₀ hdq, sub_mul, one_mul]
      have hshare : (1 / 2 ^ 53 : ℚ) * d ≤ 1 := by
        rw [one_div, inv_mul_le_iff₀ (by positivity), mul_one]
        exact hbound
      linarith
  · rintro rfl
    rw [div_self hdq.ne']
    decide +kernel

end PyFloat

/-! ## Counts of verdicts -/

/-- Truth and extraction in each other's place. -/
def Verdict.swap : Verdict → Verdict
  | .missing => .spurious
  | .spurious => .missing
  | v => v

def FieldScore.swap (s : FieldScore) : FieldScore := ⟨s.field, s.verdict.swap, s.actual, s.expected⟩

namespace Aggregate

def swap (a : Aggregate) : Aggregate := { a with missing := a.spurious, spurious := a.missing }

def add (a b : Aggregate) : Aggregate :=
  ⟨a.graded + b.graded, a.correct + b.correct, a.wrong + b.wrong, a.missing + b.missing, a.spurious + b.spurious,
    a.absentOk + b.absentOk, a.criticalGraded + b.criticalGraded, a.criticalCorrect + b.criticalCorrect⟩

theorem add_left_comm (a b c : Aggregate) : a.add (b.add c) = b.add (a.add c) := by
  simp only [add, Nat.add_left_comm]

end Aggregate

/-- One score's share of the aggregate. -/
def FieldScore.counted (s : FieldScore) : Aggregate where
  graded := if s.verdict = .absentOk then 0 else 1
  correct := if s.verdict = .correct then 1 else 0
  wrong := if s.verdict = .wrong then 1 else 0
  missing := if s.verdict = .missing then 1 else 0
  spurious := if s.verdict = .spurious then 1 else 0
  absentOk := if s.verdict = .absentOk then 1 else 0
  criticalGraded := if s.verdict ≠ .absentOk ∧ s.field ∈ criticalFields then 1 else 0
  criticalCorrect := if s.verdict = .correct ∧ s.field ∈ criticalFields then 1 else 0

section counts
variable {s : FieldScore} {ss : List FieldScore} {xs ys : List (List FieldScore)}

theorem aggregate_flat (xs : List (List FieldScore)) : aggregate xs = aggregate [xs.flatten] := by
  simp only [aggregate, List.flatten_cons, List.flatten_nil, List.append_nil]

theorem aggregate_cons (s : FieldScore) (ss : List FieldScore) : aggregate [s :: ss] = s.counted.add (aggregate [ss]) := by
  simp only [aggregate, FieldScore.counted, Aggregate.add, List.flatten_cons, List.flatten_nil, List.append_nil]
  by_cases hc : s.field ∈ criticalFields <;> cases hv : s.verdict <;>
    simp [hv, hc, Nat.add_comm]

/-- Two batches together. -/
theorem aggregate_append (xs ys : List (List FieldScore)) :
    aggregate (xs ++ ys) = (aggregate xs).add (aggregate ys) := by
  simp only [aggregate, Aggregate.add, List.flatten_append, List.filter_append, List.countP_append, List.length_append]

theorem aggregate_perm (h : xs.Perm ys) : aggregate xs = aggregate ys := by
  induction h with
  | nil => rfl
  | @cons x xs ys _ ih =>
    rw [← List.singleton_append, aggregate_append, ih, ← aggregate_append, List.singleton_append]
  | swap x y xs =>
    have hpair : ∀ a b : List FieldScore,
        aggregate (a :: b :: xs) = (aggregate [a]).add ((aggregate [b]).add (aggregate xs)) := by
      intro a b
      rw [← List.singleton_append, aggregate_append, ← List.singleton_append (l := xs), aggregate_append]
    rw [hpair, hpair, Aggregate.add_left_comm]
  | trans _ _ ih₁ ih₂ => exact ih₁.trans ih₂

/-- A verdict is one of five. -/
theorem counted_split (s : FieldScore) :
    s.counted.graded = s.counted.correct + s.counted.wrong + s.counted.missing + s.counted.spurious ∧
      s.counted.graded + s.counted.absentOk = 1 ∧ s.counted.criticalCorrect ≤ s.counted.criticalGraded ∧
      s.counted.criticalGraded ≤ s.counted.graded := by
  by_cases hc : s.field ∈ criticalFields <;> cases hv : s.verdict <;> simp [FieldScore.counted, hv, hc]

theorem aggregate_split (ss : List FieldScore) :
    (aggregate [ss]).graded =
        (aggregate [ss]).correct + (aggregate [ss]).wrong + (aggregate [ss]).missing + (aggregate [ss]).spurious ∧
      (aggregate [ss]).graded + (aggregate [ss]).absentOk = ss.length ∧
      (aggregate [ss]).criticalCorrect ≤ (aggregate [ss]).criticalGraded ∧
      (aggregate [ss]).criticalGraded ≤ (aggregate [ss]).graded := by
  induction ss with
  | nil => decide
  | cons s ss ih =>
    obtain ⟨hgraded, hall, hcorrect, hcritical⟩ := counted_split s
    obtain ⟨hgraded', hall', hcorrect', hcritical'⟩ := ih
    rw [aggregate_cons, Aggregate.add, List.length_cons]
    dsimp only
    omega

theorem counted_swap (s : FieldScore) : s.swap.counted = s.counted.swap := by
  cases hv : s.verdict <;> simp [FieldScore.counted, FieldScore.swap, Aggregate.swap, Verdict.swap, hv]

theorem aggregate_swap (ss : List FieldScore) : aggregate [ss.map FieldScore.swap] = (aggregate [ss]).swap := by
  induction ss with
  | nil => rfl
  | cons s ss ih =>
    rw [List.map_cons, aggregate_cons, aggregate_cons, ih, counted_swap]
    rfl

/-- Nothing graded but what is correct. -/
theorem correct_eq_graded_iff (ss : List FieldScore) : (aggregate [ss]).correct = (aggregate [ss]).graded ↔
    ∀ s ∈ ss, s.verdict = .correct ∨ s.verdict = .absentOk := by
  induction ss with
  | nil => exact iff_of_true rfl fun s hs => (by cases hs)
  | cons s ss ih =>
    have hsplit := aggregate_split ss
    rw [List.forall_mem_cons, ← ih, aggregate_cons, Aggregate.add]
    cases hv : s.verdict <;> simp [FieldScore.counted, hv] <;> omega

theorem criticalCorrect_eq_criticalGraded_iff (ss : List FieldScore) :
    (aggregate [ss]).criticalCorrect = (aggregate [ss]).criticalGraded ↔
      ∀ s ∈ ss, s.field ∈ criticalFields → s.verdict = .correct ∨ s.verdict = .absentOk := by
  induction ss with
  | nil => exact iff_of_true rfl fun s hs => (by cases hs)
  | cons s ss ih =>
    have hsplit := aggregate_split ss
    rw [List.forall_mem_cons, ← ih, aggregate_cons, Aggregate.add]
    by_cases hc : s.field ∈ criticalFields <;> cases hv : s.verdict <;> simp [FieldScore.counted, hv, hc] <;> omega

end counts

/-! ## Batches of invoices -/

/-- The scores of extractions against their ground truths. -/
def scored (py : Py) (pairs : List (ExtractedInvoice × ExtractedInvoice)) : List (List FieldScore) :=
  pairs.map fun p => scoreInvoice py p.1 p.2

/-- The texts compared are the same for each of the fields. -/
def Agree (py : Py) (fields : List String) (expected actual : ExtractedInvoice) : Prop :=
  ∀ name ∈ fields, normalize py name (expected.getattr name) = normalize py name (actual.getattr name)

section batches
variable {py : Py} {expected actual : ExtractedInvoice} {pairs : List (ExtractedInvoice × ExtractedInvoice)}

theorem verdict_swap (field : String) (e a : Option FieldValue) : verdict py field a e = (verdict py field e a).swap := by
  unfold verdict
  cases normalize py field e with
  | none => cases normalize py field a <;> rfl
  | some e =>
    cases normalize py field a with
    | none => rfl
    | some a =>
      by_cases h : e = a
      · simp only [h, if_true, Verdict.swap]
      · simp only [h, Ne.symm h, if_false, Verdict.swap]

theorem verdict_agrees_iff (field : String) (e a : Option FieldValue) :
    (verdict py field e a = .correct ∨ verdict py field e a = .absentOk) ↔ normalize py field e = normalize py field a := by
  unfold verdict
  cases normalize py field e with
  | none => cases normalize py field a <;> simp
  | some e =>
    cases normalize py field a with
    | none => simp
    | some a => by_cases h : e = a <;> simp [h]

theorem scoreInvoice_swap (py : Py) (expected actual : ExtractedInvoice) :
    scoreInvoice py actual expected = (scoreInvoice py expected actual).map FieldScore.swap := by
  rw [scoreInvoice, scoreInvoice, List.map_append, List.map_map]
  congr 1
  · refine List.map_congr_left fun name _ => ?_
    simp only [Function.comp_apply, FieldScore.swap, ← verdict_swap]
  · by_cases h : expected.lineItems.length = actual.lineItems.length
    · simp only [h, if_true, List.map_cons, List.map_nil, FieldScore.swap, Verdict.swap]
    · simp only [h, Ne.symm h, if_false, List.map_cons, List.map_nil, FieldScore.swap, Verdict.swap]

theorem scoreInvoice_length (py : Py) (expected actual : ExtractedInvoice) : (scoreInvoice py expected actual).length = 10 :=
  rfl

theorem scored_length (py : Py) (pairs : List (ExtractedInvoice × ExtractedInvoice)) :
    (scored py pairs).flatten.length = 10 * pairs.length := by
  induction pairs with
  | nil => rfl
  | cons p pairs ih =>
    rw [scored, List.map_cons, List.flatten_cons, List.length_append, scoreInvoice_length, ← scored, ih, List.length_cons]
    omega

theorem scored_swap (py : Py) (pairs : List (ExtractedInvoice × ExtractedInvoice)) :
    (scored py (pairs.map Prod.swap)).flatten = (scored py pairs).flatten.map FieldScore.swap := by
  rw [scored, scored, List.map_map, List.map_flatten, List.map_map]
  congr 1
  exact List.map_congr_left fun p _ => scoreInvoice_swap py p.1 p.2

/-- **What the aggregate counts.** -/
theorem aggregate_scored (py : Py) (pairs : List (ExtractedInvoice × ExtractedInvoice)) :
    let a := aggregate (scored py pairs)
    a.graded = a.correct + a.wrong + a.missing + a.spurious ∧ a.graded + a.absentOk = 10 * pairs.length ∧
      a.criticalCorrect ≤ a.criticalGraded ∧ a.criticalGraded ≤ a.graded ∧
      aggregate (scored py (pairs.map Prod.swap)) = { a with missing := a.spurious, spurious := a.missing } ∧
      (∀ pairs' : List (ExtractedInvoice × ExtractedInvoice), pairs'.Perm pairs → aggregate (scored py pairs') = a) ∧
      ∀ more, aggregate (scored py (pairs ++ more)) = a.add (aggregate (scored py more)) := by
  obtain ⟨hgraded, hall, hcorrect, hcritical⟩ := aggregate_split (scored py pairs).flatten
  rw [← aggregate_flat] at hgraded hall hcorrect hcritical
  refine ⟨hgraded, hall.trans (scored_length py pairs), hcorrect, hcritical, ?_, fun pairs' h => ?_, fun more => ?_⟩
  · rw [aggregate_flat, scored_swap, aggregate_swap, ← aggregate_flat]
    rfl
  · exact aggregate_perm (h.map _)
  · rw [scored, List.map_append]
    exact aggregate_append _ _

theorem mem_scoreInvoice {s : FieldScore} : s ∈ scoreInvoice py expected actual ↔
    (∃ name ∈ scalarFields, s = ⟨name, verdict py name (expected.getattr name) (actual.getattr name),
      expected.getattr name, actual.getattr name⟩) ∨
    s = ⟨"line_items_count", if expected.lineItems.length = actual.lineItems.length then .correct else .wrong,
      some (.count expected.lineItems.length), some (.count actual.lineItems.length)⟩ := by
  rw [scoreInvoice, List.mem_append, List.mem_map, List.mem_singleton]
  simp only [eq_comm]

/-- No score of the invoice against the truth is of a difference. -/
theorem agree_iff : (∀ s ∈ scoreInvoice py expected actual, s.verdict = .correct ∨ s.verdict = .absentOk) ↔
    Agree py scalarFields expected actual ∧ expected.lineItems.length = actual.lineItems.length := by
  simp only [mem_scoreInvoice, or_imp, forall_and, forall_eq, forall_exists_index, and_imp]
  refine and_congr ⟨fun h name hname => ?_, fun h s name hname hs => ?_⟩ ?_
  · exact (verdict_agrees_iff name _ _).mp (h _ name hname rfl)
  · subst hs
    exact (verdict_agrees_iff name _ _).mpr (h name hname)
  · split <;> simp_all

theorem agree_critical_iff :
    (∀ s ∈ scoreInvoice py expected actual, s.field ∈ criticalFields → s.verdict = .correct ∨ s.verdict = .absentOk) ↔
      Agree py criticalFields expected actual := by
  have hsub : ∀ name ∈ criticalFields, name ∈ scalarFields := by decide
  constructor
  · intro h name hname
    exact (verdict_agrees_iff name _ _).mp (h _ (mem_scoreInvoice.mpr (.inl ⟨name, hsub name hname, rfl⟩)) hname)
  · intro h s hs hc
    rcases mem_scoreInvoice.mp hs with ⟨name, -, rfl⟩ | rfl
    · exact (verdict_agrees_iff name _ _).mpr (h name hc)
    · have hcount : "line_items_count" ∉ criticalFields := by decide
      exact absurd hc hcount

/-- **An accuracy of 1.0 is agreement**: on every field and the number of
line items of every invoice, and for the critical accuracy on the critical
fields. -/
theorem accuracy_eq_one_iff (h : 10 * pairs.length ≤ 2 ^ 53) :
    ((aggregate (scored py pairs)).fieldAccuracy = 1 ↔
      ∀ p ∈ pairs, Agree py scalarFields p.1 p.2 ∧ p.1.lineItems.length = p.2.lineItems.length) ∧
    ((aggregate (scored py pairs)).criticalAccuracy = 1 ↔ ∀ p ∈ pairs, Agree py criticalFields p.1 p.2) := by
  obtain ⟨hgraded, hall, hcorrect, hcritical⟩ := aggregate_split (scored py pairs).flatten
  have hflat : ∀ P : FieldScore → Prop, (∀ s ∈ (scored py pairs).flatten, P s) ↔
      ∀ p ∈ pairs, ∀ s ∈ scoreInvoice py p.1 p.2, P s := by
    intro P
    rw [List.forall_mem_flatten, scored, List.forall_mem_map]
  rw [scored_length] at hall
  rw [aggregate_flat, Aggregate.fieldAccuracy, Aggregate.criticalAccuracy,
    PyFloat.quotientOr1_eq_one_iff (by omega) (by omega), PyFloat.quotientOr1_eq_one_iff hcorrect (by omega),
    correct_eq_graded_iff, criticalCorrect_eq_criticalGraded_iff, hflat, hflat]
  simp only [agree_iff, agree_critical_iff, and_self]

end batches

namespace Sample

/-- The truth, and an extraction that spells the supplier in its own way. -/
def respelled : List (ExtractedInvoice × ExtractedInvoice) :=
  [({ plain.result.invoice with supplierName := some "ACME  Ltd" },
    { plain.result.invoice with supplierName := some " Acme ltd" })]

theorem accuracy_of_respelled : (aggregate (scored py respelled)).fieldAccuracy = 1 ∧
    (aggregate (scored py respelled)).criticalAccuracy = 1 := by
  have hsame : ∀ p ∈ respelled, Agree py scalarFields p.1 p.2 := by
    intro p hp
    rw [List.mem_singleton.mp hp]
    unfold Agree
    decide +kernel
  have hsub : ∀ name ∈ criticalFields, name ∈ scalarFields := by decide
  have hone := @accuracy_eq_one_iff py respelled (by decide)
  exact ⟨hone.1.mpr fun p hp => ⟨hsame p hp, by rw [List.mem_singleton.mp hp]⟩,
    hone.2.mpr fun p hp name hname => hsame p hp name (hsub name hname)⟩

end Sample

end InvoiceOps
