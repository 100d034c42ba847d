/-
Lists ranked by a score, best first. The sort is stable, so ties stand in the
order given: a ranking of a permuted list has the same scores place by place
(`scores_eq_of_perm`), and the same first element when that one leads
strictly (`head_eq_of_perm`). Two elements with the best score there is tie
for the first place (`tie_of_two`). Where no two elements tie, sorting
forgets the order given and nothing else (`insertionSort_eq_iff`).
-/
import Mathlib.Data.List.Sort
import Mathlib.Order.Defs.LinearOrder

namespace Ranking

variable {α β : Type} [LinearOrder β] {score : α → β}

/-- Best first. -/
def Ranked (score : α → β) (l : List α) : Prop := l.Pairwise fun a b => score b ≤ score a

theorem ranked_insertionSort (score : α → β) (l : List α) :
    Ranked score (l.insertionSort fun a b => score b ≤ score a) := by
  have htotal : Std.Total fun a b : α => score b ≤ score a := ⟨fun a b => le_total (score b) (score a)⟩
  have htrans : IsTrans α fun a b => score b ≤ score a := ⟨fun _ _ _ hab hbc => le_trans hbc hab⟩
  exact List.pairwise_insertionSort _ l

theorem scores_eq_of_perm {l l' : List α} (h : l.Perm l') (hl : Ranked score l) (hl' : Ranked score l') :
    l.map score = l'.map score := by
  refine (h.map score).eq_of_pairwise (fun a b _ _ hba hab => le_antisymm hab hba) ?_ ?_
  · exact List.pairwise_map.mpr hl
  · exact List.pairwise_map.mpr hl'

/-- Who leads strictly leads in every order. -/
theorem head_eq_of_perm {a a' : α} {l l' : List α} (h : (a :: l).Perm (a' :: l')) (hl : Ranked score (a :: l))
    (hl' : Ranked score (a' :: l')) (hlead : ∀ b ∈ l, score b < score a) : a = a' := by
  have hscore : score a = score a' := (List.cons.inj (scores_eq_of_perm h hl hl')).1
  rcases List.mem_cons.mp (h.mem_iff.mpr (List.mem_cons_self ..)) with he | hmem
  · exact he.symm
  · exact absurd hscore (hlead a' hmem).ne'

theorem le_head {a b : α} {l : List α} (h : Ranked score (a :: l)) (hb : b ∈ l) : score b ≤ score a :=
  List.rel_of_pairwise_cons h hb

/-- Two that no score exceeds: the first two places are a tie. -/
theorem tie_of_two {l : List α} {top : β} (h : Ranked score l) (hle : ∀ b ∈ l, score b ≤ top)
    (htwo : 2 ≤ l.countP fun b => score b = top) : ∃ a b l', l = a :: b :: l' ∧ score a = top ∧ score b = top := by
  have hnone : ∀ {a : α} {l : List α}, Ranked score (a :: l) → score a < top →
      ((a :: l).countP fun b => score b = top) = 0 := by
    intro a l hr ha
    refine List.countP_eq_zero.mpr fun b hb => ?_
    rw [decide_eq_true_eq]
    rcases List.mem_cons.mp hb with rfl | hb
    · exact ha.ne
    · exact ((le_head hr hb).trans_lt ha).ne
  cases l with
  | nil => simp at htwo
  | cons a l =>
    have ha : score a = top := by
      refine le_antisymm (hle a (List.mem_cons_self ..)) (not_lt.mp fun hlt => ?_)
      rw [hnone h hlt] at htwo
      omega
    cases l with
    | nil =>
      have hone := htwo.trans List.countP_le_length
      rw [List.length_singleton] at hone
      omega
    | cons b l =>
      refine ⟨a, b, l, rfl, ha, ?_⟩
      refine le_antisymm (hle b (by simp)) (not_lt.mp fun hlt => ?_)
      rw [List.countP_cons, hnone (List.Pairwise.of_cons h) hlt] at htwo
      split at htwo <;> omega

theorem insertionSort_eq_iff {r : α → α → Prop} [DecidableRel r] [Std.Total r] [IsTrans α r] {l l' : List α}
    (hanti : ∀ a ∈ l, ∀ b ∈ l, r a b → r b a → a = b) : l.insertionSort r = l'.insertionSort r ↔ l.Perm l' := by
  constructor
  · intro h
    exact (List.perm_insertionSort r l).symm.trans (h ▸ List.perm_insertionSort r l')
  · intro h
    have hperm : (l.insertionSort r).Perm (l'.insertionSort r) :=
      (List.perm_insertionSort r l).trans (h.trans (List.perm_insertionSort r l').symm)
    refine hperm.eq_of_pairwise (fun a b ha hb hab hba => ?_) (List.pairwise_insertionSort r l)
      (List.pairwise_insertionSort r l')
    exact hanti a ((List.mem_insertionSort r).mp ha) b (h.mem_iff.mpr ((List.mem_insertionSort r).mp hb)) hab hba

end Ranking
