/-
Tables with a primary key: rows in insertion order, no two with one key.
Uniqueness is part of the type, so every operation carries its proof. A row
is reached by its key alone (`mem_rows_iff`), and `get?` after each
operation says all that later proofs use.
-/
import Mathlib.Data.List.Nodup
import Mathlib.Tactic.Common

structure Table (κ ρ : Type) (key : ρ → κ) where
  rows : List ρ
  nodup : (rows.map key).Nodup

namespace Table

variable {κ ρ : Type} {key : ρ → κ}

def empty : Table κ ρ key := ⟨[], List.nodup_nil⟩

variable [DecidableEq κ]

/-- The row with key `k`. -/
def get? (t : Table κ ρ key) (k : κ) : Option ρ := t.rows.find? fun r => decide (key r = k)

/-- The row with key `k` changed by `f`, which keeps the key. -/
def modify (t : Table κ ρ key) (k : κ) (f : ρ → ρ) (hf : ∀ r, key (f r) = key r := by intros; rfl) :
    Table κ ρ key where
  rows := t.rows.map fun r => if key r = k then f r else r
  nodup := by
    have hkey : (key ∘ fun r => if key r = k then f r else r) = key := by
      funext r
      by_cases h : key r = k <;> simp [h, hf]
    rw [List.map_map, hkey]
    exact t.nodup

/-- The row at the end of the table, unless its key is taken. -/
def insert (t : Table κ ρ key) (r : ρ) : Table κ ρ key :=
  if h : key r ∈ t.rows.map key then t
  else ⟨t.rows ++ [r], by
    rw [List.map_append, List.nodup_append]
    refine ⟨t.nodup, List.nodup_singleton _, fun a ha b hb => ?_⟩
    simp only [List.map_cons, List.map_nil, List.mem_singleton] at hb
    subst hb
    exact fun he => h (he ▸ ha)⟩

theorem mem_of_get? {t : Table κ ρ key} {k : κ} {r : ρ} (h : t.get? k = some r) : r ∈ t.rows ∧ key r = k :=
  ⟨List.mem_of_find?_eq_some h, by simpa using List.find?_some h⟩

theorem key_of_get? {t : Table κ ρ key} {k : κ} {r : ρ} (h : t.get? k = some r) : key r = k :=
  (mem_of_get? h).2

theorem find?_key {l : List ρ} (hn : (l.map key).Nodup) {r : ρ} (hr : r ∈ l) :
    (l.find? fun r' => decide (key r' = key r)) = some r := by
  induction l with
  | nil => cases hr
  | cons a l ih =>
    rw [List.map_cons, List.nodup_cons] at hn
    rcases List.mem_cons.mp hr with rfl | hr
    · simp
    · have hne : key a ≠ key r := fun he => hn.1 (he ▸ List.mem_map_of_mem hr)
      rw [List.find?_cons]
      simp only [hne, decide_false]
      exact ih hn.2 hr

theorem mem_rows_iff {t : Table κ ρ key} {r : ρ} : r ∈ t.rows ↔ t.get? (key r) = some r :=
  ⟨find?_key t.nodup, fun h => (mem_of_get? h).1⟩

theorem get?_eq_none_iff {t : Table κ ρ key} {k : κ} : t.get? k = none ↔ k ∉ t.rows.map key := by
  simp only [get?, List.find?_eq_none, decide_eq_true_eq, List.mem_map, not_exists, not_and]

theorem get?_modify_self (t : Table κ ρ key) (k : κ) {f : ρ → ρ} (hf : ∀ r, key (f r) = key r) :
    (t.modify k f hf).get? k = (t.get? k).map f := by
  simp only [get?, modify]
  induction t.rows with
  | nil => rfl
  | cons r rows ih =>
    rw [List.map_cons, List.find?_cons, List.find?_cons]
    by_cases h : key r = k
    · simp [h, hf]
    · simp only [h, if_false, decide_false]
      exact ih

theorem get?_modify_other (t : Table κ ρ key) {k k' : κ} (hne : k' ≠ k) {f : ρ → ρ}
    (hf : ∀ r, key (f r) = key r) : (t.modify k f hf).get? k' = t.get? k' := by
  simp only [get?, modify]
  induction t.rows with
  | nil => rfl
  | cons r rows ih =>
    rw [List.map_cons, List.find?_cons, List.find?_cons]
    by_cases h : key r = k
    · have h' : key r ≠ k' := fun he => hne (he.symm.trans h)
      simp only [h, if_true, hf, hne.symm, decide_false]
      exact ih
    · simp only [h, if_false]
      split
      · rfl
      · exact ih

theorem get?_modify (t : Table κ ρ key) (k k' : κ) {f : ρ → ρ} (hf : ∀ r, key (f r) = key r) :
    (t.modify k f hf).get? k' = if k' = k then (t.get? k).map f else t.get? k' := by
  split
  · next h => rw [h, get?_modify_self]
  · next h => exact get?_modify_other t h hf

theorem get?_insert {t : Table κ ρ key} {r : ρ} (h : t.get? (key r) = none) (k : κ) :
    (t.insert r).get? k = if k = key r then some r else t.get? k := by
  rw [get?_eq_none_iff] at h
  simp only [insert, dif_neg h, get?, List.find?_append]
  by_cases hk : k = key r
  · subst hk
    have hnone : (t.rows.find? fun r' => decide (key r' = key r)) = none :=
      get?_eq_none_iff.mpr h
    simp [hnone]
  · have hk' : key r ≠ k := fun he => hk he.symm
    simp [hk, hk']

theorem rows_insert {t : Table κ ρ key} {r : ρ} (h : t.get? (key r) = none) : (t.insert r).rows = t.rows ++ [r] := by
  rw [get?_eq_none_iff] at h
  simp only [insert, dif_neg h]

theorem mem_insert {t : Table κ ρ key} {r r' : ρ} (h : t.get? (key r) = none) :
    r' ∈ (t.insert r).rows ↔ r' ∈ t.rows ∨ r' = r := by
  rw [rows_insert h, List.mem_append, List.mem_singleton]

end Table
