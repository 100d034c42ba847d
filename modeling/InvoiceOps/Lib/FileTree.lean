/-
A file system: paths to files and directories, where what has a child is a
directory. `mkdirs` and `write` keep that by construction; a read sees the
bytes last written to its path and nothing else changes it
(`read_mkdirs`, `read_write`).
-/
import Mathlib.Data.List.Infix
import Mathlib.Logic.Function.Basic
import Mathlib.Tactic.Common

inductive FileTree.Node (β : Type) where
  | dir
  | file (bytes : β)

structure FileTree (κ β : Type) where
  node : List κ → Option (FileTree.Node β)
  root : node [] = some .dir
  closed : ∀ p name, node (p ++ [name]) ≠ none → node p = some .dir

namespace FileTree

variable {κ β : Type} [DecidableEq κ]

def Node.isFile : Option (Node β) → Bool
  | some (.file _) => true
  | _ => false

def Node.isDir : Option (Node β) → Bool
  | some .dir => true
  | _ => false

theorem Node.eq_dir {o : Option (Node β)} (h : Node.isDir o = true) : o = some .dir := by
  rcases o with _ | _ | _ <;> first | rfl | cases h

/-- The root directory alone. -/
def empty : FileTree κ β where
  node p := if p = [] then some .dir else none
  root := rfl
  closed p name h := absurd (if_neg (List.concat_ne_nil name p)) h

/-- `mkdir -p`: refused when a file is in the way. -/
def mkdirs (t : FileTree κ β) (p : List κ) : Option (FileTree κ β) :=
  if p.inits.any fun q => Node.isFile (t.node q) then none
  else some {
    node := fun q => if q <+: p then some .dir else t.node q
    root := if_pos List.nil_prefix
    closed := by
      intro q name h
      by_cases hq : q ++ [name] <+: p
      · rw [if_pos ((List.prefix_append q [name]).trans hq)]
      · rw [if_neg hq] at h
        split
        · rfl
        · exact t.closed q name h }

/-- The bytes of the file at `p`, in a directory that is there already. -/
def write (t : FileTree κ β) (p : List κ) (bytes : β) : Option (FileTree κ β) :=
  if h : p ≠ [] ∧ Node.isDir (t.node p.dropLast) = true ∧ Node.isDir (t.node p) = false then
    some {
      node := Function.update t.node p (some (.file bytes))
      root := by rw [Function.update_of_ne h.1.symm, t.root]
      closed := by
        intro q name hne
        have hdir : t.node q = some .dir → q ≠ p := by
          rintro hq rfl
          rw [hq] at h
          cases h.2.2
        by_cases hp : q ++ [name] = p
        · subst hp
          rw [List.dropLast_concat] at h
          have hq := Node.eq_dir h.2.1
          rw [Function.update_of_ne (hdir hq), hq]
        · rw [Function.update_of_ne hp] at hne
          have hq := t.closed q name hne
          rw [Function.update_of_ne (hdir hq), hq] }
  else none

def read (t : FileTree κ β) (p : List κ) : Option β :=
  match t.node p with
  | some (.file bytes) => some bytes
  | _ => none

/-- Making directories changes no file. -/
theorem read_mkdirs {t t' : FileTree κ β} {p : List κ} (h : t.mkdirs p = some t') (q : List κ) :
    t'.read q = t.read q := by
  unfold mkdirs at h
  split at h
  · cases h
  · next hfile =>
    cases h
    simp only [read]
    by_cases hq : q <+: p
    · have hno : Node.isFile (t.node q) = false := by
        simp only [List.any_eq_true, not_exists, not_and, Bool.not_eq_true] at hfile
        exact hfile q ((List.mem_inits q p).mpr hq)
      rw [if_pos hq]
      rcases hn : t.node q with _ | _ | b
      · rfl
      · rfl
      · rw [hn] at hno
        cases hno
    · rw [if_neg hq]

/-- A write changes the file it names and no other. -/
theorem read_write {t t' : FileTree κ β} {p : List κ} {bytes : β} (h : t.write p bytes = some t') (q : List κ) :
    t'.read q = if q = p then some bytes else t.read q := by
  unfold write at h
  split at h
  · cases h
    simp only [read]
    by_cases hq : q = p
    · rw [if_pos hq, hq, Function.update_self]
    · rw [if_neg hq, Function.update_of_ne hq]
  · cases h

end FileTree
