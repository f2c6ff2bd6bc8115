import Mathlib.Order.Lattice
import Mathlib.Order.Basic
import Mathlib.Algebra.BigOperators.Group.List.Basic
import Mathlib.Algebra.GroupWithZero.Nat

/-! # A high-water mark with a total since

Observations are marked amounts, in any order of marks.  The mark only ever rises; an
amount is added to the total while its mark is not above, and starts the total afresh
when it is.  After any run the mark is the highest seen and the total is the sum of the
amounts since it was first seen. -/

/-- The highest mark so far, and what was observed since it was first reached. -/
structure HighWater (α : Type) where
  mark : α
  total : Nat

namespace HighWater
variable {α : Type} [LinearOrder α]

/-- One observation. -/
def observe (h : HighWater α) (x : α × Nat) : HighWater α :=
  if h.mark < x.1 then ⟨x.1, x.2⟩ else ⟨h.mark, h.total + x.2⟩

/-- The highest of a mark and those of some observations. -/
def highest (m : α) (xs : List (α × Nat)) : α := xs.foldl (fun m x => max m x.1) m

/-- The sum of the amounts from the first observation that reaches `m`. -/
def since (m : α) (xs : List (α × Nat)) : Nat :=
  ((xs.dropWhile (fun x => x.1 < m)).map Prod.snd).sum

@[simp] theorem highest_nil (m : α) : highest m [] = m := rfl

@[simp] theorem highest_cons (m : α) (x : α × Nat) (xs : List (α × Nat)) :
    highest m (x :: xs) = highest (max m x.1) xs := rfl

theorem le_highest (m : α) (xs : List (α × Nat)) : m ≤ highest m xs := by
  induction xs generalizing m with
  | nil => exact le_refl m
  | cons x xs ih => exact (le_max_left m x.1).trans (ih _)

theorem highest_append (m : α) (xs ys : List (α × Nat)) :
    highest m (xs ++ ys) = highest (highest m xs) ys := List.foldl_append

/-- Marks that are not above the highest leave it alone. -/
theorem highest_eq_self {m : α} {xs : List (α × Nat)} (h : ∀ x ∈ xs, x.1 ≤ m) :
    highest m xs = m := by
  induction xs with
  | nil => rfl
  | cons x xs ih =>
    rw [highest_cons, max_eq_left (h x (by simp))]
    exact ih fun y hy => h y (by simp [hy])

theorem since_cons_of_lt {m a : α} {n : Nat} {xs : List (α × Nat)} (h : a < m) :
    since m ((a, n) :: xs) = since m xs := by
  simp [since, h]

theorem since_cons_of_le {m a : α} {n : Nat} {xs : List (α × Nat)} (h : m ≤ a) :
    since m ((a, n) :: xs) = n + (xs.map Prod.snd).sum := by
  simp [since, not_lt.mpr h]

theorem foldl_observe_mark (h : HighWater α) (xs : List (α × Nat)) :
    (xs.foldl observe h).mark = highest h.mark xs := by
  induction xs generalizing h with
  | nil => rfl
  | cons x xs ih =>
    rw [List.foldl_cons, ih, highest_cons]
    unfold observe
    split
    · rename_i hlt
      rw [max_eq_right hlt.le]
    · rename_i hle
      rw [max_eq_left (not_lt.mp hle)]

/-- **The total of a run** is what was observed since the highest mark was first reached. -/
theorem foldl_observe_total (h : HighWater α) (xs : List (α × Nat)) :
    (xs.foldl observe h).total = since (highest h.mark xs) ((h.mark, h.total) :: xs) := by
  induction xs generalizing h with
  | nil => simp [since_cons_of_le]
  | cons x xs ih =>
    obtain ⟨a, n⟩ := x
    rw [List.foldl_cons, ih, highest_cons]
    unfold observe
    split
    · -- a new highest mark: what came before it is dropped
      rename_i hlt
      rw [max_eq_right hlt.le, since_cons_of_lt (lt_of_lt_of_le hlt (le_highest a xs))]
    · rename_i hle
      rw [max_eq_left (not_lt.mp hle)]
      rcases (le_highest h.mark xs).eq_or_lt with heq | hlt
      · have hnow : highest h.mark xs ≤ h.mark := heq.ge
        rw [since_cons_of_le hnow, since_cons_of_le hnow, List.map_cons, List.sum_cons,
          Nat.add_assoc]
      · have ha : a < highest h.mark xs := lt_of_le_of_lt (not_lt.mp hle) hlt
        rw [since_cons_of_lt hlt, since_cons_of_lt hlt, since_cons_of_lt ha]

/-- Further observations under the highest mark only add. -/
theorem since_le_append {m : α} (xs ys : List (α × Nat)) : since m xs ≤ since m (xs ++ ys) := by
  induction xs with
  | nil => exact Nat.zero_le _
  | cons x xs ih =>
    obtain ⟨a, n⟩ := x
    by_cases h : a < m
    · rw [List.cons_append, since_cons_of_lt h, since_cons_of_lt h]
      exact ih
    · rw [List.cons_append, since_cons_of_le (not_lt.mp h), since_cons_of_le (not_lt.mp h)]
      simp

end HighWater
