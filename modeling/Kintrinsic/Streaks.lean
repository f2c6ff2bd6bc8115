import Mathlib.Data.List.Induction

/-! # Streaks

A counter that is fed one value after the other keeps the last value and how often it has come in a
row, up to a cap; only some values count at all.  It has reached `k` exactly when the values so far
end in `k` times one value that counts (`le_held_iff`), whatever came before them. -/
namespace Streaks

variable {β : Type} [DecidableEq β] (counts : β → Bool) (cap : Nat)

/-- The last value, and the times that it has come in a row. -/
structure Counter (β : Type) where
  last : β
  held : Nat

/-- One more value. -/
def note (c : Counter β) (x : β) : Counter β where
  last := x
  held := if counts x then (if x = c.last then min (c.held + 1) cap else 1) else 0

/-- The counter after some values, from one that has counted nothing. -/
def after (start : β) (xs : List β) : Counter β := xs.foldl (note counts cap) ⟨start, 0⟩

variable {counts cap} {start : β} {xs : List β}

theorem after_snoc (x : β) :
    after counts cap start (xs ++ [x]) = note counts cap (after counts cap start xs) x := by
  unfold after
  rw [List.foldl_append]
  rfl

/-- A counter that has counted has the last value. -/
theorem last_of_suffix {k : Nat} {x : β} (h : List.replicate (k + 1) x <:+ xs) :
    (after counts cap start xs).last = x := by
  obtain ⟨rest, rfl⟩ := h
  rw [List.replicate_succ', ← List.append_assoc, after_snoc]
  rfl

/-- A run of equal values at the end is one at the end of what came before, and once more. -/
theorem replicate_suffix_snoc {k : Nat} {x y : β} :
    List.replicate (k + 1) x <:+ xs ++ [y] ↔ x = y ∧ List.replicate k x <:+ xs := by
  rw [List.replicate_succ']
  constructor
  · rintro ⟨rest, h⟩
    rw [← List.append_assoc] at h
    obtain ⟨hxs, hlast⟩ := List.append_inj' h rfl
    exact ⟨List.head_eq_of_cons_eq hlast, rest, hxs⟩
  · rintro ⟨rfl, rest, rfl⟩
    exact ⟨rest, by rw [List.append_assoc]⟩

/-- **What the counter has reached.**  The induction is on the values; a value that is not the last
one starts again at one, and a run of two or more of it would need it to be the last one. -/
theorem le_held_iff {k : Nat} (hcap : k + 1 ≤ cap) :
    k + 1 ≤ (after counts cap start xs).held ↔
      ∃ x, counts x = true ∧ List.replicate (k + 1) x <:+ xs := by
  induction xs using List.reverseRecOn generalizing k with
  | nil =>
    constructor
    · intro h
      exact absurd h (Nat.not_succ_le_zero k)
    · rintro ⟨x, -, h⟩
      have hlength := h.length_le
      rw [List.length_replicate, List.length_nil] at hlength
      omega
  | append_singleton xs y ih =>
    rw [after_snoc]
    show k + 1 ≤ (if counts y then _ else 0) ↔ _
    simp only [replicate_suffix_snoc]
    by_cases hy : counts y = true
    · rw [if_pos hy]
      cases k with
      | zero =>
        constructor
        · intro _
          exact ⟨y, hy, rfl, List.nil_suffix⟩
        · intro _
          split <;> omega
      | succ k =>
        by_cases hlast : y = (after counts cap start xs).last
        · -- the value goes on
          rw [if_pos hlast]
          have hmin : k + 1 + 1 ≤ min ((after counts cap start xs).held + 1) cap ↔
              k + 1 ≤ (after counts cap start xs).held := by omega
          rw [hmin, ih (by omega)]
          constructor
          · rintro ⟨x, hx, h⟩
            obtain rfl : x = y := (last_of_suffix h).symm.trans hlast.symm
            exact ⟨x, hx, rfl, h⟩
          · rintro ⟨x, hx, -, h⟩
            exact ⟨x, hx, h⟩
        · -- another value
          rw [if_neg hlast]
          constructor
          · intro h
            omega
          · rintro ⟨x, -, rfl, h⟩
            exact absurd (last_of_suffix h).symm hlast
    · rw [if_neg hy]
      constructor
      · intro h
        omega
      · rintro ⟨x, hx, rfl, -⟩
        exact absurd hx hy

end Streaks
