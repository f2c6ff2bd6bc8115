import Mathlib.Data.Int.LeastGreatest
import Mathlib.Order.Basic

/-! # A clock that is set from time to time

A wall clock shows a time at each instant.  It moves on by one from an instant to the next
unless it is set there, so between settings it shows every time it passes, and a property of
times that comes to hold does so at a setting or as the clock runs into it. -/
namespace RunningClock

/-- Except where it is set the clock moves on by one. -/
def Runs (wall : Int → Int) (SetAt : Int → Prop) : Prop :=
  ∀ t, ¬SetAt t → wall t = wall (t - 1) + 1

/-- The clock is not set after one instant, up to another. -/
def Undisturbed (SetAt : Int → Prop) (a b : Int) : Prop := ∀ t, a < t → t ≤ b → ¬SetAt t

variable {wall : Int → Int} {SetAt : Int → Prop} {P : Int → Prop} {a b : Int}

theorem Undisturbed.mono {a' b' : Int} (h : Undisturbed SetAt a b) (ha : a ≤ a') (hb : b' ≤ b) :
    Undisturbed SetAt a' b' :=
  fun t hlt hle => h t (lt_of_le_of_lt ha hlt) (hle.trans hb)

/-- Undisturbed, the clock goes as time does. -/
theorem Runs.wall_eq (h : Runs wall SetAt) (hab : a ≤ b) (hset : Undisturbed SetAt a b) :
    wall b = wall a + (b - a) := by
  induction b, hab using Int.leInduction with
  | base => omega
  | succ b hab ih =>
    have hstep := h (b + 1) (hset (b + 1) (by omega) le_rfl)
    rw [add_sub_cancel_right] at hstep
    rw [hstep, ih (hset.mono le_rfl (by omega))]
    omega

/-- Undisturbed, the clock shows every time it passes. -/
theorem Runs.shows (h : Runs wall SetAt) (hset : Undisturbed SetAt a b) {x : Int}
    (hlo : wall a ≤ x) (hhi : x ≤ wall a + (b - a)) : ∃ t, a ≤ t ∧ t ≤ b ∧ wall t = x := by
  refine ⟨a + (x - wall a), by omega, by omega, ?_⟩
  rw [h.wall_eq (by omega) (hset.mono le_rfl (by omega))]
  omega

/-- What holds at a later instant and not at an earlier one first holds at some instant. -/
theorem exists_first (hab : a ≤ b) (ha : ¬P a) (hb : P b) :
    ∃ t, a < t ∧ t ≤ b ∧ P t ∧ ∀ u, a ≤ u → u < t → ¬P u := by
  obtain ⟨t, ⟨hat, htP⟩, hleast⟩ := Int.exists_least_of_bdd (P := fun t => a ≤ t ∧ P t)
    ⟨a, fun t ht => ht.1⟩ ⟨b, hab, hb⟩
  refine ⟨t, ?_, hleast b ⟨hab, hb⟩, htP, ?_⟩
  · rcases hat.lt_or_eq with hlt | rfl
    · exact hlt
    · exact absurd htP ha
  · exact fun u hau hut hu => absurd (hleast u ⟨hau, hu⟩) (not_le.mpr hut)

/-- **How a property of the time comes to hold**: where it first does, the clock was set, or it
ran into the times that have it. -/
theorem Runs.first_entry (h : Runs wall SetAt) (hab : a ≤ b) (ha : ¬P (wall a))
    (hb : P (wall b)) :
    ∃ t, a < t ∧ t ≤ b ∧ P (wall t) ∧ (∀ u, a ≤ u → u < t → ¬P (wall u)) ∧
      (SetAt t ∨ ¬P (wall t - 1)) := by
  obtain ⟨t, hat, htb, htP, hbefore⟩ := exists_first (P := fun t => P (wall t)) hab ha hb
  refine ⟨t, hat, htb, htP, hbefore, ?_⟩
  by_cases hset : SetAt t
  · exact Or.inl hset
  · right
    have hstep := h t hset
    have hprev := hbefore (t - 1) (by omega) (by omega)
    rwa [show wall t - 1 = wall (t - 1) by omega]

end RunningClock
