import Mathlib.Data.List.TakeWhile

/-! # Sliding windows

A rate limiter keeps the stamps of its last admissions, drops from the front those that have
fallen out of the span, and admits while fewer than a cap are left.  What it has dropped is too
old for any span that a later admission falls into, so no span ever holds more than the cap. -/
namespace SlidingWindow

variable {span cap clock now : Nat} {times stamps : List Nat}

/-- The stamps that the limiter still holds are the last of all admissions, and what it has
dropped is out of the span. -/
structure Holds (span cap clock : Nat) (times stamps : List Nat) : Prop where
  suffix : ∃ dropped, times = dropped ++ stamps ∧ ∀ x ∈ dropped, x < clock - span
  bounded : stamps.length ≤ cap

/-- In no span are there more admissions than the cap. -/
def Rated (span cap : Nat) (times : List Nat) : Prop :=
  ∀ t, (times.filter fun x => t ≤ x && x ≤ t + span).length ≤ cap

/-- Drop what has fallen out of the span. -/
def prune (span now : Nat) (stamps : List Nat) : List Nat :=
  stamps.dropWhile fun t => t < now - span

theorem holds_nil (span cap clock : Nat) : Holds span cap clock [] [] :=
  ⟨⟨[], rfl, by simp⟩, Nat.zero_le _⟩

theorem Holds.later (h : Holds span cap clock times stamps) (hnow : clock ≤ now) :
    Holds span cap now times stamps := by
  obtain ⟨dropped, hsplit, hold⟩ := h.suffix
  refine ⟨⟨dropped, hsplit, ?_⟩, h.bounded⟩
  intro x hx
  have := hold x hx
  omega

theorem length_prune_le (span now : Nat) (stamps : List Nat) :
    (prune span now stamps).length ≤ stamps.length :=
  (List.dropWhile_sublist _).length_le

theorem Holds.prune (h : Holds span cap clock times stamps) (hnow : clock ≤ now) :
    Holds span cap now times (prune span now stamps) := by
  obtain ⟨dropped, hsplit, hold⟩ := (h.later hnow).suffix
  refine ⟨⟨dropped ++ stamps.takeWhile (· < now - span), ?_, ?_⟩,
    Nat.le_trans (length_prune_le span now stamps) h.bounded⟩
  · rw [List.append_assoc, SlidingWindow.prune, List.takeWhile_append_dropWhile, hsplit]
  · intro x hx
    rcases List.mem_append.mp hx with hx | hx
    · exact hold x hx
    · have hlow := List.mem_takeWhile_imp hx
      exact of_decide_eq_true hlow

/-- An admission, while there is room. -/
theorem Holds.push (h : Holds span cap now times stamps) (hroom : stamps.length < cap) :
    Holds span cap now (times ++ [now]) (stamps ++ [now]) := by
  obtain ⟨dropped, hsplit, hold⟩ := h.suffix
  refine ⟨⟨dropped, by rw [hsplit, List.append_assoc], hold⟩, ?_⟩
  rw [List.length_append, List.length_singleton]
  omega

/-- A full window has nothing to drop. -/
theorem prune_of_full (hbound : stamps.length ≤ cap)
    (hfull : cap ≤ (prune span now stamps).length) : prune span now stamps = stamps := by
  refine (List.dropWhile_sublist _).eq_of_length ?_
  have := length_prune_le span now stamps
  unfold prune at *
  omega

theorem Rated.sublist {some : List Nat} (hrate : Rated span cap times)
    (h : some.Sublist times) : Rated span cap some :=
  fun t => Nat.le_trans (h.filter _).length_le (hrate t)

theorem rated_nil (span cap : Nat) : Rated span cap [] := fun _ => Nat.zero_le _

/-- **An admission keeps the rate**: the span it falls into has room only for what is held. -/
theorem Rated.push (hrate : Rated span cap times)
    (h : Holds span cap now (times ++ [now]) stamps) : Rated span cap (times ++ [now]) := by
  intro t
  by_cases hin : t ≤ now ∧ now ≤ t + span
  · obtain ⟨dropped, hsplit, hold⟩ := h.suffix
    have hnone : (dropped.filter fun x => t ≤ x && x ≤ t + span) = [] := by
      refine List.filter_eq_nil_iff.mpr ?_
      intro x hx
      have := hold x hx
      simp only [Bool.and_eq_true, decide_eq_true_eq]
      omega
    rw [hsplit, List.filter_append, hnone, List.nil_append]
    exact Nat.le_trans (List.length_filter_le _ _) h.bounded
  · have hout : ([now].filter fun x => t ≤ x && x ≤ t + span) = [] := by
      refine List.filter_eq_nil_iff.mpr ?_
      intro x hx
      rw [List.mem_singleton.mp hx]
      simpa using hin
    rw [List.filter_append, hout, List.append_nil]
    exact hrate t

end SlidingWindow
