import Mathlib.Data.Nat.Init
import Mathlib.Data.List.Basic
import Mathlib.Order.Nat

/-! # Runs of a function that changes at marks

A function of the naturals that only changes its value at some marks is constant between them.  Its
maximal runs begin and end at marks, and the run that holds a place is found by looking at the
marks after it, in ascending order, for the first with another value. -/
namespace StepRuns

variable {α : Type} {f : Nat → α} {marks : List Nat} {s e x y : Nat}

/-- The function changes at marks only. -/
def ChangesAt (f : Nat → α) (marks : List Nat) : Prop := ∀ x, x + 1 ∉ marks → f (x + 1) = f x

/-- A maximal stretch of one value. -/
structure Run (f : Nat → α) (s e : Nat) : Prop where
  lt : s < e
  const : ∀ x, s ≤ x → x < e → f x = f s
  starts : s = 0 ∨ f (s - 1) ≠ f s
  ends : f e ≠ f s

/-- Between two marks nothing changes. -/
theorem ChangesAt.const (h : ChangesAt f marks) (hxy : x ≤ y)
    (hmarks : ∀ m ∈ marks, x < m → m ≤ y → f m = f x) : f y = f x := by
  induction y, hxy using Nat.le_induction with
  | base => rfl
  | succ y hxy ih =>
    by_cases hmem : y + 1 ∈ marks
    · exact hmarks _ hmem (by omega) le_rfl
    · rw [h y hmem]
      exact ih fun m hm hlo hhi => hmarks m hm hlo (by omega)

/-- **A run begins at a mark**, unless it begins at zero. -/
theorem ChangesAt.start_mem (h : ChangesAt f marks) (hs : f (s - 1) ≠ f s) : s ∈ marks := by
  by_contra hmem
  cases s with
  | zero => exact hs rfl
  | succ s => exact hs (h s hmem).symm

/-- Two runs that share a place are one. -/
theorem Run.unique {s' e' : Nat} (h : Run f s e) (h' : Run f s' e') (hs : s' ≤ x) (he : x < e')
    (hs' : s ≤ x) (he' : x < e) : s = s' ∧ e = e' := by
  have hsame : f s = f s' := (h.const x hs' he').symm.trans (h'.const x hs he)
  have hstart : ∀ {a b a' b' : Nat}, Run f a b → Run f a' b' → f a = f a' → a' ≤ x → x < b' →
      a ≤ x → x < b → a' ≤ a := by
    intro a b a' b' h h' heq hlo hhi hlo' hhi'
    by_contra hlt
    refine (h'.starts.resolve_left (by omega)) ?_
    rw [h.const (a' - 1) (by omega) (by omega), heq]
  have hend : ∀ {a b a' b' : Nat}, Run f a b → Run f a' b' → f a = f a' → a' ≤ x → x < b' →
      a ≤ x → x < b → b ≤ b' := by
    intro a b a' b' h h' heq hlo hhi hlo' hhi'
    by_contra hlt
    exact h'.ends (by rw [h.const b' (by omega) (by omega), heq])
  exact ⟨le_antisymm (hstart h' h hsame.symm hs' he' hs he) (hstart h h' hsame hs he hs' he'),
    le_antisymm (hend h h' hsame hs he hs' he') (hend h' h hsame.symm hs' he' hs he)⟩

/-- The value at a place has begun somewhere. -/
theorem exists_start (f : Nat → α) (x : Nat) :
    ∃ s, s ≤ x ∧ (s = 0 ∨ f (s - 1) ≠ f s) ∧ ∀ y, s ≤ y → y ≤ x → f y = f x := by
  induction x with
  | zero =>
    refine ⟨0, le_rfl, Or.inl rfl, ?_⟩
    intro y _ hy
    rw [Nat.le_zero.mp hy]
  | succ x ih =>
    by_cases hsame : f x = f (x + 1)
    · obtain ⟨s, hs, hstarts, hconst⟩ := ih
      refine ⟨s, by omega, hstarts, ?_⟩
      intro y hlo hhi
      rcases hhi.lt_or_eq with hlt | rfl
      · exact (hconst y hlo (by omega)).trans hsame
      · rfl
    · refine ⟨x + 1, le_rfl, Or.inr hsame, ?_⟩
      intro y hlo hhi
      rw [le_antisymm hhi hlo]

section Search
variable [DecidableEq α]

/-- The first mark after a place with another value. -/
def next (f : Nat → α) (marks : List Nat) (x : Nat) : Option Nat :=
  (marks.filter (x < ·)).find? fun m => f m ≠ f x

/-- **What the search finds** is where the value first changes. -/
theorem ChangesAt.next_spec (h : ChangesAt f marks) (hsorted : marks.Pairwise (· < ·))
    (hnext : next f marks x = some e) :
    e ∈ marks ∧ x < e ∧ f e ≠ f x ∧ ∀ y, x ≤ y → y < e → f y = f x := by
  obtain ⟨hother, before, after, hlist, hsame⟩ := List.find?_eq_some_iff_append.mp hnext
  have hmem : e ∈ marks.filter (x < ·) := by
    rw [hlist]
    exact List.mem_append_right _ List.mem_cons_self
  obtain ⟨hmark, hlt⟩ := List.mem_filter.mp hmem
  refine ⟨hmark, of_decide_eq_true hlt, of_decide_eq_true hother, ?_⟩
  intro y hxy hy
  refine h.const hxy ?_
  intro m hm hlo hhi
  have hin : m ∈ marks.filter (x < ·) := List.mem_filter.mpr ⟨hm, decide_eq_true hlo⟩
  have hsorted' := hsorted.filter (x < ·)
  rw [hlist] at hin hsorted'
  rcases List.mem_append.mp hin with hin | hin
  · have hnot := hsame m hin
    rw [Bool.not_eq_true', decide_eq_false_iff_not, not_not] at hnot
    exact hnot
  · rcases List.mem_cons.mp hin with rfl | hin
    · exact absurd hy (by omega)
    · have hafter := (List.pairwise_cons.mp (List.pairwise_append.mp hsorted').2.1).1 m hin
      omega

/-- The search finds nothing only where the value never changes again. -/
theorem ChangesAt.const_of_next_none (h : ChangesAt f marks) (hnext : next f marks x = none)
    (hxy : x ≤ y) : f y = f x := by
  refine h.const hxy ?_
  intro m hm hlo _
  have hnot := List.find?_eq_none.mp hnext m (List.mem_filter.mpr ⟨hm, decide_eq_true hlo⟩)
  rwa [decide_eq_true_eq, not_not] at hnot

end Search

end StepRuns
