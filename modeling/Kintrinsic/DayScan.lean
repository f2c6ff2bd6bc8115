import Kintrinsic.ZoneClock
import Mathlib.Data.List.Sort

/-! # The first mark still to come

The countdowns walk today and the days after it, each day's marks in ascending order, to the
first mark whose instant is still to come.  It is the first such mark on the wall. -/
namespace Kintrinsic
namespace Tz

/-- The first of a day's marks that is still to come. -/
def comingOn (tz : Tz) (now day : Int) (marks : List Nat) : Option Nat :=
  marks.find? fun m => decide (now < tz.localWallTs day m)

/-- The walk over some days from today on. -/
def scan (tz : Tz) (now : Int) (days : Nat) (marks : Int → List Nat) : Option (Int × Nat) :=
  (List.range days).findSome? fun (offset : Nat) =>
    (tz.comingOn now (tz.localDay now + offset) (marks (tz.localDay now + offset))).map
      fun m => (tz.localDay now + offset, m)

/-- A mark of the days walked that is still to come. -/
structure Coming (tz : Tz) (now : Int) (days : Nat) (marks : Int → List Nat) (day : Int)
    (minute : Nat) : Prop where
  mark : minute ∈ marks day
  fromToday : tz.localDay now ≤ day
  within : day < tz.localDay now + days
  coming : now < tz.localWallTs day minute

/-- And the first of them on the wall. -/
structure FirstComing (tz : Tz) (now : Int) (days : Nat) (marks : Int → List Nat) (day : Int)
    (minute : Nat) : Prop extends tz.Coming now days marks day minute where
  first : ∀ day' minute', tz.Coming now days marks day' minute' →
    wallOf day minute ≤ wallOf day' minute'

variable {tz : Tz} {now day : Int} {days minute : Nat} {marks : Int → List Nat}

/-- Mark and day of a wall time. -/
theorem wallOf_inj {day' : Int} {minute' : Nat} (hm : minute < 1440) (hm' : minute' < 1440)
    (h : wallOf day minute = wallOf day' minute') : day = day' ∧ minute = minute' := by
  unfold wallOf at h
  omega

/-- There is one first mark. -/
theorem FirstComing.unique {day' : Int} {minute' : Nat}
    (hrange : ∀ day, ∀ m ∈ marks day, m < 1440)
    (h : tz.FirstComing now days marks day minute)
    (h' : tz.FirstComing now days marks day' minute') : day = day' ∧ minute = minute' :=
  wallOf_inj (hrange _ _ h.mark) (hrange _ _ h'.mark)
    (le_antisymm (h.first _ _ h'.toComing) (h'.first _ _ h.toComing))

/-- **The walk that finds nothing** leaves nothing to come. -/
theorem scan_eq_none_iff :
    tz.scan now days marks = none ↔ ∀ day minute, ¬tz.Coming now days marks day minute := by
  unfold scan comingOn
  rw [List.findSome?_eq_none_iff]
  constructor
  · intro h day minute hc
    have hoffset : tz.localDay now + ((day - tz.localDay now).toNat : Int) = day := by
      have := hc.fromToday
      omega
    have hmem : (day - tz.localDay now).toNat ∈ List.range days := by
      have hlo := hc.fromToday
      have hhi := hc.within
      rw [List.mem_range]
      omega
    have hnone := h _ hmem
    rw [hoffset, Option.map_eq_none_iff, List.find?_eq_none] at hnone
    exact hnone minute hc.mark (decide_eq_true hc.coming)
  · intro h offset hoffset
    rw [Option.map_eq_none_iff, List.find?_eq_none]
    intro m hm hcoming
    rw [List.mem_range] at hoffset
    exact h _ m ⟨hm, by omega, by omega, of_decide_eq_true hcoming⟩

/-- **What the walk finds** is the first mark still to come. -/
theorem firstComing_of_scan (hsorted : ∀ day, (marks day).Pairwise (· ≤ ·))
    (hrange : ∀ day, ∀ m ∈ marks day, m < 1440) (h : tz.scan now days marks = some (day, minute)) :
    tz.FirstComing now days marks day minute := by
  unfold scan comingOn at h
  obtain ⟨before, offset, after, hlist, hfound, hnone⟩ := List.findSome?_eq_some_iff.mp h
  obtain ⟨m, hfind, hpair⟩ := Option.map_eq_some_iff.mp hfound
  cases hpair
  obtain ⟨hcoming, smaller, larger, hmarks, hpassed⟩ := List.find?_eq_some_iff_append.mp hfind
  have hmem : minute ∈ marks (tz.localDay now + offset) := by
    rw [hmarks]
    exact List.mem_append_right _ List.mem_cons_self
  have hoffset : offset ∈ List.range days := by
    rw [hlist]
    exact List.mem_append_right _ List.mem_cons_self
  rw [List.mem_range] at hoffset
  -- the offsets before this one in the range are the smaller ones
  have hsmaller : ∀ o : Nat, o < offset → o ∈ before := by
    intro o ho
    have hpair := List.pairwise_lt_range (n := days)
    have hin : o ∈ List.range days := List.mem_range.mpr (by omega)
    rw [hlist] at hpair hin
    rcases List.mem_append.mp hin with hin | hin
    · exact hin
    · rcases List.mem_cons.mp hin with rfl | hin
      · exact absurd ho (lt_irrefl _)
      · have hlt := (List.pairwise_cons.mp (List.pairwise_append.mp hpair).2.1).1 o hin
        omega
  refine ⟨⟨hmem, by omega, by omega, of_decide_eq_true hcoming⟩, ?_⟩
  intro day' minute' hc
  have hm := hrange _ _ hmem
  have hm' := hrange _ _ hc.mark
  have hlo := hc.fromToday
  unfold wallOf
  rcases lt_trichotomy day' (tz.localDay now + offset) with hlt | heq | hgt
  · have hday' : tz.localDay now + ((day' - tz.localDay now).toNat : Int) = day' := by omega
    have hskip := hnone _ (hsmaller (day' - tz.localDay now).toNat (by omega))
    rw [hday', Option.map_eq_none_iff, List.find?_eq_none] at hskip
    exact absurd (decide_eq_true hc.coming) (hskip minute' hc.mark)
  · subst heq
    have hmark' := hc.mark
    rw [hmarks] at hmark'
    rcases List.mem_append.mp hmark' with hin | hin
    · have hnot := hpassed minute' hin
      rw [Bool.not_eq_true', decide_eq_false_iff_not] at hnot
      exact absurd hc.coming hnot
    · rcases List.mem_cons.mp hin with rfl | hin
      · exact le_rfl
      · have hs := hsorted (tz.localDay now + offset)
        rw [hmarks] at hs
        have hle := (List.pairwise_cons.mp (List.pairwise_append.mp hs).2.1).1 minute' hin
        omega
  · omega

/-- What is first to come is what the walk finds. -/
theorem scan_of_firstComing (hsorted : ∀ day, (marks day).Pairwise (· ≤ ·))
    (hrange : ∀ day, ∀ m ∈ marks day, m < 1440) (h : tz.FirstComing now days marks day minute) :
    tz.scan now days marks = some (day, minute) := by
  cases hscan : tz.scan now days marks with
  | none => exact absurd h.toComing (scan_eq_none_iff.mp hscan day minute)
  | some found =>
    obtain ⟨hday, hminute⟩ := h.unique hrange (firstComing_of_scan hsorted hrange hscan)
    rw [hday, hminute]

/-- A search that maps what it finds. -/
theorem findSome?_if {α β : Type} (p : α → Bool) (f : α → β) (l : List α) :
    l.findSome? (fun x => if p x then some (f x) else none) = (l.find? p).map f := by
  induction l with
  | nil => rfl
  | cons x l ih =>
    rw [List.findSome?_cons, List.find?_cons]
    cases h : p x with
    | true => rfl
    | false => exact ih

end Tz
end Kintrinsic
