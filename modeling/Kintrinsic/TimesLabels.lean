import Kintrinsic.ScheduleCountdown
import Kintrinsic.StepRuns
import Kintrinsic.TimesAgree
import Mathlib.Algebra.Order.BigOperators.Group.List

/-! # The times evaluator beside the classic one

Both read the same windows.  A minute is closed for the times evaluator where no window covers it,
and it looks for the next boundary of a window at which something can run. -/
namespace Kintrinsic

open Tz

namespace Times
variable {sched : GrantSchedule} {wins : List Win} {known : String → Bool} {minute : Nat}

theorem parseWindows_eq (ws : List GrantScheduleWindow) :
    parseWindows ws = (ws.filterMap winOf).map fun w => (w.start, w.stop) := by
  induction ws with
  | nil => rfl
  | cons w ws ih =>
    have hcons : parseWindows (w :: ws) = ((parseWindow w).toList.filter fun p => p.1 < p.2) ++
        parseWindows ws := by
      unfold parseWindows
      rw [List.filterMap_cons]
      cases parseWindow w with
      | none => rfl
      | some p => simp [List.filter_cons]; split <;> rfl
    rw [hcons, ih, List.filterMap_cons]
    unfold parseWindow winOf
    cases parseHhmm w.start with
    | none => rfl
    | some s =>
      cases parseHhmm w.stop with
      | none => rfl
      | some e => by_cases hlt : s < e <;> simp [hlt]

/-- The two evaluators read the same windows. -/
theorem windowsOn_getD (day : Int) :
    (sched.windowsOn day).getD [] = (windowsOf sched day).map fun w => (w.start, w.stop) := by
  unfold GrantSchedule.windowsOn GrantSchedule.windowsFor windowsOf dayWindows
  rw [← parseWindows_eq]
  cases sched.overrides.bind fun o => o.lookup (CivilDate.dateKey day) with
  | some ws => rfl
  | none => cases sched.weekly.forDay (CivilDate.daysFromSunday day).toNat <;> rfl

theorem windowAt_none_iff (day : Int) :
    (sched.windowsOn day).bind (GrantSchedule.windowAt minute) = none ↔
      ∀ w ∈ windowsOf sched day, w.covers minute = false := by
  have hgetD : (sched.windowsOn day).bind (GrantSchedule.windowAt minute) =
      GrantSchedule.windowAt minute ((sched.windowsOn day).getD []) := by
    cases sched.windowsOn day <;> rfl
  rw [hgetD, windowsOn_getD, GrantSchedule.windowAt, List.find?_eq_none]
  simp [Win.covers]

/-- The first of the least is one of them. -/
theorem mem_of_minByKey {α : Type} {key : α → Nat} {xs : List α} {x : α}
    (h : minByKey key xs = some x) : x ∈ xs := by
  have hfold : ∀ best : Option α, xs.foldl (lesser key) best = some x → best = some x ∨ x ∈ xs := by
    clear h
    induction xs with
    | nil => exact fun best h => .inl h
    | cons y ys ih =>
      intro best h
      rw [List.foldl_cons] at h
      rcases ih _ h with hbest | hmem
      · unfold lesser at hbest
        split at hbest
        · exact .inr (Option.some.inj hbest ▸ List.mem_cons_self)
        · split at hbest
          · exact .inr (Option.some.inj hbest ▸ List.mem_cons_self)
          · exact .inl hbest
      · exact .inr (List.mem_cons_of_mem y hmem)
  exact (hfold none h).resolve_left (by simp)

/-- Nothing covers a minute that is closed. -/
theorem labelAt_closed_iff :
    labelAt wins known minute = .closed ↔ ∀ w ∈ wins, w.covers minute = false := by
  unfold labelAt
  cases hleast : minByKey Win.start (wins.filter fun w => w.tag.isSome && w.covers minute) with
  | some w =>
    have hmem := mem_of_minByKey hleast
    rw [List.mem_filter, Bool.and_eq_true] at hmem
    refine iff_of_false ?_ fun h => ?_
    · dsimp only
      split <;> simp
    · exact Bool.false_ne_true ((h w hmem.1).symm.trans hmem.2.2)
  | none =>
    have hnil := List.filter_eq_nil_iff.mp (minByKey_eq_none hleast)
    simp only [Bool.and_eq_true, not_and, Bool.not_eq_true] at hnil
    dsimp only
    split
    · rename_i hfree
      obtain ⟨w, hw, hcovers⟩ := List.any_eq_true.mp hfree
      rw [Bool.and_eq_true] at hcovers
      exact iff_of_false (by simp) fun h => Bool.false_ne_true ((h w hw).symm.trans hcovers.2)
    · rename_i hfree
      refine iff_of_true rfl fun w hw => ?_
      rw [List.any_eq_true, not_exists] at hfree
      cases htag : w.tag with
      | some tag => exact hnil w hw (by rw [htag]; rfl)
      | none => simpa [htag, hw] using hfree w

/-- Without tags a minute is Free or closed. -/
theorem labelAt_of_untagged (h : ∀ w ∈ wins, w.tag = none) :
    labelAt wins known minute = .free ∨ labelAt wins known minute = .closed := by
  have hnil : (wins.filter fun w => w.tag.isSome && w.covers minute) = [] := by
    refine List.filter_eq_nil_iff.mpr fun w hw => ?_
    rw [h w hw]
    simp
  unfold labelAt
  rw [hnil]
  dsimp only [minByKey, List.foldl_nil]
  split
  · exact .inl rfl
  · exact .inr rfl

/-- A window keeps its tag. -/
theorem tag_of_winOf {w : GrantScheduleWindow} {win : Win} (h : winOf w = some win) :
    win.tag = w.time := by
  unfold winOf at h
  obtain ⟨s, -, h⟩ := Option.bind_eq_some_iff.mp h
  obtain ⟨e, -, h⟩ := Option.bind_eq_some_iff.mp h
  split at h
  · cases h
    rfl
  · cases h

/-! ## Where a label changes -/

theorem mem_boundaries {b : Nat} : b ∈ boundaries wins ↔ ∃ w ∈ wins, b = w.start ∨ b = w.stop := by
  rw [boundaries, List.mem_dedup, List.mem_insertionSort, List.mem_flatMap]
  simp only [List.mem_cons, List.not_mem_nil, or_false]

theorem boundaries_sorted (wins : List Win) : (boundaries wins).Pairwise (· < ·) := by
  have hle : (boundaries wins).Pairwise (· ≤ ·) :=
    (List.pairwise_insertionSort (· ≤ ·) _).sublist (List.dedup_sublist _)
  have hne : (boundaries wins).Pairwise (· ≠ ·) := List.nodup_dedup _
  exact (hle.and hne).imp fun h => lt_of_le_of_ne h.1 h.2

/-- A window of a day begins before it ends, within the day. -/
theorem windowsOf_wellFormed {day : Int} {w : Win} (h : w ∈ windowsOf sched day) :
    w.start < w.stop ∧ w.stop < 1440 := by
  obtain ⟨src, -, hof⟩ := List.mem_filterMap.mp h
  unfold winOf at hof
  obtain ⟨s, -, hof⟩ := Option.bind_eq_some_iff.mp hof
  obtain ⟨e, he, hof⟩ := Option.bind_eq_some_iff.mp hof
  split at hof
  · rename_i hlt
    cases hof
    exact ⟨hlt, parseHhmm_lt he⟩
  · cases hof

theorem boundaries_lt {day : Int} {b : Nat} (h : b ∈ boundaries (windowsOf sched day)) :
    b < 1440 := by
  obtain ⟨w, hw, hb⟩ := mem_boundaries.mp h
  have hwell := windowsOf_wellFormed hw
  omega

/-- Covered by the same windows, two minutes have one label. -/
theorem labelAt_congr {minute' : Nat} (h : ∀ w ∈ wins, w.covers minute' = w.covers minute) :
    labelAt wins known minute' = labelAt wins known minute := by
  have htagged : wins.filter (fun w => w.tag.isSome && w.covers minute') =
      wins.filter fun w => w.tag.isSome && w.covers minute :=
    List.filter_congr fun w hw => by rw [h w hw]
  have huntagged : (wins.any fun w => w.tag.isNone && w.covers minute') =
      wins.any fun w => w.tag.isNone && w.covers minute := by
    rw [Bool.eq_iff_iff, List.any_eq_true, List.any_eq_true]
    constructor
    · rintro ⟨w, hw, hcovers⟩
      exact ⟨w, hw, h w hw ▸ hcovers⟩
    · rintro ⟨w, hw, hcovers⟩
      exact ⟨w, hw, (h w hw).symm ▸ hcovers⟩
  rw [labelAt, htagged, huntagged, labelAt]

/-- **Labels change at boundaries only.** -/
theorem changesAt_boundaries (wins : List Win) (known : String → Bool) :
    StepRuns.ChangesAt (labelAt wins known) (boundaries wins) := by
  intro x hx
  refine labelAt_congr ?_
  intro w hw
  have hstart : x + 1 ≠ w.start := fun heq => hx (mem_boundaries.mpr ⟨w, hw, Or.inl heq⟩)
  have hstop : x + 1 ≠ w.stop := fun heq => hx (mem_boundaries.mpr ⟨w, hw, Or.inr heq⟩)
  rw [Win.covers, Win.covers, Bool.eq_iff_iff, Bool.and_eq_true, Bool.and_eq_true,
    decide_eq_true_eq, decide_eq_true_eq, decide_eq_true_eq, decide_eq_true_eq]
  omega

/-- After its windows a day is closed. -/
theorem exists_closed (wins : List Win) (known : String → Bool) :
    ∃ bound, ∀ minute, bound ≤ minute → labelAt wins known minute = .closed := by
  refine ⟨(wins.map Win.stop).sum, ?_⟩
  intro minute hminute
  rw [labelAt_closed_iff]
  intro w hw
  have hle : w.stop ≤ (wins.map Win.stop).sum := List.le_sum_of_mem (List.mem_map_of_mem hw)
  rw [Win.covers, Bool.and_eq_false_iff]
  right
  exact decide_eq_false (by omega)

/-- **A label that is not closed ends at a boundary**: the fallback is not reached. -/
theorem exists_next (h : labelAt wins known minute ≠ .closed) :
    ∃ b, StepRuns.next (labelAt wins known) (boundaries wins) minute = some b := by
  rw [← Option.ne_none_iff_exists']
  intro hnone
  obtain ⟨bound, hbound⟩ := exists_closed wins known
  have hsame := (changesAt_boundaries wins known).const_of_next_none hnone
    (le_max_left minute bound)
  exact h (hsame.symm.trans (hbound _ (le_max_right _ _)))

theorem spanEndMinute_eq : spanEndMinute wins known minute (labelAt wins known minute) =
    (StepRuns.next (labelAt wins known) (boundaries wins) minute).getD 1440 := rfl

theorem spanEndMinute_spec (h : labelAt wins known minute ≠ .closed) :
    spanEndMinute wins known minute (labelAt wins known minute) ∈ boundaries wins ∧
      minute < spanEndMinute wins known minute (labelAt wins known minute) ∧
      labelAt wins known (spanEndMinute wins known minute (labelAt wins known minute)) ≠
        labelAt wins known minute ∧
      ∀ x, minute ≤ x → x < spanEndMinute wins known minute (labelAt wins known minute) →
        labelAt wins known x = labelAt wins known minute := by
  obtain ⟨b, hb⟩ := exists_next h
  have hend : spanEndMinute wins known minute (labelAt wins known minute) = b := by
    rw [spanEndMinute_eq, hb, Option.getD_some]
  rw [hend]
  exact (changesAt_boundaries wins known).next_spec (boundaries_sorted wins) hb

/-! ## The verdict -/

/-- The time of a label. -/
def Label.named : Label → Option String
  | time id => some id
  | _ => none

/-- What a wall time falls in. -/
def labelOn (sched : GrantSchedule) (known : String → Bool) (x : Int) : Label :=
  labelAt (windowsOf sched (x / 86400)) known ((x % 86400).toNat / 60)

/-- The minute at which what a wall time falls in ends. -/
def spanEndOn (sched : GrantSchedule) (known : String → Bool) (x : Int) : Nat :=
  spanEndMinute (windowsOf sched (x / 86400)) known ((x % 86400).toNat / 60) (labelOn sched known x)

variable {zones : Zones} {tz : Tz} {now : Int}

theorem evaluateTimes_of_runnable (h : sched.Decides zones tz)
    (hlabel : (labelOn sched known (tz.wall now)).runnable = true) :
    evaluateTimes zones sched known now = .opened (labelOn sched known (tz.wall now)).named
      (max (tz.localWallTs (tz.localDay now) (spanEndOn sched known (tz.wall now))) now) := by
  have hbounded : isUnbounded sched = false := h.bounded
  unfold evaluateTimes
  rw [h.supported, hbounded, if_neg h.running, h.zone]
  unfold spanEndOn
  unfold labelOn at hlabel ⊢
  dsimp only
  rw [localDay, minuteOfDay, secondOfDay]
  cases hat : labelAt (windowsOf sched (tz.wall now / 86400)) known
      ((tz.wall now % 86400).toNat / 60) with
  | closed =>
    rw [hat] at hlabel
    cases hlabel
  | unknown id =>
    rw [hat] at hlabel
    cases hlabel
  | free => rfl
  | time id => rfl

theorem evaluateTimes_of_not_runnable (h : sched.Decides zones tz)
    (hlabel : (labelOn sched known (tz.wall now)).runnable = false) :
    ∃ cause, evaluateTimes zones sched known now =
      .locked cause (nextOpenSecs sched known tz now) := by
  have hbounded : isUnbounded sched = false := h.bounded
  unfold evaluateTimes
  rw [h.supported, hbounded, if_neg h.running, h.zone]
  unfold labelOn at hlabel
  dsimp only
  rw [localDay, minuteOfDay, secondOfDay]
  cases hat : labelAt (windowsOf sched (tz.wall now / 86400)) known
      ((tz.wall now % 86400).toNat / 60) with
  | closed => exact ⟨.outsideWindows, rfl⟩
  | unknown id => exact ⟨.unknownTime id, rfl⟩
  | free =>
    rw [hat] at hlabel
    cases hlabel
  | time id =>
    rw [hat] at hlabel
    cases hlabel

/-- A schedule that is not read by its windows has one answer in both evaluators. -/
theorem evaluateTimes_of_not_decides (h : ∀ tz, ¬sched.Decides zones tz) (known : String → Bool) :
    (∀ now, sched.evaluate zones now = .unparseable ∧
        evaluateTimes zones sched known now = .unparseable) ∨
      (∀ now, sched.evaluate zones now = .locked none ∧
        evaluateTimes zones sched known now = .locked .paused none) ∨
      ∀ now, sched.evaluate zones now = .unbounded ∧
        evaluateTimes zones sched known now = .unbounded := by
  unfold evaluateTimes GrantSchedule.evaluate
  by_cases hsupported : sched.isSupportedVersion = true
  · by_cases hpaused : sched.paused = some true
    · refine Or.inr (Or.inl fun now => ?_)
      rw [hsupported, if_pos hpaused, if_pos hpaused]
      exact ⟨rfl, rfl⟩
    · cases hzone : zones sched.tz with
      | none =>
        refine Or.inl fun now => ?_
        rw [hsupported, if_neg hpaused, if_neg hpaused]
        exact ⟨rfl, rfl⟩
      | some tz =>
        cases hbounded : (sched.weekly.isEmpty && !sched.hasOverrides) with
        | false => exact absurd ⟨hsupported, hpaused, hzone, hbounded⟩ (h tz)
        | true =>
          refine Or.inr (Or.inr fun now => ?_)
          have hunbounded : isUnbounded sched = true := hbounded
          rw [hsupported, if_neg hpaused, if_neg hpaused, hunbounded]
          exact ⟨rfl, rfl⟩
  · rw [Bool.not_eq_true] at hsupported
    refine Or.inl fun now => ?_
    rw [hsupported]
    exact ⟨rfl, rfl⟩

/-! ## The countdown -/

/-- The boundaries of a day at which something can run. -/
def runnableMarks (sched : GrantSchedule) (known : String → Bool) (day : Int) : List Nat :=
  (boundaries (windowsOf sched day)).filter fun b =>
    (labelAt (windowsOf sched day) known b).runnable

theorem runnableMarks_sorted (day : Int) : (runnableMarks sched known day).Pairwise (· ≤ ·) :=
  ((boundaries_sorted _).filter _).imp le_of_lt

theorem runnableMarks_lt {day : Int} {b : Nat} (h : b ∈ runnableMarks sched known day) :
    b < 1440 :=
  boundaries_lt (List.mem_of_mem_filter h)

/-- The seconds to the next opening run to the first of them that is still to come. -/
theorem nextOpenSecs_eq (tz : Tz) (now : Int) : nextOpenSecs sched known tz now =
    (tz.scan now 8 (runnableMarks sched known)).map fun p =>
      (tz.localWallTs p.1 p.2 - now).toNat := by
  unfold nextOpenSecs scan
  rw [List.map_findSome?]
  congr 1
  funext offset
  dsimp only [Function.comp_apply]
  rw [Option.map_map, comingOn, runnableMarks, List.find?_filter, ← findSome?_if]
  congr 1
  funext b
  simp only [Bool.decide_and, Bool.decide_eq_true]
  rfl

end Times
end Kintrinsic
