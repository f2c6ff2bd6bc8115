import Kintrinsic.TimesRefine

/-! # The span of a time

`evaluate_times` ends a span at the first boundary of the day at which the device is in something
else, as an instant.  Up to there the answer stays the same one, and there it is another, where the
clock is not set on the way and the end is a time that the clock shows, for the first time. -/
namespace Kintrinsic

open Tz RunningClock

namespace Times
variable {sched : GrantSchedule} {wins : List Win} {known : String → Bool} {zones : Zones} {tz : Tz}
  {now x y : Int}

/-- What can run is in a time, or in Free time. -/
theorem Label.named_inj {a b : Label} (ha : a.runnable = true) (hb : b.runnable = true)
    (h : a.named = b.named) : a = b := by
  cases a <;> cases b <;> simp_all [runnable, named]

theorem ne_closed_of_runnable {l : Label} (h : l.runnable = true) : l ≠ .closed := by
  rintro rfl
  cases h

/-- Within a span its end is found from every minute. -/
theorem spanEndMinute_of_within {minute minute' : Nat} (h : labelAt wins known minute ≠ .closed)
    (hlo : minute ≤ minute')
    (hhi : minute' < spanEndMinute wins known minute (labelAt wins known minute)) :
    spanEndMinute wins known minute' (labelAt wins known minute') =
      spanEndMinute wins known minute (labelAt wins known minute) := by
  obtain ⟨-, -, hends, hconst⟩ := spanEndMinute_spec h
  have hsame := hconst minute' hlo hhi
  obtain ⟨-, hlt', hends', hconst'⟩ := spanEndMinute_spec (hsame ▸ h)
  refine le_antisymm ?_ ?_
  · by_contra hlt
    exact hends ((hconst' _ hhi.le (not_le.mp hlt)).trans hsame)
  · by_contra hlt
    exact hends' ((hconst _ (hlo.trans hlt'.le) (not_le.mp hlt)).trans hsame.symm)

/-- **A span on the wall**: what a wall time falls in is the same up to its end, which lies on the
same day, and another there. -/
theorem span_on_wall (h : labelOn sched known x ≠ .closed) :
    spanEndOn sched known x < 1440 ∧ x < wallOf (x / 86400) (spanEndOn sched known x) ∧
      labelOn sched known (wallOf (x / 86400) (spanEndOn sched known x)) ≠ labelOn sched known x ∧
      ∀ y, x ≤ y → y < wallOf (x / 86400) (spanEndOn sched known x) →
        y / 86400 = x / 86400 ∧ labelOn sched known y = labelOn sched known x ∧
          spanEndOn sched known y = spanEndOn sched known x := by
  obtain ⟨hmem, hlt, hends, hconst⟩ := spanEndMinute_spec h
  have hday := boundaries_lt hmem
  have hend : spanEndOn sched known x = spanEndMinute (windowsOf sched (x / 86400)) known
      ((x % 86400).toNat / 60) (labelAt (windowsOf sched (x / 86400)) known
        ((x % 86400).toNat / 60)) := rfl
  rw [← hend] at hday hlt hends hconst
  refine ⟨hday, by unfold wallOf; omega, ?_, ?_⟩
  · have hsame : wallOf (x / 86400) (spanEndOn sched known x) / 86400 = x / 86400 := by
      unfold wallOf
      omega
    have hminute : (wallOf (x / 86400) (spanEndOn sched known x) % 86400).toNat / 60 =
        spanEndOn sched known x := by
      unfold wallOf
      omega
    rw [labelOn, hsame, hminute]
    exact hends
  · intro y hxy hy
    have hsame : y / 86400 = x / 86400 := by
      unfold wallOf at hy
      omega
    have hlo : (x % 86400).toNat / 60 ≤ (y % 86400).toNat / 60 := by omega
    have hhi : (y % 86400).toNat / 60 < spanEndOn sched known x := by
      unfold wallOf at hy
      omega
    refine ⟨hsame, ?_, ?_⟩
    · rw [labelOn, hsame]
      exact hconst _ hlo hhi
    · rw [spanEndOn, labelOn, hsame]
      exact spanEndMinute_of_within h hlo hhi

/-- What answers opened. -/
theorem opened_inv {time : Option String} {spanEnd : Int}
    (heval : evaluateTimes zones sched known now = .opened time spanEnd)
    (hzone : zones sched.tz = some tz) :
    sched.Decides zones tz ∧ (labelOn sched known (tz.wall now)).runnable = true ∧
      time = (labelOn sched known (tz.wall now)).named ∧
      spanEnd =
        max (tz.localWallTs (tz.localDay now) (spanEndOn sched known (tz.wall now))) now := by
  by_cases hd : ∃ tz', sched.Decides zones tz'
  · obtain ⟨tz', hd⟩ := hd
    obtain rfl := Option.some_inj.mp (hd.zone.symm.trans hzone)
    cases hrun : (labelOn sched known (tz'.wall now)).runnable with
    | false =>
      obtain ⟨cause, hlocked⟩ := evaluateTimes_of_not_runnable hd hrun
      rw [hlocked] at heval
      cases heval
    | true =>
      rw [evaluateTimes_of_runnable hd hrun] at heval
      cases heval
      exact ⟨hd, rfl, rfl, rfl⟩
  · rcases evaluateTimes_of_not_decides (not_exists.mp hd) known with hall | hall | hall <;>
      (rw [(hall now).2] at heval; cases heval)

/-- The end of a span that is shown, for the first time after now, and to which the clock runs
on. -/
structure EndsShown (sched : GrantSchedule) (known : String → Bool) (tz : Tz) (now spanEnd : Int) :
    Prop where
  ahead : now < spanEnd
  undisturbed : Undisturbed tz.SetAt now spanEnd
  shown : ∃ t, tz.wall t = wallOf (tz.localDay now) (spanEndOn sched known (tz.wall now))

/-- **A span is constant and maximal**: up to its end the answer is the same, and there another. -/
theorem span_constant {time : Option String} {spanEnd : Int}
    (heval : evaluateTimes zones sched known now = .opened time spanEnd)
    (hzone : zones sched.tz = some tz) (hz : tz.Ordered)
    (hends : EndsShown sched known tz now spanEnd) :
    (∀ t, now ≤ t → t < spanEnd →
        evaluateTimes zones sched known t = .opened time spanEnd) ∧
      ∀ spanEnd', evaluateTimes zones sched known spanEnd ≠ .opened time spanEnd' := by
  obtain ⟨hd, hrun, rfl, hend⟩ := opened_inv heval hzone
  obtain ⟨hday, hlt, hother, hwithin⟩ := span_on_wall (ne_closed_of_runnable hrun)
  obtain ⟨s, hs⟩ := hends.shown
  have hahead := hends.ahead
  have hts : tz.localWallTs (tz.localDay now) (spanEndOn sched known (tz.wall now)) = spanEnd := by
    omega
  have hwallEnd := (localWallTs_of_shown hz hs).1
  rw [hts] at hwallEnd
  have hruns := (tz.runs).wall_eq hahead.le hends.undisturbed
  constructor
  · intro t hnow ht
    have hwall := (tz.runs).wall_eq hnow (hends.undisturbed.mono le_rfl ht.le)
    have hday' : tz.localDay now = tz.wall now / 86400 := rfl
    obtain ⟨hsameDay, hlabel, hspan⟩ := hwithin (tz.wall t) (by omega) (by rw [← hday']; omega)
    rw [evaluateTimes_of_runnable hd (hlabel ▸ hrun), hlabel, hspan]
    have hlocal : tz.localDay t = tz.localDay now := hsameDay
    rw [hlocal, hts, max_eq_left ht.le]
  · intro spanEnd' hsame
    obtain ⟨-, hrun', hnamed, -⟩ := opened_inv hsame hzone
    refine hother ?_
    have hat : wallOf (tz.wall now / 86400) (spanEndOn sched known (tz.wall now)) =
        tz.wall spanEnd := hwallEnd.symm
    rw [hat]
    exact Label.named_inj hrun' hrun hnamed.symm

/-- A zone that is put forward from half past eleven to half past four, once. -/
def forwardFiveHours : Tz := ⟨-3600, [(1792931400, 14400)], by decide⟩

/-- Sundays until a time that is lived twice, and over noon. -/
def sundayFree : GrantSchedule where
  v := 1
  tz := "Europe/London"
  paused := none
  weekly := { WeeklySchedule.empty with
    sun := some [⟨"00:30", "01:30", none⟩, ⟨"10:00", "12:00", none⟩] }
  overrides := none
  issuedAt := 0

/-- **Not every span.**  The second time round the end is over already, and is put at the instant
itself; and where the end is skipped for longer than is looked ahead, the answer stays the same. -/
theorem not_span_everywhere :
    (evaluateTimes (fun _ => some GrantSchedule.backAnHour) sundayFree (fun _ => false) 1792890600 =
        .opened none 1792890600) ∧
      Undisturbed forwardFiveHours.SetAt 1792926000 1792929600 ∧
      (evaluateTimes (fun _ => some forwardFiveHours) sundayFree (fun _ => false) 1792926000 =
        .opened none 1792929600) ∧
      evaluateTimes (fun _ => some forwardFiveHours) sundayFree (fun _ => false) 1792929600 =
        .opened none 1792929600 := by
  refine ⟨by decide +kernel, ?_, by decide +kernel, by decide +kernel⟩
  intro t _ ht hset
  rw [List.mem_singleton.mp hset] at ht
  exact absurd ht (by decide)

/-- **The span of a time**: it ends at a boundary of the day's windows, never at the fallback, and
where that is shown ahead of an undisturbed clock the answer is constant up to it and another
there. -/
theorem span_maximal (zones : Zones) (sched : GrantSchedule) (known : String → Bool) (now : Int) :
    (∀ day minute, (labelAt (windowsOf sched day) known minute).runnable = true →
      spanEndMinute (windowsOf sched day) known minute
          (labelAt (windowsOf sched day) known minute) ∈ boundaries (windowsOf sched day) ∧
        spanEndMinute (windowsOf sched day) known minute
          (labelAt (windowsOf sched day) known minute) < 1440) ∧
    ∀ tz time spanEnd, zones sched.tz = some tz → tz.Ordered →
      evaluateTimes zones sched known now = .opened time spanEnd →
      EndsShown sched known tz now spanEnd →
        (∀ t, now ≤ t → t < spanEnd →
          evaluateTimes zones sched known t = .opened time spanEnd) ∧
        ∀ spanEnd', evaluateTimes zones sched known spanEnd ≠ .opened time spanEnd' := by
  constructor
  · intro day minute hrun
    have hmem := (spanEndMinute_spec (ne_closed_of_runnable hrun)).1
    exact ⟨hmem, boundaries_lt hmem⟩
  · exact fun tz time spanEnd hzone hz heval hends => span_constant heval hzone hz hends

/-- On a Sunday morning, in UTC. -/
theorem span_maximal_morning :
    evaluateTimes (fun _ => some Tz.utc) sundayFree (fun _ => false) 1792929599 =
        .opened none 1792929600 ∧
      evaluateTimes (fun _ => some Tz.utc) sundayFree (fun _ => false) 1792929600 ≠
        .opened none 1792929600 := by
  have hends : EndsShown sundayFree (fun _ => false) Tz.utc 1792922400 1792929600 :=
    ⟨by decide, fun _ _ _ h => List.not_mem_nil h, 1792929600, by decide +kernel⟩
  have hspan := (span_maximal (fun _ => some Tz.utc) sundayFree (fun _ => false) 1792922400).2
    Tz.utc none 1792929600 rfl (by decide) (by decide +kernel) hends
  exact ⟨hspan.1 1792929599 (by decide) (by decide), hspan.2 1792929600⟩

end Times
end Kintrinsic
