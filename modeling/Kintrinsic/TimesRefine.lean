import Kintrinsic.TimesLabels

/-! # The times evaluator refines the classic one

Both check the schedule alike, what is open for the times evaluator is open for the classic one, and
without tags they give one verdict.  The two searches for the next opening look at different
minutes: the classic one at the starts of the windows, the other at every boundary where something
runs, the end of one window inside another among them. -/
namespace Kintrinsic

open Tz

namespace Times

/-- The window that decides a minute over the untagged ones. -/
def winning (wins : List Win) (minute : Nat) : Option Win :=
  minByKey Win.start (wins.filter fun w => w.tag.isSome && w.covers minute)

/-- No window carries a tag. -/
def Untagged (sched : GrantSchedule) : Prop := ∀ day, ∀ w ∈ windowsOf sched day, w.tag = none

/-- **The times evaluator beside the classic one**, at an instant. -/
structure Refines (zones : Zones) (sched : GrantSchedule) (known : String → Bool) (now : Int) :
    Prop where
  unparseable : evaluateTimes zones sched known now = .unparseable ↔
    sched.evaluate zones now = .unparseable
  paused : sched.isSupportedVersion = true → sched.paused = some true →
    evaluateTimes zones sched known now = .locked .paused none ∧
      sched.evaluate zones now = .locked none
  unbounded : evaluateTimes zones sched known now = .unbounded ↔
    sched.evaluate zones now = .unbounded
  opened : ∀ time spanEnd, evaluateTimes zones sched known now = .opened time spanEnd →
    ∃ secs, sched.evaluate zones now = .opened secs
  verdict : Untagged sched →
    ((∃ time spanEnd, evaluateTimes zones sched known now = .opened time spanEnd) ↔
      ∃ secs, sched.evaluate zones now = .opened secs) ∧
    ((∃ cause secs, evaluateTimes zones sched known now = .locked cause secs) ↔
      ∃ secs, sched.evaluate zones now = .locked secs)
  seconds : Untagged sched → ∀ cause secs secs',
    evaluateTimes zones sched known now = .locked cause secs →
      sched.evaluate zones now = .locked secs' → secs = secs'
  unknown : ∀ tz w, zones sched.tz = some tz →
    winning (windowsOf sched (tz.localDay now)) (tz.minuteOfDay now) = some w →
      known (w.tag.getD "") = false →
        ∀ time spanEnd, evaluateTimes zones sched known now ≠ .opened time spanEnd

/-- The first minute still to come at which something runs is the start of a window, or has the
instant of the first start that is still to come. -/
def FirstStarts (sched : GrantSchedule) (known : String → Bool) (tz : Tz) (now : Int) : Prop :=
  ∀ day m, tz.FirstComing now 8 (runnableMarks sched known) day m →
    ∃ day' m', tz.FirstComing now 8 sched.starts day' m' ∧
      tz.localWallTs day' m' = tz.localWallTs day m

variable {sched : GrantSchedule} {wins : List Win} {known : String → Bool} {zones : Zones} {tz : Tz}
  {now x : Int}

/-- What is closed for one is closed for the other. -/
theorem labelOn_closed_iff : labelOn sched known x = .closed ↔ sched.openAt x = false := by
  rw [labelOn, labelAt_closed_iff, ← windowAt_none_iff, GrantSchedule.openAt,
    GrantSchedule.windowInForce, Option.isSome_eq_false_iff, Option.isNone_iff_eq_none]

theorem openAt_of_runnable (h : (labelOn sched known x).runnable = true) :
    sched.openAt x = true := by
  by_contra hclosed
  rw [Bool.not_eq_true] at hclosed
  rw [labelOn_closed_iff.mpr hclosed] at h
  cases h

/-- Without tags, what can run is what is open. -/
theorem Untagged.runnable_iff (h : Untagged sched) :
    (labelOn sched known x).runnable = true ↔ sched.openAt x = true := by
  refine ⟨openAt_of_runnable, fun hopen => ?_⟩
  have hlabel : labelOn sched known x = .free ∨ labelOn sched known x = .closed :=
    labelAt_of_untagged (h (x / 86400))
  rcases hlabel with hfree | hclosed
  · rw [hfree]
    rfl
  · rw [labelOn_closed_iff.mp hclosed] at hopen
    cases hopen

/-- The start of an untagged schedule's window is a boundary at which something runs. -/
theorem Untagged.starts_runnable (h : Untagged sched) {day : Int} {m : Nat}
    (hm : m ∈ sched.starts day) : m ∈ runnableMarks sched known day := by
  rw [GrantSchedule.starts, List.mem_insertionSort, windowsOn_getD, List.map_map] at hm
  obtain ⟨w, hw, rfl⟩ := List.mem_map.mp hm
  have hlt := (windowsOf_wellFormed hw).1
  refine List.mem_filter.mpr ⟨mem_boundaries.mpr ⟨w, hw, Or.inl rfl⟩, ?_⟩
  have hlabel : labelAt (windowsOf sched day) known w.start = .free ∨
      labelAt (windowsOf sched day) known w.start = .closed := labelAt_of_untagged (h day)
  rcases hlabel with hfree | hclosed
  · exact congrArg Label.runnable hfree
  · have hcovers := labelAt_closed_iff.mp hclosed w hw
    simp [Win.covers, hlt] at hcovers

/-- **The two searches** without tags: they find one instant exactly when the first minute still to
come at which something runs is a start, or as late as the first start. -/
theorem Untagged.nextOpenSecs_eq_iff (h : Untagged sched) (tz : Tz) (now : Int) :
    nextOpenSecs sched known tz now = sched.nextOpenSecs tz now ↔
      FirstStarts sched known tz now := by
  have hstarts : ∀ day, ∀ m ∈ sched.starts day, m < 1440 :=
    fun _ _ => GrantSchedule.mem_starts_lt
  have hmarks : ∀ day, ∀ m ∈ runnableMarks sched known day, m < 1440 :=
    fun _ _ => runnableMarks_lt
  rw [nextOpenSecs_eq, GrantSchedule.nextOpenSecs_eq]
  constructor
  · intro heq day m hfirst
    rw [scan_of_firstComing runnableMarks_sorted hmarks hfirst] at heq
    cases hscan : tz.scan now 8 sched.starts with
    | none =>
      rw [hscan] at heq
      cases heq
    | some found =>
      rw [hscan, Option.map_some, Option.map_some, Option.some_inj] at heq
      dsimp only at heq
      have hfound := firstComing_of_scan GrantSchedule.starts_sorted hstarts hscan
      have hcoming := hfirst.coming
      have hcoming' := hfound.coming
      exact ⟨_, _, hfound, by omega⟩
  · intro hfirst
    cases hscan : tz.scan now 8 (runnableMarks sched known) with
    | none =>
      have hnone : tz.scan now 8 sched.starts = none := by
        rw [scan_eq_none_iff] at hscan ⊢
        exact fun day m hc => hscan day m { hc with mark := h.starts_runnable hc.mark }
      rw [hnone]
    | some found =>
      obtain ⟨day', m', hfound, hts⟩ :=
        hfirst _ _ (firstComing_of_scan runnableMarks_sorted hmarks hscan)
      rw [scan_of_firstComing GrantSchedule.starts_sorted hstarts hfound, Option.map_some,
        Option.map_some, hts]

/-- An unknown tag that wins cannot run. -/
theorem labelOn_of_winning {w : Win} (hwins : winning (windowsOf sched (tz.localDay now))
    (tz.minuteOfDay now) = some w) (hunknown : known (w.tag.getD "") = false) :
    (labelOn sched known (tz.wall now)).runnable = false := by
  unfold winning at hwins
  rw [localDay, minuteOfDay, secondOfDay] at hwins
  rw [labelOn, labelAt, hwins]
  dsimp only
  rw [hunknown]
  rfl

/-- **Read by its windows** the refinement holds but for the seconds. -/
theorem refines_of_decides (hd : sched.Decides zones tz) :
    Refines zones sched known now ↔
      (Untagged sched → sched.openAt (tz.wall now) = false → FirstStarts sched known tz now) := by
  have hpaused : sched.isSupportedVersion = true → sched.paused = some true →
      evaluateTimes zones sched known now = .locked .paused none ∧
        sched.evaluate zones now = .locked none := fun _ h => absurd h hd.running
  have hzone : ∀ tz', zones sched.tz = some tz' → tz' = tz :=
    fun tz' h => Option.some_inj.mp (h.symm.trans hd.zone)
  cases hrun : (labelOn sched known (tz.wall now)).runnable with
  | true =>
    -- both open
    have hopen := openAt_of_runnable hrun
    have htimes := evaluateTimes_of_runnable hd hrun
    obtain ⟨secs, hclassic⟩ := (GrantSchedule.opened_iff hd).mpr hopen
    refine iff_of_true ⟨?_, hpaused, ?_, ?_, ?_, ?_, ?_⟩ (fun _ hclosed => ?_)
    · simp [htimes, hclassic]
    · simp [htimes, hclassic]
    · exact fun _ _ _ => ⟨secs, hclassic⟩
    · simp [htimes, hclassic]
    · simp [htimes]
    · intro tz' w htz hwins hunknown
      rw [hzone tz' htz] at hwins
      rw [labelOn_of_winning hwins hunknown] at hrun
      cases hrun
    · rw [hopen] at hclosed
      cases hclosed
  | false =>
    obtain ⟨cause, htimes⟩ := evaluateTimes_of_not_runnable hd hrun
    have hnot : ∀ time spanEnd, evaluateTimes zones sched known now ≠ .opened time spanEnd := by
      simp [htimes]
    cases hopen : sched.openAt (tz.wall now) with
    | true =>
      -- a tag that is not known locks what the classic evaluator opens
      have htagged : ¬Untagged sched := fun h => by
        rw [h.runnable_iff.mpr hopen] at hrun
        cases hrun
      obtain ⟨secs, hclassic⟩ := (GrantSchedule.opened_iff hd).mpr hopen
      refine iff_of_true ⟨?_, hpaused, ?_, ?_, ?_, ?_, ?_⟩ (fun h => absurd h htagged)
      · simp [htimes, hclassic]
      · simp [htimes, hclassic]
      · exact fun _ _ _ => ⟨secs, hclassic⟩
      · exact fun h => absurd h htagged
      · exact fun h => absurd h htagged
      · exact fun _ _ _ _ _ => hnot
    | false =>
      have hclassic := GrantSchedule.evaluate_of_closed hd hopen
      constructor
      · intro h huntagged _
        exact (huntagged.nextOpenSecs_eq_iff tz now).mp (h.seconds huntagged _ _ _ htimes hclassic)
      · intro h
        refine ⟨?_, hpaused, ?_, ?_, ?_, ?_, ?_⟩
        · simp [htimes, hclassic]
        · simp [htimes, hclassic]
        · exact fun time spanEnd heq => absurd heq (hnot time spanEnd)
        · simp [htimes, hclassic]
        · intro huntagged cause' secs secs' hsecs hsecs'
          rw [htimes] at hsecs
          rw [hclassic] at hsecs'
          cases hsecs
          cases hsecs'
          exact (huntagged.nextOpenSecs_eq_iff tz now).mpr (h huntagged rfl)
        · exact fun _ _ _ _ _ => hnot

/-- **Where the times evaluator refines the classic one**: everywhere but for the seconds of an
untagged schedule that is closed, which agree where the first minute still to come at which
something runs is a start. -/
theorem refines_iff (zones : Zones) (sched : GrantSchedule) (known : String → Bool) (now : Int) :
    Refines zones sched known now ↔ ∀ tz, sched.Decides zones tz → Untagged sched →
      sched.openAt (tz.wall now) = false → FirstStarts sched known tz now := by
  by_cases hd : ∃ tz, sched.Decides zones tz
  · obtain ⟨tz, hd⟩ := hd
    rw [refines_of_decides hd]
    refine ⟨fun h tz' hd' => ?_, fun h => h tz hd⟩
    rwa [Option.some_inj.mp (hd'.zone.symm.trans hd.zone)]
  · refine iff_of_true ?_ (fun tz hd' => absurd ⟨tz, hd'⟩ hd)
    have hrunning : sched.isSupportedVersion = true → sched.paused = some true →
        evaluateTimes zones sched known now = .locked .paused none ∧
          sched.evaluate zones now = .locked none := by
      intro hsupported hpaused
      unfold evaluateTimes GrantSchedule.evaluate
      rw [hsupported, if_pos hpaused, if_pos hpaused]
      exact ⟨rfl, rfl⟩
    rcases evaluateTimes_of_not_decides (not_exists.mp hd) known with hall | hall | hall <;>
      obtain ⟨hclassic, htimes⟩ := hall now <;>
      refine ⟨?_, hrunning, ?_, ?_, ?_, ?_, ?_⟩ <;>
      simp [hclassic, htimes]

/-- Sunday windows of which the first ends inside the second. -/
def sundayOverlap : GrantSchedule where
  v := 1
  tz := "Europe/London"
  paused := none
  weekly := { WeeklySchedule.empty with
    sun := some [⟨"01:20", "02:30", none⟩, ⟨"01:30", "04:00", none⟩] }
  overrides := none
  issuedAt := 0

/-- **Not in every night.**  Where the wall shows ten past one for the second time the classic
evaluator waits for the next Sunday, and the times evaluator for the end of the first window. -/
theorem not_refines_backAnHour : ¬Refines (fun _ => some GrantSchedule.backAnHour) sundayOverlap
    (fun _ => false) 1792890600 := by
  intro h
  have huntagged : Untagged sundayOverlap := by
    intro day w hw
    obtain ⟨src, hsrc, hof⟩ := List.mem_filterMap.mp hw
    rw [tag_of_winOf hof]
    change src ∈ (sundayOverlap.weekly.forDay (CivilDate.daysFromSunday day).toNat).getD [] at hsrc
    unfold WeeklySchedule.forDay at hsrc
    split at hsrc
    · simp only [sundayOverlap, Option.getD_some, List.mem_cons, List.not_mem_nil, or_false] at hsrc
      rcases hsrc with rfl | rfl <;> rfl
    all_goals cases hsrc
  have htimes : evaluateTimes (fun _ => some GrantSchedule.backAnHour) sundayOverlap
      (fun _ => false) 1792890600 = .locked .outsideWindows (some 4800) := by decide +kernel
  have hclassic : sundayOverlap.evaluate (fun _ => some GrantSchedule.backAnHour) 1792890600 =
      .locked (some 605400) := by decide +kernel
  exact absurd (h.seconds huntagged _ _ _ htimes hclassic) (by decide)

end Times
end Kintrinsic
