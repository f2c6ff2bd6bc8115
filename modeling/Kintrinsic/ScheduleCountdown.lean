import Kintrinsic.DayScan
import Kintrinsic.ScheduleEval

/-! # What the countdowns of a schedule promise

`evaluate_grant_schedule` reads the verdict off the wall clock and takes its countdown to an
instant.  While the clock runs the two agree.  Where it is set back, a window's end may be shown a
second time and the windows before it with it; the countdown counts to the first. -/
namespace Kintrinsic

open RunningClock Tz

namespace GrantSchedule

/-- A schedule that is read in a zone, by its windows. -/
structure Decides (sched : GrantSchedule) (zones : Zones) (tz : Tz) : Prop where
  supported : sched.isSupportedVersion = true
  running : sched.paused ≠ some true
  zone : zones sched.tz = some tz
  bounded : (sched.weekly.isEmpty && !sched.hasOverrides) = false

variable (sched : GrantSchedule)

/-- The window that a wall time falls in. -/
def windowInForce (x : Int) : Option (Nat × Nat) :=
  (sched.windowsOn (x / 86400)).bind (windowAt ((x % 86400).toNat / 60))

/-- A wall time falls in a window. -/
def openAt (x : Int) : Bool := (sched.windowInForce x).isSome

/-- The starts of a day's windows, in ascending order. -/
def starts (day : Int) : List Nat :=
  (((sched.windowsOn day).getD []).map Prod.fst).insertionSort (· ≤ ·)

variable {sched : GrantSchedule} {zones : Zones} {tz : Tz} {now x : Int}

/-! ## The verdict -/

theorem evaluate_of_decides (h : sched.Decides zones tz) (now : Int) :
    sched.evaluate zones now = match sched.windowInForce (tz.wall now) with
      | some w => .opened (max (tz.localWallTs (tz.localDay now) w.2 - now) 0).toNat
      | none => .locked (sched.nextOpenSecs tz now) := by
  unfold evaluate
  rw [h.supported, h.bounded, if_neg h.running, h.zone]
  cases hw : sched.windowInForce (tz.wall now) with
  | none =>
    unfold windowInForce at hw
    dsimp only
    rw [localDay, minuteOfDay, secondOfDay, hw]
    rfl
  | some w =>
    unfold windowInForce at hw
    dsimp only
    rw [localDay, minuteOfDay, secondOfDay, hw]
    rfl

/-- Read in no zone by its windows, a schedule has one verdict, without a countdown. -/
theorem evaluate_of_not_decides (h : ∀ tz, ¬sched.Decides zones tz) :
    (∀ now, sched.evaluate zones now = .unparseable) ∨
      (∀ now, sched.evaluate zones now = .locked none) ∨
      ∀ now, sched.evaluate zones now = .unbounded := by
  unfold evaluate
  by_cases hsupported : sched.isSupportedVersion = true
  · by_cases hpaused : sched.paused = some true
    · exact Or.inr (Or.inl fun now => by rw [hsupported, if_pos hpaused]; rfl)
    · cases hzone : zones sched.tz with
      | none => exact Or.inl fun now => by rw [hsupported, if_neg hpaused]; rfl
      | some tz =>
        cases hbounded : (sched.weekly.isEmpty && !sched.hasOverrides) with
        | false => exact absurd ⟨hsupported, hpaused, hzone, hbounded⟩ (h tz)
        | true => exact Or.inr (Or.inr fun now => by rw [hsupported, if_neg hpaused]; rfl)
  · rw [Bool.not_eq_true] at hsupported
    exact Or.inl fun now => by rw [hsupported]; rfl

theorem opened_iff (h : sched.Decides zones tz) :
    (∃ s, sched.evaluate zones now = .opened s) ↔ sched.openAt (tz.wall now) = true := by
  rw [evaluate_of_decides h, openAt]
  cases sched.windowInForce (tz.wall now) <;> simp

theorem locked_iff (h : sched.Decides zones tz) :
    (∃ o, sched.evaluate zones now = .locked o) ↔ sched.openAt (tz.wall now) = false := by
  rw [evaluate_of_decides h, openAt]
  cases sched.windowInForce (tz.wall now) <;> simp

theorem evaluate_of_closed (h : sched.Decides zones tz)
    (hclosed : sched.openAt (tz.wall now) = false) :
    sched.evaluate zones now = .locked (sched.nextOpenSecs tz now) := by
  rw [evaluate_of_decides h]
  unfold openAt at hclosed
  cases hw : sched.windowInForce (tz.wall now) with
  | none => rfl
  | some w =>
    rw [hw] at hclosed
    cases hclosed

/-! ## Windows on the wall -/

theorem windowInForce_eq_some {w : Nat × Nat} (h : sched.windowInForce x = some w) :
    w ∈ (sched.windowsOn (x / 86400)).getD [] ∧ w.2 < 1440 ∧ wallOf (x / 86400) w.1 ≤ x ∧
      x < wallOf (x / 86400) w.2 := by
  obtain ⟨windows, hwindows, hat⟩ := Option.bind_eq_some_iff.mp h
  have hmem := List.mem_of_find?_eq_some hat
  have hholds := List.find?_some hat
  have hwell := windowsOn_wellFormed hwindows hmem
  rw [Bool.and_eq_true, decide_eq_true_eq, decide_eq_true_eq] at hholds
  refine ⟨by rwa [hwindows], hwell.2, ?_⟩
  unfold wallOf
  omega

/-- A wall time between the ends of a window of some day is open. -/
theorem openAt_of_mem {day : Int} {w : Nat × Nat} (hw : w ∈ (sched.windowsOn day).getD [])
    (hlo : wallOf day w.1 ≤ x) (hhi : x < wallOf day w.2) : sched.openAt x = true := by
  cases hwindows : sched.windowsOn day with
  | none =>
    rw [hwindows] at hw
    cases hw
  | some windows =>
    rw [hwindows, Option.getD_some] at hw
    have hwell := windowsOn_wellFormed hwindows hw
    unfold wallOf at hlo hhi
    have hday : x / 86400 = day := by omega
    unfold openAt windowInForce
    rw [hday, hwindows, Option.bind_some, windowAt, List.find?_isSome]
    refine ⟨w, hw, ?_⟩
    rw [Bool.and_eq_true, decide_eq_true_eq, decide_eq_true_eq]
    omega

/-- Past a window, what is closed is past its end. -/
theorem end_le_of_closed {w : Nat × Nat} {y : Int} (h : sched.windowInForce x = some w)
    (hxy : x ≤ y) (hclosed : sched.openAt y = false) : wallOf (x / 86400) w.2 ≤ y := by
  obtain ⟨hmem, -, hlo, -⟩ := windowInForce_eq_some h
  by_contra hlt
  rw [openAt_of_mem hmem (hlo.trans hxy) (not_le.mp hlt)] at hclosed
  cases hclosed

/-- **Where the wall runs into a window** it is at the window's start. -/
theorem start_of_opening (h : sched.openAt x = true) (hbefore : sched.openAt (x - 1) = false) :
    ∃ m ∈ sched.starts (x / 86400), m < 1440 ∧ x = wallOf (x / 86400) m := by
  obtain ⟨w, hw⟩ := Option.isSome_iff_exists.mp h
  obtain ⟨hmem, hday, hlo, hhi⟩ := windowInForce_eq_some hw
  refine ⟨w.1, ?_, ?_, ?_⟩
  · rw [starts, List.mem_insertionSort]
    exact List.mem_map_of_mem hmem
  · unfold wallOf at hlo hhi
    omega
  · by_contra hne
    rw [openAt_of_mem hmem (by omega) (by omega)] at hbefore
    cases hbefore

/-! ## The open countdown -/

/-- Between now and the end of the window in force, the clock is set into windows only, and once it
was set it runs out of none. -/
structure Kept (sched : GrantSchedule) (tz : Tz) (now stop : Int) : Prop where
  lands : ∀ t, tz.SetAt t → now < t → t < stop → sched.openAt (tz.wall t) = true
  stays : ∀ t u, tz.SetAt t → now < t → t < u → u < stop →
    sched.openAt (tz.wall u - 1) = true → sched.openAt (tz.wall u) = true

/-- Open from now on, for some seconds. -/
def OpenFor (sched : GrantSchedule) (zones : Zones) (now : Int) (secs : Nat) : Prop :=
  ∀ t, now ≤ t → t < now + secs → ∃ s, sched.evaluate zones t = .opened s

/-- **Up to the end of a window**: the wall is in windows, exactly when it is kept there. -/
theorem open_until_iff_kept (hz : tz.Ordered) {w : Nat × Nat}
    (hw : sched.windowInForce (tz.wall now) = some w) :
    (∀ t, now ≤ t → t < tz.localWallTs (tz.localDay now) w.2 → sched.openAt (tz.wall t) = true) ↔
      sched.Kept tz now (tz.localWallTs (tz.localDay now) w.2) := by
  constructor
  · intro h
    exact ⟨fun t _ hnow hstop => h t hnow.le hstop,
      fun t u _ hnow htu hstop _ => h u (by omega) hstop⟩
  · intro h t hnow hstop
    by_contra hclosed
    have hopen : sched.openAt (tz.wall now) = true := by rw [openAt, hw]; rfl
    obtain ⟨u, hu, hut, huclosed, hbefore, hentry⟩ :=
      (tz.runs).first_entry (P := fun x => ¬sched.openAt x = true) hnow (not_not.mpr hopen) hclosed
    rcases hentry with hset | hran
    · exact huclosed (h.lands u hset hu (by omega))
    by_cases hquiet : Undisturbed tz.SetAt now u
    · -- the clock ran on to the end of the window, and shows it
      have hwall := (tz.runs).wall_eq hu.le hquiet
      have hend := end_le_of_closed hw (y := tz.wall u) (by omega) (Bool.not_eq_true _ ▸ huclosed)
      obtain ⟨-, -, -, hlt⟩ := windowInForce_eq_some hw
      obtain ⟨v, -, hvu, hv⟩ := (tz.runs).shows hquiet hlt.le (by omega)
      have hle := (localWallTs_of_shown hz hv).2 v hv
      have hday : tz.wall now / 86400 = tz.localDay now := rfl
      rw [hday] at hle
      omega
    · unfold Undisturbed at hquiet
      push Not at hquiet
      obtain ⟨v, hnowv, hvu, hset⟩ := hquiet
      rcases hvu.lt_or_eq with hlt | rfl
      · exact huclosed (h.stays v u hset hnowv hlt (by omega) (not_not.mp hran))
      · exact huclosed (h.lands v hset hnowv (by omega))

/-- **The seconds to the close are kept** exactly where the wall clock, up to the end of the window
in force, is not set out of the windows and, once set, does not run out of them. -/
theorem openFor_iff (hz : ∀ tz, zones sched.tz = some tz → tz.Ordered) :
    (∀ secs, sched.evaluate zones now = .opened secs → sched.OpenFor zones now secs) ↔
      ∀ tz w, sched.Decides zones tz → sched.windowInForce (tz.wall now) = some w →
        sched.Kept tz now (tz.localWallTs (tz.localDay now) w.2) := by
  constructor
  · intro h tz w hd hw
    rw [← open_until_iff_kept (hz tz hd.zone) hw]
    intro t hnow hstop
    have heval := evaluate_of_decides hd now
    rw [hw] at heval
    exact (opened_iff hd).mp (h _ heval t hnow (by omega))
  · intro h secs heval t hnow hlt
    by_cases hd : ∃ tz, sched.Decides zones tz
    · obtain ⟨tz, hd⟩ := hd
      rw [evaluate_of_decides hd] at heval
      cases hw : sched.windowInForce (tz.wall now) with
      | none =>
        rw [hw] at heval
        cases heval
      | some w =>
        rw [hw] at heval
        cases heval
        have hkept := (open_until_iff_kept (hz tz hd.zone) hw).mpr (h tz w hd hw)
        exact (opened_iff hd).mpr (hkept t hnow (by omega))
    · rcases evaluate_of_not_decides (not_exists.mp hd) with hall | hall | hall <;>
        (rw [hall] at heval; cases heval)

/-- A zone that is put back from two o'clock to one, once. -/
def backAnHour : Tz := ⟨3600, [(1792890000, 0)], by decide⟩

/-- Sundays from half past one to three. -/
def sundayNight : GrantSchedule where
  v := 1
  tz := "Europe/London"
  paused := none
  weekly := { WeeklySchedule.empty with sun := some [⟨"01:30", "03:00", none⟩] }
  overrides := none
  issuedAt := 0

/-- After the clock was put back the seconds to the close are kept. -/
theorem openFor_iff_afterwards :
    sundayNight.OpenFor (fun _ => some backAnHour) 1792893600 3600 := by
  have hz : ∀ tz, some backAnHour = some tz → tz.Ordered := by
    rintro tz h
    cases h
    decide
  refine (openFor_iff hz).mpr ?_ 3600 (by decide +kernel)
  rintro tz w ⟨-, -, hzone, -⟩ -
  cases hzone
  have hset : ∀ t, backAnHour.SetAt t → ¬1792893600 < t := by
    intro t ht
    rw [List.mem_singleton.mp ht]
    decide
  exact ⟨fun t ht hlt _ => absurd hlt (hset t ht), fun t u ht hlt _ _ _ => absurd hlt (hset t ht)⟩

/-- **Not in every night.**  Opened before the clock is put back, the window is promised through to
its end, and is closed again from one o'clock to half past. -/
theorem not_openFor_backAnHour :
    sundayNight.evaluate (fun _ => some backAnHour) 1792888800 = .opened 8400 ∧
      ¬sundayNight.OpenFor (fun _ => some backAnHour) 1792888800 8400 := by
  refine ⟨by decide +kernel, ?_⟩
  intro h
  obtain ⟨s, hs⟩ := h 1792890000 (by decide) (by decide)
  have hlocked : sundayNight.evaluate (fun _ => some backAnHour) 1792890000 =
      .locked (some 606600) := by decide +kernel
  rw [hlocked] at hs
  cases hs

/-! ## The countdown to the opening -/

theorem mem_starts_lt {day : Int} {m : Nat} (h : m ∈ sched.starts day) : m < 1440 := by
  rw [starts, List.mem_insertionSort] at h
  obtain ⟨w, hw, rfl⟩ := List.mem_map.mp h
  cases hwindows : sched.windowsOn day with
  | none =>
    rw [hwindows] at hw
    cases hw
  | some windows =>
    rw [hwindows, Option.getD_some] at hw
    have hwell := windowsOn_wellFormed hwindows hw
    omega

theorem starts_sorted (day : Int) : (sched.starts day).Pairwise (· ≤ ·) :=
  List.pairwise_insertionSort _ _

/-- The seconds to the opening run to the first start that is still to come. -/
theorem nextOpenSecs_eq (tz : Tz) (now : Int) : sched.nextOpenSecs tz now =
    (tz.scan now 8 sched.starts).map fun p => (tz.localWallTs p.1 p.2 - now).toNat := by
  unfold nextOpenSecs scan
  rw [List.map_findSome?]
  congr 1
  funext offset
  dsimp only [Function.comp_apply]
  rw [Option.map_map, comingOn, starts]
  cases sched.windowsOn (tz.localDay now + offset) with
  | none => rfl
  | some windows =>
    rw [Option.bind_some, Option.getD_some, firstOpen, ← findSome?_if]
    dsimp only
    congr 1
    funext m
    simp only [decide_eq_true_eq]
    rfl

/-- Up to an instant the clock misses no opening: it is not set into a window, and where it runs
into one it does so for the first time since now, on the days walked and below a bound. -/
structure NoneMissed (sched : GrantSchedule) (tz : Tz) (now stop hi : Int) : Prop where
  lands : ∀ t, tz.SetAt t → now < t → t < stop → sched.openAt (tz.wall t) = false
  again : ∀ t, now < t → t < stop → sched.openAt (tz.wall t) = true →
    sched.openAt (tz.wall t - 1) = false → ∀ u, u ≤ now → tz.wall u ≠ tz.wall t
  ahead : ∀ t, now < t → t < stop → sched.openAt (tz.wall t) = true →
    sched.openAt (tz.wall t - 1) = false →
      tz.localDay now * 86400 ≤ tz.wall t ∧ tz.wall t < hi

/-- **Nothing opens before the first start still to come**, where no opening is missed. -/
theorem closed_of_noneMissed (hz : tz.Ordered) (hclosed : sched.openAt (tz.wall now) = false)
    {stop hi : Int} (h : sched.NoneMissed tz now stop hi)
    (hhi : hi ≤ (tz.localDay now + 8) * 86400)
    (hstop : ∀ day m, tz.Coming now 8 sched.starts day m → wallOf day m < hi →
      stop ≤ tz.localWallTs day m) {t : Int} (hnow : now ≤ t) (ht : t < stop) :
    sched.openAt (tz.wall t) = false := by
  by_contra hopen
  rw [Bool.not_eq_false] at hopen
  obtain ⟨u, hu, hut, huopen, -, hentry⟩ :=
    (tz.runs).first_entry (P := fun x => sched.openAt x = true) hnow (by simp [hclosed]) hopen
  rcases hentry with hset | hbefore
  · rw [h.lands u hset hu (by omega)] at huopen
    cases huopen
  rw [Bool.not_eq_true] at hbefore
  obtain ⟨m, hm, -, hwall⟩ := start_of_opening huopen hbefore
  obtain ⟨hshown, hfirst⟩ := localWallTs_of_shown hz hwall
  have hahead := h.ahead u hu (by omega) huopen hbefore
  have hcoming : now < tz.localWallTs (tz.wall u / 86400) m := by
    by_contra hpast
    exact h.again u hu (by omega) huopen hbefore _ (not_lt.mp hpast) (hshown.trans hwall.symm)
  have hle := hstop _ m ⟨hm, by omega, by omega, hcoming⟩ (hwall ▸ hahead.2)
  have hfirst' := hfirst u hwall
  omega

/-- What the countdown to the opening relies on. -/
structure CountsRight (sched : GrantSchedule) (tz : Tz) (now : Int) : Prop where
  first : ∀ day m, tz.FirstComing now 8 sched.starts day m →
    sched.NoneMissed tz now (tz.localWallTs day m) (wallOf day m + 1) ∧
      sched.openAt (tz.wall (tz.localWallTs day m)) = true
  nothing : (∀ day m, ¬tz.Coming now 8 sched.starts day m) →
    sched.NoneMissed tz now (now + 604800) ((tz.localDay now + 8) * 86400)

/-- What a countdown to the opening promises: locked until then and open then, or not open for
seven days. -/
def OpensAfter (sched : GrantSchedule) (zones : Zones) (now : Int) : Option Nat → Prop
  | some secs =>
    (∀ t, now ≤ t → t < now + secs → ∃ o, sched.evaluate zones t = .locked o) ∧
      ∃ s, sched.evaluate zones (now + secs) = .opened s
  | none => ∀ t, now ≤ t → t < now + 604800 → ∀ s, sched.evaluate zones t ≠ .opened s

/-- Where nothing opens no opening is missed. -/
theorem noneMissed_of_closed {stop hi : Int}
    (h : ∀ t, now ≤ t → t < stop → sched.openAt (tz.wall t) = false) :
    sched.NoneMissed tz now stop hi where
  lands := fun t _ hnow ht => h t hnow.le ht
  again := fun t hnow ht hopen _ => absurd ((h t hnow.le ht).symm.trans hopen) (by decide)
  ahead := fun t hnow ht hopen _ => absurd ((h t hnow.le ht).symm.trans hopen) (by decide)

/-- **The countdown of a schedule that is read in a zone**, at an instant that is closed. -/
theorem opensAfter_nextOpenSecs_iff (hz : tz.Ordered) (hd : sched.Decides zones tz)
    (hclosed : sched.openAt (tz.wall now) = false) :
    sched.OpensAfter zones now (sched.nextOpenSecs tz now) ↔ sched.CountsRight tz now := by
  have hrange : ∀ day, ∀ m ∈ sched.starts day, m < 1440 := fun _ _ => mem_starts_lt
  rw [nextOpenSecs_eq]
  cases hscan : tz.scan now 8 sched.starts with
  | none =>
    have hnone := scan_eq_none_iff.mp hscan
    rw [Option.map_none, OpensAfter]
    constructor
    · intro h
      refine ⟨fun day m hfirst => absurd hfirst.toComing (hnone day m), fun _ => ?_⟩
      refine noneMissed_of_closed ?_
      intro t hnow ht
      rw [← Bool.not_eq_true, ← opened_iff hd]
      exact fun ⟨secs, hsecs⟩ => h t hnow ht secs hsecs
    · intro h t hnow ht secs hsecs
      have hshut := closed_of_noneMissed hz hclosed (h.nothing hnone) le_rfl
        (fun day m hc _ => absurd hc (hnone day m)) hnow ht
      rw [(opened_iff hd).mp ⟨secs, hsecs⟩] at hshut
      cases hshut
  | some found =>
    obtain ⟨day, m⟩ := found
    have hfirst := firstComing_of_scan starts_sorted hrange hscan
    have hcoming := hfirst.coming
    rw [Option.map_some, OpensAfter]
    dsimp only
    have hat : now + ((tz.localWallTs day m - now).toNat : Int) = tz.localWallTs day m := by omega
    rw [hat, opened_iff hd]
    constructor
    · rintro ⟨hshut, hopen⟩
      refine ⟨?_, fun hnone => absurd hfirst.toComing (hnone day m)⟩
      intro day' m' hfirst'
      obtain ⟨rfl, rfl⟩ := hfirst.unique hrange hfirst'
      exact ⟨noneMissed_of_closed fun t hnow ht => (locked_iff hd).mp (hshut t hnow ht), hopen⟩
    · intro h
      obtain ⟨hmissed, hopen⟩ := h.first day m hfirst
      refine ⟨?_, hopen⟩
      intro t hnow ht
      rw [locked_iff hd]
      have hm := hrange _ _ hfirst.mark
      have hwithin := hfirst.within
      refine closed_of_noneMissed hz hclosed hmissed (by unfold wallOf; omega) ?_ hnow ht
      intro day' m' hc hbelow
      have hle := hfirst.first day' m' hc
      obtain ⟨rfl, rfl⟩ := wallOf_inj hm (hrange _ _ hc.mark)
        (le_antisymm hle (Int.lt_add_one_iff.mp hbelow))
      exact le_rfl

/-- **The seconds to the opening are exact** exactly where no opening is missed before the first
start that is still to come, and that start opens. -/
theorem opensAfter_iff (hz : ∀ tz, zones sched.tz = some tz → tz.Ordered) :
    (∀ secs, sched.evaluate zones now = .locked secs → sched.OpensAfter zones now secs) ↔
      ∀ tz, sched.Decides zones tz → sched.openAt (tz.wall now) = false →
        sched.CountsRight tz now := by
  constructor
  · intro h tz hd hclosed
    rw [← opensAfter_nextOpenSecs_iff (hz tz hd.zone) hd hclosed]
    exact h _ (evaluate_of_closed hd hclosed)
  · intro h secs heval
    by_cases hd : ∃ tz, sched.Decides zones tz
    · obtain ⟨tz, hd⟩ := hd
      have hclosed := (locked_iff hd).mp ⟨secs, heval⟩
      rw [evaluate_of_closed hd hclosed] at heval
      cases heval
      exact (opensAfter_nextOpenSecs_iff (hz tz hd.zone) hd hclosed).mpr (h tz hd hclosed)
    · rcases evaluate_of_not_decides (not_exists.mp hd) with hall | hall | hall
      · rw [hall] at heval
        cases heval
      · rw [hall] at heval
        cases heval
        intro t _ _ s hs
        rw [hall] at hs
        cases hs
      · rw [hall] at heval
        cases heval

/-- A second before it opens for the first time. -/
theorem opensAfter_iff_secondBefore :
    sundayNight.OpensAfter (fun _ => some backAnHour) 1792888199 (some 1) := by
  have hz : ∀ tz, some backAnHour = some tz → tz.Ordered := by
    rintro tz h
    cases h
    decide
  refine (opensAfter_iff hz).mpr ?_ (some 1) (by decide +kernel)
  rintro tz ⟨-, -, hzone, -⟩ -
  cases hzone
  have hscan : backAnHour.scan 1792888199 8 sundayNight.starts = some (20751, 90) := by
    decide +kernel
  have hts : backAnHour.localWallTs 20751 90 = 1792888200 := by decide +kernel
  refine ⟨?_, fun hnone => ?_⟩
  · intro day m hfirst
    rw [scan_of_firstComing starts_sorted (fun _ _ => mem_starts_lt) hfirst] at hscan
    cases hscan
    rw [hts]
    exact ⟨⟨by omega, by omega, by omega⟩, by decide +kernel⟩
  · rw [scan_eq_none_iff.mpr hnone] at hscan
    cases hscan

/-- **Not in every night.**  Where the wall shows ten past one for the second time, the first
instant of the start at half past is over: the answer is a week, and it opens in twenty minutes. -/
theorem not_opensAfter_backAnHour :
    sundayNight.evaluate (fun _ => some backAnHour) 1792890600 = .locked (some 606000) ∧
      ¬sundayNight.OpensAfter (fun _ => some backAnHour) 1792890600 (some 606000) := by
  refine ⟨by decide +kernel, ?_⟩
  rintro ⟨hshut, -⟩
  obtain ⟨o, ho⟩ := hshut 1792891800 (by decide) (by decide)
  have hopen : sundayNight.evaluate (fun _ => some backAnHour) 1792891800 = .opened 5400 := by
    decide +kernel
  rw [hopen] at ho
  cases ho

end GrantSchedule
end Kintrinsic
