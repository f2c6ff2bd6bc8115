import Kintrinsic.HighWater
import Kintrinsic.UsageLedger

/-! # An untrusted clock never refills the day

While the clock is not vouched for, the day track of a ledger is a high-water mark over
local days, as long as the keys sort as the days do, and its screen counter the total
since.  A step back and a return leaves it where it was. -/
namespace Kintrinsic
namespace UsageLedger

open CivilDate HighWater MachineWord

variable {cal : Calendar} {l : UsageLedger} {now : Int}

/-! ## The day as a high-water mark -/

/-- A call as an observation: its local day and the screen seconds it credits. -/
def observed (zone : Tz) (c : Credit) : Int × Nat := (zone.localDay c.now, c.screenSecs)

/-- **The refinement.**  The stored key is the mark's date, in a four-digit year, and the
screen counter is the total as far as it is not saturated. -/
structure Refines (l : UsageLedger) (h : HighWater Int) : Prop where
  untrusted : l.clockTrusted = false
  key : l.day.key = dateKey h.mark
  year : FourDigitYear h.mark
  used : l.day.current.usedTodaySecs = min h.total u64Max

/-- One credit is one observation. -/
theorem refines_apply (hcal : cal.ReadsBack) {h : HighWater Int} (hl : l.Refines h) {c : Credit}
    (hc : FourDigitYear ((l.zone cal).localDay c.now)) :
    (c.apply cal l).Refines (h.observe (observed (l.zone cal) c)) := by
  have hadds := Credit.adds_apply cal l c
  have hparse : (daysAhead cal.parse l.day.key (l.dayKeyAt cal c.now)).isSome := by
    rw [hl.key, dayKeyAt, Tz.dayKey, daysAhead, hcal, hcal]
    rfl
  have hkey : l.day.key < l.dayKeyAt cal c.now ↔ h.mark < (l.zone cal).localDay c.now := by
    rw [hl.key]
    exact dateKey_lt_iff hl.year hc
  have hday := roll_untrusted (b := 1) hparse
  rw [← hl.untrusted, ← (rolled_roll cal l c.now).day] at hday
  have htrust : (c.apply cal l).clockTrusted = false :=
    (Credit.apply_clockTrusted c).trans hl.untrusted
  unfold observe observed
  by_cases hadv : h.mark < (l.zone cal).localDay c.now
  · rw [if_pos (hkey.mpr hadv)] at hday
    have hused := hadds.used.eq_addU64 (by rw [hday]; exact Nat.zero_le _)
    rw [hday] at hused
    rw [if_pos hadv]
    refine ⟨htrust, ?_, hc, ?_⟩
    · rw [hadds.dayKey, hday]
      rfl
    · rw [hused]
      exact congrArg (min · u64Max) (Nat.zero_add _)
  · rw [if_neg (hkey.not.mpr hadv)] at hday
    have hused := hadds.used.eq_addU64 (by rw [hday, hl.used]; exact Nat.min_le_right _ _)
    rw [hday, hl.used, addU64, Nat.min_comm h.total] at hused
    rw [if_neg hadv]
    refine ⟨htrust, ?_, hl.year, ?_⟩
    · rw [hadds.dayKey, hday, hl.key]
    · rw [hused]
      dsimp only
      omega

/-- A run of credits is a run of observations. -/
theorem refines_run (hcal : cal.ReadsBack) {h : HighWater Int} (hl : l.Refines h)
    (cs : List Credit) (hcs : ∀ c ∈ cs, FourDigitYear ((l.zone cal).localDay c.now)) :
    (cs.foldl (Credit.apply cal) l).Refines ((cs.map (observed (l.zone cal))).foldl observe h) := by
  induction cs generalizing l h with
  | nil => exact hl
  | cons c cs ih =>
    have hzone : (c.apply cal l).zone cal = l.zone cal := by rw [zone, zone, Credit.apply_tz]
    have hstep := refines_apply hcal hl (hcs c (by simp))
    have hrun := ih hstep (by rw [hzone]; exact fun c' hc' => hcs c' (by simp [hc']))
    rwa [hzone] at hrun

/-! ## Reading the day -/

/-- A ledger whose key is a date is the mark of that date. -/
theorem refines_start {d₀ : Int} (hkey : l.day.key = dateKey d₀) (hyear : FourDigitYear d₀)
    (hused : l.day.current.usedTodaySecs ≤ u64Max) (htrust : l.clockTrusted = false) :
    l.Refines ⟨d₀, l.day.current.usedTodaySecs⟩ :=
  ⟨htrust, hkey, hyear, (Nat.min_eq_left hused).symm⟩

/-- On a day that is not past the mark the reader answers the counter. -/
theorem Refines.usedToday {h : HighWater Int} (hl : l.Refines h)
    (hnow : FourDigitYear ((l.zone cal).localDay now)) (hle : (l.zone cal).localDay now ≤ h.mark) :
    l.usedToday cal now = min h.total u64Max := by
  have hrolled : l.dayHasRolled cal now = false := by
    rw [dayHasRolled, hl.key, dayKeyAt, Tz.dayKey, decide_eq_false_iff_not,
      dateKey_lt_iff hl.year hnow]
    omega
  rw [UsageLedger.usedToday, hrolled]
  exact hl.used

/-- The ledger after a run of credits. -/
def credited (cal : Calendar) (l : UsageLedger) (cs : List Credit) : UsageLedger :=
  cs.foldl (Credit.apply cal) l

@[simp] theorem credited_zone (cs : List Credit) : (credited cal l cs).zone cal = l.zone cal := by
  unfold credited
  induction cs generalizing l with
  | nil => rfl
  | cons c cs ih =>
    rw [List.foldl_cons, ih, zone, zone, Credit.apply_tz]

/-- The highest local day of a ledger's own and a run's. -/
def highestDay (zone : Tz) (d₀ : Int) (cs : List Credit) : Int :=
  highest d₀ (cs.map (observed zone))

/-- The screen seconds since that day was first reached, the ledger's own included. -/
def secsSinceHighest (zone : Tz) (d₀ : Int) (used : Nat) (cs : List Credit) : Nat :=
  since (highestDay zone d₀ cs) ((d₀, used) :: cs.map (observed zone))

theorem highestDay_append {zone : Tz} {d₀ : Int} {cs more : List Credit}
    (h : ∀ c ∈ more, zone.localDay c.now ≤ highestDay zone d₀ cs) :
    highestDay zone d₀ (cs ++ more) = highestDay zone d₀ cs := by
  unfold highestDay
  rw [List.map_append, highest_append]
  refine highest_eq_self ?_
  intro x hx
  obtain ⟨c, hc, rfl⟩ := List.mem_map.mp hx
  exact h c hc

theorem secsSinceHighest_le_append {zone : Tz} {d₀ : Int} {used : Nat} {cs more : List Credit}
    (h : ∀ c ∈ more, zone.localDay c.now ≤ highestDay zone d₀ cs) :
    secsSinceHighest zone d₀ used cs ≤ secsSinceHighest zone d₀ used (cs ++ more) := by
  unfold secsSinceHighest
  rw [highestDay_append h, List.map_append, ← List.cons_append]
  exact since_le_append _ _

/-- A run that leaves the mark at or past the reading instant is read off its calls. -/
theorem usedToday_credited (hcal : cal.ReadsBack) {d₀ : Int} (hkey : l.day.key = dateKey d₀)
    (hyear : FourDigitYear d₀) (hused : l.day.current.usedTodaySecs ≤ u64Max)
    (htrust : l.clockTrusted = false) {cs : List Credit}
    (hcs : ∀ c ∈ cs, FourDigitYear ((l.zone cal).localDay c.now))
    (hnow : FourDigitYear ((l.zone cal).localDay now))
    (hle : (l.zone cal).localDay now ≤ highestDay (l.zone cal) d₀ cs) :
    (credited cal l cs).usedToday cal now =
      min (secsSinceHighest (l.zone cal) d₀ l.day.current.usedTodaySecs cs) u64Max := by
  have hrun : (credited cal l cs).Refines _ :=
    refines_run hcal (refines_start hkey hyear hused htrust) cs hcs
  have hzone : (credited cal l cs).zone cal = l.zone cal := credited_zone cs
  rw [secsSinceHighest, highestDay, ← foldl_observe_total ⟨d₀, l.day.current.usedTodaySecs⟩]
  refine hrun.usedToday (by rwa [hzone]) ?_
  rw [hzone, foldl_observe_mark]
  exact hle

/-- **Usage never refills on an untrusted clock.**  Read at any instant whose local day is not
past the highest one seen, the day's usage is the sum of the screen seconds credited since
that day was first reached, as far as a 64-bit counter holds it; and further credits that
stay on that day or go back never lower it. -/
theorem usedToday_untrusted (hcal : cal.ReadsBack) {d₀ : Int} (hkey : l.day.key = dateKey d₀)
    (hyear : FourDigitYear d₀) (hused : l.day.current.usedTodaySecs ≤ u64Max)
    (htrust : l.clockTrusted = false) (cs : List Credit)
    (hcs : ∀ c ∈ cs, FourDigitYear ((l.zone cal).localDay c.now))
    (hnow : FourDigitYear ((l.zone cal).localDay now))
    (hle : (l.zone cal).localDay now ≤ highestDay (l.zone cal) d₀ cs) :
    (credited cal l cs).usedToday cal now =
        min (secsSinceHighest (l.zone cal) d₀ l.day.current.usedTodaySecs cs) u64Max ∧
      ∀ more : List Credit, (∀ c ∈ more, FourDigitYear ((l.zone cal).localDay c.now) ∧
          (l.zone cal).localDay c.now ≤ highestDay (l.zone cal) d₀ cs) →
        (credited cal l cs).usedToday cal now ≤
          (credited cal l (cs ++ more)).usedToday cal now := by
  have hbefore := usedToday_credited hcal hkey hyear hused htrust hcs hnow hle
  refine ⟨hbefore, ?_⟩
  intro more hmore
  have hall : ∀ c ∈ cs ++ more, FourDigitYear ((l.zone cal).localDay c.now) := by
    intro c hc
    rcases List.mem_append.mp hc with hc | hc
    · exact hcs c hc
    · exact (hmore c hc).1
  have hback : ∀ c ∈ more, (l.zone cal).localDay c.now ≤ highestDay (l.zone cal) d₀ cs :=
    fun c hc => (hmore c hc).2
  have hafter := usedToday_credited hcal hkey hyear hused htrust hall hnow
    (by rwa [highestDay_append hback])
  rw [hbefore, hafter]
  exact min_le_min_right u64Max (secsSinceHighest_le_append hback)

/-- A ledger made at noon of 2026-06-29. -/
def noonLedger : UsageLedger := .new utcCalendar "UTC" .mon 1782734400

/-- An hour, a minute with the clock a day back, and learning time on return. -/
def stepBack : List Credit :=
  [.bucket 1782734400 .active .screen 3600, .bucket 1782648000 .active .screen 60,
    .bucket 1782734500 .active .learning 600]

theorem usedToday_untrusted_stepBack :
    (credited utcCalendar noonLedger stepBack).usedToday utcCalendar 1782734600 = 3660 := by
  have hkey : noonLedger.day.key = dateKey 20633 := by decide +kernel
  have hnow : FourDigitYear ((noonLedger.zone utcCalendar).localDay 1782734600) := by
    decide +kernel
  have hread := usedToday_untrusted utcCalendar_readsBack hkey (by decide +kernel)
    (by decide +kernel) rfl stepBack (by decide +kernel) hnow (by decide +kernel)
  exact hread.1.trans (by decide +kernel)

/-- A ledger file whose day key is no date, with time on it. -/
def garbledLedger : UsageLedger :=
  { noonLedger with day.current.key := "zzz", day.current.usedTodaySecs := 500 }

/-- **Where the sum is not what is read.**  A counter at the top of its range stays there;
the first day of the year 10000 sorts before the last of 9999, so its credits join the old
day's; and a key that is no date is re-anchored with the time that was on it. -/
theorem usedToday_untrusted_exceptions :
    ((credited utcCalendar noonLedger
          [.bucket 1782734400 .active .screen (2 ^ 64 - 1),
            .bucket 1782734400 .active .screen 1]).usedToday utcCalendar 1782734400 = 2 ^ 64 - 1 ∧
        secsSinceHighest Tz.utc 20633 0
          [.bucket 1782734400 .active .screen (2 ^ 64 - 1),
            .bucket 1782734400 .active .screen 1] = 2 ^ 64) ∧
      ((credited utcCalendar (.new utcCalendar "UTC" .mon 253402300799)
          [.bucket 253402300799 .active .screen 100,
            .bucket 253402300800 .active .screen 50]).usedToday utcCalendar 253402300800 = 150 ∧
        secsSinceHighest Tz.utc 2932896 0
          [.bucket 253402300799 .active .screen 100,
            .bucket 253402300800 .active .screen 50] = 50) ∧
      (credited utcCalendar garbledLedger
        [.bucket 1782734400 .active .screen 100]).usedToday utcCalendar 1782734400 = 600 := by
  decide +kernel

end UsageLedger
end Kintrinsic
