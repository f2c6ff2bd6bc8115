import Kintrinsic.UsageLedger

/-! # What a credit does to the readers

Read at the instant it is made, a credit lowers no total and forgets no minute, and it leaves
the day and the week the ledger reads on where they were. -/
namespace Kintrinsic

open MachineWord PreRoll

namespace UsageLedger
variable {cal : Calendar} {l : UsageLedger}

theorem credit_dayKeyAt (c : Credit) (now : Int) :
    (c.apply cal l).dayKeyAt cal now = l.dayKeyAt cal now := by
  simp only [dayKeyAt, zone, Credit.apply_tz]

theorem credit_weekKeyAt (c : Credit) (now : Int) :
    (c.apply cal l).weekKeyAt cal now = l.weekKeyAt cal now := by
  simp only [weekKeyAt, zone, Credit.apply_tz, Credit.apply_weekStart]

/-- A credit leaves the day it was made on in force. -/
theorem credit_dayHasRolled (c : Credit) :
    (c.apply cal l).dayHasRolled cal c.now = false := by
  have hkey := (Credit.adds_apply cal l c).dayKey
  rw [(l.rolled_roll cal c.now).day] at hkey
  rw [dayHasRolled, hkey, credit_dayKeyAt]
  exact decide_eq_false not_roll_key_lt

theorem credit_weekHasRolled (c : Credit) :
    (c.apply cal l).weekHasRolled cal c.now = false := by
  have hkey := (Credit.adds_apply cal l c).weekKey
  rw [(l.rolled_roll cal c.now).weekKey] at hkey
  rw [weekHasRolled, hkey, credit_weekKeyAt]
  exact decide_eq_false not_roll_key_lt

/-- **A credit lowers no total.** -/
theorem usedToday_le_credit (c : Credit) (hused : l.day.current.usedTodaySecs ≤ u64Max) :
    l.usedToday cal c.now ≤ (c.apply cal l).usedToday cal c.now := by
  have hroll := usedTodayMeter.read_le_roll cal.parse l.clockTrusted 1 (l.dayKeyAt cal c.now) hused
  have hadd := (Credit.adds_apply cal l c).used.min_le
  rw [(l.rolled_roll cal c.now).day] at hadd
  have hle : l.usedToday cal c.now ≤ u64Max := by
    unfold usedToday
    split
    · exact Nat.zero_le _
    · exact hused
  have hnow : l.usedToday cal c.now =
      if l.day.key < l.dayKeyAt cal c.now then 0 else usedTodayMeter.read l.day.current := by
    simp [usedToday, dayHasRolled, usedTodayMeter]
  rw [← hnow] at hroll
  have hafter : (c.apply cal l).usedToday cal c.now = (c.apply cal l).day.current.usedTodaySecs := by
    rw [usedToday, credit_dayHasRolled, if_neg Bool.false_ne_true]
  rw [hafter]
  exact le_trans (le_min (le_trans hroll (Nat.le_add_right _ _)) hle) hadd

theorem usedWeek_le_credit (c : Credit) (hused : l.week.current.usedWeekSecs ≤ u64Max) :
    l.usedWeek cal c.now ≤ (c.apply cal l).usedWeek cal c.now := by
  have hroll := usedWeekMeter.read_le_roll cal.parse l.clockTrusted 7 (l.weekKeyAt cal c.now) hused
  have hadd := (Credit.adds_apply cal l c).usedWeek.min_le
  rw [(l.rolled_roll cal c.now).usedWeek] at hadd
  have hle : l.usedWeek cal c.now ≤ u64Max := by
    unfold usedWeek
    split
    · exact Nat.zero_le _
    · exact hused
  have hnow : l.usedWeek cal c.now =
      if l.week.key < l.weekKeyAt cal c.now then 0 else usedWeekMeter.read l.week.current := by
    simp [usedWeek, weekHasRolled, usedWeekMeter]
  rw [← hnow] at hroll
  have hafter : (c.apply cal l).usedWeek cal c.now = (c.apply cal l).week.current.usedWeekSecs := by
    rw [usedWeek, credit_weekHasRolled, if_neg Bool.false_ne_true]
  rw [hafter]
  exact le_trans (le_min (le_trans hroll (Nat.le_add_right _ _)) hle) hadd

/-- What is added after the roll marks minutes and unmarks none. -/
theorem minutes_credit (c : Credit) :
    (l.roll cal c.now).day.current.minutesToday.bits ⊆
      (c.apply cal l).day.current.minutesToday.bits := by
  cases c with
  | bucket now activity bucket elapsed =>
    simp only [Credit.apply, creditBucket, Credit.now]
    split
    · cases bucket <;> exact MinuteSet.subset_markSpan _ _ _ _
    · exact Finset.Subset.refl _
  | unrecognised now activity elapsed =>
    simp only [Credit.apply, creditUnrecognised, Credit.now]
    split <;> exact Finset.Subset.refl _
  | appBucket now id elapsed => exact Finset.Subset.refl _

/-- **A credit forgets no minute.** -/
theorem minutesToday_subset_credit (c : Credit) :
    (l.minutesToday cal c.now).bits ⊆ ((c.apply cal l).minutesToday cal c.now).bits := by
  have hmarks : (l.roll cal c.now).day.current.minutesToday.bits ⊆
      (c.apply cal l).day.current.minutesToday.bits := minutes_credit c
  rw [(l.rolled_roll cal c.now).day] at hmarks
  rw [minutesToday, minutesToday, credit_dayHasRolled, if_neg Bool.false_ne_true]
  refine Finset.Subset.trans ?_ hmarks
  rcases roll_current cal.parse l.clockTrusted 1 (l.dayKeyAt cal c.now) l.day with
    ⟨hlt, -⟩ | ⟨hlt, hcurrent⟩
  · rw [dayHasRolled, decide_eq_true hlt]
    exact Finset.empty_subset _
  · rw [dayHasRolled, decide_eq_false hlt, if_neg Bool.false_ne_true]
    rcases hcurrent with hsame | hmoved | ⟨r, hmerged⟩
    · rw [hsame]
    · rw [hmoved]
      exact Finset.Subset.refl _
    · rw [hmerged]
      exact Finset.subset_union_left

/-- A credit leaves the day the ledger reads on where it was. -/
theorem currentDayKey_credit (c : Credit) :
    (c.apply cal l).currentDayKey cal c.now = l.currentDayKey cal c.now := by
  have hadds := Credit.adds_apply cal l c
  have hday := (l.rolled_roll cal c.now).day
  rw [currentDayKey, currentDayKey, credit_dayKeyAt, Credit.apply_clockTrusted]
  exact currentKey_rolled (hday ▸ hadds.dayKey) (hday ▸ hadds.dayChain)

theorem currentWeekKey_credit (c : Credit) :
    (c.apply cal l).currentWeekKey cal c.now = l.currentWeekKey cal c.now := by
  have hadds := Credit.adds_apply cal l c
  have hrolled := l.rolled_roll cal c.now
  rw [currentWeekKey, currentWeekKey, credit_weekKeyAt, Credit.apply_clockTrusted]
  exact currentKey_rolled (hadds.weekKey.trans hrolled.weekKey)
    (hadds.weekChain.trans hrolled.weekChain)

end UsageLedger
end Kintrinsic
