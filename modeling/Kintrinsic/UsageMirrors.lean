import Kintrinsic.UsageReaders
import Kintrinsic.UsageUntrusted

/-! # The readers beside the roll

A reader answers without rolling.  On a new day it answers zero, as the roll would leave it;
but what a trusted return folds back in from the chain it does not see, although the keys
are read as if it did. -/
namespace Kintrinsic

open MachineWord PreRoll

/-- The seconds of a call, counted or not. -/
def Credit.elapsed : Credit → Nat
  | bucket _ _ _ elapsed => elapsed
  | unrecognised _ _ elapsed => elapsed
  | appBucket _ _ elapsed => elapsed

namespace UsageLedger
variable (cal : Calendar) (l : UsageLedger)

/-- How every day-keyed reader answers. -/
def readDay (now : Int) (m : Meter DayCounters) : Nat :=
  if l.dayHasRolled cal now then 0 else m.read l.day.current

def readWeek (now : Int) (m : Meter WeekCounters) : Nat :=
  if l.weekHasRolled cal now then 0 else m.read l.week.current

/-- Counters that are unsigned 64-bit words. -/
structure Fits : Prop where
  used : l.day.current.usedTodaySecs ≤ u64Max
  learning : l.day.current.learningTodaySecs ≤ u64Max
  unrecognised : l.day.current.unrecognisedTodaySecs ≤ u64Max
  buckets : ∀ id, l.day.current.bucketTodaySecs id ≤ u64Max
  usedWeek : l.week.current.usedWeekSecs ≤ u64Max
  bucketsWeek : ∀ id, l.week.current.bucketWeekSecs id ≤ u64Max

/-- The readers of two ledgers agree at an instant. -/
structure ReadsAs (now : Int) (l' : UsageLedger) : Prop where
  usedToday : l.usedToday cal now = l'.usedToday cal now
  learningToday : l.learningToday cal now = l'.learningToday cal now
  unrecognisedToday : l.unrecognisedToday cal now = l'.unrecognisedToday cal now
  appBucketToday : ∀ id, l.appBucketToday cal now id = l'.appBucketToday cal now id
  usedWeek : l.usedWeek cal now = l'.usedWeek cal now
  appBucketWeek : ∀ id, l.appBucketWeek cal now id = l'.appBucketWeek cal now id
  currentDayKey : l.currentDayKey cal now = l'.currentDayKey cal now
  currentWeekKey : l.currentWeekKey cal now = l'.currentWeekKey cal now

/-- A roll at an instant gives nothing back from the chains: the clock is not trusted, or it
finds no lead that its own chain explains, or nothing in it was spent on that day or later. -/
structure NothingSetAside (now : Int) : Prop where
  used : usedTodayMeter.Steady l.clockTrusted (l.dayKeyAt cal now) l.day
  learning : learningMeter.Steady l.clockTrusted (l.dayKeyAt cal now) l.day
  unrecognised : unrecognisedMeter.Steady l.clockTrusted (l.dayKeyAt cal now) l.day
  buckets : ∀ id, (bucketMeter id).Steady l.clockTrusted (l.dayKeyAt cal now) l.day
  usedWeek : usedWeekMeter.Steady l.clockTrusted (l.weekKeyAt cal now) l.week
  bucketsWeek : ∀ id, (bucketWeekMeter id).Steady l.clockTrusted (l.weekKeyAt cal now) l.week

variable {cal l}

/-- Adding nothing leaves a word where it is. -/
theorem added_zero {n before after : Nat} (h : Added n before after) (hn : n = 0)
    (hle : before ≤ u64Max) : after = before := by
  rw [h.eq_addU64 hle, hn]
  exact Nat.min_eq_left hle

/-- A counter of the day that a call adds nothing to is read alike after it exactly when the
roll gives it nothing. -/
theorem readDay_credit_iff (m : Meter DayCounters) (hle : m.read l.day.current ≤ u64Max)
    {c : Credit} {n : Nat} (hn : n = 0)
    (hadd : Added n (m.read (l.roll cal c.now).day.current) (m.read (c.apply cal l).day.current)) :
    l.readDay cal c.now m = (c.apply cal l).readDay cal c.now m ↔
      m.Steady l.clockTrusted (l.dayKeyAt cal c.now) l.day := by
  rw [(l.rolled_roll cal c.now).day] at hadd
  have hkept := added_zero hadd hn (m.read_roll_le _ _ _ _ hle)
  rw [readDay, readDay, credit_dayHasRolled, if_neg Bool.false_ne_true, hkept,
    ← m.read_roll_eq_iff cal.parse l.clockTrusted 1 (l.dayKeyAt cal c.now) hle]
  simp only [dayHasRolled, decide_eq_true_eq]

theorem readWeek_credit_iff (m : Meter WeekCounters) (hle : m.read l.week.current ≤ u64Max)
    {c : Credit} {n : Nat} (hn : n = 0)
    (hroll : m.read (l.roll cal c.now).week.current =
      m.read (l.week.roll cal.parse l.clockTrusted 7 (l.weekKeyAt cal c.now)).1.current)
    (hadd : Added n (m.read (l.roll cal c.now).week.current)
      (m.read (c.apply cal l).week.current)) :
    l.readWeek cal c.now m = (c.apply cal l).readWeek cal c.now m ↔
      m.Steady l.clockTrusted (l.weekKeyAt cal c.now) l.week := by
  rw [hroll] at hadd
  have hkept := added_zero hadd hn (m.read_roll_le _ _ _ _ hle)
  rw [readWeek, readWeek, credit_weekHasRolled, if_neg Bool.false_ne_true, hkept,
    ← m.read_roll_eq_iff cal.parse l.clockTrusted 7 (l.weekKeyAt cal c.now) hle]
  simp only [weekHasRolled, decide_eq_true_eq]

/-- What a call credits is what it was given, or nothing. -/
theorem secs_le_elapsed (c : Credit) :
    c.screenSecs ≤ c.elapsed ∧ c.learningSecs ≤ c.elapsed ∧ c.unrecognisedSecs ≤ c.elapsed ∧
      ∀ id, c.bucketSecs id ≤ c.elapsed := by
  cases c with
  | bucket now activity b elapsed =>
    cases b <;> cases h : activity.counts <;>
      simp [Credit.screenSecs, Credit.learningSecs, Credit.unrecognisedSecs, Credit.bucketSecs,
        Credit.elapsed, h]
  | unrecognised now activity elapsed =>
    cases h : activity.counts <;>
      simp [Credit.screenSecs, Credit.learningSecs, Credit.unrecognisedSecs, Credit.bucketSecs,
        Credit.elapsed, h]
  | appBucket now id elapsed =>
    refine ⟨Nat.zero_le _, Nat.zero_le _, Nat.zero_le _, ?_⟩
    intro id'
    simp only [Credit.bucketSecs, Credit.elapsed]
    split
    · exact Nat.le_refl _
    · exact Nat.zero_le _

/-- **The readers and the roll.**  Every reader answers what it would after a call of zero
seconds exactly when the roll of that call gives nothing back; the two keys always do. -/
theorem readsAs_credit_iff (hl : l.Fits) {c : Credit} (hc : c.elapsed = 0) :
    l.ReadsAs cal c.now (c.apply cal l) ↔ l.NothingSetAside cal c.now := by
  have hadds := Credit.adds_apply cal l c
  have hrolled := l.rolled_roll cal c.now
  obtain ⟨hscreen, hlearn, hunknown, hbucket⟩ := secs_le_elapsed c
  rw [hc] at hscreen hlearn hunknown hbucket
  have hused := readDay_credit_iff usedTodayMeter hl.used (Nat.le_zero.mp hscreen) hadds.used
  have hlearning :=
    readDay_credit_iff learningMeter hl.learning (Nat.le_zero.mp hlearn) hadds.learning
  have hunrecognised := readDay_credit_iff unrecognisedMeter hl.unrecognised
    (Nat.le_zero.mp hunknown) hadds.unrecognised
  have hbuckets := fun id => readDay_credit_iff (bucketMeter id) (hl.buckets id)
    (Nat.le_zero.mp (hbucket id)) (hadds.buckets id)
  have husedWeek := readWeek_credit_iff usedWeekMeter hl.usedWeek (Nat.le_zero.mp hscreen)
    hrolled.usedWeek hadds.usedWeek
  have hbucketsWeek := fun id => readWeek_credit_iff (bucketWeekMeter id) (hl.bucketsWeek id)
    (Nat.le_zero.mp (hbucket id)) (congrFun hrolled.bucketsWeek id) (hadds.bucketsWeek id)
  constructor
  · intro h
    exact ⟨hused.mp h.usedToday, hlearning.mp h.learningToday,
      hunrecognised.mp h.unrecognisedToday, fun id => (hbuckets id).mp (h.appBucketToday id),
      husedWeek.mp h.usedWeek, fun id => (hbucketsWeek id).mp (h.appBucketWeek id)⟩
  · intro h
    exact ⟨hused.mpr h.used, hlearning.mpr h.learning, hunrecognised.mpr h.unrecognised,
      fun id => (hbuckets id).mpr (h.buckets id), husedWeek.mpr h.usedWeek,
      fun id => (hbucketsWeek id).mpr (h.bucketsWeek id), (currentDayKey_credit c).symm,
      (currentWeekKey_credit c).symm⟩

/-- An hour of the day, and a minute with the clock a day ahead. -/
def dayAhead : List Credit :=
  [.bucket 1782734400 .active .screen 3600, .bucket 1782820800 .active .screen 60]

/-- Then the clock is confirmed. -/
def confirmedLedger : UsageLedger :=
  (credited utcCalendar noonLedger dayAhead).setClockTrusted true

theorem readsAs_credit_noon :
    noonLedger.ReadsAs utcCalendar 1782734400
      ((Credit.bucket 1782734400 .active .screen 0).apply utcCalendar noonLedger) := by
  have hfits : noonLedger.Fits := by constructor <;> simp [noonLedger, new, PreRoll.fresh]
  refine (readsAs_credit_iff hfits (c := .bucket 1782734400 .active .screen 0) rfl).mpr ?_
  constructor <;> simp [Meter.Steady, noonLedger, new]

/-- **Confirmed on the real day, the hour is not read until the next call.**  The day's key is. -/
theorem not_readsAs_confirmed :
    ¬confirmedLedger.ReadsAs utcCalendar 1782734400
        ((Credit.bucket 1782734400 .active .screen 0).apply utcCalendar confirmedLedger) ∧
      confirmedLedger.usedToday utcCalendar 1782734400 = 60 ∧
      ((Credit.bucket 1782734400 .active .screen 0).apply utcCalendar
        confirmedLedger).usedToday utcCalendar 1782734400 = 3660 ∧
      confirmedLedger.currentDayKey utcCalendar 1782734400 = "2026-06-29" := by
  have hbefore : confirmedLedger.usedToday utcCalendar 1782734400 = 60 := by decide +kernel
  have hafter : ((Credit.bucket 1782734400 .active .screen 0).apply utcCalendar
      confirmedLedger).usedToday utcCalendar 1782734400 = 3660 := by decide +kernel
  refine ⟨?_, hbefore, hafter, by decide +kernel⟩
  intro h
  have hsame := h.usedToday
  rw [hbefore, hafter] at hsame
  contradiction

end UsageLedger
end Kintrinsic
