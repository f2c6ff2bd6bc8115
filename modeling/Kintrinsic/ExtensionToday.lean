import Kintrinsic.ExtensionLedger

/-! # What the extension pools hold today

What a tick reads of the ledger, and how a call changes it.  A roll shows in no reader, so a
call may be taken to act on a ledger of today; a grant then gives and a take-back takes, as
long as the pools are far from the end of their range. -/
namespace Kintrinsic

open MachineWord

/-- More seconds than any family has, and few enough that no sum of some leaves its range. -/
def smallSecs : Nat := 2 ^ 60

namespace ExtensionLedger

/-- Every pool of the ledger holds at most `n` seconds. -/
structure Within (n : Nat) (l : ExtensionLedger) : Prop where
  schedule : l.scheduleSecs ≤ n
  budget : l.budgetSecs ≤ n
  scheduleDeduct : l.scheduleDeductSecs ≤ n
  budgetDeduct : l.budgetDeductSecs ≤ n
  baselineToday : ∀ secs ∈ l.budgetBaselineTodaySecs, secs ≤ n
  baselineWeek : ∀ secs ∈ l.budgetBaselineWeekSecs, secs ≤ n

/-- What a tick reads of the ledger. -/
structure TodayPools where
  scheduleExtra : Nat
  scheduleDeducted : Nat
  budgetExtra : Nat
  budgetDeducted : Nat
  baseline : Option (Nat × Nat)

/-- Pools that give no more than others. -/
structure TodayPools.GivesLess (p p' : TodayPools) : Prop where
  scheduleExtra : p.scheduleExtra ≤ p'.scheduleExtra
  scheduleDeducted : p'.scheduleDeducted ≤ p.scheduleDeducted
  budgetExtra : p.budgetExtra ≤ p'.budgetExtra
  budgetDeducted : p'.budgetDeducted ≤ p.budgetDeducted
  baseline : p.baseline.getD (0, 0) ≤ p'.baseline.getD (0, 0)

theorem TodayPools.GivesLess.refl (p : TodayPools) : p.GivesLess p :=
  ⟨le_rfl, le_rfl, le_rfl, le_rfl, le_rfl⟩

variable (zones : Zones) (now : Int) (l : ExtensionLedger)

def today : TodayPools where
  scheduleExtra := l.scheduleExtraSecs zones now
  scheduleDeducted := l.scheduleDeductedSecs zones now
  budgetExtra := l.budgetExtraSecs zones now
  budgetDeducted := l.budgetDeductedSecs zones now
  baseline := l.budgetBaselineSecs zones now

/-- The pools of a ledger whose day is today. -/
def held : TodayPools where
  scheduleExtra := l.scheduleSecs - l.scheduleConsumedSecs
  scheduleDeducted := l.scheduleDeductSecs
  budgetExtra := l.budgetSecs
  budgetDeducted := l.budgetDeductSecs
  baseline := l.baseline

variable {zones now l}

theorem today_of_current (h : l.dayKeyAt zones now = l.dayKey) : l.today zones now = l.held := by
  have hstale : l.stale zones now = false := decide_eq_false (not_not.mpr h)
  simp only [today, held, scheduleExtraSecs, scheduleDeductedSecs, budgetExtraSecs,
    budgetDeductedSecs, budgetBaselineSecs, hstale, Bool.false_eq_true, if_false]

/-- Crediting a pool does not change whose day the ledger is on. -/
theorem current_of_credited {l' : ExtensionLedger} (h : l.dayKeyAt zones now = l.dayKey)
    (htz : l'.tz = l.tz) (hkey : l'.dayKey = l.dayKey) :
    l'.dayKeyAt zones now = l'.dayKey := by
  rw [dayKeyAt, zone, htz, hkey]
  exact h

theorem today_of_credited {l' : ExtensionLedger} (h : l.dayKeyAt zones now = l.dayKey)
    (htz : l'.tz = l.tz) (hkey : l'.dayKey = l.dayKey) : l'.today zones now = l'.held :=
  today_of_current (current_of_credited h htz hkey)

/-- A roll shows in no reader: pools of another day read empty before it. -/
theorem today_roll : l.today zones now = (l.roll zones now).held := by
  by_cases h : l.dayKeyAt zones now = l.dayKey
  · rw [roll, if_pos h, today_of_current h]
  · have hstale : l.stale zones now = true := decide_eq_true h
    rw [roll, if_neg h]
    simp only [today, held, emptyDay, baseline, scheduleExtraSecs, scheduleDeductedSecs, budgetExtraSecs,
      budgetDeductedSecs, budgetBaselineSecs, hstale, if_true]

theorem Within.mono {n m : Nat} (h : l.Within n) (hnm : n ≤ m) : l.Within m :=
  ⟨h.schedule.trans hnm, h.budget.trans hnm, h.scheduleDeduct.trans hnm, h.budgetDeduct.trans hnm,
    fun s hs => (h.baselineToday s hs).trans hnm, fun s hs => (h.baselineWeek s hs).trans hnm⟩

theorem Within.roll {n : Nat} (h : l.Within n) : (l.roll zones now).Within n := by
  unfold ExtensionLedger.roll
  split
  · exact h
  · constructor <;> simp [emptyDay]

/-- What holds of the rolled ledger, and of it credited, holds after a call under an id. -/
theorem once_rule {P : ExtensionLedger → Prop} {reqId : String}
    {credit : ExtensionLedger → ExtensionLedger} (hrolled : P (l.roll zones now))
    (hcredit : P (credit { l.roll zones now with applied := (l.roll zones now).applied ++ [reqId] })) :
    P (l.once zones now reqId credit).2 := by
  unfold once
  dsimp only
  split
  · exact hrolled
  · exact hcredit

/-- A ledger of the same day, its pools in range. -/
structure SameDay (l l' : ExtensionLedger) : Prop where
  tz : l'.tz = l.tz
  dayKey : l'.dayKey = l.dayKey
  within : l'.Within (2 ^ 61)

/-- **A grant gives**, whichever dimension it goes to. -/
theorem apply_gives (hl : l.Within smallSecs) (reqId : String) (minutes : UInt16)
    (dim : Dimension) :
    (l.roll zones now).SameDay (l.apply zones now reqId minutes.toNat dim).2 ∧
      (l.roll zones now).held.GivesLess (l.apply zones now reqId minutes.toNat dim).2.held := by
  have hsmall : (l.roll zones now).Within smallSecs := hl.roll
  have hlarge : (l.roll zones now).Within (2 ^ 61) := hsmall.mono (by decide)
  have hminutes : minutes.toNat < 2 ^ 16 := minutes.toNat_lt
  refine once_rule (P := fun l' => (l.roll zones now).SameDay l' ∧
    (l.roll zones now).held.GivesLess l'.held) ?_ ?_
  · exact ⟨⟨rfl, rfl, hlarge⟩, TodayPools.GivesLess.refl _⟩
  generalize l.roll zones now = r at hsmall hlarge
  -- the sum that a plain addition makes is far from the end of the range
  have hpool : ∀ n ≤ smallSecs, n ≤ wrapU64 (n + secsOf minutes.toNat) ∧
      wrapU64 (n + secsOf minutes.toNat) ≤ 2 ^ 61 := by
    intro n hn
    unfold smallSecs at hn
    unfold secsOf
    rw [wrapU64_of_lt (by omega)]
    omega
  cases dim with
  | schedule =>
    have hnew := hpool _ hsmall.schedule
    exact ⟨⟨rfl, rfl, { hlarge with schedule := hnew.2 }⟩,
      Nat.sub_le_sub_right hnew.1 _, le_rfl, le_rfl, le_rfl, le_rfl⟩
  | budget =>
    have hnew := hpool _ hsmall.budget
    exact ⟨⟨rfl, rfl, { hlarge with budget := hnew.2 }⟩, le_rfl, le_rfl, hnew.1, le_rfl, le_rfl⟩

/-- **A take-back takes**, whichever dimension it draws from. -/
theorem deduct_takes (hl : l.Within smallSecs) (reqId : String) (minutes : UInt16)
    (dim : Dimension) :
    (l.roll zones now).SameDay (l.deduct zones now reqId minutes.toNat dim).2 ∧
      (l.deduct zones now reqId minutes.toNat dim).2.held.GivesLess (l.roll zones now).held := by
  have hsmall : (l.roll zones now).Within smallSecs := hl.roll
  have hlarge : (l.roll zones now).Within (2 ^ 61) := hsmall.mono (by decide)
  have hminutes : minutes.toNat < 2 ^ 16 := minutes.toNat_lt
  refine once_rule (P := fun l' => (l.roll zones now).SameDay l' ∧
    l'.held.GivesLess (l.roll zones now).held) ?_ ?_
  · exact ⟨⟨rfl, rfl, hlarge⟩, TodayPools.GivesLess.refl _⟩
  generalize l.roll zones now = r at hsmall hlarge
  have hpool : ∀ n ≤ smallSecs, n ≤ addU64 n (secsOf minutes.toNat) ∧
      addU64 n (secsOf minutes.toNat) ≤ 2 ^ 61 := by
    intro n hn
    unfold smallSecs at hn
    unfold secsOf
    rw [addU64_of_le (by unfold u64Max; omega)]
    omega
  cases dim with
  | schedule =>
    have hnew := hpool _ hsmall.scheduleDeduct
    exact ⟨⟨rfl, rfl, { hlarge with scheduleDeduct := hnew.2 }⟩,
      le_rfl, hnew.1, le_rfl, le_rfl, le_rfl⟩
  | budget =>
    have hnew := hpool _ hsmall.budgetDeduct
    exact ⟨⟨rfl, rfl, { hlarge with budgetDeduct := hnew.2 }⟩, le_rfl, le_rfl, le_rfl, hnew.1, le_rfl⟩

theorem TodayPools.GivesLess.trans {p q r : TodayPools} (h : p.GivesLess q) (h' : q.GivesLess r) :
    p.GivesLess r :=
  ⟨h.scheduleExtra.trans h'.scheduleExtra, h'.scheduleDeducted.trans h.scheduleDeducted,
    h.budgetExtra.trans h'.budgetExtra, h'.budgetDeducted.trans h.budgetDeducted,
    h.baseline.trans h'.baseline⟩

/-- The floor that a first grant records only lifts what is left. -/
theorem noteBudgetBaseline_gives {usedToday usedWeek : Nat}
    (hday : l.dayKeyAt zones now = l.dayKey) (hl : l.Within (2 ^ 61)) (htoday : usedToday ≤ 2 ^ 61)
    (hweek : usedWeek ≤ 2 ^ 61) :
    l.SameDay (l.noteBudgetBaseline zones now usedToday usedWeek) ∧
      l.held.GivesLess (l.noteBudgetBaseline zones now usedToday usedWeek).held := by
  have hroll : l.roll zones now = l := if_pos hday
  unfold noteBudgetBaseline
  dsimp only
  rw [hroll]
  split
  · rename_i hnone
    have hfloor : l.held.baseline = none := by
      unfold held baseline
      rw [Option.isNone_iff_eq_none.mp hnone]
    refine ⟨⟨rfl, rfl, { hl with baselineToday := ?_, baselineWeek := ?_ }⟩,
      le_rfl, le_rfl, le_rfl, le_rfl, ?_⟩
    · rintro secs ⟨⟩
      exact htoday
    · rintro secs ⟨⟩
      exact hweek
    · rw [hfloor]
      exact ⟨Nat.zero_le _, Nat.zero_le _⟩
  · exact ⟨⟨rfl, rfl, hl⟩, TodayPools.GivesLess.refl _⟩

theorem SameDay.today {l' : ExtensionLedger} (h : (l.roll zones now).SameDay l') :
    l'.today zones now = l'.held :=
  today_of_credited roll_current_day h.tz h.dayKey

/-- What a tick reads of the pools is what they hold, at most. -/
structure ReadsWithin (zones : Zones) (now : Int) (n : Nat) (l : ExtensionLedger) : Prop where
  scheduleExtra : l.scheduleExtraSecs zones now ≤ n
  budgetExtra : l.budgetExtraSecs zones now ≤ n
  budgetDeducted : l.budgetDeductedSecs zones now ≤ n
  baseline : ∀ p ∈ l.budgetBaselineSecs zones now, p.1 ≤ n ∧ p.2 ≤ n

theorem Within.reads {n : Nat} (h : l.Within n) : l.ReadsWithin zones now n := by
  have hroll : (l.roll zones now).Within n := h.roll
  have htoday : l.today zones now = (l.roll zones now).held := today_roll
  simp only [today, held, TodayPools.mk.injEq] at htoday
  obtain ⟨hextra, -, hbudget, hdeducted, hbaseline⟩ := htoday
  refine ⟨?_, ?_, ?_, ?_⟩
  · rw [hextra]
    exact (Nat.sub_le _ _).trans hroll.schedule
  · rw [hbudget]
    exact hroll.budget
  · rw [hdeducted]
    exact hroll.budgetDeduct
  · intro p hp
    rw [hbaseline, ExtensionLedger.baseline] at hp
    split at hp
    · rename_i today week htoday hweek
      cases hp
      exact ⟨hroll.baselineToday _ htoday, hroll.baselineWeek _ hweek⟩
    · cases hp

end ExtensionLedger

end Kintrinsic
