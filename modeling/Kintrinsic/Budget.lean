import Kintrinsic.ClauseShapes
import Kintrinsic.Countdown

/-! # The budget

What is left of the daily and the weekly cap once the usage pooled over the child's devices
is drawn off.  A remainder is signed, so that an overdrawn ward stays overdrawn; `none` is a
cap that is not set. -/
namespace Kintrinsic

open MachineWord

/-- The verified usage of a child's other devices. -/
structure ConsolidatedUsage where
  dayKey : String
  spentElsewhereTodaySecs : Nat
  weekKey : Option String
  spentElsewhereWeekSecs : Option Nat
  elsewhereMinutesToday : Option MinuteSet

namespace UsageLedger
variable (cal : Calendar) (usage : UsageLedger)

/-- Whether the minute journal stands for the day's seconds. -/
def journalled (now : Int) : Bool :=
  !(usage.minutesToday cal now).isEmpty || decide (usage.usedToday cal now = 0)

/-- The day half of `pooled_used`: minutes shared with another device count once, and the
device's own seconds are the least it can be. -/
def pooledToday (consolidated : Option ConsolidatedUsage) (now : Int) : Nat :=
  let localToday := usage.usedToday cal now
  match consolidated with
  | none => localToday
  | some c =>
    if c.dayKey = usage.currentDayKey cal now then
      match c.elsewhereMinutesToday with
      | some elsewhere =>
        if usage.journalled cal now then
          max (((usage.minutesToday cal now).union elsewhere).count * 60) localToday
        else addU64 localToday c.spentElsewhereTodaySecs
      | none => addU64 localToday c.spentElsewhereTodaySecs
    else localToday

/-- The week half of `pooled_used`. -/
def pooledWeek (consolidated : Option ConsolidatedUsage) (now : Int) : Nat :=
  let localWeek := usage.usedWeek cal now
  match consolidated with
  | none => localWeek
  | some c =>
    match c.weekKey, c.spentElsewhereWeekSecs with
    | some wk, some elsewhere =>
      if wk = usage.currentWeekKey cal now then addU64 localWeek elsewhere else localWeek
    | _, _ => localWeek

/-- `pooled_used`. -/
def pooledUsed (consolidated : Option ConsolidatedUsage) (now : Int) : Nat × Nat :=
  (usage.pooledToday cal consolidated now, usage.pooledWeek cal consolidated now)

end UsageLedger

namespace UsageLedger
variable {cal : Calendar} {usage usage' : UsageLedger} {now : Int}

/-- Whether the day is pooled by the union of minutes. -/
def pooledByMinutes (cal : Calendar) (usage : UsageLedger)
    (consolidated : Option ConsolidatedUsage) (now : Int) : Bool :=
  consolidated.any fun c =>
    decide (c.dayKey = usage.currentDayKey cal now) && c.elsewhereMinutesToday.isSome &&
      usage.journalled cal now

/-- **Pooling is monotone** while one rule pools the day. -/
theorem pooledToday_mono {consolidated : Option ConsolidatedUsage}
    (hday : usage.currentDayKey cal now = usage'.currentDayKey cal now)
    (hused : usage.usedToday cal now ≤ usage'.usedToday cal now)
    (hminutes : (usage.minutesToday cal now).bits ⊆ (usage'.minutesToday cal now).bits)
    (hrule : usage.pooledByMinutes cal consolidated now =
      usage'.pooledByMinutes cal consolidated now) :
    usage.pooledToday cal consolidated now ≤ usage'.pooledToday cal consolidated now := by
  cases consolidated with
  | none => exact hused
  | some c =>
    simp only [pooledByMinutes, Option.any_some, pooledToday] at hrule ⊢
    rw [← hday] at hrule ⊢
    by_cases hkey : c.dayKey = usage.currentDayKey cal now
    · rw [if_pos hkey, if_pos hkey]
      cases hminutes' : c.elsewhereMinutesToday with
      | none => exact addU64_mono hused le_rfl
      | some elsewhere =>
        rw [decide_eq_true hkey, hminutes'] at hrule
        simp only [Option.isSome_some, Bool.true_and] at hrule
        rw [← hrule]
        dsimp only
        split
        · exact max_le_max (Nat.mul_le_mul_right 60 (MinuteSet.count_union_mono hminutes)) hused
        · exact addU64_mono hused le_rfl
    · rw [if_neg hkey, if_neg hkey]
      exact hused

theorem pooledWeek_mono {consolidated : Option ConsolidatedUsage}
    (hweek : usage.currentWeekKey cal now = usage'.currentWeekKey cal now)
    (hused : usage.usedWeek cal now ≤ usage'.usedWeek cal now) :
    usage.pooledWeek cal consolidated now ≤ usage'.pooledWeek cal consolidated now := by
  cases consolidated with
  | none => exact hused
  | some c =>
    simp only [pooledWeek]
    rw [← hweek]
    split
    · split
      · exact addU64_mono hused le_rfl
      · exact hused
    · exact hused

end UsageLedger

/-- The smallest signed 64-bit value. -/
def i64Min : Int := -2 ^ 63

/-- What is left of one cap: the allowance is never below the debt at the day's first grant,
`net` seconds are added to it, and the pooled usage drawn off. -/
@[irreducible] def capLeft (cap : UInt32) (baseline : Option Nat) (net : Int) (pooled : Nat) : Int :=
  let base := max (cap.toNat * 60 : Int) ((baseline.map asI64).getD i64Min)
  wrapI64 (wrapI64 (base + net) - asI64 pooled)

/-- The allowance that a cap and the debt at the first grant make. -/
def allowance (cap : UInt32) (baseline : Option Nat) : Int :=
  max (cap.toNat * 60 : Int) (baseline.getD 0)

/-- Far from the ends of the range nothing wraps. -/
theorem capLeft_eq {cap : UInt32} {baseline : Option Nat} {net : Int} {pooled : Nat}
    (hbaseline : ∀ n ∈ baseline, n ≤ 2 ^ 61) (hlo : -2 ^ 61 ≤ net) (hhi : net ≤ 2 ^ 61)
    (hpooled : pooled ≤ 2 ^ 61) :
    capLeft cap baseline net pooled = allowance cap baseline + net - pooled := by
  have hcap : cap.toNat < 2 ^ 32 := cap.toNat_lt
  have hbase : max (cap.toNat * 60 : Int) ((baseline.map asI64).getD i64Min) =
      allowance cap baseline := by
    cases baseline with
    | none =>
      simp only [Option.map_none, Option.getD_none, allowance, i64Min]
      omega
    | some n =>
      have hn := hbaseline n rfl
      rw [Option.map_some, Option.getD_some, asI64_of_lt (by omega), allowance, Option.getD_some]
  have hrange : 0 ≤ allowance cap baseline ∧ allowance cap baseline ≤ 2 ^ 61 := by
    unfold allowance
    cases baseline with
    | none =>
      rw [Option.getD_none]
      omega
    | some n =>
      have hn := hbaseline n rfl
      rw [Option.getD_some]
      omega
  have hsum : wrapI64 (allowance cap baseline + net) = allowance cap baseline + net :=
    wrapI64_of_mem (by omega) (by omega)
  rw [capLeft, hbase, hsum, asI64_of_lt (by omega), wrapI64_of_mem (by omega) (by omega)]

/-- The smaller of two remainders. -/
def binding : Option Int × Option Int → Option Int
  | (none, none) => none
  | (some d, some w) => some (min d w)
  | (some d, none) => some d
  | (none, some w) => some w

/-- What is left of the allowance. -/
inductive QuotaStatus
  | unbounded
  | remaining (secs : Nat)
deriving DecidableEq

namespace GrantBudget
variable (b : GrantBudget)

/-- `quota_parts_signed_pooled`. -/
def quotaParts (cal : Calendar) (usage : UsageLedger) (consolidated : Option ConsolidatedUsage)
    (now : Int) (net : Int) (baseline : Option (Nat × Nat)) : Option Int × Option Int :=
  if !b.isSupportedVersion then (some 0, some 0)
  else if b.revoked = some true then (none, none)
  else if b.paused = some true then (some 0, some 0)
  else
    let pooled := usage.pooledUsed cal consolidated now
    (b.dailyMinutes.map fun cap => capLeft cap (baseline.map Prod.fst) net pooled.1,
      b.weeklyMinutes.map fun cap => capLeft cap (baseline.map Prod.snd) net pooled.2)

/-- `quota_left_signed_pooled`. -/
def quotaLeftSigned (cal : Calendar) (usage : UsageLedger)
    (consolidated : Option ConsolidatedUsage) (now : Int) (net : Int)
    (baseline : Option (Nat × Nat)) : Option Int :=
  binding (b.quotaParts cal usage consolidated now net baseline)

/-- `quota_left_pooled`. -/
def quotaLeft (cal : Calendar) (usage : UsageLedger) (consolidated : Option ConsolidatedUsage)
    (now : Int) : QuotaStatus :=
  match b.quotaLeftSigned cal usage consolidated now 0 none with
  | none => .unbounded
  | some r => .remaining (max r 0).toNat

/-- A budget in a version not implemented here, or paused, has nothing left. -/
def Spent : Prop := b.isSupportedVersion = false ∨ b.revoked ≠ some true ∧ b.paused = some true

theorem quotaParts_spent (h : b.Spent) (cal : Calendar) (usage : UsageLedger)
    (consolidated : Option ConsolidatedUsage) (now net : Int) (baseline : Option (Nat × Nat)) :
    b.quotaParts cal usage consolidated now net baseline = (some 0, some 0) := by
  unfold quotaParts
  rcases h with hv | ⟨hrevoked, hpaused⟩
  · rw [hv]
    rfl
  · rw [if_neg hrevoked, if_pos hpaused, ite_self]

/-- **A budget is of one of three kinds**, whatever was used or granted: spent, lifted, or
drawn down cap by cap. -/
theorem quotaParts_cases (cal : Calendar) :
    (∀ usage c now net base, b.quotaParts cal usage c now net base = (some 0, some 0)) ∨
      (∀ usage c now net base, b.quotaParts cal usage c now net base = (none, none)) ∨
      ∀ usage c now net base, b.quotaParts cal usage c now net base =
        (b.dailyMinutes.map fun cap =>
            capLeft cap (base.map Prod.fst) net (usage.pooledToday cal c now),
          b.weeklyMinutes.map fun cap =>
            capLeft cap (base.map Prod.snd) net (usage.pooledWeek cal c now)) := by
  by_cases hv : b.isSupportedVersion
  · by_cases hrevoked : b.revoked = some true
    · right
      left
      intros
      rw [quotaParts, hv, if_pos hrevoked]
      rfl
    by_cases hpaused : b.paused = some true
    · left
      intros
      exact b.quotaParts_spent (Or.inr ⟨hrevoked, hpaused⟩) ..
    · right
      right
      intros
      rw [quotaParts, hv, if_neg hrevoked, if_neg hpaused]
      rfl
  · left
    intros
    exact b.quotaParts_spent (Or.inl (Bool.eq_false_of_not_eq_true hv)) ..

end GrantBudget

theorem ofLeft_binding (p : Option Int × Option Int) :
    Countdown.ofLeft (binding p) = min (Countdown.ofLeft p.1) (Countdown.ofLeft p.2) := by
  rcases p with ⟨_ | d, _ | w⟩
  · exact (min_self _).symm
  · exact (min_top_left _).symm
  · exact (min_top_right _).symm
  · exact Countdown.ofLeft_min d w

end Kintrinsic
