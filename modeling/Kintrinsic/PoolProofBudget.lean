import Kintrinsic.TimesLocks

/-! # The budgets that no pool lifts

The routing of times asks the clause and the flag of unsaved usage whether a budget is one that no
pool lifts.  The core is asked the same by its budget axis, over ledgers of any contents. -/
namespace Kintrinsic

/-! ## Budgets that are not spent -/

namespace GrantBudget
variable (cal : Calendar) (b : GrantBudget)

/-- A minute granted, to a child who has used nothing. -/
def minuteGranted (now : Int) : ExtensionLedger :=
  ((ExtensionLedger.new cal.zones b.tz now).apply cal.zones now "minute" 1 .budget).2

theorem minuteGranted_eq (now : Int) :
    b.minuteGranted cal now = { ExtensionLedger.new cal.zones b.tz now with
      applied := ["minute"], budgetSecs := 60 } := by
  have hnow : (ExtensionLedger.new cal.zones b.tz now).roll cal.zones now =
      ExtensionLedger.new cal.zones b.tz now := if_pos rfl
  unfold minuteGranted ExtensionLedger.apply ExtensionLedger.once
  rw [hnow]
  rfl

/-- The net of a day's grants is that minute. -/
theorem budgetNet_minuteGranted (inp : EnforcerInputs)
    (h : inp.extension = b.minuteGranted cal inp.nowUnix) : inp.budgetNet cal = 60 := by
  have hfresh : (b.minuteGranted cal inp.nowUnix).stale cal.zones inp.nowUnix = false := by
    rw [minuteGranted_eq]
    exact decide_eq_false (not_not.mpr rfl)
  unfold EnforcerInputs.budgetNet ExtensionLedger.budgetExtraSecs
    ExtensionLedger.budgetDeductedSecs
  rw [h, hfresh, minuteGranted_eq]
  show MachineWord.wrapI64 (MachineWord.asI64 60 - MachineWord.asI64 0) = 60
  decide +kernel

theorem baseline_minuteGranted (now : Int) :
    (b.minuteGranted cal now).budgetBaselineSecs cal.zones now = none := by
  unfold ExtensionLedger.budgetBaselineSecs
  rw [minuteGranted_eq]
  split <;> rfl

/-- Nothing is pooled of a fresh ledger. -/
theorem pooledUsed_new (weekStart : WeekStart) (now : Int) :
    (UsageLedger.new cal b.tz weekStart now).pooledUsed cal none now = (0, 0) := by
  have htoday : (UsageLedger.new cal b.tz weekStart now).usedToday cal now = 0 := by
    unfold UsageLedger.usedToday
    split <;> rfl
  have hweek : (UsageLedger.new cal b.tz weekStart now).usedWeek cal now = 0 := by
    unfold UsageLedger.usedWeek
    split <;> rfl
  exact Prod.ext htoday hweek

/-- A cap with nothing used and a minute granted is not used up. -/
theorem capLeft_minute (cap : UInt32) : 0 < capLeft cap none 60 0 := by
  rw [capLeft_eq (by simp) (by decide) (by decide) (by decide)]
  unfold allowance
  rw [Option.getD_none]
  omega

/-- A budget with something left of every cap it has is not used up. -/
theorem clampLeft_ne_zero {parts : Option Int × Option Int} (hday : ∀ d ∈ parts.1, 0 < d)
    (hweek : ∀ w ∈ parts.2, 0 < w) : EnforcerInputs.clampLeft (binding parts) ≠ 0 := by
  obtain ⟨_ | d, _ | w⟩ := parts
  · decide
  · have hw := hweek w rfl
    show max w 0 ≠ 0
    omega
  · have hd := hday d rfl
    show max d 0 ≠ 0
    omega
  · have hd := hday d rfl
    have hw := hweek w rfl
    show max (min d w) 0 ≠ 0
    omega

variable {b}

/-- **A budget that is not spent leaves something**, to a child who has used nothing and is granted a
minute. -/
theorem budgetSecs_minuteGranted (hb : ¬b.Spent) (inp : EnforcerInputs) {weekStart : WeekStart}
    (hbudget : inp.budget = some b) (husage : inp.usage = .new cal b.tz weekStart inp.nowUnix)
    (hext : inp.extension = b.minuteGranted cal inp.nowUnix) (hview : inp.consolidated = none) :
    inp.budgetSecs cal ≠ 0 := by
  unfold Spent at hb
  rw [not_or] at hb
  obtain ⟨hversion, hpaused⟩ := hb
  have hversion : b.isSupportedVersion = true := by simpa using hversion
  unfold EnforcerInputs.budgetSecs EnforcerInputs.budgetParts
  rw [hbudget]
  dsimp only
  rw [budgetNet_minuteGranted cal b inp hext, husage, hext, baseline_minuteGranted, hview]
  unfold quotaParts
  rw [pooledUsed_new]
  rw [hversion]
  split_ifs with hnever hrevoked hpause
  · cases hnever
  · decide
  · exact absurd ⟨hrevoked, hpause⟩ hpaused
  · refine clampLeft_ne_zero ?_ ?_
    · rintro d hd
      obtain ⟨cap, -, rfl⟩ := Option.map_eq_some_iff.mp hd
      exact capLeft_minute cap
    · rintro w hw
      obtain ⟨cap, -, rfl⟩ := Option.map_eq_some_iff.mp hw
      exact capLeft_minute cap

end GrantBudget

/-- **A budget clause is spent exactly when the core has nothing left of it**, whatever is in the
ledgers. -/
theorem GrantBudget.spent_iff (cal : Calendar) (b : GrantBudget) (schedule : Option GrantSchedule)
    (standDown : Option StandDown) :
    b.Spent ↔ ∀ usage extension consolidated now,
      (⟨now, schedule, some b, usage, extension, consolidated, standDown⟩ :
        EnforcerInputs).budgetSecs cal = 0 := by
  constructor
  · intro hspent usage extension consolidated now
    unfold EnforcerInputs.budgetSecs EnforcerInputs.budgetParts
    dsimp only
    rw [b.quotaParts_spent hspent]
    rfl
  · intro hall
    by_contra hspent
    exact @budgetSecs_minuteGranted cal _ hspent
      ⟨0, schedule, some b, .new cal b.tz .mon 0, b.minuteGranted cal 0, none, standDown⟩
      .mon rfl rfl rfl rfl (hall _ _ _ _)

/-! ## The clause and the flag -/

namespace MultiChildEnforcer
variable (cal : Calendar) (m : MultiChildEnforcer)

/-- A child that is given a policy, and whether its usage is unsaved. -/
def given (deviceTz : String) (since : Int) (restore : Restore) (uid : UInt32)
    (policy : EffectivePolicy) (unsaved : Bool) : MultiChildEnforcer :=
  (syncOne cal deviceTz since restore m (uid, policy)).setUsageUnsaved uid unsaved

/-- Ledgers and a view of any contents. -/
def withLedgers (uid : UInt32) (usage : UsageLedger) (extension : ExtensionLedger)
    (consolidated : Option ConsolidatedUsage) : MultiChildEnforcer :=
  m.modify uid fun c =>
    { c with usage := usage, extension := extension, consolidated := consolidated }

/-- A sync gives a child the policy's budget, in a zone that is resolved. -/
theorem synced_budget (deviceTz : String) (since : Int)
    (snap : Option UsageLedger × Option ExtensionLedger) (policy : EffectivePolicy)
    (known : Option ChildEnforcer) :
    ∃ tz, (ChildEnforcer.synced cal deviceTz since snap policy known).budget =
      (withResolvedTz policy tz).budget := by
  cases known with
  | none => exact ⟨_, rfl⟩
  | some c => exact ⟨_, rfl⟩

/-- The child that is then judged. -/
theorem given_spec (deviceTz : String) (since : Int) (restore : Restore) (uid : UInt32)
    (policy : EffectivePolicy) (unsaved : Bool) :
    ∃ c tz, (m.given cal deviceTz since restore uid policy unsaved).children uid = some c ∧
      c.budget = (withResolvedTz policy tz).budget ∧
      c.unsavedBudget =
        if unsaved && c.budget.isSome then some (failSafeBudget c.tz) else none := by
  obtain ⟨tz, htz⟩ := synced_budget cal deviceTz since (restore uid) policy (m.children uid)
  unfold given setUsageUnsaved modify
  dsimp only
  rw [if_pos rfl, syncOne_children, if_pos rfl, Option.map_some]
  exact ⟨_, tz, rfl, htz, rfl⟩

/-- What the child is judged by: nothing without a budget, the stand-in while its usage is unsaved,
and the clause otherwise. -/
theorem quotaBudget_given {c : ChildEnforcer} {tz : String} {policy : EffectivePolicy}
    {unsaved : Bool} (hbudget : c.budget = (withResolvedTz policy tz).budget)
    (hunsaved : c.unsavedBudget =
      if unsaved && c.budget.isSome then some (failSafeBudget c.tz) else none) :
    match policy.budget with
    | none => c.quotaBudget = none
    | some b => ∃ q, c.quotaBudget = some q ∧ (q.Spent ↔ b.Spent ∨ unsaved = true) := by
  unfold withResolvedTz at hbudget
  dsimp only at hbudget
  unfold ChildEnforcer.quotaBudget
  rw [hunsaved, hbudget]
  cases policy.budget with
  | none => rfl
  | some b =>
    dsimp only [Option.map_some, Option.isSome_some, Option.bind_some]
    cases unsaved with
    | true =>
      exact ⟨_, rfl, iff_of_true (failSafeBudget_spent c.tz) (.inr rfl)⟩
    | false =>
      refine ⟨_, rfl, ?_⟩
      rw [or_iff_left Bool.false_ne_true]
      split <;> rfl

/-- **The budget that no pool lifts is the one with nothing left of it**: the clause and the flag
answer that it is exactly when the core's budget axis is 0 whatever the ledgers hold, whatever the
other devices used and whenever it is asked.  The flag is up as it was set, where there is a budget
at all. -/
theorem budgetPoolProof_iff_spent (cal : Calendar) (m : MultiChildEnforcer) (deviceTz : String)
    (since : Int) (restore : Restore) (uid : UInt32) (policy : EffectivePolicy) (unsaved : Bool) :
    let given := m.given cal deviceTz since restore uid policy unsaved
    given.usageUnsaved uid = (policy.budget.isSome && unsaved) ∧
      (TimesRouting.budgetPoolProof policy.budget (given.usageUnsaved uid) = true ↔
        ∀ usage extension consolidated now,
          ((given.withLedgers uid usage extension consolidated).remaining cal uid now).map
            Remaining.budgetSecs = some 0) := by
  intro given
  obtain ⟨c, tz, hc, hbudget, hunsaved⟩ :=
    given_spec cal m deviceTz since restore uid policy unsaved
  have hsome : c.budget.isSome = policy.budget.isSome := by
    rw [hbudget]
    exact Option.isSome_map
  have hflag : given.usageUnsaved uid = (policy.budget.isSome && unsaved) := by
    unfold usageUnsaved
    rw [hc, Option.any_some, hunsaved, hsome]
    cases policy.budget <;> cases unsaved <;> rfl
  have hremaining : ∀ usage extension consolidated now,
      ((given.withLedgers uid usage extension consolidated).remaining cal uid now).map
        Remaining.budgetSecs = some ((⟨now, c.schedule, c.quotaBudget, usage, extension,
          consolidated, c.standDown⟩ : EnforcerInputs).budgetSecs cal) := by
    intro usage extension consolidated now
    unfold remaining withLedgers modify
    dsimp only
    rw [if_pos rfl, hc]
    rfl
  refine ⟨hflag, ?_⟩
  rw [TimesRouting.Look.budgetPoolProof_iff, hflag]
  simp only [hremaining, Option.some.injEq]
  have hquota := quotaBudget_given hbudget hunsaved
  cases hb : policy.budget with
  | none =>
    rw [hb] at hquota
    rw [hquota]
    refine iff_of_false (by simp) fun hall => ?_
    have hzero := hall (.new cal "" .mon 0) (.new cal.zones "" 0) none 0
    cases hzero
  | some b =>
    rw [hb] at hquota
    obtain ⟨q, hq, hspent⟩ := hquota
    rw [hq, ← q.spent_iff cal c.schedule c.standDown, hspent]
    simp

end MultiChildEnforcer

end Kintrinsic
