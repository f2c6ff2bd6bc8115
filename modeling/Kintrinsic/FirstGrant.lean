import Kintrinsic.ExtensionRuns
import Kintrinsic.MultiChild
import Kintrinsic.RemainingLaws

/-! # The first budget grant of a day

A grant of budget time notes where the child's own use stood, so that a grant to an overdrawn ward
buys its minutes.  What draws the cap down is the use of all the child's devices: the note covers
the debt only as far as it is this device's. -/
namespace Kintrinsic

open MachineWord

/-! ## One cap after the grant -/

/-- The cap, or this device's own use where that is more, covers the pooled use, and the sum stays
in range. -/
structure GrantReaches (cap : UInt32) (used pooled net : Nat) : Prop where
  covered : asI64 pooled ≤ max (cap.toNat * 60 : Int) (asI64 used)
  inRange : max (cap.toNat * 60 : Int) (asI64 used) + net - asI64 pooled < 2 ^ 63

theorem asI64_mem (n : Nat) : -2 ^ 63 ≤ asI64 n ∧ asI64 n < 2 ^ 63 := by
  unfold asI64 wrapI64
  have hlo := Int.le_bmod (x := (n : Int)) (m := 2 ^ 64) (by decide)
  have hhi := Int.bmod_lt (x := (n : Int)) (m := 2 ^ 64) (by decide)
  omega

/-- Of two wrapped steps only the last shows. -/
theorem wrapI64_sub (a b : Int) : wrapI64 (wrapI64 a - b) = wrapI64 (a - b) := by
  simp only [wrapI64]
  exact Int.bmod_sub_bmod

/-- **What is left of a cap** whose allowance was raised by `net` when the debt stood at the
device's own use. -/
theorem capLeft_ge_iff {cap : UInt32} {used pooled net : Nat} (hnet : net < 2 ^ 32) :
    (net : Int) ≤ capLeft cap (some used) net pooled ↔ GrantReaches cap used pooled net := by
  have hcap : cap.toNat < 2 ^ 32 := cap.toNat_lt
  obtain ⟨huLo, huHi⟩ := asI64_mem used
  obtain ⟨hpLo, hpHi⟩ := asI64_mem pooled
  have hleft : capLeft cap (some used) net pooled =
      wrapI64 (max (cap.toNat * 60 : Int) (asI64 used) + net - asI64 pooled) := by
    rw [capLeft, Option.map_some, Option.getD_some, wrapI64_sub]
  have hiff : GrantReaches cap used pooled net ↔
      asI64 pooled ≤ max (cap.toNat * 60 : Int) (asI64 used) ∧
        max (cap.toNat * 60 : Int) (asI64 used) + net - asI64 pooled < 2 ^ 63 :=
    ⟨fun h => ⟨h.covered, h.inRange⟩, fun h => ⟨h.1, h.2⟩⟩
  have hbase : 0 ≤ max (cap.toNat * 60 : Int) (asI64 used) ∧
      max (cap.toNat * 60 : Int) (asI64 used) < 2 ^ 63 := by omega
  rw [hleft, hiff]
  generalize max (cap.toNat * 60 : Int) (asI64 used) = base at hbase ⊢
  generalize asI64 pooled = p at hpLo hpHi ⊢
  by_cases hrange : base + net - p < 2 ^ 63
  · rw [wrapI64_of_mem (by omega) hrange]
    omega
  · -- past the range the sum comes out negative
    have hwrap : wrapI64 (base + net - p) = base + net - p - 2 ^ 64 := by
      have hsame : wrapI64 (base + net - p) = wrapI64 (base + net - p - 2 ^ 64) := by
        simp only [wrapI64]
        exact (Int.sub_bmod_right _ (2 ^ 64)).symm
      rw [hsame, wrapI64_of_mem (by omega) (by omega)]
    omega

/-! ## The grant -/

/-- No budget time was given or taken back today, and the id is a new one. -/
structure ExtensionLedger.FirstToday (zones : Zones) (l : ExtensionLedger) (now : Int)
    (reqId : String) : Prop where
  newId : reqId ∉ (l.roll zones now).applied
  given : (l.roll zones now).budgetSecs = 0
  taken : (l.roll zones now).budgetDeductSecs = 0
  noFloor : (l.roll zones now).budgetBaselineTodaySecs = none

namespace ExtensionLedger.FirstToday
variable {zones : Zones} {l : ExtensionLedger} {now : Int} {reqId : String} {minutes : UInt16}

/-- The pools of the day after its first grant of budget time. -/
def granted (l : ExtensionLedger) (reqId : String) (minutes : UInt16) : ExtensionLedger :=
  { l with applied := l.applied ++ [reqId], budgetSecs := minutes.toNat * 60 }

/-- The same with the floor noted. -/
def noted (l : ExtensionLedger) (today week : Nat) : ExtensionLedger :=
  { l with budgetBaselineTodaySecs := some today, budgetBaselineWeekSecs := some week }

theorem apply_eq (h : l.FirstToday zones now reqId) (minutes : UInt16) :
    l.apply zones now reqId minutes.toNat .budget =
      (true, granted (l.roll zones now) reqId minutes) := by
  have hminutes : minutes.toNat < 2 ^ 16 := minutes.toNat_lt
  obtain ⟨hnew, hgiven, -, -⟩ := h
  unfold ExtensionLedger.apply once
  dsimp only
  generalize l.roll zones now = day at hnew hgiven ⊢
  rw [if_neg hnew, hgiven, Nat.zero_add, secsOf, wrapU64_of_lt (by omega)]
  rfl

/-- The floor of the day is noted once, in the day's own ledger. -/
theorem note_today (h : l.FirstToday zones now reqId) (today week : Nat) :
    ((granted (l.roll zones now) reqId minutes).noteBudgetBaseline zones now today week).today
        zones now =
      { (l.roll zones now).held with
        budgetExtra := minutes.toNat * 60
        baseline := some (today, week) } := by
  have hcurrent : (l.roll zones now).dayKeyAt zones now = (l.roll zones now).dayKey :=
    roll_current_day
  have hnone := h.noFloor
  generalize l.roll zones now = day at hcurrent hnone ⊢
  have hday : (granted day reqId minutes).dayKeyAt zones now = (granted day reqId minutes).dayKey :=
    current_of_credited hcurrent rfl rfl
  have hnote : (granted day reqId minutes).noteBudgetBaseline zones now today week =
      noted (granted day reqId minutes) today week := by
    have hfloor : (granted day reqId minutes).budgetBaselineTodaySecs = none := hnone
    unfold noteBudgetBaseline
    rw [roll_of_current hday]
    dsimp only
    rw [hfloor, Option.isNone_none, if_pos rfl]
    rfl
  have hheld : (noted (granted day reqId minutes) today week).today zones now =
      (noted (granted day reqId minutes) today week).held :=
    today_of_credited hday rfl rfl
  rw [hnote, hheld]
  rfl

end ExtensionLedger.FirstToday

/-- The caps of a budget in force, where `net` seconds were given over a floor. -/
theorem EnforcerInputs.budgetParts_of_floor {cal : Calendar} {inp : EnforcerInputs}
    {b : GrantBudget} {net today week : Nat} (hbudget : inp.budget = some b)
    (hversion : b.isSupportedVersion = true) (hrevoked : b.revoked ≠ some true)
    (hpaused : b.paused ≠ some true)
    (hextra : inp.extension.budgetExtraSecs cal.zones inp.nowUnix = net)
    (hdeducted : inp.extension.budgetDeductedSecs cal.zones inp.nowUnix = 0)
    (hfloor : inp.extension.budgetBaselineSecs cal.zones inp.nowUnix = some (today, week))
    (hnet : net < 2 ^ 63) :
    inp.budgetParts cal =
      (b.dailyMinutes.map fun cap => capLeft cap (some today) net
          (inp.usage.pooledToday cal inp.consolidated inp.nowUnix),
        b.weeklyMinutes.map fun cap => capLeft cap (some week) net
          (inp.usage.pooledWeek cal inp.consolidated inp.nowUnix)) := by
  have hmoved : inp.budgetNet cal = net := by
    unfold budgetNet
    rw [hextra, hdeducted, asI64_of_lt hnet, asI64_of_lt (by decide),
      wrapI64_of_mem (by omega) (by omega)]
    omega
  unfold budgetParts
  rw [hbudget, hfloor, hmoved]
  dsimp only
  rw [GrantBudget.quotaParts, hversion, Bool.not_true, if_neg Bool.false_ne_true, if_neg hrevoked,
    if_neg hpaused]
  rfl

namespace ChildEnforcer
variable {cal : Calendar} {c : ChildEnforcer} {now : Int} {reqId : String}

/-- **What the first grant leaves** of today's budget time: its own minutes, over a floor at this
device's own use. -/
theorem applyExtension_first (h : c.extension.FirstToday cal.zones now reqId) (minutes : UInt16) :
    ((c.applyExtension cal now reqId minutes.toNat .budget).2.extension).today cal.zones now =
      { (c.extension.roll cal.zones now).held with
        budgetExtra := minutes.toNat * 60
        baseline := some (c.usage.usedToday cal now, c.usage.usedWeek cal now) } := by
  have happly := h.apply_eq minutes
  have hchild : (c.applyExtension cal now reqId minutes.toNat .budget).2.extension =
      (ExtensionLedger.FirstToday.granted (c.extension.roll cal.zones now) reqId
        minutes).noteBudgetBaseline cal.zones now (c.usage.usedToday cal now)
          (c.usage.usedWeek cal now) := by
    unfold applyExtension adjustExtension
    dsimp only
    rw [happly]
    rfl
  rw [hchild, h.note_today]

/-- A change of the extension ledger changes nothing else that a tick reads. -/
theorem adjustExtension_inputs (c : ChildEnforcer) (now : Int)
    (f : ExtensionLedger → Bool × ExtensionLedger) :
    (c.adjustExtension f).2.inputs now =
      { c.inputs now with extension := (c.adjustExtension f).2.extension } := rfl

/-- The budget's caps after the first grant. -/
theorem budgetParts_first (h : c.extension.FirstToday cal.zones now reqId) (minutes : UInt16)
    {b : GrantBudget} (hbudget : c.quotaBudget = some b) (hversion : b.isSupportedVersion = true)
    (hrevoked : b.revoked ≠ some true) (hpaused : b.paused ≠ some true) :
    ((c.applyExtension cal now reqId minutes.toNat .budget).2.inputs now).budgetParts cal =
      (b.dailyMinutes.map fun cap => capLeft cap (some (c.usage.usedToday cal now))
          (minutes.toNat * 60 : Nat) (c.usage.pooledToday cal c.consolidated now),
        b.weeklyMinutes.map fun cap => capLeft cap (some (c.usage.usedWeek cal now))
          (minutes.toNat * 60 : Nat) (c.usage.pooledWeek cal c.consolidated now)) := by
  have hminutes : minutes.toNat < 2 ^ 16 := minutes.toNat_lt
  have hfirst := applyExtension_first h minutes
  have hinputs : (c.applyExtension cal now reqId minutes.toNat .budget).2.inputs now =
      { c.inputs now with
        extension := (c.applyExtension cal now reqId minutes.toNat .budget).2.extension } :=
    adjustExtension_inputs ..
  rw [hinputs]
  generalize (c.applyExtension cal now reqId minutes.toNat .budget).2.extension = l at hfirst ⊢
  have hparts := @EnforcerInputs.budgetParts_of_floor cal { c.inputs now with extension := l } b
    (minutes.toNat * 60) (c.usage.usedToday cal now) (c.usage.usedWeek cal now) hbudget hversion
    hrevoked hpaused (congrArg ExtensionLedger.TodayPools.budgetExtra hfirst)
    ((congrArg ExtensionLedger.TodayPools.budgetDeducted hfirst).trans h.taken)
    (congrArg ExtensionLedger.TodayPools.baseline hfirst) (by omega)
  exact hparts

end ChildEnforcer

/-! ## What it buys -/

/-- Some cap holds a child that is locked on the budget. -/
theorem EnforcerInputs.cap_of_reason {cal : Calendar} {inp : EnforcerInputs}
    (h : (computeRemaining cal inp).reason = some .budget) :
    binding (inp.budgetParts cal) ≠ none := by
  intro hnone
  have hbudget : inp.budgetSecs cal = -1 := by
    unfold budgetSecs
    rw [hnone]
    rfl
  unfold computeRemaining at h
  dsimp only at h
  rw [hbudget] at h
  split at h
  · rename_i heffective
    have hreason := Option.some.inj h
    unfold lockReason at hreason
    split at hreason
    · cases hreason
    split at hreason
    · cases hreason
    rename_i hlanded
    split at hreason
    · cases hreason
    rename_i hschedule
    -- nothing but the schedule or the stand-down is left to lock
    have hcharter : minUnbounded (inp.scheduleSecs cal) (-1) ≠ 0 := by
      unfold minUnbounded
      split <;> split <;> omega
    cases hsd : inp.standDown with
    | none =>
      rw [hsd] at heffective
      exact hcharter heffective
    | some sd =>
      rw [hsd] at heffective hlanded
      simp only [Option.map_some, Option.getD_some, StandDown.hasLanded, StandDown.over,
        decide_eq_true_iff] at heffective hlanded
      split at heffective <;> omega
  · cases h

theorem le_clampLeft_iff {n : Nat} (hn : 0 < n) (p : Option Int × Option Int) :
    (n : Int) ≤ EnforcerInputs.clampLeft (binding p) ↔
      binding p ≠ none ∧ (∀ d ∈ p.1, (n : Int) ≤ d) ∧ ∀ w ∈ p.2, (n : Int) ≤ w := by
  rcases p with ⟨_ | d, _ | w⟩
  · simp [binding, EnforcerInputs.clampLeft]
    omega
  · simp [binding, EnforcerInputs.clampLeft]
    omega
  · simp [binding, EnforcerInputs.clampLeft]
    omega
  · simp [binding, EnforcerInputs.clampLeft]
    omega

/-- Two caps bind where one of them is set. -/
theorem binding_map_ne_none {α β : Type} (a : Option α) (b : Option β) (f : α → Int)
    (g : β → Int) : binding (a.map f, b.map g) ≠ none ↔ a ≠ none ∨ b ≠ none := by
  cases a <;> cases b <;> simp [binding]

namespace MultiChildEnforcer
variable {cal : Calendar} {m : MultiChildEnforcer} {uid : UInt32} {c : ChildEnforcer}

/-- A tracked child's breakdown after a grant is that of the child it was given to. -/
theorem remaining_applyExtension (htracked : m.children uid = some c) (now : Int) (reqId : String)
    (minutes : Nat) (dim : Dimension) :
    (m.applyExtension cal uid now reqId minutes dim).2.remaining cal uid now =
      some (computeRemaining cal ((c.applyExtension cal now reqId minutes dim).2.inputs now)) := by
  unfold applyExtension adjust remaining modify
  dsimp only
  rw [if_pos rfl, htracked]
  rfl

/-- **The first budget grant of a day buys its minutes** exactly where the use of all the child's
devices is within the cap, or within this device's own use, on each cap that is set. -/
theorem first_grant_buys_iff (htracked : m.children uid = some c) {b : GrantBudget}
    (hbudget : c.quotaBudget = some b) (hversion : b.isSupportedVersion = true)
    (hrevoked : b.revoked ≠ some true) (hpaused : b.paused ≠ some true) {now : Int}
    (hlocked : (computeRemaining cal (c.inputs now)).reason = some .budget) {reqId : String}
    (hfirst : c.extension.FirstToday cal.zones now reqId) (minutes : UInt16)
    (hminutes : 0 < minutes.toNat) :
    (∃ rem, (m.applyExtension cal uid now reqId minutes.toNat .budget).2.remaining cal uid now =
        some rem ∧ (minutes.toNat * 60 : Nat) ≤ rem.budgetSecs) ↔
      (∀ cap ∈ b.dailyMinutes, GrantReaches cap (c.usage.usedToday cal now)
          (c.usage.pooledToday cal c.consolidated now) (minutes.toNat * 60)) ∧
        ∀ cap ∈ b.weeklyMinutes, GrantReaches cap (c.usage.usedWeek cal now)
          (c.usage.pooledWeek cal c.consolidated now) (minutes.toNat * 60) := by
  have hsmall : minutes.toNat < 2 ^ 16 := minutes.toNat_lt
  have hparts := ChildEnforcer.budgetParts_first hfirst minutes hbudget hversion
    hrevoked hpaused
  -- a child that is locked on the budget has a cap
  have hcap : ¬(b.dailyMinutes = none ∧ b.weeklyMinutes = none) := by
    rintro ⟨hday, hweek⟩
    refine EnforcerInputs.cap_of_reason hlocked ?_
    have hinput : (c.inputs now).budget = some b := hbudget
    unfold EnforcerInputs.budgetParts
    rw [hinput]
    dsimp only
    rw [GrantBudget.quotaParts, hversion, Bool.not_true, if_neg Bool.false_ne_true,
      if_neg hrevoked, if_neg hpaused, hday, hweek]
    rfl
  have hsecs : (∃ rem, (m.applyExtension cal uid now reqId minutes.toNat .budget).2.remaining cal
      uid now = some rem ∧ (minutes.toNat * 60 : Nat) ≤ rem.budgetSecs) ↔
      ((minutes.toNat * 60 : Nat) : Int) ≤ EnforcerInputs.clampLeft (binding
        (((c.applyExtension cal now reqId minutes.toNat .budget).2.inputs now).budgetParts
          cal)) := by
    rw [remaining_applyExtension htracked]
    constructor
    · rintro ⟨rem, hrem, hle⟩
      rw [← Option.some.inj hrem] at hle
      exact hle
    · exact fun hle => ⟨_, rfl, hle⟩
  rw [hsecs, hparts, le_clampLeft_iff (by omega)]
  have hnet : minutes.toNat * 60 < 2 ^ 32 := by omega
  constructor
  · rintro ⟨-, hday, hweek⟩
    constructor
    · intro cap hmem
      exact (capLeft_ge_iff hnet).mp (hday _ (Option.mem_map_of_mem _ hmem))
    · intro cap hmem
      exact (capLeft_ge_iff hnet).mp (hweek _ (Option.mem_map_of_mem _ hmem))
  · rintro ⟨hday, hweek⟩
    refine ⟨(binding_map_ne_none ..).mpr ?_, ?_, ?_⟩
    · by_contra hnone
      rw [not_or, not_not, not_not] at hnone
      exact hcap hnone
    · intro d hd
      obtain ⟨cap, hmem, rfl⟩ := Option.mem_map.mp hd
      exact (capLeft_ge_iff hnet).mpr (hday cap hmem)
    · intro w hw
      obtain ⟨cap, hmem, rfl⟩ := Option.mem_map.mp hw
      exact (capLeft_ge_iff hnet).mpr (hweek cap hmem)

/-- One child, a cap of an hour a day, some use on this device and some elsewhere, at five o'clock on
Monday 2026-06-29. -/
def hourADay (here elsewhere : Nat) : ChildEnforcer :=
  let policy : EffectivePolicy := ⟨none, some (dailyBudget 60), none, .guardian⟩
  let c := ChildEnforcer.new UsageLedger.utcCalendar "UTC" policy 1782752400
  { c with
    usage.day.current.usedTodaySecs := here
    consolidated := some ⟨"2026-06-29", elsewhere, none, none, none⟩ }

def hourADayEnforcer (here elsewhere : Nat) : MultiChildEnforcer :=
  { new with children := fun uid => if uid = 7 then some (hourADay here elsewhere) else none }

/-- An hour and a half on this device: half an hour given is half an hour. -/
theorem first_grant_buys_overdrawn :
    ∃ rem, ((hourADayEnforcer 5400 0).applyExtension UsageLedger.utcCalendar 7 1782752400 "r1" 30
        .budget).2.remaining UsageLedger.utcCalendar 7 1782752400 = some rem ∧
      (1800 : Nat) ≤ rem.budgetSecs := by
  refine (first_grant_buys_iff (c := hourADay 5400 0) (b := dailyBudget 60) rfl rfl rfl (by decide)
    (by decide) (by decide +kernel) ⟨?_, ?_, ?_, ?_⟩ 30 (by decide)).mpr ⟨?_, ?_⟩
  · decide +kernel
  · decide +kernel
  · decide +kernel
  · decide +kernel
  · rintro cap hcap
    obtain rfl : cap = 60 := (Option.some.inj hcap).symm
    refine ⟨?_, ?_⟩ <;> decide +kernel
  · rintro cap ⟨⟩

/-- Half an hour here and two hours elsewhere: half an hour given buys nothing. -/
theorem first_grant_swallowed :
    ((hourADayEnforcer 1800 7200).remaining UsageLedger.utcCalendar 7 1782752400).map
        (·.reason) = some (some .budget) ∧
      (((hourADayEnforcer 1800 7200).applyExtension UsageLedger.utcCalendar 7 1782752400 "r1" 30
        .budget).2.remaining UsageLedger.utcCalendar 7 1782752400).map (·.budgetSecs) =
        some 0 := by
  decide +kernel

end MultiChildEnforcer
end Kintrinsic
