import Kintrinsic.AdjustPair
import Kintrinsic.FirstGrant
import Kintrinsic.PoolRouting
import Kintrinsic.TimesLocks

/-! # A gift to the whole device

A gift that names no bucket and no time goes to one pool, chosen by one lock reason.  It opens the
device where that pool alone holds it: a child outside its hours whose budget is spent as well stays
locked, and so does one whose debt on other devices is larger than the gift. -/
namespace Kintrinsic

open ExtensionLedger MachineWord

/-! ## The pools after a gift -/

namespace ExtensionLedger
variable {zones : Zones} {now : Int}

/-- The floor under the day's caps once budget time is given: the one noted first. -/
def floorWith (l : ExtensionLedger) (used : Nat × Nat) : Option (Nat × Nat) :=
  if l.budgetBaselineTodaySecs.isNone then some used else l.baseline

/-- The pools of the day after a gift to one of its two limits. -/
def giftedPools (l : ExtensionLedger) (dim : Dimension) (secs : Nat) (used : Nat × Nat) :
    TodayPools :=
  match dim with
  | .schedule =>
    { l.held with scheduleExtra := wrapU64 (l.scheduleSecs + secs) - l.scheduleConsumedSecs }
  | .budget =>
    { l.held with
      budgetExtra := wrapU64 (l.budgetSecs + secs)
      baseline := l.floorWith used }

end ExtensionLedger

namespace ChildEnforcer
variable {cal : Calendar} {c : ChildEnforcer} {now : Int} {reqId : String} {minutes : Nat}

/-- The pools of the day after an extension under a new id. -/
theorem today_applied (hnew : reqId ∉ (c.extension.roll cal.zones now).applied)
    (dim : Dimension) :
    ((c.applyExtension cal now reqId minutes dim).2.extension).today cal.zones now =
      (c.extension.roll cal.zones now).giftedPools dim (secsOf minutes)
        (c.usage.usedToday cal now, c.usage.usedWeek cal now) := by
  have hcurrent : (c.extension.roll cal.zones now).dayKeyAt cal.zones now =
      (c.extension.roll cal.zones now).dayKey := roll_current_day
  unfold applyExtension adjustExtension ExtensionLedger.apply once
  dsimp only
  generalize c.extension.roll cal.zones now = r at hnew hcurrent ⊢
  rw [if_neg hnew]
  cases dim with
  | schedule => exact today_of_credited hcurrent rfl rfl
  | budget =>
    have hday : ({ r with
        applied := r.applied ++ [reqId]
        budgetSecs := wrapU64 (r.budgetSecs + secsOf minutes) } : ExtensionLedger).dayKeyAt
          cal.zones now = r.dayKey := hcurrent
    simp only [decide_true, Bool.and_self, if_true]
    unfold noteBudgetBaseline
    rw [roll_of_current hday]
    dsimp only
    unfold giftedPools floorWith
    split
    · exact today_of_credited hcurrent rfl rfl
    · exact today_of_credited hcurrent rfl rfl

/-- Under an id that counts already nothing changes on the day. -/
theorem today_repeated (hold : reqId ∈ (c.extension.roll cal.zones now).applied)
    (dim : Dimension) :
    ((c.applyExtension cal now reqId minutes dim).2.extension).today cal.zones now =
      c.extension.today cal.zones now := by
  have hcurrent : (c.extension.roll cal.zones now).dayKeyAt cal.zones now =
      (c.extension.roll cal.zones now).dayKey := roll_current_day
  rw [today_roll (l := c.extension)]
  unfold applyExtension adjustExtension ExtensionLedger.apply once
  dsimp only
  generalize c.extension.roll cal.zones now = r at hold hcurrent ⊢
  rw [if_pos hold]
  exact today_of_current hcurrent

end ChildEnforcer
/-! ## The axes after a gift -/

namespace EnforcerInputs
variable {cal : Calendar} {inp : EnforcerInputs} {r : ExtensionLedger} {secs : Nat}
  {used : Nat × Nat}

/-- The axes before it, by the pools of the day. -/
theorem axes_held (hroll : inp.extension.roll cal.zones inp.nowUnix = r) :
    inp.scheduleSecs cal = inp.scheduleBy cal r.held ∧
      inp.budgetSecs cal = inp.budgetBy cal r.held :=
  @axes_of_today cal inp inp.extension r.held (by rw [today_roll, hroll])

/-- The schedule axis of a child that the schedule holds, once its pool is given to. -/
theorem scheduleBy_gifted
    (hread : (scheduleBase cal.zones inp.nowUnix inp.schedule).malformed = false)
    (heod : 0 < inp.eod cal) (htaken : r.scheduleDeductSecs = 0)
    (hshut : inp.scheduleBy cal r.held = 0) :
    inp.scheduleBy cal (r.giftedPools .schedule secs used) = 0 ↔
      wrapU64 ((scheduleBase cal.zones inp.nowUnix inp.schedule).secs.toNat +
        (wrapU64 (r.scheduleSecs + secs) - r.scheduleConsumedSecs)) = 0 := by
  unfold scheduleBy scheduleAt ScheduleBase.withPools at hshut ⊢
  rw [hread, if_neg Bool.false_ne_true] at hshut ⊢
  have hbounded : ¬(scheduleBase cal.zones inp.nowUnix inp.schedule).secs < 0 := by
    intro hneg
    rw [if_pos hneg] at hshut
    exact absurd hshut (by decide)
  have hdeducted : (r.giftedPools .schedule secs used).scheduleDeducted = 0 := htaken
  rw [if_neg hbounded, hdeducted]
  show ((min (wrapU64 ((scheduleBase cal.zones inp.nowUnix inp.schedule).secs.toNat +
    (wrapU64 (r.scheduleSecs + secs) - r.scheduleConsumedSecs)) - 0) (inp.eod cal) : Nat) : Int) =
      0 ↔ _
  generalize wrapU64 ((scheduleBase cal.zones inp.nowUnix inp.schedule).secs.toNat +
    (wrapU64 (r.scheduleSecs + secs) - r.scheduleConsumedSecs)) = n
  omega

/-- The budget axis of a child that its budget holds, once its pool is given to. -/
theorem budgetBy_gifted {b : GrantBudget} (hbudget : inp.budget = some b)
    (hversion : b.isSupportedVersion = true) (hpaused : b.paused ≠ some true)
    (htaken : r.budgetDeductSecs = 0) (hspent : inp.budgetBy cal r.held = 0) :
    inp.budgetBy cal (r.giftedPools .budget secs used) ≠ 0 ↔
      (∀ cap ∈ b.dailyMinutes, 0 < capLeft cap ((r.floorWith used).map Prod.fst)
          (asI64 (wrapU64 (r.budgetSecs + secs)))
          (inp.usage.pooledToday cal inp.consolidated inp.nowUnix)) ∧
        ∀ cap ∈ b.weeklyMinutes, 0 < capLeft cap ((r.floorWith used).map Prod.snd)
          (asI64 (wrapU64 (r.budgetSecs + secs)))
          (inp.usage.pooledWeek cal inp.consolidated inp.nowUnix) := by
  have hrevoked : b.revoked ≠ some true := by
    intro hrev
    unfold budgetBy budgetAt at hspent
    rw [hbudget] at hspent
    dsimp only at hspent
    rw [GrantBudget.quotaParts, hversion, Bool.not_true, if_neg Bool.false_ne_true,
      if_pos hrev] at hspent
    cases hspent
  have hparts : ∀ (net : Int) (floor : Option (Nat × Nat)), inp.budgetAt cal net floor =
      clampLeft (binding (b.dailyMinutes.map (fun cap => capLeft cap (floor.map Prod.fst) net
          (inp.usage.pooledToday cal inp.consolidated inp.nowUnix)),
        b.weeklyMinutes.map fun cap => capLeft cap (floor.map Prod.snd) net
          (inp.usage.pooledWeek cal inp.consolidated inp.nowUnix))) := by
    intro net floor
    unfold budgetAt
    rw [hbudget]
    dsimp only
    rw [GrantBudget.quotaParts, hversion, Bool.not_true, if_neg Bool.false_ne_true,
      if_neg hrevoked, if_neg hpaused]
    rfl
  have hnet : wrapI64 (asI64 (r.giftedPools .budget secs used).budgetExtra -
      asI64 (r.giftedPools .budget secs used).budgetDeducted) =
        asI64 (wrapU64 (r.budgetSecs + secs)) := by
    have hdeducted : (r.giftedPools .budget secs used).budgetDeducted = 0 := htaken
    have hzero : asI64 0 = 0 := asI64_of_lt (by decide)
    have hextra : (r.giftedPools .budget secs used).budgetExtra =
      wrapU64 (r.budgetSecs + secs) := rfl
    obtain ⟨hlo, hhi⟩ := asI64_mem (wrapU64 (r.budgetSecs + secs))
    rw [hdeducted, hextra, hzero, Int.sub_zero, wrapI64_of_mem hlo hhi]
  -- it was spent, so it has a cap
  have hcap : b.dailyMinutes ≠ none ∨ b.weeklyMinutes ≠ none := by
    unfold budgetBy at hspent
    rw [hparts] at hspent
    by_contra hnone
    rw [not_or, not_not, not_not] at hnone
    rw [hnone.1, hnone.2] at hspent
    cases hspent
  have hpositive : ∀ parts : Option Int × Option Int, binding parts ≠ none →
      (clampLeft (binding parts) ≠ 0 ↔ (∀ d ∈ parts.1, 0 < d) ∧ ∀ w ∈ parts.2, 0 < w) := by
    intro parts hbound
    have hone := le_clampLeft_iff (n := 1) Nat.one_pos parts
    rw [and_iff_right hbound] at hone
    have hnonneg : 0 ≤ clampLeft (binding parts) := by
      cases hleft : binding parts with
      | none => exact absurd hleft hbound
      | some n => exact le_max_right n 0
    constructor
    · intro hne
      obtain ⟨hd, hw⟩ := hone.mp (by omega)
      exact ⟨fun d hmem => by have := hd d hmem; omega, fun w hmem => by have := hw w hmem; omega⟩
    · rintro ⟨hd, hw⟩
      have hle := hone.mpr ⟨fun d hmem => by have := hd d hmem; omega,
        fun w hmem => by have := hw w hmem; omega⟩
      omega
  have hbaseline : (r.giftedPools .budget secs used).baseline = r.floorWith used := rfl
  unfold budgetBy
  rw [hnet, hbaseline, hparts, hpositive _ ((binding_map_ne_none ..).mpr hcap)]
  simp only [Option.mem_def, Option.map_eq_some_iff, forall_exists_index, and_imp,
    forall_apply_eq_imp_iff₂]

end EnforcerInputs
/-! ## What a gift opens -/

/-- A live gift that names no bucket of the child's and no time. -/
structure WholeDeviceGift (body : GiftBody) (buckets : Option (List String)) (now : Int)
    (minutes : Nat) : Prop where
  due : body.minutesNow (asU64 now) = some minutes
  bucket : Warden.liveBucket body buckets = none
  untyped : body.time = none

/-- A child that its schedule or its budget holds, before the end of the day: both can be read and
are not paused, nothing stands down, and nothing was taken back today. -/
structure HeldByLimits (cal : Calendar) (c : ChildEnforcer) (now : Int) : Prop where
  noStandDown : c.standDown = none
  readable : (scheduleBase cal.zones now c.schedule).malformed = false
  budget : ∀ b ∈ c.quotaBudget, b.isSupportedVersion = true ∧ b.paused ≠ some true
  beforeEnd : 0 < (c.inputs now).eod cal
  scheduleUntaken : (c.extension.roll cal.zones now).scheduleDeductSecs = 0
  budgetUntaken : (c.extension.roll cal.zones now).budgetDeductSecs = 0
  locked : (computeRemaining cal (c.inputs now)).locked = true

/-- A gift that can open the device: its id is new today.  Where the schedule holds the child, the
budget does not, and the schedule's pool is left with something; where the budget alone does, each
cap that is set, or the floor under it, is with all that was given more than the use of all the
child's devices. -/
structure GiftReaches (cal : Calendar) (c : ChildEnforcer) (now : Int) (reqId : String)
    (secs : Nat) : Prop where
  newId : reqId ∉ (c.extension.roll cal.zones now).applied
  schedule : (c.inputs now).scheduleSecs cal = 0 → (c.inputs now).budgetSecs cal ≠ 0 ∧
    wrapU64 ((scheduleBase cal.zones now c.schedule).secs.toNat +
      (wrapU64 ((c.extension.roll cal.zones now).scheduleSecs + secs) -
        (c.extension.roll cal.zones now).scheduleConsumedSecs)) ≠ 0
  budget : (c.inputs now).scheduleSecs cal ≠ 0 → ∀ b ∈ c.quotaBudget,
    (∀ cap ∈ b.dailyMinutes,
      0 < capLeft cap (((c.extension.roll cal.zones now).floorWith
          (c.usage.usedToday cal now, c.usage.usedWeek cal now)).map Prod.fst)
        (asI64 (wrapU64 ((c.extension.roll cal.zones now).budgetSecs + secs)))
        (c.usage.pooledToday cal c.consolidated now)) ∧
    ∀ cap ∈ b.weeklyMinutes,
      0 < capLeft cap (((c.extension.roll cal.zones now).floorWith
          (c.usage.usedToday cal now, c.usage.usedWeek cal now)).map Prod.snd)
        (asI64 (wrapU64 ((c.extension.roll cal.zones now).budgetSecs + secs)))
        (c.usage.pooledWeek cal c.consolidated now)

namespace MultiChildEnforcer
variable {cal : Calendar} {m : MultiChildEnforcer} {uid : UInt32} {c : ChildEnforcer} {now : Int}

/-- The whole-device pool that a lock reason chooses. -/
def giftDimension (reason : Option LockReason) : Dimension :=
  if reason = some .schedule then .schedule else .budget

/-- A gift to the whole device is one extension. -/
theorem landGift_whole (htracked : m.children uid = some c) {body : GiftBody}
    {buckets : Option (List String)} {minutes : Nat}
    (h : WholeDeviceGift body buckets now minutes) :
    m.landGift cal uid now body buckets =
      (m.applyExtension cal uid now (giftReqId body.id) minutes
        (giftDimension (computeRemaining cal (c.inputs now)).reason)).2 := by
  have hreason : (m.remaining cal uid now).bind (·.reason) =
      (computeRemaining cal (c.inputs now)).reason := by
    rw [remaining, htracked]
    rfl
  unfold landGift
  rw [h.due]
  dsimp only
  rw [TrackedWard.giftRoute_eq, hreason]
  unfold TimeDelivery.aim
  dsimp only
  rw [h.bucket, h.untyped]
  rfl

/-- The lock after an extension, by the pools of the day. -/
theorem locked_applied (htracked : m.children uid = some c) (hsd : c.standDown = none)
    {reqId : String} {minutes : Nat} {dim : Dimension} {p : TodayPools}
    (hp : ((c.applyExtension cal now reqId minutes dim).2.extension).today cal.zones now = p) :
    (∃ rem, (m.applyExtension cal uid now reqId minutes dim).2.remaining cal uid now = some rem ∧
        rem.locked = false) ↔
      (c.inputs now).scheduleBy cal p ≠ 0 ∧ (c.inputs now).budgetBy cal p ≠ 0 := by
  rw [remaining_applyExtension htracked]
  have hinputs : (c.applyExtension cal now reqId minutes dim).2.inputs now =
      { c.inputs now with
        extension := (c.applyExtension cal now reqId minutes dim).2.extension } :=
    ChildEnforcer.adjustExtension_inputs ..
  obtain ⟨hschedule, hbudget⟩ := @EnforcerInputs.axes_of_today cal (c.inputs now) _ _ hp
  have hlanded : ((c.applyExtension cal now reqId minutes dim).2.inputs now).landed = false := by
    have hnone : ((c.applyExtension cal now reqId minutes dim).2.inputs now).standDown = none := hsd
    unfold EnforcerInputs.landed
    rw [hnone]
    rfl
  have hlocked := @EnforcerInputs.locked_iff_axes cal
    ((c.applyExtension cal now reqId minutes dim).2.inputs now)
  rw [hlanded, hinputs, hschedule, hbudget] at hlocked
  rw [hinputs]
  constructor
  · rintro ⟨rem, hrem, hopen⟩
    rw [← Option.some.inj hrem, ← Bool.not_eq_true, hlocked] at hopen
    simpa using hopen
  · intro hopen
    refine ⟨_, rfl, ?_⟩
    rw [← Bool.not_eq_true, hlocked]
    simpa using hopen

/-- **A gift to the whole device opens it** exactly where it reaches what holds the child. -/
theorem gift_opens_iff (htracked : m.children uid = some c) (h : HeldByLimits cal c now)
    {body : GiftBody} {buckets : Option (List String)} {minutes : Nat}
    (hgift : WholeDeviceGift body buckets now minutes) :
    (∃ rem, (m.landGift cal uid now body buckets).remaining cal uid now = some rem ∧
        rem.locked = false) ↔
      GiftReaches cal c now (giftReqId body.id) (minutes * 60) := by
  obtain ⟨hsd, hread, hbudget, heod, hschedTaken, hbudTaken, hlocked⟩ := h
  have hnotLanded : (c.inputs now).landed = false := by
    have hnone : (c.inputs now).standDown = none := hsd
    unfold EnforcerInputs.landed
    rw [hnone]
    rfl
  have haxes := EnforcerInputs.locked_iff_axes.mp hlocked
  rw [hnotLanded] at haxes
  obtain ⟨hsched, hbud⟩ :=
    @EnforcerInputs.axes_held cal (c.inputs now) (c.extension.roll cal.zones now) rfl
  have hreason : giftDimension (computeRemaining cal (c.inputs now)).reason =
      if (c.inputs now).scheduleSecs cal = 0 then .schedule else .budget := by
    have hreadInputs : (scheduleBase cal.zones (c.inputs now).nowUnix
      (c.inputs now).schedule).malformed = false := hread
    rw [EnforcerInputs.reason_eq, if_pos hlocked, hreadInputs, hnotLanded]
    unfold lockReason giftDimension
    rw [if_neg Bool.false_ne_true, if_neg Bool.false_ne_true]
    by_cases hzero : (c.inputs now).scheduleSecs cal = 0
    · rw [if_pos hzero, if_pos hzero, if_pos rfl]
    · rw [if_neg hzero, if_neg hzero, if_neg (by decide)]
  rw [landGift_whole htracked hgift, hreason]
  by_cases hnew : giftReqId body.id ∈ (c.extension.roll cal.zones now).applied
  · -- an id that counts already changes nothing
    rw [locked_applied htracked hsd (ChildEnforcer.today_repeated hnew _), today_roll]
    have hstill := haxes.resolve_left Bool.false_ne_true
    rw [hsched, hbud] at hstill
    refine iff_of_false (fun hopen => ?_) fun hreach => hreach.newId hnew
    exact hstill.elim hopen.1 hopen.2
  rw [locked_applied htracked hsd (ChildEnforcer.today_applied hnew _)]
  by_cases hzero : (c.inputs now).scheduleSecs cal = 0
  · -- outside the hours: the schedule's pool
    rw [if_pos hzero]
    have hshut := @EnforcerInputs.scheduleBy_gifted cal (c.inputs now) _ (secsOf minutes)
      (c.usage.usedToday cal now, c.usage.usedWeek cal now) hread heod hschedTaken
      (hsched.symm.trans hzero)
    rw [← not_iff_not] at hshut
    have hsame : (c.inputs now).budgetBy cal ((c.extension.roll cal.zones now).giftedPools .schedule
        (secsOf minutes) (c.usage.usedToday cal now, c.usage.usedWeek cal now)) =
      (c.inputs now).budgetBy cal (c.extension.roll cal.zones now).held := rfl
    rw [hsame, ← hbud]
    constructor
    · rintro ⟨hleft, hopen⟩
      exact ⟨hnew, fun _ => ⟨hopen, hshut.mp hleft⟩, fun hne => absurd hzero hne⟩
    · intro hreach
      obtain ⟨hopen, hleft⟩ := hreach.schedule hzero
      exact ⟨hshut.mpr hleft, hopen⟩
  · -- within them: the budget's
    rw [if_neg hzero]
    have hspent : (c.inputs now).budgetSecs cal = 0 :=
      (haxes.resolve_left Bool.false_ne_true).resolve_left hzero
    have hsame : (c.inputs now).scheduleBy cal ((c.extension.roll cal.zones now).giftedPools .budget
        (secsOf minutes) (c.usage.usedToday cal now, c.usage.usedWeek cal now)) =
      (c.inputs now).scheduleBy cal (c.extension.roll cal.zones now).held := rfl
    rw [hsame, ← hsched, and_iff_right hzero]
    cases hclause : c.quotaBudget with
    | none =>
      have hfree : (c.inputs now).budgetSecs cal = -1 := by
        have hinput : (c.inputs now).budget = none := hclause
        unfold EnforcerInputs.budgetSecs EnforcerInputs.budgetParts
        rw [hinput]
        rfl
      rw [hfree] at hspent
      exact absurd hspent (by decide)
    | some b =>
      obtain ⟨hversion, hpaused⟩ := hbudget b hclause
      rw [EnforcerInputs.budgetBy_gifted hclause hversion hpaused hbudTaken
        (hbud.symm.trans hspent)]
      constructor
      · intro hcaps
        refine ⟨hnew, fun h0 => absurd h0 hzero, fun _ b' hb' => ?_⟩
        obtain rfl : b = b' := Option.some.inj (hclause ▸ hb')
        exact hcaps
      · exact fun hreach => hreach.budget hzero b hclause

/-- Half an hour to the whole device, on Monday 2026-06-29 until midnight. -/
def halfHourGift : GiftBody := ⟨giftVersion, 1782720000, "g1", 30, 1782777600, none, none⟩

theorem halfHourGift_whole {now : Int} (h : halfHourGift.minutesNow (asU64 now) = some 30) :
    WholeDeviceGift halfHourGift none now 30 := ⟨h, rfl, rfl⟩

/-- The hour is used at five o'clock: half an hour given opens the device. -/
theorem gift_opens_spent :
    ∃ rem, ((hourADayEnforcer 3600 0).landGift UsageLedger.utcCalendar 7 1782752400 halfHourGift
        none).remaining UsageLedger.utcCalendar 7 1782752400 = some rem ∧ rem.locked = false := by
  have hbudget : ∀ b ∈ (hourADay 3600 0).quotaBudget, b = dailyBudget 60 := by
    rintro b hb
    exact (Option.some.inj hb).symm
  refine (gift_opens_iff (c := hourADay 3600 0) rfl ⟨rfl, by decide +kernel, ?_, by decide +kernel,
    by decide +kernel, by decide +kernel, by decide +kernel⟩
    (halfHourGift_whole (by decide +kernel))).mpr ⟨by decide +kernel, ?_, ?_⟩
  · intro b hb
    rw [hbudget b hb]
    exact ⟨by decide, by decide⟩
  · intro hzero
    exact absurd hzero (by decide +kernel)
  · intro _ b hb
    rw [hbudget b hb]
    refine ⟨?_, ?_⟩
    · rintro cap hcap
      obtain rfl : cap = 60 := (Option.some.inj hcap).symm
      unfold capLeft
      decide +kernel
    · rintro cap ⟨⟩

/-- Hours from four to eight and an hour a day, all used before they begin. -/
def usedEarly : MultiChildEnforcer :=
  { new with children := fun uid =>
      if uid = 7 then some { hourADay 3600 0 with schedule := some afterSchool } else none }

/-- Three o'clock: the gift goes to the schedule's pool, and the spent budget still holds. -/
theorem not_gift_opens :
    ¬∀ (cal : Calendar) (m : MultiChildEnforcer) (uid : UInt32) (c : ChildEnforcer) (now : Int)
      (body : GiftBody) (buckets : Option (List String)) (minutes : Nat),
      m.children uid = some c → HeldByLimits cal c now →
      (∀ b ∈ c.quotaBudget, b.revoked ≠ some true) → 0 < minutes →
      WholeDeviceGift body buckets now minutes →
      ∃ rem, (m.landGift cal uid now body buckets).remaining cal uid now = some rem ∧
        rem.locked = false := by
  intro h
  have hbudget : ∀ b ∈ (hourADay 3600 0).quotaBudget, b = dailyBudget 60 := by
    rintro b hb
    exact (Option.some.inj hb).symm
  obtain ⟨rem, hrem, hopen⟩ := h UsageLedger.utcCalendar usedEarly 7
    { hourADay 3600 0 with schedule := some afterSchool } 1782745200 halfHourGift none 30 rfl
    ⟨rfl, by decide +kernel, fun b hb => by rw [hbudget b hb]; exact ⟨by decide, by decide⟩,
      by decide +kernel, by decide +kernel, by decide +kernel, by decide +kernel⟩
    (fun b hb => by rw [hbudget b hb]; decide) (by decide)
    (halfHourGift_whole (by decide +kernel))
  have hshut : ((usedEarly.landGift UsageLedger.utcCalendar 7 1782745200 halfHourGift
      none).remaining UsageLedger.utcCalendar 7 1782745200).map (·.locked) = some true := by
    decide +kernel
  rw [hrem, Option.map_some, hopen] at hshut
  cases hshut

end MultiChildEnforcer
end Kintrinsic
