import Kintrinsic.ExtensionRuns
import Kintrinsic.TimesLocks

/-! # Times on the Android ward

`assess` decides a tick of the Android warden: the schedule axis from the times evaluator, the
budget axis from the core, and over a lock of either the named pool topped up last.  For a schedule
without tags it is `compute_remaining`, and the edge machine over it the core's own. -/
namespace Kintrinsic

open MachineWord

namespace WardenTimes

/-- How a tick's verdict is carried. -/
inductive Run
  | window
  | namedPool (id : String)
deriving DecidableEq

/-- What one assessment reads. -/
structure TimesInputs where
  now : Int
  schedule : Option GrantSchedule
  budget : Option GrantBudget
  times : Option GrantTimes
  usage : UsageLedger
  extension : ExtensionLedger
  consolidated : Option ConsolidatedUsage
  standDown : Option StandDown

/-- The one answer that every reader shares. -/
structure Verdict where
  rem : Remaining
  activeTime : Option String
  run : Run
  status : Option TimedStatus
  countsAgainstBudget : Bool
  burnSchedulePool : Bool
deriving DecidableEq

/-- `has_tagged_window`. -/
def hasTaggedWindow (s : GrantSchedule) : Bool :=
  let tagged (ws : List GrantScheduleWindow) : Bool := ws.any (·.time.isSome)
  let w := s.weekly
  [w.mon, w.tue, w.wed, w.thu, w.fri, w.sat, w.sun].any (·.any tagged) ||
    s.overrides.any fun o => o.entries.any fun e => tagged e.2

/-- The classic evaluator's status as one of the times evaluator. -/
def ofClassic (s : GrantSchedule) (now : Int) : ScheduleStatus → TimedStatus
  | .unbounded => .unbounded
  | .opened secsToClose => .opened none (now + secsToClose)
  | .locked secsToOpen =>
    .locked (if s.paused = some true then .paused else .outsideWindows) secsToOpen
  | .unparseable => .unparseable

/-- `timed_status`: a schedule without tags goes through the classic evaluator. -/
def timedStatus (zones : Zones) (s : GrantSchedule) (times : Option GrantTimes) (now : Int) :
    TimedStatus :=
  if hasTaggedWindow s then Times.evaluateTimes zones s (knownIn times) now
  else ofClassic s now (s.evaluate zones now)

def isOpened : TimedStatus → Bool
  | .opened _ _ => true
  | _ => false

namespace TimesInputs
variable (cal : Calendar) (i : TimesInputs)

/-- The same inputs as the core reads them. -/
def core : EnforcerInputs :=
  ⟨i.now, i.schedule, i.budget, i.usage, i.extension, i.consolidated, i.standDown⟩

def status : Option TimedStatus := i.schedule.map fun s => timedStatus cal.zones s i.times i.now

/-- The time that the window itself names, if it names one that is defined. -/
def windowNamed : Option NamedTime :=
  match i.status cal with
  | some (.opened (some id) _) => i.times.bind (·.get id)
  | _ => none

/-- Whether the window's time takes the budget with it. -/
def counts : Bool := (i.windowNamed cal).all (·.counts)

/-- The budget alone, as the core counts it. -/
def budgetSide : Remaining :=
  computeRemaining cal
    ⟨i.now, none, if i.counts cal then i.budget else none, i.usage, i.extension, i.consolidated,
      none⟩

def eod : Nat := (enforcementTzOf cal.zones i.schedule i.budget).secsToEod i.now

/-- Whether a span of Free time that ends then runs out into a lock: Free's pool carries on. -/
def freeContinues (spanEnd : Int) : Bool :=
  i.schedule.all fun s => !hasTaggedWindow s ||
    !isOpened (timedStatus cal.zones s i.times spanEnd)

end TimesInputs

/-- The schedule axis: its seconds, whether it could be read, and when it opens. -/
structure ScheduleAxis where
  secs : Int
  malformed : Bool
  nextOpen : Option Int

namespace TimesInputs
variable (cal : Calendar) (i : TimesInputs)

/-- Seconds with Free's schedule pool on top, less what was taken back, to the end of the day. -/
def pooled (base extra deducted : Nat) : Int :=
  (min (wrapU64 (base + extra) - deducted) (i.eod cal) : Nat)

/-- The schedule axis. -/
def scheduleAxis : ScheduleAxis :=
  let extra := i.extension.scheduleExtraSecs cal.zones i.now
  let deducted := i.extension.scheduleDeductedSecs cal.zones i.now
  match i.status cal with
  | none | some .unbounded => ⟨-1, false, none⟩
  | some .unparseable => ⟨0, true, none⟩
  | some (.opened time spanEnd) =>
    let base := (max (spanEnd - i.now) 0).toNat
    -- a named window leaves Free's pool for after it ends
    if time.isNone && i.freeContinues cal spanEnd then
      ⟨i.pooled cal base extra deducted, false, none⟩
    else ⟨i.pooled cal base 0 0, false, none⟩
  | some (.locked _ secsToOpen) =>
    ⟨(min (extra - deducted) (i.eod cal) : Nat), false, secsToOpen.map Int.ofNat⟩

/-- The verdict before the named pools. -/
def base : Verdict :=
  let axis := i.scheduleAxis cal
  let b := i.budgetSide cal
  let charter := minUnbounded axis.secs b.budgetSecs
  let effective := (i.standDown.map (·.over charter)).getD charter
  let stoodDown := (i.standDown.map StandDown.hasLanded).getD false
  let locked := decide (effective = 0)
  let reason := if locked then some (lockReason axis.malformed stoodDown axis.secs) else none
  { rem :=
      { effectiveSecs := effective
        scheduleSecs := axis.secs
        budgetSecs := b.budgetSecs
        extensionSecs := b.extensionSecs
        locked := locked
        reason := reason
        nextOpenSecs := if reason = some .schedule then axis.nextOpen else none
        budgetDaySecs := b.budgetDaySecs
        budgetWeekSecs := b.budgetWeekSecs }
    activeTime := if locked then none else (i.windowNamed cal).map (·.id)
    run := .window
    status := i.status cal
    countsAgainstBudget := locked || i.counts cal
    burnSchedulePool := (i.status cal).any TimesRouting.TimedStatus.isLocked }

/-- What the named pool of an id may carry the device for. -/
def poolSecs (id : String) : Int :=
  let pool : Int := (min (i.extension.timeExtraSecs cal.zones i.now id) (i.eod cal) : Nat)
  match i.standDown with
  | some sd => min pool (max sd.secsUntilLock 0)
  | none => pool

/-- The named pool that a lock falls through to. -/
def fallThroughPool (reason : Option LockReason) : Option String :=
  if reason = some .schedule ∨ reason = some .budget then
    i.extension.mostRecentNamedPoolAmong cal.zones i.now (knownIn i.times)
  else none

/-- The verdict of a tick that a named pool carries. -/
def carriedBy (v : Verdict) (id : String) : Verdict :=
  { rem :=
      { v.rem with
        locked := false
        reason := none
        effectiveSecs := i.poolSecs cal id
        scheduleSecs := i.poolSecs cal id
        nextOpenSecs := none }
    activeTime := some id
    run := .namedPool id
    status := v.status
    countsAgainstBudget := (i.times.bind (·.get id)).any (·.counts)
    burnSchedulePool := false }

/-- `assess`. -/
def assess : Verdict :=
  let v := i.base cal
  match i.fallThroughPool cal v.rem.reason with
  | some id => if 0 < i.poolSecs cal id then i.carriedBy cal v id else v
  | none => v

end TimesInputs

/-! ## The edge machine -/

/-- The warden's own latches. -/
structure EdgeMachine where
  locked : Bool
  warnedTen : Bool
  warnedOne : Bool
deriving DecidableEq

namespace EdgeMachine

def new : EdgeMachine := ⟨false, false, false⟩

def isLocked (m : EdgeMachine) : Bool := m.locked

/-- The lock edge of a tick. -/
def turn (m : EdgeMachine) (rem : Remaining) : EdgeMachine × List EnforcerEffect :=
  if rem.locked && !m.locked then
    ({ m with locked := true },
      [.showLock (rem.reason.getD .schedule), .freeze .managedAppSlice, .audit .locked])
  else if !rem.locked && m.locked then
    (⟨false, false, false⟩, [.thaw .managedAppSlice, .hideLock, .audit .thawed])
  else (m, [])

/-- The warnings of a tick that is not locked. -/
def remind (m : EdgeMachine) (secs : Int) : EdgeMachine × List EnforcerEffect :=
  let m := if secs < 0 ∨ 600 < secs then { m with warnedTen := false } else m
  let m := if secs < 0 ∨ 60 < secs then { m with warnedOne := false } else m
  let oneDue := decide (0 ≤ secs ∧ secs ≤ 60) && !m.warnedOne
  let ten : EdgeMachine × List EnforcerEffect :=
    if (0 ≤ secs ∧ secs ≤ 600) ∧ m.warnedTen = false then
      ({ m with warnedTen := true }, if oneDue then [] else [.warn .ten])
    else (m, [])
  if oneDue then ({ ten.1 with warnedOne := true }, ten.2 ++ [.warn .one]) else ten

/-- `tick`. -/
def tick (m : EdgeMachine) (rem : Remaining) : EdgeMachine × List EnforcerEffect :=
  let turned := m.turn rem
  let reminded :=
    if turned.1.locked then turned else
      let r := turned.1.remind rem.effectiveSecs
      (r.1, turned.2 ++ r.2)
  (reminded.1, reminded.2 ++ [.timeLeft rem])

/-- The same latches in the core. -/
def core (m : EdgeMachine) : EnforcerCore := ⟨m.locked, m.warnedTen, m.warnedOne⟩

variable (m : EdgeMachine) (rem : Remaining)

theorem turn_core : (m.turn rem).1.core = (m.core.cross rem).1 ∧
    (m.turn rem).2 = (m.core.cross rem).2 := by
  unfold turn EnforcerCore.cross core
  dsimp only
  split
  · exact ⟨rfl, rfl⟩
  · split
    · exact ⟨rfl, rfl⟩
    · exact ⟨rfl, rfl⟩

/-- The latches are set and cleared one at a time, to the same end. -/
theorem remind_core (secs : Int) : (m.remind secs).1.core = (m.core.warn secs).1 ∧
    (m.remind secs).2 = (m.core.warn secs).2 := by
  obtain ⟨locked, ten, one⟩ := m
  unfold remind EnforcerCore.warn core
  dsimp only
  -- the four places a countdown can be in
  rcases lt_or_ge secs 0 with hneg | hnonneg
  · simp [hneg, hneg.not_ge]
  rcases le_or_gt secs 60 with hone | hone
  · have hten : secs ≤ 600 := by omega
    cases ten <;> cases one <;> simp [hnonneg, hnonneg.not_gt, hone, hone.not_gt, hten, hten.not_gt]
  rcases le_or_gt secs 600 with hten | hten
  · cases ten <;> simp [hnonneg, hnonneg.not_gt, hone, hone.not_ge, hten, hten.not_gt]
  · simp [hnonneg, hone, hone.not_ge, hten, hten.not_ge]

/-- **A tick of the edge machine is the core's.** -/
theorem tick_core : (m.tick rem).1.core = (m.core.act rem).1 ∧
    (m.tick rem).2 = (m.core.act rem).2 := by
  obtain ⟨hturn, hturned⟩ := turn_core m rem
  have hlocked : (m.turn rem).1.locked = (m.core.cross rem).1.locked := by
    rw [← hturn]
    rfl
  unfold tick EnforcerCore.act
  dsimp only
  rw [hlocked, hturned]
  split
  · exact ⟨hturn, by rw [List.append_nil, hturned]⟩
  · obtain ⟨hremind, hreminded⟩ := remind_core (m.turn rem).1 rem.effectiveSecs
    rw [hremind, hreminded, hturn]
    exact ⟨rfl, rfl⟩

end EdgeMachine

/-! ## Without named times -/

namespace TimesInputs
variable {cal : Calendar} {i : TimesInputs}

/-- A ward without named times: no window carries a tag, and no pool of a defined time has anything
left.  The ledger's pools are machine words. -/
structure Classic (cal : Calendar) (i : TimesInputs) : Prop where
  untagged : ∀ s ∈ i.schedule, hasTaggedWindow s = false
  unpooled : ∀ id, knownIn i.times id = true → i.extension.timeExtraSecs cal.zones i.now id = 0
  words : i.extension.Bounded

theorem scheduleExtraSecs_word (h : i.extension.Bounded) :
    wrapU64 (i.extension.scheduleExtraSecs cal.zones i.now) =
      i.extension.scheduleExtraSecs cal.zones i.now := by
  have hword : i.extension.scheduleSecs ≤ u64Max := h (.give .schedule)
  have hmax : u64Max < 2 ^ 64 := by decide
  refine wrapU64_of_lt (lt_of_le_of_lt ?_ hmax)
  unfold ExtensionLedger.scheduleExtraSecs
  split
  · exact Nat.zero_le _
  · omega

theorem status_of_untagged (h : ∀ s ∈ i.schedule, hasTaggedWindow s = false) :
    i.status cal = i.schedule.map fun s => ofClassic s i.now (s.evaluate cal.zones i.now) := by
  unfold status
  cases hs : i.schedule with
  | none => rfl
  | some s =>
    rw [Option.map_some, Option.map_some, timedStatus, h s hs, if_neg Bool.false_ne_true]

theorem windowNamed_of_untagged (h : ∀ s ∈ i.schedule, hasTaggedWindow s = false) :
    i.windowNamed cal = none := by
  unfold windowNamed
  rw [status_of_untagged h]
  cases i.schedule with
  | none => rfl
  | some s =>
    rw [Option.map_some]
    cases s.evaluate cal.zones i.now with
    | unbounded => rfl
    | opened secsToClose => rfl
    | locked secsToOpen => rfl
    | unparseable => rfl

/-- The schedule axis is the core's, arm by arm. -/
theorem scheduleAxis_of_untagged (h : ∀ s ∈ i.schedule, hasTaggedWindow s = false)
    (hwords : i.extension.Bounded) :
    i.scheduleAxis cal = ⟨i.core.scheduleSecs cal,
      (scheduleBase cal.zones i.now i.schedule).malformed,
      (scheduleBase cal.zones i.now i.schedule).nextOpen⟩ := by
  have hrun : ∀ spanEnd, i.freeContinues cal spanEnd = true := by
    intro spanEnd
    unfold freeContinues
    cases hs : i.schedule with
    | none => rfl
    | some s =>
      rw [Option.all_some, h s hs]
      rfl
  unfold scheduleAxis EnforcerInputs.scheduleSecs
  rw [status_of_untagged h]
  show _ = ScheduleAxis.mk ((scheduleBase cal.zones i.now i.schedule).withPools _ _ _) _ _
  cases i.schedule with
  | none => rfl
  | some s =>
    rw [Option.map_some, scheduleBase]
    cases s.evaluate cal.zones i.now with
    | unbounded => rfl
    | opened secsToClose =>
      have hbase : (max (i.now + (secsToClose : Int) - i.now) 0).toNat = secsToClose := by omega
      simp only [ofClassic, hrun, hbase, ScheduleBase.withPools, pooled]
      simp [eod, EnforcerInputs.eod, core]
    | locked secsToOpen =>
      simp [ofClassic, ScheduleBase.withPools, eod, EnforcerInputs.eod, core,
        scheduleExtraSecs_word hwords]
    | unparseable => rfl

/-- Before the named pools the breakdown is the core's. -/
theorem base_of_untagged (h : ∀ s ∈ i.schedule, hasTaggedWindow s = false)
    (hwords : i.extension.Bounded) : (i.base cal).rem = computeRemaining cal i.core := by
  have hside : i.budgetSide cal =
      computeRemaining cal { i.core with schedule := none, standDown := none } := by
    unfold budgetSide counts
    rw [windowNamed_of_untagged h]
    rfl
  unfold base
  rw [scheduleAxis_of_untagged h hwords, hside]
  unfold computeRemaining
  dsimp only
  simp only [decide_eq_true_eq]
  rfl

theorem known_of_fallThrough {reason : Option LockReason} {id : String}
    (h : i.fallThroughPool cal reason = some id) :
    (reason = some .schedule ∨ reason = some .budget) ∧ knownIn i.times id = true ∧
      0 < i.extension.timeExtraSecs cal.zones i.now id := by
  unfold fallThroughPool at h
  split at h
  · rename_i hreason
    exact ⟨hreason, ExtensionLedger.mostRecentNamedPool_some h⟩
  · cases h

/-- **Without named times an assessment is `compute_remaining`.** -/
theorem assess_of_classic (h : i.Classic cal) :
    (i.assess cal).rem = computeRemaining cal i.core := by
  unfold assess
  dsimp only
  split
  · rename_i id hid
    obtain ⟨-, hknown, hleft⟩ := known_of_fallThrough hid
    rw [h.unpooled id hknown] at hleft
    cases hleft
  · exact base_of_untagged h.untagged h.words

/-- The effects of a run of ticks on the warden. -/
def wardenEffects (cal : Calendar) (is : List TimesInputs) : List (List EnforcerEffect) :=
  Lockstep.outputs EdgeMachine.tick EdgeMachine.new (is.map fun i => (i.assess cal).rem)

/-- The effects of the core on the same inputs. -/
def coreEffects (cal : Calendar) (is : List TimesInputs) : List (List EnforcerEffect) :=
  Lockstep.outputs (EnforcerCore.tick cal) EnforcerCore.new (is.map core)

/-- **An Android ward without named times is the core's**, breakdown by breakdown and, over any run,
effect by effect. -/
theorem classic_ward {is : List TimesInputs} (h : ∀ i ∈ is, i.Classic cal) :
    (∀ i ∈ is, (i.assess cal).rem = computeRemaining cal i.core) ∧
      wardenEffects cal is = coreEffects cal is := by
  have hassess : ∀ i ∈ is, (i.assess cal).rem = computeRemaining cal i.core :=
    fun i hi => assess_of_classic (h i hi)
  refine ⟨hassess, ?_⟩
  have hinputs : List.Forall₂ (fun rem inp => rem = computeRemaining cal inp)
      (is.map fun i => (i.assess cal).rem) (is.map core) := by
    rw [List.forall₂_map_left_iff, List.forall₂_map_right_iff, List.forall₂_same]
    exact hassess
  -- the latches of the two machines stay the same
  have hstep : ∀ (m : EdgeMachine) (core : EnforcerCore) (rem : Remaining) (inp : EnforcerInputs),
      m.core = core → rem = computeRemaining cal inp →
        (m.tick rem).1.core = (core.tick cal inp).1 ∧ (m.tick rem).2 = (core.tick cal inp).2 := by
    rintro m _ _ inp rfl rfl
    exact m.tick_core _
  have houtputs : List.Forall₂ Eq (wardenEffects cal is) (coreEffects cal is) :=
    Lockstep.outputs_related hstep rfl hinputs
  rwa [List.forall₂_eq_eq_eq] at houtputs

/-- Four ticks of an evening on which a stand-down counts down. -/
def standDownEvening : List TimesInputs :=
  [3600, 300, 30, 0].map fun (secs : Int) =>
    ⟨1782734400, none, none, some TimesRouting.learning,
      .new UsageLedger.utcCalendar "UTC" .mon 1782734400,
      .new UsageLedger.utcCalendar.zones "UTC" 1782734400, none, some ⟨secs⟩⟩

theorem classic_ward_evening :
    wardenEffects UsageLedger.utcCalendar standDownEvening =
      coreEffects UsageLedger.utcCalendar standDownEvening := by
  refine (classic_ward fun i hi => ?_).2
  obtain ⟨secs, -, rfl⟩ := List.mem_map.mp hi
  refine ⟨nofun, fun id _ => ?_, ?_⟩
  · exact Nat.le_zero.mp (by
      unfold ExtensionLedger.timeExtraSecs
      split <;> exact le_rfl)
  · rintro ((_ | _) | id | id | (_ | _)) <;> exact Nat.zero_le _

/-! ## Locks that no pool may lift -/

/-- A stand-down has landed. -/
def Landed (i : TimesInputs) : Prop := ∃ sd ∈ i.standDown, sd.secsUntilLock ≤ 0

/-- The schedule is of a version not implemented here, or does not parse. -/
def Unreadable (cal : Calendar) (i : TimesInputs) : Prop :=
  ∃ s ∈ i.schedule, s.isSupportedVersion = false ∨
    timedStatus cal.zones s i.times i.now = .unparseable

/-- The budget is paused, or of a version not implemented here. -/
def BudgetShut (i : TimesInputs) : Prop := ∃ b ∈ i.budget, b.Spent

/-- The window in force is of a time that does not count. -/
def Exempt (cal : Calendar) (i : TimesInputs) : Prop :=
  ∃ t, i.windowNamed cal = some t ∧ t.counts = false

/-- A deliberate lock holds, whatever the pools are. -/
structure HoldsLocks (cal : Calendar) (i : TimesInputs) : Prop where
  landed : i.Landed → (i.assess cal).rem.locked = true
  unreadable : i.Unreadable cal → (i.assess cal).rem.locked = true
  shut : i.BudgetShut → ¬i.Exempt cal → (i.assess cal).rem.locked = true

/-- A pool of a defined time has seconds left today. -/
def NamedPoolLeft (cal : Calendar) (i : TimesInputs) : Prop :=
  (i.extension.mostRecentNamedPoolAmong cal.zones i.now (knownIn i.times)).isSome = true ∧
    0 < i.eod cal

theorem minUnbounded_eq_zero {a b : Int} : minUnbounded a b = 0 ↔ a = 0 ∨ b = 0 := by
  unfold minUnbounded
  split_ifs
  · exact iff_of_false (by decide) (by omega)
  all_goals omega

theorem StandDown.over_eq_zero {sd : StandDown} {charter : Int} :
    sd.over charter = 0 ↔ sd.secsUntilLock ≤ 0 ∨ charter = 0 := by
  unfold StandDown.over
  dsimp only
  split <;> omega

theorem standDown_landed_iff :
    (i.standDown.map StandDown.hasLanded).getD false = true ↔ i.Landed := by
  unfold Landed
  cases i.standDown with
  | none => simp
  | some sd => simp [StandDown.hasLanded]

/-- Before the named pools, a tick is locked by a stand-down, the schedule or the budget. -/
theorem base_locked_iff : (i.base cal).rem.locked = true ↔
    i.Landed ∨ (i.scheduleAxis cal).secs = 0 ∨ (i.budgetSide cal).budgetSecs = 0 := by
  show decide ((i.standDown.map fun sd => sd.over (minUnbounded (i.scheduleAxis cal).secs
    (i.budgetSide cal).budgetSecs)).getD (minUnbounded (i.scheduleAxis cal).secs
    (i.budgetSide cal).budgetSecs) = 0) = true ↔ _
  rw [decide_eq_true_iff]
  unfold Landed
  cases i.standDown with
  | none => simp [minUnbounded_eq_zero]
  | some sd => simp [StandDown.over_eq_zero, minUnbounded_eq_zero]

theorem base_reason : (i.base cal).rem.reason =
    if (i.base cal).rem.locked = true then
      some (lockReason (i.scheduleAxis cal).malformed
        ((i.standDown.map StandDown.hasLanded).getD false) (i.scheduleAxis cal).secs)
    else none := rfl

/-- An assessment is locked exactly when the base is and no named pool carries it. -/
theorem assess_locked_iff : (i.assess cal).rem.locked = true ↔
    (i.base cal).rem.locked = true ∧
      ∀ id, i.fallThroughPool cal (i.base cal).rem.reason = some id → ¬0 < i.poolSecs cal id := by
  unfold assess
  dsimp only
  cases hpool : i.fallThroughPool cal (i.base cal).rem.reason with
  | none => simp
  | some id =>
    dsimp only
    by_cases hleft : 0 < i.poolSecs cal id
    · rw [if_pos hleft]
      exact iff_of_false Bool.false_ne_true fun h => h.2 id rfl hleft
    · rw [if_neg hleft]
      refine ⟨fun h => ⟨h, ?_⟩, fun h => h.1⟩
      rintro _ ⟨⟩
      exact hleft

theorem timedStatus_unsupported {zones : Zones} {s : GrantSchedule} {times : Option GrantTimes}
    {now : Int} (h : s.isSupportedVersion = false) :
    timedStatus zones s times now = .unparseable := by
  unfold timedStatus
  split
  · unfold Times.evaluateTimes
    rw [h]
    rfl
  · unfold GrantSchedule.evaluate
    rw [h]
    rfl

/-- The schedule axis is malformed exactly over a schedule that is not read. -/
theorem malformed_iff : (i.scheduleAxis cal).malformed = true ↔ i.Unreadable cal := by
  have hunreadable : i.Unreadable cal ↔ i.status cal = some .unparseable := by
    unfold Unreadable status
    cases i.schedule with
    | none => simp
    | some s =>
      simp only [Option.mem_some_iff, exists_eq_left', Option.map_some, Option.some.injEq]
      exact or_iff_right_of_imp timedStatus_unsupported
  rw [hunreadable]
  unfold scheduleAxis
  dsimp only
  split
  · rename_i hstatus
    simp [hstatus]
  · rename_i hstatus
    simp [hstatus]
  · rename_i hstatus
    simp [hstatus]
  · rename_i hstatus
    simp only [hstatus]
    split <;> simp
  · rename_i hstatus
    simp [hstatus]

theorem secs_of_malformed (h : (i.scheduleAxis cal).malformed = true) :
    (i.scheduleAxis cal).secs = 0 := by
  unfold scheduleAxis at h ⊢
  dsimp only at h ⊢
  split
  · rename_i hstatus
    rw [hstatus] at h
    cases h
  · rename_i hstatus
    rw [hstatus] at h
    cases h
  · rfl
  · rename_i time spanEnd hstatus
    rw [hstatus] at h
    dsimp only at h
    split at h <;> cases h
  · rename_i hstatus
    rw [hstatus] at h
    cases h

/-- A shut budget that counts has nothing left. -/
theorem budgetSide_of_shut (hshut : i.BudgetShut) (hcounts : ¬i.Exempt cal) :
    (i.budgetSide cal).budgetSecs = 0 := by
  have hcounts : i.counts cal = true := by
    unfold counts
    rw [Option.all_eq_true]
    intro t ht
    by_contra hfree
    exact hcounts ⟨t, ht, Bool.eq_false_of_not_eq_true hfree⟩
  obtain ⟨b, hb, hspent⟩ := hshut
  unfold budgetSide
  rw [hcounts, if_pos rfl, hb]
  show EnforcerInputs.clampLeft (binding (b.quotaParts ..)) = 0
  rw [b.quotaParts_spent hspent]
  rfl

/-- A stand-down that has landed, and a schedule that is not read, never fall through. -/
theorem fallThroughPool_none (h : i.Landed ∨ i.Unreadable cal) :
    i.fallThroughPool cal (i.base cal).rem.reason = none := by
  unfold fallThroughPool
  rw [base_reason]
  refine if_neg ?_
  split
  · unfold lockReason
    rcases h with h | h
    · rw [standDown_landed_iff.mpr h]
      split <;> simp
    · rw [malformed_iff.mpr h]
      simp
  · simp

/-- Any other lock falls through to the latest pool. -/
theorem fallThroughPool_of_locked (hlocked : (i.base cal).rem.locked = true) (hlanded : ¬i.Landed)
    (hread : ¬i.Unreadable cal) : i.fallThroughPool cal (i.base cal).rem.reason =
      i.extension.mostRecentNamedPoolAmong cal.zones i.now (knownIn i.times) := by
  unfold fallThroughPool
  rw [base_reason, if_pos hlocked]
  refine if_pos ?_
  unfold lockReason
  rw [if_neg fun h => hread (malformed_iff.mp h),
    if_neg fun h => hlanded (standDown_landed_iff.mp h)]
  split
  · exact .inl rfl
  · exact .inr rfl

theorem poolSecs_pos_iff {id : String} (hlanded : ¬i.Landed)
    (hid : 0 < i.extension.timeExtraSecs cal.zones i.now id) :
    0 < i.poolSecs cal id ↔ 0 < i.eod cal := by
  unfold poolSecs
  unfold Landed at hlanded
  cases hsd : i.standDown with
  | none =>
    dsimp only
    omega
  | some sd =>
    have hcountdown : 0 < sd.secsUntilLock := by
      by_contra hle
      exact hlanded ⟨sd, hsd, by omega⟩
    dsimp only
    omega

/-- Over a budget that is shut a named pool is all that opens the device. -/
theorem locked_of_shut_iff (hshut : i.BudgetShut) (hcounts : ¬i.Exempt cal) :
    (i.assess cal).rem.locked = true ↔ i.Landed ∨ i.Unreadable cal ∨ ¬i.NamedPoolLeft cal := by
  have hlocked : (i.base cal).rem.locked = true :=
    base_locked_iff.mpr (.inr (.inr (budgetSide_of_shut hshut hcounts)))
  rw [assess_locked_iff, and_iff_right hlocked]
  by_cases hkeep : i.Landed ∨ i.Unreadable cal
  · rw [fallThroughPool_none hkeep]
    exact iff_of_true nofun (hkeep.imp_right .inl)
  · obtain ⟨hlanded, hread⟩ := not_or.mp hkeep
    rw [fallThroughPool_of_locked hlocked hlanded hread, or_iff_right hlanded, or_iff_right hread,
      NamedPoolLeft]
    cases hpool : i.extension.mostRecentNamedPoolAmong cal.zones i.now (knownIn i.times) with
    | none => simp
    | some id =>
      have hleft := (ExtensionLedger.mostRecentNamedPool_some hpool).2
      simp only [Option.some.injEq, forall_eq', Option.isSome_some, true_and,
        poolSecs_pos_iff hlanded hleft]

/-- **A deliberate lock holds exactly where no named pool runs over a shut budget.**  A stand-down
that has landed and a schedule that is not read hold always; a budget that is paused or of a version
not implemented here reads as one that is spent, and a named pool lifts it. -/
theorem locks_hold_iff (cal : Calendar) (i : TimesInputs) : i.HoldsLocks cal ↔
    ¬(i.BudgetShut ∧ ¬i.Exempt cal ∧ ¬i.Landed ∧ ¬i.Unreadable cal ∧ i.NamedPoolLeft cal) := by
  have hkeep : i.Landed ∨ i.Unreadable cal → (i.base cal).rem.locked = true →
      (i.assess cal).rem.locked = true := by
    intro h hlocked
    refine assess_locked_iff.mpr ⟨hlocked, ?_⟩
    rw [fallThroughPool_none h]
    nofun
  constructor
  · rintro hholds ⟨hshut, hcounts, hlanded, hread, hpool⟩
    rcases (locked_of_shut_iff hshut hcounts).mp (hholds.shut hshut hcounts) with h | h | h
    · exact hlanded h
    · exact hread h
    · exact h hpool
  · intro hcase
    refine ⟨fun h => hkeep (.inl h) (base_locked_iff.mpr (.inl h)),
      fun h => hkeep (.inr h) (base_locked_iff.mpr (.inr (.inl
        (secs_of_malformed (malformed_iff.mpr h))))), fun hshut hcounts => ?_⟩
    rw [locked_of_shut_iff hshut hcounts]
    tauto

/-- Noon; the guardian has paused the budget, and half an hour of learning was given. -/
def pausedNoon : TimesInputs where
  now := 1782734400
  schedule := none
  budget := some ⟨1, "UTC", none, none, none, some true, none, none, 0⟩
  times := some TimesRouting.learning
  usage := .new UsageLedger.utcCalendar "UTC" .mon 1782734400
  extension :=
    ((ExtensionLedger.new UsageLedger.utcCalendar.zones "UTC" 1782734400).applyTime
      UsageLedger.utcCalendar.zones 1782734400 "r1" 30 "learning").2
  consolidated := none
  standDown := none

/-- **The pause is lifted**: the half hour opens the device. -/
theorem pause_lifted : ¬pausedNoon.HoldsLocks UsageLedger.utcCalendar := by
  intro hholds
  have hexempt : ¬pausedNoon.Exempt UsageLedger.utcCalendar := by
    rintro ⟨t, ht, -⟩
    cases ht
  have hlocked := hholds.shut ⟨_, rfl, .inr ⟨by simp, rfl⟩⟩ hexempt
  have hopen : (pausedNoon.assess UsageLedger.utcCalendar).rem.locked = false := by decide +kernel
  exact Bool.false_ne_true (hopen.symm.trans hlocked)

end TimesInputs

end WardenTimes
end Kintrinsic
