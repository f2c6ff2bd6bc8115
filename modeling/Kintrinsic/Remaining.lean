import Kintrinsic.Budget
import Kintrinsic.ExtensionLedger
import Kintrinsic.ScheduleEval

/-! # The time-left breakdown

`compute_remaining`: the schedule axis with its extension pools, the budget axis with the net
of its own, and the cap of a stand-down over both. -/
namespace Kintrinsic

open MachineWord

/-- Which boundary forced the lock. -/
inductive LockReason
  | schedule
  | budget
  | malformed
  | standDown
deriving DecidableEq

/-- The breakdown; `-1` is unbounded. -/
structure Remaining where
  effectiveSecs : Int
  scheduleSecs : Int
  budgetSecs : Int
  extensionSecs : Int
  locked : Bool
  reason : Option LockReason
  nextOpenSecs : Option Int
  budgetDaySecs : Int
  budgetWeekSecs : Int
deriving DecidableEq

/-- A stand-down in force. -/
structure StandDown where
  secsUntilLock : Int
deriving DecidableEq

/-- What a tick reads. -/
structure EnforcerInputs where
  nowUnix : Int
  schedule : Option GrantSchedule
  budget : Option GrantBudget
  usage : UsageLedger
  extension : ExtensionLedger
  consolidated : Option ConsolidatedUsage
  standDown : Option StandDown

/-- `enforcement_tz_of`: the schedule's zone before the budget's. -/
def enforcementTzOf (zones : Zones) (schedule : Option GrantSchedule)
    (budget : Option GrantBudget) : Tz :=
  (((schedule.map (·.tz)).or (budget.map (·.tz))).bind zones).getD Tz.utc

/-- `min_unbounded`: a negative number is unbounded. -/
def minUnbounded (a b : Int) : Int :=
  if a < 0 then if b < 0 then -1 else b
  else if b < 0 then a else min a b

/-- The schedule before its extension pools. -/
structure ScheduleBase where
  secs : Int
  malformed : Bool
  nextOpen : Option Int

def scheduleBase (zones : Zones) (now : Int) : Option GrantSchedule → ScheduleBase
  | none => ⟨-1, false, none⟩
  | some s =>
    match s.evaluate zones now with
    | .unbounded => ⟨-1, false, none⟩
    | .opened secsToClose => ⟨secsToClose, false, none⟩
    | .locked secsToOpen => ⟨0, false, secsToOpen.map Int.ofNat⟩
    | .unparseable => ⟨0, true, none⟩

/-- The schedule with its pools: nothing lifts a malformed clause, and nothing reaches past
the end of the day. -/
def ScheduleBase.withPools (base : ScheduleBase) (extra deducted eod : Nat) : Int :=
  if base.malformed then 0
  else if base.secs < 0 then -1
  else (min (wrapU64 (base.secs.toNat + extra) - deducted) eod : Nat)

/-- A cap over what the charter allows. -/
def StandDown.over (sd : StandDown) (charter : Int) : Int :=
  let cap := max sd.secsUntilLock 0
  if charter < 0 then cap else min charter cap

def StandDown.hasLanded (sd : StandDown) : Bool := max sd.secsUntilLock 0 = 0

/-- The explanation of a lock. -/
def lockReason (malformed stoodDown : Bool) (scheduleSecs : Int) : LockReason :=
  if malformed then .malformed
  else if stoodDown then .standDown
  else if scheduleSecs = 0 then .schedule
  else .budget

namespace EnforcerInputs
variable (cal : Calendar) (inp : EnforcerInputs)

def eod : Nat :=
  (enforcementTzOf cal.zones inp.schedule inp.budget).secsToEod inp.nowUnix

/-- The net move of today's allowance. -/
def budgetNet : Int :=
  wrapI64 (asI64 (inp.extension.budgetExtraSecs cal.zones inp.nowUnix) -
    asI64 (inp.extension.budgetDeductedSecs cal.zones inp.nowUnix))

/-- Both caps of the budget. -/
def budgetParts : Option Int × Option Int :=
  match inp.budget with
  | none => (none, none)
  | some b =>
    b.quotaParts cal inp.usage inp.consolidated inp.nowUnix (inp.budgetNet cal)
      (inp.extension.budgetBaselineSecs cal.zones inp.nowUnix)

def scheduleSecs : Int :=
  (scheduleBase cal.zones inp.nowUnix inp.schedule).withPools
    (inp.extension.scheduleExtraSecs cal.zones inp.nowUnix)
    (inp.extension.scheduleDeductedSecs cal.zones inp.nowUnix) (inp.eod cal)

/-- A remainder that is clamped, `-1` when there is none. -/
def clampLeft (left : Option Int) : Int := (left.map fun n => max n 0).getD (-1)

def budgetSecs : Int := clampLeft (binding (inp.budgetParts cal))

end EnforcerInputs

/-- `compute_remaining`. -/
def computeRemaining (cal : Calendar) (inp : EnforcerInputs) : Remaining :=
  let base := scheduleBase cal.zones inp.nowUnix inp.schedule
  let scheduleSecs := inp.scheduleSecs cal
  let parts := inp.budgetParts cal
  let budgetSecs := inp.budgetSecs cal
  let charterSecs := minUnbounded scheduleSecs budgetSecs
  let effective := (inp.standDown.map fun sd => sd.over charterSecs).getD charterSecs
  let stoodDown := (inp.standDown.map StandDown.hasLanded).getD false
  let locked := effective = 0
  let reason := if locked then some (lockReason base.malformed stoodDown scheduleSecs) else none
  let extra := wrapU64 (inp.extension.scheduleExtraSecs cal.zones inp.nowUnix +
    inp.extension.budgetExtraSecs cal.zones inp.nowUnix)
  let deducted := wrapU64 (inp.extension.scheduleDeductedSecs cal.zones inp.nowUnix +
    inp.extension.budgetDeductedSecs cal.zones inp.nowUnix)
  { effectiveSecs := effective
    scheduleSecs := scheduleSecs
    budgetSecs := budgetSecs
    extensionSecs := wrapI64 (asI64 extra - asI64 deducted)
    locked := locked
    reason := reason
    nextOpenSecs := if reason = some .schedule then base.nextOpen else none
    budgetDaySecs := EnforcerInputs.clampLeft parts.1
    budgetWeekSecs := EnforcerInputs.clampLeft parts.2 }

/-- `burn_schedule_extension`: wall clock off the schedule pool, outside the windows only. -/
def burnScheduleExtension (zones : Zones) (extension : ExtensionLedger)
    (schedule : Option GrantSchedule) (now : Int) (elapsed : Nat) : ExtensionLedger :=
  if elapsed = 0 then extension
  else
    match schedule with
    | none => extension
    | some s =>
      match s.evaluate zones now with
      | .locked _ => extension.burnSchedule zones now elapsed
      | _ => extension

end Kintrinsic
