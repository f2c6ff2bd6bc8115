import Kintrinsic.MultiChild
import Kintrinsic.TimesEval

/-! # Routing times on the device

The enforcer core runs a tagged window as Free time.  Which time the device is in is decided over the
core's verdict: the layer may lock an instant that the core opens, and open one that it locks where
the lock is of a dimension that a named time may ignore. -/
namespace Kintrinsic

open MachineWord

/-! ## What the enforcer answers about named pools -/

namespace MultiChildEnforcer
variable (cal : Calendar) (m : MultiChildEnforcer)

/-- `usage_unsaved`: whether a child's budget is held paused. -/
def usageUnsaved (uid : UInt32) : Bool :=
  (m.children uid).any fun c => c.budget.isSome && c.unsavedBudget.isSome

/-- `time_extra`. -/
def timeExtra (uid : UInt32) (timeId : String) (now : Int) : Option Nat :=
  (m.children uid).map (·.extension.timeExtraSecs cal.zones now timeId)

/-- `most_recent_time_pool`. -/
def mostRecentTimePool (uid : UInt32) (now : Int) (known : String → Bool) : Option String :=
  (m.children uid).bind (·.extension.mostRecentNamedPoolAmong cal.zones now known)

end MultiChildEnforcer

namespace TimesRouting

/-- `schedule_has_tags`. -/
def scheduleHasTags (s : GrantSchedule) : Bool :=
  ((List.range 7).any fun day => ((s.weekly.forDay day).getD []).any (·.time.isSome)) ||
    s.overrides.any fun o => o.entries.any fun e => e.2.any (·.time.isSome)

/-! ## Verdicts -/

/-- Why the times layer itself locks an instant. -/
inductive TimesLock
  | unknownTime (tag : String)
  | inventoryUnknown (id : String)
deriving DecidableEq

/-- A named time that runs, off a window or off its own pool. -/
structure NamedRun where
  id : String
  fromPool : Bool
  counts : Bool
  spanEnd : Int
  endsAt : Int
  spanLimited : Bool
deriving DecidableEq

/-- Which time a child is in: the core's verdict stands, a named time runs, or the layer locks. -/
inductive Verdict
  | core (spanEnd : Option Int)
  | named (run : NamedRun)
  | locked (lock : TimesLock)
deriving DecidableEq

/-- What `decide` reads. -/
structure Inputs where
  timed : TimedStatus
  core : Remaining
  times : Option GrantTimes
  inventoryKnown : Bool
  pool : Option (String × Nat)
  budgetPoolProof : Bool
  now : Int

/-- `budget_pool_proof`: the budget in force is one that no extension pool may lift. -/
def budgetPoolProof (budget : Option GrantBudget) (usageUnsaved : Bool) : Bool :=
  usageUnsaved || budget.any fun b =>
    !b.isSupportedVersion || (b.revoked != some true && b.paused == some true)

namespace Inputs
variable (i : Inputs)

/-- The named time of an id, if it is defined. -/
def time (id : String) : Option NamedTime := i.times.bind (·.get id)

/-- `run_named`. -/
def runNamed (t : NamedTime) (fromPool : Bool) (spanEnd endsAt : Int) : Verdict :=
  if t.posture = .onlyThese ∧ i.inventoryKnown = false then .locked (.inventoryUnknown t.id)
  else .named ⟨t.id, fromPool, t.counts, spanEnd, endsAt, decide (spanEnd ≤ endsAt)⟩

/-- `fall_through`: over a lock of one of the dimensions the latest named pool runs, and over a
budget that no pool lifts none does. -/
def fallThrough (dims : List LockReason) : Verdict :=
  if i.budgetPoolProof then .core none
  else if !(i.core.locked && i.core.reason.any dims.contains) then .core none
  else
    match i.pool with
    | some (id, secs) =>
      if 0 < secs then
        match i.time id with
        | some t => i.runNamed t true (wrapI64 (i.now + asI64 secs)) (wrapI64 (i.now + asI64 secs))
        | none => .core none
      else .core none
    | none => .core none

/-- A window of a named time: a counting one ends with the budget too, and over a spent budget only
one that does not count runs. -/
def decideWindow (t : NamedTime) (spanEnd : Int) : Verdict :=
  if !i.core.locked then
    if t.counts = true ∧ 0 ≤ i.core.budgetSecs ∧ i.now + i.core.budgetSecs < spanEnd then
      i.runNamed t false spanEnd (i.now + i.core.budgetSecs)
    else i.runNamed t false spanEnd spanEnd
  else if i.core.reason = some .budget then
    if t.counts = false then i.runNamed t false spanEnd spanEnd else i.fallThrough [.budget]
  else .core none

/-- `decide`. -/
def decide : Verdict :=
  match i.timed with
  | .locked (.unknownTime tag) _ => .locked (.unknownTime tag)
  | .opened (some id) spanEnd =>
    match i.time id with
    | none => .locked (.unknownTime id)
    | some t => i.decideWindow t spanEnd
  | .opened none spanEnd =>
    if i.core.locked then i.fallThrough [.budget] else .core (some spanEnd)
  | .unbounded => if i.core.locked then i.fallThrough [.budget] else .core none
  | .locked .paused _ | .locked .outsideWindows _ =>
    if i.core.locked then i.fallThrough [.schedule, .budget] else .core none
  | .unparseable => .core none

end Inputs

/-! ## The verdict folded in -/

def TimedStatus.secondsToOpen : TimedStatus → Option Int
  | .locked _ secs => secs.map Int.ofNat
  | _ => none

def TimedStatus.isLocked : TimedStatus → Bool
  | .locked _ _ => true
  | _ => false

/-- A countdown cut at a span's end. -/
def clampTo (span left : Int) : Int := if left < 0 then span else min left span

/-- `adjusted_remaining`. -/
def adjustedRemaining (core : Remaining) (v : Verdict) (timed : TimedStatus) (now : Int) :
    Remaining :=
  match v with
  | .named run =>
    { core with
      locked := false
      reason := none
      nextOpenSecs := none
      effectiveSecs := max (run.endsAt - now) 0
      scheduleSecs := max (run.spanEnd - now) 0 }
  | .locked _ =>
    { core with
      locked := true
      reason := some .schedule
      effectiveSecs := 0
      scheduleSecs := 0
      nextOpenSecs := TimedStatus.secondsToOpen timed }
  | .core spanEnd =>
    if !core.locked then
      match spanEnd with
      | some e =>
        let span := max (e - now) 0
        { core with
          scheduleSecs := clampTo span core.scheduleSecs
          effectiveSecs := clampTo span core.effectiveSecs }
      | none => core
    else if core.reason = some .schedule ∧ TimedStatus.isLocked timed then
      { core with nextOpenSecs := TimedStatus.secondsToOpen timed }
    else core

/-- One child's times state. -/
structure TimesState where
  timed : TimedStatus
  verdict : Verdict
  remaining : Remaining
  inPlay : Bool
  spanEnd : Option Int
deriving DecidableEq

section
variable (zones : Zones)

/-- What the schedule says of an instant; without one no window carries a tag. -/
def timedAt (schedule : Option GrantSchedule) (times : Option GrantTimes) (now : Int) :
    TimedStatus :=
  match schedule with
  | some s => Times.evaluateTimes zones s (knownIn times) now
  | none => .unbounded

/-- Whether a span of Free time runs out into a lock of the schedule, which the core's own figure
already counts. -/
def runsOut (schedule : Option GrantSchedule) (times : Option GrantTimes) (spanEnd : Int) : Bool :=
  match schedule.map fun s => Times.evaluateTimes zones s (knownIn times) spanEnd with
  | some (.locked .outsideWindows _) | some (.locked .paused _) => true
  | _ => false

/-- The verdict, a Free span cut short only where another time follows it. -/
def trimSpan (schedule : Option GrantSchedule) (times : Option GrantTimes) : Verdict → Verdict
  | .core (some e) => if runsOut zones schedule times e then .core none else .core (some e)
  | v => v

/-- The instant at which the running time ends because its span does. -/
def spanEndOf (v : Verdict) (remaining : Remaining) (now : Int) : Option Int :=
  match v with
  | .named run => if run.spanLimited then some run.endsAt else none
  | .core (some e) =>
    if !remaining.locked && Decidable.decide (remaining.effectiveSecs = max (e - now) 0) then some e
    else none
  | _ => none

/-- `resolve`. -/
def resolve (schedule : Option GrantSchedule) (times : Option GrantTimes) (core : Remaining)
    (inventoryKnown : Bool) (pool : Option (String × Nat)) (budgetPoolProof : Bool) (now : Int) :
    TimesState :=
  let timed := timedAt zones schedule times now
  let i : Inputs := ⟨timed, core, times, inventoryKnown, pool, budgetPoolProof, now⟩
  let verdict := trimSpan zones schedule times i.decide
  let remaining := adjustedRemaining core verdict timed now
  { timed
    verdict
    remaining
    inPlay := schedule.any scheduleHasTags || (match verdict with
      | .core _ => false
      | _ => true)
    spanEnd := spanEndOf verdict remaining now }

end

/-- `apply_stand_down`: the grace of a stand-down caps a running named time too. -/
def applyStandDown (st : TimesState) (standDownSecs : Option Int) (now : Int) : TimesState :=
  match standDownSecs, st.verdict with
  | some sd, .named run =>
    if now + max sd 0 < run.endsAt then
      { st with
        verdict := .named { run with endsAt := now + max sd 0, spanLimited := false }
        spanEnd := none
        remaining.effectiveSecs := max sd 0 }
    else st
  | _, _ => st

/-- The named pool that is offered: the latest one topped up, of the times that are defined. -/
def offeredPool (cal : Calendar) (multi : MultiChildEnforcer) (times : Option GrantTimes)
    (uid : UInt32) (now : Int) : Option (String × Nat) :=
  (multi.mostRecentTimePool cal uid now (knownIn times)).map fun id =>
    (id, (multi.timeExtra cal uid id now).getD 0)

/-- `state_for`. -/
def stateFor (cal : Calendar) (multi : MultiChildEnforcer) (schedule : Option GrantSchedule)
    (budget : Option GrantBudget) (times : Option GrantTimes) (inventoryKnown : Bool)
    (standDownSecs : Option Int) (uid : UInt32) (now : Int) : Option TimesState :=
  (multi.remaining cal uid now).map fun core =>
    applyStandDown
      (resolve cal.zones schedule times core inventoryKnown (offeredPool cal multi times uid now)
        (budgetPoolProof budget (multi.usageUnsaved uid)) now)
      standDownSecs now

/-- `apply_to_decision`. -/
def applyToDecision (d : ChildDecision) (s : TimesState) : ChildDecision :=
  let d := match s.verdict with
    | .named _ => { d with locked := false, reason := none }
    | .locked _ => { d with locked := true, reason := some .schedule }
    | .core _ => d
  if s.inPlay then
    { d with effects := d.effects.filter fun e => match e with
      | .warn _ => false
      | _ => true }
  else d

/-- `burning_pool`. -/
def burningPool : Verdict → Option String
  | .named run => if run.fromPool then some run.id else none
  | _ => none

end TimesRouting

end Kintrinsic
