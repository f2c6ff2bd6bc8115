import Kintrinsic.NamedTimes
import Kintrinsic.ScheduleEval

/-! # Which time a device is in

`evaluate_times`: of the windows of the day a tagged one carves the rest, the earliest first, and only
then is its tag looked up.  A tag that is not known locks its span. -/
namespace Kintrinsic

open CivilDate

/-- The `times` clause. -/
structure GrantTimes where
  v : Nat
  times : List NamedTime
  issuedAt : Nat
deriving DecidableEq

/-- The named time of an id, if the clause defines one. -/
def GrantTimes.get (g : GrantTimes) (id : String) : Option NamedTime := g.times.find? (·.id = id)

def knownIn (times : Option GrantTimes) (id : String) : Bool := times.any fun g => (g.get id).isSome

inductive LockCause
  | paused
  | outsideWindows
  | unknownTime (tag : String)
deriving DecidableEq

/-- What a device is doing under its schedule. -/
inductive TimedStatus
  | unbounded
  | opened (time : Option String) (spanEnd : Int)
  | locked (cause : LockCause) (secondsToOpen : Option Nat)
  | unparseable
deriving DecidableEq

/-- The least so far and one more; of equals the first stays. -/
def lesser {α : Type} (key : α → Nat) (best : Option α) (x : α) : Option α :=
  match best with
  | none => some x
  | some b => if key x < key b then some x else some b

/-- `min_by_key`: the first of the least. -/
def minByKey {α : Type} (key : α → Nat) (xs : List α) : Option α := xs.foldl (lesser key) none

namespace Times

/-- A window of a day, in minutes. -/
structure Win where
  start : Nat
  stop : Nat
  tag : Option String
deriving DecidableEq

inductive Label
  | closed
  | free
  | time (id : String)
  | unknown (id : String)
deriving DecidableEq

def Label.runnable : Label → Bool
  | free | time _ => true
  | closed | unknown _ => false

/-- A window as written, unless it is malformed or ends before it starts. -/
def winOf (w : GrantScheduleWindow) : Option Win := do
  let s ← parseHhmm w.start
  let e ← parseHhmm w.stop
  if s < e then some ⟨s, e, w.time⟩ else none

/-- `day_windows`: an override of the date replaces the weekly entry. -/
def dayWindows (sched : GrantSchedule) (dateKey : String) (day : Nat) : List Win :=
  let raw := match sched.overrides.bind fun o => o.lookup dateKey with
    | some ovr => ovr
    | none => (sched.weekly.forDay day).getD []
  raw.filterMap winOf

def Win.covers (w : Win) (minute : Nat) : Bool := decide (w.start ≤ minute) && decide (minute < w.stop)

def labelAt (wins : List Win) (known : String → Bool) (minute : Nat) : Label :=
  match minByKey Win.start (wins.filter fun w => w.tag.isSome && w.covers minute) with
  | some w =>
    let id := w.tag.getD ""
    if known id then .time id else .unknown id
  | none => if wins.any fun w => w.tag.isNone && w.covers minute then .free else .closed

/-- The minutes at which a label can change. -/
def boundaries (wins : List Win) : List Nat :=
  ((wins.flatMap fun w => [w.start, w.stop]).insertionSort (· ≤ ·)).dedup

def spanEndMinute (wins : List Win) (known : String → Bool) (minute : Nat) (cur : Label) : Nat :=
  (((boundaries wins).filter (minute < ·)).find? fun b => labelAt wins known b ≠ cur).getD 1440

/-- The windows of a local day. -/
def windowsOf (sched : GrantSchedule) (day : Int) : List Win :=
  dayWindows sched (dateKey day) (daysFromSunday day).toNat

/-- `next_open_secs`: to the next boundary, today or on the seven days after it, at which something
that can run begins. -/
def nextOpenSecs (sched : GrantSchedule) (known : String → Bool) (tz : Tz) (now : Int) : Option Nat :=
  (List.range 8).findSome? fun (offset : Nat) =>
    let probe := tz.localDay now + offset
    let wins := windowsOf sched probe
    (boundaries wins).findSome? fun b =>
      let opens := tz.localWallTs probe b
      if (labelAt wins known b).runnable && decide (now < opens) then some (opens - now).toNat
      else none

def isUnbounded (sched : GrantSchedule) : Bool := sched.weekly.isEmpty && !sched.hasOverrides

/-- `evaluate_times`. -/
def evaluateTimes (zones : Zones) (sched : GrantSchedule) (known : String → Bool) (now : Int) :
    TimedStatus :=
  if !sched.isSupportedVersion then .unparseable
  else if sched.paused = some true then .locked .paused none
  else
    match zones sched.tz with
    | none => .unparseable
    | some tz =>
      if isUnbounded sched then .unbounded
      else
        let day := tz.localDay now
        let wins := windowsOf sched day
        let minute := tz.minuteOfDay now
        let open_ (time : Option String) (label : Label) : TimedStatus :=
          .opened time (max (tz.localWallTs day (spanEndMinute wins known minute label)) now)
        match labelAt wins known minute with
        | .free => open_ none .free
        | .time id => open_ (some id) (.time id)
        | .unknown id => .locked (.unknownTime id) (nextOpenSecs sched known tz now)
        | .closed => .locked .outsideWindows (nextOpenSecs sched known tz now)

end Times
end Kintrinsic
