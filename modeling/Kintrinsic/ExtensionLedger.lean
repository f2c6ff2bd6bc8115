import Kintrinsic.LocalTime
import Kintrinsic.MachineWord
import Mathlib.Data.List.AList

/-! # The extension ledger

Today-only pools that a grant adds to and a take-back draws from.  Every entry point rolls
the day first and then looks the request id up in one list of applied ids, whichever pool
it addresses. -/
namespace Kintrinsic

open MachineWord

/-- Which limit an extension applies to. -/
inductive Dimension
  | schedule
  | budget
deriving DecidableEq

/-- One named time's pool; `seq` orders the pools by their latest grant. -/
structure TimePool where
  secs : Nat
  consumed : Nat
  seq : Nat
deriving DecidableEq

structure ExtensionLedger where
  tz : String
  dayKey : String
  applied : List String
  scheduleSecs : Nat
  budgetSecs : Nat
  scheduleConsumedSecs : Nat
  budgetBaselineTodaySecs : Option Nat
  budgetBaselineWeekSecs : Option Nat
  scheduleDeductSecs : Nat
  budgetDeductSecs : Nat
  bucketExtra : String → Nat
  timePools : AList fun _ : String => TimePool
  timeTopupSeq : Nat

namespace ExtensionLedger
variable (zones : Zones)

/-- The pools of a day that has just begun. -/
def emptyDay (tz dayKey : String) : ExtensionLedger :=
  ⟨tz, dayKey, [], 0, 0, 0, none, none, 0, 0, fun _ => 0, ∅, 0⟩

def new (tz : String) (now : Int) : ExtensionLedger :=
  emptyDay tz ((Tz.ofName zones tz).dayKey now)

variable (l : ExtensionLedger)

def zone : Tz := Tz.ofName zones l.tz

def dayKeyAt (now : Int) : String := (l.zone zones).dayKey now

/-- `roll`: another day's pools are cleared, whichever way the clock moved. -/
def roll (now : Int) : ExtensionLedger :=
  if l.dayKeyAt zones now = l.dayKey then l else emptyDay l.tz (l.dayKeyAt zones now)

theorem roll_current_day {zones : Zones} {l : ExtensionLedger} {now : Int} :
    (l.roll zones now).dayKeyAt zones now = (l.roll zones now).dayKey := by
  unfold roll
  split
  · assumption
  · rfl

/-- `reconcile`: roll in the old zone, then re-key to the new one. -/
def reconcile (tz : String) (now : Int) : ExtensionLedger :=
  if l.tz = tz then l
  else { l.roll zones now with tz := tz, dayKey := (Tz.ofName zones tz).dayKey now }

/-- `snapshot` and `from_snapshot`: every field is kept. -/
def restored : ExtensionLedger := l

/-- Roll, and let `credit` act unless the id was applied today. -/
def once (now : Int) (reqId : String) (credit : ExtensionLedger → ExtensionLedger) :
    Bool × ExtensionLedger :=
  let l := l.roll zones now
  if reqId ∈ l.applied then (false, l)
  else (true, credit { l with applied := l.applied ++ [reqId] })

def secsOf (minutes : Nat) : Nat := minutes * 60

/-- `apply`; the sum is a plain `u64` addition. -/
def apply (now : Int) (reqId : String) (minutes : Nat) (dim : Dimension) :
    Bool × ExtensionLedger :=
  l.once zones now reqId fun l =>
    match dim with
    | .schedule => { l with scheduleSecs := wrapU64 (l.scheduleSecs + secsOf minutes) }
    | .budget => { l with budgetSecs := wrapU64 (l.budgetSecs + secsOf minutes) }

/-- `apply_bucket`; the sum is a plain `u64` addition. -/
def applyBucket (now : Int) (reqId : String) (minutes : Nat) (bucketId : String) :
    Bool × ExtensionLedger :=
  l.once zones now reqId fun l =>
    { l with bucketExtra := fun b =>
        if b = bucketId then wrapU64 (l.bucketExtra b + secsOf minutes) else l.bucketExtra b }

/-- The pool of a named time, empty when it has none. -/
def timePool (timeId : String) : TimePool := (l.timePools.lookup timeId).getD ⟨0, 0, 0⟩

/-- `apply_time`; the pool takes the next top-up number. -/
def applyTime (now : Int) (reqId : String) (minutes : Nat) (timeId : String) :
    Bool × ExtensionLedger :=
  l.once zones now reqId fun l =>
    let seq := wrapU64 (l.timeTopupSeq + 1)
    let pool := l.timePool timeId
    { l with
      timeTopupSeq := seq
      timePools := l.timePools.insert timeId
        { pool with secs := addU64 pool.secs (secsOf minutes), seq := seq } }

/-- `deduct`. -/
def deduct (now : Int) (reqId : String) (minutes : Nat) (dim : Dimension) :
    Bool × ExtensionLedger :=
  l.once zones now reqId fun l =>
    match dim with
    | .schedule => { l with scheduleDeductSecs := addU64 l.scheduleDeductSecs (secsOf minutes) }
    | .budget => { l with budgetDeductSecs := addU64 l.budgetDeductSecs (secsOf minutes) }

/-- `burn_schedule`: wall clock off the schedule pool, to its end. -/
def burnSchedule (now : Int) (elapsed : Nat) : ExtensionLedger :=
  let l := l.roll zones now
  if l.scheduleConsumedSecs < l.scheduleSecs then
    { l with scheduleConsumedSecs := min (addU64 l.scheduleConsumedSecs elapsed) l.scheduleSecs }
  else l

/-- `burn_time`: wall clock off one named time's pool, to its end. -/
def burnTime (now : Int) (timeId : String) (elapsed : Nat) : ExtensionLedger :=
  let l := l.roll zones now
  match l.timePools.lookup timeId with
  | none => l
  | some p =>
    { l with
      timePools := l.timePools.insert timeId
        { p with consumed := min (addU64 p.consumed elapsed) p.secs } }

/-- `note_budget_baseline`: only the first of the day is kept. -/
def noteBudgetBaseline (now : Int) (usedToday usedWeek : Nat) : ExtensionLedger :=
  let l := l.roll zones now
  if l.budgetBaselineTodaySecs.isNone then
    { l with budgetBaselineTodaySecs := some usedToday, budgetBaselineWeekSecs := some usedWeek }
  else l

/-! ## Readers -/

/-- Whether the pools are another day's. -/
def stale (now : Int) : Bool := l.dayKeyAt zones now ≠ l.dayKey

def scheduleExtraSecs (now : Int) : Nat :=
  if l.stale zones now then 0 else l.scheduleSecs - l.scheduleConsumedSecs

def budgetExtraSecs (now : Int) : Nat := if l.stale zones now then 0 else l.budgetSecs

def bucketExtraSecs (now : Int) (bucketId : String) : Nat :=
  if l.stale zones now then 0 else l.bucketExtra bucketId

def timeExtraSecs (now : Int) (timeId : String) : Nat :=
  if l.stale zones now then 0 else (l.timePool timeId).secs - (l.timePool timeId).consumed

def scheduleDeductedSecs (now : Int) : Nat :=
  if l.stale zones now then 0 else l.scheduleDeductSecs

def budgetDeductedSecs (now : Int) : Nat := if l.stale zones now then 0 else l.budgetDeductSecs

/-- Both halves of the baseline, or neither. -/
def baseline : Option (Nat × Nat) :=
  match l.budgetBaselineTodaySecs, l.budgetBaselineWeekSecs with
  | some today, some week => some (today, week)
  | _, _ => none

def budgetBaselineSecs (now : Int) : Option (Nat × Nat) :=
  if l.stale zones now then none else l.baseline

/-- The later of two pools; of two with one number, the one whose id comes last. -/
def laterPool (best : Option (String × TimePool)) (p : String × TimePool) :
    Option (String × TimePool) :=
  match best with
  | none => some p
  | some b => if b.2.seq < p.2.seq ∨ b.2.seq = p.2.seq ∧ b.1 < p.1 then some p else some b

/-- `most_recent_named_pool_among`: the latest topped-up pool with minutes left. -/
def mostRecentNamedPoolAmong (now : Int) (known : String → Bool) : Option String :=
  if l.stale zones now then none
  else
    let pools := l.timePools.entries.map fun e => (e.1, e.2)
    let live := pools.filter fun p => decide (p.2.consumed < p.2.secs) && known p.1
    (live.foldl laterPool none).map Prod.fst

end ExtensionLedger
end Kintrinsic
