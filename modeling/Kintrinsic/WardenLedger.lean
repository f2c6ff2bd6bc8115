import Kintrinsic.Folds
import Kintrinsic.PoolRouting

/-! # The Android ward's pools

The warden makes one extension ledger, in the zone of its usage ledger, and keeps it in that zone.
Every tick lands the inbox and the gift in it, burns the pool that carries the device, and assesses
over it in the zone of enforcement.  What it holds is of the enforcement day as long as the two
zones are one. -/
namespace Kintrinsic

open DayFold ExtensionLedger GuardedRun MachineWord

/-! ## The pools of a day -/

/-- What adds to the day's pools or draws on them. -/
inductive PoolEvent
  | credit (call : PoolCall)
  | burnSchedule (now : Int) (elapsed : Nat)
  | burnTime (now : Int) (timeId : String) (elapsed : Nat)
deriving DecidableEq

def PoolEvent.instant : PoolEvent → Int
  | credit call => call.now
  | burnSchedule now _ => now
  | burnTime now _ _ => now

/-- The pools, whichever day they are of. -/
structure DayPools where
  scheduleSecs : Nat
  scheduleConsumedSecs : Nat
  budgetSecs : Nat
  scheduleDeductSecs : Nat
  budgetDeductSecs : Nat
  bucketExtra : String → Nat
  timePools : AList fun _ : String => TimePool
  timeTopupSeq : Nat

namespace DayPools

def empty : DayPools := ⟨0, 0, 0, 0, 0, fun _ => 0, ∅, 0⟩

variable (p : DayPools)

def credit (c : PoolCall) : DayPools :=
  let secs := secsOf c.minutes
  match c.address with
  | .give .schedule => { p with scheduleSecs := wrapU64 (p.scheduleSecs + secs) }
  | .give .budget => { p with budgetSecs := wrapU64 (p.budgetSecs + secs) }
  | .bucket id =>
    { p with bucketExtra := fun b =>
        if b = id then wrapU64 (p.bucketExtra b + secs) else p.bucketExtra b }
  | .time id =>
    let seq := wrapU64 (p.timeTopupSeq + 1)
    let pool := (p.timePools.lookup id).getD ⟨0, 0, 0⟩
    { p with
      timeTopupSeq := seq
      timePools := p.timePools.insert id { pool with secs := addU64 pool.secs secs, seq := seq } }
  | .take .schedule => { p with scheduleDeductSecs := addU64 p.scheduleDeductSecs secs }
  | .take .budget => { p with budgetDeductSecs := addU64 p.budgetDeductSecs secs }

/-- One event. -/
def add : PoolEvent → DayPools
  | .credit call => p.credit call
  | .burnSchedule _ elapsed =>
    if p.scheduleConsumedSecs < p.scheduleSecs then
      { p with scheduleConsumedSecs := min (addU64 p.scheduleConsumedSecs elapsed) p.scheduleSecs }
    else p
  | .burnTime _ timeId elapsed =>
    match p.timePools.lookup timeId with
    | none => p
    | some pool =>
      { p with
        timePools := p.timePools.insert timeId
          { pool with consumed := min (addU64 pool.consumed elapsed) pool.secs } }

end DayPools

namespace ExtensionLedger
variable (zones : Zones) (l : ExtensionLedger)

def dayPools : DayPools :=
  ⟨l.scheduleSecs, l.scheduleConsumedSecs, l.budgetSecs, l.scheduleDeductSecs, l.budgetDeductSecs,
    l.bucketExtra, l.timePools, l.timeTopupSeq⟩

/-- The pools as a reader finds them. -/
def poolsAt (now : Int) : DayPools := if l.stale zones now then .empty else l.dayPools

theorem poolsAt_eq (now : Int) : l.poolsAt zones now = (l.roll zones now).dayPools := by
  unfold poolsAt roll stale
  by_cases h : l.dayKeyAt zones now = l.dayKey
  · simp [h]
  · simp [h, emptyDay, dayPools, DayPools.empty]

end ExtensionLedger

/-- The pools of an instant's day, of all that ever happened. -/
def poolsOfDay (tz : Tz) (now : Int) (events : List PoolEvent) : DayPools :=
  ofDay (fun e : PoolEvent => tz.localDay e.instant) DayPools.add .empty (tz.localDay now) events

/-- **A ledger that holds its day**: it is kept in a zone, and holds what happened on a day of that
zone, the last so far. -/
structure HoldsDay (zones : Zones) (tz : Tz) (day : Int) (l : ExtensionLedger)
    (events : List PoolEvent) : Prop where
  zone : l.zone zones = tz
  key : l.dayKey = CivilDate.dateKey day
  keeps :
    Keeps (fun e : PoolEvent => tz.localDay e.instant) DayPools.add .empty day l.dayPools events

variable {zones : Zones} {tz : Tz} {day : Int} {l : ExtensionLedger} {events : List PoolEvent}

theorem roll_tz (zones : Zones) (l : ExtensionLedger) (now : Int) :
    (l.roll zones now).tz = l.tz := by
  unfold ExtensionLedger.roll
  split <;> rfl

/-- A roll brings it to the day of the instant. -/
theorem HoldsDay.roll (h : HoldsDay zones tz day l events) {now : Int}
    (hday : day ≤ tz.localDay now) :
    HoldsDay zones tz (tz.localDay now) (l.roll zones now) events := by
  have hcurrent_iff : l.dayKeyAt zones now = l.dayKey ↔ tz.localDay now = day := by
    rw [dayKeyAt, h.zone, h.key]
    exact ⟨CivilDate.dateKey_inj, congrArg CivilDate.dateKey⟩
  by_cases hcurrent : l.dayKeyAt zones now = l.dayKey
  · rw [roll_of_current hcurrent, hcurrent_iff.mp hcurrent]
    exact h
  · have hturn : day < tz.localDay now :=
      hday.lt_of_ne fun heq => hcurrent (hcurrent_iff.mpr heq.symm)
    unfold ExtensionLedger.roll
    rw [if_neg hcurrent]
    refine ⟨h.zone, ?_, h.keeps.turn hturn⟩
    show l.dayKeyAt zones now = _
    rw [dayKeyAt, h.zone]
    rfl

/-- **A ledger that is ready**: rolled at any instant whose day is not before the last one's, it
holds that day. -/
def Ready (zones : Zones) (tz : Tz) (seen : Option Int) (l : ExtensionLedger)
    (events : List PoolEvent) : Prop :=
  ∀ now, (∀ c ∈ seen, tz.localDay c ≤ tz.localDay now) →
    HoldsDay zones tz (tz.localDay now) (l.roll zones now) events

theorem HoldsDay.ready {now : Int} (h : HoldsDay zones tz (tz.localDay now) l events) :
    Ready zones tz (some now) l events :=
  fun _ hseen => h.roll (hseen now rfl)

/-- A new ledger is ready for any day. -/
theorem ready_new {name : String} (hname : Tz.ofName zones name = tz) (made : Int)
    (seen : Option Int) : Ready zones tz seen (.new zones name made) [] := by
  intro now _
  have hzone : ((ExtensionLedger.new zones name made).roll zones now).zone zones = tz := by
    rw [zone, roll_tz]
    exact hname
  refine ⟨hzone, ?_, ?_⟩
  · rw [← roll_current_day, dayKeyAt, hzone]
    rfl
  · have hpools : ((ExtensionLedger.new zones name made).roll zones now).dayPools = .empty := by
      unfold ExtensionLedger.roll
      split <;> rfl
    rw [hpools]
    exact .nil _

namespace Ready
variable {seen : Option Int}

theorem later (h : Ready zones tz seen l events) {now : Int}
    (hseen : ∀ c ∈ seen, tz.localDay c ≤ tz.localDay now) : Ready zones tz (some now) l events :=
  fun t ht => h t fun c hc => (hseen c hc).trans (ht now rfl)

/-- What a reader finds of it. -/
theorem poolsAt {now : Int} (h : Ready zones tz (some now) l events) :
    l.poolsAt zones now = poolsOfDay tz now events := by
  rw [poolsAt_eq]
  exact (h now (by simp)).keeps.acc

/-- A call that takes effect is an event of its day. -/
theorem call {c : PoolCall} (h : Ready zones tz (some c.now) l events) :
    Ready zones tz (some c.now) (c.run zones l).2
      (events ++ if (c.run zones l).1 then [.credit c] else []) := by
  have hrolled := h c.now (by simp)
  have hcurrent : (l.roll zones c.now).dayKeyAt zones c.now = (l.roll zones c.now).dayKey :=
    roll_current_day
  refine HoldsDay.ready ?_
  rw [← PoolCall.run_roll]
  generalize l.roll zones c.now = r at hrolled hcurrent ⊢
  by_cases hmem : c.reqId ∈ r.applied
  · rw [run_of_mem hcurrent hmem]
    simpa using hrolled
  · obtain ⟨htrue, hcredited⟩ := run_of_not_mem hcurrent hmem
    rw [htrue, if_pos rfl]
    refine ⟨?_, hcredited.dayKey.trans hrolled.key, ?_⟩
    · rw [ExtensionLedger.zone, hcredited.tz]
      exact hrolled.zone
    · have hpools : (c.run zones r).2.dayPools = r.dayPools.add (.credit c) := by
        obtain ⟨now, reqId, minutes, address⟩ := c
        unfold PoolCall.run
        rcases address with (_ | _) | id | id | (_ | _)
        all_goals
          simp only [apply, applyBucket, applyTime, deduct, once_of_not_mem hcurrent hmem]
          rfl
      rw [hpools]
      exact hrolled.keeps.snoc rfl

theorem burnSchedule {now : Int} (h : Ready zones tz (some now) l events) (elapsed : Nat) :
    Ready zones tz (some now) (l.burnSchedule zones now elapsed)
      (events ++ [.burnSchedule now elapsed]) := by
  have hrolled := h now (by simp)
  refine HoldsDay.ready ?_
  unfold ExtensionLedger.burnSchedule
  generalize l.roll zones now = r at hrolled ⊢
  have hkeeps := hrolled.keeps.snoc (e := PoolEvent.burnSchedule now elapsed) rfl
  by_cases hleft : r.scheduleConsumedSecs < r.scheduleSecs
  · have hpools : r.dayPools.add (.burnSchedule now elapsed) = _ := if_pos hleft
    rw [hpools] at hkeeps
    rw [if_pos hleft]
    exact ⟨hrolled.zone, hrolled.key, hkeeps⟩
  · have hpools : r.dayPools.add (.burnSchedule now elapsed) = _ := if_neg hleft
    rw [hpools] at hkeeps
    rw [if_neg hleft]
    exact ⟨hrolled.zone, hrolled.key, hkeeps⟩

theorem burnTime {now : Int} (h : Ready zones tz (some now) l events) (timeId : String)
    (elapsed : Nat) :
    Ready zones tz (some now) (l.burnTime zones now timeId elapsed)
      (events ++ [.burnTime now timeId elapsed]) := by
  have hrolled := h now (by simp)
  refine HoldsDay.ready ?_
  unfold ExtensionLedger.burnTime
  generalize l.roll zones now = r at hrolled ⊢
  have hkeeps := hrolled.keeps.snoc (e := PoolEvent.burnTime now timeId elapsed) rfl
  have hpools : r.dayPools.add (.burnTime now timeId elapsed) =
      match r.timePools.lookup timeId with
      | none => r.dayPools
      | some pool =>
        { r.dayPools with
          timePools := r.timePools.insert timeId
            { pool with consumed := min (addU64 pool.consumed elapsed) pool.secs } } := rfl
  rw [hpools] at hkeeps
  dsimp only
  cases hpool : r.timePools.lookup timeId with
  | none =>
    rw [hpool] at hkeeps
    exact ⟨hrolled.zone, hrolled.key, hkeeps⟩
  | some pool =>
    rw [hpool] at hkeeps
    exact ⟨hrolled.zone, hrolled.key, hkeeps⟩

end Ready

/-! ## The tick -/

namespace Warden
variable (zones : Zones) (scheduleClosed : Bool)

/-- The call that an entry of the inbox makes. -/
def pendingCall (p : PendingExtension) : Option PoolCall :=
  match p.bucketId, p.dim, p.timeId with
  | some bucketId, _, _ => some ⟨p.at_, p.reqId, p.minutes, .bucket bucketId⟩
  | none, some dim, _ => some ⟨p.at_, p.reqId, p.minutes, .give dim⟩
  | none, none, some timeId =>
    some ⟨p.at_, p.reqId, p.minutes, (Aim.time timeId).android scheduleClosed⟩
  | none, none, none => none

/-- The call that a gift makes. -/
def giftCall (now : Int) (body : GiftBody) (buckets : Option (List String)) : Option PoolCall :=
  (TimeDelivery.gift body).callTo now (((TimeDelivery.gift body).aim buckets).android scheduleClosed)

/-- A call, if there is one. -/
def called (l : ExtensionLedger) (call : Option PoolCall) : ExtensionLedger :=
  (call.map fun c => (c.run zones l).2).getD l

/-- What it credits, if it takes effect. -/
def credited (l : ExtensionLedger) (call : Option PoolCall) : List PoolEvent :=
  (call.map fun c => if (c.run zones l).1 then [PoolEvent.credit c] else []).getD []

theorem drainOne_eq (l : ExtensionLedger) (known : String → Bool) (p : PendingExtension) :
    (drainOne zones l known scheduleClosed p).1 =
      called zones l (pendingCall scheduleClosed p) := by
  obtain ⟨reqId, minutes, dim, bucketId, timeId, at_⟩ := p
  rcases bucketId with _ | bucketId
  · rcases dim with _ | dim
    · rcases timeId with _ | timeId
      · rfl
      · exact landTyped_run ..
    · rfl
  · rfl

theorem landGift_eq (l : ExtensionLedger) (known : String → Bool) (now : Int) (body : GiftBody)
    (buckets : Option (List String)) :
    (landGift zones l known scheduleClosed now body buckets).1 =
      called zones l (giftCall scheduleClosed now body buckets) := by
  unfold landGift giftCall TimeDelivery.callTo TimeDelivery.aim
  dsimp only
  cases body.minutesNow (asU64 now) with
  | none => rfl
  | some minutes =>
    dsimp only [Option.map_some]
    cases liveBucket body buckets with
    | some bucketId => rfl
    | none =>
      cases body.time with
      | none => rfl
      | some time => exact landTyped_run ..

theorem pendingCall_now {p : PendingExtension} {c : PoolCall}
    (h : pendingCall scheduleClosed p = some c) : c.now = p.at_ := by
  unfold pendingCall at h
  split at h <;> cases h <;> rfl

theorem giftCall_now {now : Int} {body : GiftBody} {buckets : Option (List String)} {c : PoolCall}
    (h : giftCall scheduleClosed now body buckets = some c) : c.now = now := by
  obtain ⟨minutes, -, rfl⟩ := Option.map_eq_some_iff.mp h
  rfl

end Warden

/-- A call at an instant, or none, keeps a ledger ready. -/
theorem Ready.called {now : Int} (h : Ready zones tz (some now) l events) {call : Option PoolCall}
    (hcall : ∀ c ∈ call, c.now = now) :
    Ready zones tz (some now) (Warden.called zones l call)
      (events ++ Warden.credited zones l call) := by
  cases call with
  | none => simpa [Warden.called, Warden.credited] using h
  | some c =>
    obtain rfl := hcall c rfl
    exact h.call

/-! ## The tick -/

/-- The buckets clause as the ledgers' tick reads it. -/
structure BucketsView where
  tz : String
  ids : List String

/-- What a tick reads: the clauses in force, the views of the other stores, the inbox, the gift, and
whether its ledger is written. -/
structure WardTick where
  now : Int
  schedule : Option GrantSchedule
  budget : Option GrantBudget
  buckets : Option BucketsView
  times : Option GrantTimes
  usage : UsageLedger
  consolidated : Option ConsolidatedUsage
  standDown : Option StandDown
  pending : List PendingExtension
  gift : Option GiftBody
  saved : Bool

/-- The ledger in memory, its snapshot, and the last tick. -/
structure WardLedgers where
  memory : Option ExtensionLedger
  disk : Option ExtensionLedger
  lastTick : Option Int

def maxTickElapsedSecs : Int := 300

/-- `elapsed_since`. -/
def WardLedgers.elapsedSince (b : WardLedgers) (now : Int) : Nat :=
  match b.lastTick with
  | some prev => (max 0 (min (now - prev) maxTickElapsedSecs)).toNat
  | none => 0

/-- The ledger that the next tick starts from, if there is one. -/
def WardLedgers.current (b : WardLedgers) : Option ExtensionLedger := b.memory.or b.disk

namespace WardTick
variable (cal : Calendar) (t : WardTick)

/-- No charter for this ward. -/
def inert : Bool :=
  t.schedule.isNone && t.budget.isNone && t.standDown.isNone && t.buckets.isNone

/-- The zone of enforcement. -/
def enforcementTz : Tz := enforcementTzOf cal.zones t.schedule t.budget

/-- `Tz::name` of the zone of enforcement. -/
def enforcementTzName : String :=
  (((t.schedule.map (·.tz)).or (t.budget.map (·.tz))).filter fun name =>
    (cal.zones name).isSome).getD "UTC"

/-- The zone that the ledgers are prepared in: the budget clause's, else the buckets clause's. -/
def ledgerTz : String :=
  match t.budget, t.buckets with
  | some b, _ => b.tz
  | none, some bk => bk.tz
  | none, none => t.enforcementTzName cal

/-- `ensure_ledgers`, for the extensions: a ledger is restored or made, and left in its zone. -/
def ensured (b : WardLedgers) : ExtensionLedger :=
  b.current.getD (.new cal.zones (t.ledgerTz cal) t.now)

def scheduleClosed : Bool :=
  t.schedule.any fun s =>
    TimesRouting.TimedStatus.isLocked (WardenTimes.timedStatus cal.zones s t.times t.now)

/-- One entry of the inbox, with what it credits. -/
def drain (r : ExtensionLedger × List PoolEvent) (p : PendingExtension) :
    ExtensionLedger × List PoolEvent :=
  ((Warden.drainOne cal.zones r.1 (knownIn t.times) (t.scheduleClosed cal) p).1,
    r.2 ++ Warden.credited cal.zones r.1 (Warden.pendingCall (t.scheduleClosed cal) p))

/-- The ledger after the inbox. -/
def drained (l : ExtensionLedger) : ExtensionLedger × List PoolEvent :=
  t.pending.foldl (t.drain cal) (l, [])

/-- The ledger after the inbox and the gift. -/
def landed (l : ExtensionLedger) : ExtensionLedger × List PoolEvent :=
  let r := t.drained cal l
  match t.gift with
  | none => r
  | some body =>
    let ids := t.buckets.map (·.ids)
    ((Warden.landGift cal.zones r.1 (knownIn t.times) (t.scheduleClosed cal) t.now body ids).1,
      r.2 ++ Warden.credited cal.zones r.1
        (Warden.giftCall (t.scheduleClosed cal) t.now body ids))

/-- What the tick assesses over a ledger. -/
def inputs (l : ExtensionLedger) : WardenTimes.TimesInputs :=
  ⟨t.now, t.schedule, t.budget, t.times, t.usage, l, t.consolidated, t.standDown⟩

/-- What burns: the pool that carries the device, by an assessment made first. -/
def burned (elapsed : Nat) (l : ExtensionLedger) : ExtensionLedger × List PoolEvent :=
  if elapsed = 0 then (l, [])
  else
    let pre := (t.inputs l).assess cal
    let r : ExtensionLedger × List PoolEvent :=
      if pre.burnSchedulePool then
        (l.burnSchedule cal.zones t.now elapsed, [.burnSchedule t.now elapsed])
      else (l, [])
    match pre.run with
    | .namedPool id =>
      (r.1.burnTime cal.zones t.now id elapsed, r.2 ++ [.burnTime t.now id elapsed])
    | .window => r

end WardTick

/-- A run so far: the ledgers, all that was credited and burned, and the last instant. -/
structure WardRun where
  ledgers : WardLedgers
  events : List PoolEvent
  seen : Option Int

inductive LedgerStep
  | tick (t : WardTick)
  | restart

namespace WardRun
variable (cal : Calendar)

/-- A ward on which nothing has run. -/
def new : WardRun := ⟨⟨none, none, none⟩, [], none⟩

variable (r : WardRun)

/-- The ledger that a tick's first assessment reads, and the credits until then. -/
def landed (t : WardTick) : ExtensionLedger × List PoolEvent :=
  t.landed cal (t.ensured cal r.ledgers)

/-- The ledger that the tick decides over, and the burns before. -/
def burned (t : WardTick) : ExtensionLedger × List PoolEvent :=
  t.burned cal (r.ledgers.elapsedSince t.now) (r.landed cal t).1

def step : LedgerStep → WardRun
  | .tick t =>
    if t.inert then r
    else
      let l := (r.burned cal t).1
      { ledgers := ⟨some l, if t.saved then some l else r.ledgers.disk, some t.now⟩
        events := r.events ++ (r.landed cal t).2 ++ (r.burned cal t).2
        seen := some t.now }
  | .restart => { r with ledgers := ⟨none, r.ledgers.disk, none⟩ }

/-- Both assessments of a tick read exactly what was credited and burned on the enforcement day. -/
structure ReadsDay (t : WardTick) : Prop where
  first : (r.landed cal t).1.poolsAt cal.zones t.now =
    poolsOfDay (t.enforcementTz cal) t.now (r.events ++ (r.landed cal t).2)
  last : (r.burned cal t).1.poolsAt cal.zones t.now =
    poolsOfDay (t.enforcementTz cal) t.now (r.events ++ (r.landed cal t).2 ++ (r.burned cal t).2)

/-- Extensions are of the enforcement day, at every tick of a run. -/
def TodayOnly (as : List LedgerStep) : Prop :=
  ∀ before t after, as = before ++ .tick t :: after → t.inert = false →
    (before.foldl (step cal) new).ReadsDay cal t

/-- The zone that the ledger is kept in, or will be made in. -/
def ledgerZone (t : WardTick) : Tz := (t.ensured cal r.ledgers).zone cal.zones

/-- **What a step must find**: a tick, the ledger kept in the zone of enforcement, and instants
whose local days rise; a restart, the last ledger written. -/
def Admits : LedgerStep → Prop
  | .tick t => t.inert = true ∨ r.ledgerZone cal t = t.enforcementTz cal ∧
      (r.seen.toList ++ t.pending.map (·.at_) ++ [t.now]).Pairwise fun a b =>
        (t.enforcementTz cal).localDay a ≤ (t.enforcementTz cal).localDay b
  | .restart => r.ledgers.memory = none ∨ r.ledgers.disk = r.ledgers.memory

end WardRun

/-! ## What a tick keeps -/

namespace WardTick
variable {cal : Calendar} {t : WardTick} {seen : Option Int}

/-- The inbox, entry by entry: each rolls to its own instant. -/
theorem ready_drained {ps : List PendingExtension} {r : ExtensionLedger × List PoolEvent}
    (h : Ready cal.zones tz seen r.1 (events ++ r.2))
    (hdays : (seen.toList ++ ps.map (·.at_) ++ [t.now]).Pairwise fun a b =>
      tz.localDay a ≤ tz.localDay b) :
    Ready cal.zones tz (some t.now) (ps.foldl (t.drain cal) r).1
      (events ++ (ps.foldl (t.drain cal) r).2) := by
  induction ps generalizing seen r with
  | nil =>
    refine h.later fun c hc => ?_
    rw [Option.mem_def.mp hc] at hdays
    exact (List.pairwise_cons.mp hdays).1 _ (by simp)
  | cons p ps ih =>
    have hseen : ∀ c ∈ seen, tz.localDay c ≤ tz.localDay p.at_ := by
      intro c hc
      rw [Option.mem_def.mp hc] at hdays
      exact (List.pairwise_cons.mp hdays).1 _ (by simp)
    have hnext : Ready cal.zones tz (some p.at_) (t.drain cal r p).1
        (events ++ (t.drain cal r p).2) := by
      unfold drain
      rw [Warden.drainOne_eq, ← List.append_assoc]
      exact (h.later hseen).called fun c hc => Warden.pendingCall_now _ hc
    rw [List.foldl_cons]
    refine ih hnext (hdays.sublist ?_)
    rw [List.append_assoc, List.append_assoc]
    exact List.sublist_append_right _ _

theorem ready_landed (h : Ready cal.zones tz seen l events)
    (hdays : (seen.toList ++ t.pending.map (·.at_) ++ [t.now]).Pairwise fun a b =>
      tz.localDay a ≤ tz.localDay b) :
    Ready cal.zones tz (some t.now) (t.landed cal l).1 (events ++ (t.landed cal l).2) := by
  have hdrained : Ready cal.zones tz (some t.now) (t.drained cal l).1
      (events ++ (t.drained cal l).2) :=
    ready_drained (r := (l, [])) (by rwa [List.append_nil]) hdays
  unfold landed
  cases t.gift with
  | none => exact hdrained
  | some body =>
    dsimp only
    rw [Warden.landGift_eq, ← List.append_assoc]
    exact hdrained.called fun c hc => Warden.giftCall_now _ hc

theorem ready_burned (h : Ready cal.zones tz (some t.now) l events) (elapsed : Nat) :
    Ready cal.zones tz (some t.now) (t.burned cal elapsed l).1
      (events ++ (t.burned cal elapsed l).2) := by
  unfold burned
  split
  · rwa [List.append_nil]
  dsimp only
  have hschedule : ∀ burns : Bool,
      let r : ExtensionLedger × List PoolEvent :=
        if burns then (l.burnSchedule cal.zones t.now elapsed, [.burnSchedule t.now elapsed])
        else (l, [])
      Ready cal.zones tz (some t.now) r.1 (events ++ r.2) := by
    intro burns
    cases burns with
    | true => exact h.burnSchedule elapsed
    | false => simpa using h
  split
  · rename_i id _
    rw [← List.append_assoc]
    exact (hschedule _).burnTime id elapsed
  · exact hschedule _

end WardTick

namespace WardRun
variable {cal : Calendar} {r : WardRun} {t : WardTick}

/-- **The invariant**: the ledger that the next tick starts from is ready, in the zone it is kept
in, for all that happened; nothing did before there was one. -/
def Holds (cal : Calendar) (r : WardRun) : Prop :=
  match r.ledgers.current with
  | some l => Ready cal.zones (l.zone cal.zones) r.seen l r.events
  | none => r.events = []

theorem ready_ensured (h : r.Holds cal) :
    Ready cal.zones (r.ledgerZone cal t) r.seen (t.ensured cal r.ledgers) r.events := by
  unfold Holds at h
  unfold ledgerZone WardTick.ensured
  cases hcurrent : r.ledgers.current with
  | some l =>
    rw [hcurrent] at h
    exact h
  | none =>
    rw [hcurrent] at h
    rw [h]
    exact ready_new rfl _ _

theorem ready_tick (h : r.Holds cal) (hadmits : r.Admits cal (.tick t))
    (hactive : t.inert = false) :
    Ready cal.zones (t.enforcementTz cal) (some t.now) (r.landed cal t).1
        (r.events ++ (r.landed cal t).2) ∧
      Ready cal.zones (t.enforcementTz cal) (some t.now) (r.burned cal t).1
        (r.events ++ (r.landed cal t).2 ++ (r.burned cal t).2) := by
  rcases hadmits with hinert | ⟨hzone, hdays⟩
  · rw [hactive] at hinert
    cases hinert
  · have hready := ready_ensured (t := t) h
    rw [hzone] at hready
    have hlanded := WardTick.ready_landed hready hdays
    exact ⟨hlanded, WardTick.ready_burned hlanded _⟩

/-- A tick that may be taken reads its day. -/
theorem readsDay (h : r.Holds cal) (hadmits : r.Admits cal (.tick t)) (hactive : t.inert = false) :
    r.ReadsDay cal t :=
  ⟨(ready_tick h hadmits hactive).1.poolsAt, (ready_tick h hadmits hactive).2.poolsAt⟩

/-- A ledger is ready in the zone it is kept in only. -/
theorem zone_of_ready {now : Int} (h : Ready cal.zones tz (some now) l events) :
    l.zone cal.zones = tz := by
  have hzone := (h now (by simp)).zone
  rwa [zone, roll_tz] at hzone

theorem holds_step (s : LedgerStep) (h : r.Holds cal) (hadmits : r.Admits cal s) :
    (r.step cal s).Holds cal := by
  cases s with
  | tick t =>
    by_cases hinert : t.inert = true
    · have hstep : r.step cal (.tick t) = r := if_pos hinert
      rwa [hstep]
    · have hready := (ready_tick h hadmits (Bool.eq_false_of_not_eq_true hinert)).2
      have hstep : r.step cal (.tick t) = _ := if_neg hinert
      rw [hstep]
      show Ready cal.zones ((r.burned cal t).1.zone cal.zones) _ _ _
      rw [zone_of_ready hready]
      exact hready
  | restart =>
    have hcurrent : (r.step cal .restart).ledgers.current = r.ledgers.current := by
      show (none : Option ExtensionLedger).or r.ledgers.disk = r.ledgers.memory.or r.ledgers.disk
      rcases hadmits with hnone | hwritten
      · rw [hnone]
      · rw [hwritten]
        cases r.ledgers.memory <;> rfl
    unfold Holds at h ⊢
    rw [hcurrent]
    exact h

/-- **Extensions are of the enforcement day.**  In a run whose ticks find the ledger kept in their
zone of enforcement, every assessment reads exactly what was credited and burned on the day. -/
theorem today_only (cal : Calendar) {as : List LedgerStep}
    (h : Obeys (step cal) (Admits cal) new as) : TodayOnly cal as := by
  rintro before t after rfl hactive
  obtain ⟨hbefore, hadmits, -⟩ := obeys_append.mp h
  have hholds : (before.foldl (step cal) new).Holds cal :=
    hbefore.invariant (fun r s hr hs => holds_step s hr hs) rfl
  exact readsDay hholds hadmits hactive

/-! ## Two zones -/

/-- A ledger of UTC and of the zone an hour ahead. -/
def twoZoneCalendar : Calendar := ⟨twoZones, UsageLedger.utcCalendar.parse⟩

/-- A tick under an hour-a-day budget of UTC, beside a schedule that is always open. -/
def tickAt (scheduleTz : String) (now : Int) (gift : Option GiftBody) : WardTick where
  now := now
  schedule := some ⟨1, scheduleTz, none, .empty, none, 0⟩
  budget := some ⟨1, "UTC", some 60, none, none, none, none, none, 0⟩
  buckets := none
  times := none
  usage := .new twoZoneCalendar "UTC" .mon now
  consolidated := none
  standDown := none
  pending := []
  gift := gift
  saved := true

/-- Half an hour is given at half past ten in the evening, UTC; a restart, and an hour later the
next tick. -/
def lateGift (scheduleTz : String) : List LedgerStep :=
  [.tick (tickAt scheduleTz 1782772200 (some ⟨1, 0, "g1", 30, 1782779400, none, none⟩)), .restart,
    .tick (tickAt scheduleTz 1782775800 none)]

/-- In one zone the half hour is there to the end of the day. -/
theorem today_only_oneZone : TodayOnly twoZoneCalendar (lateGift "UTC") := by
  refine today_only twoZoneCalendar ⟨?_, ?_, ?_, trivial⟩
  · exact .inr ⟨rfl, by decide +kernel⟩
  · exact .inr rfl
  · exact .inr ⟨rfl, by decide +kernel⟩

/-- **In two zones yesterday's half hour is still there**: the schedule's midnight has passed, and
the ledger waits for the budget's. -/
theorem yesterday_lives_on : ¬TodayOnly twoZoneCalendar (lateGift "Etc/GMT-1") := by
  intro h
  have hreads := (h [_, _] _ [] rfl (by decide)).last
  have hbudget := congrArg DayPools.budgetSecs hreads
  exact absurd hbudget (by decide +kernel)

end WardRun

end Kintrinsic
