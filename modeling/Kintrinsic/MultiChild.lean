import Kintrinsic.ChildPolicy
import Kintrinsic.EnforcerTick

/-! # Enforcement over many children

One login per child, each with limits and ledgers of its own: whoever is logged in is charged,
and everyone is judged.  What a child keeps over a restart are the snapshots of its two ledgers;
the rest is policy, which a sync sets again, and what the loop sets again before every tick. -/
namespace Kintrinsic

/-- Whether a learning clause is paused. -/
def GrantLearning.isPaused (l : GrantLearning) : Bool := l.paused.getD false

/-- `TimeModel::of`. -/
def TimeModel.of (budget : Option GrantBudget) : TimeModel :=
  (budget.bind (·.model)).getD .session

/-! ## Policies -/

/-- `policy_tz`: the schedule's zone before the budget's. -/
def policyTz (p : EffectivePolicy) : String :=
  ((p.schedule.map (·.tz)).or (p.budget.map (·.tz))).getD "UTC"

/-- `with_resolved_tz`: a substitute without a zone takes the fallback. -/
def withResolvedTz (p : EffectivePolicy) (fallback : String) : EffectivePolicy :=
  { p with
    schedule := p.schedule.map fun s => if s.tz = unresolvedTz then { s with tz := fallback } else s
    budget := p.budget.map fun b => if b.tz = unresolvedTz then { b with tz := fallback } else b }

/-- `policy_week_start`. -/
def policyWeekStart (p : EffectivePolicy) : WeekStart := (p.budget.bind (·.weekStart)).getD .mon

/-- One child's enforcement state. -/
structure ChildEnforcer where
  core : EnforcerCore
  usage : UsageLedger
  extension : ExtensionLedger
  tz : String
  schedule : Option GrantSchedule
  budget : Option GrantBudget
  learning : Option GrantLearning
  source : PolicySource
  consolidated : Option ConsolidatedUsage
  standDown : Option StandDown
  bucketsTz : Option String
  bucketsWeekStart : Option WeekStart
  unsavedBudget : Option GrantBudget

/-- The foreground of one tick.  No open set at all is not an empty one: the display could not
be read. -/
structure Foreground where
  activity : Activity
  bucket : Bucket
  openBuckets : Option (List String)
  unrecognised : Bool
deriving DecidableEq

/-- The clock of one tick. -/
structure TickClock where
  now : Int
  elapsed : Nat
deriving DecidableEq

/-- What the loop should do for one child. -/
structure ChildDecision where
  uid : UInt32
  active : Bool
  locked : Bool
  reason : Option LockReason
  effects : List EnforcerEffect
  source : PolicySource
deriving DecidableEq

namespace ChildEnforcer
variable (cal : Calendar) (c : ChildEnforcer)

/-- `new`; the device's own zone stands in for one that is not resolved. -/
def new (deviceTz : String) (policy : EffectivePolicy) (now : Int) : ChildEnforcer :=
  let policy := withResolvedTz policy deviceTz
  let tz := policyTz policy
  { core := .new
    usage := .new cal tz (policyWeekStart policy) now
    extension := .new cal.zones tz now
    tz := tz
    schedule := policy.schedule
    budget := policy.budget
    learning := policy.learning
    source := policy.source
    consolidated := none
    standDown := none
    bucketsTz := none
    bucketsWeekStart := none
    unsavedBudget := none }

/-- `quota_budget`: the stand-in of a ledger that cannot be saved, while there is a budget. -/
def quotaBudget : Option GrantBudget := (c.budget.bind fun _ => c.unsavedBudget).or c.budget

/-- `relimit`: another policy over the same ledgers. -/
def relimit (policy : EffectivePolicy) : ChildEnforcer :=
  let policy := withResolvedTz policy c.usage.tz
  { c with
    tz := policyTz policy
    schedule := policy.schedule
    budget := policy.budget
    learning := policy.learning
    source := policy.source }

/-- The learning clause that is in force and has headroom. -/
def learningHeadroom (now : Int) : Bool :=
  match c.learning with
  | none => false
  | some l =>
    !l.isPaused && !(l.capMinutes.any fun cap => cap.toNat * 60 ≤ c.usage.learningToday cal now)

/-- `effective_bucket`: learning sticks only under a clause with headroom. -/
def effectiveBucket (attributed : Bucket) (now : Int) : Bucket :=
  if attributed ≠ .learning then .screen
  else if c.learningHeadroom cal now then .learning
  else .screen

/-- The ledgers of a child at an instant, in the zones in force: the budget clause's, else the
buckets clause's, else that of the schedule. -/
def usageKeys : String × WeekStart :=
  match c.budget, c.bucketsTz with
  | some b, _ => (b.tz, b.weekStart.getD .mon)
  | none, some tz => (tz, c.bucketsWeekStart.getD .mon)
  | none, none => (c.tz, .mon)

/-- The first part of a tick: both ledgers are brought into their zones. -/
def reconcile (clockTrusted : Bool) (now : Int) : ChildEnforcer :=
  { c with
    usage := (c.usage.setClockTrusted clockTrusted).reconcile cal c.usageKeys.1 c.usageKeys.2 now
    extension := c.extension.reconcile cal.zones c.tz now }

/-- What the day's allowance is charged for. -/
def charge (fg : Foreground) (now : Int) : Option Bucket :=
  match TimeModel.of c.budget with
  | .session => some (c.effectiveBucket cal fg.bucket now)
  | .named =>
    match fg.openBuckets with
    | some opened => if opened ≠ [] then some .screen else none
    | none => some .screen

/-- The credits of an active child, in order. -/
def credits (fg : Foreground) (t : TickClock) : List Credit :=
  ((c.charge cal fg t.now).map fun eff => Credit.bucket t.now fg.activity eff t.elapsed).toList ++
    (if fg.activity.counts then
      (fg.openBuckets.getD []).map fun id => Credit.appBucket t.now id t.elapsed
    else []) ++
    if fg.unrecognised then [Credit.unrecognised t.now fg.activity t.elapsed] else []

/-- The second part of a tick: the active child's time. -/
def spend (fg : Foreground) (t : TickClock) : ChildEnforcer :=
  { c with usage := (c.credits cal fg t).foldl (Credit.apply cal) c.usage }

/-- Out of its window, every child's schedule pool burns. -/
def burn (t : TickClock) : ChildEnforcer :=
  { c with extension :=
      burnScheduleExtension cal.zones c.extension c.schedule t.now t.elapsed }

/-- What the core is ticked with. -/
def inputs (now : Int) : EnforcerInputs :=
  ⟨now, c.schedule, c.quotaBudget, c.usage, c.extension, c.consolidated, c.standDown⟩

/-- The last part of a tick: the verdict. -/
def judge (uid : UInt32) (active : Bool) (now : Int) : ChildEnforcer × ChildDecision :=
  let r := c.core.tick cal (c.inputs now)
  ({ c with core := r.1 },
    ⟨uid, active, r.1.isLocked, (computeRemaining cal (c.inputs now)).reason, r.2, c.source⟩)

/-- One child's part of `tick_open_with`; the foreground is that of the active child. -/
def tick (clockTrusted : Bool) (uid : UInt32) (fg : Option Foreground) (t : TickClock) :
    ChildEnforcer × ChildDecision :=
  let c := c.reconcile cal clockTrusted t.now
  let c := match fg with
    | some fg => c.spend cal fg t
    | none => c
  (c.burn cal t).judge cal uid fg.isSome t.now

/-- A snapshot as it reads back: the ledgers, without the trust in the clock. -/
def snapshot : UsageLedger × ExtensionLedger := (c.usage.restored, c.extension.restored)

/-- `restore_usage` and `restore_extension`; a snapshot that does not parse is none. -/
def restore (snap : Option UsageLedger × Option ExtensionLedger) : ChildEnforcer :=
  { c with
    usage := (snap.1.map UsageLedger.restored).getD c.usage
    extension := snap.2.getD c.extension }

/-- A child that a sync names: an existing one is given its policy, a new one is made and
seeded, and its policy read again in the zone of the ledger that came back. -/
def synced (deviceTz : String) (now : Int) (snap : Option UsageLedger × Option ExtensionLedger)
    (policy : EffectivePolicy) : Option ChildEnforcer → ChildEnforcer
  | some c => c.relimit policy
  | none => ((new cal deviceTz policy now).restore snap).relimit policy

/-- One change of the extension ledger, with its answer. -/
def adjustExtension (f : ExtensionLedger → Bool × ExtensionLedger) : Bool × ChildEnforcer :=
  let r := f c.extension
  (r.1, { c with extension := r.2 })

/-- One child's part of `apply_extension`: a new budget grant records where the debt stood. -/
def applyExtension (now : Int) (reqId : String) (minutes : Nat) (dim : Dimension) :
    Bool × ChildEnforcer :=
  c.adjustExtension fun l =>
    let r := l.apply cal.zones now reqId minutes dim
    let today := c.usage.usedToday cal now
    let week := c.usage.usedWeek cal now
    if r.1 && decide (dim = .budget) then
      (r.1, r.2.noteBudgetBaseline cal.zones now today week)
    else r

end ChildEnforcer

/-! ## The enforcer -/

/-- Every managed child, by uid. -/
structure MultiChildEnforcer where
  children : UInt32 → Option ChildEnforcer
  clockTrusted : Bool

/-- The ledgers a new child is seeded with. -/
abbrev Restore := UInt32 → Option UsageLedger × Option ExtensionLedger

namespace MultiChildEnforcer
variable (cal : Calendar) (m : MultiChildEnforcer)

def new : MultiChildEnforcer := ⟨fun _ => none, false⟩

/-- `set_clock_trusted`. -/
def setClockTrusted (trusted : Bool) : MultiChildEnforcer := { m with clockTrusted := trusted }

/-- Change one tracked child; an untracked one is none of the enforcer's. -/
def modify (uid : UInt32) (f : ChildEnforcer → ChildEnforcer) : MultiChildEnforcer :=
  { m with children := fun u => if u = uid then (m.children u).map f else m.children u }

/-- One entry of a sync. -/
def syncOne (deviceTz : String) (now : Int) (restore : Restore) (m : MultiChildEnforcer)
    (config : UInt32 × EffectivePolicy) : MultiChildEnforcer :=
  let child := ChildEnforcer.synced cal deviceTz now (restore config.1) config.2 (m.children config.1)
  { m with children := fun u => if u = config.1 then some child else m.children u }

/-- `sync`. -/
def sync (deviceTz : String) (configs : List (UInt32 × EffectivePolicy)) (now : Int)
    (restore : Restore) : MultiChildEnforcer :=
  let keep := configs.map Prod.fst
  let kept := { m with children := fun u => if u ∈ keep then m.children u else none }
  configs.foldl (syncOne cal deviceTz now restore) kept

theorem syncOne_children (deviceTz : String) (now : Int) (restore : Restore)
    (config : UInt32 × EffectivePolicy) (u : UInt32) :
    (syncOne cal deviceTz now restore m config).children u =
      if u = config.1 then
        some (ChildEnforcer.synced cal deviceTz now (restore u) config.2 (m.children u))
      else m.children u := by
  unfold syncOne
  dsimp only
  split
  · rename_i h
    rw [h]
  · rfl

/-- A sync is a matter of each child on its own: of its entries, in their order. -/
theorem sync_children (deviceTz : String) (configs : List (UInt32 × EffectivePolicy)) (now : Int)
    (restore : Restore) (u : UInt32) :
    (m.sync cal deviceTz configs now restore).children u =
      (configs.filter (·.1 = u)).foldl
        (fun c config => some (ChildEnforcer.synced cal deviceTz now (restore u) config.2 c))
        (if u ∈ configs.map Prod.fst then m.children u else none) := by
  have hfold : ∀ m : MultiChildEnforcer,
      (configs.foldl (syncOne cal deviceTz now restore) m).children u =
        (configs.filter (·.1 = u)).foldl
          (fun c config => some (ChildEnforcer.synced cal deviceTz now (restore u) config.2 c))
          (m.children u) := by
    induction configs with
    | nil => exact fun _ => rfl
    | cons config configs ih =>
      intro m
      rw [List.foldl_cons, ih, List.filter_cons]
      rw [syncOne_children]
      by_cases h : config.1 = u
      · rw [if_pos (decide_eq_true h), List.foldl_cons, if_pos h.symm]
      · rw [if_neg (Ne.symm h), if_neg (by simpa using h)]
  exact hfold _

theorem filter_of_notMem {configs : List (UInt32 × EffectivePolicy)} {u : UInt32}
    (h : u ∉ configs.map Prod.fst) : configs.filter (·.1 = u) = [] := by
  refine List.filter_eq_nil_iff.mpr fun e he heq => h ?_
  exact List.mem_map.mpr ⟨e, he, of_decide_eq_true heq⟩

/-- A sync drops whom it does not name. -/
theorem sync_children_of_notMem (deviceTz : String) {configs : List (UInt32 × EffectivePolicy)}
    (now : Int) (restore : Restore) {u : UInt32} (h : u ∉ configs.map Prod.fst) :
    (m.sync cal deviceTz configs now restore).children u = none := by
  rw [sync_children, filter_of_notMem h, if_neg h]
  rfl

theorem sync_clockTrusted (deviceTz : String) (configs : List (UInt32 × EffectivePolicy))
    (now : Int) (restore : Restore) :
    (m.sync cal deviceTz configs now restore).clockTrusted = m.clockTrusted := by
  have hfold : ∀ m : MultiChildEnforcer,
      (configs.foldl (syncOne cal deviceTz now restore) m).clockTrusted = m.clockTrusted := by
    induction configs with
    | nil => exact fun _ => rfl
    | cons config configs ih => exact fun _ => ih _
  exact hfold _

/-- `tick_open_with`. -/
def tick (activeUid : Option UInt32) (fg : Foreground) (t : TickClock) :
    MultiChildEnforcer × (UInt32 → Option ChildDecision) :=
  let ticked := fun u => (m.children u).map fun c =>
    c.tick cal m.clockTrusted u (if some u = activeUid then some fg else none) t
  ({ m with children := fun u => (ticked u).map Prod.fst }, fun u => (ticked u).map Prod.snd)

theorem tick_children (activeUid : Option UInt32) (fg : Foreground) (t : TickClock) (u : UInt32) :
    (m.tick cal activeUid fg t).1.children u = (m.children u).map fun c =>
      (c.tick cal m.clockTrusted u (if some u = activeUid then some fg else none) t).1 :=
  Option.map_map _ _ _

theorem tick_decisions (activeUid : Option UInt32) (fg : Foreground) (t : TickClock)
    (u : UInt32) :
    (m.tick cal activeUid fg t).2 u = (m.children u).map fun c =>
      (c.tick cal m.clockTrusted u (if some u = activeUid then some fg else none) t).2 :=
  Option.map_map _ _ _

/-! ## Adjustments -/

/-- Change one tracked child and answer; an untracked one answers no. -/
def adjust (uid : UInt32) (f : ChildEnforcer → Bool × ChildEnforcer) : Bool × MultiChildEnforcer :=
  (((m.children uid).map fun c => (f c).1).getD false, m.modify uid fun c => (f c).2)

/-- `apply_extension`. -/
def applyExtension (uid : UInt32) (now : Int) (reqId : String) (minutes : Nat) (dim : Dimension) :
    Bool × MultiChildEnforcer :=
  m.adjust uid (·.applyExtension cal now reqId minutes dim)

/-- `deduct_extension`. -/
def deductExtension (uid : UInt32) (now : Int) (reqId : String) (minutes : Nat) (dim : Dimension) :
    Bool × MultiChildEnforcer :=
  m.adjust uid (·.adjustExtension fun l => l.deduct cal.zones now reqId minutes dim)

/-- `apply_bucket_extension`. -/
def applyBucketExtension (uid : UInt32) (now : Int) (reqId : String) (minutes : Nat)
    (bucketId : String) : Bool × MultiChildEnforcer :=
  m.adjust uid (·.adjustExtension fun l => l.applyBucket cal.zones now reqId minutes bucketId)

/-- `apply_time_extension`. -/
def applyTimeExtension (uid : UInt32) (now : Int) (reqId : String) (minutes : Nat)
    (timeId : String) : Bool × MultiChildEnforcer :=
  m.adjust uid (·.adjustExtension fun l => l.applyTime cal.zones now reqId minutes timeId)

/-- `burn_time_pool`. -/
def burnTimePool (uid : UInt32) (now : Int) (timeId : String) (elapsed : Nat) :
    MultiChildEnforcer :=
  m.modify uid fun c => { c with extension := c.extension.burnTime cal.zones now timeId elapsed }

/-! ## What the loop sets before a tick -/

/-- `set_consolidated`. -/
def setConsolidated (uid : UInt32) (view : Option ConsolidatedUsage) : MultiChildEnforcer :=
  m.modify uid fun c => { c with consolidated := view }

/-- `set_stand_down`. -/
def setStandDown (uid : UInt32) (sd : Option StandDown) : MultiChildEnforcer :=
  m.modify uid fun c => { c with standDown := sd }

/-- `set_buckets_policy`. -/
def setBucketsPolicy (uid : UInt32) (tz : Option String) (weekStart : Option WeekStart) :
    MultiChildEnforcer :=
  m.modify uid fun c => { c with bucketsTz := tz, bucketsWeekStart := weekStart }

/-- `set_usage_unsaved`: only a child with a budget is paused. -/
def setUsageUnsaved (uid : UInt32) (unsaved : Bool) : MultiChildEnforcer :=
  m.modify uid fun c =>
    { c with unsavedBudget := if unsaved && c.budget.isSome then some (failSafeBudget c.tz) else none }

/-! ## Queries -/

/-- `remaining`. -/
def remaining (uid : UInt32) (now : Int) : Option Remaining :=
  (m.children uid).map fun c => computeRemaining cal (c.inputs now)

/-- `snapshots`. -/
def snapshots (uid : UInt32) : Option (UsageLedger × ExtensionLedger) :=
  (m.children uid).map ChildEnforcer.snapshot

end MultiChildEnforcer

/-! ## Steps -/

/-- What the loop asks of the enforcer. -/
inductive ChildOp
  | sync (configs : List (UInt32 × EffectivePolicy)) (now : Int) (restore : Restore)
  | tick (activeUid : Option UInt32) (fg : Foreground) (t : TickClock)
  | applyExtension (uid : UInt32) (now : Int) (reqId : String) (minutes : Nat) (dim : Dimension)
  | deductExtension (uid : UInt32) (now : Int) (reqId : String) (minutes : Nat) (dim : Dimension)
  | applyBucketExtension (uid : UInt32) (now : Int) (reqId : String) (minutes : Nat)
      (bucketId : String)
  | applyTimeExtension (uid : UInt32) (now : Int) (reqId : String) (minutes : Nat)
      (timeId : String)
  | burnTimePool (uid : UInt32) (now : Int) (timeId : String) (elapsed : Nat)
  | setClockTrusted (trusted : Bool)
  | setConsolidated (uid : UInt32) (view : Option ConsolidatedUsage)
  | setStandDown (uid : UInt32) (sd : Option StandDown)
  | setBucketsPolicy (uid : UInt32) (tz : Option String) (weekStart : Option WeekStart)
  | setUsageUnsaved (uid : UInt32) (unsaved : Bool)

/-- What it answers. -/
inductive ChildAnswer
  | decided (decisions : UInt32 → Option ChildDecision)
  | applied (uid : UInt32) (newly : Bool)
  | done

/-- What an answer decides for one child. -/
def ChildAnswer.decision (uid : UInt32) : ChildAnswer → Option ChildDecision
  | decided decisions => decisions uid
  | _ => none

/-- What an answer says of an adjustment to one child. -/
def ChildAnswer.newly (uid : UInt32) : ChildAnswer → Option Bool
  | applied u newly => if u = uid then some newly else none
  | _ => none

namespace MultiChildEnforcer

/-- One step. -/
def step (cal : Calendar) (deviceTz : String) (m : MultiChildEnforcer) :
    ChildOp → MultiChildEnforcer × ChildAnswer
  | .sync configs now restore => (m.sync cal deviceTz configs now restore, .done)
  | .tick activeUid fg t =>
    let r := m.tick cal activeUid fg t
    (r.1, .decided r.2)
  | .applyExtension uid now reqId minutes dim =>
    let r := m.applyExtension cal uid now reqId minutes dim
    (r.2, .applied uid r.1)
  | .deductExtension uid now reqId minutes dim =>
    let r := m.deductExtension cal uid now reqId minutes dim
    (r.2, .applied uid r.1)
  | .applyBucketExtension uid now reqId minutes bucketId =>
    let r := m.applyBucketExtension cal uid now reqId minutes bucketId
    (r.2, .applied uid r.1)
  | .applyTimeExtension uid now reqId minutes timeId =>
    let r := m.applyTimeExtension cal uid now reqId minutes timeId
    (r.2, .applied uid r.1)
  | .burnTimePool uid now timeId elapsed => (m.burnTimePool cal uid now timeId elapsed, .done)
  | .setClockTrusted trusted => (m.setClockTrusted trusted, .done)
  | .setConsolidated uid view => (m.setConsolidated uid view, .done)
  | .setStandDown uid sd => (m.setStandDown uid sd, .done)
  | .setBucketsPolicy uid tz weekStart => (m.setBucketsPolicy uid tz weekStart, .done)
  | .setUsageUnsaved uid unsaved => (m.setUsageUnsaved uid unsaved, .done)

end MultiChildEnforcer
end Kintrinsic
