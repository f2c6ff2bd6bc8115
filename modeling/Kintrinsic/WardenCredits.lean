import Kintrinsic.AppBuckets
import Kintrinsic.TwoWardens
import Kintrinsic.VerifyClause
import Kintrinsic.WardenLedger

/-! # What an Android tick does with the time since the last

The warden credits the interval on the lock and the time of the verdict before it, and burns the
pool that a fresh assessment names, made once the tick's own minutes have landed.  So an interval
goes to one meter at most, and draws on one pool at most; but that pool may have been filled only
now. -/
namespace Kintrinsic

open ExtensionLedger

/-! ## What a tick reads -/

/-- The `buckets` clause with its own zone and week. -/
structure WardBuckets where
  body : GrantBuckets
  tz : String
  weekStart : Option WeekStart

/-- `bucket_for_app`. -/
def GrantBuckets.bucketForApp (body : GrantBuckets) (app : String) : Option AppBucket :=
  if body.isPaused || !body.isValid then none
  else body.buckets.find? fun b => b.apps.any fun a => decide (a = app)

structure AlwaysAvailableApp where
  pkg : String
  untilUnix : Option Nat

structure AlwaysAvailableBody where
  v : Nat
  apps : List AlwaysAvailableApp

def exemptingLockReasons : List String := ["schedule", "budget"]

namespace AlwaysAvailableBody
variable (body : AlwaysAvailableBody)

def livePackages (now : Nat) : List String :=
  if body.v ≠ clauseVersion then []
  else (body.apps.filter fun a => a.untilUnix.all fun end_ => decide (now < end_)).map (·.pkg)

def exemptPackages (lockReason : String) (now : Nat) : List String :=
  if lockReason ∈ exemptingLockReasons then body.livePackages now else []

end AlwaysAvailableBody

def reasonStr : Option LockReason → String
  | some .schedule => "schedule"
  | some .budget => "budget"
  | some .malformed => "malformed"
  | some .standDown => "standdown"
  | none => "none"

/-- What a tick reads: the screen, the clauses in force and the other stores; and which of its
writes succeed. -/
structure ScreenTick where
  now : Int
  isActiveSubject : Bool
  screenInteractive : Bool
  foreground : Option String
  schedule : Option GrantSchedule
  budget : Option GrantBudget
  buckets : Option WardBuckets
  times : Option GrantTimes
  alwaysAvailable : Option AlwaysAvailableBody
  consolidated : Option ConsolidatedUsage
  standDown : Option StandDown
  pending : List PendingExtension
  gift : Option GiftBody
  breakGlassOpen : Bool
  savesUsage : Bool
  savesMark : Bool
  savesExtension : Bool

/-- What the warden keeps between ticks. -/
structure WardState where
  enforcer : WardenTimes.EdgeMachine
  lastCountsAgainstBudget : Bool
  usage : Option UsageLedger
  usageDisk : Option UsageLedger
  ledgerKeys : String × WeekStart
  ledgers : WardLedgers

/-- The part of a decision that out-of-hours listening reads. -/
structure WardDecision where
  locked : Bool
  reason : String
deriving DecidableEq

namespace ScreenTick
variable (cal : Calendar) (t : ScreenTick)

/-- The same tick as the ledgers read it, over a usage ledger. -/
def wardTick (u : UsageLedger) : WardTick where
  now := t.now
  schedule := t.schedule
  budget := t.budget
  buckets := t.buckets.map fun bk => ⟨bk.tz, bk.body.buckets.map (·.id)⟩
  times := t.times
  usage := u
  consolidated := t.consolidated
  standDown := t.standDown
  pending := t.pending
  gift := t.gift
  saved := t.savesExtension

/-- No charter for this ward. -/
def inert : Bool :=
  t.schedule.isNone && t.budget.isNone && t.standDown.isNone && t.buckets.isNone

/-- The zone and week of the usage ledger: the budget's, else the buckets clause's. -/
def usageKeys : String × WeekStart :=
  match t.budget, t.buckets with
  | some b, _ => (b.tz, b.weekStart.getD .mon)
  | none, some bk => (bk.tz, bk.weekStart.getD .mon)
  | none, none => ((((t.schedule.map (·.tz)).filter fun name => (cal.zones name).isSome).getD
      "UTC"), .mon)

/-- The named bucket of the foreground app. -/
def foregroundBucket : Option AppBucket :=
  t.foreground.bind fun fg => t.buckets.bind fun bk => bk.body.bucketForApp fg

/-- The decision over a verdict, with an open break-glass window lifting the shade. -/
def decision (rem : Remaining) : WardDecision :=
  if t.breakGlassOpen then ⟨false, "breakglass"⟩
  else ⟨rem.locked, if rem.locked then reasonStr rem.reason else "none"⟩

/-- `always_available_view`: what may be opened though the device is locked. -/
def alwaysAvailableView (d : WardDecision) : List String :=
  if d.locked then
    (t.alwaysAvailable.map fun body => body.exemptPackages d.reason (asU64 t.now)).getD []
  else []

end ScreenTick

namespace WardState
variable (cal : Calendar) (w : WardState) (t : ScreenTick)

/-- `ensure_ledgers`, for the usage. -/
def ensuredUsage : UsageLedger :=
  let keys := t.usageKeys cal
  match w.usage with
  | some u => if w.ledgerKeys = keys then u else u.reconcile cal keys.1 keys.2 t.now
  | none =>
    ((w.usageDisk.map UsageLedger.restored).getD (.new cal keys.1 keys.2 t.now)).reconcile cal
      keys.1 keys.2 t.now

def elapsed : Nat := w.ledgers.elapsedSince t.now

/-- What the interval was, by the lock before it. -/
def activity : Activity :=
  if w.enforcer.isLocked then .frozenByCharter
  else if t.isActiveSubject && t.screenInteractive then .active
  else .idle

/-- The screen, and beside it the foreground's bucket. -/
def credited : UsageLedger :=
  let u := (w.ensuredUsage cal t).credit cal t.now
    (if w.lastCountsAgainstBudget then w.activity t else .idle) (w.elapsed t)
  if w.activity t = .active && w.lastCountsAgainstBudget then
    (t.foregroundBucket.map fun b => u.creditAppBucket cal t.now b.id (w.elapsed t)).getD u
  else u

/-- The ledgers' part of the tick. -/
def ward : WardTick := t.wardTick (w.credited cal t)

/-- The extension ledger once the inbox and the gift have landed. -/
def landed : ExtensionLedger :=
  ((w.ward cal t).landed cal ((w.ward cal t).ensured cal w.ledgers)).1

/-- The assessment that decides what burns. -/
def pre : WardenTimes.Verdict := ((w.ward cal t).inputs (w.landed cal t)).assess cal

def burned : ExtensionLedger := ((w.ward cal t).burned cal (w.elapsed t) (w.landed cal t)).1

def verdict : WardenTimes.Verdict := ((w.ward cal t).inputs (w.burned cal t)).assess cal

/-- The foreground app may be opened at any hour, and was so at both ends of the interval. -/
def listens : Bool :=
  w.activity t = .frozenByCharter && (t.decision (w.verdict cal t).rem).locked &&
    t.screenInteractive &&
    t.foreground.any fun fg => decide (fg ∈ t.alwaysAvailableView (t.decision (w.verdict cal t).rem))

/-- The usage ledger at the end of the tick. -/
def marked : UsageLedger :=
  if w.listens cal t then (w.credited cal t).markOutOfHours (w.elapsed t) else w.credited cal t

/-- `Warden::tick`. -/
def tick : WardState :=
  if t.inert then w
  else
    { enforcer := (w.enforcer.tick (w.verdict cal t).rem).1
      lastCountsAgainstBudget := (w.verdict cal t).countsAgainstBudget
      usage := some (w.marked cal t)
      usageDisk :=
        if w.listens cal t && t.savesMark then some (w.marked cal t)
        else if t.savesUsage then some (w.credited cal t)
        else w.usageDisk
      ledgerKeys := t.usageKeys cal
      ledgers :=
        ⟨some (w.burned cal t), if t.savesExtension then some (w.burned cal t) else w.ledgers.disk,
          some t.now⟩ }

/-- A new process, or a released ward: only what is on the disk is left. -/
def fresh : WardState :=
  { w with
    enforcer := .new
    lastCountsAgainstBudget := true
    usage := none
    ledgers := ⟨none, w.ledgers.disk, none⟩ }

end WardState

/-! ## Runs -/

/-- A tick over clauses that can be read; one that is held since they cannot; a new process. -/
inductive WardenEvent
  | tick (t : ScreenTick)
  | held
  | fresh

/-- A run so far: the warden, and the verdict of the last tick that decided. -/
structure WardHistory where
  state : WardState
  last : Option WardenTimes.Verdict

namespace WardHistory
variable (cal : Calendar)

/-- A ward on which nothing has run. -/
def new : WardHistory := ⟨⟨.new, true, none, none, ("UTC", .mon), ⟨none, none, none⟩⟩, none⟩

def step (r : WardHistory) : WardenEvent → WardHistory
  | .tick t =>
    if t.inert then r else ⟨r.state.tick cal t, some (r.state.verdict cal t)⟩
  | .held => r
  | .fresh => ⟨r.state.fresh, none⟩

def run (es : List WardenEvent) : WardHistory := es.foldl (step cal) new

/-- What the warden keeps of the last verdict is its lock and whether its time counts. -/
structure Follows (r : WardHistory) : Prop where
  locked : r.state.enforcer.isLocked = r.last.any (·.rem.locked)
  counts : r.state.lastCountsAgainstBudget = r.last.all (·.countsAgainstBudget)

theorem tick_isLocked (m : WardenTimes.EdgeMachine) (rem : Remaining) :
    (m.tick rem).1.isLocked = rem.locked := by
  have hcore := congrArg EnforcerCore.locked (WardenTimes.EdgeMachine.tick_core m rem).1
  have hlocked : (m.tick rem).1.core.locked = (m.tick rem).1.isLocked := rfl
  rw [← hlocked, hcore, EnforcerCore.act_locked]

theorem follows_step {r : WardHistory} (h : r.Follows) (e : WardenEvent) :
    (r.step cal e).Follows := by
  cases e with
  | tick t =>
    by_cases hinert : t.inert = true
    · have hstep : r.step cal (.tick t) = r := if_pos hinert
      rw [hstep]
      exact h
    · have hstep : r.step cal (.tick t) = _ := if_neg hinert
      have hstate : r.state.tick cal t = _ := if_neg hinert
      rw [hstep, hstate]
      exact ⟨tick_isLocked _ _, rfl⟩
  | held => exact h
  | fresh => exact ⟨rfl, rfl⟩

/-- **In every run** the warden credits on the last verdict. -/
theorem follows_run (es : List WardenEvent) : (run cal es).Follows := by
  have hfold : ∀ r : WardHistory, r.Follows → (es.foldl (step cal) r).Follows := by
    induction es with
    | nil => exact fun _ h => h
    | cons e es ih => exact fun r h => ih _ (follows_step cal h e)
  exact hfold new ⟨rfl, rfl⟩

end WardHistory

/-! ## Who gets an interval -/

/-- The one account that an interval is put on. -/
inductive Share
  | screen (bucket : Option String)
  | outOfHours
  | nobody
deriving DecidableEq

/-- The ledger once an interval is put on an account. -/
def Share.credit (cal : Calendar) (now : Int) (elapsed : Nat) (u : UsageLedger) :
    Share → UsageLedger
  | .screen bucket =>
    let u := u.credit cal now .active elapsed
    (bucket.map fun id => u.creditAppBucket cal now id elapsed).getD u
  | .outOfHours => (u.roll cal now).markOutOfHours elapsed
  | .nobody => u.roll cal now

def Share.isScreen : Share → Bool
  | .screen _ => true
  | _ => false

/-- A pool of extension minutes that wall clock is taken off. -/
inductive BurningPool
  | schedule
  | time (id : String)
deriving DecidableEq

/-- The ledger once an interval is taken off a pool, or off none. -/
def BurningPool.burn (zones : Zones) (now : Int) (elapsed : Nat) (l : ExtensionLedger) :
    Option BurningPool → ExtensionLedger
  | some .schedule => l.burnSchedule zones now elapsed
  | some (.time id) => l.burnTime zones now id elapsed
  | none => l

theorem credit_of_not_counts {cal : Calendar} {u : UsageLedger} {now : Int} {a : Activity}
    (h : a.counts = false) (elapsed : Nat) : u.credit cal now a elapsed = u.roll cal now := by
  unfold UsageLedger.credit UsageLedger.creditBucket
  dsimp only
  rw [h, if_neg Bool.false_ne_true]

namespace WardState
variable {cal : Calendar} {w : WardState} {t : ScreenTick}

/-- An interval that began locked, or in a time that does not count, is credited to nobody. -/
theorem credited_of_not_charged
    (h : ¬(w.activity t = .active ∧ w.lastCountsAgainstBudget = true)) :
    w.credited cal t = (w.ensuredUsage cal t).roll cal t.now := by
  have hcounts : (if w.lastCountsAgainstBudget then w.activity t else Activity.idle).counts =
      false := by
    by_cases hlast : w.lastCountsAgainstBudget = true
    · rw [if_pos hlast]
      cases hact : w.activity t with
      | active => exact absurd ⟨hact, hlast⟩ h
      | idle => rfl
      | locked => rfl
      | suspended => rfl
      | frozenByCharter => rfl
    · rw [if_neg hlast]
      rfl
  unfold credited
  dsimp only
  rw [credit_of_not_counts hcounts, if_neg]
  simpa using h

/-- **The credit of a tick**: the screen, and with it the foreground's bucket, where the last
verdict was open and counted; the out-of-hours meter only where it was locked. -/
theorem marked_share : ∃ s : Share,
    w.marked cal t = s.credit cal t.now (w.elapsed t) (w.ensuredUsage cal t) ∧
      (s.isScreen = true → w.enforcer.isLocked = false ∧ w.lastCountsAgainstBudget = true) ∧
      (s = .outOfHours → w.enforcer.isLocked = true) := by
  have hfrozen : w.activity t = .frozenByCharter ↔ w.enforcer.isLocked = true := by
    unfold activity
    cases w.enforcer.isLocked with
    | true => simp
    | false =>
      rw [if_neg Bool.false_ne_true]
      split <;> simp
  by_cases hcharged : w.activity t = .active ∧ w.lastCountsAgainstBudget = true
  · -- charged: the interval began unlocked, so nothing was listened to out of hours
    obtain ⟨hact, hcounts⟩ := hcharged
    have hopen : w.enforcer.isLocked = false := by
      rw [← Bool.not_eq_true, ← hfrozen, hact]
      decide
    have hlistens : w.listens cal t = false := by
      unfold listens
      rw [hact]
      rfl
    refine ⟨.screen (t.foregroundBucket.map (·.id)), ?_, fun _ => ⟨hopen, hcounts⟩, nofun⟩
    unfold marked
    rw [hlistens, if_neg Bool.false_ne_true]
    unfold credited Share.credit
    dsimp only
    rw [hact, hcounts, if_pos rfl, if_pos (by decide), Option.map_map]
    rfl
  · have hcredited := @credited_of_not_charged cal w t hcharged
    by_cases hlistens : w.listens cal t = true
    · have hlocked : w.enforcer.isLocked = true := by
        refine hfrozen.mp ?_
        unfold listens at hlistens
        simp only [Bool.and_eq_true, decide_eq_true_iff] at hlistens
        exact hlistens.1.1.1
      refine ⟨.outOfHours, ?_, nofun, fun _ => hlocked⟩
      unfold marked
      rw [if_pos hlistens, hcredited]
      rfl
    · refine ⟨.nobody, ?_, nofun, nofun⟩
      unfold marked
      rw [if_neg hlistens, hcredited]
      rfl

/-- **The burn of a tick**: nothing, the named pool that its own assessment runs, or, with no named
pool running, the schedule's while the schedule is closed. -/
theorem burned_pool : ∃ b : Option BurningPool,
    w.burned cal t = BurningPool.burn cal.zones t.now (w.elapsed t) (w.landed cal t) b ∧
      (b ≠ none → w.elapsed t ≠ 0) ∧
      (∀ id, b = some (.time id) → (w.pre cal t).run = .namedPool id) ∧
      (b = some .schedule → (w.pre cal t).run = .window ∧
        (w.ward cal t).scheduleClosed cal = true) := by
  have hclosed : (((w.ward cal t).inputs (w.landed cal t)).status cal).any
      TimesRouting.TimedStatus.isLocked = (w.ward cal t).scheduleClosed cal := by
    unfold WardTick.scheduleClosed WardenTimes.TimesInputs.status
    rw [Option.any_map]
    rfl
  have hburns := @WardenTimes.TimesInputs.assess_burns cal
    ((w.ward cal t).inputs (w.landed cal t))
  rw [hclosed] at hburns
  have hpre : ((w.ward cal t).inputs (w.landed cal t)).assess cal = w.pre cal t := rfl
  rw [hpre] at hburns
  by_cases hzero : w.elapsed t = 0
  · refine ⟨none, ?_, fun h => absurd rfl h, nofun, nofun⟩
    unfold burned WardTick.burned
    rw [if_pos hzero]
    rfl
  unfold burned WardTick.burned
  rw [if_neg hzero, hpre]
  dsimp only
  cases hrun : (w.pre cal t).run with
  | namedPool id =>
    -- a named pool that runs the device is the only one
    have hspared : (w.pre cal t).burnSchedulePool = false := by
      rw [hburns, hrun]
      exact Bool.and_false _
    rw [hspared, if_neg Bool.false_ne_true]
    refine ⟨some (.time id), rfl, fun _ => hzero, ?_, nofun⟩
    rintro id' ⟨⟩
    rfl
  | window =>
    by_cases hpool : (w.pre cal t).burnSchedulePool = true
    · rw [if_pos hpool]
      refine ⟨some .schedule, rfl, fun _ => hzero, nofun, fun _ => ⟨rfl, ?_⟩⟩
      rw [hburns] at hpool
      exact (Bool.and_eq_true_iff.mp hpool).1
    · rw [if_neg hpool]
      exact ⟨none, rfl, fun h => absurd rfl h, nofun, nofun⟩

end WardState

namespace WardHistory
variable (cal : Calendar)

/-- **Each interval of a run is put on one account, and taken off one pool.** -/
theorem interval_shared (es : List WardenEvent) (t : ScreenTick) (hlive : t.inert = false) :
    (∃ s : Share,
      ((run cal (es ++ [.tick t])).state).usage =
        some (s.credit cal t.now ((run cal es).state.elapsed t)
          ((run cal es).state.ensuredUsage cal t)) ∧
      (s.isScreen = true → (run cal es).last.any (·.rem.locked) = false ∧
        (run cal es).last.all (·.countsAgainstBudget) = true) ∧
      (s = .outOfHours → (run cal es).last.any (·.rem.locked) = true)) ∧
    ∃ b : Option BurningPool,
      (run cal (es ++ [.tick t])).state.ledgers.memory =
        some (BurningPool.burn cal.zones t.now ((run cal es).state.elapsed t)
          ((run cal es).state.landed cal t) b) ∧
      (b ≠ none → (run cal es).state.elapsed t ≠ 0) ∧
      (∀ id, b = some (.time id) → ((run cal es).state.pre cal t).run = .namedPool id) ∧
      (b = some .schedule → ((run cal es).state.pre cal t).run = .window ∧
        ((run cal es).state.ward cal t).scheduleClosed cal = true) := by
  obtain ⟨hlocked, hcounts⟩ := follows_run cal es
  have hstep : (run cal (es ++ [.tick t])).state = (run cal es).state.tick cal t := by
    unfold run
    rw [List.foldl_append]
    show (step cal (es.foldl (step cal) new) (.tick t)).state = _
    unfold step
    dsimp only
    rw [hlive, if_neg Bool.false_ne_true]
  have htick : (run cal es).state.tick cal t = _ :=
    if_neg (Bool.eq_false_iff.mp hlive)
  rw [hstep, htick, ← hlocked, ← hcounts]
  obtain ⟨s, hs, hscreen, hout⟩ := @WardState.marked_share cal (run cal es).state t
  obtain ⟨b, hb, hsecs, htime, hschedule⟩ := @WardState.burned_pool cal
    (run cal es).state t
  exact ⟨⟨s, congrArg some hs, hscreen, hout⟩, b, congrArg some hb, hsecs, htime, hschedule⟩

/-- A tick on Monday 2026-06-29 under hours from four to eight, with the screen on. -/
def afterSchoolTick (now : Int) (pending : List PendingExtension) : ScreenTick where
  now := now
  isActiveSubject := true
  screenInteractive := true
  foreground := none
  schedule := some afterSchool
  budget := none
  buckets := none
  times := none
  alwaysAvailable := none
  consolidated := none
  standDown := none
  pending := pending
  gift := none
  breakGlassOpen := false
  savesUsage := true
  savesMark := true
  savesExtension := true

/-- A minute after five is not put on the out-of-hours meter. -/
theorem interval_shared_open : ∃ s : Share, s ≠ .outOfHours ∧
    (run UsageLedger.utcCalendar [.tick (afterSchoolTick 1782752400 []),
      .tick (afterSchoolTick 1782752460 [])]).state.usage =
      some (s.credit UsageLedger.utcCalendar 1782752460 60
        ((run UsageLedger.utcCalendar [.tick (afterSchoolTick 1782752400 [])]).state.ensuredUsage
          UsageLedger.utcCalendar (afterSchoolTick 1782752460 []))) := by
  obtain ⟨s, hs, -, hout⟩ := (interval_shared UsageLedger.utcCalendar
    [.tick (afterSchoolTick 1782752400 [])] (afterSchoolTick 1782752460 []) rfl).1
  refine ⟨s, fun h => ?_, hs⟩
  exact absurd (hout h) (by decide +kernel)

/-- The hours are shut at noon, and a minute later half an hour is given: the minute that the device
was locked is taken off it. -/
theorem not_interval_shared :
    ¬∀ (cal : Calendar) (es : List WardenEvent) (t : ScreenTick), t.inert = false →
      (∀ v ∈ (run cal es).last, v.rem.locked = true) →
      (run cal (es ++ [.tick t])).state.ledgers.memory = some ((run cal es).state.landed cal t) := by
  intro h
  have hspared := h UsageLedger.utcCalendar [.tick (afterSchoolTick 1782734400 [])]
    (afterSchoolTick 1782734460 [⟨"r1", 30, some .schedule, none, none, 1782734460⟩]) rfl
    (by decide +kernel)
  have hsecs := congrArg (Option.map (·.scheduleConsumedSecs)) hspared
  exact absurd hsecs (by decide +kernel)

end WardHistory
end Kintrinsic
