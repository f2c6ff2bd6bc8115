import Kintrinsic.PoolRouting
import Kintrinsic.TimesLabels

/-! # One child under two wardens

The Linux daemon takes the core's verdict, in which a tagged window is Free time, and adjusts it;
the Android ward computes the schedule's side again from the times evaluator.  Both then fall
through to the named pools.  Who carries the device, and which pool burns meanwhile, is compared
here over the same child. -/
namespace Kintrinsic

open MachineWord

/-! ## Schedules without tags -/

namespace Times
variable {sched : GrantSchedule}

theorem untagged_windowsOf (h : WardenTimes.hasTaggedWindow sched = false) (day : Int) :
    ∀ w ∈ windowsOf sched day, w.tag = none := by
  intro win hwin
  unfold WardenTimes.hasTaggedWindow at h
  rw [Bool.or_eq_false_iff] at h
  obtain ⟨hweekly, hoverrides⟩ := h
  obtain ⟨w, hw, hof⟩ := List.mem_filterMap.mp hwin
  rw [tag_of_winOf hof, ← Option.not_isSome_iff_eq_none, Bool.not_eq_true]
  have hplain : ∀ ws : List GrantScheduleWindow, ws.any (·.time.isSome) = false → w ∈ ws →
      w.time.isSome = false :=
    fun ws hws hmem => Bool.eq_false_of_not_eq_true (List.any_eq_false.mp hws w hmem)
  cases hdated : sched.overrides.bind fun o => o.lookup (CivilDate.dateKey day) with
  | some ws =>
    rw [hdated] at hw
    obtain ⟨o, ho, hlookup⟩ := Option.bind_eq_some_iff.mp hdated
    rw [ho, Option.any_some] at hoverrides
    exact hplain ws (Bool.eq_false_of_not_eq_true
      (List.any_eq_false.mp hoverrides _ (AList.mem_lookup_iff.mp hlookup))) hw
  | none =>
    rw [hdated] at hw
    dsimp only at hw
    cases hday : sched.weekly.forDay (CivilDate.daysFromSunday day).toNat with
    | none =>
      rw [hday] at hw
      cases hw
    | some ws =>
      rw [hday] at hw
      have hmem : some ws ∈ [sched.weekly.mon, sched.weekly.tue, sched.weekly.wed,
          sched.weekly.thu, sched.weekly.fri, sched.weekly.sat, sched.weekly.sun] := by
        rw [← hday]
        unfold WeeklySchedule.forDay at hday ⊢
        split at hday <;> simp_all
      exact hplain ws (Bool.eq_false_of_not_eq_true (List.any_eq_false.mp hweekly _ hmem)) hw

end Times

/-- A tag that opens is defined. -/
theorem Times.known_of_opened {zones : Zones} {sched : GrantSchedule} {known : String → Bool}
    {now : Int} {id : String} {spanEnd : Int}
    (h : Times.evaluateTimes zones sched known now = .opened (some id) spanEnd) :
    known id = true := by
  unfold Times.evaluateTimes at h
  split at h
  · cases h
  split at h
  · cases h
  split at h
  · cases h
  split at h
  · cases h
  dsimp only at h
  split at h
  · cases h
  · rename_i id' hlabel
    cases h
    unfold Times.labelAt at hlabel
    split at hlabel
    · dsimp only at hlabel
      split at hlabel
      · rename_i hknown
        cases hlabel
        exact hknown
      · cases hlabel
    · split at hlabel <;> cases hlabel
  · cases h
  · cases h

/-! ## A status without its times -/

def ScheduleStatus.shape : ScheduleStatus → ScheduleStatus
  | .opened _ => .opened 0
  | .locked _ => .locked none
  | s => s

/-- The schedule is closed. -/
def ScheduleStatus.isLocked : ScheduleStatus → Bool
  | .locked _ => true
  | _ => false

def TimedStatus.shape : TimedStatus → TimedStatus
  | .opened time _ => .opened time 0
  | .locked cause _ => .locked cause none
  | s => s

/-- As the classic evaluator has it: a window of a time is open, whatever its tag. -/
def TimedStatus.classic : TimedStatus → ScheduleStatus
  | .unbounded => .unbounded
  | .opened _ _ | .locked (.unknownTime _) _ => .opened 0
  | .locked .paused _ | .locked .outsideWindows _ => .locked none
  | .unparseable => .unparseable

/-- **The two evaluators agree on what is open**, and without tags on why. -/
theorem evaluate_shapes (zones : Zones) (sched : GrantSchedule) (known : String → Bool)
    (now : Int) :
    (sched.evaluate zones now).shape = (Times.evaluateTimes zones sched known now).classic ∧
      (WardenTimes.hasTaggedWindow sched = false →
        (Times.evaluateTimes zones sched known now).shape =
          (WardenTimes.ofClassic sched now (sched.evaluate zones now)).shape) := by
  unfold GrantSchedule.evaluate Times.evaluateTimes
  cases sched.isSupportedVersion with
  | false => exact ⟨rfl, fun _ => rfl⟩
  | true =>
    rw [Bool.not_true, if_neg Bool.false_ne_true, if_neg Bool.false_ne_true]
    by_cases hpaused : sched.paused = some true
    · rw [if_pos hpaused, if_pos hpaused]
      refine ⟨rfl, fun _ => ?_⟩
      rw [WardenTimes.ofClassic, if_pos hpaused]
    rw [if_neg hpaused, if_neg hpaused]
    cases zones sched.tz with
    | none => exact ⟨rfl, fun _ => rfl⟩
    | some tz =>
      dsimp only
      have hunbounded : (sched.weekly.isEmpty && !sched.hasOverrides) =
          Times.isUnbounded sched := rfl
      rw [hunbounded]
      cases Times.isUnbounded sched with
      | true => exact ⟨rfl, fun _ => rfl⟩
      | false =>
        rw [if_neg Bool.false_ne_true, if_neg Bool.false_ne_true]
        cases hat : (sched.windowsOn (tz.localDay now)).bind
            (GrantSchedule.windowAt (tz.minuteOfDay now)) with
        | none =>
          have hlabel : Times.labelAt (Times.windowsOf sched (tz.localDay now)) known
              (tz.minuteOfDay now) = .closed :=
            Times.labelAt_closed_iff.mpr ((Times.windowAt_none_iff _).mp hat)
          rw [hlabel]
          refine ⟨rfl, fun _ => ?_⟩
          dsimp only
          rw [WardenTimes.ofClassic, if_neg hpaused]
          rfl
        | some w =>
          have hopen : Times.labelAt (Times.windowsOf sched (tz.localDay now)) known
              (tz.minuteOfDay now) ≠ .closed := by
            intro hclosed
            have hnone := (Times.windowAt_none_iff _).mpr (Times.labelAt_closed_iff.mp hclosed)
            rw [hat] at hnone
            cases hnone
          refine ⟨?_, fun huntagged => ?_⟩
          · cases hlabel : Times.labelAt (Times.windowsOf sched (tz.localDay now)) known
                (tz.minuteOfDay now) with
            | closed => exact absurd hlabel hopen
            | free => rfl
            | time id => rfl
            | unknown id => rfl
          · have hfree := (Times.labelAt_of_untagged
              (Times.untagged_windowsOf huntagged _)).resolve_right hopen
            rw [hfree]
            rfl

/-- What the ward's evaluator says apart from its times is what the times evaluator says. -/
theorem timedStatus_shape (zones : Zones) (sched : GrantSchedule) (times : Option GrantTimes)
    (now : Int) : (WardenTimes.timedStatus zones sched times now).shape =
      (Times.evaluateTimes zones sched (knownIn times) now).shape := by
  unfold WardenTimes.timedStatus
  cases htagged : WardenTimes.hasTaggedWindow sched with
  | true => rfl
  | false => exact ((evaluate_shapes zones sched (knownIn times) now).2 htagged).symm

/-! ## Who carries a tick -/

/-- What keeps a device open: a window, of a named time or of Free time, or a named pool. -/
inductive Carrier
  | nothing
  | window (time : Option String)
  | pool (id : String)
deriving DecidableEq

/-- What a warden decides for a tick: whether the device is locked, the named time in force, and
what burns of Free's schedule pool and of the named ones. -/
structure TickDecision where
  locked : Bool
  activeTime : Option String
  burnsSchedule : Bool
  burnsNamed : Option String
deriving DecidableEq

namespace Carrier

def decides (burnsSchedule : Bool) : Carrier → TickDecision
  | nothing => ⟨true, none, burnsSchedule, none⟩
  | window time => ⟨false, time, burnsSchedule, none⟩
  | pool id => ⟨false, some id, burnsSchedule, some id⟩

/-- The named pool that carries. -/
def named : Carrier → Option String
  | pool id => some id
  | _ => none

theorem decides_inj {b b' : Bool} {c c' : Carrier} :
    c.decides b = c'.decides b' ↔ c = c' ∧ b = b' := by
  constructor
  · intro h
    cases c <;> cases c' <;> simp_all [decides]
  · rintro ⟨rfl, rfl⟩
    rfl

end Carrier

namespace TimesRouting

/-- `active_time`. -/
def activeTime (v : Verdict) (times : Option GrantTimes) : Option NamedTime :=
  match v with
  | .named run => times.bind (·.get run.id)
  | _ => none

/-- The id of the named time that runs. -/
def Verdict.namedId : Verdict → Option String
  | .named run => some run.id
  | _ => none

/-- What carries a tick of the Linux daemon. -/
def Verdict.carrier (core : Remaining) : Verdict → Carrier
  | .core _ => if core.locked then .nothing else .window none
  | .named run => if run.fromPool then .pool run.id else .window (some run.id)
  | .locked _ => .nothing

theorem Verdict.carrier_decides (v : Verdict) (core : Remaining) (burns : Bool) :
    (v.carrier core).decides burns = ⟨v.locks core, v.namedId, burns, burningPool v⟩ := by
  cases v with
  | core spanEnd =>
    unfold carrier locks
    dsimp only
    cases core.locked <;> rfl
  | named run =>
    unfold carrier burningPool
    dsimp only
    cases run.fromPool <;> rfl
  | locked lock => rfl

theorem id_of_get {times : Option GrantTimes} {id : String} {t : NamedTime}
    (h : times.bind (·.get id) = some t) : t.id = id := by
  obtain ⟨g, -, hget⟩ := Option.bind_eq_some_iff.mp h
  have hfind : g.times.find? (fun t => t.id = id) = some t := hget
  simpa using List.find?_some hfind

namespace Inputs
variable {i : Inputs}

/-- With the inventory known a time that is due runs. -/
theorem runNamed_of_known (h : i.inventoryKnown = true) (t : NamedTime) (fromPool : Bool)
    (spanEnd endsAt : Int) : i.runNamed t fromPool spanEnd endsAt =
      .named ⟨t.id, fromPool, t.counts, spanEnd, endsAt, Decidable.decide (spanEnd ≤ endsAt)⟩ := by
  unfold runNamed
  refine if_neg ?_
  rw [h]
  simp

/-- A named time that runs is one that is defined. -/
theorem activeTime_decide (hknown : i.inventoryKnown = true) :
    (activeTime i.decide i.times).map (·.id) = i.decide.namedId := by
  have hnamed : ∀ {id : String} {t : NamedTime} {fromPool spanEnd endsAt},
      i.time id = some t → ∀ v, v = i.runNamed t fromPool spanEnd endsAt →
        (activeTime v i.times).map (·.id) = some t.id := by
    rintro id t fromPool spanEnd endsAt htime v rfl
    have hid := id_of_get htime
    rw [runNamed_of_known hknown, activeTime]
    dsimp only
    have hget : i.times.bind (·.get t.id) = some t := by
      rw [hid]
      exact htime
    rw [hget]
    rfl
  generalize hv : i.decide = v
  have hdecided := decide_decided i
  rw [hv] at hdecided
  cases hdecided with
  | stands => rfl
  | unknown => rfl
  | undefined => rfl
  | window htimed htime hover =>
    rw [hnamed htime _ rfl, runNamed_of_known hknown]
    rfl
  | pool hpool hsecs htime hproof hlocked hreason =>
    rw [hnamed htime _ rfl, runNamed_of_known hknown]
    rfl

end Inputs

end TimesRouting

/-! ## How each reads the schedule -/

namespace WardenTimes
namespace TimesInputs
variable (cal : Calendar) (i : TimesInputs)

/-- The classic evaluator's answer, which the core reads. -/
def classic : Option ScheduleStatus := i.schedule.map fun s => s.evaluate cal.zones i.now

/-- The named pool that is offered over a lock. -/
def offered : Option String :=
  i.extension.mostRecentNamedPoolAmong cal.zones i.now (knownIn i.times)

/-- What the Linux layer reads of the same child, its apps' inventory known. -/
def linuxInputs : TimesRouting.Inputs where
  timed := TimesRouting.timedAt cal.zones i.schedule i.times i.now
  core := computeRemaining cal i.core
  times := i.times
  inventoryKnown := true
  pool := (i.offered cal).map fun id => (id, i.extension.timeExtraSecs cal.zones i.now id)
  budgetPoolProof := TimesRouting.budgetPoolProof i.budget false
  now := i.now

/-- The three readings of one schedule: the Linux layer's, the Android ward's, and the core's. -/
inductive Reads : Prop
  | unset (timed : (i.linuxInputs cal).timed = .unbounded) (status : i.status cal = none)
    (classic : i.classic cal = none)
  | unbounded (timed : (i.linuxInputs cal).timed = .unbounded)
    (status : i.status cal = some .unbounded) (classic : i.classic cal = some .unbounded)
  | opened (time : Option String) (spanEnd spanEnd' : Int) (secsToClose : Nat)
    (timed : (i.linuxInputs cal).timed = .opened time spanEnd)
    (status : i.status cal = some (.opened time spanEnd'))
    (classic : i.classic cal = some (.opened secsToClose))
  | unknown (tag : String) (secs secs' : Option Nat) (secsToClose : Nat)
    (timed : (i.linuxInputs cal).timed = .locked (.unknownTime tag) secs)
    (status : i.status cal = some (.locked (.unknownTime tag) secs'))
    (classic : i.classic cal = some (.opened secsToClose))
  | closed (cause : LockCause) (secs secs' secs'' : Option Nat)
    (hcause : cause = .paused ∨ cause = .outsideWindows)
    (timed : (i.linuxInputs cal).timed = .locked cause secs)
    (status : i.status cal = some (.locked cause secs'))
    (classic : i.classic cal = some (.locked secs''))
  | unparseable (timed : (i.linuxInputs cal).timed = .unparseable)
    (status : i.status cal = some .unparseable) (classic : i.classic cal = some .unparseable)

theorem reads : i.Reads cal := by
  cases hschedule : i.schedule with
  | none =>
    refine .unset ?_ ?_ ?_
    · rw [linuxInputs, hschedule]
      rfl
    · rw [TimesInputs.status, hschedule, Option.map_none]
    · rw [TimesInputs.classic, hschedule, Option.map_none]
  | some s =>
    have htimed : (i.linuxInputs cal).timed =
        Times.evaluateTimes cal.zones s (knownIn i.times) i.now := by
      rw [linuxInputs, hschedule]
      rfl
    have hstatus : i.status cal = some (timedStatus cal.zones s i.times i.now) := by
      rw [TimesInputs.status, hschedule, Option.map_some]
    have hclassic : i.classic cal = some (s.evaluate cal.zones i.now) := by
      rw [TimesInputs.classic, hschedule, Option.map_some]
    have hshape := timedStatus_shape cal.zones s i.times i.now
    have hopen := (evaluate_shapes cal.zones s (knownIn i.times) i.now).1
    generalize Times.evaluateTimes cal.zones s (knownIn i.times) i.now = timed at *
    generalize timedStatus cal.zones s i.times i.now = status at *
    generalize s.evaluate cal.zones i.now = classic at *
    -- the ends are all that the three may differ in
    cases timed with
    | unbounded =>
      cases status <;> cases hshape
      cases classic <;> cases hopen
      exact .unbounded htimed hstatus hclassic
    | unparseable =>
      cases status <;> cases hshape
      cases classic <;> cases hopen
      exact .unparseable htimed hstatus hclassic
    | opened time spanEnd =>
      cases status <;> cases hshape
      cases classic <;> cases hopen
      exact .opened time _ _ _ htimed hstatus hclassic
    | locked cause secs =>
      cases status <;> cases hshape
      cases cause with
      | unknownTime tag =>
        cases classic <;> cases hopen
        exact .unknown tag _ _ _ htimed hstatus hclassic
      | paused =>
        cases classic <;> cases hopen
        exact .closed _ _ _ _ (.inl rfl) htimed hstatus hclassic
      | outsideWindows =>
        cases classic <;> cases hopen
        exact .closed _ _ _ _ (.inr rfl) htimed hstatus hclassic

/-! ## The Linux side -/

/-- It carries, if there is one. -/
def offeredCarrier : Carrier := ((i.offered cal).map Carrier.pool).getD .nothing

/-- What carries a tick of the Linux daemon. -/
def linuxCarrier : Carrier :=
  (i.linuxInputs cal).decide.carrier (computeRemaining cal i.core)

/-- The classic evaluator's answer as the core takes it. -/
def classicBase : Option ScheduleStatus → ScheduleBase
  | none | some .unbounded => ⟨-1, false, none⟩
  | some (.opened secsToClose) => ⟨secsToClose, false, none⟩
  | some (.locked secsToOpen) => ⟨0, false, secsToOpen.map Int.ofNat⟩
  | some .unparseable => ⟨0, true, none⟩

variable {cal i}

theorem scheduleBase_classic :
    scheduleBase cal.zones i.now i.schedule = classicBase (i.classic cal) := by
  unfold scheduleBase classic
  cases i.schedule with
  | none => rfl
  | some s =>
    dsimp only [Option.map_some]
    cases s.evaluate cal.zones i.now <;> rfl

/-- Why the core locks over a schedule that is read. -/
theorem core_reason (hread : (scheduleBase cal.zones i.now i.schedule).malformed = false)
    (hlocked : (computeRemaining cal i.core).locked = true) :
    (computeRemaining cal i.core).reason = some (if i.core.landed = true then .standDown
      else if i.core.scheduleSecs cal = 0 then .schedule else .budget) := by
  have hbase : (scheduleBase cal.zones i.core.nowUnix i.core.schedule).malformed = false := hread
  rw [EnforcerInputs.reason_eq, if_pos hlocked, lockReason, hbase, if_neg Bool.false_ne_true]

theorem fallThrough_carrier {dims : List LockReason}
    (hlocked : (computeRemaining cal i.core).locked = true) :
    ((i.linuxInputs cal).fallThrough dims).carrier (computeRemaining cal i.core) =
      if (i.linuxInputs cal).budgetPoolProof = false ∧
        (computeRemaining cal i.core).reason.any dims.contains = true
      then i.offeredCarrier cal else .nothing := by
  have hcore : (i.linuxInputs cal).core = computeRemaining cal i.core := rfl
  have hstands : (TimesRouting.Verdict.core none).carrier (computeRemaining cal i.core) =
      .nothing := by
    rw [TimesRouting.Verdict.carrier, if_pos hlocked]
  unfold TimesRouting.Inputs.fallThrough
  rw [hcore, hlocked, Bool.true_and]
  cases (i.linuxInputs cal).budgetPoolProof with
  | true => rw [if_pos rfl, hstands, if_neg (by simp)]
  | false =>
    cases (computeRemaining cal i.core).reason.any dims.contains with
    | false => rw [if_neg (by simp), Bool.not_false, if_pos rfl, hstands, if_neg (by simp)]
    | true =>
      rw [if_neg (by simp), if_neg (by simp), if_pos ⟨rfl, rfl⟩, offeredCarrier]
      cases hoffered : i.offered cal with
      | none =>
        have hpool : (i.linuxInputs cal).pool = none := by
          rw [linuxInputs, hoffered, Option.map_none]
        rw [hpool, hstands]
        rfl
      | some id =>
        have hpool : (i.linuxInputs cal).pool =
            some (id, i.extension.timeExtraSecs cal.zones i.now id) := by
          rw [linuxInputs, hoffered, Option.map_some]
        obtain ⟨hknown, hleft⟩ := ExtensionLedger.mostRecentNamedPool_some hoffered
        obtain ⟨g, hg, hdefined⟩ := (Option.any_eq_true ..).mp hknown
        obtain ⟨t, ht⟩ := Option.isSome_iff_exists.mp hdefined
        have htime : (i.linuxInputs cal).time id = some t := by
          show i.times.bind _ = _
          rw [hg, Option.bind_some, ht]
        rw [hpool]
        dsimp only
        rw [if_pos hleft, htime]
        dsimp only
        rw [TimesRouting.Inputs.runNamed_of_known rfl, TimesRouting.id_of_get htime]
        rfl

/-- A named pool carries a tick that the budget locks, unless no pool may. -/
def overBudget (cal : Calendar) (i : TimesInputs) : Carrier :=
  if TimesRouting.budgetPoolProof i.budget false = true then .nothing else i.offeredCarrier cal

theorem core_locked_iff : (computeRemaining cal i.core).locked = true ↔
    (i.core.landed = true ∨ i.core.scheduleSecs cal = 0) ∨ i.core.budgetSecs cal = 0 := by
  rw [EnforcerInputs.locked_iff_axes, or_assoc]

/-- Over a lock the layer falls through from the budget alone. -/
theorem fallThrough_budget (hread : (scheduleBase cal.zones i.now i.schedule).malformed = false)
    (hlocked : (computeRemaining cal i.core).locked = true) :
    ((i.linuxInputs cal).fallThrough [.budget]).carrier (computeRemaining cal i.core) =
      if i.core.landed = true ∨ i.core.scheduleSecs cal = 0 then .nothing
      else i.overBudget cal := by
  have hproof : (i.linuxInputs cal).budgetPoolProof = TimesRouting.budgetPoolProof i.budget false :=
    rfl
  rw [fallThrough_carrier hlocked, core_reason hread hlocked, hproof, overBudget]
  by_cases hlanded : i.core.landed = true
  · simp [hlanded]
  · by_cases hsched : i.core.scheduleSecs cal = 0
    · simp [hlanded, hsched]
    · cases TimesRouting.budgetPoolProof i.budget false <;> simp [hlanded, hsched]

/-- Outside every window it falls through from both limits. -/
theorem fallThrough_both (hread : (scheduleBase cal.zones i.now i.schedule).malformed = false)
    (hlocked : (computeRemaining cal i.core).locked = true) :
    ((i.linuxInputs cal).fallThrough [.schedule, .budget]).carrier (computeRemaining cal i.core) =
      if i.core.landed = true then .nothing else i.overBudget cal := by
  have hproof : (i.linuxInputs cal).budgetPoolProof = TimesRouting.budgetPoolProof i.budget false :=
    rfl
  rw [fallThrough_carrier hlocked, core_reason hread hlocked, hproof, overBudget]
  by_cases hlanded : i.core.landed = true
  · simp [hlanded]
  · by_cases hsched : i.core.scheduleSecs cal = 0
    · cases TimesRouting.budgetPoolProof i.budget false <;> simp [hlanded, hsched]
    · cases TimesRouting.budgetPoolProof i.budget false <;> simp [hlanded, hsched]

theorem linuxCarrier_free {spanEnd : Option Int}
    (hread : (scheduleBase cal.zones i.now i.schedule).malformed = false)
    (hdecide : (i.linuxInputs cal).decide = if (computeRemaining cal i.core).locked = true
      then (i.linuxInputs cal).fallThrough [.budget] else .core spanEnd) :
    i.linuxCarrier cal =
      if i.core.landed = true ∨ i.core.scheduleSecs cal = 0 then .nothing
      else if i.core.budgetSecs cal = 0 then i.overBudget cal else .window none := by
  rw [linuxCarrier, hdecide]
  by_cases hlocked : (computeRemaining cal i.core).locked = true
  · rw [if_pos hlocked, fallThrough_budget hread hlocked]
    split_ifs with hshut hbudget
    · rfl
    · rfl
    · exact absurd (core_locked_iff.mp hlocked) (by tauto)
  · have hopen := (not_congr core_locked_iff).mp hlocked
    rw [if_neg hlocked, TimesRouting.Verdict.carrier, if_neg hlocked,
      if_neg fun h => hopen (.inl h), if_neg fun h => hopen (.inr h)]

theorem linuxCarrier_named {id : String} {t : NamedTime} {spanEnd : Int}
    (hread : (scheduleBase cal.zones i.now i.schedule).malformed = false)
    (htimed : (i.linuxInputs cal).timed = .opened (some id) spanEnd)
    (htime : i.times.bind (·.get id) = some t) :
    i.linuxCarrier cal =
      if i.core.landed = true ∨ i.core.scheduleSecs cal = 0 then .nothing
      else if i.core.budgetSecs cal = 0 ∧ t.counts = true then i.overBudget cal
      else .window (some id) := by
  have hget : (i.linuxInputs cal).time id = some t := htime
  have hdecide : (i.linuxInputs cal).decide = (i.linuxInputs cal).decideWindow t spanEnd := by
    unfold TimesRouting.Inputs.decide
    rw [htimed]
    dsimp only
    rw [hget]
  have hruns : ∀ endsAt, ((i.linuxInputs cal).runNamed t false spanEnd endsAt).carrier
      (computeRemaining cal i.core) = .window (some id) := by
    intro endsAt
    rw [TimesRouting.Inputs.runNamed_of_known rfl, TimesRouting.id_of_get htime]
    rfl
  have hcore : (i.linuxInputs cal).core = computeRemaining cal i.core := rfl
  rw [linuxCarrier, hdecide, TimesRouting.Inputs.decideWindow, hcore]
  by_cases hlocked : (computeRemaining cal i.core).locked = true
  case neg =>
    have hopen := (not_congr core_locked_iff).mp hlocked
    have hbudget : ¬(i.core.budgetSecs cal = 0 ∧ t.counts = true) := fun h => hopen (.inr h.1)
    rw [if_neg fun h => hopen (.inl h), if_neg hbudget, Bool.eq_false_of_not_eq_true hlocked,
      Bool.not_false, if_pos rfl]
    split
    · exact hruns _
    · exact hruns _
  have hcause := core_locked_iff.mp hlocked
  rw [hlocked, Bool.not_true, if_neg Bool.false_ne_true, core_reason hread hlocked]
  by_cases hshut : i.core.landed = true ∨ i.core.scheduleSecs cal = 0
  · rw [if_pos hshut, if_neg]
    · rw [TimesRouting.Verdict.carrier, if_pos hlocked]
    · split_ifs <;> simp_all
  · have hbudget := hcause.resolve_left hshut
    have hreason : some (if i.core.landed = true then LockReason.standDown
        else if i.core.scheduleSecs cal = 0 then .schedule else .budget) = some .budget := by
      rw [if_neg fun h => hshut (.inl h), if_neg fun h => hshut (.inr h)]
    rw [if_neg hshut, if_pos hreason]
    cases hcounts : t.counts with
    | false =>
      rw [if_pos rfl, if_neg (by simp)]
      exact hruns _
    | true =>
      rw [if_neg (by simp), if_pos ⟨hbudget, rfl⟩, fallThrough_budget hread hlocked, if_neg hshut]

theorem linuxCarrier_closed {cause : LockCause} {secs : Option Nat}
    (hread : (scheduleBase cal.zones i.now i.schedule).malformed = false)
    (hcause : cause = .paused ∨ cause = .outsideWindows)
    (htimed : (i.linuxInputs cal).timed = .locked cause secs) :
    i.linuxCarrier cal =
      if i.core.landed = true then .nothing
      else if i.core.scheduleSecs cal = 0 ∨ i.core.budgetSecs cal = 0 then i.overBudget cal
      else .window none := by
  have hdecide : (i.linuxInputs cal).decide = if (computeRemaining cal i.core).locked = true
      then (i.linuxInputs cal).fallThrough [.schedule, .budget] else .core none := by
    unfold TimesRouting.Inputs.decide
    rw [htimed]
    rcases hcause with rfl | rfl <;> rfl
  rw [linuxCarrier, hdecide]
  by_cases hlocked : (computeRemaining cal i.core).locked = true
  · rw [if_pos hlocked, fallThrough_both hread hlocked]
    split_ifs with hlanded hspent
    · rfl
    · rfl
    · exact absurd (core_locked_iff.mp hlocked) (by tauto)
  · have hopen := (not_congr core_locked_iff).mp hlocked
    rw [if_neg hlocked, TimesRouting.Verdict.carrier, if_neg hlocked,
      if_neg fun h => hopen (.inl (.inl h)), if_neg (by tauto)]

end TimesInputs

/-! ## The Android side -/

/-- The named pool of a run. -/
def Run.pool : Run → Option String
  | .window => none
  | .namedPool id => some id

/-- What carries a tick of the Android ward. -/
def Verdict.carrier (v : Verdict) : Carrier :=
  if v.rem.locked then .nothing
  else
    match v.run with
    | .window => .window v.activeTime
    | .namedPool id => .pool id

namespace TimesInputs
variable {cal : Calendar} {i : TimesInputs}

theorem base_carrier : (i.base cal).carrier =
    if (i.base cal).rem.locked = true then .nothing
    else .window ((i.windowNamed cal).map (·.id)) := by
  unfold Verdict.carrier
  split
  · rfl
  · rename_i hlocked
    show Carrier.window (if (i.base cal).rem.locked = true then none else _) = _
    rw [if_neg hlocked]

/-- What the ward reports is what its carrier decides. -/
theorem assess_decides (burns : Bool) : (i.assess cal).carrier.decides burns =
    ⟨(i.assess cal).rem.locked, (i.assess cal).activeTime, burns, (i.assess cal).run.pool⟩ := by
  have hbase : (i.base cal).carrier.decides burns = ⟨(i.base cal).rem.locked,
      (i.base cal).activeTime, burns, (i.base cal).run.pool⟩ := by
    have htime : (i.base cal).activeTime = if (i.base cal).rem.locked = true then none
        else (i.windowNamed cal).map (·.id) := rfl
    rw [base_carrier, htime]
    cases (i.base cal).rem.locked <;> rfl
  unfold assess
  dsimp only
  split
  · split
    · rfl
    · exact hbase
  · exact hbase

theorem budgetSide_eq_zero_iff : (i.budgetSide cal).budgetSecs = 0 ↔
    i.core.budgetSecs cal = 0 ∧ i.counts cal = true := by
  unfold budgetSide
  cases i.counts cal with
  | true =>
    rw [if_pos rfl, and_iff_left rfl]
    exact Iff.rfl
  | false =>
    have hnone : ¬(-1 : Int) = 0 := by decide
    exact iff_of_false hnone (by simp)

/-- A named pool carries a tick that either limit locks, to the end of the day. -/
def overLimits (cal : Calendar) (i : TimesInputs) : Carrier :=
  if 0 < i.eod cal then i.offeredCarrier cal else .nothing

/-- What carries a tick of the ward. -/
theorem assess_carrier : (i.assess cal).carrier =
    if (i.scheduleAxis cal).malformed = true ∨ i.core.landed = true then .nothing
    else if (i.scheduleAxis cal).secs = 0 ∨ i.core.budgetSecs cal = 0 ∧ i.counts cal = true then
      i.overLimits cal
    else .window ((i.windowNamed cal).map (·.id)) := by
  have hlanded : i.core.landed = true ↔ i.Landed := standDown_landed_iff
  have hlock := @base_locked_iff cal i
  rw [budgetSide_eq_zero_iff] at hlock
  by_cases hlocked : (i.base cal).rem.locked = true
  case neg =>
    have hopen := (not_congr hlock).mp hlocked
    have hread : ¬(i.scheduleAxis cal).malformed = true :=
      fun h => hopen (.inr (.inl (secs_of_malformed h)))
    have hassess : i.assess cal = i.base cal := by
      unfold assess fallThroughPool
      dsimp only
      rw [base_reason, if_neg hlocked, if_neg (by simp)]
    rw [hassess, base_carrier, if_neg hlocked, if_neg, if_neg fun h => hopen (.inr h)]
    rintro (h | h)
    · exact hread h
    · exact hopen (.inl (hlanded.mp h))
  have hbase : (i.base cal).carrier = .nothing := by rw [base_carrier, if_pos hlocked]
  by_cases hkeep : i.Landed ∨ i.Unreadable cal
  · have hassess : i.assess cal = i.base cal := by
      unfold assess
      dsimp only
      rw [fallThroughPool_none hkeep]
    rw [hassess, hbase, if_pos (hkeep.elim (fun h => .inr (hlanded.mpr h))
      fun h => .inl (malformed_iff.mpr h))]
  · obtain ⟨hnotLanded, hread⟩ := not_or.mp hkeep
    have hspent := (hlock.mp hlocked).resolve_left hnotLanded
    have hpool : i.fallThroughPool cal (i.base cal).rem.reason = i.offered cal :=
      fallThroughPool_of_locked hlocked hnotLanded hread
    rw [if_neg, if_pos hspent, overLimits, offeredCarrier]
    · unfold assess
      dsimp only
      rw [hpool]
      cases hoffered : i.offered cal with
      | none =>
        dsimp only
        rw [hbase]
        split <;> rfl
      | some id =>
        have hleft := (ExtensionLedger.mostRecentNamedPool_some hoffered).2
        dsimp only
        by_cases hday : 0 < i.eod cal
        · rw [if_pos ((poolSecs_pos_iff hnotLanded hleft).mpr hday), if_pos hday]
          rfl
        · rw [if_neg fun h => hday ((poolSecs_pos_iff hnotLanded hleft).mp h), if_neg hday, hbase]
    · rintro (h | h)
      · exact hread (malformed_iff.mp h)
      · exact hnotLanded (hlanded.mp h)

/-- A named pool that carries a tick is the only one that burns. -/
theorem assess_burns : (i.assess cal).burnSchedulePool =
    ((i.status cal).any TimesRouting.TimedStatus.isLocked && (i.assess cal).run.pool.isNone) := by
  have hbase : (i.base cal).burnSchedulePool =
      ((i.status cal).any TimesRouting.TimedStatus.isLocked && (i.base cal).run.pool.isNone) :=
    (Bool.and_true _).symm
  unfold assess
  dsimp only
  split
  · split
    · exact (Bool.and_false _).symm
    · exact hbase
  · exact hbase

/-! ## What is spent -/

/-- Nothing is left of the budget, today's moves counted. -/
def BudgetGone (cal : Calendar) (i : TimesInputs) : Prop :=
  ∃ b ∈ i.budget, ∃ n ∈ b.quotaLeftSigned cal i.usage i.consolidated i.now (i.core.budgetNet cal)
    (i.extension.budgetBaselineSecs cal.zones i.now), n ≤ 0

/-- What was taken back today is at least some seconds with Free's pool on top. -/
def TakenBack (cal : Calendar) (i : TimesInputs) (secs : Nat) : Prop :=
  wrapU64 (secs + i.extension.scheduleExtraSecs cal.zones i.now) ≤
    i.extension.scheduleDeductedSecs cal.zones i.now

/-- It is so of the window in force, run as Free time. -/
def ClassicSpent (cal : Calendar) (i : TimesInputs) : Prop :=
  ∃ secsToClose, i.classic cal = some (.opened secsToClose) ∧ i.TakenBack cal secsToClose

/-- It is so of the span in force; from one that Free's pool does not carry on nothing is taken. -/
def SpanSpent (cal : Calendar) (i : TimesInputs) (time : Option String) (spanEnd : Int) : Prop :=
  if time.isNone && i.freeContinues cal spanEnd then
    i.TakenBack cal (max (spanEnd - i.now) 0).toNat
  else wrapU64 (max (spanEnd - i.now) 0).toNat = 0

/-- The local day has run out. -/
def DayOver (cal : Calendar) (i : TimesInputs) : Prop := i.eod cal = 0

/-- A pool of a defined time is offered. -/
def Offered (cal : Calendar) (i : TimesInputs) : Prop := (i.offered cal).isSome = true

theorem budgetSecs_eq_zero_iff : i.core.budgetSecs cal = 0 ↔ i.BudgetGone cal := by
  have hparts : i.core.budgetSecs cal = EnforcerInputs.clampLeft (i.budget.bind fun b =>
      b.quotaLeftSigned cal i.usage i.consolidated i.now (i.core.budgetNet cal)
        (i.extension.budgetBaselineSecs cal.zones i.now)) := by
    have hbudget : i.core.budget = i.budget := rfl
    unfold EnforcerInputs.budgetSecs EnforcerInputs.budgetParts
    rw [hbudget]
    cases i.budget <;> rfl
  rw [hparts, BudgetGone]
  cases i.budget with
  | none => simp [EnforcerInputs.clampLeft]
  | some b =>
    rw [Option.bind_some]
    cases hleft : b.quotaLeftSigned cal i.usage i.consolidated i.now (i.core.budgetNet cal)
      (i.extension.budgetBaselineSecs cal.zones i.now) with
    | none => simp [EnforcerInputs.clampLeft, hleft]
    | some n => simp [EnforcerInputs.clampLeft, hleft]

theorem counts_iff : i.counts cal = true ↔ ¬i.Exempt cal := by
  unfold counts Exempt
  cases i.windowNamed cal with
  | none => simp
  | some t => simp

theorem poolProof_iff :
    TimesRouting.budgetPoolProof i.budget false = true ↔ i.BudgetShut := by
  rw [TimesRouting.Look.budgetPoolProof_iff, or_iff_left Bool.false_ne_true]
  rfl

/-- The core's seconds of a window. -/
theorem classicSecs_eq_zero_iff {secsToClose : Nat}
    (h : i.classic cal = some (.opened secsToClose)) :
    i.core.scheduleSecs cal = 0 ↔ i.ClassicSpent cal ∨ i.DayOver cal := by
  have hspent : i.ClassicSpent cal ↔ i.TakenBack cal secsToClose := by
    unfold ClassicSpent
    rw [h]
    simp
  have hsecs : i.core.scheduleSecs cal = (classicBase (i.classic cal)).withPools
      (i.extension.scheduleExtraSecs cal.zones i.now)
      (i.extension.scheduleDeductedSecs cal.zones i.now) (i.eod cal) := by
    rw [← scheduleBase_classic]
    rfl
  rw [hspent, hsecs, h, TakenBack, DayOver]
  unfold ScheduleBase.withPools classicBase
  dsimp only
  rw [if_neg Bool.false_ne_true, if_neg (by omega), Int.toNat_natCast]
  omega

/-- The ward's seconds of a span. -/
theorem spanSecs_eq_zero_iff {time : Option String} {spanEnd : Int}
    (h : i.status cal = some (.opened time spanEnd)) :
    (i.scheduleAxis cal).secs = 0 ↔ i.SpanSpent cal time spanEnd ∨ i.DayOver cal := by
  unfold scheduleAxis SpanSpent DayOver TakenBack
  rw [h]
  dsimp only
  by_cases hfree : (time.isNone && i.freeContinues cal spanEnd) = true
  · rw [if_pos hfree, if_pos hfree, pooled]
    dsimp only
    omega
  · rw [if_neg hfree, if_neg hfree, pooled, Nat.add_zero]
    dsimp only
    omega

/-- Outside every window both count Free's pool alone. -/
theorem closedSecs_eq_zero_iff {cause : LockCause} {secs secs' : Option Nat}
    (hwords : i.extension.Bounded) (hstatus : i.status cal = some (.locked cause secs))
    (hclassic : i.classic cal = some (.locked secs')) :
    (i.core.scheduleSecs cal = 0 ↔ i.TakenBack cal 0 ∨ i.DayOver cal) ∧
      ((i.scheduleAxis cal).secs = 0 ↔ i.TakenBack cal 0 ∨ i.DayOver cal) := by
  have hsecs : i.core.scheduleSecs cal = (classicBase (i.classic cal)).withPools
      (i.extension.scheduleExtraSecs cal.zones i.now)
      (i.extension.scheduleDeductedSecs cal.zones i.now) (i.eod cal) := by
    rw [← scheduleBase_classic]
    rfl
  unfold TakenBack DayOver
  constructor
  · rw [hsecs, hclassic]
    unfold ScheduleBase.withPools classicBase
    dsimp only
    rw [if_neg Bool.false_ne_true, if_neg (by omega), Int.toNat_zero]
    omega
  · unfold scheduleAxis
    rw [hstatus, Nat.zero_add, scheduleExtraSecs_word hwords]
    dsimp only
    omega

/-! ## When the two decide alike -/

/-- Where the two wardens decide alike, by what the schedule says.  Over a schedule that is not read
they always do; inside a window whose tag is not defined the Linux daemon is locked whatever is
left, and outside every window it lets both pools burn; a shut budget lets no named pool run there;
and inside a window the two count its seconds each its own way. -/
def InStep (cal : Calendar) (i : TimesInputs) : Prop :=
  match i.status cal with
  | some .unparseable => True
  | some (.locked (.unknownTime _) _) =>
    i.extension.scheduleExtraSecs cal.zones i.now = 0 ∧
      (i.Landed ∨ ¬i.Offered cal ∨ i.DayOver cal)
  | some (.locked _ _) =>
    i.Landed ∨ ¬i.Offered cal ∨ ¬(i.TakenBack cal 0 ∨ i.DayOver cal ∨ i.BudgetGone cal) ∨
      (i.BudgetShut ∧ i.DayOver cal ∨ ¬i.BudgetShut ∧ ¬i.DayOver cal ∧
        i.extension.scheduleExtraSecs cal.zones i.now = 0)
  | some (.opened time spanEnd) =>
    i.Landed ∨ i.DayOver cal ∨
      ((i.ClassicSpent cal ∨ i.BudgetGone cal ∧ ¬i.Exempt cal ↔
          i.SpanSpent cal time spanEnd ∨ i.BudgetGone cal ∧ ¬i.Exempt cal) ∧
        (i.Offered cal → ¬i.ClassicSpent cal ∧ ¬(i.BudgetShut ∧ ¬i.Exempt cal)))
  | none | some .unbounded =>
    i.Landed ∨ ¬i.Offered cal ∨ ¬i.BudgetGone cal ∨ (i.BudgetShut ↔ i.DayOver cal)

/-- The carrier that the Linux daemon's layer leaves, and what it burns of Free's pool. -/
def linuxDecides (cal : Calendar) (i : TimesInputs) : TickDecision :=
  (i.linuxCarrier cal).decides ((i.classic cal).any ScheduleStatus.isLocked &&
    decide (0 < i.extension.scheduleExtraSecs cal.zones i.now))

def androidDecides (cal : Calendar) (i : TimesInputs) : TickDecision :=
  (i.assess cal).carrier.decides ((i.assess cal).burnSchedulePool &&
    decide (0 < i.extension.scheduleExtraSecs cal.zones i.now))

theorem pool_eq_carrier : (i.assess cal).run.pool = (i.assess cal).carrier.named := by
  have hdecides : ((i.assess cal).carrier.decides false).burnsNamed = (i.assess cal).run.pool := by
    rw [assess_decides]
  rw [← hdecides]
  cases (i.assess cal).carrier <;> rfl

/-- What carries is a named pool's, if one is offered. -/
theorem offeredCarrier_cases (cal : Calendar) (i : TimesInputs) :
    ¬i.Offered cal ∧ i.offeredCarrier cal = .nothing ∨
    i.Offered cal ∧ ∃ id, i.offeredCarrier cal = .pool id := by
  unfold Offered offeredCarrier
  cases i.offered cal with
  | none => exact .inl ⟨by simp, rfl⟩
  | some id => exact .inr ⟨rfl, id, rfl⟩

theorem landed_iff : i.core.landed = true ↔ i.Landed := standDown_landed_iff

theorem dayOver_iff : i.DayOver cal ↔ ¬0 < i.eod cal := by
  unfold DayOver
  omega

theorem overLimits_eq_nothing_iff :
    i.overLimits cal = .nothing ↔ ¬i.Offered cal ∨ i.DayOver cal := by
  rw [dayOver_iff, overLimits]
  by_cases hday : 0 < i.eod cal
  · rcases offeredCarrier_cases cal i with ⟨hnone, h⟩ | ⟨hsome, id, h⟩
    · simp [hday, h, hnone]
    · simp [hday, h, hsome]
  · simp [hday]

theorem overLimits_ne_window {time : Option String} : i.overLimits cal ≠ .window time := by
  unfold overLimits
  rcases offeredCarrier_cases cal i with ⟨-, h⟩ | ⟨-, id, h⟩
  · rw [h, ite_self]
    simp
  · rw [h]
    split <;> simp

/-- Over a limit the two fall through alike unless the budget is shut, and the day has not run
out. -/
theorem overBudget_eq_iff :
    i.overBudget cal = i.overLimits cal ↔ ¬i.Offered cal ∨ (i.BudgetShut ↔ i.DayOver cal) := by
  rw [← poolProof_iff, dayOver_iff, overBudget, overLimits]
  rcases offeredCarrier_cases cal i with ⟨hnone, h⟩ | ⟨hsome, id, h⟩
  · simp [h, hnone]
  · cases TimesRouting.budgetPoolProof i.budget false <;> by_cases hday : 0 < i.eod cal <;>
      simp [h, hsome, hday]

/-- A budget that is shut has nothing left. -/
theorem budgetGone_of_shut (h : i.BudgetShut) : i.BudgetGone cal := by
  obtain ⟨b, hb, hspent⟩ := h
  refine ⟨b, hb, 0, ?_, le_rfl⟩
  rw [GrantBudget.quotaLeftSigned, b.quotaParts_spent hspent]
  rfl

/-- The two decide alike exactly when the same carries, and the same of Free's pool burns. -/
theorem decides_alike_iff : i.linuxDecides cal = i.androidDecides cal ↔
    i.linuxCarrier cal = (i.assess cal).carrier ∧
      (0 < i.extension.scheduleExtraSecs cal.zones i.now →
        (i.classic cal).any ScheduleStatus.isLocked =
          ((i.status cal).any TimesRouting.TimedStatus.isLocked &&
            (i.assess cal).carrier.named.isNone)) := by
  unfold linuxDecides androidDecides
  rw [Carrier.decides_inj, assess_burns, pool_eq_carrier]
  by_cases hleft : 0 < i.extension.scheduleExtraSecs cal.zones i.now
  · simp [hleft]
  · simp [hleft]

theorem decides_alike_of_open (hclosed : (i.classic cal).any ScheduleStatus.isLocked = false)
    (hclosed' : (i.status cal).any TimesRouting.TimedStatus.isLocked = false) :
    i.linuxDecides cal = i.androidDecides cal ↔ i.linuxCarrier cal = (i.assess cal).carrier := by
  rw [decides_alike_iff, hclosed, hclosed', Bool.false_and, and_iff_left fun _ => rfl]

/-- Outside every window the two differ where a named pool carries one of them. -/
theorem alike_closed {cause : LockCause} {secs secs' secs'' : Option Nat}
    (hwords : i.extension.Bounded) (hcause : cause = .paused ∨ cause = .outsideWindows)
    (htimed : (i.linuxInputs cal).timed = .locked cause secs)
    (hstatus : i.status cal = some (.locked cause secs'))
    (hclassic : i.classic cal = some (.locked secs'')) :
    i.linuxDecides cal = i.androidDecides cal ↔ i.InStep cal := by
  have hread : (scheduleBase cal.zones i.now i.schedule).malformed = false := by
    rw [scheduleBase_classic, hclassic]
    rfl
  have haxis : (i.scheduleAxis cal).malformed = false := by
    unfold scheduleAxis
    rw [hstatus]
  have hcounts : i.counts cal = true := by
    unfold counts windowNamed
    rw [hstatus]
    rfl
  have hwindow : i.windowNamed cal = none := by
    unfold windowNamed
    rw [hstatus]
  obtain ⟨hcore, hward⟩ := closedSecs_eq_zero_iff hwords hstatus hclassic
  have hstep : i.InStep cal ↔ (i.Landed ∨ ¬i.Offered cal ∨
      ¬(i.TakenBack cal 0 ∨ i.DayOver cal ∨ i.BudgetGone cal) ∨
      (i.BudgetShut ∧ i.DayOver cal ∨ ¬i.BudgetShut ∧ ¬i.DayOver cal ∧
        i.extension.scheduleExtraSecs cal.zones i.now = 0)) := by
    unfold InStep
    rw [hstatus]
    rcases hcause with rfl | rfl <;> rfl
  have hspends : i.core.scheduleSecs cal = 0 ∨ i.core.budgetSecs cal = 0 ↔
      i.TakenBack cal 0 ∨ i.DayOver cal ∨ i.BudgetGone cal := by
    rw [hcore, budgetSecs_eq_zero_iff, or_assoc]
  have hspends' : (i.scheduleAxis cal).secs = 0 ∨ i.core.budgetSecs cal = 0 ∧ i.counts cal = true ↔
      i.TakenBack cal 0 ∨ i.DayOver cal ∨ i.BudgetGone cal := by
    rw [hward, budgetSecs_eq_zero_iff, hcounts, and_iff_left rfl, or_assoc]
  have hlocks : (i.scheduleAxis cal).malformed = true ∨ i.core.landed = true ↔ i.Landed := by
    rw [haxis, or_iff_right Bool.false_ne_true, landed_iff]
  have hclosed : (i.classic cal).any ScheduleStatus.isLocked = true := by
    rw [hclassic]
    rfl
  have hclosed' : (i.status cal).any TimesRouting.TimedStatus.isLocked = true := by
    rw [hstatus]
    rfl
  rw [decides_alike_iff, hstep, linuxCarrier_closed hread hcause htimed, assess_carrier, hclosed,
    hclosed', Bool.true_and, hwindow]
  by_cases hlanded : i.Landed
  · rw [if_pos (landed_iff.mpr hlanded), if_pos (hlocks.mpr hlanded)]
    simp [hlanded, Carrier.named]
  rw [if_neg (landed_iff.not.mpr hlanded), if_neg (hlocks.not.mpr hlanded), or_iff_right hlanded]
  by_cases hspent : i.TakenBack cal 0 ∨ i.DayOver cal ∨ i.BudgetGone cal
  case neg =>
    rw [if_neg (hspends.not.mpr hspent), if_neg (hspends'.not.mpr hspent)]
    simp [hspent, Carrier.named]
  rw [if_pos (hspends.mpr hspent), if_pos (hspends'.mpr hspent), or_iff_right (not_not.mpr hspent),
    overBudget_eq_iff]
  have hnamed : true = (i.overLimits cal).named.isNone ↔ ¬i.Offered cal ∨ i.DayOver cal := by
    rw [← overLimits_eq_nothing_iff]
    cases hover : i.overLimits cal with
    | nothing => simp [Carrier.named]
    | window time => exact absurd hover overLimits_ne_window
    | pool id => simp [Carrier.named]
  rw [hnamed]
  clear hstep hclosed hclosed' hspends hspends' hlocks hnamed
  by_cases hoffered : i.Offered cal
  · by_cases hover : i.DayOver cal
    · simp [hoffered, hover]
    · simp [hoffered, hover, Nat.pos_iff_ne_zero]
  · simp [hoffered]

/-- Inside a window whose tag is not defined the Linux daemon is locked. -/
theorem alike_unknown {tag : String} {secs secs' : Option Nat} {secsToClose : Nat}
    (htimed : (i.linuxInputs cal).timed = .locked (.unknownTime tag) secs)
    (hstatus : i.status cal = some (.locked (.unknownTime tag) secs'))
    (hclassic : i.classic cal = some (.opened secsToClose)) :
    i.linuxDecides cal = i.androidDecides cal ↔ i.InStep cal := by
  have haxis : (i.scheduleAxis cal).malformed = false := by
    unfold scheduleAxis
    rw [hstatus]
  have hlinux : i.linuxCarrier cal = .nothing := by
    unfold linuxCarrier TimesRouting.Inputs.decide
    rw [htimed]
    rfl
  have hlocks : (i.scheduleAxis cal).malformed = true ∨ i.core.landed = true ↔ i.Landed := by
    rw [haxis, or_iff_right Bool.false_ne_true, landed_iff]
  have hstep : i.InStep cal ↔ i.extension.scheduleExtraSecs cal.zones i.now = 0 ∧
      (i.Landed ∨ ¬i.Offered cal ∨ i.DayOver cal) := by
    unfold InStep
    rw [hstatus]
  have hclosed : (i.classic cal).any ScheduleStatus.isLocked = false := by
    rw [hclassic]
    rfl
  have hclosed' : (i.status cal).any TimesRouting.TimedStatus.isLocked = true := by
    rw [hstatus]
    rfl
  rw [decides_alike_iff, hstep, hlinux, hclosed, hclosed', Bool.true_and]
  by_cases hleft : i.extension.scheduleExtraSecs cal.zones i.now = 0
  case neg =>
    -- Free's pool burns on the ward alone, or a named pool carries it
    refine iff_of_false ?_ fun h => hleft h.1
    rintro ⟨hcarrier, hburns⟩
    have hnone := hburns (Nat.pos_of_ne_zero hleft)
    rw [← hcarrier] at hnone
    cases hnone
  have hspent : (i.scheduleAxis cal).secs = 0 := by
    unfold scheduleAxis
    rw [hstatus, hleft]
    dsimp only
    omega
  rw [hleft, assess_carrier]
  by_cases hlanded : i.Landed
  · rw [if_pos (hlocks.mpr hlanded)]
    simp [hlanded]
  rw [if_neg (hlocks.not.mpr hlanded), if_pos (.inl hspent), or_iff_right hlanded,
    ← overLimits_eq_nothing_iff]
  constructor
  · exact fun h => ⟨rfl, h.1.symm⟩
  · exact fun h => ⟨h.2.symm, fun hpos => absurd hpos (Nat.lt_irrefl 0)⟩

/-- A schedule that is not read locks both. -/
theorem alike_unparseable (htimed : (i.linuxInputs cal).timed = .unparseable)
    (hstatus : i.status cal = some .unparseable)
    (hclassic : i.classic cal = some .unparseable) :
    i.linuxDecides cal = i.androidDecides cal ↔ i.InStep cal := by
  have haxis : (i.scheduleAxis cal).malformed = true := by
    unfold scheduleAxis
    rw [hstatus]
  have hsecs : i.core.scheduleSecs cal = 0 := by
    have hbase : (scheduleBase cal.zones i.core.nowUnix i.core.schedule).malformed = true := by
      show (scheduleBase cal.zones i.now i.schedule).malformed = true
      rw [scheduleBase_classic, hclassic]
      rfl
    unfold EnforcerInputs.scheduleSecs ScheduleBase.withPools
    rw [if_pos hbase]
  have hlinux : i.linuxCarrier cal = .nothing := by
    unfold linuxCarrier TimesRouting.Inputs.decide
    rw [htimed]
    exact if_pos (core_locked_iff.mpr (.inl (.inr hsecs)))
  have hstep : i.InStep cal := by
    unfold InStep
    rw [hstatus]
    trivial
  rw [decides_alike_iff, hlinux, assess_carrier, if_pos (.inl haxis), hclassic, hstatus]
  exact iff_of_true ⟨rfl, fun _ => rfl⟩ hstep

/-- Without a schedule the two differ over a budget. -/
theorem alike_free (htimed : (i.linuxInputs cal).timed = .unbounded)
    (hstatus : i.status cal = none ∨ i.status cal = some .unbounded)
    (hclassic : i.classic cal = none ∨ i.classic cal = some .unbounded) :
    i.linuxDecides cal = i.androidDecides cal ↔ i.InStep cal := by
  have hbase : scheduleBase cal.zones i.now i.schedule = ⟨-1, false, none⟩ := by
    rw [scheduleBase_classic]
    rcases hclassic with h | h
    · rw [h]
      rfl
    · rw [h]
      rfl
  have haxis : i.scheduleAxis cal = ⟨-1, false, none⟩ := by
    unfold scheduleAxis
    rcases hstatus with h | h <;> rw [h]
  have hwindow : i.windowNamed cal = none := by
    unfold windowNamed
    rcases hstatus with h | h <;> rw [h]
  have hcounts : i.counts cal = true := by
    unfold counts
    rw [hwindow]
    rfl
  have hsecs : i.core.scheduleSecs cal ≠ 0 := by
    have hcore : scheduleBase cal.zones i.core.nowUnix i.core.schedule = ⟨-1, false, none⟩ := hbase
    unfold EnforcerInputs.scheduleSecs
    rw [hcore]
    exact fun h => absurd h (by simp [ScheduleBase.withPools])
  have hdecide : (i.linuxInputs cal).decide = if (computeRemaining cal i.core).locked = true
      then (i.linuxInputs cal).fallThrough [.budget] else .core none := by
    unfold TimesRouting.Inputs.decide
    rw [htimed]
    rfl
  have hstep : i.InStep cal ↔ (i.Landed ∨ ¬i.Offered cal ∨ ¬i.BudgetGone cal ∨
      (i.BudgetShut ↔ i.DayOver cal)) := by
    unfold InStep
    rcases hstatus with h | h <;> rw [h]
  have hclosed : (i.classic cal).any ScheduleStatus.isLocked = false := by
    rcases hclassic with h | h
    · rw [h]
      rfl
    · rw [h]
      rfl
  have hclosed' : (i.status cal).any TimesRouting.TimedStatus.isLocked = false := by
    rcases hstatus with h | h
    · rw [h]
      rfl
    · rw [h]
      rfl
  have hlocks : i.core.landed = true ∨ i.core.scheduleSecs cal = 0 ↔ i.Landed := by
    rw [or_iff_left hsecs, landed_iff]
  have hlocks' : (i.scheduleAxis cal).malformed = true ∨ i.core.landed = true ↔ i.Landed := by
    rw [haxis, or_iff_right Bool.false_ne_true, landed_iff]
  have hspends : (i.scheduleAxis cal).secs = 0 ∨ i.core.budgetSecs cal = 0 ∧ i.counts cal = true ↔
      i.BudgetGone cal := by
    rw [haxis, hcounts, and_iff_left rfl, or_iff_right (by simp), budgetSecs_eq_zero_iff]
  rw [decides_alike_of_open hclosed hclosed', hstep, linuxCarrier_free (by rw [hbase]) hdecide,
    assess_carrier, hwindow]
  by_cases hlanded : i.Landed
  · rw [if_pos (hlocks.mpr hlanded), if_pos (hlocks'.mpr hlanded)]
    simp [hlanded]
  rw [if_neg (hlocks.not.mpr hlanded), if_neg (hlocks'.not.mpr hlanded), or_iff_right hlanded]
  by_cases hgone : i.BudgetGone cal
  · rw [if_pos (budgetSecs_eq_zero_iff.mpr hgone), if_pos (hspends.mpr hgone), overBudget_eq_iff,
      or_iff_right (not_not.mpr hgone)]
  · rw [if_neg (budgetSecs_eq_zero_iff.not.mpr hgone), if_neg (hspends.not.mpr hgone)]
    simp [hgone]

/-- A tag that opens names a time that is defined. -/
theorem time_of_opened {id : String} {spanEnd : Int}
    (htimed : (i.linuxInputs cal).timed = .opened (some id) spanEnd) :
    ∃ t, i.times.bind (·.get id) = some t := by
  have hat : TimesRouting.timedAt cal.zones i.schedule i.times i.now = .opened (some id) spanEnd :=
    htimed
  unfold TimesRouting.timedAt at hat
  split at hat
  · obtain ⟨g, hg, hdefined⟩ := (Option.any_eq_true ..).mp (Times.known_of_opened hat)
    obtain ⟨t, ht⟩ := Option.isSome_iff_exists.mp hdefined
    exact ⟨t, by rw [hg, Option.bind_some, ht]⟩
  · cases hat

theorem linuxCarrier_opened {time : Option String} {spanEnd spanEnd' : Int} {secsToClose : Nat}
    (htimed : (i.linuxInputs cal).timed = .opened time spanEnd)
    (hstatus : i.status cal = some (.opened time spanEnd'))
    (hclassic : i.classic cal = some (.opened secsToClose)) :
    i.linuxCarrier cal =
      if i.core.landed = true ∨ i.core.scheduleSecs cal = 0 then .nothing
      else if i.core.budgetSecs cal = 0 ∧ i.counts cal = true then i.overBudget cal
      else .window ((i.windowNamed cal).map (·.id)) := by
  have hread : (scheduleBase cal.zones i.now i.schedule).malformed = false := by
    rw [scheduleBase_classic, hclassic]
    rfl
  cases time with
  | none =>
    have hwindow : i.windowNamed cal = none := by
      unfold windowNamed
      rw [hstatus]
    have hcounts : i.counts cal = true := by
      unfold counts
      rw [hwindow]
      rfl
    have hdecide : (i.linuxInputs cal).decide = if (computeRemaining cal i.core).locked = true
        then (i.linuxInputs cal).fallThrough [.budget] else .core (some spanEnd) := by
      unfold TimesRouting.Inputs.decide
      rw [htimed]
      rfl
    rw [linuxCarrier_free hread hdecide, hwindow, hcounts]
    simp
  | some id =>
    obtain ⟨t, ht⟩ := time_of_opened htimed
    have hwindow : i.windowNamed cal = some t := by
      unfold windowNamed
      rw [hstatus]
      exact ht
    have hcounts : i.counts cal = t.counts := by
      unfold counts
      rw [hwindow]
      rfl
    rw [linuxCarrier_named hread htimed ht, hwindow, hcounts, Option.map_some,
      TimesRouting.id_of_get ht]

/-- Inside a window the two differ in what they count of it, and over a budget. -/
theorem alike_opened {time : Option String} {spanEnd spanEnd' : Int} {secsToClose : Nat}
    (htimed : (i.linuxInputs cal).timed = .opened time spanEnd)
    (hstatus : i.status cal = some (.opened time spanEnd'))
    (hclassic : i.classic cal = some (.opened secsToClose)) :
    i.linuxDecides cal = i.androidDecides cal ↔ i.InStep cal := by
  have haxis : (i.scheduleAxis cal).malformed = false := by
    unfold scheduleAxis
    rw [hstatus]
    dsimp only
    split <;> rfl
  have hclosed : (i.classic cal).any ScheduleStatus.isLocked = false := by
    rw [hclassic]
    rfl
  have hclosed' : (i.status cal).any TimesRouting.TimedStatus.isLocked = false := by
    rw [hstatus]
    rfl
  have hstep : i.InStep cal ↔ (i.Landed ∨ i.DayOver cal ∨
      ((i.ClassicSpent cal ∨ i.BudgetGone cal ∧ ¬i.Exempt cal ↔
          i.SpanSpent cal time spanEnd' ∨ i.BudgetGone cal ∧ ¬i.Exempt cal) ∧
        (i.Offered cal → ¬i.ClassicSpent cal ∧ ¬(i.BudgetShut ∧ ¬i.Exempt cal)))) := by
    unfold InStep
    rw [hstatus]
  have hbudget : i.core.budgetSecs cal = 0 ∧ i.counts cal = true ↔
      i.BudgetGone cal ∧ ¬i.Exempt cal := by rw [budgetSecs_eq_zero_iff, counts_iff]
  have hlocks : i.core.landed = true ∨ i.core.scheduleSecs cal = 0 ↔
      i.Landed ∨ i.ClassicSpent cal ∨ i.DayOver cal := by
    rw [landed_iff, classicSecs_eq_zero_iff hclassic]
  have hlocks' : (i.scheduleAxis cal).malformed = true ∨ i.core.landed = true ↔ i.Landed := by
    rw [haxis, or_iff_right Bool.false_ne_true, landed_iff]
  have hspends : (i.scheduleAxis cal).secs = 0 ∨ i.core.budgetSecs cal = 0 ∧ i.counts cal = true ↔
      (i.SpanSpent cal time spanEnd' ∨ i.DayOver cal) ∨ i.BudgetGone cal ∧ ¬i.Exempt cal := by
    rw [spanSecs_eq_zero_iff hstatus, hbudget]
  rw [decides_alike_of_open hclosed hclosed', hstep,
    linuxCarrier_opened htimed hstatus hclassic, assess_carrier]
  by_cases hlanded : i.Landed
  · rw [if_pos (hlocks.mpr (.inl hlanded)), if_pos (hlocks'.mpr hlanded)]
    simp [hlanded]
  rw [if_neg (hlocks'.not.mpr hlanded), or_iff_right hlanded]
  by_cases hover : i.DayOver cal
  · rw [if_pos (hlocks.mpr (.inr (.inr hover))), if_pos (hspends.mpr (.inl (.inr hover))),
      overLimits_eq_nothing_iff.mpr (.inr hover)]
    simp [hover]
  rw [or_iff_right hover]
  by_cases hclassicSpent : i.ClassicSpent cal
  · -- the core locks the window, and the layer lets that stand
    rw [if_pos (hlocks.mpr (.inr (.inl hclassicSpent)))]
    by_cases hspent : i.SpanSpent cal time spanEnd' ∨ i.BudgetGone cal ∧ ¬i.Exempt cal
    · rw [if_pos (hspends.mpr (hspent.imp_left .inl)), eq_comm, overLimits_eq_nothing_iff]
      simp [hclassicSpent, hspent, hover]
    · rw [if_neg fun h => hspent ((hspends.mp h).imp_left fun h => h.resolve_right hover)]
      simp [hclassicSpent, hspent]
  have hopen : ¬(i.core.landed = true ∨ i.core.scheduleSecs cal = 0) :=
    fun h => (hlocks.mp h).elim hlanded fun h => h.elim hclassicSpent hover
  rw [if_neg hopen]
  by_cases hgone : i.BudgetGone cal ∧ ¬i.Exempt cal
  · rw [if_pos (hbudget.mpr hgone), if_pos (hspends.mpr (.inr hgone)), overBudget_eq_iff]
    simp [hclassicSpent, hgone, hover, imp_iff_not_or]
  · have hshut : ¬(i.BudgetShut ∧ ¬i.Exempt cal) :=
      fun h => hgone ⟨budgetGone_of_shut h.1, h.2⟩
    rw [if_neg (hbudget.not.mpr hgone)]
    by_cases hspan : i.SpanSpent cal time spanEnd'
    · rw [if_pos (hspends.mpr (.inl (.inl hspan)))]
      refine iff_of_false overLimits_ne_window.symm fun h => ?_
      exact (h.1.mpr (.inl hspan)).elim hclassicSpent hgone
    · rw [if_neg fun h => (hspends.mp h).elim (fun h => h.elim hspan hover) hgone]
      simp [hclassicSpent, hspan, hgone, hshut]

/-- **The two decide alike exactly where they are in step.** -/
theorem decides_alike_iff_inStep (hwords : i.extension.Bounded) :
    i.linuxDecides cal = i.androidDecides cal ↔ i.InStep cal := by
  cases i.reads cal with
  | unset htimed hstatus hclassic => exact alike_free htimed (.inl hstatus) (.inl hclassic)
  | unbounded htimed hstatus hclassic => exact alike_free htimed (.inr hstatus) (.inr hclassic)
  | opened _ _ _ _ htimed hstatus hclassic => exact alike_opened htimed hstatus hclassic
  | unknown _ _ _ _ htimed hstatus hclassic => exact alike_unknown htimed hstatus hclassic
  | closed _ _ _ _ hcause htimed hstatus hclassic =>
    exact alike_closed hwords hcause htimed hstatus hclassic
  | unparseable htimed hstatus hclassic => exact alike_unparseable htimed hstatus hclassic

end TimesInputs
end WardenTimes

/-! ## One child -/

/-- A second of wall clock lowers Free's schedule pool, if there is anything on it. -/
theorem burnSchedule_lowers_iff {zones : Zones} {l : ExtensionLedger} {now : Int}
    (hwords : l.Bounded) :
    (l.burnSchedule zones now 1).scheduleExtraSecs zones now < l.scheduleExtraSecs zones now ↔
      0 < l.scheduleExtraSecs zones now := by
  by_cases hday : l.dayKeyAt zones now = l.dayKey
  case neg =>
    have hstale : l.scheduleExtraSecs zones now = 0 := if_pos (decide_eq_true hday)
    rw [hstale]
    exact iff_of_false (Nat.not_lt_zero _) (Nat.not_lt_zero _)
  have hsecs : l.scheduleSecs ≤ u64Max := hwords (.give .schedule)
  have hextra : ∀ l' : ExtensionLedger, l'.dayKeyAt zones now = l'.dayKey →
      l'.scheduleExtraSecs zones now = l'.scheduleSecs - l'.scheduleConsumedSecs :=
    fun l' h => if_neg (by simp [ExtensionLedger.stale, h])
  unfold ExtensionLedger.burnSchedule
  rw [ExtensionLedger.roll_of_current hday]
  dsimp only
  split
  · rename_i hleft
    have hburnt := hextra
      { l with scheduleConsumedSecs := min (addU64 l.scheduleConsumedSecs 1) l.scheduleSecs } hday
    rw [hextra l hday, hburnt]
    dsimp only
    unfold addU64
    omega
  · rename_i hspent
    rw [hextra l hday]
    omega

/-- A child that the Linux enforcer tracks, with its named times.  Its usage is saved, and the pools
of its ledger are machine words. -/
structure SharedChild where
  multi : MultiChildEnforcer
  uid : UInt32
  child : ChildEnforcer
  tracked : multi.children uid = some child
  saves : child.unsavedBudget = none
  words : child.extension.Bounded
  times : Option GrantTimes
  now : Int

namespace SharedChild
variable (cal : Calendar) (w : SharedChild)

/-- What the Android ward reads of it. -/
def wardInputs : WardenTimes.TimesInputs :=
  ⟨w.now, w.child.schedule, w.child.budget, w.times, w.child.usage, w.child.extension,
    w.child.consolidated, w.child.standDown⟩

/-- The Linux layer's state, the inventory of the child's apps known. -/
def linuxState : Option TimesRouting.TimesState :=
  TimesRouting.stateFor cal w.multi w.child.schedule w.child.budget w.times true
    (w.child.standDown.map (·.secsUntilLock)) w.uid w.now

/-- Whether a second of the tick would burn off Free's schedule pool there: outside the windows the
core burns it, whoever carries the device. -/
def burnsFree : Bool :=
  w.child.schedule.any (fun s => (s.evaluate cal.zones w.now).isLocked) &&
    decide (0 < w.child.extension.scheduleExtraSecs cal.zones w.now)

/-- What the Linux daemon decides for a tick. -/
def linux : Option TickDecision :=
  (w.linuxState cal).map fun st =>
    ⟨st.remaining.locked, (TimesRouting.activeTime st.verdict w.times).map (·.id), w.burnsFree cal,
      TimesRouting.burningPool st.verdict⟩

/-- What the Android ward decides for it. -/
def android : TickDecision :=
  let v := w.wardInputs.assess cal
  ⟨v.rem.locked, v.activeTime,
    v.burnSchedulePool && decide (0 < w.child.extension.scheduleExtraSecs cal.zones w.now),
    v.run.pool⟩

variable {cal w}

theorem inputs_eq : w.child.inputs w.now = w.wardInputs.core := by
  have hbudget : w.child.quotaBudget = w.child.budget := by
    unfold ChildEnforcer.quotaBudget
    rw [w.saves]
    cases w.child.budget <;> rfl
  unfold ChildEnforcer.inputs
  rw [hbudget]
  rfl

theorem linuxState_eq : w.linuxState cal = some (TimesRouting.applyStandDown
    (TimesRouting.resolve cal.zones w.child.schedule w.times
      (computeRemaining cal w.wardInputs.core) true (w.wardInputs.linuxInputs cal).pool
      (TimesRouting.budgetPoolProof w.child.budget false) w.now)
    (w.child.standDown.map (·.secsUntilLock)) w.now) := by
  have hunsaved : w.multi.usageUnsaved w.uid = false := by
    unfold MultiChildEnforcer.usageUnsaved
    rw [w.tracked, Option.any_some, w.saves]
    exact Bool.and_false _
  have hpool : TimesRouting.offeredPool cal w.multi w.times w.uid w.now =
      (w.wardInputs.linuxInputs cal).pool := by
    unfold TimesRouting.offeredPool MultiChildEnforcer.mostRecentTimePool
      MultiChildEnforcer.timeExtra
    rw [w.tracked]
    rfl
  unfold linuxState TimesRouting.stateFor MultiChildEnforcer.remaining
  rw [w.tracked, Option.map_some, Option.map_some, inputs_eq, hunsaved, hpool]

theorem activeTime_plain (v : TimesRouting.Verdict) (times : Option GrantTimes) :
    TimesRouting.activeTime v.plain times = TimesRouting.activeTime v times := by
  cases v <;> rfl

theorem burningPool_plain (v : TimesRouting.Verdict) :
    TimesRouting.burningPool v.plain = TimesRouting.burningPool v := by
  cases v <;> rfl

/-- The Linux daemon decides what its layer's carrier does. -/
theorem linux_eq : w.linux cal = some (w.wardInputs.linuxDecides cal) := by
  have hactive := TimesRouting.Inputs.activeTime_decide (i := w.wardInputs.linuxInputs cal) rfl
  unfold linux
  rw [linuxState_eq, Option.map_some, WardenTimes.TimesInputs.linuxDecides,
    WardenTimes.TimesInputs.linuxCarrier, TimesRouting.Verdict.carrier_decides, ← hactive,
    TimesRouting.applyStandDown_locked, ← activeTime_plain, ← burningPool_plain,
    TimesRouting.applyStandDown_plain]
  have hlocked : (TimesRouting.resolve cal.zones w.child.schedule w.times
      (computeRemaining cal w.wardInputs.core) true (w.wardInputs.linuxInputs cal).pool
      (TimesRouting.budgetPoolProof w.child.budget false) w.now).remaining.locked =
        (w.wardInputs.linuxInputs cal).decide.locks (computeRemaining cal w.wardInputs.core) := by
    show (TimesRouting.adjustedRemaining _ (TimesRouting.trimSpan ..) _ _).locked = _
    rw [TimesRouting.adjustedRemaining_locked, TimesRouting.trimSpan_locks]
    rfl
  have hplain : (TimesRouting.resolve cal.zones w.child.schedule w.times
      (computeRemaining cal w.wardInputs.core) true (w.wardInputs.linuxInputs cal).pool
      (TimesRouting.budgetPoolProof w.child.budget false) w.now).verdict.plain =
        (w.wardInputs.linuxInputs cal).decide.plain := TimesRouting.trimSpan_plain ..
  have hburns : w.burnsFree cal = ((w.wardInputs.classic cal).any ScheduleStatus.isLocked &&
      decide (0 < w.wardInputs.extension.scheduleExtraSecs cal.zones w.wardInputs.now)) := by
    unfold burnsFree WardenTimes.TimesInputs.classic
    rw [Option.any_map]
    rfl
  rw [hlocked, hplain, hburns, activeTime_plain, burningPool_plain]
  rfl

theorem android_eq : w.android cal = w.wardInputs.androidDecides cal :=
  (WardenTimes.TimesInputs.assess_decides _).symm

end SharedChild

/-- **The two wardens agree exactly where they are in step.** -/
theorem wardens_agree_iff (cal : Calendar) (w : SharedChild) :
    w.linux cal = some (w.android cal) ↔ w.wardInputs.InStep cal := by
  rw [SharedChild.linux_eq, SharedChild.android_eq, Option.some.injEq]
  exact WardenTimes.TimesInputs.decides_alike_iff_inStep w.words

/-! ## Half an hour of learning over a paused budget -/

/-- The guardian has paused the budget, and given half an hour of learning at noon. -/
def pausedChild : ChildEnforcer :=
  { ChildEnforcer.new UsageLedger.utcCalendar "UTC"
      ⟨none, WardenTimes.TimesInputs.pausedNoon.budget, none, .guardian⟩ 1782734400 with
    extension := WardenTimes.TimesInputs.pausedNoon.extension }

/-- The pools stay machine words over a call. -/
theorem bounded_run {zones : Zones} {l : ExtensionLedger} (c : ExtensionLedger.PoolCall)
    (h : l.Bounded) : (c.run zones l).2.Bounded := by
  have hrolled : (l.roll zones c.now).Bounded := TrackedWard.bounded_roll h
  rw [← ExtensionLedger.PoolCall.run_roll]
  by_cases hmem : c.reqId ∈ (l.roll zones c.now).applied
  · rw [ExtensionLedger.run_of_mem ExtensionLedger.roll_current_day hmem]
    exact hrolled
  · obtain ⟨-, hcredited⟩ := ExtensionLedger.run_of_not_mem ExtensionLedger.roll_current_day hmem
    intro a
    rcases hcredited.pools a with ⟨hpool, -⟩ | hpool
    · rw [hpool]
      exact hrolled a
    · rw [hpool]
      exact ExtensionLedger.settle_le a _

theorem pausedChild_words : pausedChild.extension.Bounded := by
  refine bounded_run ⟨1782734400, "r1", 30, .time "learning"⟩ ?_
  rintro ((_ | _) | id | id | (_ | _)) <;> exact Nat.zero_le _

def pausedShared : SharedChild where
  multi := ⟨fun _ => some pausedChild, false⟩
  uid := 1000
  child := pausedChild
  tracked := rfl
  saves := rfl
  words := pausedChild_words
  times := some TimesRouting.learning
  now := 1782734400

/-- **The two part over the pause**: the Linux daemon holds it, and the Android ward runs learning
time off its pool. -/
theorem wardens_part_paused :
    pausedShared.linux UsageLedger.utcCalendar = some ⟨true, none, false, none⟩ ∧
      pausedShared.android UsageLedger.utcCalendar =
        ⟨false, some "learning", false, some "learning"⟩ ∧
      pausedShared.linux UsageLedger.utcCalendar ≠
        some (pausedShared.android UsageLedger.utcCalendar) := by
  decide +kernel

end Kintrinsic
