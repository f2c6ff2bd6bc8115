import Kintrinsic.ChildTold
import Kintrinsic.TimePools
import Kintrinsic.TimesRouting

/-! # What the times layer lifts

Over every state of the enforcer that a run of the loop reaches, for the clauses and the stand-down
that the loop last told it: what the layer opens, what it locks, and when a lock that stands for a
damaged schedule stays shut. -/
namespace Kintrinsic

open Countdown MachineWord

/-! ## Why the core locks -/

namespace EnforcerInputs
variable {cal : Calendar} {inp : EnforcerInputs}

/-- A stand-down has landed. -/
def landed (inp : EnforcerInputs) : Bool := (inp.standDown.map StandDown.hasLanded).getD false

theorem reason_eq : (computeRemaining cal inp).reason =
    if (computeRemaining cal inp).locked = true then
      some (lockReason (scheduleBase cal.zones inp.nowUnix inp.schedule).malformed inp.landed
        (inp.scheduleSecs cal))
    else none := by
  unfold computeRemaining
  dsimp only
  simp only [decide_eq_true_eq]
  rfl

theorem landed_iff : inp.landed = true ↔ inp.standDownAxis = .some 0 := by
  unfold landed standDownAxis
  cases inp.standDown with
  | none => exact iff_of_false nofun (WithTop.top_ne_coe)
  | some sd =>
    dsimp only [Option.map_some, Option.getD_some]
    rw [StandDown.hasLanded, StandDown.countdown, decide_eq_true_iff]
    constructor
    · intro h
      have hzero : sd.secsUntilLock.toNat = 0 := by omega
      rw [hzero]
    · intro h
      have hzero : sd.secsUntilLock.toNat = 0 := WithTop.coe_injective h
      omega

/-- The core locks on a stand-down that has landed, a spent schedule, or a spent budget. -/
theorem locked_iff_axes : (computeRemaining cal inp).locked = true ↔
    inp.landed = true ∨ inp.scheduleSecs cal = 0 ∨ inp.budgetSecs cal = 0 := by
  have hbot : (.some 0 : WithTop Nat) = ⊥ := rfl
  rw [locked_iff_effective, effective_eq, landed_iff, ← ofSecs_eq_zero, ← ofSecs_eq_zero, hbot,
    min_eq_bot, min_eq_bot, or_assoc, or_comm, or_assoc]
  tauto

/-- What has landed explains the lock, or a malformed clause does. -/
theorem reason_of_landed (h : inp.landed = true) :
    (computeRemaining cal inp).reason = some .malformed ∨
      (computeRemaining cal inp).reason = some .standDown := by
  rw [reason_eq, if_pos (locked_iff_axes.mpr (.inl h)), lockReason, h]
  split
  · exact .inl rfl
  · exact .inr rfl

/-- Otherwise a lock over a clause that is read is of one of the two dimensions. -/
theorem reason_of_locked (hlocked : (computeRemaining cal inp).locked = true)
    (hread : (scheduleBase cal.zones inp.nowUnix inp.schedule).malformed = false)
    (h : inp.landed = false) :
    (computeRemaining cal inp).reason = some .schedule ∨
      (computeRemaining cal inp).reason = some .budget := by
  rw [reason_eq, if_pos hlocked, lockReason, hread, h, if_neg nofun, if_neg nofun]
  split
  · exact .inl rfl
  · exact .inr rfl

end EnforcerInputs

/-! ## What the layer decides -/

namespace TimesRouting
namespace Inputs
variable {i : Inputs}

/-- What entitles each verdict: the core's, a tag that is not defined, a window of a defined time,
and a pool of one. -/
inductive Decided (i : Inputs) : Verdict → Prop
  | stands (spanEnd : Option Int) : Decided i (.core spanEnd)
  | unknown {tag : String} {secs : Option Nat} (htimed : i.timed = .locked (.unknownTime tag) secs) :
    Decided i (.locked (.unknownTime tag))
  | undefined {tag : String} {spanEnd : Int} (htimed : i.timed = .opened (some tag) spanEnd)
    (htime : i.time tag = none) : Decided i (.locked (.unknownTime tag))
  | window {id : String} {t : NamedTime} {spanEnd endsAt : Int}
    (htimed : i.timed = .opened (some id) spanEnd) (htime : i.time id = some t)
    (hover : i.core.locked = true → i.core.reason = some .budget ∧ t.counts = false) :
    Decided i (i.runNamed t false spanEnd endsAt)
  | pool {id : String} {secs : Nat} {t : NamedTime} {endsAt : Int}
    (hpool : i.pool = some (id, secs)) (hsecs : 0 < secs) (htime : i.time id = some t)
    (hproof : i.budgetPoolProof = false) (hlocked : i.core.locked = true)
    (hreason : i.core.reason = some .schedule ∨ i.core.reason = some .budget) :
    Decided i (i.runNamed t true endsAt endsAt)

theorem fallThrough_decided {dims : List LockReason} (hdims : dims ⊆ [.schedule, .budget]) :
    Decided i (i.fallThrough dims) := by
  unfold fallThrough
  cases hproof : i.budgetPoolProof with
  | true => exact .stands none
  | false =>
    rw [if_neg nofun]
    cases hlocks : i.core.locked && i.core.reason.any dims.contains with
    | false => exact .stands none
    | true =>
      rw [Bool.not_true, if_neg nofun]
      rw [Bool.and_eq_true] at hlocks
      obtain ⟨hlocked, hany⟩ := hlocks
      cases hpool : i.pool with
      | none => exact .stands none
      | some offered =>
        obtain ⟨id, secs⟩ := offered
        dsimp only
        by_cases hsecs : 0 < secs
        case neg =>
          rw [if_neg hsecs]
          exact .stands none
        rw [if_pos hsecs]
        cases htime : i.time id with
        | none => exact .stands none
        | some t =>
          refine .pool hpool hsecs htime hproof hlocked ?_
          obtain ⟨r, hreason, hcontains⟩ := (Option.any_eq_true ..).mp hany
          have hmem := hdims (List.contains_iff_mem.mp hcontains)
          rw [List.mem_cons, List.mem_singleton] at hmem
          rcases hmem with rfl | rfl
          · exact .inl hreason
          · exact .inr hreason

theorem decideWindow_decided {id : String} {t : NamedTime} {spanEnd : Int}
    (htimed : i.timed = .opened (some id) spanEnd) (htime : i.time id = some t) :
    Decided i (i.decideWindow t spanEnd) := by
  unfold decideWindow
  cases hlocked : i.core.locked with
  | false =>
    have hover : i.core.locked = true → i.core.reason = some .budget ∧ t.counts = false :=
      fun h => absurd (hlocked.symm.trans h) nofun
    rw [Bool.not_false, if_pos rfl]
    split
    · exact .window htimed htime hover
    · exact .window htimed htime hover
  | true =>
    rw [Bool.not_true, if_neg nofun]
    by_cases hreason : i.core.reason = some .budget
    · rw [if_pos hreason]
      by_cases hcounts : t.counts = false
      · rw [if_pos hcounts]
        exact .window htimed htime fun _ => ⟨hreason, hcounts⟩
      · rw [if_neg hcounts]
        exact fallThrough_decided (by simp)
    · rw [if_neg hreason]
      exact .stands none

/-- **What a verdict rests on.** -/
theorem decide_decided (i : Inputs) : Decided i i.decide := by
  unfold Inputs.decide
  cases htimed : i.timed with
  | unbounded =>
    dsimp only
    split
    · exact fallThrough_decided (by simp)
    · exact .stands none
  | opened time spanEnd =>
    cases time with
    | none =>
      dsimp only
      split
      · exact fallThrough_decided (by simp)
      · exact .stands _
    | some id =>
      dsimp only
      cases htime : i.time id with
      | none => exact .undefined htimed htime
      | some t => exact decideWindow_decided htimed htime
  | locked cause secs =>
    cases cause with
    | unknownTime tag => exact .unknown htimed
    | paused | outsideWindows =>
      dsimp only
      split
      · exact fallThrough_decided (by simp)
      · exact .stands none
  | unparseable => exact .stands none

end Inputs

/-! ## What the layer reports -/

/-- Whether a verdict locks, over the core's own answer. -/
def Verdict.locks (core : Remaining) : Verdict → Bool
  | .core _ => core.locked
  | .named _ => false
  | .locked _ => true

@[simp] theorem adjustedRemaining_locked (core : Remaining) (v : Verdict) (timed : TimedStatus)
    (now : Int) : (adjustedRemaining core v timed now).locked = v.locks core := by
  cases v with
  | named run => rfl
  | locked lock => rfl
  | core spanEnd =>
    unfold adjustedRemaining
    dsimp only
    split
    · cases spanEnd <;> rfl
    · split <;> rfl

@[simp] theorem trimSpan_locks (zones : Zones) (schedule : Option GrantSchedule)
    (times : Option GrantTimes) (core : Remaining) (v : Verdict) :
    (trimSpan zones schedule times v).locks core = v.locks core := by
  unfold trimSpan
  split
  · split <;> rfl
  · rfl

@[simp] theorem applyStandDown_locked (st : TimesState) (sd : Option Int) (now : Int) :
    (applyStandDown st sd now).remaining.locked = st.remaining.locked := by
  unfold applyStandDown
  split
  · split <;> rfl
  · rfl

/-! ## One look at a child -/

/-- A look of the loop at a tracked child: the enforcer, what the child was told, its named times and
whether the inventory of its apps has answered. -/
structure Look where
  multi : MultiChildEnforcer
  child : ChildEnforcer
  uid : UInt32
  policy : EffectivePolicy
  standDown : Option StandDown
  times : Option GrantTimes
  inventoryKnown : Bool
  now : Int

namespace Look
variable (cal : Calendar) (k : Look)

def core : Remaining := computeRemaining cal (k.child.inputs k.now)

/-- What `decide` reads of it. -/
def inputs : Inputs where
  timed := timedAt cal.zones k.policy.schedule k.times k.now
  core := k.core cal
  times := k.times
  inventoryKnown := k.inventoryKnown
  pool := offeredPool cal k.multi k.times k.uid k.now
  budgetPoolProof := budgetPoolProof k.policy.budget (k.multi.usageUnsaved k.uid)
  now := k.now

def state : TimesState :=
  applyStandDown
    (resolve cal.zones k.policy.schedule k.times (k.core cal) k.inventoryKnown
      (offeredPool cal k.multi k.times k.uid k.now)
      (budgetPoolProof k.policy.budget (k.multi.usageUnsaved k.uid)) k.now)
    (k.standDown.map (·.secsUntilLock)) k.now

/-- The child is tracked, and follows what it was told. -/
structure Valid : Prop where
  tracked : k.multi.children k.uid = some k.child
  follows : k.child.Follows ⟨k.policy, k.standDown⟩

/-- The stand-down's countdown is zero. -/
def Landed : Prop := ∃ sd ∈ k.standDown, sd.secsUntilLock ≤ 0

/-- What Free time's schedule pool has left today. -/
def freePoolLeft : Nat :=
  min (wrapU64 (k.child.extension.scheduleExtraSecs cal.zones k.now) -
    k.child.extension.scheduleDeductedSecs cal.zones k.now) ((k.child.inputs k.now).eod cal)

/-- Nothing is left of the budget. -/
def BudgetUsedUp : Prop := ∃ n ∈ binding ((k.child.inputs k.now).budgetParts cal), n ≤ 0

/-- The budget in force is paused, of a version not implemented here or a substitute, or the usage
ledger cannot be saved. -/
def BudgetShut : Prop := (∃ b ∈ k.policy.budget, b.Spent) ∨ k.multi.usageUnsaved k.uid = true

/-- No named pool that is left would run. -/
def NoPoolRuns : Prop :=
  ∀ id secs t, offeredPool cal k.multi k.times k.uid k.now = some (id, secs) →
    k.times.bind (·.get id) = some t → t.posture = .onlyThese ∧ k.inventoryKnown = false

variable {cal k}

variable (cal) in
theorem stateFor_eq (h : k.Valid) :
    stateFor cal k.multi k.policy.schedule k.policy.budget k.times k.inventoryKnown
      (k.standDown.map (·.secsUntilLock)) k.uid k.now = some (k.state cal) := by
  unfold stateFor MultiChildEnforcer.remaining
  rw [h.tracked]
  rfl

/-- **Whether the layer reports a lock is its verdict's answer.** -/
theorem state_locked : (k.state cal).remaining.locked = (k.inputs cal).decide.locks (k.core cal) := by
  unfold state
  rw [applyStandDown_locked]
  show (adjustedRemaining _ (trimSpan ..) _ _).locked = _
  rw [adjustedRemaining_locked, trimSpan_locks]
  rfl

theorem landed_iff (h : k.Valid) : (k.child.inputs k.now).landed = true ↔ k.Landed := by
  show ((k.child.standDown.map StandDown.hasLanded).getD false) = true ↔ _
  rw [h.follows.standDown]
  unfold Landed
  cases k.standDown with
  | none => simp
  | some sd =>
    simp only [Option.map_some, Option.getD_some, Option.mem_some_iff, exists_eq_left']
    rw [StandDown.hasLanded, decide_eq_true_iff]
    omega

theorem budgetPoolProof_iff {budget : Option GrantBudget} {unsaved : Bool} :
    budgetPoolProof budget unsaved = true ↔ (∃ b ∈ budget, b.Spent) ∨ unsaved = true := by
  unfold budgetPoolProof GrantBudget.Spent
  cases budget with
  | none => simp
  | some b =>
    cases b.isSupportedVersion <;> simp [or_comm]

theorem quotaBudget_spent {c : ChildEnforcer} {t : Told} (h : c.Follows t) {b : GrantBudget}
    (hbudget : c.budget = some b) (hspent : b.Spent ∨ c.unsavedBudget.isSome = true) :
    ∃ q, c.quotaBudget = some q ∧ q.Spent := by
  unfold ChildEnforcer.quotaBudget
  rw [hbudget]
  cases hunsaved : c.unsavedBudget with
  | none =>
    rw [hunsaved] at hspent
    exact ⟨b, rfl, hspent.resolve_right nofun⟩
  | some u => exact ⟨u, rfl, h.standIn u hunsaved⟩

/-- A budget that no pool lifts is spent in the core too. -/
theorem budgetSecs_of_shut (h : k.Valid) (hshut : k.BudgetShut) :
    (k.child.inputs k.now).budgetSecs cal = 0 := by
  have hquota : ∃ b, k.child.quotaBudget = some b ∧ b.Spent := by
    rcases hshut with ⟨b, hb, hspent⟩ | hunsaved
    · obtain ⟨tz, -, hbudget⟩ := h.follows.policy
      have hresolved : ∃ b', k.child.budget = some b' ∧ b'.Spent := by
        rw [hbudget]
        unfold withResolvedTz
        dsimp only
        rw [hb, Option.map_some]
        split
        · exact ⟨_, rfl, hspent⟩
        · exact ⟨_, rfl, hspent⟩
      obtain ⟨b', hb', hspent'⟩ := hresolved
      exact quotaBudget_spent h.follows hb' (.inl hspent')
    · unfold MultiChildEnforcer.usageUnsaved at hunsaved
      rw [h.tracked, Option.any_some, Bool.and_eq_true] at hunsaved
      obtain ⟨b, hb⟩ := Option.isSome_iff_exists.mp hunsaved.1
      exact quotaBudget_spent h.follows hb (.inr hunsaved.2)
  obtain ⟨b, hb, hspent⟩ := hquota
  have hbudget : (k.child.inputs k.now).budget = some b := hb
  rw [EnforcerInputs.budgetSecs, EnforcerInputs.budgetParts, hbudget]
  dsimp only
  rw [b.quotaParts_spent hspent]
  rfl

theorem budgetSecs_eq_zero_iff : (k.child.inputs k.now).budgetSecs cal = 0 ↔ k.BudgetUsedUp cal := by
  unfold EnforcerInputs.budgetSecs BudgetUsedUp EnforcerInputs.clampLeft
  cases binding ((k.child.inputs k.now).budgetParts cal) with
  | none => simp
  | some n =>
    simp only [Option.map_some, Option.getD_some, Option.mem_some_iff, exists_eq_left']
    omega

/-- The pool that is offered is of a defined time, with seconds left. -/
theorem offeredPool_some {id : String} {secs : Nat}
    (h : offeredPool cal k.multi k.times k.uid k.now = some (id, secs)) (hvalid : k.Valid) :
    (k.times.bind (·.get id)).isSome = true ∧ 0 < secs ∧
      k.multi.timeExtra cal k.uid id k.now = some secs := by
  unfold offeredPool MultiChildEnforcer.mostRecentTimePool MultiChildEnforcer.timeExtra at h
  rw [hvalid.tracked] at h
  obtain ⟨id', hid, hpair⟩ := Option.map_eq_some_iff.mp h
  obtain ⟨rfl, rfl⟩ := Prod.mk.inj hpair
  obtain ⟨hknown, hextra⟩ := ExtensionLedger.mostRecentNamedPool_some hid
  refine ⟨?_, hextra, ?_⟩
  · unfold knownIn at hknown
    cases htimes : k.times with
    | none =>
      rw [htimes] at hknown
      cases hknown
    | some g =>
      rw [htimes] at hknown
      exact hknown
  · unfold MultiChildEnforcer.timeExtra
    rw [hvalid.tracked]
    rfl

/-! ## Over a damaged schedule -/

/-- A substitute stays one when its zone is resolved. -/
theorem withResolvedTz_failSafe {p : EffectivePolicy} {tz : String}
    (h : p.schedule = some (failSafeSchedule tz)) (fallback : String) :
    ∃ tz', (withResolvedTz p fallback).schedule = some (failSafeSchedule tz') := by
  unfold withResolvedTz
  dsimp only
  rw [h, Option.map_some]
  split
  · exact ⟨fallback, rfl⟩
  · exact ⟨tz, rfl⟩

theorem timedAt_failSafe {zones : Zones} {tz : String} {times : Option GrantTimes} {now : Int} :
    timedAt zones (some (failSafeSchedule tz)) times now = .locked .paused none := rfl

/-- Over a lock of one of the two dimensions, a named pool runs unless the budget is shut, the
stand-down has landed, or its time is withheld. -/
theorem fallThrough_locks (h : k.Valid) (hlocked : (k.core cal).locked = true)
    (hread : (scheduleBase cal.zones k.now (k.child.inputs k.now).schedule).malformed = false) :
    ((k.inputs cal).fallThrough [.schedule, .budget]).locks (k.core cal) = true ↔
      k.Landed ∨ k.BudgetShut ∨ k.NoPoolRuns cal := by
  unfold Inputs.fallThrough
  by_cases hshut : k.BudgetShut
  · have hproof : (k.inputs cal).budgetPoolProof = true := budgetPoolProof_iff.mpr hshut
    rw [hproof]
    exact iff_of_true hlocked (.inr (.inl hshut))
  have hproof : (k.inputs cal).budgetPoolProof = false :=
    Bool.eq_false_of_not_eq_true fun hproof => hshut (budgetPoolProof_iff.mp hproof)
  rw [hproof, if_neg nofun]
  by_cases hlanded : k.Landed
  · have hdims : (k.inputs cal).core.reason.any [LockReason.schedule, .budget].contains = false := by
      show (k.core cal).reason.any _ = false
      rcases EnforcerInputs.reason_of_landed ((landed_iff h).mpr hlanded) with hreason | hreason
      · rw [core, hreason]
        rfl
      · rw [core, hreason]
        rfl
    rw [hdims, Bool.and_false]
    exact iff_of_true hlocked (.inl hlanded)
  have hlandedFalse : (k.child.inputs k.now).landed = false :=
    Bool.eq_false_of_not_eq_true fun hland => hlanded ((landed_iff h).mp hland)
  have hdims : (k.inputs cal).core.reason.any [LockReason.schedule, .budget].contains = true := by
    show (k.core cal).reason.any _ = true
    rcases EnforcerInputs.reason_of_locked hlocked hread hlandedFalse with hreason | hreason
    · rw [core, hreason]
      rfl
    · rw [core, hreason]
      rfl
  have hcore : (k.inputs cal).core.locked = true := hlocked
  rw [hdims, hcore, Bool.and_true, if_neg nofun]
  cases hpool : (k.inputs cal).pool with
  | none =>
    refine iff_of_true hlocked (.inr (.inr fun id secs t hoffered => ?_))
    exact absurd (hpool.symm.trans hoffered) nofun
  | some offered =>
    obtain ⟨id, secs⟩ := offered
    obtain ⟨hdefined, hsecs, -⟩ := offeredPool_some hpool h
    obtain ⟨t, ht⟩ := Option.isSome_iff_exists.mp hdefined
    have htime : (k.inputs cal).time id = some t := ht
    dsimp only
    rw [if_pos hsecs, htime]
    have hruns : k.NoPoolRuns cal ↔ t.posture = .onlyThese ∧ k.inventoryKnown = false := by
      constructor
      · exact fun hno => hno id secs t hpool ht
      · intro hwithheld id' secs' t' hpool' ht'
        obtain ⟨rfl, -⟩ := Prod.mk.inj (Option.some.inj (hpool.symm.trans hpool'))
        obtain rfl := Option.some.inj (ht.symm.trans ht')
        exact hwithheld
    rw [hruns]
    have hinventory : (k.inputs cal).inventoryKnown = k.inventoryKnown := rfl
    dsimp only
    unfold Inputs.runNamed
    rw [hinventory]
    split
    · rename_i hwithheld
      exact iff_of_true rfl (.inr (.inr hwithheld))
    · rename_i hwithheld
      refine iff_of_false nofun ?_
      rintro (hl | hs | hw)
      · exact hlanded hl
      · exact hshut hs
      · exact hwithheld hw

/-- **Over a substitute for the schedule**, Free time's pool opens the core, and a named pool opens
what the core locks. -/
theorem failSafe_locked_iff (h : k.Valid) {tz : String}
    (hschedule : k.policy.schedule = some (failSafeSchedule tz)) :
    (k.state cal).remaining.locked = true ↔
      k.Landed ∨ k.BudgetShut ∨
        (k.freePoolLeft cal = 0 ∨ k.BudgetUsedUp cal) ∧ k.NoPoolRuns cal := by
  obtain ⟨fallback, hfollows, -⟩ := h.follows.policy
  obtain ⟨tz', hresolved⟩ := withResolvedTz_failSafe hschedule fallback
  have hbase : scheduleBase cal.zones k.now (k.child.inputs k.now).schedule = ⟨0, false, none⟩ := by
    have hinputs : (k.child.inputs k.now).schedule = some (failSafeSchedule tz') :=
      hfollows.trans hresolved
    rw [hinputs, scheduleBase, failSafeSchedule_evaluate]
    rfl
  have hsecs : (k.child.inputs k.now).scheduleSecs cal = (k.freePoolLeft cal : Int) := by
    unfold EnforcerInputs.scheduleSecs freePoolLeft
    have hnow : (k.child.inputs k.now).nowUnix = k.now := rfl
    rw [hnow, hbase, ScheduleBase.withPools, if_neg Bool.false_ne_true, if_neg (by decide),
      Int.toNat_zero, Nat.zero_add]
    rfl
  have hcore : (k.core cal).locked = true ↔
      k.Landed ∨ k.freePoolLeft cal = 0 ∨ k.BudgetUsedUp cal := by
    rw [core, EnforcerInputs.locked_iff_axes, landed_iff h, hsecs, Int.natCast_eq_zero,
      budgetSecs_eq_zero_iff]
  have htimed : (k.inputs cal).timed = .locked .paused none := by
    show timedAt cal.zones k.policy.schedule k.times k.now = _
    rw [hschedule, timedAt_failSafe]
  have hshutLocks : k.BudgetShut → k.BudgetUsedUp cal :=
    fun hshut => budgetSecs_eq_zero_iff.mp (budgetSecs_of_shut h hshut)
  have hdecide : (k.inputs cal).decide =
      if (k.core cal).locked = true then (k.inputs cal).fallThrough [.schedule, .budget]
      else .core none := by
    unfold Inputs.decide
    rw [htimed]
    rfl
  rw [state_locked, hdecide]
  by_cases hlocked : (k.core cal).locked = true
  · rw [if_pos hlocked, fallThrough_locks h hlocked (by rw [hbase])]
    have hcause := hcore.mp hlocked
    constructor
    · rintro (hlanded | hshut | hno)
      · exact .inl hlanded
      · exact .inr (.inl hshut)
      · exact hcause.imp_right fun hspent => .inr ⟨hspent, hno⟩
    · rintro (hlanded | hshut | ⟨-, hno⟩)
      · exact .inl hlanded
      · exact .inr (.inl hshut)
      · exact .inr (.inr hno)
  · rw [if_neg hlocked]
    refine iff_of_false hlocked ?_
    rintro (hlanded | hshut | ⟨hspent, -⟩)
    · exact hlocked (hcore.mpr (.inl hlanded))
    · exact hlocked (hcore.mpr (.inr (.inr (hshutLocks hshut))))
    · exact hlocked (hcore.mpr (.inr hspent))

/-! ## The law of the layer -/

/-- A window of a time that does not count runs over a budget lock. -/
def OpenedByWindow (cal : Calendar) (k : Look) : Prop :=
  ∃ id t spanEnd run, (k.state cal).verdict = .named run ∧ run.fromPool = false ∧
    timedAt cal.zones k.policy.schedule k.times k.now = .opened (some id) spanEnd ∧
    k.times.bind (·.get id) = some t ∧ t.counts = false ∧ (k.core cal).reason = some .budget

/-- A pool of a defined time with seconds left runs over a schedule or a budget lock. -/
def OpenedByPool (cal : Calendar) (k : Look) : Prop :=
  ∃ id t secs run, (k.state cal).verdict = .named run ∧ run.fromPool = true ∧
    k.times.bind (·.get id) = some t ∧ k.multi.timeExtra cal k.uid id k.now = some secs ∧ 0 < secs ∧
    ((k.core cal).reason = some .schedule ∨ (k.core cal).reason = some .budget)

/-- A window's tag is not defined. -/
def LockedByTag (cal : Calendar) (k : Look) : Prop :=
  ∃ tag, (k.state cal).verdict = .locked (.unknownTime tag) ∧ knownIn k.times tag = false

/-- A time of which only some apps run has no inventory to tell them by. -/
def LockedByInventory (cal : Calendar) (k : Look) : Prop :=
  ∃ id t, (k.state cal).verdict = .locked (.inventoryUnknown t.id) ∧
    k.times.bind (·.get id) = some t ∧ t.posture = .onlyThese ∧ k.inventoryKnown = false

/-- What the layer may do to the core's verdict. -/
structure Law (cal : Calendar) (codec : ClauseCodec) (clauses : ChildClauses) (k : Look) : Prop where
  standDown : k.Landed → (k.state cal).remaining.locked = true
  schedule : (clauses.scheduleSlot codec).Damaged GrantSchedule.isSupportedVersion →
    (k.state cal).remaining.locked = true
  budget : k.BudgetShut → burningPool (k.state cal).verdict = none ∧
    ((k.state cal).remaining.locked = true ∨ k.OpenedByWindow cal)
  opens : (k.core cal).locked = true → (k.state cal).remaining.locked = false →
    k.OpenedByWindow cal ∨ k.OpenedByPool cal
  locks : (k.core cal).locked = false → (k.state cal).remaining.locked = true →
    k.LockedByTag cal ∨ k.LockedByInventory cal

/-- A damaged schedule stays shut: its body was read and is of a version not implemented here; or the
stand-down has landed; or the budget is shut; or Free time's pool or the budget is used up, and no
named pool runs. -/
def StaysShut (cal : Calendar) (codec : ClauseCodec) (clauses : ChildClauses) (k : Look) : Prop :=
  clauses.scheduleSlot codec ≠ .illegible ∨ k.Landed ∨ k.BudgetShut ∨
    (k.freePoolLeft cal = 0 ∨ k.BudgetUsedUp cal) ∧ k.NoPoolRuns cal

end Look

/-- A verdict without its ends. -/
def Verdict.plain : Verdict → Verdict
  | .core _ => .core none
  | .named run => .named { run with spanEnd := 0, endsAt := 0, spanLimited := false }
  | .locked lock => .locked lock

theorem Verdict.plain_eq_named {v : Verdict} {run : NamedRun} (h : v.plain = (named run).plain) :
    ∃ run', v = .named run' ∧ run'.id = run.id ∧ run'.fromPool = run.fromPool ∧
      run'.counts = run.counts := by
  cases v with
  | core spanEnd => cases h
  | locked lock => cases h
  | named run' =>
    obtain ⟨hid, hpool, hcounts, -⟩ := NamedRun.mk.inj (named.inj h)
    exact ⟨run', rfl, hid, hpool, hcounts⟩

theorem Verdict.plain_eq_locked {v : Verdict} {lock : TimesLock}
    (h : v.plain = (locked lock).plain) : v = .locked lock := by
  cases v with
  | core spanEnd => cases h
  | named run => cases h
  | locked lock' => exact h

theorem trimSpan_plain (zones : Zones) (schedule : Option GrantSchedule)
    (times : Option GrantTimes) (v : Verdict) : (trimSpan zones schedule times v).plain = v.plain := by
  unfold trimSpan
  split
  · split <;> rfl
  · rfl

theorem applyStandDown_plain (st : TimesState) (sd : Option Int) (now : Int) :
    (applyStandDown st sd now).verdict.plain = st.verdict.plain := by
  unfold applyStandDown
  split
  · rename_i hverdict
    split
    · rw [hverdict]
      rfl
    · rfl
  · rfl

/-- A tag that locks is not defined. -/
theorem knownIn_of_unknownTime {zones : Zones} {sched : GrantSchedule} {known : String → Bool}
    {now : Int} {tag : String} {secs : Option Nat}
    (h : Times.evaluateTimes zones sched known now = .locked (.unknownTime tag) secs) :
    known tag = false := by
  unfold Times.evaluateTimes at h
  split at h
  · cases h
  split at h
  · cases h
  split at h
  · cases h
  split at h
  · cases h
  dsimp only at h
  split at h
  · cases h
  · cases h
  · rename_i id hlabel
    cases h
    unfold Times.labelAt at hlabel
    split at hlabel
    · dsimp only at hlabel
      split at hlabel
      · cases hlabel
      · rename_i hunknown
        cases hlabel
        exact Bool.eq_false_of_not_eq_true hunknown
    · split at hlabel <;> cases hlabel
  · cases h

namespace Look
variable {cal : Calendar} {k : Look}

theorem state_plain : (k.state cal).verdict.plain = (k.inputs cal).decide.plain := by
  unfold state
  rw [applyStandDown_plain]
  exact trimSpan_plain _ _ _ _

theorem knownIn_false {tag : String} :
    knownIn k.times tag = false ↔ k.times.bind (·.get tag) = none := by
  unfold knownIn
  cases k.times with
  | none => simp
  | some g => simp

/-- A verdict that runs a named time, or withholds it. -/
theorem runNamed_cases (t : NamedTime) (fromPool : Bool) (spanEnd endsAt : Int) :
    (∃ run, (k.inputs cal).runNamed t fromPool spanEnd endsAt = .named run ∧
      run.fromPool = fromPool) ∨
    (t.posture = .onlyThese ∧ k.inventoryKnown = false) ∧
      (k.inputs cal).runNamed t fromPool spanEnd endsAt = .locked (.inventoryUnknown t.id) := by
  unfold Inputs.runNamed
  split
  · rename_i hwithheld
    exact .inr ⟨hwithheld, rfl⟩
  · exact .inl ⟨_, rfl, rfl⟩

/-- The reported state, and what its verdict rests on. -/
theorem state_decided (cal : Calendar) (k : Look) : ∃ v, Inputs.Decided (k.inputs cal) v ∧
    (k.state cal).verdict.plain = v.plain ∧
      (k.state cal).remaining.locked = v.locks (k.core cal) :=
  ⟨_, Inputs.decide_decided _, state_plain, state_locked⟩

/-- **A stand-down that has landed locks.** -/
theorem locked_of_landed (h : k.Valid) (hlanded : k.Landed) :
    (k.state cal).remaining.locked = true := by
  have hland := (landed_iff h).mpr hlanded
  have hlocked : (k.inputs cal).core.locked = true := EnforcerInputs.locked_iff_axes.mpr (.inl hland)
  have hreason : (k.inputs cal).core.reason = some .malformed ∨
      (k.inputs cal).core.reason = some .standDown := EnforcerInputs.reason_of_landed hland
  obtain ⟨v, hdecided, -, hstate⟩ := state_decided cal k
  rw [hstate]
  cases hdecided with
  | stands => exact hlocked
  | unknown => rfl
  | undefined => rfl
  | window htimed htime hover =>
    rw [(hover hlocked).1] at hreason
    rcases hreason with hreason | hreason <;> cases hreason
  | pool hpool hsecs htime hproof hlocked' hdim =>
    rcases hdim with hdim | hdim
    · rw [hdim] at hreason
      rcases hreason with hreason | hreason <;> cases hreason
    · rw [hdim] at hreason
      rcases hreason with hreason | hreason <;> cases hreason

/-- **What a core lock is opened by.** -/
theorem opens_by (h : k.Valid) (hlocked : (k.core cal).locked = true)
    (hopen : (k.state cal).remaining.locked = false) :
    k.OpenedByWindow cal ∨ k.OpenedByPool cal ∧ ¬k.BudgetShut := by
  obtain ⟨v, hdecided, hplain, hstate⟩ := state_decided cal k
  rw [hstate] at hopen
  cases hdecided with
  | stands => exact absurd (hlocked.symm.trans hopen) nofun
  | unknown => cases hopen
  | undefined => cases hopen
  | @window id t spanEnd endsAt htimed htime hover =>
    obtain ⟨hreason, hcounts⟩ := hover hlocked
    rcases runNamed_cases t false spanEnd endsAt with ⟨run, hrun, hfrom⟩ | ⟨-, hrun⟩
    · rw [hrun] at hplain
      obtain ⟨run', hverdict, -, hpool, -⟩ := Verdict.plain_eq_named hplain
      exact .inl ⟨id, t, spanEnd, run', hverdict, hpool.trans hfrom, htimed, htime, hcounts, hreason⟩
    · rw [hrun] at hopen
      cases hopen
  | @pool id secs t endsAt hpool hsecs htime hproof hlocked' hreason =>
    rcases runNamed_cases t true endsAt endsAt with ⟨run, hrun, hfrom⟩ | ⟨-, hrun⟩
    · rw [hrun] at hplain
      obtain ⟨run', hverdict, -, hfromPool, -⟩ := Verdict.plain_eq_named hplain
      obtain ⟨-, -, hextra⟩ := offeredPool_some hpool h
      refine .inr ⟨⟨id, t, secs, run', hverdict, hfromPool.trans hfrom, htime, hextra, hsecs,
        hreason⟩, fun hshut => ?_⟩
      have htrue : (k.inputs cal).budgetPoolProof = true := budgetPoolProof_iff.mpr hshut
      exact absurd (hproof.symm.trans htrue) nofun
    · rw [hrun] at hopen
      cases hopen

/-- **What an open core is locked by.** -/
theorem locks_by (hopen : (k.core cal).locked = false)
    (hlocked : (k.state cal).remaining.locked = true) :
    k.LockedByTag cal ∨ k.LockedByInventory cal := by
  obtain ⟨v, hdecided, hplain, hstate⟩ := state_decided cal k
  rw [hstate] at hlocked
  cases hdecided with
  | stands => exact absurd (hopen.symm.trans hlocked) nofun
  | @unknown tag secs htimed =>
    refine .inl ⟨tag, Verdict.plain_eq_locked hplain, ?_⟩
    have hat : timedAt cal.zones k.policy.schedule k.times k.now = .locked (.unknownTime tag) secs :=
      htimed
    unfold timedAt at hat
    split at hat
    · exact knownIn_of_unknownTime hat
    · cases hat
  | undefined htimed htime =>
    exact .inl ⟨_, Verdict.plain_eq_locked hplain, knownIn_false.mpr htime⟩
  | @window id t spanEnd endsAt htimed htime hover =>
    rcases runNamed_cases t false spanEnd endsAt with ⟨run, hrun, -⟩ | ⟨hwithheld, hrun⟩
    · rw [hrun] at hlocked
      cases hlocked
    · rw [hrun] at hplain
      exact .inr ⟨id, t, Verdict.plain_eq_locked hplain, htime, hwithheld⟩
  | pool hpool hsecs htime hproof hlocked' hreason =>
    exact absurd (hopen.symm.trans hlocked') nofun

/-- Nothing burns while the layer reports a lock. -/
theorem burningPool_of_locked (hlocked : (k.state cal).remaining.locked = true) :
    burningPool (k.state cal).verdict = none := by
  cases hverdict : (k.state cal).verdict with
  | core spanEnd => rfl
  | locked lock => rfl
  | named run =>
    have hplain : (k.state cal).verdict.plain = (k.inputs cal).decide.plain := state_plain
    rw [hverdict] at hplain
    obtain ⟨run', hdecide, -⟩ := Verdict.plain_eq_named hplain.symm
    rw [state_locked, hdecide] at hlocked
    cases hlocked

/-- Over a shut budget no pool runs, and only a window of a time that does not count opens. -/
theorem shut_budget (h : k.Valid) (hshut : k.BudgetShut) :
    burningPool (k.state cal).verdict = none ∧
      ((k.state cal).remaining.locked = true ∨ k.OpenedByWindow cal) := by
  have hlocked : (k.core cal).locked = true :=
    EnforcerInputs.locked_iff_axes.mpr (.inr (.inr (budgetSecs_of_shut h hshut)))
  cases hstate : (k.state cal).remaining.locked with
  | true => exact ⟨burningPool_of_locked hstate, .inl rfl⟩
  | false =>
    have hwindow : k.OpenedByWindow cal :=
      (opens_by h hlocked hstate).resolve_right fun hpool => hpool.2 hshut
    refine ⟨?_, .inr hwindow⟩
    obtain ⟨id, t, spanEnd, run, hverdict, hfrom, -⟩ := hwindow
    rw [hverdict, burningPool, hfrom]
    rfl

/-- **Over a damaged schedule the layer locks exactly when it stays shut.** -/
theorem damaged_schedule_iff {codec : ClauseCodec} {clauses : ChildClauses} (h : k.Valid)
    {deviceOnly : Option DeviceLimits} {deviceLearning : Option GrantLearning}
    (hpolicy : k.policy = resolveEffective codec clauses deviceOnly deviceLearning)
    (hdamaged : (clauses.scheduleSlot codec).Damaged GrantSchedule.isSupportedVersion) :
    (k.state cal).remaining.locked = true ↔ k.StaysShut cal codec clauses := by
  have hschedule := (resolveEffective_damaged (.inl hdamaged) deviceOnly deviceLearning).1
  rw [← hpolicy] at hschedule
  unfold StaysShut
  cases hslot : clauses.scheduleSlot codec with
  | absent => exact absurd hslot hdamaged.ne_absent
  | illegible =>
    rw [hslot] at hschedule
    rw [failSafe_locked_iff h hschedule]
    constructor
    · exact .inr
    · exact fun hshut => hshut.resolve_left fun hne => hne rfl
  | held s =>
    rw [hslot] at hschedule hdamaged
    refine iff_of_true ?_ (.inl nofun)
    obtain ⟨tz, hfollows, -⟩ := h.follows.policy
    have hresolved : ∃ s', k.child.schedule = some s' ∧ s'.isSupportedVersion = false := by
      rw [hfollows]
      unfold withResolvedTz
      dsimp only
      rw [hschedule]
      dsimp only [Slot.inForce, Option.map_some]
      split
      · exact ⟨_, rfl, hdamaged⟩
      · exact ⟨_, rfl, hdamaged⟩
    obtain ⟨s', hs', hversion⟩ := hresolved
    have hinputs : (k.child.inputs k.now).schedule = some s' := hs'
    have hcore : (k.core cal).locked = true :=
      EnforcerInputs.locked_of_unparseable hinputs (evaluate_unsupported hversion _ _)
    have htimed : (k.inputs cal).timed = .unparseable := by
      show timedAt cal.zones k.policy.schedule k.times k.now = _
      rw [hschedule]
      show Times.evaluateTimes cal.zones s (knownIn k.times) k.now = _
      have hunsupported : s.isSupportedVersion = false := hdamaged
      rw [Times.evaluateTimes, hunsupported]
      rfl
    rw [state_locked]
    unfold Inputs.decide
    rw [htimed]
    exact hcore

variable (cal) in
/-- **The law holds exactly when a damaged schedule stays shut.** -/
theorem law_iff {codec : ClauseCodec} {clauses : ChildClauses} (h : k.Valid)
    {deviceOnly : Option DeviceLimits} {deviceLearning : Option GrantLearning}
    (hpolicy : k.policy = resolveEffective codec clauses deviceOnly deviceLearning) :
    k.Law cal codec clauses ↔
      ((clauses.scheduleSlot codec).Damaged GrantSchedule.isSupportedVersion →
        k.StaysShut cal codec clauses) := by
  constructor
  · intro hlaw hdamaged
    exact (damaged_schedule_iff h hpolicy hdamaged).mp (hlaw.schedule hdamaged)
  · intro hshut
    exact
      { standDown := locked_of_landed h
        schedule := fun hdamaged =>
          (damaged_schedule_iff h hpolicy hdamaged).mpr (hshut hdamaged)
        budget := shut_budget h
        opens := fun hlocked hopen => (opens_by h hlocked hopen).imp_right And.left
        locks := locks_by }

end Look

/-- The law of a look at a child that follows what it was told. -/
theorem law_of_follows (cal : Calendar) (codec : ClauseCodec) {multi : MultiChildEnforcer}
    {uid : UInt32} {t : Told} (times : Option GrantTimes) (inventoryKnown : Bool) (now : Int)
    {clauses : ChildClauses} {deviceOnly : Option DeviceLimits}
    {deviceLearning : Option GrantLearning} (h : FollowsAt (some t) (multi.children uid))
    (hpolicy : t.policy = resolveEffective codec clauses deviceOnly deviceLearning) :
    ∃ child, multi.children uid = some child ∧
      let k : Look := ⟨multi, child, uid, t.policy, t.standDown, times, inventoryKnown, now⟩
      stateFor cal multi t.policy.schedule t.policy.budget times inventoryKnown
          (t.standDown.map (·.secsUntilLock)) uid now = some (k.state cal) ∧
        (k.Law cal codec clauses ↔
          ((clauses.scheduleSlot codec).Damaged GrantSchedule.isSupportedVersion →
            k.StaysShut cal codec clauses)) := by
  cases hchild : multi.children uid with
  | none =>
    rw [hchild] at h
    cases h
  | some child =>
    rw [hchild] at h
    cases h with
    | some hfollows =>
      refine ⟨child, rfl, ?_⟩
      intro k
      have hvalid : k.Valid := ⟨hchild, hfollows⟩
      have hstate := Look.stateFor_eq cal hvalid
      have hlaw := Look.law_iff cal hvalid hpolicy
      exact ⟨hstate, hlaw⟩

/-- **The law of the times layer.**  For every run of the loop, and the policy and the stand-down
that a child was told last: the law holds of a look at the child exactly when a schedule that is
damaged stays shut. -/
theorem times_layer_law (cal : Calendar) (deviceTz : String) (codec : ClauseCodec)
    (clauses : ChildClauses) (deviceOnly : Option DeviceLimits)
    (deviceLearning : Option GrantLearning) (ops : List ChildOp) (uid : UInt32)
    (standDown : Option StandDown) (times : Option GrantTimes) (inventoryKnown : Bool) (now : Int)
    (htold : told uid ops =
      some ⟨resolveEffective codec clauses deviceOnly deviceLearning, standDown⟩) :
    let multi := Lockstep.final (MultiChildEnforcer.step cal deviceTz) .new ops
    let policy := resolveEffective codec clauses deviceOnly deviceLearning
    ∃ child, multi.children uid = some child ∧
      let k : Look := ⟨multi, child, uid, policy, standDown, times, inventoryKnown, now⟩
      stateFor cal multi policy.schedule policy.budget times inventoryKnown
          (standDown.map (·.secsUntilLock)) uid now = some (k.state cal) ∧
        (k.Law cal codec clauses ↔
          ((clauses.scheduleSlot codec).Damaged GrantSchedule.isSupportedVersion →
            k.StaysShut cal codec clauses)) := by
  have hfollows := followsAt_run cal deviceTz uid ops
  rw [htold] at hfollows
  exact law_of_follows cal codec times inventoryKnown now hfollows rfl

/-! ## A schedule that cannot be read, and half an hour given -/

/-- Time to learn, in which everything runs. -/
def learning : GrantTimes :=
  ⟨1, [⟨"learning", "Learning time", .everythingExcept, [], [], [], [], [], [], none⟩], 0⟩

/-- The child's schedule cannot be read, and nothing else is set. -/
def unreadableSchedule : ChildClauses := ⟨[], [1]⟩

def garbledPolicy : EffectivePolicy := resolveEffective garbled unreadableSchedule none none

/-- The loop syncs at noon, and a guardian gives time. -/
def afterGift (gift : ChildOp) : MultiChildEnforcer :=
  Lockstep.final (MultiChildEnforcer.step UsageLedger.utcCalendar "UTC") .new
    [.sync [(1000, garbledPolicy)] 1782820800 fun _ => (none, none), gift]

def lookedAt (multi : MultiChildEnforcer) : Option TimesState :=
  stateFor UsageLedger.utcCalendar multi garbledPolicy.schedule garbledPolicy.budget (some learning)
    true none 1000 1782820800

/-- A stand-down that has landed holds over the same schedule. -/
theorem times_layer_law_landed :
    ∃ child, (afterGift (.setStandDown 1000 (some ⟨0⟩))).children 1000 = some child ∧
      Look.Law UsageLedger.utcCalendar garbled unreadableSchedule
        ⟨afterGift (.setStandDown 1000 (some ⟨0⟩)), child, 1000, garbledPolicy, some ⟨0⟩,
          some learning, true, 1782820800⟩ := by
  obtain ⟨child, hchild, -, hlaw⟩ := times_layer_law UsageLedger.utcCalendar "UTC" garbled
    unreadableSchedule none none
    [.sync [(1000, garbledPolicy)] 1782820800 fun _ => (none, none),
      .setStandDown 1000 (some ⟨0⟩)] 1000 (some ⟨0⟩) (some learning) true 1782820800 rfl
  exact ⟨child, hchild, hlaw.mpr fun _ => .inr (.inl ⟨⟨0⟩, rfl, le_rfl⟩)⟩

/-- **The layer lifts the substitute for a schedule**: over a schedule that cannot be read, half an
hour of a named time runs off its pool, and half an hour of Free time opens the core. -/
theorem times_layer_lifts :
    (unreadableSchedule.scheduleSlot garbled).Damaged GrantSchedule.isSupportedVersion ∧
    (lookedAt (afterGift (.applyTimeExtension 1000 1782820800 "r1" 30 "learning"))).map
      (fun st => (st.remaining.locked, burningPool st.verdict)) = some (false, some "learning") ∧
    (lookedAt (afterGift (.applyExtension 1000 1782820800 "r1" 30 .schedule))).map
      (fun st => (st.remaining.locked, st.verdict)) = some (false, .core none) :=
  ⟨trivial, by decide +kernel, by decide +kernel⟩

end TimesRouting

end Kintrinsic
