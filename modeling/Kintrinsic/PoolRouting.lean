import Kintrinsic.GiftRuns
import Kintrinsic.GuardianTimes
import Kintrinsic.TimeExtend
import Kintrinsic.WardenTimes

/-! # Where minutes land

A grant or a gift is minutes for a pool.  Both wardens take it off the same inbox and the same
clause, and each decides the pool on its own: the Linux one by the core's lock reason, the Android
one by the times evaluator, and Free time's own id is known to one of them only. -/
namespace Kintrinsic

open ExtensionLedger MachineWord

/-! ## What has to land -/

/-- An extension that was enacted: its minutes are in bounds, and a bucket's names the bucket. -/
structure EnactedExtension where
  reqId : String
  at_ : Int
  params : TimeExtendGrantParams
  valid : params.validate = .ok ()
  nonzero : params.minutesGranted ≠ 0
  routable : params.limitHit = .bucket → params.bucketId.isSome = true

/-- What the enactor leaves in the inbox. -/
def pendingOf (reqId : String) (at_ : Int) (p : TimeExtendGrantParams) : PendingExtension :=
  let base : PendingExtension := ⟨reqId, p.minutesGranted, none, none, none, at_⟩
  match p.limitHit, p.time with
  | .bucket, _ => { base with bucketId := p.bucketId }
  | .schedule, none => { base with dim := some .schedule }
  | .budget, none => { base with dim := some .budget }
  | _, some timeId => { base with timeId := some timeId }

def EnactedExtension.pending (x : EnactedExtension) : PendingExtension :=
  pendingOf x.reqId x.at_ x.params

theorem route_pushes (zones : Zones) (e : TimeExtendEnactor) (ctx : EnactContext) (now : Int)
    (reqId : String) {p : TimeExtendGrantParams} :
    (p.limitHit = .bucket ∧ p.bucketId = none ∧
        ∃ err, (e.route zones ctx now reqId p).1 = .error err) ∨
      (p.limitHit = .bucket → p.bucketId.isSome = true) ∧
        (e.route zones ctx now reqId p).2.inbox = e.inbox.map (· ++ [pendingOf reqId now p]) := by
  obtain ⟨minutes, limitHit, bucketId, time⟩ := p
  cases limitHit with
  | bucket =>
    cases bucketId with
    | none => exact .inl ⟨rfl, rfl, _, rfl⟩
    | some bucketId => exact .inr ⟨fun _ => rfl, rfl⟩
  | schedule =>
    cases time with
    | none => exact .inr ⟨nofun, rfl⟩
    | some timeId => exact .inr ⟨nofun, rfl⟩
  | budget =>
    cases time with
    | none => exact .inr ⟨nofun, rfl⟩
    | some timeId => exact .inr ⟨nofun, rfl⟩

/-- **What is enacted is in the inbox**, and nothing else is. -/
theorem enact_pushes {zones : Zones} {e : TimeExtendEnactor} {grant : VerifiedGrant}
    {ctx : EnactContext} {detail : String} {e' : TimeExtendEnactor}
    (h : e.enact zones grant ctx = (.ok detail, e')) :
    e' = e ∨ ∃ x : EnactedExtension, e'.inbox = e.inbox.map (· ++ [x.pending]) := by
  unfold TimeExtendEnactor.enact at h
  split at h
  case h_2 => cases h
  rename_i p _
  split at h
  · cases h
  rename_i hvalid
  split at h
  · cases h
    exact .inl rfl
  rename_i hnonzero
  split at h
  · cases h
  · cases h
  rename_i now eod _ _
  split at h
  · cases h
  rcases route_pushes zones e ctx now grant.reqId.toHex (p := p) with
    ⟨-, -, err, herr⟩ | ⟨hroute, hpush⟩
  · rw [h] at herr
    cases herr
  · rw [h] at hpush
    exact .inr ⟨⟨_, now, p, hvalid, hnonzero, hroute⟩, hpush⟩

/-! ## The Linux drain -/

/-- `pending_route`. -/
def pendingRoute (p : PendingExtension) : Option PoolAddress :=
  match p.bucketId, p.timeId, p.dim with
  | some bucketId, _, _ => some (.bucket bucketId)
  | none, some timeId, _ => some (.time timeId)
  | none, none, some dim => some (.give dim)
  | none, none, none => none

namespace MultiChildEnforcer
variable (cal : Calendar) (m : MultiChildEnforcer) (uid : UInt32)

/-- A call of the enforcer for one child. -/
def land (call : PoolCall) : MultiChildEnforcer :=
  match call.address with
  | .give dim => (m.applyExtension cal uid call.now call.reqId call.minutes dim).2
  | .bucket id => (m.applyBucketExtension cal uid call.now call.reqId call.minutes id).2
  | .time id => (m.applyTimeExtension cal uid call.now call.reqId call.minutes id).2
  | .take dim => (m.deductExtension cal uid call.now call.reqId call.minutes dim).2

/-- The drain of one pending extension. -/
def drainOne (p : PendingExtension) : MultiChildEnforcer :=
  match pendingRoute p with
  | some address => m.land cal uid ⟨p.at_, p.reqId, p.minutes, address⟩
  | none => m

/-- A gift that stands in the child's clause; `buckets` are the ids of the buckets clause. -/
def landGift (now : Int) (body : GiftBody) (buckets : Option (List String)) : MultiChildEnforcer :=
  match body.minutesNow (asU64 now) with
  | none => m
  | some minutes =>
    let lockReason := (m.remaining cal uid now).bind (·.reason)
    m.land cal uid ⟨now, giftReqId body.id, minutes, giftRoute body lockReason buckets⟩

end MultiChildEnforcer

/-! ## The Android drain -/

namespace Warden

/-- The whole-device pool that can open the device. -/
def wholeDevice (scheduleClosed : Bool) : Dimension := if scheduleClosed then .schedule else .budget

variable (zones : Zones) (l : ExtensionLedger)

/-- `land_typed`: the ledger, and the minutes to announce. -/
def landTyped (now : Int) (reqId : String) (minutes : Nat) (time : String) (known : String → Bool)
    (scheduleClosed : Bool) : ExtensionLedger × Nat :=
  if time = freeTimeId then
    let r := l.apply zones now reqId minutes (wholeDevice scheduleClosed)
    (r.2, if r.1 then minutes else 0)
  else
    let r := l.applyTime zones now reqId minutes time
    (r.2, if r.1 && known time then minutes else 0)

/-- One entry of the inbox. -/
def drainOne (known : String → Bool) (scheduleClosed : Bool) (p : PendingExtension) :
    ExtensionLedger × Nat :=
  match p.bucketId, p.dim, p.timeId with
  | some bucketId, _, _ =>
    let r := l.applyBucket zones p.at_ p.reqId p.minutes bucketId
    (r.2, if r.1 then p.minutes else 0)
  | none, some dim, _ =>
    let r := l.apply zones p.at_ p.reqId p.minutes dim
    (r.2, if r.1 then p.minutes else 0)
  | none, none, some timeId =>
    landTyped zones l p.at_ p.reqId p.minutes timeId known scheduleClosed
  | none, none, none => (l, 0)

/-- The bucket a gift names, if the clause has it. -/
def liveBucket (body : GiftBody) (buckets : Option (List String)) : Option String :=
  body.groupId.filter fun groupId => buckets.any (groupId ∈ ·)

/-- A tick's gift. -/
def landGift (known : String → Bool) (scheduleClosed : Bool) (now : Int) (body : GiftBody)
    (buckets : Option (List String)) : ExtensionLedger × Nat :=
  match body.minutesNow (asU64 now) with
  | none => (l, 0)
  | some minutes =>
    match liveBucket body buckets, body.time with
    | some bucketId, _ =>
      let r := l.applyBucket zones now (giftReqId body.id) minutes bucketId
      (r.2, if r.1 then minutes else 0)
    | none, some time =>
      landTyped zones l now (giftReqId body.id) minutes time known scheduleClosed
    | none, none =>
      let r := l.apply zones now (giftReqId body.id) minutes (wholeDevice scheduleClosed)
      (r.2, if r.1 then minutes else 0)

end Warden

/-! ## One delivery, both ways -/

/-- What a delivery is for: a bucket, a named time, one of the two limits, or the device as a
whole. -/
inductive Aim
  | bucket (id : String)
  | time (id : String)
  | limit (dim : Dimension)
  | device
deriving DecidableEq

namespace Aim

/-- The pool on Linux, by the core's lock reason. -/
def linux (lockReason : Option LockReason) : Aim → PoolAddress
  | bucket id => .bucket id
  | time id => .time id
  | limit dim => .give dim
  | device => .give (if lockReason = some .schedule then .schedule else .budget)

/-- The pool on Android, by whether the schedule is closed. -/
def android (scheduleClosed : Bool) : Aim → PoolAddress
  | bucket id => .bucket id
  | time id => if id = freeTimeId then .give (Warden.wholeDevice scheduleClosed) else .time id
  | limit dim => .give dim
  | device => .give (Warden.wholeDevice scheduleClosed)

/-- **The two wardens' pools differ** for Free time's own id, and where only one of them takes the
schedule for what holds the child. -/
theorem linux_eq_android_iff {aim : Aim} {lockReason : Option LockReason} {scheduleClosed : Bool} :
    aim.linux lockReason = aim.android scheduleClosed ↔ aim ≠ .time freeTimeId ∧
      (aim = .device → (scheduleClosed = true ↔ lockReason = some .schedule)) := by
  cases aim with
  | bucket id => simp [linux, android]
  | time id =>
    by_cases hid : id = freeTimeId
    · simp [linux, android, hid]
    · simp [linux, android, hid]
  | limit dim => simp [linux, android]
  | device =>
    by_cases hreason : lockReason = some .schedule <;> cases scheduleClosed <;>
      simp [linux, android, Warden.wholeDevice, hreason]

/-- Where they differ one of the two is a whole-device pool. -/
theorem android_give_of_ne {aim : Aim} {lockReason : Option LockReason} {scheduleClosed : Bool}
    (h : aim.linux lockReason ≠ aim.android scheduleClosed) :
    ∃ dim, aim.android scheduleClosed = .give dim := by
  cases aim with
  | bucket id => exact absurd rfl h
  | time id =>
    by_cases hid : id = freeTimeId
    · exact ⟨_, if_pos hid⟩
    · exact absurd (if_neg hid).symm h
  | limit dim => exact ⟨dim, rfl⟩
  | device => exact ⟨_, rfl⟩

end Aim

/-- A typed landing is one call. -/
theorem Warden.landTyped_run (zones : Zones) (l : ExtensionLedger) (now : Int) (reqId : String)
    (minutes : Nat) (timeId : String) (known : String → Bool) (scheduleClosed : Bool) :
    (Warden.landTyped zones l now reqId minutes timeId known scheduleClosed).1 =
      (PoolCall.run zones l ⟨now, reqId, minutes, (Aim.time timeId).android scheduleClosed⟩).2 := by
  unfold Warden.landTyped
  by_cases hid : timeId = freeTimeId
  · have haim : (Aim.time timeId).android scheduleClosed =
        .give (Warden.wholeDevice scheduleClosed) := if_pos hid
    rw [if_pos hid, haim]
    rfl
  · have haim : (Aim.time timeId).android scheduleClosed = .time timeId := if_neg hid
    rw [if_neg hid, haim]
    rfl

/-- Minutes on their way. -/
inductive TimeDelivery
  | enacted (x : EnactedExtension)
  | gift (body : GiftBody)

namespace TimeDelivery

/-- What it is for; `buckets` are the ids of the buckets clause. -/
def aim (buckets : Option (List String)) : TimeDelivery → Aim
  | enacted x =>
    match x.params.limitHit, x.params.time with
    | .bucket, _ => .bucket (x.params.bucketId.getD "")
    | .schedule, none => .limit .schedule
    | .budget, none => .limit .budget
    | _, some timeId => .time timeId
  | gift body =>
    match Warden.liveBucket body buckets, body.time with
    | some bucketId, _ => .bucket bucketId
    | none, some time => .time time
    | none, none => .device

/-- The call it makes of a pool at an instant, if it is due. -/
def callTo (now : Int) (address : PoolAddress) : TimeDelivery → Option PoolCall
  | enacted x => some ⟨x.at_, x.reqId, x.params.minutesGranted, address⟩
  | gift body => (body.minutesNow (asU64 now)).map fun minutes =>
      ⟨now, giftReqId body.id, minutes, address⟩

/-- Whether it is due and its id new that day. -/
def IsNew (zones : Zones) (l : ExtensionLedger) (now : Int) (d : TimeDelivery) : Prop :=
  ∃ call ∈ d.callTo now (.give .budget), call.reqId ∉ (l.roll zones call.now).applied

end TimeDelivery

/-- What both wardens read. -/
structure TrackedWard where
  multi : MultiChildEnforcer
  uid : UInt32
  child : ChildEnforcer
  tracked : multi.children uid = some child
  times : Option GrantTimes
  buckets : Option (List String)
  now : Int

namespace TrackedWard
variable (cal : Calendar) (w : TrackedWard)

/-- `lock_reason`, as the core has it. -/
def lockReason : Option LockReason := (computeRemaining cal (w.child.inputs w.now)).reason

/-- `schedule_closed`, as the times evaluator has it. -/
def scheduleClosed : Bool :=
  w.child.schedule.any fun s =>
    TimesRouting.TimedStatus.isLocked (WardenTimes.timedStatus cal.zones s w.times w.now)

/-- The Linux enforcer after a delivery. -/
def linux : TimeDelivery → MultiChildEnforcer
  | .enacted x => w.multi.drainOne cal w.uid x.pending
  | .gift body => w.multi.landGift cal w.uid w.now body w.buckets

/-- The Android ledger after it, from the same one. -/
def android : TimeDelivery → ExtensionLedger
  | .enacted x =>
    (Warden.drainOne cal.zones w.child.extension (knownIn w.times) (w.scheduleClosed cal)
      x.pending).1
  | .gift body =>
    (Warden.landGift cal.zones w.child.extension (knownIn w.times) (w.scheduleClosed cal) w.now body
      w.buckets).1

/-- The ledger that a delivery leaves at a pool. -/
def after (d : TimeDelivery) (address : PoolAddress) : ExtensionLedger :=
  match d.callTo w.now address with
  | some call => (call.run cal.zones w.child.extension).2
  | none => w.child.extension

variable {cal w}

theorem giftRoute_eq {body : GiftBody} {buckets : Option (List String)}
    {lockReason : Option LockReason} :
    giftRoute body lockReason buckets = ((TimeDelivery.gift body).aim buckets).linux lockReason := by
  unfold giftRoute TimeDelivery.aim Warden.liveBucket
  dsimp only
  cases body.groupId with
  | none => cases body.time <;> rfl
  | some groupId =>
    dsimp only
    cases hlive : buckets.any (groupId ∈ ·) with
    | true =>
      simp only [Option.filter_some, hlive, if_true]
      rfl
    | false =>
      simp only [Option.filter_some, hlive, Bool.false_eq_true, if_false]
      cases body.time <;> rfl

theorem pendingRoute_eq (x : EnactedExtension) (buckets : Option (List String))
    (lockReason : Option LockReason) :
    pendingRoute x.pending = some (((TimeDelivery.enacted x).aim buckets).linux lockReason) := by
  obtain ⟨reqId, at_, ⟨minutes, limitHit, bucketId, time⟩, hvalid, hnonzero, hroutable⟩ := x
  unfold EnactedExtension.pending pendingOf TimeDelivery.aim
  cases limitHit with
  | bucket =>
    obtain ⟨id, hid⟩ := Option.isSome_iff_exists.mp (hroutable rfl)
    dsimp only at hid
    subst hid
    rfl
  | schedule => cases time <;> rfl
  | budget => cases time <;> rfl

/-- A call of the enforcer does to the child's pools what it does to the ledger's. -/
theorem land_pools (call : PoolCall) : ∃ c, (w.multi.land cal w.uid call).children w.uid = some c ∧
    ∀ a, c.extension.pool a = (call.run cal.zones w.child.extension).2.pool a := by
  obtain ⟨now, reqId, minutes, address⟩ := call
  have hmodify : ∀ f : ChildEnforcer → Bool × ChildEnforcer,
      (w.multi.adjust w.uid f).2.children w.uid = some (f w.child).2 := by
    intro f
    show (if w.uid = w.uid then (w.multi.children w.uid).map fun c => (f c).2 else _) = _
    rw [if_pos rfl, w.tracked]
    rfl
  cases address with
  | give dim =>
    refine ⟨_, hmodify _, ?_⟩
    intro a
    unfold ChildEnforcer.applyExtension ChildEnforcer.adjustExtension
    dsimp only
    split
    · -- the floor that is noted is no pool
      have hday := PoolCall.run_current_day cal.zones w.child.extension
        ⟨now, reqId, minutes, .give dim⟩
      rw [noteBudgetBaseline_pool]
      exact congrArg (fun l => pool l a) (roll_of_current hday)
    · rfl
  | bucket id => exact ⟨_, hmodify _, fun _ => rfl⟩
  | time id => exact ⟨_, hmodify _, fun _ => rfl⟩
  | take dim => exact ⟨_, hmodify _, fun _ => rfl⟩

variable (cal w) in
/-- What Linux does to the pools. -/
theorem linux_pools (d : TimeDelivery) : ∃ c, (w.linux cal d).children w.uid = some c ∧
    ∀ a, c.extension.pool a =
      (w.after cal d ((d.aim w.buckets).linux (w.lockReason cal))).pool a := by
  cases d with
  | enacted x =>
    have hcall : w.linux cal (.enacted x) = w.multi.land cal w.uid ⟨x.pending.at_, x.pending.reqId,
        x.pending.minutes, ((TimeDelivery.enacted x).aim w.buckets).linux (w.lockReason cal)⟩ := by
      unfold linux MultiChildEnforcer.drainOne
      dsimp only
      rw [pendingRoute_eq x w.buckets (w.lockReason cal)]
    have hpending : x.pending.at_ = x.at_ ∧ x.pending.reqId = x.reqId ∧
        x.pending.minutes = x.params.minutesGranted := by
      unfold EnactedExtension.pending pendingOf
      dsimp only
      split <;> exact ⟨rfl, rfl, rfl⟩
    rw [hcall, hpending.1, hpending.2.1, hpending.2.2]
    exact land_pools _
  | gift body =>
    have hreason : (w.multi.remaining cal w.uid w.now).bind (·.reason) = w.lockReason cal := by
      unfold MultiChildEnforcer.remaining
      rw [w.tracked]
      rfl
    unfold linux MultiChildEnforcer.landGift after TimeDelivery.callTo
    dsimp only
    rw [hreason]
    cases body.minutesNow (asU64 w.now) with
    | none => exact ⟨_, w.tracked, fun _ => rfl⟩
    | some minutes =>
      rw [Option.map_some, giftRoute_eq]
      exact land_pools _

/-- What Android does to the ledger. -/
theorem android_eq (d : TimeDelivery) :
    w.android cal d = w.after cal d ((d.aim w.buckets).android (w.scheduleClosed cal)) := by
  cases d with
  | enacted x =>
    obtain ⟨reqId, at_, ⟨minutes, limitHit, bucketId, time⟩, hvalid, hnonzero, hroutable⟩ := x
    cases limitHit with
    | bucket =>
      obtain ⟨id, hid⟩ := Option.isSome_iff_exists.mp (hroutable rfl)
      dsimp only at hid
      subst hid
      rfl
    | schedule =>
      cases time with
      | none => rfl
      | some timeId => exact Warden.landTyped_run ..
    | budget =>
      cases time with
      | none => rfl
      | some timeId => exact Warden.landTyped_run ..
  | gift body =>
    unfold android Warden.landGift after TimeDelivery.callTo TimeDelivery.aim
    dsimp only
    cases body.minutesNow (asU64 w.now) with
    | none => rfl
    | some minutes =>
      dsimp only [Option.map_some]
      cases Warden.liveBucket body w.buckets with
      | some bucketId => rfl
      | none =>
        cases body.time with
        | none => rfl
        | some time => exact Warden.landTyped_run ..

/-! ## When they land alike -/

/-- A whole-device pool, which opens the device as Free time. -/
def IsWholeDevice (a : PoolAddress) : Prop := ∃ dim, a = .give dim

/-- The ledger on the day of a delivery, before it. -/
def before (cal : Calendar) (w : TrackedWard) (d : TimeDelivery) : ExtensionLedger :=
  match d.callTo w.now (.give .budget) with
  | some call => w.child.extension.roll cal.zones call.now
  | none => w.child.extension

/-- Both wardens add the same minutes to the same pool, and Free time's to one that opens the device
as Free time. -/
structure LandsAlike (cal : Calendar) (w : TrackedWard) (d : TimeDelivery) : Prop where
  pools : ∀ c, (w.linux cal d).children w.uid = some c →
    ∀ a, c.extension.pool a = (w.android cal d).pool a
  free : d.aim w.buckets = .time freeTimeId → ∀ c, (w.linux cal d).children w.uid = some c →
    ∀ a, c.extension.pool a ≠ (w.before cal d).pool a ∨
      (w.android cal d).pool a ≠ (w.before cal d).pool a → IsWholeDevice a

/-- The core takes the schedule for what holds the child: it is read, nothing else has landed, and
neither the window nor Free's pool has seconds left. -/
structure HeldBySchedule (cal : Calendar) (w : TrackedWard) : Prop where
  read : (scheduleBase cal.zones w.now w.child.schedule).malformed = false
  notStoodDown : (w.child.inputs w.now).landed = false
  spent : (w.child.inputs w.now).scheduleSecs cal = 0

theorem lockReason_schedule_iff : w.lockReason cal = some .schedule ↔ w.HeldBySchedule cal := by
  have hfields : w.HeldBySchedule cal ↔
      (scheduleBase cal.zones w.now w.child.schedule).malformed = false ∧
        (w.child.inputs w.now).landed = false ∧ (w.child.inputs w.now).scheduleSecs cal = 0 :=
    ⟨fun h => ⟨h.read, h.notStoodDown, h.spent⟩, fun h => ⟨h.1, h.2.1, h.2.2⟩⟩
  have hbase : scheduleBase cal.zones (w.child.inputs w.now).nowUnix
      (w.child.inputs w.now).schedule = scheduleBase cal.zones w.now w.child.schedule := rfl
  rw [hfields, lockReason, EnforcerInputs.reason_eq, hbase]
  by_cases hlocked : (computeRemaining cal (w.child.inputs w.now)).locked = true
  · rw [if_pos hlocked, Option.some.injEq, Kintrinsic.lockReason]
    cases (scheduleBase cal.zones w.now w.child.schedule).malformed <;>
      cases (w.child.inputs w.now).landed <;> simp
  · rw [if_neg hlocked]
    refine iff_of_false (by simp) fun h => hlocked ?_
    exact EnforcerInputs.locked_iff_axes.mpr (.inr (.inl h.2.2))

/-- The minutes of a delivery that is due are within bounds. -/
theorem minutes_of_callTo {d : TimeDelivery} {now : Int} {address : PoolAddress} {call : PoolCall}
    (h : d.callTo now address = some call) :
    call.address = address ∧ 0 < call.minutes ∧ call.minutes ≤ 1440 := by
  cases d with
  | enacted x =>
    cases h
    exact ⟨rfl, Nat.pos_of_ne_zero x.nonzero, validateMinutesGranted_ok x.valid⟩
  | gift body =>
    obtain ⟨minutes, hminutes, rfl⟩ := Option.map_eq_some_iff.mp h
    refine ⟨rfl, ?_⟩
    unfold GiftBody.minutesNow at hminutes
    split_ifs at hminutes with _ _ _ hbounds
    cases hminutes
    unfold maxGiftMinutes at hbounds
    dsimp only
    omega

/-- A delivery that is due makes the same call of whichever pool. -/
theorem after_of_callTo {d : TimeDelivery} {address : PoolAddress} {call : PoolCall}
    (h : d.callTo w.now address = some call) (address' : PoolAddress) :
    w.after cal d address' = (PoolCall.run cal.zones w.child.extension
      ⟨call.now, call.reqId, call.minutes, address'⟩).2 := by
  unfold after
  cases d with
  | enacted x =>
    cases h
    rfl
  | gift body =>
    obtain ⟨minutes, hminutes, rfl⟩ := Option.map_eq_some_iff.mp h
    unfold TimeDelivery.callTo
    dsimp only
    rw [hminutes]
    rfl

theorem bounded_roll {zones : Zones} {l : ExtensionLedger} {now : Int} (h : l.Bounded) :
    (l.roll zones now).Bounded := by
  unfold ExtensionLedger.roll
  split
  · exact h
  · rintro ((_ | _) | id | id | (_ | _)) <;> exact Nat.zero_le _

/-- Minutes given to a whole-device pool show in it, and those given elsewhere do not. -/
theorem pool_give_ne {zones : Zones} {l : ExtensionLedger} (hl : l.Bounded) {now : Int}
    {reqId : String} {minutes : Nat} {dim : Dimension} {other : PoolAddress}
    (hnew : reqId ∉ (l.roll zones now).applied) (hpos : 0 < minutes) (hmax : minutes ≤ 1440)
    (hother : other ≠ .give dim) :
    (PoolCall.run zones l ⟨now, reqId, minutes, other⟩).2.pool (.give dim) ≠
      (PoolCall.run zones l ⟨now, reqId, minutes, .give dim⟩).2.pool (.give dim) := by
  have hmaxWord : u64Max = 2 ^ 64 - 1 := rfl
  have hday : (l.roll zones now).dayKeyAt zones now = (l.roll zones now).dayKey :=
    roll_current_day
  have hbound : (l.roll zones now).pool (.give dim) ≤ u64Max := bounded_roll hl _
  have hroll : ∀ address, PoolCall.run zones (l.roll zones now) ⟨now, reqId, minutes, address⟩ =
      PoolCall.run zones l ⟨now, reqId, minutes, address⟩ :=
    fun address => PoolCall.run_roll zones l ⟨now, reqId, minutes, address⟩
  rw [← hroll, ← hroll]
  obtain ⟨-, hcredited⟩ := run_of_not_mem (c := ⟨now, reqId, minutes, other⟩) hday hnew
  obtain ⟨-, hcredited'⟩ := run_of_not_mem (c := ⟨now, reqId, minutes, .give dim⟩) hday hnew
  have hsecs : (PoolCall.mk now reqId minutes other).secsTo (.give dim) = 0 := if_neg hother
  have hsecs' : (PoolCall.mk now reqId minutes (.give dim)).secsTo (.give dim) = minutes * 60 :=
    if_pos rfl
  have hsame : (PoolCall.run zones (l.roll zones now) ⟨now, reqId, minutes, other⟩).2.pool
      (.give dim) = (l.roll zones now).pool (.give dim) := by
    rcases hcredited.pools (.give dim) with ⟨h, -⟩ | h
    · exact h
    · rw [h, hsecs, Nat.add_zero, settle_of_le hbound]
  have hadded : (PoolCall.run zones (l.roll zones now) ⟨now, reqId, minutes, .give dim⟩).2.pool
      (.give dim) = wrapU64 ((l.roll zones now).pool (.give dim) + minutes * 60) := by
    rcases hcredited'.pools (.give dim) with ⟨-, h⟩ | h
    · rw [hsecs'] at h
      omega
    · rw [h, hsecs']
      rfl
  rw [hsame, hadded]
  unfold wrapU64
  omega

/-- Nothing lands of what is not due, or was applied that day. -/
theorem after_of_old {d : TimeDelivery} (h : ¬d.IsNew cal.zones w.child.extension w.now)
    (address : PoolAddress) (a : PoolAddress) :
    (w.after cal d address).pool a = (w.before cal d).pool a := by
  have hold : ∀ call : PoolCall, call.reqId ∈ (w.child.extension.roll cal.zones call.now).applied →
      (call.run cal.zones w.child.extension).2 = w.child.extension.roll cal.zones call.now := by
    intro call hmem
    rw [← PoolCall.run_roll, run_of_mem roll_current_day hmem]
  unfold after before
  cases d with
  | enacted x =>
    have hmem : x.reqId ∈ (w.child.extension.roll cal.zones x.at_).applied := by
      by_contra hnew
      exact h ⟨_, rfl, hnew⟩
    exact congrArg (fun l => pool l a)
      (hold ⟨x.at_, x.reqId, x.params.minutesGranted, address⟩ hmem)
  | gift body =>
    unfold TimeDelivery.callTo
    dsimp only
    cases hminutes : body.minutesNow (asU64 w.now) with
    | none => rfl
    | some minutes =>
      have hmem : giftReqId body.id ∈ (w.child.extension.roll cal.zones w.now).applied := by
        by_contra hnew
        exact h ⟨_, Option.map_eq_some_iff.mpr ⟨minutes, hminutes, rfl⟩, hnew⟩
      exact congrArg (fun l => pool l a) (hold ⟨w.now, giftReqId body.id, minutes, address⟩ hmem)

/-- **When both wardens land a delivery alike**: unless it is old, it is not for Free time by name,
and one that is for the device as a whole finds the schedule closed exactly when the core is held by
it. -/
theorem lands_alike_iff (cal : Calendar) (w : TrackedWard) (d : TimeDelivery)
    (hwords : w.child.extension.Bounded) : w.LandsAlike cal d ↔
      (d.IsNew cal.zones w.child.extension w.now → d.aim w.buckets ≠ .time freeTimeId ∧
        (d.aim w.buckets = .device → (w.scheduleClosed cal = true ↔ w.HeldBySchedule cal))) := by
  rw [← lockReason_schedule_iff, ← Aim.linux_eq_android_iff]
  obtain ⟨c, hc, hlinux⟩ := linux_pools cal w d
  constructor
  · rintro h ⟨call, hcall, hnew⟩
    by_contra hne
    obtain ⟨dim, hdim⟩ := Aim.android_give_of_ne hne
    rw [hdim] at hne
    obtain ⟨-, hpos, hmax⟩ := minutes_of_callTo hcall
    have hpool := h.pools c hc (.give dim)
    rw [hlinux, android_eq, hdim, after_of_callTo hcall, after_of_callTo hcall] at hpool
    exact pool_give_ne hwords hnew hpos hmax hne hpool
  · intro h
    by_cases hnew : d.IsNew cal.zones w.child.extension w.now
    · have haim := h hnew
      refine ⟨fun c' hc' a => ?_, fun hfree => ?_⟩
      · cases hc.symm.trans hc'
        rw [hlinux, android_eq, haim]
      · exact absurd hfree (Aim.linux_eq_android_iff.mp haim).1
    · refine ⟨fun c' hc' a => ?_, fun _ c' hc' a hchanged => ?_⟩
      · cases hc.symm.trans hc'
        rw [hlinux, android_eq, after_of_old hnew, after_of_old hnew]
      · cases hc.symm.trans hc'
        rw [hlinux, android_eq, after_of_old hnew, after_of_old hnew] at hchanged
        exact absurd hchanged (by simp)

/-! ## Free time by name, and a window that is not defined -/

/-- A ward with nothing set. -/
def plainChild : ChildEnforcer :=
  .new UsageLedger.utcCalendar "UTC" (resolveEffective garbled ⟨[], []⟩ none none) 1782734400

def plainWard : TrackedWard where
  multi := ⟨fun _ => some plainChild, false⟩
  uid := 1000
  child := plainChild
  tracked := rfl
  times := some TimesRouting.learning
  buckets := none
  now := 1782734400

theorem plainWard_words : plainWard.child.extension.Bounded := by
  rintro ((_ | _) | id | id | (_ | _)) <;> exact Nat.zero_le _

/-- Half an hour, given at noon. -/
def halfAnHour (time : Option String) : GiftBody := ⟨1, 0, "g1", 30, 1782820800, none, time⟩

/-- Half an hour of learning lands alike. -/
theorem lands_alike_learning :
    plainWard.LandsAlike UsageLedger.utcCalendar (.gift (halfAnHour (some "learning"))) := by
  refine (lands_alike_iff _ plainWard _ plainWard_words).mpr fun _ => ⟨?_, nofun⟩
  decide

/-- **Half an hour of Free time does not**: on Linux it fills a pool of its own. -/
theorem free_lands_apart :
    ¬plainWard.LandsAlike UsageLedger.utcCalendar (.gift (halfAnHour (some "free"))) := by
  intro h
  obtain ⟨c, hc, hlinux⟩ := linux_pools UsageLedger.utcCalendar plainWard
    (.gift (halfAnHour (some "free")))
  have hpool := h.pools c hc (.time "free")
  rw [hlinux, android_eq] at hpool
  exact absurd hpool (by decide +kernel)

end TrackedWard

end Kintrinsic
