import Kintrinsic.EffectRun
import Kintrinsic.InstantCredits
import Kintrinsic.MultiChild

/-! # Who is charged, and for what

A tick charges the active child alone, and each of its counters at most once for the day's
total.  The others' ledgers follow the clock: their zones, and the schedule pool that burns for
everyone; their verdicts do not depend on what the active child did. -/
namespace Kintrinsic

open MachineWord

/-! ## The counters -/

namespace CreditMeter

/-- A counter of the day. -/
def ofDay (m : Meter DayCounters) (secs : Credit → Nat)
    (hadds : ∀ c rolled l, Credit.Adds c rolled l →
      Added (secs c) (m.read rolled.day.current) (m.read l.day.current)) : CreditMeter where
  read l := m.read l.day.current
  secs := secs
  adds cal l c := hadds c _ _ (Credit.adds_apply cal l c)
  settled cal now l h := by
    rw [(l.rolled_roll cal now).day]
    exact m.read_roll_of_settled h.day

def used : CreditMeter := ofDay usedTodayMeter Credit.screenSecs fun _ _ _ h => h.used

def learning : CreditMeter := ofDay learningMeter Credit.learningSecs fun _ _ _ h => h.learning

def unrecognised : CreditMeter :=
  ofDay unrecognisedMeter Credit.unrecognisedSecs fun _ _ _ h => h.unrecognised

def bucket (id : String) : CreditMeter :=
  ofDay (bucketMeter id) (Credit.bucketSecs id) fun _ _ _ h => h.buckets id

def usedWeek : CreditMeter where
  read l := l.week.current.usedWeekSecs
  secs := Credit.screenSecs
  adds cal l c := (Credit.adds_apply cal l c).usedWeek
  settled cal now l h := by
    rw [(l.rolled_roll cal now).usedWeek]
    exact usedWeekMeter.read_roll_of_settled h.week

def bucketWeek (id : String) : CreditMeter where
  read l := l.week.current.bucketWeekSecs id
  secs := Credit.bucketSecs id
  adds cal l c := (Credit.adds_apply cal l c).bucketsWeek id
  settled cal now l h := by
    rw [(l.rolled_roll cal now).bucketsWeek]
    exact (bucketWeekMeter id).read_roll_of_settled h.week

end CreditMeter

/-! ## One child's credits -/

namespace ChildEnforcer
variable (cal : Calendar) (c : ChildEnforcer) (fg : Foreground) (t : TickClock)

theorem credits_now : ∀ cr ∈ c.credits cal fg t, cr.now = t.now := by
  intro cr hcr
  unfold credits at hcr
  rw [List.mem_append, List.mem_append] at hcr
  rcases hcr with (hcr | hcr) | hcr
  · obtain ⟨eff, -, rfl⟩ := Option.map_eq_some_iff.mp (Option.mem_toList.mp hcr)
    rfl
  · split at hcr
    · obtain ⟨id, -, rfl⟩ := List.mem_map.mp hcr
      rfl
    · cases hcr
  · split at hcr
    · rw [List.mem_singleton.mp hcr]
      rfl
    · cases hcr

/-- The seconds of a tick's credits, on a counter that each entry point moves on its own. -/
theorem sum_credits (secs : Credit → Nat) :
    ((c.credits cal fg t).map secs).sum =
      ((c.charge cal fg t.now).map fun eff => secs (.bucket t.now fg.activity eff t.elapsed)).getD 0 +
        (if fg.activity.counts then
          ((fg.openBuckets.getD []).map fun id => secs (.appBucket t.now id t.elapsed)).sum
        else 0) +
        if fg.unrecognised then secs (.unrecognised t.now fg.activity t.elapsed) else 0 := by
  unfold credits
  rw [List.map_append, List.map_append, List.sum_append, List.sum_append]
  congr 1
  · congr 1
    · cases c.charge cal fg t.now <;> simp
    · split
      · rw [List.map_map]
        rfl
      · rfl
  · split <;> simp

/-- What the day's total is charged. -/
def chargedSecs (b : Bucket) : Nat :=
  if fg.activity.counts ∧ c.charge cal fg t.now = some b then t.elapsed else 0

theorem sum_screen :
    ((c.credits cal fg t).map Credit.screenSecs).sum = c.chargedSecs cal fg t .screen := by
  rw [sum_credits]
  unfold chargedSecs
  cases hcharge : c.charge cal fg t.now with
  | none => simp [Credit.screenSecs]
  | some b => cases b <;> by_cases hcounts : fg.activity.counts <;> simp [Credit.screenSecs, hcounts]

theorem sum_learning :
    ((c.credits cal fg t).map Credit.learningSecs).sum = c.chargedSecs cal fg t .learning := by
  rw [sum_credits]
  unfold chargedSecs
  cases hcharge : c.charge cal fg t.now with
  | none => simp [Credit.learningSecs]
  | some b =>
    cases b <;> by_cases hcounts : fg.activity.counts <;> simp [Credit.learningSecs, hcounts]

theorem sum_unrecognised : ((c.credits cal fg t).map Credit.unrecognisedSecs).sum =
    if fg.activity.counts ∧ fg.unrecognised then t.elapsed else 0 := by
  rw [sum_credits]
  cases c.charge cal fg t.now <;> by_cases hcounts : fg.activity.counts <;>
    by_cases hunrecognised : fg.unrecognised <;>
      simp [Credit.unrecognisedSecs, hcounts, hunrecognised]

theorem sum_bucket (id : String) : ((c.credits cal fg t).map (Credit.bucketSecs id)).sum =
    if fg.activity.counts then (fg.openBuckets.getD []).count id * t.elapsed else 0 := by
  have hopen : ∀ l : List String,
      (l.map fun id' => Credit.bucketSecs id (.appBucket t.now id' t.elapsed)).sum =
        l.count id * t.elapsed := by
    intro l
    induction l with
    | nil => simp
    | cons a l ih =>
      rw [List.map_cons, List.sum_cons, ih, List.count_cons]
      by_cases h : a = id
      · simp [Credit.bucketSecs, h, Nat.add_mul, Nat.add_comm]
      · simp [Credit.bucketSecs, h, Ne.symm h]
  rw [sum_credits, hopen]
  cases c.charge cal fg t.now <;> simp [Credit.bucketSecs]

/-! ## What the day's allowance is charged for -/

theorem chargedSecs_le :
    c.chargedSecs cal fg t .screen + c.chargedSecs cal fg t .learning ≤ t.elapsed := by
  unfold chargedSecs
  by_cases hcounts : fg.activity.counts <;> cases c.charge cal fg t.now with
  | none => simp
  | some b => cases b <;> simp [hcounts]

theorem chargedSecs_of_idle (b : Bucket) (h : fg.activity.counts = false) :
    c.chargedSecs cal fg t b = 0 := by
  rw [chargedSecs, h]
  simp

/-- Named apps: the allowance pays for an open set that is unknown, or not empty. -/
theorem charge_named (h : TimeModel.of c.budget = .named) (now : Int) :
    c.charge cal fg now = if fg.openBuckets = some [] then none else some .screen := by
  unfold charge
  rw [h]
  dsimp only
  cases fg.openBuckets with
  | none => rfl
  | some opened => by_cases hopened : opened = [] <;> simp [hopened]

theorem charge_session (h : TimeModel.of c.budget = .session) (now : Int) :
    c.charge cal fg now = some (c.effectiveBucket cal fg.bucket now) := by
  unfold charge
  rw [h]

theorem effectiveBucket_learning {b : Bucket} {now : Int} :
    c.effectiveBucket cal b now = .learning ↔
      b = .learning ∧ c.learningHeadroom cal now = true := by
  unfold effectiveBucket
  by_cases hb : b = .learning <;> simp [hb]

/-- Headroom is a live clause, with its cap, where it has one, not reached. -/
theorem learningHeadroom_iff {now : Int} :
    c.learningHeadroom cal now = true ↔
      ∃ l, c.learning = some l ∧ l.isPaused = false ∧
        ∀ cap, l.capMinutes = some cap → c.usage.learningToday cal now < cap.toNat * 60 := by
  unfold learningHeadroom
  cases c.learning with
  | none => simp
  | some l => cases hcap : l.capMinutes <;> simp [hcap]

/-! ## One child's tick -/

/-- What a tick leaves a child that is not active: every counter of its usage, under the keys
of the zones in force, and of its extension all but what the schedule pool burned. -/
structure Spared (c' : ChildEnforcer) : Prop where
  day : ∃ key, c'.usage.day.current = PreRoll.setKey c.usage.day.current key
  week : ∃ key, c'.usage.week.current = PreRoll.setKey c.usage.week.current key
  extension : c'.extension = burnScheduleExtension cal.zones
    (c.extension.reconcile cal.zones c.tz t.now) c.schedule t.now t.elapsed

/-- What a tick charges the active child, over its ledger as the clock has brought it on. -/
structure Charged (c' : ChildEnforcer) : Prop where
  extension : c'.extension =
    burnScheduleExtension cal.zones c.extension c.schedule t.now t.elapsed
  used : ∀ m ∈ [CreditMeter.used, CreditMeter.usedWeek],
    Added (c.chargedSecs cal fg t .screen)
      (m.read (CreditMeter.base cal t.now (c.credits cal fg t) c.usage)) (m.read c'.usage)
  learning : Added (c.chargedSecs cal fg t .learning)
    (CreditMeter.learning.read (CreditMeter.base cal t.now (c.credits cal fg t) c.usage))
    (CreditMeter.learning.read c'.usage)
  unrecognised : Added (if fg.activity.counts ∧ fg.unrecognised then t.elapsed else 0)
    (CreditMeter.unrecognised.read (CreditMeter.base cal t.now (c.credits cal fg t) c.usage))
    (CreditMeter.unrecognised.read c'.usage)
  buckets : ∀ id, ∀ m ∈ [CreditMeter.bucket id, CreditMeter.bucketWeek id],
    Added (if fg.activity.counts then (fg.openBuckets.getD []).count id * t.elapsed else 0)
      (m.read (CreditMeter.base cal t.now (c.credits cal fg t) c.usage)) (m.read c'.usage)

/-- The rules of what the day's allowance is charged for. -/
structure ChargeRules : Prop where
  once : c.chargedSecs cal fg t .screen + c.chargedSecs cal fg t .learning ≤ t.elapsed
  idle : fg.activity.counts = false → ∀ b, c.chargedSecs cal fg t b = 0
  session : TimeModel.of c.budget = .session → fg.activity.counts = true →
    c.chargedSecs cal fg t .screen + c.chargedSecs cal fg t .learning = t.elapsed
  named : TimeModel.of c.budget = .named → fg.activity.counts = true →
    c.chargedSecs cal fg t .screen = if fg.openBuckets = some [] then 0 else t.elapsed
  learning : c.chargedSecs cal fg t .learning ≠ 0 →
    TimeModel.of c.budget = .session ∧ fg.bucket = .learning ∧
      ∃ l, c.learning = some l ∧ l.isPaused = false ∧
        ∀ cap, l.capMinutes = some cap → c.usage.learningToday cal t.now < cap.toNat * 60

theorem chargeRules : c.ChargeRules cal fg t where
  once := c.chargedSecs_le cal fg t
  idle h b := c.chargedSecs_of_idle cal fg t b h
  session hsession hcounts := by
    unfold chargedSecs
    rw [charge_session cal c fg hsession]
    cases c.effectiveBucket cal fg.bucket t.now <;> simp [hcounts]
  named hnamed hcounts := by
    unfold chargedSecs
    rw [charge_named cal c fg hnamed]
    by_cases hopen : fg.openBuckets = some [] <;> simp [hopen, hcounts]
  learning h := by
    unfold chargedSecs at h
    have hcharge : c.charge cal fg t.now = some .learning := by
      by_contra hne
      exact h (if_neg fun hand => hne hand.2)
    cases hmodel : TimeModel.of c.budget with
    | named =>
      rw [charge_named cal c fg hmodel] at hcharge
      split at hcharge <;> cases hcharge
    | session =>
      rw [charge_session cal c fg hmodel, Option.some.injEq, effectiveBucket_learning] at hcharge
      exact ⟨rfl, hcharge.1, (c.learningHeadroom_iff cal).mp hcharge.2⟩

variable (clockTrusted : Bool) (uid : UInt32)

/-- Another zone moves the keys and leaves the counters. -/
theorem usage_reconcile (l : UsageLedger) (tz : String) (weekStart : WeekStart) (now : Int) :
    (∃ key, (l.reconcile cal tz weekStart now).day.current = PreRoll.setKey l.day.current key) ∧
      ∃ key, (l.reconcile cal tz weekStart now).week.current =
        PreRoll.setKey l.week.current key := by
  unfold UsageLedger.reconcile
  split
  · exact ⟨⟨l.day.key, rfl⟩, ⟨l.week.key, rfl⟩⟩
  · exact ⟨⟨_, rfl⟩, ⟨_, rfl⟩⟩

theorem spared_tick : c.Spared cal t (c.tick cal clockTrusted uid none t).1 := by
  obtain ⟨hday, hweek⟩ := usage_reconcile cal (c.usage.setClockTrusted clockTrusted)
    c.usageKeys.1 c.usageKeys.2 t.now
  exact ⟨hday, hweek, rfl⟩

/-- The counters of an active child are those of its credits. -/
theorem charged_tick : (c.reconcile cal clockTrusted t.now).Charged cal fg t
    (c.tick cal clockTrusted uid (some fg) t).1 := by
  have hread : ∀ m : CreditMeter,
      Added ((((c.reconcile cal clockTrusted t.now).credits cal fg t).map m.secs).sum)
        (m.read (CreditMeter.base cal t.now
          ((c.reconcile cal clockTrusted t.now).credits cal fg t)
          (c.reconcile cal clockTrusted t.now).usage))
        (m.read (c.tick cal clockTrusted uid (some fg) t).1.usage) :=
    fun m => m.read_credits ((c.reconcile cal clockTrusted t.now).credits_now cal fg t) _
  have hscreen := (c.reconcile cal clockTrusted t.now).sum_screen cal fg t
  have hbucket := (c.reconcile cal clockTrusted t.now).sum_bucket cal fg t
  refine ⟨rfl, ?_, ?_, ?_, ?_⟩
  · intro m hm
    rw [← hscreen]
    rcases List.mem_pair.mp hm with rfl | rfl
    · exact hread .used
    · exact hread .usedWeek
  · rw [← sum_learning]
    exact hread .learning
  · rw [← sum_unrecognised cal _ fg t]
    exact hread .unrecognised
  · intro id m hm
    rw [← hbucket id]
    rcases List.mem_pair.mp hm with rfl | rfl
    · exact hread (.bucket id)
    · exact hread (.bucketWeek id)

end ChildEnforcer

/-! ## Every child's tick -/

/-- Two operations that are one for a child: it is not active in either tick, and whoever is
may have done anything in them. -/
inductive ChildOp.SameFor (uid : UInt32) : ChildOp → ChildOp → Prop
  | same (op : ChildOp) : SameFor uid op op
  | ticks {activeUid activeUid' : Option UInt32} (fg fg' : Foreground) (t : TickClock)
      (h : some uid ≠ activeUid) (h' : some uid ≠ activeUid') :
      SameFor uid (.tick activeUid fg t) (.tick activeUid' fg' t)

namespace MultiChildEnforcer

/-- Two enforcers that are one for a child. -/
structure SameFor (uid : UInt32) (m m' : MultiChildEnforcer) : Prop where
  child : m.children uid = m'.children uid
  clockTrusted : m.clockTrusted = m'.clockTrusted

variable {cal : Calendar} {m m' : MultiChildEnforcer} {uid : UInt32}

theorem SameFor.modify (h : m.SameFor uid m') (u : UInt32) (f : ChildEnforcer → ChildEnforcer) :
    (m.modify u f).SameFor uid (m'.modify u f) := by
  refine ⟨?_, h.clockTrusted⟩
  unfold MultiChildEnforcer.modify
  dsimp only
  rw [h.child]

theorem SameFor.sync (h : m.SameFor uid m') (deviceTz : String)
    (configs : List (UInt32 × EffectivePolicy)) (now : Int) (restore : Restore) :
    (m.sync cal deviceTz configs now restore).SameFor uid
      (m'.sync cal deviceTz configs now restore) := by
  refine ⟨?_, ?_⟩
  · rw [sync_children, sync_children, h.child]
  · rw [sync_clockTrusted, sync_clockTrusted, h.clockTrusted]

/-- What a tick makes of a child that is not active, and decides for it, is a matter of the
child and of the clock. -/
theorem SameFor.tick (h : m.SameFor uid m') {activeUid activeUid' : Option UInt32}
    (hidle : some uid ≠ activeUid) (hidle' : some uid ≠ activeUid') (fg fg' : Foreground)
    (t : TickClock) :
    (m.tick cal activeUid fg t).1.SameFor uid (m'.tick cal activeUid' fg' t).1 ∧
      (m.tick cal activeUid fg t).2 uid = (m'.tick cal activeUid' fg' t).2 uid := by
  refine ⟨⟨?_, h.clockTrusted⟩, ?_⟩
  · rw [tick_children, tick_children, if_neg hidle, if_neg hidle', h.child, h.clockTrusted]
  · rw [tick_decisions, tick_decisions, if_neg hidle, if_neg hidle', h.child, h.clockTrusted]

/-- **Step lemma.** -/
theorem SameFor.step (deviceTz : String) {op op' : ChildOp} (h : m.SameFor uid m')
    (hop : op.SameFor uid op') :
    (m.step cal deviceTz op).1.SameFor uid (m'.step cal deviceTz op').1 ∧
      (m.step cal deviceTz op).2.decision uid = (m'.step cal deviceTz op').2.decision uid := by
  cases hop with
  | ticks fg fg' t hidle hidle' => exact h.tick hidle hidle' fg fg' t
  | same op =>
    cases op with
    | sync configs now restore => exact ⟨h.sync deviceTz configs now restore, rfl⟩
    | tick activeUid fg t =>
      refine ⟨⟨?_, h.clockTrusted⟩, ?_⟩
      · show (m.tick cal activeUid fg t).1.children uid = (m'.tick cal activeUid fg t).1.children uid
        rw [tick_children, tick_children, h.child, h.clockTrusted]
      · show (m.tick cal activeUid fg t).2 uid = (m'.tick cal activeUid fg t).2 uid
        rw [tick_decisions, tick_decisions, h.child, h.clockTrusted]
    | setClockTrusted trusted => exact ⟨⟨h.child, rfl⟩, rfl⟩
    | applyExtension | deductExtension | applyBucketExtension | applyTimeExtension
    | burnTimePool | setConsolidated | setStandDown | setBucketsPolicy | setUsageUnsaved =>
      exact ⟨h.modify _ _, rfl⟩

/-- What one tick makes of the children: of the active one, of the others, and of a child that
is active in neither of two ticks. -/
structure Charging (cal : Calendar) (m : MultiChildEnforcer) (activeUid : Option UInt32)
    (fg : Foreground) (t : TickClock) : Prop where
  others : ∀ u c c', some u ≠ activeUid → m.children u = some c →
    (m.tick cal activeUid fg t).1.children u = some c' → c.Spared cal t c'
  active : ∀ u c c', some u = activeUid → m.children u = some c →
    (m.tick cal activeUid fg t).1.children u = some c' →
    (c.reconcile cal m.clockTrusted t.now).Charged cal fg t c'
  rules : ∀ u c, m.children u = some c →
    (c.reconcile cal m.clockTrusted t.now).ChargeRules cal fg t
  apart : ∀ u m' activeUid' fg', some u ≠ activeUid → some u ≠ activeUid' → m.SameFor u m' →
    (m.tick cal activeUid fg t).2 u = (m'.tick cal activeUid' fg' t).2 u

/-- **Every tick charges the active child and spares the others, and no run of another child's
time changes what is decided for a child.** -/
theorem charging (cal : Calendar) (m : MultiChildEnforcer) :
    (∀ activeUid fg t, m.Charging cal activeUid fg t) ∧
      ∀ deviceTz uid ops ops', List.Forall₂ (ChildOp.SameFor uid) ops ops' →
        (Lockstep.outputs (step cal deviceTz) m ops).map (ChildAnswer.decision uid) =
          (Lockstep.outputs (step cal deviceTz) m ops').map (ChildAnswer.decision uid) := by
  refine ⟨fun activeUid fg t => ⟨?_, ?_, ?_, ?_⟩, fun deviceTz uid ops ops' hops => ?_⟩
  · intro u c c' hother hc hc'
    rw [tick_children, hc, if_neg hother] at hc'
    cases hc'
    exact c.spared_tick cal t m.clockTrusted u
  · intro u c c' hactive hc hc'
    rw [tick_children, hc, if_pos hactive] at hc'
    cases hc'
    exact c.charged_tick cal fg t m.clockTrusted u
  · exact fun u c _ => ChildEnforcer.chargeRules cal _ fg t
  · exact fun u m' activeUid' fg' hidle hidle' hm => (hm.tick hidle hidle' fg fg' t).2
  · have hout : List.Forall₂ (fun a a' => a.decision uid = a'.decision uid)
        (Lockstep.outputs (step cal deviceTz) m ops) (Lockstep.outputs (step cal deviceTz) m ops') :=
      Lockstep.outputs_related (R := SameFor uid)
        (fun _ _ _ _ hm hop => hm.step deviceTz hop) ⟨rfl, rfl⟩ hops
    rw [← List.forall₂_eq_eq_eq, List.forall₂_map_left_iff, List.forall₂_map_right_iff]
    exact hout

/-- Two children past bedtime, with half an hour given to each. -/
def pastBedtime : MultiChildEnforcer :=
  let curfew : EffectivePolicy :=
    ⟨some ⟨1, "UTC", some true, .empty, none, 0⟩, none, none, .guardian⟩
  let gift := { ExtensionLedger.emptyDay "UTC" "2026-06-29" with scheduleSecs := 1800 }
  new.sync UsageLedger.utcCalendar "UTC" [(1, curfew), (2, curfew)] 1782734400
    fun _ => (none, some gift)

/-- The second child at the screen, or nobody: the first is locked alike. -/
theorem charging_bedtime :
    let fg : Foreground := ⟨.active, .screen, some ["play"], true⟩
    pastBedtime.Charging UsageLedger.utcCalendar (some 2) fg ⟨1782734400, 60⟩ ∧
      (Lockstep.outputs (step UsageLedger.utcCalendar "UTC") pastBedtime
          [.tick (some 2) fg ⟨1782734400, 60⟩]).map (ChildAnswer.decision 1) =
        (Lockstep.outputs (step UsageLedger.utcCalendar "UTC") pastBedtime
          [.tick none ⟨.idle, .learning, none, false⟩ ⟨1782734400, 60⟩]).map
          (ChildAnswer.decision 1) :=
  ⟨(charging UsageLedger.utcCalendar pastBedtime).1 _ _ _,
    (charging UsageLedger.utcCalendar pastBedtime).2 _ _ _ _
      (.cons (.ticks _ _ _ (by decide) (by decide)) .nil)⟩

/-- **What burns for everyone.**  The other child is the one at the screen. -/
theorem charging_exceptions :
    (pastBedtime.children 1).map (·.extension.scheduleConsumedSecs) = some 0 ∧
      ((pastBedtime.tick UsageLedger.utcCalendar (some 2) ⟨.active, .screen, none, false⟩
        ⟨1782734400, 60⟩).1.children 1).map (·.extension.scheduleConsumedSecs) = some 60 := by
  decide +kernel

end MultiChildEnforcer
end Kintrinsic
