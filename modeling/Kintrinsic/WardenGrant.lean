import Kintrinsic.FirstGrant
import Kintrinsic.TwoWardens
import Kintrinsic.WardenLedger

/-! # A budget grant on the Android ward

The warden credits a grant to its extension ledger and notes no floor under it: what is left of a
cap is the cap and the day's grants, less the use of all the child's devices.  A grant to a ward in
debt pays the debt first. -/
namespace Kintrinsic

open ExtensionLedger MachineWord

/-! ## What a day's budget is given -/

/-- The ids that count already on a day, and the seconds of budget time it was given. -/
structure BudgetDay where
  ids : List String
  given : Nat

/-- One call: an id counts once a day, and a call of another day clears what came before it. -/
def BudgetDay.add (today : Int → Bool) (d : BudgetDay) (c : PoolCall) : BudgetDay :=
  if today c.now then
    if c.reqId ∈ d.ids then d
    else
      ⟨d.ids ++ [c.reqId],
        if c.address = .give .budget then wrapU64 (d.given + secsOf c.minutes) else d.given⟩
  else ⟨[], 0⟩

/-- A ledger that holds a day's budget at an instant, with nothing taken back and no floor. -/
structure HoldsBudget (zones : Zones) (now : Int) (l : ExtensionLedger) (d : BudgetDay) :
    Prop where
  ids : (l.roll zones now).applied = d.ids
  given : (l.roll zones now).budgetSecs = d.given
  taken : (l.roll zones now).budgetDeductSecs = 0
  noFloor : (l.roll zones now).budgetBaselineTodaySecs = none

/-- Whether an instant falls on the ledger's day of another. -/
def ExtensionLedger.dayOf (zones : Zones) (l : ExtensionLedger) (now t : Int) : Bool :=
  decide (l.dayKeyAt zones t = l.dayKeyAt zones now)

theorem dayOf_iff {zones : Zones} {l : ExtensionLedger} {now t : Int} :
    l.dayOf zones now t = true ↔ l.dayKeyAt zones t = l.dayKeyAt zones now :=
  decide_eq_true_iff

variable {zones : Zones} {now : Int} {l : ExtensionLedger} {d : BudgetDay} {c : PoolCall}

theorem dayKeyAt_of_tz {l' : ExtensionLedger} (h : l'.tz = l.tz) (t : Int) :
    l'.dayKeyAt zones t = l.dayKeyAt zones t := by
  rw [dayKeyAt, zone, h]
  rfl

theorem roll_dayKey (zones : Zones) (l : ExtensionLedger) (now : Int) :
    (l.roll zones now).dayKey = l.dayKeyAt zones now := by
  rw [← roll_current_day]
  exact dayKeyAt_of_tz (roll_tz zones l now) now

/-- A call leaves the ledger in its zone, on the day of the call. -/
theorem run_day (zones : Zones) (l : ExtensionLedger) (c : PoolCall) :
    (c.run zones l).2.tz = l.tz ∧ (c.run zones l).2.dayKey = l.dayKeyAt zones c.now := by
  rw [← PoolCall.run_roll, ← roll_dayKey, ← roll_tz zones l c.now]
  have hcurrent : (l.roll zones c.now).dayKeyAt zones c.now = (l.roll zones c.now).dayKey :=
    roll_current_day
  by_cases hmem : c.reqId ∈ (l.roll zones c.now).applied
  · rw [run_of_mem hcurrent hmem]
    exact ⟨rfl, rfl⟩
  · obtain ⟨-, hcredited⟩ := run_of_not_mem hcurrent hmem
    exact ⟨hcredited.tz, hcredited.dayKey⟩

namespace HoldsBudget

theorem rolled (h : HoldsBudget zones now l d) : HoldsBudget zones now (l.roll zones now) d := by
  obtain ⟨hids, hgiven, htaken, hfloor⟩ := h
  have htwice : (l.roll zones now).roll zones now = l.roll zones now :=
    roll_of_current roll_current_day
  refine ⟨?_, ?_, ?_, ?_⟩ <;> rw [htwice] <;> assumption

/-- The same budget in another ledger of the day. -/
theorem of_same {l' : ExtensionLedger} (h : HoldsBudget zones now l d)
    (hcurrent : l.dayKeyAt zones now = l.dayKey) (htz : l'.tz = l.tz) (hkey : l'.dayKey = l.dayKey)
    (hids : l'.applied = l.applied) (hgiven : l'.budgetSecs = l.budgetSecs)
    (htaken : l'.budgetDeductSecs = l.budgetDeductSecs)
    (hfloor : l'.budgetBaselineTodaySecs = l.budgetBaselineTodaySecs) :
    HoldsBudget zones now l' d := by
  have hstays : l'.roll zones now = l' := roll_of_current (current_of_credited hcurrent htz hkey)
  obtain ⟨hi, hg, ht, hf⟩ := h
  rw [roll_of_current hcurrent] at hi hg ht hf
  refine ⟨?_, ?_, ?_, ?_⟩ <;> rw [hstays]
  · exact hids.trans hi
  · exact hgiven.trans hg
  · exact htaken.trans ht
  · exact hfloor.trans hf

/-- A call under a new id on the ledger's own day. -/
theorem credit (h : HoldsBudget zones now l d) (hcurrent : l.dayKeyAt zones now = l.dayKey)
    (hday : l.dayKeyAt zones c.now = l.dayKey) (hnew : c.reqId ∉ l.applied)
    (hgives : c.address ≠ .take .budget) :
    HoldsBudget zones now (c.run zones l).2 ⟨d.ids ++ [c.reqId],
      if c.address = .give .budget then wrapU64 (d.given + secsOf c.minutes) else d.given⟩ := by
  obtain ⟨-, hcredited⟩ := run_of_not_mem hday hnew
  have hstays : (c.run zones l).2.roll zones now = (c.run zones l).2 :=
    roll_of_current (current_of_credited hcurrent hcredited.tz hcredited.dayKey)
  obtain ⟨hids, hgiven, htaken, hfloor⟩ := h
  rw [roll_of_current hcurrent] at hids hgiven htaken hfloor
  refine ⟨?_, ?_, ?_, ?_⟩
  · rw [hstays, hcredited.applied, hids]
  all_goals
    rw [hstays]
    obtain ⟨at_, reqId, minutes, address⟩ := c
    unfold PoolCall.run
    rcases address with (_ | _) | id | id | (_ | _)
    all_goals
      simp only [apply, applyBucket, applyTime, deduct, once_of_not_mem hday hnew] at *
      first
        | exact htaken
        | exact hfloor
        | exact absurd rfl hgives
        | simpa using hgiven
        | simpa using congrArg (fun n => wrapU64 (n + secsOf minutes)) hgiven

/-- One call, other than one that takes budget time back. -/
theorem run (h : HoldsBudget zones now l d) (hgives : c.address ≠ .take .budget) :
    HoldsBudget zones now (c.run zones l).2 (d.add (l.dayOf zones now) c) := by
  obtain ⟨htz, hkey⟩ := run_day zones l c
  have hat : (c.run zones l).2.dayKeyAt zones now = l.dayKeyAt zones now := dayKeyAt_of_tz htz now
  unfold BudgetDay.add
  by_cases hday : l.dayKeyAt zones c.now = l.dayKeyAt zones now
  · -- on the day: the call rolls the ledger as a reader at the instant does
    have hroll : l.roll zones c.now = l.roll zones now := by
      unfold ExtensionLedger.roll
      rw [hday]
    have hcurrent : (l.roll zones now).dayKeyAt zones now = (l.roll zones now).dayKey :=
      roll_current_day
    have hcalled : (l.roll zones now).dayKeyAt zones c.now = (l.roll zones now).dayKey := by
      rw [← hroll]
      exact roll_current_day
    rw [if_pos (dayOf_iff.mpr hday), ← h.ids, ← PoolCall.run_roll, hroll]
    by_cases hmem : c.reqId ∈ (l.roll zones now).applied
    · rw [if_pos hmem, run_of_mem hcalled hmem]
      exact h.rolled
    · rw [if_neg hmem, h.ids]
      exact h.rolled.credit hcurrent hcalled hmem hgives
  · -- on another day: the roll back to this one clears the ledger
    have hclears : (c.run zones l).2.roll zones now =
        emptyDay (c.run zones l).2.tz ((c.run zones l).2.dayKeyAt zones now) :=
      if_neg (by rw [hat, hkey]; exact Ne.symm hday)
    rw [if_neg fun h => hday (dayOf_iff.mp h)]
    refine ⟨?_, ?_, ?_, ?_⟩ <;> rw [hclears] <;> rfl

/-- All the calls of a tick. -/
theorem runs {calls : List PoolCall} (h : HoldsBudget zones now l d)
    (hgives : ∀ c ∈ calls, c.address ≠ .take .budget) :
    HoldsBudget zones now (calls.foldl (fun l c => (c.run zones l).2) l)
      (calls.foldl (BudgetDay.add (l.dayOf zones now)) d) := by
  induction calls generalizing l d with
  | nil => exact h
  | cons c calls ih =>
    have hsame : (c.run zones l).2.dayOf zones now = l.dayOf zones now := by
      funext t
      unfold dayOf
      rw [dayKeyAt_of_tz (run_day zones l c).1, dayKeyAt_of_tz (run_day zones l c).1]
    have hfirst := h.run (hgives c List.mem_cons_self)
    have hrest := ih hfirst fun c' hc' => hgives c' (List.mem_cons_of_mem _ hc')
    rw [hsame] at hrest
    exact hrest

/-- What burns is not budget time. -/
theorem burnSchedule (h : HoldsBudget zones now l d) (elapsed : Nat) :
    HoldsBudget zones now (l.burnSchedule zones now elapsed) d := by
  have hrolled := h.rolled
  have hcurrent : (l.roll zones now).dayKeyAt zones now = (l.roll zones now).dayKey :=
    roll_current_day
  unfold ExtensionLedger.burnSchedule
  dsimp only
  split
  · exact hrolled.of_same hcurrent rfl rfl rfl rfl rfl rfl
  · exact hrolled

theorem burnTime (h : HoldsBudget zones now l d) (timeId : String) (elapsed : Nat) :
    HoldsBudget zones now (l.burnTime zones now timeId elapsed) d := by
  have hrolled := h.rolled
  have hcurrent : (l.roll zones now).dayKeyAt zones now = (l.roll zones now).dayKey :=
    roll_current_day
  unfold ExtensionLedger.burnTime
  dsimp only
  split
  · exact hrolled
  · exact hrolled.of_same hcurrent rfl rfl rfl rfl rfl rfl

end HoldsBudget

/-! ## The tick -/

namespace WardTick
variable (cal : Calendar) (t : WardTick)

/-- The calls that the inbox and the gift make, in order. -/
def calls : List PoolCall :=
  t.pending.filterMap (Warden.pendingCall (t.scheduleClosed cal)) ++
    (t.gift.bind fun body =>
      Warden.giftCall (t.scheduleClosed cal) t.now body (t.buckets.map (·.ids))).toList

/-- The seconds of budget time that the tick gives the day. -/
def given (l : ExtensionLedger) : Nat :=
  ((t.calls cal).foldl (BudgetDay.add (l.dayOf cal.zones t.now))
    ⟨(l.roll cal.zones t.now).applied, 0⟩).given

/-- Minutes that the tick brings for the budget: an extension of that dimension, or an untyped gift
while the schedule is open. -/
inductive Brings : Nat → Prop
  | extension (p : PendingExtension) (hpending : p ∈ t.pending) (hbucket : p.bucketId = none)
      (hdim : p.dim = some .budget) : Brings p.minutes
  | gift (body : GiftBody) (minutes : Nat) (hgift : t.gift = some body)
      (hdue : body.minutesNow (asU64 t.now) = some minutes)
      (hbucket : Warden.liveBucket body (t.buckets.map (·.ids)) = none)
      (huntyped : body.time = none) (hopen : t.scheduleClosed cal = false) : Brings minutes

variable {cal t}

theorem called_eq (zones : Zones) (l : ExtensionLedger) (call : Option PoolCall) :
    Warden.called zones l call = call.toList.foldl (fun l c => (c.run zones l).2) l := by
  cases call <;> rfl

theorem landed_calls (l : ExtensionLedger) :
    (t.landed cal l).1 = (t.calls cal).foldl (fun l c => (c.run cal.zones l).2) l := by
  have hdrained : (t.drained cal l).1 =
      (t.pending.filterMap (Warden.pendingCall (t.scheduleClosed cal))).foldl
        (fun l c => (c.run cal.zones l).2) l := by
    unfold drained
    generalize t.pending = ps
    suffices hall : ∀ r : ExtensionLedger × List PoolEvent, (ps.foldl (t.drain cal) r).1 =
        (ps.filterMap (Warden.pendingCall (t.scheduleClosed cal))).foldl
          (fun l c => (c.run cal.zones l).2) r.1 from hall (l, [])
    induction ps with
    | nil => exact fun _ => rfl
    | cons p ps ih =>
      intro r
      have hfirst : (t.drain cal r p).1 =
          Warden.called cal.zones r.1 (Warden.pendingCall (t.scheduleClosed cal) p) :=
        Warden.drainOne_eq ..
      rw [List.foldl_cons, ih, hfirst]
      cases hcall : Warden.pendingCall (t.scheduleClosed cal) p with
      | none => rw [List.filterMap_cons_none hcall]; rfl
      | some c => rw [List.filterMap_cons_some hcall]; rfl
  unfold landed calls
  rw [List.foldl_append, ← hdrained]
  cases hgift : t.gift with
  | none => rfl
  | some body =>
    show (Warden.landGift ..).1 = _
    rw [Warden.landGift_eq, called_eq]
    rfl

/-- Nothing that a tick lands takes time back. -/
theorem gives_of_mem {c : PoolCall} (h : c ∈ t.calls cal) : c.address ≠ .take .budget := by
  have haim : ∀ (aim : Aim) (closed : Bool), aim.android closed ≠ .take .budget := by
    intro aim closed
    cases aim with
    | time id =>
      unfold Aim.android
      dsimp only
      split <;> simp
    | _ => simp [Aim.android]
  rcases List.mem_append.mp h with h | h
  · obtain ⟨p, -, hcall⟩ := List.mem_filterMap.mp h
    unfold Warden.pendingCall at hcall
    split at hcall
    · obtain rfl := Option.some.inj hcall
      simp
    · obtain rfl := Option.some.inj hcall
      simp
    · obtain rfl := Option.some.inj hcall
      exact haim (.time _) _
    · cases hcall
  · obtain ⟨body, -, hcall⟩ := Option.bind_eq_some_iff.mp (Option.mem_toList.mp h)
    obtain ⟨minutes, -, rfl⟩ := Option.map_eq_some_iff.mp hcall
    exact haim _ _

/-- The ledger that the tick decides over. -/
theorem holds_burned {l : ExtensionLedger} {d : BudgetDay} {elapsed : Nat}
    (h : HoldsBudget cal.zones t.now l d) :
    HoldsBudget cal.zones t.now (t.burned cal elapsed l).1 d := by
  unfold burned
  split
  · exact h
  · have hschedule : HoldsBudget cal.zones t.now
        (if ((t.inputs l).assess cal).burnSchedulePool = true then
          (l.burnSchedule cal.zones t.now elapsed, [PoolEvent.burnSchedule t.now elapsed])
        else (l, [])).1 d := by
      split
      · exact h.burnSchedule elapsed
      · exact h
    dsimp only
    split
    · exact hschedule.burnTime _ elapsed
    · exact hschedule

end WardTick

/-! ## What is left of a cap -/

/-- A cap and what was given leave so many seconds, past the use of all the child's devices; the sum
is a signed one of 64 bits. -/
def Leaves (cap : UInt32) (given pooled secs : Nat) : Prop :=
  (secs : Int) ≤ wrapI64 (cap.toNat * 60 + asI64 given - asI64 pooled)

/-- No floor is under a cap. -/
theorem capLeft_noFloor (cap : UInt32) (net : Int) (pooled : Nat) :
    capLeft cap none net pooled = wrapI64 (cap.toNat * 60 + net - asI64 pooled) := by
  have hfloor : max (cap.toNat * 60 : Int) i64Min = cap.toNat * 60 := by
    rw [max_eq_left]
    unfold i64Min
    omega
  rw [capLeft, Option.map_none, Option.getD_none, hfloor, wrapI64_sub]

/-- **A grant alone** leaves its own seconds exactly where the use is within the cap. -/
theorem leaves_own_iff {cap : UInt32} {secs pooled : Nat} (hsecs : secs < 2 ^ 62)
    (hpooled : pooled < 2 ^ 62) : Leaves cap secs pooled secs ↔ pooled ≤ cap.toNat * 60 := by
  have hcap : cap.toNat < 2 ^ 32 := cap.toNat_lt
  unfold Leaves
  rw [asI64_of_lt (by omega), asI64_of_lt (by omega), wrapI64_of_mem (by omega) (by omega)]
  omega

/-- The caps of a budget in force over a ledger without a floor. -/
theorem EnforcerInputs.budgetParts_noFloor {cal : Calendar} {inp : EnforcerInputs}
    {b : GrantBudget} {d : BudgetDay} (hbudget : inp.budget = some b)
    (hversion : b.isSupportedVersion = true) (hrevoked : b.revoked ≠ some true)
    (hpaused : b.paused ≠ some true) (h : HoldsBudget cal.zones inp.nowUnix inp.extension d) :
    inp.budgetParts cal =
      (b.dailyMinutes.map fun cap => capLeft cap none (asI64 d.given)
          (inp.usage.pooledToday cal inp.consolidated inp.nowUnix),
        b.weeklyMinutes.map fun cap => capLeft cap none (asI64 d.given)
          (inp.usage.pooledWeek cal inp.consolidated inp.nowUnix)) := by
  have htoday := @today_roll cal.zones inp.nowUnix inp.extension
  have hextra : inp.extension.budgetExtraSecs cal.zones inp.nowUnix = d.given :=
    (congrArg TodayPools.budgetExtra htoday).trans h.given
  have hdeducted : inp.extension.budgetDeductedSecs cal.zones inp.nowUnix = 0 :=
    (congrArg TodayPools.budgetDeducted htoday).trans h.taken
  have hfloor : inp.extension.budgetBaselineSecs cal.zones inp.nowUnix = none := by
    refine (congrArg TodayPools.baseline htoday).trans ?_
    show (inp.extension.roll cal.zones inp.nowUnix).baseline = none
    unfold baseline
    rw [h.noFloor]
  have hnet : inp.budgetNet cal = asI64 d.given := by
    obtain ⟨hlo, hhi⟩ := asI64_mem d.given
    have hzero : asI64 0 = 0 := asI64_of_lt (by decide)
    unfold budgetNet
    rw [hextra, hdeducted, hzero, Int.sub_zero, wrapI64_of_mem hlo hhi]
  unfold budgetParts
  rw [hbudget, hfloor, hnet]
  dsimp only
  rw [GrantBudget.quotaParts, hversion, Bool.not_true, if_neg Bool.false_ne_true, if_neg hrevoked,
    if_neg hpaused]
  rfl

namespace WardenTimes.TimesInputs
variable {cal : Calendar} {i : TimesInputs}

theorem assess_budgetSecs : (i.assess cal).rem.budgetSecs = (i.budgetSide cal).budgetSecs := by
  unfold assess
  dsimp only
  split
  · split <;> rfl
  · rfl

/-- A tick that is locked on the budget has nothing left of it. -/
theorem budget_of_reason (h : (i.assess cal).rem.reason = some .budget) :
    i.core.budgetSecs cal = 0 ∧ i.counts cal = true := by
  have hbase : (i.base cal).rem.reason = some .budget := by
    unfold assess at h
    dsimp only at h
    split at h
    · split at h
      · cases h
      · exact h
    · exact h
  rw [base_reason] at hbase
  split at hbase
  · rename_i hlocked
    have hreason := Option.some.inj hbase
    unfold lockReason at hreason
    split at hreason
    · cases hreason
    split at hreason
    · cases hreason
    rename_i hlanded
    split at hreason
    · cases hreason
    rename_i hschedule
    rcases base_locked_iff.mp hlocked with hsd | haxis | hbudget
    · exact absurd (standDown_landed_iff.mpr hsd) hlanded
    · exact absurd haxis hschedule
    · exact budgetSide_eq_zero_iff.mp hbudget
  · cases hbase

/-- The budget axis where a time that counts is on. -/
theorem budgetSide_of_counts (h : i.counts cal = true) :
    (i.budgetSide cal).budgetSecs = i.core.budgetSecs cal := by
  unfold budgetSide
  rw [h]
  rfl

end WardenTimes.TimesInputs

/-! ## What a grant buys -/

/-- A ledger that was given no budget time on the day of an instant, and from which none was taken
back. -/
def Untouched (zones : Zones) (now : Int) (l : ExtensionLedger) : Prop :=
  HoldsBudget zones now l ⟨(l.roll zones now).applied, 0⟩

theorem untouched_new (zones : Zones) (name : String) (now : Int) :
    Untouched zones now (.new zones name now) := by
  have hstays : (ExtensionLedger.new zones name now).roll zones now = .new zones name now :=
    roll_of_current rfl
  unfold Untouched
  rw [hstays]
  refine ⟨?_, ?_, ?_, ?_⟩ <;> rw [hstays] <;> rfl

namespace WardRun
variable {cal : Calendar} {r : WardRun} {t : WardTick}

/-- What the tick's last assessment reads. -/
def decided (cal : Calendar) (r : WardRun) (t : WardTick) : WardenTimes.TimesInputs :=
  t.inputs (r.burned cal t).1

theorem holds_decided (h : Untouched cal.zones t.now (t.ensured cal r.ledgers)) :
    ∃ ids, HoldsBudget cal.zones t.now (r.decided cal t).extension
      ⟨ids, t.given cal (t.ensured cal r.ledgers)⟩ := by
  have hgives : ∀ c ∈ t.calls cal, c.address ≠ .take .budget :=
    fun c hc => WardTick.gives_of_mem hc
  have hlanded := h.runs hgives
  rw [← WardTick.landed_calls] at hlanded
  exact ⟨_, WardTick.holds_burned hlanded⟩

/-- **A budget grant on Android buys its minutes** exactly where, on each cap that is set, the cap
and what the tick gives leave them past the use of all the child's devices.  The debt of the ward is
nowhere forgiven. -/
theorem grant_buys_iff (cal : Calendar) (r : WardRun) (t : WardTick) {b : GrantBudget}
    (hbudget : t.budget = some b) (hversion : b.isSupportedVersion = true)
    (hrevoked : b.revoked ≠ some true) (hpaused : b.paused ≠ some true)
    (hlocked : ((t.inputs (t.ensured cal r.ledgers)).assess cal).rem.reason = some .budget)
    (huntouched : Untouched cal.zones t.now (t.ensured cal r.ledgers)) :
    (∀ m, t.Brings cal m → 0 < m →
        (m * 60 : Nat) ≤ ((r.decided cal t).assess cal).rem.budgetSecs) ↔
      ∀ m, t.Brings cal m → 0 < m →
        (∀ cap ∈ b.dailyMinutes, Leaves cap (t.given cal (t.ensured cal r.ledgers))
            (t.usage.pooledToday cal t.consolidated t.now) (m * 60)) ∧
          ∀ cap ∈ b.weeklyMinutes, Leaves cap (t.given cal (t.ensured cal r.ledgers))
            (t.usage.pooledWeek cal t.consolidated t.now) (m * 60) := by
  obtain ⟨hshut, hcounts⟩ := WardenTimes.TimesInputs.budget_of_reason hlocked
  -- the ward has a cap: it is locked on the budget
  have hcap : b.dailyMinutes ≠ none ∨ b.weeklyMinutes ≠ none := by
    have hbefore := @EnforcerInputs.budgetParts_noFloor cal
      (t.inputs (t.ensured cal r.ledgers)).core b _ hbudget hversion hrevoked hpaused huntouched
    rw [EnforcerInputs.budgetSecs, hbefore] at hshut
    by_contra hnone
    rw [not_or, not_not, not_not] at hnone
    rw [hnone.1, hnone.2] at hshut
    cases hshut
  obtain ⟨ids, hdecided⟩ := holds_decided huntouched
  have hparts := @EnforcerInputs.budgetParts_noFloor cal (r.decided cal t).core b _ hbudget hversion
    hrevoked hpaused hdecided
  have haxis : ((r.decided cal t).assess cal).rem.budgetSecs =
      EnforcerInputs.clampLeft (binding ((r.decided cal t).core.budgetParts cal)) := by
    rw [WardenTimes.TimesInputs.assess_budgetSecs]
    exact WardenTimes.TimesInputs.budgetSide_of_counts hcounts
  refine forall_congr' fun m => forall_congr' fun _ => forall_congr' fun hm => ?_
  rw [haxis, hparts, le_clampLeft_iff (by omega), and_iff_right ((binding_map_ne_none ..).mpr hcap)]
  simp only [Option.mem_def, Option.map_eq_some_iff, forall_exists_index, and_imp,
    forall_apply_eq_imp_iff₂, capLeft_noFloor]
  rfl

/-- A cap of an hour a day with so much used, and half an hour given at five o'clock on Monday
2026-06-29. -/
def halfAnHour (used : Nat) : WardTick :=
  let c := MultiChildEnforcer.hourADay used 0
  ⟨1782752400, none, some (dailyBudget 60), none, none, c.usage, none, none,
    [⟨"r1", 30, some .budget, none, none, 1782752400⟩], none, true⟩

theorem halfAnHour_brings {cal : Calendar} {used m : Nat} (h : (halfAnHour used).Brings cal m) :
    m = 30 := by
  cases h with
  | extension p hpending => rw [List.mem_singleton.mp hpending]
  | gift body _ hgift => cases hgift

theorem halfAnHour_untouched (used : Nat) :
    Untouched UsageLedger.utcCalendar.zones (halfAnHour used).now
      ((halfAnHour used).ensured UsageLedger.utcCalendar new.ledgers) :=
  untouched_new UsageLedger.utcCalendar.zones "UTC" 1782752400

theorem halfAnHour_thirty (used : Nat) : (halfAnHour used).Brings UsageLedger.utcCalendar 30 :=
  .extension ⟨"r1", 30, some .budget, none, none, 1782752400⟩ List.mem_cons_self rfl rfl

/-- The hour is used to the second: half an hour given is half an hour. -/
theorem grant_buys_at_cap :
    (30 * 60 : Nat) ≤ ((new.decided UsageLedger.utcCalendar (halfAnHour 3600)).assess
      UsageLedger.utcCalendar).rem.budgetSecs := by
  refine (grant_buys_iff UsageLedger.utcCalendar new (halfAnHour 3600) (b := dailyBudget 60) rfl rfl
    (by decide) (by decide) (by decide +kernel) (halfAnHour_untouched 3600)).mpr ?_ 30
    (halfAnHour_thirty 3600) (by decide)
  intro m hm _
  obtain rfl := halfAnHour_brings hm
  refine ⟨?_, fun _ hcap => by cases hcap⟩
  rintro cap hcap
  obtain rfl : cap = 60 := (Option.some.inj hcap).symm
  exact (leaves_own_iff (by decide) (by decide +kernel)).mpr (by decide +kernel)

/-- Half an hour over: half an hour given pays the debt, and the ward stays locked. -/
theorem not_grant_buys :
    ¬∀ (r : WardRun) (t : WardTick) (b : GrantBudget), t.budget = some b →
      b.isSupportedVersion = true → b.revoked ≠ some true → b.paused ≠ some true →
      ((t.inputs (t.ensured UsageLedger.utcCalendar r.ledgers)).assess
        UsageLedger.utcCalendar).rem.reason = some .budget →
      Untouched UsageLedger.utcCalendar.zones t.now (t.ensured UsageLedger.utcCalendar r.ledgers) →
      ∀ m, t.Brings UsageLedger.utcCalendar m → 0 < m →
        (m * 60 : Nat) ≤ ((r.decided UsageLedger.utcCalendar t).assess
          UsageLedger.utcCalendar).rem.budgetSecs := by
  intro h
  have hbuys := h new (halfAnHour 5400) (dailyBudget 60) rfl rfl (by decide) (by decide)
    (by decide +kernel) (halfAnHour_untouched 5400) 30 (halfAnHour_thirty 5400)
    (by decide)
  have hnothing : ((new.decided UsageLedger.utcCalendar (halfAnHour 5400)).assess
      UsageLedger.utcCalendar).rem.budgetSecs = 0 := by
    decide +kernel
  rw [hnothing] at hbuys
  exact absurd hbuys (by decide)

end WardRun
end Kintrinsic
