import Kintrinsic.AdjustPair
import Kintrinsic.EnactedRuns
import Kintrinsic.TimePools

/-! # What the loop does to a ledger of minutes

Every operation of the enforcer leaves a child's ledger alone or touches it in one of five ways, at
one instant.  What each of them keeps, every run of the loop keeps. -/
namespace Kintrinsic
namespace ExtensionLedger

open MachineWord

/-! ## The touches -/

/-- A grant of the enforcer: a new budget grant notes where the debt stood. -/
def grant (zones : Zones) (l : ExtensionLedger) (now : Int) (reqId : String) (minutes : Nat)
    (dim : Dimension) (used : Nat × Nat) : ExtensionLedger :=
  let r := l.apply zones now reqId minutes dim
  if r.1 && decide (dim = .budget) then r.2.noteBudgetBaseline zones now used.1 used.2 else r.2

/-- A call of another kind than a grant. -/
def PoolCall.NoGrant (c : PoolCall) : Prop := ∀ dim, c.address ≠ .give dim

/-- A touch of a ledger at an instant, and the zone that its day is told in from then on. -/
inductive Touch (zones : Zones) (now : Int) (l : ExtensionLedger) : String → ExtensionLedger → Prop
  | grant (reqId : String) (minutes : Nat) (dim : Dimension) (used : Nat × Nat) :
    Touch zones now l l.tz (l.grant zones now reqId minutes dim used)
  | call (c : PoolCall) (hnow : c.now = now) (hkind : c.NoGrant) :
    Touch zones now l l.tz (c.run zones l).2
  | burnTime (timeId : String) (elapsed : Nat) :
    Touch zones now l l.tz (l.burnTime zones now timeId elapsed)
  | rekey (tz : String) : Touch zones now l tz (l.reconcile zones tz now)
  | rekeyBurn (tz : String) (elapsed : Nat) :
    Touch zones now l tz ((l.reconcile zones tz now).burnSchedule zones now elapsed)

variable {zones : Zones} {now : Int} {l l' : ExtensionLedger} {tz : String}

/-- A grant is a call, and a note at most. -/
theorem grant_cases (l : ExtensionLedger) (reqId : String) (minutes : Nat) (dim : Dimension)
    (used : Nat × Nat) :
    l.grant zones now reqId minutes dim used = (l.apply zones now reqId minutes dim).2 ∨
      l.grant zones now reqId minutes dim used =
        (l.apply zones now reqId minutes dim).2.noteBudgetBaseline zones now used.1 used.2 := by
  unfold ExtensionLedger.grant
  dsimp only
  split
  · exact .inr rfl
  · exact .inl rfl

/-- The list and the pools: what a note and a burn leave. -/
def SamePools (l l' : ExtensionLedger) : Prop :=
  l'.applied = l.applied ∧ ∀ a, l'.pool a = l.pool a

theorem samePools_note (l : ExtensionLedger) (now : Int) (today week : Nat) :
    SamePools (l.roll zones now) (l.noteBudgetBaseline zones now today week) := by
  unfold noteBudgetBaseline
  dsimp only
  split
  · refine ⟨rfl, ?_⟩
    rintro ((_ | _) | id | id | (_ | _)) <;> rfl
  · exact ⟨rfl, fun _ => rfl⟩

theorem samePools_burnSchedule (l : ExtensionLedger) (now : Int) (elapsed : Nat) :
    SamePools (l.roll zones now) (l.burnSchedule zones now elapsed) := by
  obtain ⟨n, hframe⟩ := @burnSchedule_frame zones l now elapsed
  rw [hframe]
  refine ⟨rfl, ?_⟩
  rintro ((_ | _) | id | id | (_ | _)) <;> rfl

/-- A burn of a named time takes from what is left of it, not from what it was granted. -/
theorem samePools_burnTime (l : ExtensionLedger) (now : Int) (timeId : String) (elapsed : Nat) :
    SamePools (l.roll zones now) (l.burnTime zones now timeId elapsed) := by
  have htimes := @timePool_burnTime zones l now timeId elapsed
  obtain ⟨pools, hframe⟩ := @burnTime_frame zones l now timeId elapsed
  refine ⟨by rw [hframe], ?_⟩
  rintro ((_ | _) | id | id | (_ | _))
  case time =>
    show ((l.burnTime zones now timeId elapsed).timePool id).secs = _
    rw [htimes]
    split
    · rename_i heq
      rw [heq]
      rfl
    · rfl
  all_goals rw [hframe]; rfl

/-! ## The note of the debt -/

theorem noted_emptyDay (tz dayKey : String) : (emptyDay tz dayKey).Noted := ⟨rfl, fun _ => rfl⟩

/-- A call of another pool than the budget's own leaves the note be. -/
theorem Noted.call {c : PoolCall} (h : l.Noted) (hkind : c.NoGrant) : (c.run zones l).2.Noted := by
  have hday := @Noted.roll zones _ h c.now
  rw [← PoolCall.run_roll]
  have hcurrent : (l.roll zones c.now).dayKeyAt zones c.now = (l.roll zones c.now).dayKey :=
    roll_current_day
  generalize l.roll zones c.now = r at hday hcurrent ⊢
  by_cases hold : c.reqId ∈ r.applied
  · rw [run_of_mem hcurrent hold]
    exact hday
  · obtain ⟨now, reqId, minutes, address⟩ := c
    cases address with
    | give dim => exact absurd rfl (hkind dim)
    | bucket id =>
      simp only [PoolCall.run, applyBucket, once_of_not_mem hcurrent hold]
      exact ⟨hday.halves, hday.unnoted⟩
    | time id =>
      simp only [PoolCall.run, applyTime, once_of_not_mem hcurrent hold]
      exact ⟨hday.halves, hday.unnoted⟩
    | take dim =>
      simp only [PoolCall.run, deduct, once_of_not_mem hcurrent hold]
      cases dim <;> exact ⟨hday.halves, hday.unnoted⟩

/-- After a note there is a note. -/
theorem noted_noteBudgetBaseline
    (h : l.budgetBaselineTodaySecs.isSome = l.budgetBaselineWeekSecs.isSome) (now : Int)
    (today week : Nat) : (l.noteBudgetBaseline zones now today week).Noted := by
  have hday : (l.roll zones now).budgetBaselineTodaySecs.isSome =
      (l.roll zones now).budgetBaselineWeekSecs.isSome := by
    unfold ExtensionLedger.roll
    split
    · exact h
    · rfl
  unfold noteBudgetBaseline
  dsimp only
  split
  · exact ⟨rfl, fun hnone => by cases hnone⟩
  · rename_i hsome
    refine ⟨hday, fun hnone => absurd ?_ hsome⟩
    rw [hnone]
    rfl

/-- A grant before its note: the halves stand as they were, and only a new budget grant owes a
note. -/
theorem Noted.apply (h : l.Noted) (now : Int) (reqId : String) (minutes : Nat) (dim : Dimension) :
    ((l.apply zones now reqId minutes dim).2.budgetBaselineTodaySecs.isSome =
        (l.apply zones now reqId minutes dim).2.budgetBaselineWeekSecs.isSome) ∧
      ((l.apply zones now reqId minutes dim).2.Noted ∨
        (l.apply zones now reqId minutes dim).1 = true ∧ dim = .budget) := by
  have hday := @Noted.roll zones _ h now
  by_cases hold : reqId ∈ (l.roll zones now).applied
  · have hsame : l.apply zones now reqId minutes dim = (false, l.roll zones now) := if_pos hold
    rw [hsame]
    exact ⟨hday.halves, .inl hday⟩
  · unfold ExtensionLedger.apply once
    dsimp only
    rw [if_neg hold]
    cases dim with
    | schedule => exact ⟨hday.halves, .inl ⟨hday.halves, hday.unnoted⟩⟩
    | budget => exact ⟨hday.halves, .inr ⟨rfl, rfl⟩⟩

theorem Noted.grant (h : l.Noted) (reqId : String) (minutes : Nat) (dim : Dimension)
    (used : Nat × Nat) : (l.grant zones now reqId minutes dim used).Noted := by
  obtain ⟨hhalves, hdone⟩ := @Noted.apply zones _ h now reqId minutes dim
  unfold ExtensionLedger.grant
  dsimp only
  split
  · exact noted_noteBudgetBaseline hhalves now _ _
  · rename_i hnot
    refine hdone.resolve_right ?_
    rintro ⟨hnew, hbudget⟩
    exact hnot (by rw [hnew, hbudget]; rfl)

theorem Noted.reconcile (h : l.Noted) : (l.reconcile zones tz now).Noted := by
  unfold ExtensionLedger.reconcile
  split
  · exact h
  · exact ⟨(h.roll now).halves, (h.roll now).unnoted⟩

theorem Noted.burnSchedule (h : l.Noted) (elapsed : Nat) :
    (l.burnSchedule zones now elapsed).Noted := by
  have hday := @Noted.roll zones _ h now
  obtain ⟨n, hframe⟩ := @burnSchedule_frame zones l now elapsed
  rw [hframe]
  exact ⟨hday.halves, hday.unnoted⟩

/-- **Every touch keeps the note.** -/
theorem Touch.noted (h : Touch zones now l tz l') (hl : l.Noted) : l'.Noted := by
  cases h with
  | grant reqId minutes dim used => exact hl.grant ..
  | call c hnow hkind => exact hl.call hkind
  | burnTime timeId elapsed =>
    have hday := @Noted.roll zones _ hl now
    obtain ⟨pools, hframe⟩ := @burnTime_frame zones l now timeId elapsed
    rw [hframe]
    exact ⟨hday.halves, hday.unnoted⟩
  | rekey => exact hl.reconcile
  | rekeyBurn _ elapsed => exact hl.reconcile.burnSchedule elapsed

/-! ## Each id once -/

/-- **Each id on the list has its minutes in one pool, once**, and there is nothing in the pools
besides. -/
structure CountedBy (l : ExtensionLedger) (calls : List PoolCall) : Prop where
  ids : calls.map PoolCall.reqId = l.applied
  once : l.applied.Nodup
  pools : ∀ a, l.pool a = settle a (totalTo a calls)

def Counted (l : ExtensionLedger) : Prop := ∃ calls, CountedBy l calls

theorem counted_emptyDay (tz dayKey : String) : (emptyDay tz dayKey).Counted := by
  refine ⟨[], rfl, List.nodup_nil, ?_⟩
  rintro ((_ | _) | id | id | (_ | _)) <;> rfl

theorem Counted.roll (h : l.Counted) (now : Int) : (l.roll zones now).Counted := by
  unfold ExtensionLedger.roll
  split
  · exact h
  · exact counted_emptyDay _ _

theorem Counted.of_samePools (h : l.Counted) (hsame : SamePools l l') : l'.Counted := by
  obtain ⟨calls, hcalls⟩ := h
  refine ⟨calls, hcalls.ids.trans hsame.1.symm, ?_, fun a => (hsame.2 a).trans (hcalls.pools a)⟩
  rw [hsame.1]
  exact hcalls.once

/-- A call under a new id counts once, and under an old one not at all. -/
theorem Counted.call (h : l.Counted) (c : PoolCall) : (c.run zones l).2.Counted := by
  have hday : (l.roll zones c.now).Counted := h.roll c.now
  rw [← PoolCall.run_roll]
  have hcurrent : (l.roll zones c.now).dayKeyAt zones c.now = (l.roll zones c.now).dayKey :=
    roll_current_day
  generalize l.roll zones c.now = r at hday hcurrent ⊢
  by_cases hold : c.reqId ∈ r.applied
  · rw [run_of_mem hcurrent hold]
    exact hday
  · obtain ⟨-, hcredited⟩ := run_of_not_mem hcurrent hold
    obtain ⟨calls, hcalls⟩ := hday
    refine ⟨calls ++ [c], ?_, ?_, fun a => ?_⟩
    · rw [List.map_append, hcalls.ids, hcredited.applied]
      rfl
    · rw [hcredited.applied]
      exact List.nodup_append.mpr ⟨hcalls.once, List.nodup_singleton _, fun id hid id' hid' heq =>
        hold (List.mem_singleton.mp hid' ▸ heq ▸ hid)⟩
    · have hsum : totalTo a (calls ++ [c]) = totalTo a calls + c.secsTo a := by
        simp [totalTo]
      rw [hsum, ← settle_add, ← hcalls.pools a]
      rcases hcredited.pools a with ⟨hsame, hzero⟩ | hadd
      · rw [hsame, hzero, Nat.add_zero, hcalls.pools a]
        exact (settle_of_le (settle_le a _)).symm
      · exact hadd

theorem Counted.reconcile (h : l.Counted) : (l.reconcile zones tz now).Counted := by
  unfold ExtensionLedger.reconcile
  split
  · exact h
  · refine (@Counted.roll zones _ h now).of_samePools ⟨rfl, ?_⟩
    rintro ((_ | _) | id | id | (_ | _)) <;> rfl

/-- **No touch counts an id twice.** -/
theorem Touch.counted (h : Touch zones now l tz l') (hl : l.Counted) : l'.Counted := by
  cases h with
  | grant reqId minutes dim used =>
    have hcall : (l.apply zones now reqId minutes dim).2.Counted :=
      hl.call ⟨now, reqId, minutes, .give dim⟩
    rcases @grant_cases zones now l reqId minutes dim used with heq | heq
    · rw [heq]
      exact hcall
    · rw [heq]
      exact (hcall.roll now).of_samePools (samePools_note _ _ _ _)
  | call c hnow hkind => exact hl.call c
  | burnTime timeId elapsed => exact (hl.roll now).of_samePools (samePools_burnTime _ _ _ _)
  | rekey => exact hl.reconcile
  | rekeyBurn _ elapsed =>
    exact (hl.reconcile.roll now).of_samePools (samePools_burnSchedule _ _ _)

/-! ## Days -/

/-- A ledger as it stands after a touch: of the same day with no fewer ids, or of the day of the
touch, and then with no fewer ids if that is the day it was of. -/
def Follows (zones : Zones) (tz : String) (now : Int) (l l' : ExtensionLedger) : Prop :=
  (l'.tz = l.tz ∧ l'.dayKey = l.dayKey ∧ ∀ id ∈ l.applied, id ∈ l'.applied) ∨
    (l'.tz = tz ∧ l'.dayKeyAt zones now = l'.dayKey ∧
      (l.stale zones now = false → ∀ id ∈ l.applied, id ∈ l'.applied))

theorem follows_refl (tz : String) (now : Int) (l : ExtensionLedger) : Follows zones tz now l l :=
  .inl ⟨rfl, rfl, fun _ h => h⟩

/-- What rolls first, and then keeps its day and its ids, follows. -/
theorem follows_of_roll (htz : l'.tz = l.tz) (hkey : l'.dayKey = (l.roll zones now).dayKey)
    (hids : ∀ id ∈ (l.roll zones now).applied, id ∈ l'.applied) :
    Follows zones l.tz now l l' := by
  refine .inr ⟨htz, ?_, fun hday => ?_⟩
  · have hcurrent : (l.roll zones now).dayKeyAt zones now = (l.roll zones now).dayKey :=
      roll_current_day
    have hzone : (l.roll zones now).tz = l.tz := by
      unfold ExtensionLedger.roll
      split <;> rfl
    rw [hkey, ← hcurrent]
    unfold dayKeyAt ExtensionLedger.zone
    rw [htz, hzone]
  · rw [roll_of_current (day_of_not_stale hday)] at hids
    exact hids

theorem roll_tz (l : ExtensionLedger) (now : Int) : (l.roll zones now).tz = l.tz := by
  unfold ExtensionLedger.roll
  split <;> rfl

theorem note_day (l : ExtensionLedger) (now : Int) (today week : Nat) :
    (l.noteBudgetBaseline zones now today week).tz = l.tz ∧
      (l.noteBudgetBaseline zones now today week).dayKey = (l.roll zones now).dayKey := by
  unfold noteBudgetBaseline
  dsimp only
  split
  · exact ⟨roll_tz l now, rfl⟩
  · exact ⟨roll_tz l now, rfl⟩

theorem call_follows (c : PoolCall) : (c.run zones l).2.tz = l.tz ∧
    (c.run zones l).2.dayKey = (l.roll zones c.now).dayKey ∧
    ∀ id ∈ (l.roll zones c.now).applied, id ∈ (c.run zones l).2.applied := by
  have hzone : (l.roll zones c.now).tz = l.tz := roll_tz l c.now
  rw [← PoolCall.run_roll]
  have hcurrent : (l.roll zones c.now).dayKeyAt zones c.now = (l.roll zones c.now).dayKey :=
    roll_current_day
  generalize l.roll zones c.now = r at hzone hcurrent ⊢
  by_cases hold : c.reqId ∈ r.applied
  · rw [run_of_mem hcurrent hold]
    exact ⟨hzone, rfl, fun _ hid => hid⟩
  · obtain ⟨-, hcredited⟩ := run_of_not_mem hcurrent hold
    refine ⟨hcredited.tz.trans hzone, hcredited.dayKey, fun id hid => ?_⟩
    rw [hcredited.applied]
    exact List.mem_append_left _ hid

/-- A grant is of its day, with its id. -/
theorem grant_follows (reqId : String) (minutes : Nat) (dim : Dimension) (used : Nat × Nat) :
    Follows zones l.tz now l (l.grant zones now reqId minutes dim used) := by
  have hcall := @call_follows zones l ⟨now, reqId, minutes, .give dim⟩
  obtain ⟨htz, hkey, hids⟩ := hcall
  dsimp only [PoolCall.run] at htz hkey hids
  rcases @grant_cases zones now l reqId minutes dim used with heq | heq
  · rw [heq]
    exact follows_of_roll htz hkey hids
  · have hcurrent : (l.apply zones now reqId minutes dim).2.dayKeyAt zones now =
        (l.apply zones now reqId minutes dim).2.dayKey :=
      PoolCall.run_current_day zones l ⟨now, reqId, minutes, .give dim⟩
    obtain ⟨hnotedTz, hnotedKey⟩ :=
      @note_day zones (l.apply zones now reqId minutes dim).2 now used.1 used.2
    rw [roll_of_current hcurrent] at hnotedKey
    rw [heq]
    refine follows_of_roll (hnotedTz.trans htz) (hnotedKey.trans hkey) fun id hid => ?_
    rw [noteBudgetBaseline_applied, roll_of_current hcurrent]
    exact hids id hid

theorem reconcile_tz : (l.reconcile zones tz now).tz = tz := by
  unfold ExtensionLedger.reconcile
  split
  · assumption
  · rfl

theorem reconcile_follows : Follows zones tz now l (l.reconcile zones tz now) := by
  by_cases hzone : l.tz = tz
  · have hsame : l.reconcile zones tz now = l := if_pos hzone
    rw [hsame]
    exact follows_refl tz now l
  · refine .inr ⟨reconcile_tz, ?_, fun hday id hid => ?_⟩
    · unfold ExtensionLedger.reconcile
      rw [if_neg hzone]
      rfl
    · unfold ExtensionLedger.reconcile
      rw [if_neg hzone, roll_of_current (day_of_not_stale hday)]
      exact hid

/-- A burn after it follows as well. -/
theorem rekeyBurn_follows (elapsed : Nat) :
    Follows zones tz now l ((l.reconcile zones tz now).burnSchedule zones now elapsed) := by
  obtain ⟨n, hframe⟩ := @burnSchedule_frame zones (l.reconcile zones tz now) now elapsed
  have hcurrent : ((l.reconcile zones tz now).roll zones now).dayKeyAt zones now =
      ((l.reconcile zones tz now).roll zones now).dayKey := roll_current_day
  rw [hframe]
  refine .inr ⟨(roll_tz _ _).trans reconcile_tz, hcurrent, fun hday id hid => ?_⟩
  have hagain : (l.reconcile zones tz now).dayKeyAt zones now =
      (l.reconcile zones tz now).dayKey := by
    unfold ExtensionLedger.reconcile
    split
    · exact day_of_not_stale hday
    · rfl
  show id ∈ ((l.reconcile zones tz now).roll zones now).applied
  rw [roll_of_current hagain]
  unfold ExtensionLedger.reconcile
  split
  · exact hid
  · rw [roll_of_current (day_of_not_stale hday)]
    exact hid

/-- **What is touched follows.** -/
theorem Touch.follows (h : Touch zones now l tz l') : Follows zones tz now l l' := by
  cases h with
  | grant reqId minutes dim used => exact grant_follows ..
  | call c hnow hkind =>
    subst hnow
    obtain ⟨htz, hkey, hids⟩ := @call_follows zones l c
    exact follows_of_roll htz hkey hids
  | burnTime timeId elapsed =>
    obtain ⟨pools, hframe⟩ := @burnTime_frame zones l now timeId elapsed
    rw [hframe]
    exact follows_of_roll (roll_tz l now) rfl fun _ hid => hid
  | rekey => exact reconcile_follows
  | rekeyBurn _ elapsed => exact rekeyBurn_follows elapsed

end ExtensionLedger

/-! ## The operations of the enforcer -/

/-- The zone that an operation leaves a child's ledger in. -/
def ChildOp.zoneFor (c : ChildEnforcer) : ChildOp → String
  | .tick _ _ _ => c.tz
  | _ => c.extension.tz

namespace ChildEnforcer
variable {cal : Calendar} {c : ChildEnforcer}

open ExtensionLedger

theorem applyExtension_grant (now : Int) (reqId : String) (minutes : Nat) (dim : Dimension) :
    (c.applyExtension cal now reqId minutes dim).2.extension =
      c.extension.grant cal.zones now reqId minutes dim
        (c.usage.usedToday cal now, c.usage.usedWeek cal now) := by
  unfold ChildEnforcer.applyExtension adjustExtension ExtensionLedger.grant
  dsimp only
  split <;> rfl

theorem tick_touches (clockTrusted : Bool) (uid : UInt32) (fg : Option Foreground) (t : TickClock) :
    Touch cal.zones t.now c.extension c.tz (c.tick cal clockTrusted uid fg t).1.extension := by
  rw [tick_extension]
  unfold burnScheduleExtension
  split
  · exact .rekey c.tz
  · split
    · exact .rekey c.tz
    · split
      · exact .rekeyBurn c.tz t.elapsed
      · exact .rekey c.tz

end ChildEnforcer

namespace MultiChildEnforcer
variable {cal : Calendar} {m : MultiChildEnforcer} {uid : UInt32} {c : ChildEnforcer}

open ExtensionLedger

variable (cal uid) in
/-- What an operation makes of a child's ledger: nothing, or a touch at its instant. -/
def Touches (op : ChildOp) (c c' : ChildEnforcer) : Prop :=
  c'.extension = c.extension ∨ ∃ now, op.instantFor uid = some now ∧
    Touch cal.zones now c.extension (op.zoneFor c) c'.extension

/-- **An operation on a child that is tracked.** -/
theorem step_touches (deviceTz : String) {op : ChildOp} (hsync : ¬op.IsSync)
    (hc : m.children uid = some c) :
    ∃ c', (m.step cal deviceTz op).1.children uid = some c' ∧ Touches cal uid op c c' := by
  have hmodify : ∀ {u : UInt32} {now : Int} {f : ChildEnforcer → ChildEnforcer},
      op.instantFor uid = (if u = uid then some now else none) →
      Touch cal.zones now c.extension (op.zoneFor c) (f c).extension →
      ∃ c', (m.modify u f).children uid = some c' ∧ Touches cal uid op c c' := by
    intro u now f hinstant htouch
    rw [modify_children, hc]
    by_cases hu : uid = u
    · rw [if_pos hu]
      rw [if_pos hu.symm] at hinstant
      exact ⟨f c, rfl, .inr ⟨now, hinstant, htouch⟩⟩
    · rw [if_neg hu]
      exact ⟨c, rfl, .inl rfl⟩
  have hother : ∀ {u : UInt32} {f : ChildEnforcer → ChildEnforcer},
      (f c).extension = c.extension →
      ∃ c', (m.modify u f).children uid = some c' ∧ Touches cal uid op c c' := by
    intro u f hf
    rw [modify_children, hc]
    by_cases hu : uid = u
    · rw [if_pos hu]
      exact ⟨f c, rfl, .inl hf⟩
    · rw [if_neg hu]
      exact ⟨c, rfl, .inl rfl⟩
  cases op with
  | sync configs now restore => exact absurd trivial hsync
  | tick activeUid fg t =>
    have hticked := tick_children cal m activeUid fg t uid
    rw [hc, Option.map_some] at hticked
    exact ⟨_, hticked, .inr ⟨t.now, rfl, ChildEnforcer.tick_touches ..⟩⟩
  | applyExtension u now reqId minutes dim =>
    refine hmodify rfl ?_
    rw [ChildEnforcer.applyExtension_grant]
    exact .grant ..
  | deductExtension u now reqId minutes dim =>
    exact hmodify rfl (.call ⟨now, reqId, minutes, .take dim⟩ rfl fun dim h => by cases h)
  | applyBucketExtension u now reqId minutes id =>
    exact hmodify rfl (.call ⟨now, reqId, minutes, .bucket id⟩ rfl fun dim h => by cases h)
  | applyTimeExtension u now reqId minutes id =>
    exact hmodify rfl (.call ⟨now, reqId, minutes, .time id⟩ rfl fun dim h => by cases h)
  | burnTimePool u now timeId elapsed => exact hmodify rfl (.burnTime timeId elapsed)
  | setClockTrusted trusted => exact ⟨c, hc, .inl rfl⟩
  | setConsolidated | setStandDown | setBucketsPolicy | setUsageUnsaved => exact hother rfl

end MultiChildEnforcer
end Kintrinsic
