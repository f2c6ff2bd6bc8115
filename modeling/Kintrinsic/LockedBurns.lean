import Kintrinsic.ExtensionRuns
import Kintrinsic.ExtensionToday
import Kintrinsic.RemainingLaws

/-! # What a closed window burns

`burn_schedule_extension` takes wall clock off the schedule pool whenever the window is closed
and the pool is not used up.  The time axis also counts what was taken back: with as much taken
back as the pool has left it is locked, and the pool keeps nothing open; it is burned all the
same. -/
namespace Kintrinsic

open MachineWord

/-- A status outside every window. -/
def ScheduleStatus.isClosed : ScheduleStatus → Bool
  | .locked _ => true
  | _ => false

theorem ScheduleStatus.isClosed_iff {status : ScheduleStatus} :
    status.isClosed = true ↔ ∃ o, status = .locked o := by
  cases status <;> simp [isClosed]

/-- What `burn_schedule_extension` asks before it burns. -/
def windowClosed (zones : Zones) (schedule : Option GrantSchedule) (now : Int) : Bool :=
  schedule.any fun s => (s.evaluate zones now).isClosed

theorem burnScheduleExtension_eq (zones : Zones) (l : ExtensionLedger)
    (schedule : Option GrantSchedule) (now : Int) (elapsed : Nat) :
    burnScheduleExtension zones l schedule now elapsed =
      if elapsed ≠ 0 ∧ windowClosed zones schedule now = true then l.burnSchedule zones now elapsed
      else l := by
  unfold burnScheduleExtension windowClosed
  by_cases helapsed : elapsed = 0
  · simp [helapsed]
  · rw [if_neg helapsed]
    cases schedule with
    | none => simp
    | some s =>
      dsimp only
      split
      · rename_i o heval
        exact (if_pos ⟨helapsed, ScheduleStatus.isClosed_iff.mpr ⟨o, heval⟩⟩).symm
      · rename_i hopen
        refine (if_neg ?_).symm
        rintro ⟨-, hlocked⟩
        obtain ⟨o, heval⟩ := ScheduleStatus.isClosed_iff.mp hlocked
        exact hopen o heval

/-- Outside the windows the axis is what is left of the pool, within the day. -/
theorem scheduleSecs_closed {cal : Calendar} {inp : EnforcerInputs}
    (h : windowClosed cal.zones inp.schedule inp.nowUnix = true) :
    inp.scheduleSecs cal = (min (wrapU64 (inp.extension.scheduleExtraSecs cal.zones inp.nowUnix) -
      inp.extension.scheduleDeductedSecs cal.zones inp.nowUnix) (inp.eod cal) : Nat) := by
  obtain ⟨s, hschedule, hlocked⟩ := (Option.any_eq_true _ _).mp h
  unfold EnforcerInputs.scheduleSecs scheduleBase
  rw [hschedule]
  dsimp only
  obtain ⟨o, heval⟩ := ScheduleStatus.isClosed_iff.mp hlocked
  simp [heval, ScheduleBase.withPools]

namespace ExtensionLedger

/-- **A locked axis.**  Outside the windows, on a day that is not over, the axis is locked
exactly when what was taken back covers what is left of the pool. -/
theorem scheduleSecs_eq_zero_iff {cal : Calendar} {inp : EnforcerInputs}
    (h : windowClosed cal.zones inp.schedule inp.nowUnix = true) (heod : 0 < inp.eod cal)
    (hword : inp.extension.scheduleExtraSecs cal.zones inp.nowUnix < 2 ^ 64) :
    inp.scheduleSecs cal = 0 ↔ inp.extension.scheduleExtraSecs cal.zones inp.nowUnix ≤
      inp.extension.scheduleDeductedSecs cal.zones inp.nowUnix := by
  rw [scheduleSecs_closed h, wrapU64_of_lt hword]
  omega

/-- A grant, a take-back or another call under an id, or a tick's burn. -/
inductive PoolMove
  | call (c : PoolCall)
  | burn (schedule : Option GrantSchedule) (now : Int) (elapsed : Nat)

variable (zones : Zones) (l : ExtensionLedger)

/-- The axis is locked: the window is closed, and what was taken back covers the pool. -/
def AxisLocked (schedule : Option GrantSchedule) (now : Int) : Prop :=
  windowClosed zones schedule now = true ∧
    l.scheduleExtraSecs zones now ≤ l.scheduleDeductedSecs zones now

instance (schedule : Option GrantSchedule) (now : Int) :
    Decidable (l.AxisLocked zones schedule now) := inferInstanceAs (Decidable (_ ∧ _))

namespace PoolMove

def apply : PoolMove → ExtensionLedger
  | call c => (c.run zones l).2
  | burn schedule now elapsed => burnScheduleExtension zones l schedule now elapsed

/-- The moves with a burn that spares the pool of a locked axis and only rolls the day. -/
def spare : PoolMove → ExtensionLedger
  | call c => (c.run zones l).2
  | burn schedule now elapsed =>
    if elapsed ≠ 0 ∧ l.AxisLocked zones schedule now then l.roll zones now
    else burnScheduleExtension zones l schedule now elapsed

/-- A burn on a locked axis has nothing to burn: no time, or an empty pool. -/
def Harmless : PoolMove → Prop
  | call _ => True
  | burn schedule now elapsed =>
    l.AxisLocked zones schedule now → elapsed = 0 ∨ l.scheduleExtraSecs zones now = 0

end PoolMove

instance decidableHarmless : ∀ m : PoolMove, Decidable (m.Harmless zones l)
  | .call _ => inferInstanceAs (Decidable True)
  | .burn _ _ _ => inferInstanceAs (Decidable (_ → _))

variable {zones l}

/-- An empty pool is not burned. -/
theorem burnSchedule_of_extra {now : Int} {elapsed : Nat}
    (h : l.scheduleExtraSecs zones now = 0) :
    l.burnSchedule zones now elapsed = l.roll zones now := by
  have hheld : (l.roll zones now).scheduleSecs - (l.roll zones now).scheduleConsumedSecs = 0 :=
    (congrArg TodayPools.scheduleExtra (@today_roll zones now l)).symm.trans h
  rw [burnSchedule]
  exact if_neg (by omega)

/-- A harmless move spares the pool. -/
theorem PoolMove.apply_eq_spare {m : PoolMove} (h : m.Harmless zones l) :
    m.apply zones l = m.spare zones l := by
  cases m with
  | call c => rfl
  | burn schedule now elapsed =>
    unfold PoolMove.apply PoolMove.spare
    dsimp only
    by_cases hspared : elapsed ≠ 0 ∧ l.AxisLocked zones schedule now
    · rw [if_pos hspared, burnScheduleExtension_eq, if_pos ⟨hspared.1, hspared.2.1⟩]
      exact burnSchedule_of_extra ((h hspared.2).resolve_left hspared.1)
    · rw [if_neg hspared]

theorem apply_eq_spare_run {ms : List PoolMove}
    (h : GuardedRun.Obeys (PoolMove.apply zones) (fun l m => m.Harmless zones l) l ms) :
    ms.foldl (PoolMove.apply zones) l = ms.foldl (PoolMove.spare zones) l := by
  induction ms generalizing l with
  | nil => rfl
  | cons m ms ih =>
    rw [List.foldl_cons, List.foldl_cons, ← PoolMove.apply_eq_spare h.1]
    exact ih h.2

/-! ## A grant, its take-back and a grant again -/

/-- A grant, a take-back, some burns, and another grant. -/
structure Regrant where
  give : PoolCall
  take : PoolCall
  burns : List (Option GrantSchedule × Int × Nat)
  again : PoolCall

/-- Burns, one after the other. -/
def burnMoves (burns : List (Option GrantSchedule × Int × Nat)) : List PoolMove :=
  burns.map fun b => .burn b.1 b.2.1 b.2.2

def Regrant.moves (r : Regrant) : List PoolMove :=
  .call r.give :: .call r.take :: (burnMoves r.burns ++ [.call r.again])

/-- All on the schedule axis, as much taken back as given, on one day on which all that was
left of the pool had been taken back, under new ids, and within the range of the counters. -/
structure Regrant.Even (zones : Zones) (l : ExtensionLedger) (r : Regrant) : Prop where
  gives : r.give.address = .give .schedule
  takes : r.take.address = .take .schedule
  givesAgain : r.again.address = .give .schedule
  equal : r.take.minutes = r.give.minutes
  takeDay : l.dayKeyAt zones r.take.now = l.dayKeyAt zones r.give.now
  burnDays : ∀ b ∈ r.burns, l.dayKeyAt zones b.2.1 = l.dayKeyAt zones r.give.now
  againDay : l.dayKeyAt zones r.again.now = l.dayKeyAt zones r.give.now
  giveId : r.give.reqId ∉ (l.roll zones r.give.now).applied
  takeId : r.take.reqId ∉ (l.roll zones r.give.now).applied ++ [r.give.reqId]
  againId : r.again.reqId ∉ (l.roll zones r.give.now).applied ++ [r.give.reqId] ++ [r.take.reqId]
  balanced : (l.roll zones r.give.now).scheduleSecs =
    (l.roll zones r.give.now).scheduleConsumedSecs + (l.roll zones r.give.now).scheduleDeductSecs
  room : (l.roll zones r.give.now).scheduleSecs + secsOf r.give.minutes + secsOf r.again.minutes ≤
    u64Max

/-- No call burns. -/
theorem run_consumed {c : PoolCall} (hday : l.dayKeyAt zones c.now = l.dayKey) :
    (c.run zones l).2.scheduleConsumedSecs = l.scheduleConsumedSecs := by
  by_cases hmem : c.reqId ∈ l.applied
  · rw [run_of_mem hday hmem]
  · obtain ⟨now, reqId, minutes, address⟩ := c
    unfold PoolCall.run
    cases address with
    | give dim =>
      dsimp only [apply]
      rw [once_of_not_mem hday hmem]
      cases dim <;> rfl
    | bucket id =>
      dsimp only [applyBucket]
      rw [once_of_not_mem hday hmem]
    | time id =>
      dsimp only [applyTime]
      rw [once_of_not_mem hday hmem]
    | take dim =>
      dsimp only [deduct]
      rw [once_of_not_mem hday hmem]
      cases dim <;> rfl

/-- As much taken back as is left. -/
def Balanced (l : ExtensionLedger) : Prop :=
  l.scheduleSecs = l.scheduleConsumedSecs + l.scheduleDeductSecs

/-- Harmless burns leave a balanced ledger of the day alone. -/
theorem Balanced.burns (hl : l.Balanced) {burns : List (Option GrantSchedule × Int × Nat)}
    (hdays : ∀ b ∈ burns, l.dayKeyAt zones b.2.1 = l.dayKey)
    (h : GuardedRun.Obeys (PoolMove.apply zones) (fun l m => m.Harmless zones l) l
      (burnMoves burns)) :
    (burnMoves burns).foldl (PoolMove.apply zones) l = l := by
  induction burns with
  | nil => rfl
  | cons b burns ih =>
    have hday := hdays b List.mem_cons_self
    have hread := today_of_current hday
    have hextra : l.scheduleExtraSecs zones b.2.1 = l.scheduleSecs - l.scheduleConsumedSecs :=
      congrArg TodayPools.scheduleExtra hread
    have hdeducted : l.scheduleDeductedSecs zones b.2.1 = l.scheduleDeductSecs :=
      congrArg TodayPools.scheduleDeducted hread
    have hsame : PoolMove.apply zones l (.burn b.1 b.2.1 b.2.2) = l := by
      rw [PoolMove.apply, burnScheduleExtension_eq]
      split
      · rename_i hburns
        have hlocked : l.AxisLocked zones b.1 b.2.1 := by
          refine ⟨hburns.2, ?_⟩
          rw [hextra, hdeducted]
          unfold Balanced at hl
          omega
        have hempty := (h.1 hlocked).resolve_left hburns.1
        rw [burnSchedule_of_extra hempty, roll_of_current hday]
      · rfl
    rw [burnMoves, List.map_cons, List.foldl_cons, hsame]
    refine ih (fun b' hb' => hdays b' (List.mem_cons_of_mem _ hb')) ?_
    have htail := h.2
    rwa [hsame] at htail

theorem roll_frame (now : Int) :
    (l.roll zones now).tz = l.tz ∧ (l.roll zones now).dayKey = l.dayKeyAt zones now := by
  unfold roll
  split
  · rename_i h
    exact ⟨rfl, h.symm⟩
  · exact ⟨rfl, rfl⟩

/-- Within its range a pool holds the sum. -/
theorem Credited.pool_eq {c : PoolCall} {l' : ExtensionLedger} (h : Credited c l l')
    (a : PoolAddress) (hroom : l.pool a + c.secsTo a ≤ u64Max) :
    l'.pool a = l.pool a + c.secsTo a := by
  rcases h.pools a with ⟨hsame, hnone⟩ | hadded
  · rw [hsame, hnone, Nat.add_zero]
  · rw [hadded, settle_of_le hroom]

/-- A call under a new id on the ledger's own day. -/
theorem credited_of_new {c : PoolCall} (hday : l.dayKeyAt zones c.now = l.dayKey)
    (hid : c.reqId ∉ l.applied) :
    Credited c l (c.run zones l).2 ∧
      (c.run zones l).2.scheduleConsumedSecs = l.scheduleConsumedSecs :=
  ⟨(run_of_not_mem hday hid).2, run_consumed hday⟩

theorem Regrant.Even.reading {r : Regrant} (hr : r.Even zones l)
    (h : GuardedRun.Obeys (PoolMove.apply zones) (fun l m => m.Harmless zones l) l r.moves) :
    ∃ l' : ExtensionLedger, r.moves.foldl (PoolMove.apply zones) l = l' ∧
      l'.dayKeyAt zones r.again.now = l'.dayKey ∧
      l'.scheduleSecs - l'.scheduleConsumedSecs - l'.scheduleDeductSecs = secsOf r.again.minutes ∧
      l'.scheduleSecs ≤ u64Max := by
  obtain ⟨htz, hkey⟩ := @roll_frame zones l r.give.now
  have hbalanced := hr.balanced
  have hroom := hr.room
  have hday : ∀ {l' : ExtensionLedger} {now : Int}, l'.tz = (l.roll zones r.give.now).tz →
      l'.dayKey = (l.roll zones r.give.now).dayKey →
      l.dayKeyAt zones now = l.dayKeyAt zones r.give.now → l'.dayKeyAt zones now = l'.dayKey := by
    intro l' now htz' hkey' hnow
    rw [hkey', hkey, ← hnow, dayKeyAt, dayKeyAt, zone, zone, htz', htz]
  -- the grant
  obtain ⟨hgive, hconsumed₁⟩ := credited_of_new (hday rfl rfl rfl) hr.giveId
  rw [PoolCall.run_roll] at hgive hconsumed₁
  have hsecs₁ := hgive.pool_eq (.give .schedule)
    (by simp only [pool, PoolCall.secsTo, hr.gives, if_true]; omega)
  have hdeduct₁ := hgive.pool_eq (.take .schedule)
    (by simp only [pool, PoolCall.secsTo, hr.gives, reduceCtorEq, if_false]; omega)
  simp only [pool, PoolCall.secsTo, hr.gives, reduceCtorEq, if_true, if_false] at hsecs₁ hdeduct₁
  generalize hl₁ : (r.give.run zones l).2 = l₁ at *
  -- the take-back
  obtain ⟨htake, hconsumed₂⟩ := credited_of_new (hday hgive.tz hgive.dayKey hr.takeDay)
    (by rw [hgive.applied]; exact hr.takeId)
  have hsecs₂ := htake.pool_eq (.give .schedule)
    (by simp only [pool, PoolCall.secsTo, hr.takes, reduceCtorEq, if_false]; omega)
  have hdeduct₂ := htake.pool_eq (.take .schedule)
    (by simp only [pool, PoolCall.secsTo, hr.takes, hr.equal, if_true]; omega)
  simp only [pool, PoolCall.secsTo, hr.takes, hr.equal, reduceCtorEq, if_true, if_false]
    at hsecs₂ hdeduct₂
  generalize hl₂ : (r.take.run zones l₁).2 = l₂ at *
  have htz₂ := htake.tz.trans hgive.tz
  have hkey₂ := htake.dayKey.trans hgive.dayKey
  -- the burns
  have hobeys : GuardedRun.Obeys (PoolMove.apply zones) (fun l m => m.Harmless zones l) l₂
      (burnMoves r.burns ++ [.call r.again]) := by
    have htail := h.2.2
    unfold PoolMove.apply at htail
    dsimp only at htail
    rw [hl₁, hl₂] at htail
    exact htail
  have hburns : (burnMoves r.burns).foldl (PoolMove.apply zones) l₂ = l₂ := by
    refine Balanced.burns ?_ (fun b hb => hday htz₂ hkey₂ (hr.burnDays b hb))
      (GuardedRun.obeys_append.mp hobeys).1
    unfold Balanced
    omega
  -- and the other grant
  obtain ⟨hagain, hconsumed₃⟩ := credited_of_new (hday htz₂ hkey₂ hr.againDay)
    (by rw [htake.applied, hgive.applied]; exact hr.againId)
  have hsecs₃ := hagain.pool_eq (.give .schedule)
    (by simp only [pool, PoolCall.secsTo, hr.givesAgain, if_true]; omega)
  have hdeduct₃ := hagain.pool_eq (.take .schedule)
    (by simp only [pool, PoolCall.secsTo, hr.givesAgain, reduceCtorEq, if_false]; omega)
  simp only [pool, PoolCall.secsTo, hr.givesAgain, reduceCtorEq, if_true, if_false]
    at hsecs₃ hdeduct₃
  refine ⟨(r.again.run zones l₂).2, ?_, ?_, by omega, by omega⟩
  · have hmoves : r.moves.foldl (PoolMove.apply zones) l =
        (burnMoves r.burns ++ [PoolMove.call r.again]).foldl
          (PoolMove.apply zones) l₂ := by
      rw [← hl₂, ← hl₁]
      rfl
    rw [hmoves, List.foldl_append, hburns]
    rfl
  · exact hday (hagain.tz.trans htz₂) (hagain.dayKey.trans hkey₂) hr.againDay

/-- **In a run whose burns on a locked axis are harmless** no such burn takes anything from the
pool, in no state the run reaches; and a grant with an equal take-back, any burns and another
grant of `m` minutes opens a closed window for those minutes, as far as the day goes. -/
structure Spared (cal : Calendar) (l : ExtensionLedger) (ms : List PoolMove) : Prop where
  same : ∀ pre, pre <+: ms →
    pre.foldl (PoolMove.apply cal.zones) l = pre.foldl (PoolMove.spare cal.zones) l
  regrant : ∀ r : Regrant, r.moves = ms → r.Even cal.zones l → ∀ inp : EnforcerInputs,
    inp.nowUnix = r.again.now → windowClosed cal.zones inp.schedule inp.nowUnix = true →
    inp.extension = ms.foldl (PoolMove.apply cal.zones) l →
    (computeRemaining cal inp).scheduleSecs = min (secsOf r.again.minutes : Int) (inp.eod cal)

theorem spared_of_harmless (cal : Calendar) {l : ExtensionLedger} {ms : List PoolMove}
    (h : GuardedRun.Obeys (PoolMove.apply cal.zones) (fun l m => m.Harmless cal.zones l) l ms) :
    Spared cal l ms := by
  constructor
  · rintro pre ⟨post, rfl⟩
    exact apply_eq_spare_run (GuardedRun.obeys_append.mp h).1
  · rintro r rfl hr inp hnow hclosed hext
    obtain ⟨l', hrun, hday, hleft, hword⟩ := hr.reading h
    rw [hrun] at hext
    rw [← hnow, ← hext] at hday
    have hread := today_of_current hday
    have hextra : inp.extension.scheduleExtraSecs cal.zones inp.nowUnix =
        inp.extension.scheduleSecs - inp.extension.scheduleConsumedSecs :=
      congrArg TodayPools.scheduleExtra hread
    have hdeducted : inp.extension.scheduleDeductedSecs cal.zones inp.nowUnix =
        inp.extension.scheduleDeductSecs := congrArg TodayPools.scheduleDeducted hread
    have hrange : inp.extension.scheduleSecs - inp.extension.scheduleConsumedSecs < 2 ^ 64 := by
      rw [hext]
      unfold u64Max at hword
      omega
    change inp.scheduleSecs cal = _
    rw [scheduleSecs_closed hclosed, hextra, hdeducted, wrapU64_of_lt hrange, hext, hleft]
    exact Nat.cast_min ..

/-- Noon of Monday 2026-06-29, before the window of the afternoon. -/
def noonPools : ExtensionLedger := .new UsageLedger.utcCalendar.zones "UTC" 1782734400

/-- Half an hour given and run to its end; then as much taken back, and a minute more. -/
def usedUp : List PoolMove :=
  [.call ⟨1782734400, "a", 30, .give .schedule⟩, .burn (some afterSchool) 1782736200 1800,
    .call ⟨1782736200, "b", 30, .take .schedule⟩, .burn (some afterSchool) 1782736260 60]

theorem spared_of_harmless_usedUp : Spared UsageLedger.utcCalendar noonPools usedUp :=
  spared_of_harmless UsageLedger.utcCalendar (by decide +kernel)

/-- Half an hour given and taken back, half an hour locked, and half an hour given again. -/
def lockedHalfHour : Regrant where
  give := ⟨1782734400, "a", 30, .give .schedule⟩
  take := ⟨1782734400, "b", 30, .take .schedule⟩
  burns := [(some afterSchool, 1782736200, 1800)]
  again := ⟨1782736200, "c", 30, .give .schedule⟩

/-- The afternoon's clauses with the pools of a run, at half past twelve. -/
def halfPast (l : ExtensionLedger) : EnforcerInputs :=
  { afternoon with nowUnix := 1782736200, extension := l }

/-- **The locked half hour is taken off the second grant**: it opens nothing, where it would
have opened half an hour. -/
theorem lockedHalfHour_buys_nothing :
    lockedHalfHour.Even UsageLedger.utcCalendar.zones noonPools ∧
      (computeRemaining UsageLedger.utcCalendar (halfPast (lockedHalfHour.moves.foldl
        (PoolMove.apply UsageLedger.utcCalendar.zones) noonPools))).scheduleSecs = 0 ∧
      (computeRemaining UsageLedger.utcCalendar (halfPast (lockedHalfHour.moves.foldl
        (PoolMove.spare UsageLedger.utcCalendar.zones) noonPools))).scheduleSecs = 1800 := by
  refine ⟨?_, by decide +kernel, by decide +kernel⟩
  constructor <;> decide +kernel

end ExtensionLedger
end Kintrinsic
