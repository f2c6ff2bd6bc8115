import Kintrinsic.EffectRun
import Kintrinsic.ExtensionRuns
import Kintrinsic.Remaining

/-! # Gifts

Minutes given without an ask stand in a clause that every tick reads again; the ledger's list of
applied ids is what keeps a gift to one payment.  The list lasts a local day.  A gift is paid once
in exactly the runs in which none is still live when the day its payment stood on is gone. -/
namespace Kintrinsic

open EffectRun ExtensionLedger GuardedRun

/-! ## The clause -/

/-- The `gift` clause body. -/
structure GiftBody where
  v : Nat
  issuedAt : Nat
  id : String
  minutes : Nat
  expiresAt : Nat
  groupId : Option String
  time : Option String
deriving DecidableEq

def giftVersion : Nat := 1

def maxGiftMinutes : Nat := 1440

/-- `i64 as u64`. -/
def asU64 (now : Int) : Nat := (now % 2 ^ 64).toNat

/-- `minutes_now`: the minutes to apply, of a gift that is not to be ignored. -/
def GiftBody.minutesNow (b : GiftBody) (now : Nat) : Option Nat :=
  if b.v ≠ giftVersion then none
  else if b.id = "" then none
  else if b.expiresAt ≤ now then none
  else if b.minutes = 0 ∨ maxGiftMinutes < b.minutes then none
  else some b.minutes

/-- The id a gift is applied under. -/
def giftReqId (id : String) : String := "gift:" ++ id

theorem lt_of_asU64_lt {now : Int} {n : Nat} (hnow : now < 2 ^ 63) (h : asU64 now < n) :
    now < n := by
  unfold asU64 at h
  omega

theorem giftReqId_injective : Function.Injective giftReqId := by
  intro a b h
  have hlist := congrArg String.toList h
  unfold giftReqId at hlist
  rw [String.toList_append, String.toList_append] at hlist
  exact String.toList_inj.mp (List.append_cancel_left hlist)

/-- `gift_route`: a bucket that exists, the named time, or the whole device; `buckets` are the ids
of the child's clause. -/
def giftRoute (b : GiftBody) (lockReason : Option LockReason) (buckets : Option (List String)) :
    PoolAddress :=
  let fallback := match b.time with
    | some timeId => PoolAddress.time timeId
    | none => .give (if lockReason = some .schedule then .schedule else .budget)
  match b.groupId with
  | some groupId => if buckets.any (groupId ∈ ·) then .bucket groupId else fallback
  | none => fallback

/-! ## A tick -/

/-- What a tick's gift step reads beside the clause: the instant, the lock reason, the buckets, and
the day's usage for a first budget grant. -/
structure GiftTick where
  now : Int
  now_lt : now < 2 ^ 63
  lockReason : Option LockReason
  buckets : Option (List String)
  usedToday : Nat
  usedWeek : Nat

/-- A gift that was paid, and the call that paid it. -/
structure Payment where
  body : GiftBody
  call : PoolCall
deriving DecidableEq

variable (zones : Zones)

/-- Step 1c of a tick, for one tracked child: what was newly applied, and the ledger. -/
def giftStep (l : ExtensionLedger) (stored : Option GiftBody) (t : GiftTick) :
    List Payment × ExtensionLedger :=
  match stored with
  | none => ([], l)
  | some body =>
    match body.minutesNow (asU64 t.now) with
    | none => ([], l)
    | some minutes =>
      let call : PoolCall :=
        ⟨t.now, giftReqId body.id, minutes, giftRoute body t.lockReason t.buckets⟩
      match call.run zones l with
      | (false, l) => ([], l)
      | (true, l) =>
        ([⟨body, call⟩],
          if call.address = .give .budget then
            l.noteBudgetBaseline zones t.now t.usedToday t.usedWeek else l)

/-! ## All else that touches the ledger -/

/-- A call under an id that is no gift's: a request's, or that of an adjustment made at the
computer. -/
def OtherCall : Type := { c : PoolCall // ∀ id, c.reqId ≠ giftReqId id }

/-- What else happens to a child's ledger, in and between ticks. -/
inductive LedgerWork
  | call (c : OtherCall)
  | reconcile (tz : String) (now : Int)
  | burnSchedule (now : Int) (elapsed : Nat)
  | burnTime (now : Int) (timeId : String) (elapsed : Nat)
  | noteBaseline (now : Int) (usedToday usedWeek : Nat)
  | restore

namespace LedgerWork

def run (l : ExtensionLedger) : LedgerWork → ExtensionLedger
  | call c => (c.1.run zones l).2
  | reconcile tz now => l.reconcile zones tz now
  | burnSchedule now elapsed => l.burnSchedule zones now elapsed
  | burnTime now timeId elapsed => l.burnTime zones now timeId elapsed
  | noteBaseline now usedToday usedWeek => l.noteBudgetBaseline zones now usedToday usedWeek
  | restore => l.restored

/-- The instant at which it rolls the day, if it does. -/
def rollsAt (l : ExtensionLedger) : LedgerWork → Option Int
  | call c => some c.1.now
  | reconcile tz now => if l.tz = tz then none else some now
  | burnSchedule now _ => some now
  | burnTime now _ _ => some now
  | noteBaseline now _ _ => some now
  | restore => none

end LedgerWork

variable {zones}

/-- The ledger after a roll, if there is one. -/
def rolledAt (zones : Zones) (l : ExtensionLedger) : Option Int → ExtensionLedger
  | none => l
  | some now => l.roll zones now

theorem once_applied (l : ExtensionLedger) (now : Int) (reqId : String)
    {credit : ExtensionLedger → ExtensionLedger}
    (hcredit : ∀ l, (credit l).applied = l.applied) :
    (l.once zones now reqId credit).1 = decide (reqId ∉ (l.roll zones now).applied) ∧
      (l.once zones now reqId credit).2.applied =
        if reqId ∈ (l.roll zones now).applied then (l.roll zones now).applied
        else (l.roll zones now).applied ++ [reqId] := by
  unfold once
  dsimp only
  split
  · rename_i h
    exact ⟨by simp [h], rfl⟩
  · rename_i h
    exact ⟨by simp [h], hcredit _⟩

/-- **A call, whatever it addresses**: it takes effect unless its id was applied that day. -/
theorem PoolCall.run_applied (zones : Zones) (l : ExtensionLedger) (c : PoolCall) :
    (c.run zones l).1 = decide (c.reqId ∉ (l.roll zones c.now).applied) ∧
      (c.run zones l).2.applied =
        if c.reqId ∈ (l.roll zones c.now).applied then (l.roll zones c.now).applied
        else (l.roll zones c.now).applied ++ [c.reqId] := by
  obtain ⟨now, reqId, minutes, address⟩ := c
  unfold ExtensionLedger.PoolCall.run
  cases address with
  | give dim =>
    dsimp only [apply]
    refine once_applied l now reqId ?_
    intro l
    cases dim <;> rfl
  | bucket groupId =>
    dsimp only [applyBucket]
    exact once_applied l now reqId fun _ => rfl
  | time timeId =>
    dsimp only [applyTime]
    exact once_applied l now reqId fun _ => rfl
  | take dim =>
    dsimp only [deduct]
    refine once_applied l now reqId ?_
    intro l
    cases dim <;> rfl

theorem noteBudgetBaseline_applied (l : ExtensionLedger) (now : Int) (usedToday usedWeek : Nat) :
    (l.noteBudgetBaseline zones now usedToday usedWeek).applied = (l.roll zones now).applied := by
  unfold noteBudgetBaseline
  dsimp only
  split <;> rfl

theorem burnSchedule_applied (l : ExtensionLedger) (now : Int) (elapsed : Nat) :
    (l.burnSchedule zones now elapsed).applied = (l.roll zones now).applied := by
  unfold ExtensionLedger.burnSchedule
  dsimp only
  split <;> rfl

theorem burnTime_applied (l : ExtensionLedger) (now : Int) (timeId : String) (elapsed : Nat) :
    (l.burnTime zones now timeId elapsed).applied = (l.roll zones now).applied := by
  unfold ExtensionLedger.burnTime
  dsimp only
  split <;> rfl

/-- Apart from the day it may roll, no other work applies a gift. -/
theorem LedgerWork.run_applied (l : ExtensionLedger) (w : LedgerWork) :
    (w.run zones l).applied = (rolledAt zones l (w.rollsAt l)).applied ∨
      ∃ reqId, (∀ id, reqId ≠ giftReqId id) ∧
        (w.run zones l).applied = (rolledAt zones l (w.rollsAt l)).applied ++ [reqId] := by
  cases w with
  | call c =>
    have happlied := (PoolCall.run_applied zones l c.1).2
    by_cases hmem : c.1.reqId ∈ (l.roll zones c.1.now).applied
    · rw [if_pos hmem] at happlied
      exact .inl happlied
    · rw [if_neg hmem] at happlied
      exact .inr ⟨c.1.reqId, c.2, happlied⟩
  | reconcile tz now =>
    left
    change (l.reconcile zones tz now).applied =
      (rolledAt zones l (if l.tz = tz then none else some now)).applied
    unfold ExtensionLedger.reconcile
    by_cases htz : l.tz = tz
    · rw [if_pos htz, if_pos htz]
      rfl
    · rw [if_neg htz, if_neg htz]
      rfl
  | burnSchedule now elapsed => exact .inl (burnSchedule_applied l now elapsed)
  | burnTime now timeId elapsed => exact .inl (burnTime_applied l now timeId elapsed)
  | noteBaseline now usedToday usedWeek =>
    exact .inl (noteBudgetBaseline_applied l now usedToday usedWeek)
  | restore => exact .inl rfl

/-- How often a gift's id is applied. -/
theorem LedgerWork.run_count (l : ExtensionLedger) (w : LedgerWork) (id : String) :
    (w.run zones l).applied.count (giftReqId id) =
      (rolledAt zones l (w.rollsAt l)).applied.count (giftReqId id) := by
  rcases w.run_applied l with hsame | ⟨reqId, hother, hadded⟩
  · rw [hsame]
  · rw [hadded, List.count_append, List.count_singleton, beq_eq_false_iff_ne.mpr (hother id)]
    rfl

end Kintrinsic
