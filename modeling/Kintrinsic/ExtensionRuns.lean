import Kintrinsic.ExtensionLedger
import Kintrinsic.FirstSeen
import Kintrinsic.GuardedRun
import Mathlib.Algebra.BigOperators.Group.List.Basic

/-! # One request id buys one top-up

Runs of the four entry points within one local day, with restarts and re-keyings in
between.  The calls that take effect are the first uses of their ids, whichever pool they
address, and a pool holds what it held and the amounts of those that address it. -/
namespace Kintrinsic
namespace ExtensionLedger

open FirstUse GuardedRun MachineWord

/-- Where a call's minutes go. -/
inductive PoolAddress
  | give (dim : Dimension)
  | bucket (id : String)
  | time (id : String)
  | take (dim : Dimension)
deriving DecidableEq

/-- A call of `apply`, `apply_bucket`, `apply_time` or `deduct`. -/
structure PoolCall where
  now : Int
  reqId : String
  minutes : Nat
  address : PoolAddress
deriving DecidableEq

/-- The pool behind an address. -/
def pool (l : ExtensionLedger) : PoolAddress → Nat
  | .give .schedule => l.scheduleSecs
  | .give .budget => l.budgetSecs
  | .bucket id => l.bucketExtra id
  | .time id => (l.timePool id).secs
  | .take .schedule => l.scheduleDeductSecs
  | .take .budget => l.budgetDeductSecs

/-- How a pool holds a sum: grants and bucket pools wrap, the others saturate. -/
def settle : PoolAddress → Nat → Nat
  | .give _, n => wrapU64 n
  | .bucket _, n => wrapU64 n
  | .time _, n => min n u64Max
  | .take _, n => min n u64Max

namespace PoolCall

def run (zones : Zones) (l : ExtensionLedger) (c : PoolCall) : Bool × ExtensionLedger :=
  match c.address with
  | .give dim => l.apply zones c.now c.reqId c.minutes dim
  | .bucket id => l.applyBucket zones c.now c.reqId c.minutes id
  | .time id => l.applyTime zones c.now c.reqId c.minutes id
  | .take dim => l.deduct zones c.now c.reqId c.minutes dim

/-- The seconds a call adds to the pool of an address. -/
def secsTo (a : PoolAddress) (c : PoolCall) : Nat :=
  if c.address = a then secsOf c.minutes else 0

end PoolCall

/-- A ledger to which a call has added its seconds, and no others. -/
structure Credited (c : PoolCall) (l l' : ExtensionLedger) : Prop where
  tz : l'.tz = l.tz
  dayKey : l'.dayKey = l.dayKey
  applied : l'.applied = l.applied ++ [c.reqId]
  pools : ∀ a, l'.pool a = l.pool a ∧ c.secsTo a = 0 ∨
    l'.pool a = settle a (l.pool a + c.secsTo a)

variable {zones : Zones} {l : ExtensionLedger} {c : PoolCall}

theorem roll_of_current {now : Int} (h : l.dayKeyAt zones now = l.dayKey) :
    l.roll zones now = l := if_pos h

theorem once_roll (now : Int) (reqId : String) (credit : ExtensionLedger → ExtensionLedger) :
    (l.roll zones now).once zones now reqId credit = l.once zones now reqId credit := by
  rw [once, once, roll_of_current roll_current_day]

variable (zones l c) in
/-- Every call rolls the day before all else. -/
theorem PoolCall.run_roll : c.run zones (l.roll zones c.now) = c.run zones l := by
  unfold PoolCall.run
  split
  · exact once_roll _ _ _
  · exact once_roll _ _ _
  · unfold applyTime
    rw [once_roll]
  · exact once_roll _ _ _

theorem once_of_mem {now : Int} {reqId : String} {credit : ExtensionLedger → ExtensionLedger}
    (hday : l.dayKeyAt zones now = l.dayKey) (h : reqId ∈ l.applied) :
    l.once zones now reqId credit = (false, l) := by
  simp only [once, roll_of_current hday, if_pos h]

theorem once_of_not_mem {now : Int} {reqId : String}
    {credit : ExtensionLedger → ExtensionLedger}
    (hday : l.dayKeyAt zones now = l.dayKey) (h : reqId ∉ l.applied) :
    l.once zones now reqId credit =
      (true, credit { l with applied := l.applied ++ [reqId] }) := by
  simp only [once, roll_of_current hday, if_neg h]

/-- A call under an applied id answers `false` and changes nothing. -/
theorem run_of_mem (hday : l.dayKeyAt zones c.now = l.dayKey) (h : c.reqId ∈ l.applied) :
    c.run zones l = (false, l) := by
  unfold PoolCall.run
  split <;> exact once_of_mem hday h

/-- **A call under a new id** answers `true` and credits the one pool it addresses. -/
theorem run_of_not_mem (hday : l.dayKeyAt zones c.now = l.dayKey) (h : c.reqId ∉ l.applied) :
    (c.run zones l).1 = true ∧ Credited c l (c.run zones l).2 := by
  obtain ⟨now, reqId, minutes, address⟩ := c
  unfold PoolCall.run
  cases address with
  | give dim =>
    dsimp only [apply]
    rw [once_of_not_mem hday h]
    refine ⟨rfl, ?_⟩
    cases dim <;> refine ⟨rfl, rfl, rfl, ?_⟩ <;> intro a <;>
      rcases a with (_ | _) | id | id | (_ | _) <;> simp [pool, settle, PoolCall.secsTo, timePool]
  | bucket id =>
    dsimp only [applyBucket]
    rw [once_of_not_mem hday h]
    refine ⟨rfl, rfl, rfl, rfl, ?_⟩
    intro a
    rcases a with (_ | _) | id' | id' | (_ | _)
    case bucket =>
      by_cases hid : id' = id
      · subst hid
        simp [pool, settle, PoolCall.secsTo]
      · have hne : id ≠ id' := fun heq => hid heq.symm
        simp [pool, PoolCall.secsTo, hid, hne]
    all_goals simp [pool, settle, PoolCall.secsTo, timePool]
  | time id =>
    dsimp only [applyTime]
    rw [once_of_not_mem hday h]
    refine ⟨rfl, rfl, rfl, rfl, ?_⟩
    intro a
    rcases a with (_ | _) | id' | id' | (_ | _)
    case time =>
      by_cases hid : id' = id
      · subst hid
        simp [pool, settle, PoolCall.secsTo, timePool, addU64]
      · have hne : id ≠ id' := fun heq => hid heq.symm
        simp [pool, PoolCall.secsTo, timePool, hid, hne]
    all_goals simp [pool, settle, PoolCall.secsTo]
  | take dim =>
    dsimp only [deduct]
    rw [once_of_not_mem hday h]
    refine ⟨rfl, ?_⟩
    cases dim <;> refine ⟨rfl, rfl, rfl, ?_⟩ <;> intro a <;>
      rcases a with (_ | _) | id | id | (_ | _) <;>
        simp [pool, settle, PoolCall.secsTo, timePool, addU64]

/-! ## Runs within a day -/

/-- What can happen to a ledger within a day. -/
inductive DayAction
  | call (c : PoolCall)
  | reconcile (tz : String) (now : Int)
  | restart

/-- A ledger, and the calls that have answered `true`. -/
structure DayRun where
  ledger : ExtensionLedger
  taken : List PoolCall

namespace DayRun

/-- The start of a day's run, at any instant of the day. -/
def start (zones : Zones) (l : ExtensionLedger) (now : Int) : DayRun := ⟨l.roll zones now, []⟩

def call (zones : Zones) (r : DayRun) (c : PoolCall) : DayRun :=
  match c.run zones r.ledger with
  | (true, l) => ⟨l, r.taken ++ [c]⟩
  | (false, l) => ⟨l, r.taken⟩

def step (zones : Zones) (r : DayRun) : DayAction → DayRun
  | .call c => r.call zones c
  | .reconcile tz now => { r with ledger := r.ledger.reconcile zones tz now }
  | .restart => { r with ledger := r.ledger.restored }

/-- Every instant lies in the ledger's day, in the zone in force. -/
def InDay (zones : Zones) (r : DayRun) : DayAction → Prop
  | .call c => r.ledger.dayKeyAt zones c.now = r.ledger.dayKey
  | .reconcile _ now => r.ledger.dayKeyAt zones now = r.ledger.dayKey
  | .restart => True

instance decidableInDay (zones : Zones) : ∀ r a, Decidable (InDay zones r a)
  | r, .call c => inferInstanceAs (Decidable (r.ledger.dayKeyAt zones c.now = r.ledger.dayKey))
  | r, .reconcile _ now =>
    inferInstanceAs (Decidable (r.ledger.dayKeyAt zones now = r.ledger.dayKey))
  | _, .restart => inferInstanceAs (Decidable True)

end DayRun

/-- The calls of a run. -/
def callsOf : List DayAction → List PoolCall
  | [] => []
  | .call c :: as => c :: callsOf as
  | .reconcile _ _ :: as => callsOf as
  | .restart :: as => callsOf as

/-- The seconds some calls add to the pool of an address. -/
def totalTo (a : PoolAddress) (cs : List PoolCall) : Nat := (cs.map (PoolCall.secsTo a)).sum

/-- Every pool is a 64-bit number. -/
def Bounded (l : ExtensionLedger) : Prop := ∀ a, l.pool a ≤ u64Max

theorem settle_of_le {a : PoolAddress} {n : Nat} (h : n ≤ u64Max) : settle a n = n := by
  have hlt : n < 2 ^ 64 := by
    unfold u64Max at h
    omega
  cases a with
  | give dim => exact wrapU64_of_lt hlt
  | bucket id => exact wrapU64_of_lt hlt
  | time id => exact Nat.min_eq_left h
  | take dim => exact Nat.min_eq_left h

theorem settle_le (a : PoolAddress) (n : Nat) : settle a n ≤ u64Max := by
  cases a with
  | give dim => exact wrapU64_le n
  | bucket id => exact wrapU64_le n
  | time id => exact Nat.min_le_right _ _
  | take dim => exact Nat.min_le_right _ _

/-- A sum may be settled as it grows. -/
theorem settle_add (a : PoolAddress) (n m : Nat) : settle a (settle a n + m) = settle a (n + m) := by
  cases a with
  | give dim => exact Nat.mod_add_mod n (2 ^ 64) m
  | bucket id => exact Nat.mod_add_mod n (2 ^ 64) m
  | time id => exact addU64_min_left n m
  | take dim => exact addU64_min_left n m

/-- **The invariant** of a run from `l`: what was taken are the first uses among `cs`, they are
what the applied list grew by, and each pool holds its old seconds and theirs. -/
structure Tally (l : ExtensionLedger) (cs : List PoolCall) (r : DayRun) : Prop where
  taken : r.taken = firstUses PoolCall.reqId l.applied cs
  applied : r.ledger.applied = l.applied ++ r.taken.map PoolCall.reqId
  pools : ∀ a, r.ledger.pool a = settle a (l.pool a + totalTo a r.taken)

theorem firstUses_append_singleton (seen : List String) (cs : List PoolCall) (c : PoolCall) :
    firstUses PoolCall.reqId seen (cs ++ [c]) =
      firstUses PoolCall.reqId seen cs ++
        if c.reqId ∈ seen ++ (firstUses PoolCall.reqId seen cs).map PoolCall.reqId then []
        else [c] := by
  induction cs generalizing seen with
  | nil => simp [firstUses]
  | cons d cs ih =>
    by_cases hd : d.reqId ∈ seen
    · rw [List.cons_append, firstUses_cons_of_mem hd, firstUses_cons_of_mem hd, ih]
    · rw [List.cons_append, firstUses_cons_of_not_mem hd, firstUses_cons_of_not_mem hd, ih]
      simp

theorem tally_call {cs : List PoolCall} {r : DayRun} (h : Tally l cs r)
    (hday : r.ledger.dayKeyAt zones c.now = r.ledger.dayKey) :
    Tally l (cs ++ [c]) (r.call zones c) := by
  have hmem : c.reqId ∈ r.ledger.applied ↔
      c.reqId ∈ l.applied ++ (firstUses PoolCall.reqId l.applied cs).map PoolCall.reqId := by
    rw [h.applied, h.taken]
  unfold DayRun.call
  by_cases hin : c.reqId ∈ r.ledger.applied
  · rw [run_of_mem hday hin]
    refine ⟨?_, h.applied, h.pools⟩
    rw [firstUses_append_singleton, if_pos (hmem.mp hin), List.append_nil]
    exact h.taken
  · obtain ⟨htrue, hcred⟩ := run_of_not_mem hday hin
    rw [show c.run zones r.ledger = (true, (c.run zones r.ledger).2) from Prod.ext htrue rfl]
    refine ⟨?_, ?_, ?_⟩
    · rw [firstUses_append_singleton, if_neg (fun hc => hin (hmem.mpr hc)), ← h.taken]
    · rw [hcred.applied, h.applied]
      simp
    · intro a
      have hsum : totalTo a (r.taken ++ [c]) = totalTo a r.taken + c.secsTo a := by
        simp [totalTo]
      rw [hsum, ← Nat.add_assoc, ← settle_add, ← h.pools a]
      rcases hcred.pools a with ⟨hsame, hzero⟩ | hadd
      · rw [hsame, hzero, Nat.add_zero, h.pools a]
        exact (settle_of_le (settle_le a _)).symm
      · exact hadd

/-- Re-keying within the day keeps every pool. -/
theorem reconcile_of_current {z : String} {now : Int} (h : l.dayKeyAt zones now = l.dayKey) :
    (l.reconcile zones z now).applied = l.applied ∧
      ∀ a, (l.reconcile zones z now).pool a = l.pool a := by
  unfold reconcile
  split
  · exact ⟨rfl, fun _ => rfl⟩
  · rw [roll_of_current h]
    refine ⟨rfl, ?_⟩
    rintro ((_ | _) | id | id | (_ | _)) <;> rfl

theorem tally_step {cs : List PoolCall} {r : DayRun} (h : Tally l cs r) {a : DayAction}
    (hday : DayRun.InDay zones r a) : Tally l (cs ++ callsOf [a]) (r.step zones a) := by
  cases a with
  | call c => exact tally_call h hday
  | reconcile tz now =>
    obtain ⟨happlied, hpools⟩ := reconcile_of_current (z := tz) hday
    rw [callsOf, callsOf, List.append_nil]
    exact ⟨h.taken, happlied.trans h.applied, fun a => (hpools a).trans (h.pools a)⟩
  | restart =>
    rw [callsOf, callsOf, List.append_nil]
    exact h

theorem callsOf_cons (a : DayAction) (as : List DayAction) :
    callsOf (a :: as) = callsOf [a] ++ callsOf as := by
  cases a <;> rfl

theorem tally_run {cs : List PoolCall} {r : DayRun} (h : Tally l cs r) {as : List DayAction}
    (hday : Obeys (DayRun.step zones) (DayRun.InDay zones) r as) :
    Tally l (cs ++ callsOf as) (as.foldl (DayRun.step zones) r) := by
  induction as generalizing r cs with
  | nil => rwa [callsOf, List.append_nil]
  | cons a as ih =>
    rw [callsOf_cons, ← List.append_assoc]
    exact ih (tally_step h hday.1) hday.2

theorem tally_start (hl : l.Bounded) (now : Int) :
    Tally (l.roll zones now) [] (DayRun.start zones l now) := by
  refine ⟨rfl, (List.append_nil _).symm, ?_⟩
  intro a
  refine (settle_of_le (n := (l.roll zones now).pool a) ?_).symm
  unfold roll
  split
  · exact hl a
  · rcases a with (_ | _) | id | id | (_ | _) <;> exact Nat.zero_le _

/-- Every pool reads zero. -/
structure AllZero (zones : Zones) (l : ExtensionLedger) (now : Int) : Prop where
  schedule : l.scheduleExtraSecs zones now = 0
  budget : l.budgetExtraSecs zones now = 0
  bucket : ∀ id, l.bucketExtraSecs zones now id = 0
  time : ∀ id, l.timeExtraSecs zones now id = 0
  scheduleTaken : l.scheduleDeductedSecs zones now = 0
  budgetTaken : l.budgetDeductedSecs zones now = 0

/-- On another local day than the ledger's every pool reads zero. -/
theorem allZero_of_other_day {t now : Int} (ht : l.dayKeyAt zones t = l.dayKey)
    (hnow : (l.zone zones).localDay now ≠ (l.zone zones).localDay t) : AllZero zones l now := by
  have hstale : l.stale zones now = true := by
    rw [stale, decide_eq_true_eq, ← ht]
    exact fun hkey => hnow ((Tz.dayKey_eq_iff _ _ _).mp hkey)
  constructor <;> simp [scheduleExtraSecs, budgetExtraSecs, bucketExtraSecs, timeExtraSecs,
    scheduleDeductedSecs, budgetDeductedSecs, hstale]

/-- The run of some actions on the day of `now`. -/
def dayRun (zones : Zones) (l : ExtensionLedger) (now : Int) (as : List DayAction) : DayRun :=
  as.foldl (DayRun.step zones) (DayRun.start zones l now)

/-- The actions of such a run all lie within the day. -/
def WithinDay (zones : Zones) (l : ExtensionLedger) (now : Int) (as : List DayAction) : Prop :=
  Obeys (DayRun.step zones) (DayRun.InDay zones) (DayRun.start zones l now) as

instance (zones : Zones) (l : ExtensionLedger) (now : Int) (as : List DayAction) :
    Decidable (WithinDay zones l now as) :=
  inferInstanceAs (Decidable (Obeys _ _ _ _))

theorem tally_dayRun (hl : l.Bounded) {now : Int} {as : List DayAction}
    (hday : WithinDay zones l now as) :
    Tally (l.roll zones now) (callsOf as) (dayRun zones l now as) := by
  have h := tally_run (tally_start hl now) hday
  rwa [List.nil_append] at h

/-- **One request id buys one top-up.**  In every run within a local day the calls that answer
`true` are the first uses of ids not yet applied, whichever pool they address; every pool
holds what it held and the sum of their amounts, as 64-bit numbers; calls under distinct ids
give the same answers and the same pools in every order; and on every other local day every
pool reads zero. -/
theorem one_id_one_topup (zones : Zones) {l : ExtensionLedger} (hl : l.Bounded) (now : Int)
    {as : List DayAction} (hday : WithinDay zones l now as) :
    ((dayRun zones l now as).taken =
        firstUses PoolCall.reqId (l.roll zones now).applied (callsOf as) ∧
      ((dayRun zones l now as).taken.map PoolCall.reqId).Nodup) ∧
    (∀ a, (dayRun zones l now as).ledger.pool a =
      settle a ((l.roll zones now).pool a + totalTo a (dayRun zones l now as).taken)) ∧
    (∀ as', WithinDay zones l now as' → (callsOf as).Perm (callsOf as') →
      ((callsOf as).map PoolCall.reqId).Nodup →
        (dayRun zones l now as).taken.Perm (dayRun zones l now as').taken ∧
        ∀ a, (dayRun zones l now as).ledger.pool a = (dayRun zones l now as').ledger.pool a) ∧
    ∀ t t', (dayRun zones l now as).ledger.dayKeyAt zones t =
        (dayRun zones l now as).ledger.dayKey →
      ((dayRun zones l now as).ledger.zone zones).localDay t' ≠
        ((dayRun zones l now as).ledger.zone zones).localDay t →
      AllZero zones (dayRun zones l now as).ledger t' := by
  have htally := tally_dayRun hl hday
  refine ⟨⟨htally.taken, ?_⟩, htally.pools, ?_, fun t t' => allZero_of_other_day⟩
  · rw [htally.taken]
    exact nodup_firstUses _
  · intro as' hday' hperm hnodup
    have htally' := tally_dayRun hl hday'
    have htaken : (dayRun zones l now as).taken.Perm (dayRun zones l now as').taken := by
      rw [htally.taken, htally'.taken]
      exact firstUses_perm hperm hnodup
    refine ⟨htaken, ?_⟩
    intro a
    rw [htally.pools a, htally'.pools a, totalTo, totalTo, (htaken.map _).sum_eq]

/-- UTC, and a zone an hour ahead of it. -/
def twoZones : Zones := fun name =>
  if name = "UTC" then some Tz.utc else if name = "Etc/GMT-1" then some ⟨3600, [], by decide⟩ else none

def freshLedger : ExtensionLedger := .new twoZones "UTC" 1782734400

/-- A grant, the same id at a bucket, an edit of the zone, a named time and a take-back. -/
def oneAfternoon : List DayAction :=
  [.call ⟨1782734400, "r1", 30, .give .budget⟩, .call ⟨1782734460, "r1", 10, .bucket "play"⟩,
    .reconcile "Etc/GMT-1" 1782734500, .call ⟨1782734520, "r2", 15, .time "homework"⟩, .restart,
    .call ⟨1782734580, "r3", 5, .take .schedule⟩]

theorem one_id_one_topup_oneAfternoon :
    (dayRun twoZones freshLedger 1782734400 oneAfternoon).ledger.pool (.give .budget) = 1800 ∧
      (dayRun twoZones freshLedger 1782734400 oneAfternoon).ledger.pool (.bucket "play") = 0 := by
  have hbounded : freshLedger.Bounded := by
    rintro ((_ | _) | id | id | (_ | _)) <;> exact Nat.zero_le _
  have hday : WithinDay twoZones freshLedger 1782734400 oneAfternoon := by decide +kernel
  have hlaw := one_id_one_topup twoZones hbounded 1782734400 hday
  exact ⟨(hlaw.2.1 (.give .budget)).trans (by decide +kernel),
    (hlaw.2.1 (.bucket "play")).trans (by decide +kernel)⟩

/-- Two named times topped up one after the other. -/
def twoTopups (first second : String) : List DayAction :=
  [.call ⟨1782734400, first, 15, .time first⟩, .call ⟨1782734400, second, 15, .time second⟩]

/-- **What order and width still show.**  Which named pool is the most recent one is decided by
the order of the calls, and a pool at the top of its range starts again from zero. -/
theorem one_id_one_topup_exceptions :
    (dayRun twoZones freshLedger 1782734400 (twoTopups "a" "b")).ledger.mostRecentNamedPoolAmong
        twoZones 1782734400 (fun _ => true) = some "b" ∧
      (dayRun twoZones freshLedger 1782734400 (twoTopups "b" "a")).ledger.mostRecentNamedPoolAmong
        twoZones 1782734400 (fun _ => true) = some "a" ∧
      ({ freshLedger with scheduleSecs := 2 ^ 64 - 1 }.apply twoZones 1782734400 "r1" 1
        .schedule).2.scheduleSecs = 59 := by
  decide +kernel

end ExtensionLedger
end Kintrinsic
