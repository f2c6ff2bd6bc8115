import Kintrinsic.Binary64
import Kintrinsic.StatusSeq
import Mathlib.Order.WithBot

/-! # Admitting a status

The guardian keeps one reading for each device.  Between two that carry a sequence number the higher
wins; a reading without one never displaces one that has it; and where the stored one has none the
time stamps decide, with five minutes of tolerance for a device that has just begun to count. -/
namespace Kintrinsic

/-- A status as the guardian's app reads it. -/
structure DeviceStatus where
  subject : PubKey
  machine : PubKey
  ts : Nat
  clockSteppedBackFrom : Option Nat
  seq : Option Nat
  report : Value
deriving DecidableEq

/-- `parseStatus`: every number is read as one of JSON's. -/
def parseStatus (s : StatusPayload) : DeviceStatus where
  subject := s.subject
  machine := s.machine
  ts := Binary64.ofNat s.ts
  clockSteppedBackFrom := s.clockSteppedBackFrom.map Binary64.ofNat
  seq := s.seq.map Binary64.ofNat
  report := s.report

/-- A stored reading, with the guardian's own note of how it got there. -/
structure LiveDeviceStatus extends DeviceStatus where
  clockWentBackwards : Bool
  clockWentBackwardsAt : Option Int
deriving DecidableEq

/-- A reading fresh off the wire. -/
def DeviceStatus.live (s : DeviceStatus) : LiveDeviceStatus := ⟨s, false, none⟩

def flagMaxAgeMs : Int := 24 * 3600 * 1000

def upgradeTsToleranceSecs : Int := 5 * 60

section
variable (cur : LiveDeviceStatus) (status : DeviceStatus) (nowMs : Int)

/-- `carryOrClearFlag`. -/
def carryOrClearFlag : LiveDeviceStatus :=
  if !cur.clockWentBackwards then status.live
  else
    let threshold := cur.clockSteppedBackFrom
    let caughtUp := threshold.any fun from_ => decide (from_ ≤ status.ts)
    let timedOut := cur.clockWentBackwardsAt.any fun at_ => decide (flagMaxAgeMs ≤ nowMs - at_)
    if caughtUp || timedOut then status.live
    else ⟨{ status with clockSteppedBackFrom := threshold }, true, cur.clockWentBackwardsAt⟩

/-- `admitWithBackwardCheck`. -/
def admitWithBackwardCheck : LiveDeviceStatus :=
  let wentBackwardsNow := status.clockSteppedBackFrom.isSome || decide (status.ts < cur.ts)
  if !wentBackwardsNow then carryOrClearFlag cur status nowMs
  else
    ⟨{ status with clockSteppedBackFrom := some (status.clockSteppedBackFrom.getD cur.ts) }, true,
      some nowMs⟩

/-- The ward vouches that its clock stepped back from at or past the stored reading. -/
def vouched : Bool := status.clockSteppedBackFrom.any fun from_ => decide (cur.ts ≤ from_)

/-- `admitByTsRule`; `none` is `cur` itself. -/
def admitByTsRule : Option LiveDeviceStatus :=
  if cur.ts < status.ts then some (carryOrClearFlag cur status nowMs)
  else if status.ts = cur.ts then none
  else if vouched cur status then some ⟨status, true, some nowMs⟩
  else none

/-- `admitOnUpgrade`; `none` is `cur` itself. -/
def admitOnUpgrade : Option LiveDeviceStatus :=
  if cur.ts ≤ status.ts then some (admitWithBackwardCheck cur status nowMs)
  else
    let withinUpgradeTolerance := decide ((cur.ts : Int) - upgradeTsToleranceSecs ≤ status.ts)
    if withinUpgradeTolerance || vouched cur status then
      some (admitWithBackwardCheck cur status nowMs)
    else none

end

/-- `mergeDeviceStatus`; `none` is the current reading itself, returned as it is. -/
def mergeDeviceStatus (cur : Option LiveDeviceStatus) (status : DeviceStatus) (nowMs : Int) :
    Option LiveDeviceStatus :=
  match cur with
  | none => some status.live
  | some cur =>
    match status.seq, cur.seq with
    | some n, some m => if n ≤ m then none else some (admitWithBackwardCheck cur status nowMs)
    | some _, none => admitOnUpgrade cur status nowMs
    | none, some _ => none
    | none, none => admitByTsRule cur status nowMs

/-- The live readings, by device. -/
abbrev DeviceStatuses := PubKey → Option LiveDeviceStatus

/-- The update of the live map in `ingestDeviceStatus`. -/
def setDeviceStatus (prev : DeviceStatuses) (status : DeviceStatus) (nowMs : Int) :
    DeviceStatuses :=
  match mergeDeviceStatus (prev status.machine) status nowMs with
  | none => prev
  | some merged => Function.update prev status.machine (some merged)

/-! ## What a merge does -/

/-- A stored reading is of a status: but for the note about the clock it is that status. -/
def LiveDeviceStatus.Of (l : LiveDeviceStatus) (s : DeviceStatus) : Prop :=
  { l.toDeviceStatus with clockSteppedBackFrom := s.clockSteppedBackFrom } = s

section
variable {cur l : LiveDeviceStatus} {s : DeviceStatus} {nowMs : Int}

theorem LiveDeviceStatus.Of.seq_eq (h : l.Of s) : l.seq = s.seq := by
  unfold Of at h
  rw [← h]

theorem LiveDeviceStatus.Of.ts_eq (h : l.Of s) : l.ts = s.ts := by
  unfold Of at h
  rw [← h]

theorem live_of : s.live.Of s := rfl

theorem carryOrClearFlag_of : (carryOrClearFlag cur s nowMs).Of s := by
  unfold carryOrClearFlag
  split
  · rfl
  · dsimp only
    split <;> rfl

theorem admitWithBackwardCheck_of : (admitWithBackwardCheck cur s nowMs).Of s := by
  unfold admitWithBackwardCheck
  dsimp only
  split
  · exact carryOrClearFlag_of
  · rfl

theorem admitByTsRule_of (h : admitByTsRule cur s nowMs = some l) : l.Of s ∧ s.ts ≠ cur.ts := by
  unfold admitByTsRule at h
  split at h
  · rename_i hlt
    cases h
    exact ⟨carryOrClearFlag_of, hlt.ne'⟩
  · split at h
    · cases h
    · rename_i hne
      split at h
      · cases h
        exact ⟨rfl, hne⟩
      · cases h

theorem admitOnUpgrade_of (h : admitOnUpgrade cur s nowMs = some l) : l.Of s := by
  unfold admitOnUpgrade at h
  dsimp only at h
  split at h
  · cases h
    exact admitWithBackwardCheck_of
  · split at h
    · cases h
      exact admitWithBackwardCheck_of
    · cases h

/-- What is stored is the reading that came. -/
theorem mergeDeviceStatus_of {cur : Option LiveDeviceStatus}
    (h : mergeDeviceStatus cur s nowMs = some l) : l.Of s := by
  unfold mergeDeviceStatus at h
  split at h
  · cases h
    exact live_of
  · split at h
    · split at h
      · cases h
      · cases h
        exact admitWithBackwardCheck_of
    · exact admitOnUpgrade_of h
    · cases h
    · exact (admitByTsRule_of h).1

/-- **A sequenced reading gives way only to a higher number.** -/
theorem mergeDeviceStatus_replaces {m : Nat} (hcur : cur.seq = some m)
    (h : mergeDeviceStatus (some cur) s nowMs = some l) : ∃ n, s.seq = some n ∧ m < n := by
  unfold mergeDeviceStatus at h
  dsimp only at h
  rw [hcur] at h
  cases hs : s.seq with
  | none =>
    rw [hs] at h
    cases h
  | some n =>
    rw [hs] at h
    dsimp only at h
    split at h
    · cases h
    · exact ⟨n, rfl, by omega⟩

/-- **What is stored anew differs**, so a delivery that changes nothing returns what there is. -/
theorem mergeDeviceStatus_ne {cur : Option LiveDeviceStatus}
    (h : mergeDeviceStatus cur s nowMs = some l) : cur ≠ some l := by
  rintro rfl
  have hof := mergeDeviceStatus_of h
  cases hl : l.seq with
  | some m =>
    obtain ⟨n, hn, hlt⟩ := mergeDeviceStatus_replaces hl h
    rw [hof.seq_eq, hn] at hl
    exact absurd (Option.some.inj hl) hlt.ne'
  | none =>
    have hs : s.seq = none := hof.seq_eq ▸ hl
    unfold mergeDeviceStatus at h
    dsimp only at h
    rw [hs, hl] at h
    exact (admitByTsRule_of h).2 hof.ts_eq.symm

/-- A higher number displaces a sequenced reading. -/
theorem mergeDeviceStatus_isSome (nowMs : Int) {n m : Nat} (hcur : cur.seq = some m)
    (hs : s.seq = some n)
    (h : m < n) : (mergeDeviceStatus (some cur) s nowMs).isSome := by
  unfold mergeDeviceStatus
  dsimp only
  rw [hs, hcur]
  dsimp only
  rw [if_neg (by omega)]
  rfl

/-- The first number displaces a reading that has none, if its stamp is not far behind. -/
theorem mergeDeviceStatus_upgrade (nowMs : Int) {n : Nat} (hcur : cur.seq = none)
    (hs : s.seq = some n) (h : (cur.ts : Int) - upgradeTsToleranceSecs ≤ s.ts) :
    (mergeDeviceStatus (some cur) s nowMs).isSome := by
  unfold mergeDeviceStatus
  dsimp only
  rw [hs, hcur]
  unfold admitOnUpgrade
  dsimp only
  split
  · rfl
  · rw [decide_eq_true h, Bool.true_or, if_pos rfl]
    rfl

end
end Kintrinsic
