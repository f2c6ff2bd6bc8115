import Kintrinsic.MachineWord
import Kintrinsic.WireTypes
import Mathlib.Data.Option.Basic

/-! # The consumed-id store

The replay memory of `charter-sys`: which request ids a grant has been accepted for,
each with the instant it may be forgotten at.  The in-memory and the file store differ
only in that the file store can fail, and a failing call leaves the file as it was. -/
namespace Kintrinsic

/-- A failure of a system-layer port. -/
inductive SysError
  | notImplemented
  | unsupported (what : String)
  | notFound
  | io (message : String)
  | crypto (message : String)
  | conflict (message : String)
deriving DecidableEq

/-- The persisted map of a `ConsumedIdStore`, and the error its next call meets. -/
structure ConsumedIds where
  entries : ReqId → Option Nat
  fault : Option SysError

namespace ConsumedIds

def empty : ConsumedIds := ⟨fun _ => none, none⟩

/-- Whether an id is still remembered. -/
def isConsumed (s : ConsumedIds) (id : ReqId) : Bool := (s.entries id).isSome

/-- The map after one insertion. -/
def insert (s : ConsumedIds) (id : ReqId) (retain : Nat) : ConsumedIds :=
  { s with entries := fun k => if k = id then some retain else s.entries k }

/-- `check_and_consume`: whether the id is new, and the store that now holds it. -/
def checkAndConsume (s : ConsumedIds) (id : ReqId) (exp : Nat) :
    Except SysError Bool × ConsumedIds :=
  match s.fault with
  | some e => (.error e, s)
  | none => if s.isConsumed id then (.ok false, s) else (.ok true, s.insert id exp)

/-- `purge_expired`: keep what is retained strictly past `now`. -/
def purgeExpired (s : ConsumedIds) (now : Nat) : Except SysError Unit × ConsumedIds :=
  match s.fault with
  | some e => (.error e, s)
  | none => (.ok (), { s with entries := fun k => (s.entries k).filter (now < ·) })

@[simp] theorem insert_entries_self (s : ConsumedIds) (id : ReqId) (retain : Nat) :
    (s.insert id retain).entries id = some retain := if_pos rfl

theorem insert_entries_of_ne {s : ConsumedIds} {id k : ReqId} {retain : Nat} (h : k ≠ id) :
    (s.insert id retain).entries k = s.entries k := if_neg h

/-- What `check_and_consume` does when it answers `true`: the id was new, and only it
was added. -/
theorem checkAndConsume_new {s s' : ConsumedIds} {id : ReqId} {exp : Nat}
    (h : s.checkAndConsume id exp = (.ok true, s')) :
    s.entries id = none ∧ s' = s.insert id exp := by
  unfold checkAndConsume at h
  split at h
  · cases h
  · split at h
    · cases h
    · rename_i hnew
      exact ⟨by simpa [isConsumed] using hnew, (Prod.mk.inj h).2.symm⟩

/-- Any other answer leaves the store alone. -/
theorem checkAndConsume_frame {s s' : ConsumedIds} {id : ReqId} {exp : Nat}
    {r : Except SysError Bool} (h : s.checkAndConsume id exp = (r, s')) (hr : r ≠ .ok true) :
    s' = s := by
  unfold checkAndConsume at h
  split at h
  · exact (Prod.mk.inj h).2.symm
  · split at h
    · exact (Prod.mk.inj h).2.symm
    · exact absurd (Prod.mk.inj h).1.symm hr

/-- A sweep leaves an entry alone, or forgets one whose retention is over. -/
theorem purgeExpired_entries (s : ConsumedIds) (now : Nat) (id : ReqId) :
    (s.purgeExpired now).2.entries id = s.entries id ∨
      (s.purgeExpired now).2.entries id = none ∧
        ∃ retain, s.entries id = some retain ∧ retain ≤ now := by
  unfold purgeExpired
  split
  · exact Or.inl rfl
  · cases h : s.entries id with
    | none => simp [h]
    | some retain =>
      by_cases hr : now < retain
      · exact Or.inl (by simp [h, hr])
      · exact Or.inr ⟨by simpa [h] using Nat.not_lt.mp hr, retain, rfl, Nat.not_lt.mp hr⟩

end ConsumedIds
end Kintrinsic
