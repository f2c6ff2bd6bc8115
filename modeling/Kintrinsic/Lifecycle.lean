import Kintrinsic.Registry
import Kintrinsic.VerifyGrant
import Mathlib.Data.List.Sort

/-! # The request lifecycle

The reducer of `lifecycle.rs`: the state a record moves to on an event, and the effects that
the broker carries out.  Only an allow yields `enact`, and what is terminal stays as it is. -/
namespace Kintrinsic

open MachineWord

/-- Lifecycle state of a brokered request. -/
inductive RequestState
  | pending
  | enacting
  | enacted
  | denied
  | failed
  | rejected
  | expired
  | cancelled
deriving DecidableEq

def RequestState.isTerminal : RequestState → Bool
  | pending | enacting => false
  | _ => true

/-- A persisted brokered-request record. -/
structure RequestRecord where
  reqId : ReqId
  nonce : Nonce
  op : OpType
  state : RequestState
  createdAt : Nat
  detail : Option String
  sourcePath : Option String
  callerUid : Option UInt32
deriving DecidableEq

/-- Root sees every request, anyone else only their own. -/
def RequestRecord.visibleTo (r : RequestRecord) (uid : UInt32) : Bool :=
  uid == 0 || r.callerUid == some uid

/-- Records by their request id. -/
abbrev Records := Registry RequestRecord.reqId

/-! ## The reducer -/

/-- What moves a record along. -/
inductive Event
  | grantVerified (vg : VerifiedGrant)
  | grantRejected (e : VerifyError)
  | enactSucceeded
  | enactFailed (message : String)
  | cancel
  | expire

inductive AuditOutcome
  | enacted
  | denied
  | failed
  | locked
  | thawed
deriving DecidableEq

structure AuditRecord where
  outcome : AuditOutcome
  op : OpType
deriving DecidableEq

/-- What the broker must carry out. -/
inductive Effect
  | enact (vg : VerifiedGrant)
  | audit (a : AuditRecord)
  | notify
  | persist
deriving DecidableEq

/-- `transition`. -/
def transition (rec : RequestRecord) (ev : Event) : RequestState × List Effect :=
  match rec.state, ev with
  | .pending, .grantVerified vg =>
    match vg.outcome with
    | .allow _ => (.enacting, [.enact vg, .notify, .persist])
    | .deny => (.denied, [.audit ⟨.denied, rec.op⟩, .notify, .persist])
  | .pending, .grantRejected _ => (.pending, [])
  | .pending, .cancel => (.cancelled, [.persist])
  | .pending, .expire => (.expired, [.notify, .persist])
  | .enacting, .enactSucceeded => (.enacted, [.audit ⟨.enacted, rec.op⟩, .notify, .persist])
  | .enacting, .enactFailed _ => (.failed, [.audit ⟨.failed, rec.op⟩, .notify, .persist])
  | state, _ => (state, [])

/-- The record after an event. -/
def RequestRecord.after (rec : RequestRecord) (ev : Event) : RequestRecord :=
  { rec with state := (transition rec ev).1 }

@[simp] theorem RequestRecord.after_reqId (rec : RequestRecord) (ev : Event) :
    (rec.after ev).reqId = rec.reqId := rfl

/-- **Only an allow of a pending request enacts.** -/
theorem enact_mem_transition {rec : RequestRecord} {ev : Event} {vg : VerifiedGrant}
    (h : .enact vg ∈ (transition rec ev).2) :
    rec.state = .pending ∧ ev = .grantVerified vg ∧ (∃ params, vg.outcome = .allow params) ∧
      (transition rec ev).1 = .enacting := by
  unfold transition at h ⊢
  split at h
  · rename_i vg' hstate
    split at h
    · rename_i params hout
      simp only [List.mem_cons, Effect.enact.injEq, reduceCtorEq, List.not_mem_nil, or_false] at h
      subst h
      rw [hstate]
      simp only [hout]
      exact ⟨trivial, trivial, ⟨params, rfl⟩, trivial⟩
    · simp at h
  all_goals simp at h

/-- **Terminal states are inert.** -/
theorem transition_terminal {rec : RequestRecord} (h : rec.state.isTerminal = true) (ev : Event) :
    transition rec ev = (rec.state, []) := by
  unfold transition
  split <;> simp_all [RequestState.isTerminal]

/-! ## Ageing out and pruning -/

/-- How long a request waits for its guardian. -/
def pendingTtlSecs : Nat := 24 * 3600

/-- The most terminal records kept. -/
def maxTerminalRecords : Nat := 256

/-- Whether a record is past its time. -/
def RequestRecord.isStale (now : Nat) (r : RequestRecord) : Bool :=
  r.state == .pending && addU64 r.createdAt pendingTtlSecs ≤ now

/-- One round of `expire_stale_pending_records`. -/
def RequestRecord.aged (now : Nat) (r : RequestRecord) : RequestRecord :=
  if r.isStale now then r.after .expire else r

@[simp] theorem RequestRecord.aged_reqId (now : Nat) (r : RequestRecord) :
    (r.aged now).reqId = r.reqId := by
  unfold aged
  split <;> rfl

namespace Records
variable (m : Records)

/-- The records that age out now, as the reducer leaves them. -/
def expired (now : Nat) : Records :=
  (m.filter (·.isStale now)).update (·.after .expire) fun r => r.after_reqId .expire

def age (now : Nat) : Records := m.update (·.aged now) (RequestRecord.aged_reqId now)

/-- Older records first; of one instant, the smaller id first. -/
def olderFirst (a b : RequestRecord) : Bool :=
  a.createdAt < b.createdAt ||
    (a.createdAt == b.createdAt && a.reqId.bytes.toNat ≤ b.reqId.bytes.toNat)

/-- The ids of the terminal records past the cap, oldest first. -/
def excess (max : Nat) : List ReqId :=
  let terminal := m.entries.filter fun r => r.state.isTerminal
  ((terminal.insertionSort fun a b => olderFirst a b = true).take (terminal.length - max)).map
    RequestRecord.reqId

def removeAll (ids : List ReqId) : Records := m.filter fun r => r.reqId ∉ ids

variable {m} {id : ReqId}

theorem get?_removeAll (ids : List ReqId) :
    (m.removeAll ids).get? id = if id ∈ ids then none else m.get? id := by
  rw [removeAll, Registry.get?_filter]
  cases h : m.get? id with
  | none => exact (ite_self none).symm
  | some r =>
    have hid : r.reqId = id := Registry.key_of_get? h
    by_cases hmem : id ∈ ids
    · rw [if_pos hmem]
      exact Option.filter_some_neg (by simp [hid, hmem])
    · rw [if_neg hmem]
      exact Option.filter_some_pos (by simp [hid, hmem])

/-- Only terminal records are in excess. -/
theorem terminal_of_mem_excess {max : Nat} {r : RequestRecord} (h : id ∈ m.excess max)
    (hr : m.get? id = some r) : r.state.isTerminal = true := by
  obtain ⟨r', hmem, hid⟩ := List.mem_map.mp h
  have hmem' := (List.mem_insertionSort _).mp (List.mem_of_mem_take hmem)
  obtain ⟨hentries, hterminal⟩ := List.mem_filter.mp hmem'
  have hget : m.get? id = some r' := Registry.get?_eq_some.mpr ⟨hentries, hid⟩
  rw [hr] at hget
  cases hget
  exact hterminal

/-- A record is found among those that age out when it is stale. -/
theorem get?_expired (now : Nat) : (m.expired now).get? id =
    ((m.get? id).filter (·.isStale now)).map (·.after .expire) := by
  rw [expired, Registry.get?_update, Registry.get?_filter]

theorem get?_age (now : Nat) : (m.age now).get? id = (m.get? id).map (·.aged now) :=
  Registry.get?_update _

end Records
end Kintrinsic
