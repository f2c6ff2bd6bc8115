import Kintrinsic.ClauseStore
import Kintrinsic.VerifyClause

/-! # Clause intake

What the broker does with a delivered clause or usage view: routing to a slot, the slot's
floor, authentication against it, and the store's own put. -/
namespace Kintrinsic

/-- What a broker is bound to: the pinned guardian, its own machine key and the pairing's sole
subject. -/
structure Link where
  guardian : PubKey
  machine : PubKey
  subject : PubKey
deriving DecidableEq

/-- What became of a delivered clause. -/
inductive ClauseDisposition
  | stored
  | unchanged
  | superseded
  | refused
  | writeFailed
deriving DecidableEq

/-- What the poll counts. -/
inductive ClauseOutcome
  | stored
  | refused
  | writeFailed
deriving DecidableEq

namespace ClauseDisposition

def outcome : ClauseDisposition → ClauseOutcome
  | stored => .stored
  | writeFailed => .writeFailed
  | unchanged | superseded | refused => .refused

def ack : ClauseDisposition → AckResult
  | stored => .applied
  | unchanged => .unchanged
  | superseded => .superseded
  | refused => .refused
  | writeFailed => .failed

end ClauseDisposition

/-- The key of the usage view beside a child's clauses. -/
def usageSyncStoreKey : Nat := 100

/-- What the file accesses of one delivery meet: the floor read, then the put. -/
structure IntakeIo where
  read : Option SysError
  put : SlotIo
deriving DecidableEq

def IntakeIo.ok : IntakeIo := ⟨none, .ok⟩

variable (crypto : Crypto) (codec : StandingCodec) (link : Link)

/-- The slot of a clause: an absent subject is the sole one, except that `content` is
machine-wide. -/
def ClausePayload.slot (payload : ClausePayload) : ClauseSlot :=
  match payload.subject with
  | some subject => .child subject
  | none =>
    match payload.kind with
    | .content => .machine
    | _ => .child link.subject

/-- `stale_clause_disposition`. -/
def staleClauseDisposition (files : ClauseFiles) (slot : ClauseSlot) (key : Nat)
    (floor : Option ReplayFloor) (payload : ClausePayload) : ClauseDisposition :=
  if floor ≠ some (.record payload.issuedAt) then .superseded
  else
    let held := match files.get slot key with
      | .ok (some json) => codec.value json
      | _ => none
    if held = some payload.body then .unchanged else .superseded

/-- `unreadable_floor_outcome`. -/
def unreadableFloorOutcome (event : NostrEvent) (kind : ClauseKind) : ClauseDisposition :=
  match verifyClause crypto codec event link.guardian kind none with
  | .ok _ => .writeFailed
  | .error _ => .refused

/-- `clause_disposition`, of a broker that has not been released. -/
def clauseDisposition (io : IntakeIo) (files : ClauseFiles) (event : NostrEvent) :
    ClauseDisposition × ClauseFiles :=
  match ClausePayload.fromJson codec event.content with
  | .error _ => (.refused, files)
  | .ok payload =>
    let slot := payload.slot link
    let key := payload.kind.storeKey
    match files.replayFloor io.read slot key with
    | (.error _, files) => (unreadableFloorOutcome crypto codec link event payload.kind, files)
    | (.ok floor, files) =>
      match verifyClause crypto codec event link.guardian payload.kind
        (floor.bind ReplayFloor.verifyBound) with
      | .ok vc =>
        match files.put io.put slot key vc.issuedAt vc.body with
        | (.ok true, files) => (.stored, files)
        | (.ok false, files) => (.superseded, files)
        | (.error _, files) => (.writeFailed, files)
      | .error .staleIssuedAt => (staleClauseDisposition codec files slot key floor payload, files)
      | .error _ => (.refused, files)

/-- `usage_sync_result`, of a broker that has not been released. -/
def usageSyncResult (io : IntakeIo) (files : ClauseFiles) (event : NostrEvent) :
    AckResult × ClauseFiles :=
  match UsageSyncPayload.fromJson codec event.content with
  | .error _ => (.refused, files)
  | .ok payload =>
    match files.highestIssuedAt io.read (.child payload.subject) usageSyncStoreKey with
    | (.error _, files) =>
      match verifyUsageSync crypto codec event link.guardian none with
      | .ok _ => (.failed, files)
      | .error _ => (.refused, files)
    | (.ok prev, files) =>
      match verifyUsageSync crypto codec event link.guardian prev with
      | .ok vs =>
        match files.put io.put (.child payload.subject) usageSyncStoreKey vs.ts
          (codec.usageSyncJson vs.payload) with
        | (.ok true, files) => (.applied, files)
        | (.ok false, files) => (.unchanged, files)
        | (.error _, files) => (.failed, files)
      | .error .staleTs => (.unchanged, files)
      | .error _ => (.refused, files)

end Kintrinsic
