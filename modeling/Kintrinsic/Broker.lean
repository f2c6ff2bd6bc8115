import Kintrinsic.ClauseIntake
import Kintrinsic.Lifecycle

/-! # The broker

One broker process over its disk: submits, grants on either leg, cancels, sweeps, clauses, usage
views, releases and restarts.  Every entry point runs to its next await point in one step; the
only one inside a handler is the enactor's, so a grant that enacts is two steps with the request
in flight between them.  Handlers hold a turn over both; a submit and a cancel do not take it. -/
namespace Kintrinsic

/-! ## Errors and dispositions -/

inductive EnactError
  | noEnactor
  | terminal (message : String)
  | transient (message : String)
deriving DecidableEq

namespace EnactError

def isTerminal : EnactError → Bool
  | noEnactor | terminal _ => true
  | transient _ => false

def toString : EnactError → String
  | noEnactor => "no enactor for op"
  | terminal message => "terminal: " ++ message
  | transient message => "transient: " ++ message

end EnactError

inductive BrokerError
  | invalid (message : String)
  | rateLimited (message : String)
  | sys (e : SysError)
deriving DecidableEq

/-- Why a grant routed to a pending request did not verify, as far as an ACK says. -/
inductive GrantRejection
  | expired
  | replayed
  | storeFailed
  | invalid
deriving DecidableEq

def GrantRejection.of : VerifyError → GrantRejection
  | .expired => expired
  | .replayed => replayed
  | .store _ => storeFailed
  | _ => invalid

/-- What became of a delivered grant. -/
inductive GrantDisposition
  | malformed
  | noRecord
  | alreadyResolved (state : RequestState)
  | rejected (r : GrantRejection)
  | resolved (state : RequestState)
  | afterRelease
deriving DecidableEq

def GrantDisposition.ack : GrantDisposition → AckResult
  | malformed | noRecord | afterRelease => .refused
  | alreadyResolved state =>
    match state with
    | .enacted | .denied | .enacting => .unchanged
    | .expired | .cancelled => .expired
    | .failed => .failed
    | .rejected | .pending => .refused
  | rejected r =>
    match r with
    | .expired => .expired
    | .replayed | .storeFailed => .failed
    | .invalid => .refused
  | resolved state =>
    match state with
    | .enacted | .denied => .applied
    | .failed => .failed
    | .expired | .cancelled => .expired
    | .pending | .enacting | .rejected => .refused

/-- What a submit publishes. -/
structure RequestPayload where
  v : Nat
  op : OpType
  reqId : ReqId
  nonce : Nonce
  subject : PubKey
  machine : PubKey
  ts : Nat
  params : Value
deriving DecidableEq

/-! ## State -/

/-- What a process runs on and does not change: cryptography, decoders, and the link. -/
structure Facade where
  crypto : Crypto
  grants : GrantCodec
  standing : StandingCodec
  link : Link

/-- A verified grant in the hands of its enactor: the event it came in, the record as the
handler holds it, and the attempt under way. -/
structure InFlight where
  event : NostrEvent
  record : RequestRecord
  grant : VerifiedGrant
  now : Nat
  attempt : Nat
deriving DecidableEq

/-- The accepted submits of each caller, oldest first; no entry is not an empty one. -/
abbrev Submits := Option UInt32 → Option (List Nat)

/-- What one process holds in memory. -/
structure Broker where
  requests : Records
  submits : Submits
  inflight : Option InFlight
  released : Bool

/-- What outlives a process.  A pairing may know when it was made. -/
structure Disk where
  pending : Records
  consumed : ConsumedIds
  clauses : ClauseFiles
  pairing : Option (Option Nat)

/-- A device, with every id that a request was ever filed under. -/
structure Device where
  disk : Disk
  broker : Broker
  drawn : List ReqId

/-- What an entry point answers or lets out. -/
inductive BrokerOutput
  | submitted (callerUid : Option UInt32) (result : Except BrokerError ReqId)
  | published (payload : RequestPayload)
  | requestUpdated (id : ReqId) (state : RequestState)
  | audit (a : AuditRecord) (now : Nat)
  | releaseApplied (issuedAt now : Nat)
  | enacted (j : InFlight)
  | granted (disposition : GrantDisposition)
  | cancelled (id : ReqId) (done : Bool)
  | ingested (ack : AckResult)
deriving DecidableEq

/-- What can happen to a device.  An action carries the clock it reads, what entropy gives it,
and what its file accesses meet. -/
inductive BrokerAction
  | submit (op : OpType) (params : Value) (sourcePath : Option String) (callerUid : Option UInt32)
      (ids : ReqId × Nonce) (now : Nat) (fault : Option SysError)
  | grant (event : NostrEvent) (now : Nat)
  | localGrant (event : NostrEvent) (swept now : Nat)
  | enactReturn (result : Except EnactError Unit)
  | cancel (id : ReqId)
  | cancelAs (uid : UInt32) (id : ReqId)
  | sweep (now : Nat)
  | clause (event : NostrEvent) (io : IntakeIo)
  | usageSync (event : NostrEvent) (io : IntakeIo)
  | release (event : NostrEvent) (now : Nat)
  | markReleased
  | restart (now : Nat)
  | consumedFault (e : Option SysError)

/-- Whether an entry point waits for the handler turn. -/
def BrokerAction.takesTurn : BrokerAction → Bool
  | grant .. | localGrant .. | sweep .. | clause .. | usageSync .. | release .. | markReleased =>
    true
  | _ => false

namespace Device
variable (s : Device)

/-! ## Records -/

/-- Replace what the broker remembers of requests. -/
def setRequests (requests : Records) : Device := { s with broker := { s.broker with requests } }

/-- `persist`. -/
def persist (rec : RequestRecord) : Device :=
  { s with disk := { s.disk with pending := s.disk.pending.put rec } }

/-- Insert into the map in memory. -/
def remember (rec : RequestRecord) : Device := s.setRequests (s.broker.requests.put rec)

def setInflight (inflight : Option InFlight) : Device :=
  { s with broker := { s.broker with inflight } }

/-- `prune_terminal`: what is past the cap goes from memory and disk. -/
def pruneTerminal : Device :=
  let ids := s.broker.requests.excess maxTerminalRecords
  { s with
    disk := { s.disk with pending := s.disk.pending.removeAll ids }
    broker := { s.broker with requests := s.broker.requests.removeAll ids } }

/-- `expire_stale_pending`; it prunes only where something aged out. -/
def expireStalePending (now : Nat) : Device × List BrokerOutput :=
  let expired := s.broker.requests.expired now
  if expired.entries = [] then (s, [])
  else
    let s := { s with
      disk := { s.disk with pending := s.disk.pending.putAll expired }
      broker := { s.broker with requests := s.broker.requests.age now } }
    (s.pruneTerminal, expired.entries.map fun r => .requestUpdated r.reqId r.state)

/-! ## Submits -/

/-- The most unanswered requests of a caller. -/
def maxPendingPerCaller : Nat := 8

/-- The most accepted submits of a caller in one window. -/
def maxSubmitsPerHour : Nat := 12

def submitWindowSecs : Nat := 3600

/-- A caller's requests that are not terminal. -/
def outstanding (callerUid : Option UInt32) : Nat :=
  (s.broker.requests.entries.filter fun r =>
    r.callerUid = callerUid && !r.state.isTerminal).length

/-- The stamps of a window that has moved on. -/
def pruneWindow (now : Nat) (stamps : List Nat) : List Nat :=
  stamps.dropWhile fun t => t < now - submitWindowSecs

def setSubmits (callerUid : Option UInt32) (stamps : Option (List Nat)) : Device :=
  { s with broker := { s.broker with
    submits := fun c => if c = callerUid then stamps else s.broker.submits c } }

/-- `check_caller_caps`. -/
def checkCallerCaps (callerUid : Option UInt32) (now : Nat) : Except BrokerError Unit × Device :=
  if maxPendingPerCaller ≤ s.outstanding callerUid then
    (.error (.rateLimited ("too many requests waiting for your guardian — wait for an answer " ++
      "or try again later")), s)
  else
    let stamps := (s.broker.submits callerUid).map (pruneWindow now)
    -- a window pruned down to nothing loses its entry
    let s := s.setSubmits callerUid (stamps.filter (· ≠ []))
    if maxSubmitsPerHour ≤ (stamps.getD []).length then
      (.error (.rateLimited "you've asked a lot recently — try again in a while"), s)
    else (.ok (), s.setSubmits callerUid (some (stamps.getD [] ++ [now])))

/-- Whether a value is a JSON object. -/
def isObject (value : Value) : Bool := value.toList.head? = some '\x7b'

variable (f : Facade)

/-- `submit_as`, up to its publish. -/
def submit (op : OpType) (params : Value) (sourcePath : Option String)
    (callerUid : Option UInt32) (ids : ReqId × Nonce) (now : Nat) (fault : Option SysError) :
    Device × List BrokerOutput :=
  if ¬isObject params then
    (s, [.submitted callerUid (.error (.invalid "params must be a JSON object"))])
  else
    match s.checkCallerCaps callerUid now with
    | (.error e, s) => (s, [.submitted callerUid (.error e)])
    | (.ok (), s) =>
      let payload : RequestPayload :=
        ⟨1, op, ids.1, ids.2, f.link.subject, f.link.machine, now, params⟩
      let record : RequestRecord := ⟨ids.1, ids.2, op, .pending, now, some "waiting for approval",
        sourcePath, callerUid⟩
      match fault with
      | some e => (s, [.submitted callerUid (.error (.sys e))])
      | none =>
        let s := { s with drawn := ids.1 :: s.drawn }
        ((s.persist record).remember record, [.published payload, .requestUpdated ids.1 .pending,
          .submitted callerUid (.ok ids.1)])

/-! ## Grants -/

/-- Carry out what the reducer asks for, an enactment apart. -/
def perform (rec : RequestRecord) (effects : List Effect) : Device :=
  if .persist ∈ effects then s.persist rec else s

/-- What carrying it out lets out. -/
def performed (rec : RequestRecord) (now : Nat) (effects : List Effect) : List BrokerOutput :=
  effects.filterMap fun
    | .audit a => some (.audit a now)
    | .notify => some (.requestUpdated rec.reqId rec.state)
    | _ => none

/-- The grant the reducer hands to an enactor. -/
def toEnact (effects : List Effect) : Option VerifiedGrant :=
  effects.findSome? fun
    | .enact vg => some vg
    | _ => none

/-- The end of `grant_disposition`: the record is written back unless the live one has been
resolved meanwhile. -/
def settle (rec : RequestRecord) (disposition : GrantDisposition) : Device × List BrokerOutput :=
  let live := s.broker.requests.get? rec.reqId
  let s := if live.any (·.state = .pending) then s.remember rec else s
  (s.pruneTerminal, [.granted disposition])

/-- `grant_disposition`, up to the enactor's await or to its end. -/
def grantDisposition (event : NostrEvent) (now : Nat) : Device × List BrokerOutput :=
  if s.broker.released then (s, [.granted .afterRelease])
  else
    match GrantPayload.fromJson f.grants event.content with
    | .error _ => (s, [.granted .malformed])
    | .ok payload =>
      match s.broker.requests.get? payload.reqId with
      | none => (s, [.granted .noRecord])
      | some r =>
        if r.state ≠ .pending then (s, [.granted (.alreadyResolved r.state)])
        else
          let p : VerifyParams := ⟨f.link.guardian, r.reqId, r.nonce, r.op, now⟩
          match verifyGrant f.crypto f.grants event p s.disk.consumed with
          | (.error e, consumed) =>
            let effects := (transition r (.grantRejected e)).2
            let s := { s with disk := { s.disk with consumed } }
            let r := r.after (.grantRejected e)
            let out := (s.perform r effects).settle r (.rejected (.of e))
            (out.1, performed r now effects ++ out.2)
          | (.ok vg, consumed) =>
            let effects := (transition r (.grantVerified vg)).2
            let s := { s with disk := { s.disk with consumed } }
            let r := r.after (.grantVerified vg)
            let s := s.perform r effects
            match toEnact effects with
            | some vg => (s.setInflight (some ⟨event, r, vg, now, 1⟩), performed r now effects)
            | none =>
              let out := s.settle r (.resolved r.state)
              (out.1, performed r now effects ++ out.2)

def maxEnactAttempts : Nat := 3

/-- The rest of `grant_disposition`, once the enactor's loop is over. -/
def finish (j : InFlight) (ev : Event) : Device × List BrokerOutput :=
  let effects := (transition j.record ev).2
  let record := j.record.after ev
  let out := ((s.setInflight none).perform record effects).settle record (.resolved record.state)
  (out.1, performed record j.now effects ++ out.2)

/-- One return of the enactor: done, given up, or the same grant tried again. -/
def enactReturn (result : Except EnactError Unit) : Device × List BrokerOutput :=
  match s.broker.inflight with
  | none => (s, [])
  | some j =>
    match result with
    | .ok () =>
      let out := s.finish j .enactSucceeded
      (out.1, .enacted j :: out.2)
    | .error e =>
      if e.isTerminal || maxEnactAttempts ≤ j.attempt then s.finish j (.enactFailed e.toString)
      else (s.setInflight (some { j with attempt := j.attempt + 1 }), [])

/-! ## Cancels -/

/-- `cancel`. -/
def cancel (id : ReqId) : Device × List BrokerOutput :=
  match s.broker.requests.get? id with
  | none => (s, [.cancelled id false])
  | some r =>
    if r.state = .pending then
      let r := { r with state := .cancelled }
      (((s.remember r).persist r).pruneTerminal,
        [.requestUpdated id .cancelled, .cancelled id true])
    else (s, [.cancelled id false])

/-- `cancel_as`: someone else's request answers as one that does not exist. -/
def cancelAs (uid : UInt32) (id : ReqId) : Device × List BrokerOutput :=
  if (s.broker.requests.get? id).any (·.visibleTo uid) then s.cancel id
  else (s, [.cancelled id false])

/-! ## Standing messages and releases -/

/-- `on_clause`. -/
def onClause (event : NostrEvent) (io : IntakeIo) : Device × List BrokerOutput :=
  if s.broker.released then (s, [.ingested ClauseDisposition.refused.ack])
  else
    let r := clauseDisposition f.crypto f.standing f.link io s.disk.clauses event
    ({ s with disk := { s.disk with clauses := r.2 } }, [.ingested r.1.ack])

/-- `on_usage_sync`. -/
def onUsageSync (event : NostrEvent) (io : IntakeIo) : Device × List BrokerOutput :=
  if s.broker.released then (s, [.ingested .refused])
  else
    let r := usageSyncResult f.crypto f.standing f.link io s.disk.clauses event
    ({ s with disk := { s.disk with clauses := r.2 } }, [.ingested r.1])

/-- `paired_at`, zero where it is not known. -/
def pairedAt : Nat := (s.disk.pairing.join).getD 0

/-- `on_release`. -/
def onRelease (event : NostrEvent) (now : Nat) : Device × List BrokerOutput :=
  if s.broker.released then (s, [])
  else
    match verifyRelease f.crypto f.standing event f.link.guardian f.link.machine now with
    | .error _ => (s, [])
    | .ok () =>
      match ReleasePayload.fromJson f.standing event.content with
      | .error _ => (s, [])
      | .ok payload =>
        if payload.issuedAt < s.pairedAt then (s, [])
        else
          ({ s with
            disk := { s.disk with
              clauses := s.disk.clauses.clearFor f.link.subject
              pairing := none }
            broker := { s.broker with released := true } },
            [.releaseApplied payload.issuedAt now])

/-- `mark_released`. -/
def markReleased : Device := { s with broker := { s.broker with released := true } }

/-! ## Restarts -/

/-- A record that was in flight when its process died. -/
def interrupted (r : RequestRecord) : RequestRecord :=
  if r.state = .enacting then
    { r with
      state := .failed
      detail := some "interrupted before completion; please re-request" }
  else r

@[simp] theorem interrupted_reqId (r : RequestRecord) : (interrupted r).reqId = r.reqId := by
  unfold interrupted
  split <;> rfl

/-- `Broker::new` over the disk of an earlier process. -/
def restart (now : Nat) : Device × List BrokerOutput :=
  let requests := s.disk.pending.update interrupted interrupted_reqId
  let s : Device := { s with
    disk := { s.disk with pending := requests }
    broker := ⟨requests, fun _ => none, none, false⟩ }
  let out := s.expireStalePending now
  (out.1.pruneTerminal, out.2)

/-! ## Steps -/

/-- What an action does when it gets to run. -/
def act : BrokerAction → Device × List BrokerOutput
  | .submit op params sourcePath callerUid ids now fault =>
    s.submit f op params sourcePath callerUid ids now fault
  | .grant event now => s.grantDisposition f event now
  | .localGrant event swept now =>
    let out := s.expireStalePending swept
    let res := out.1.grantDisposition f event now
    (res.1, out.2 ++ res.2)
  | .enactReturn result => s.enactReturn result
  | .cancel id => s.cancel id
  | .cancelAs uid id => s.cancelAs uid id
  | .sweep now => s.expireStalePending now
  | .clause event io => s.onClause f event io
  | .usageSync event io => s.onUsageSync f event io
  | .release event now => s.onRelease f event now
  | .markReleased => (s.markReleased, [])
  | .restart now => s.restart now
  | .consumedFault e =>
    ({ s with disk := { s.disk with consumed := { s.disk.consumed with fault := e } } }, [])

/-- One step.  What waits for the turn does nothing while an enactor holds it. -/
def step (s : Device) (a : BrokerAction) : Device × List BrokerOutput :=
  if a.takesTurn && s.broker.inflight.isSome then (s, []) else s.act f a

/-- A new broker on an empty disk. -/
def initial (pairing : Option (Option Nat)) : Device :=
  ⟨⟨.empty, .empty, .empty, pairing⟩, ⟨.empty, fun _ => none, none, false⟩, []⟩

end Device
end Kintrinsic
