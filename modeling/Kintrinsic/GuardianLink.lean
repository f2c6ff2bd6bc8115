import Kintrinsic.LinkTypes
import Kintrinsic.Registry
import Mathlib.Data.Finset.Image
import Mathlib.Data.List.Dedup
import Mathlib.Data.List.Sort

/-! # The guardian's end of the link

The listener's state, and its critical sections: each is one function of the state, with the
events it emits.  Every wrap sent is queued until its own machine answers OK; a session keeps the
ids it was handed, and a delivery record says where each wrap stands. -/
namespace Kintrinsic

/-! ## Addresses -/

abbrev Ipv4Addr := BitVec 32

inductive IpAddr
  | v4 (a : Ipv4Addr)
  | v6 (a : BitVec 128)
deriving DecidableEq

/-- The IPv4 address, also of an IPv4-mapped one. -/
def IpAddr.toIpv4 : IpAddr → Option Ipv4Addr
  | v4 a => some a
  | v6 a => if a.extractLsb' 32 96 = 0xffff#96 then some (a.extractLsb' 0 32) else none

/-! ## Bounds -/

def maxSessions : Nat := 16
def maxSessionsPerMachine : Nat := 4
def queuePerMachine : Nat := 64
def queueTtl : Nat := 48 * 3600
def deliveryCap : Nat := 512
def deliveryTtl : Nat := 7 * 24 * 3600

/-! ## Records -/

/-- Where one guardian wrap stands with its ward device. -/
inductive DeliveryState
  | queued
  | sent
  | received
  | rejected
  | acked (r : AckResult)
deriving DecidableEq

namespace DeliveryState

/-- Whether `next` should replace a state: states only move forward, and a later ACK replaces
only a failed one. -/
def advancedBy (self next : DeliveryState) : Bool :=
  if self = next then false
  else
    match self, next with
    | acked .failed, acked _ => true
    | acked _, _ => false
    | _, acked _ => true
    | queued, received | queued, rejected | sent, received | sent, rejected => true
    | queued, sent => true
    | _, _ => false

/-- A record the console no longer waits on. -/
def isTerminal : DeliveryState → Bool
  | rejected | acked _ => true
  | _ => false

/-- A record still on its way. -/
def isWaiting : DeliveryState → Bool
  | queued | sent => true
  | _ => false

end DeliveryState

/-- The delivery record of one wrap, since when it stands as it does. -/
structure DeliveryEntry where
  wrap : EventId
  state : DeliveryState
  changed : Nat
  machine : PubKey
deriving DecidableEq

structure QueuedWrap where
  machine : PubKey
  wrap : NostrEvent
  queuedAt : Nat
deriving DecidableEq

inductive GuardianEvent
  | wrap (machine : PubKey) (wrap : NostrEvent)
  | delivery (wrap : EventId) (machine : PubKey) (state : DeliveryState)
  | session (machine : PubKey) (up : Bool)
deriving DecidableEq

/-- One authenticated ward session: the ids handed to it, and whether its closer or its wake has
been raised. -/
structure Session where
  id : Nat
  machine : PubKey
  localIp : IpAddr
  since : Nat
  started : Nat
  closed : Bool
  sent : Finset EventId
  wake : Bool

/-- The part of the listener's state that its sessions share. -/
structure GuardianState where
  closed : Bool
  accepting : Bool
  acceptAddrs : Option (Finset Ipv4Addr)
  allowed : Finset PubKey
  sessions : Registry Session.id
  nextSession : Nat
  queue : List QueuedWrap
  delivery : Registry DeliveryEntry.wrap

/-- The outcome of `send`. -/
inductive SendState
  | sent
  | queued
  | rejected (reason : String)
deriving DecidableEq

/-! ## Pruning -/

/-- Whether a queued wrap is within its 48 hours. -/
def QueuedWrap.fresh (now : Nat) (e : QueuedWrap) : Bool := decide (now - e.queuedAt < queueTtl)

/-- Take the oldest `n` entries of a machine out. -/
def dropOldest (m : PubKey) : Nat → List QueuedWrap → List QueuedWrap × List QueuedWrap
  | 0, q => (q, [])
  | _, [] => ([], [])
  | n + 1, e :: q =>
    if e.machine = m then
      let r := dropOldest m n q
      (r.1, e :: r.2)
    else
      let r := dropOldest m (n + 1) q
      (e :: r.1, r.2)

/-- How many entries a machine has queued. -/
def queuedFor (m : PubKey) (q : List QueuedWrap) : Nat := (q.filter (·.machine = m)).length

/-- One machine brought within its cap; `dropped` collects what goes. -/
def capMachine (r : List QueuedWrap × List QueuedWrap) (m : PubKey) :
    List QueuedWrap × List QueuedWrap :=
  let d := dropOldest m (queuedFor m r.1 - queuePerMachine) r.1
  (d.1, r.2 ++ d.2)

/-- `prune_queue`: the expired, then the oldest beyond each machine's cap; what is kept and what
was dropped. -/
def pruneQueue (q : List QueuedWrap) (now : Nat) : List QueuedWrap × List QueuedWrap :=
  let kept := q.filter (·.fresh now)
  ((kept.map (·.machine)).dedup).foldl capMachine (kept, q.filter fun e => !e.fresh now)

/-- Whether one record is evicted before another: the finished first, then the oldest. -/
def DeliveryEntry.evictedBefore (a b : DeliveryEntry) : Bool :=
  if a.state.isTerminal ≠ b.state.isTerminal then a.state.isTerminal
  else if a.changed ≠ b.changed then decide (a.changed < b.changed)
  else decide (a.wrap.bytes.toNat < b.wrap.bytes.toNat)

/-- The record to evict. -/
def firstEvicted (d : Registry DeliveryEntry.wrap) : Option DeliveryEntry :=
  d.entries.foldl (fun best e =>
    match best with
    | none => some e
    | some b => if e.evictedBefore b then some e else some b) none

def evictOne (d : Registry DeliveryEntry.wrap) : Registry DeliveryEntry.wrap :=
  match firstEvicted d with
  | some e => d.remove e.wrap
  | none => d

/-- `prune_delivery`. -/
def pruneDelivery (d : Registry DeliveryEntry.wrap) (now : Nat) : Registry DeliveryEntry.wrap :=
  let d := d.filter fun e => decide (now - e.changed < deliveryTtl)
  evictOne^[d.entries.length - deliveryCap] d

namespace GuardianState
variable (st : GuardianState)

/-- Whether a record would move to a state. -/
def recordMoves (wrap : EventId) (machine : PubKey) (state : DeliveryState) : Bool :=
  match st.delivery.get? wrap with
  | some r => decide (r.machine = machine) && r.state.advancedBy state
  | none => true

/-- `set_delivery`: move a record forward. -/
def setDelivery (wrap : EventId) (machine : PubKey) (state : DeliveryState) (now : Nat) :
    GuardianState × List GuardianEvent :=
  if st.recordMoves wrap machine state then
    ({ st with delivery := pruneDelivery (st.delivery.put ⟨wrap, state, now, machine⟩) now },
      [.delivery wrap machine state])
  else (st, [])

/-- Whether a wrap's record for a machine is still waiting. -/
def waiting (e : QueuedWrap) : Bool :=
  (st.delivery.get? e.wrap.id).any fun r => decide (r.machine = e.machine) && r.state.isWaiting

/-- One dropped wrap: recorded as rejected where it was still waiting. -/
def rejectDropped (now : Nat) (r : GuardianState × List GuardianEvent) (e : QueuedWrap) :
    GuardianState × List GuardianEvent :=
  if r.1.waiting e then
    let d := r.1.setDelivery e.wrap.id e.machine .rejected now
    (d.1, r.2 ++ d.2)
  else r

/-- `Inner::prune_queue`. -/
def prune (now : Nat) : GuardianState × List GuardianEvent :=
  let p := pruneQueue st.queue now
  p.2.foldl (rejectDropped now) ({ st with queue := p.1 }, [])

/-! ## Sessions -/

/-- How many sessions a machine has. -/
def sessionsOf (machine : PubKey) : Nat := st.sessions.count fun s => decide (s.machine = machine)

/-- `drop_session`: reports the machine as gone if it was its last session. -/
def dropSession (id : Nat) : GuardianState × List GuardianEvent :=
  match st.sessions.get? id with
  | none => (st, [])
  | some s =>
    let st' := { st with sessions := st.sessions.remove id }
    (st', if st'.sessionsOf s.machine = 0 then [.session s.machine false] else [])

/-- Drop sessions one after the other. -/
def dropSessions (st : GuardianState) : List Nat → GuardianState × List GuardianEvent
  | [] => (st, [])
  | id :: ids =>
    let d := st.dropSession id
    let r := d.1.dropSessions ids
    (r.1, d.2 ++ r.2)

/-- The ids of the sessions that satisfy `p`. -/
def idsWhere (p : Session → Bool) : List Nat := (st.sessions.entries.filter p).map Session.id

/-- `local_allowed`. -/
def localAllowed (localIp : IpAddr) : Bool :=
  match st.acceptAddrs with
  | none => true
  | some set => localIp.toIpv4.any (· ∈ set)

/-- `set_allowed`. -/
def setAllowed (allowed : List PubKey) : GuardianState × List GuardianEvent :=
  let st := { st with allowed := allowed.toFinset }
  st.dropSessions (st.idsWhere fun s => decide (s.machine ∉ st.allowed))

/-- `set_accepting`. -/
def setAccepting (on : Bool) : GuardianState × List GuardianEvent :=
  let st := { st with accepting := on }
  if on then (st, []) else st.dropSessions (st.idsWhere fun _ => true)

/-- `set_accept_addresses`. -/
def setAcceptAddresses (addrs : Option (List Ipv4Addr)) : GuardianState × List GuardianEvent :=
  let st := { st with acceptAddrs := addrs.map List.toFinset }
  st.dropSessions (st.idsWhere fun s => !st.localAllowed s.localIp)

/-- Remove sessions without a report: their machine keeps or is about to get another. -/
def evict (ids : List Nat) : GuardianState :=
  { st with sessions := st.sessions.filter fun s => decide (s.id ∉ ids) }

/-- The order in which a machine's sessions make room. -/
def olderSession (a b : Session) : Prop := a.started < b.started ∨ a.started = b.started ∧ a.id ≤ b.id

instance : DecidableRel olderSession := fun _ _ => inferInstanceAs (Decidable (_ ∨ _))

/-- A machine's sessions, the oldest first. -/
def mine (machine : PubKey) : List Session :=
  (st.sessions.entries.filter fun s => decide (s.machine = machine)).insertionSort olderSession

/-- Whether a connection that has authenticated is turned away all the same. -/
def barred (machine : PubKey) (localIp : IpAddr) : Bool :=
  st.closed || !st.accepting || !st.localAllowed localIp || decide (machine ∉ st.allowed)

/-- A machine's oldest `k` sessions go. -/
def evictOldest (machine : PubKey) (k : Nat) : GuardianState :=
  st.evict (((st.mine machine).take k).map Session.id)

/-- Room for a newcomer, unless there is none. -/
def makeRoom (machine : PubKey) : Option GuardianState :=
  -- a fifth session closes the oldest, before the global cap is applied
  let excess := (st.mine machine).length + 1 - maxSessionsPerMachine
  let st' := st.evictOldest machine excess
  if st'.sessions.entries.length < maxSessions then some st'
  else
    -- still full: this machine's own oldest makes room
    match (st.mine machine).drop excess with
    | [] => none
    | oldest :: _ => some (st'.evict [oldest.id])

/-- A session joins the table. -/
def join (machine : PubKey) (localIp : IpAddr) (now started : Nat) :
    GuardianState × List GuardianEvent :=
  ({ st with
      sessions := st.sessions.put
        ⟨st.nextSession, machine, localIp, now, started, false, ∅, true⟩
      nextSession := st.nextSession + 1 },
    if st.sessionsOf machine = 0 then [.session machine true] else [])

/-- The part of `connection` after the handshake: a new session, unless it may not be. -/
def enter (machine : PubKey) (localIp : IpAddr) (now started : Nat) :
    Option (GuardianState × List GuardianEvent) :=
  if st.barred machine localIp then none
  else (st.makeRoom machine).map fun st => st.join machine localIp now started

/-- `shutdown`. -/
def shutdown : GuardianState := { st with closed := true, sessions := .empty }

/-! ## Sending -/

/-- The newer of two sessions. -/
def newerSession (best : Option Session) (s : Session) : Option Session :=
  match best with
  | none => some s
  | some b => if olderSession b s then some s else some b

/-- The newest session of a machine that is not closing. -/
def newest (machine : PubKey) : Option Session :=
  (st.sessions.entries.filter fun s => decide (s.machine = machine) && !s.closed).foldl newerSession
    none

/-- Change the session of an id, its id apart. -/
def changeAt (id : Nat) (f : Session → Session) (s : Session) : Session :=
  if s.id = id then { f s with id := id } else s

theorem changeAt_id (id : Nat) (f : Session → Session) (s : Session) :
    (changeAt id f s).id = s.id := by
  unfold changeAt
  split
  · rename_i h
    exact h.symm
  · rfl

/-- Change one session. -/
def setSession (id : Nat) (f : Session → Session) : GuardianState :=
  { st with sessions := st.sessions.update (changeAt id f) (changeAt_id id f) }

/-- Mark wraps as handed to a session. -/
def mark (id : Nat) (wraps : Finset EventId) : GuardianState :=
  st.setSession id fun s => { s with sent := s.sent ∪ wraps }

/-- Whether a wrap is queued for a machine. -/
def isQueued (machine : PubKey) (id : EventId) : Bool :=
  st.queue.any fun q => decide (q.machine = machine) && decide (q.wrap.id = id)

/-- Where a queued wrap is handed on: to the newest session, unless that has it or is full. -/
def handOn (machine : PubKey) (id : EventId) (room : Bool) : GuardianState × Bool × Option Nat :=
  match st.newest machine with
  | none => (st, false, none)
  | some s =>
    if id ∈ s.sent then (st, true, none)
    else if room then (st.mark s.id {id}, true, some s.id)
    else (st.setSession s.id fun s => { s with wake := true }, false, none)

/-- `send`, of a wrap that is valid for its recipient: the outcome, the session whose channel
took the frame, and the events.  `room` says whether the channel has room. -/
def send (recipient : PubKey) (wrap : NostrEvent) (now : Nat) (room : Bool) :
    SendState × Option Nat × GuardianState × List GuardianEvent :=
  if st.closed then (.rejected "link stopped", none, st, [])
  else if recipient ∉ st.allowed then (.rejected "recipient is not a paired device", none, st, [])
  else
    let st := if st.isQueued recipient wrap.id then st
      else { st with queue := st.queue ++ [⟨recipient, wrap, now⟩] }
    let pruned := st.prune now
    let handed := pruned.1.handOn recipient wrap.id room
    let recorded := handed.1.setDelivery wrap.id recipient (if handed.2.1 then .sent else .queued) now
    (if handed.2.1 then .sent else .queued, handed.2.2, recorded.1, pruned.2 ++ recorded.2)

/-- The wraps queued for a machine. -/
def wrapsFor (machine : PubKey) : List NostrEvent :=
  (st.queue.filter (·.machine = machine)).map (·.wrap)

/-- Those not yet written on a session. -/
def unwritten (machine : PubKey) (s : Session) : List NostrEvent :=
  (st.wrapsFor machine).filter fun w => decide (w.id ∉ s.sent)

/-- A session's marks after a pass: of what is still queued, and of what the pass takes. -/
def passed (machine : PubKey) (s : Session) : Session :=
  { s with
    sent := (s.sent ∩ ((st.wrapsFor machine).map (·.id)).toFinset) ∪
      ((st.unwritten machine s).map (·.id)).toFinset
    wake := false }

/-- One wrap taken by a flusher: recorded as sent. -/
def recordSent (machine : PubKey) (now : Nat) (r : GuardianState × List GuardianEvent)
    (w : NostrEvent) : GuardianState × List GuardianEvent :=
  let d := r.1.setDelivery w.id machine .sent now
  (d.1, r.2 ++ d.2)

/-- One pass of a session's `flusher`: the wraps not yet written on it, marked as they are taken.
`none` is a session that is gone. -/
def flushPass (id : Nat) (machine : PubKey) (now : Nat) :
    Option (List NostrEvent) × GuardianState × List GuardianEvent :=
  let pruned := st.prune now
  match pruned.1.sessions.get? id with
  | none => (none, pruned.1, pruned.2)
  | some s =>
    let fresh := pruned.1.unwritten machine s
    let marked := fresh.foldl (recordSent machine now)
      (pruned.1.setSession id (pruned.1.passed machine), [])
    (some fresh, marked.1, pruned.2 ++ marked.2)

/-! ## Answers -/

/-- The record of a wrap, if it is this machine's. -/
def recordOf (machine : PubKey) (wrap : EventId) : Option DeliveryEntry :=
  (st.delivery.get? wrap).filter fun r => decide (r.machine = machine)

/-- Whether an OK is for a wrap that was actually written to the machine. -/
def takesOk (id : Nat) (machine : PubKey) (wrap : EventId) : Bool :=
  ((st.sessions.get? id).any fun s => decide (wrap ∈ s.sent)) ||
    (st.recordOf machine wrap).any fun r => decide (r.state ≠ .queued)

/-- The OK arm of a session. -/
def onOk (id : Nat) (machine : PubKey) (wrap : EventId) (accepted : Bool) (now : Nat) :
    GuardianState × List GuardianEvent :=
  if st.takesOk id machine wrap then
    let st' := { st with
      queue := st.queue.filter fun q => !(decide (q.machine = machine) && decide (q.wrap.id = wrap)) }
    if (st.recordOf machine wrap).isSome then
      st'.setDelivery wrap machine (if accepted then .received else .rejected) now
    else (st', [])
  else (st, [])

/-- The ACK arm of a session, of an ACK that verifies. -/
def onAck (machine : PubKey) (wrap : EventId) (result : AckResult) (now : Nat) :
    GuardianState × List GuardianEvent :=
  if (st.recordOf machine wrap).any fun r => decide (r.state ≠ .queued) then
    st.setDelivery wrap machine (.acked result) now
  else (st, [])

end GuardianState
end Kintrinsic
