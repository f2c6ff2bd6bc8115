import Kintrinsic.EffectRun
import Kintrinsic.GuardianLink

/-! # Runs of the guardian's link

Every critical section is one step: the console's calls, the sessions' openings and endings, the
frames they read, the passes of their flushers.  A flusher hands on what it took in a pass one
frame at a time, outside the lock. -/
namespace Kintrinsic

/-- The listener with its session tasks: the machine of every connection, and what its flusher
has taken and not yet written. -/
structure LocalLink where
  st : GuardianState
  peers : Nat → Option PubKey
  taken : Nat → List NostrEvent

/-- What can happen to the link.  A session is named by its id, which is never used again; `room`
says whether its channel has room. -/
inductive LinkAction
  | opened (machine : PubKey) (localIp : IpAddr) (now started : Nat)
  | broken (id : Nat)
  | ended (id : Nat)
  | setAllowed (allowed : List PubKey)
  | setAccepting (on : Bool)
  | setAcceptAddresses (addrs : Option (List Ipv4Addr))
  | shutdown
  | send (recipient : PubKey) (wrap : NostrEvent) (now : Nat) (room : Bool)
  | flushPass (id now : Nat)
  | flushPut (id : Nat)
  | okFrame (id : Nat) (wrap : EventId) (accepted : Bool) (now : Nat)
  | ackFrame (id : Nat) (wrap : EventId) (result : AckResult) (verified : Bool) (now : Nat)
deriving DecidableEq

/-- What is seen of it: the events emitted, the EVENT frames put on the channel of a live session
of a machine, the OK frames a machine answers, and what `send` returns. -/
inductive LinkEffect
  | event (e : GuardianEvent)
  | put (machine : PubKey) (wrap : EventId)
  | answered (machine : PubKey) (wrap : EventId)
  | returned (recipient : PubKey) (wrap : EventId) (outcome : SendState)
deriving DecidableEq

/-- The listener's state as it is loaded. -/
def GuardianState.loaded (queue : List QueuedWrap) (delivery : Registry DeliveryEntry.wrap)
    (allowed : List PubKey) : GuardianState :=
  ⟨false, true, none, allowed.toFinset, .empty, 1, queue, delivery⟩

namespace LocalLink

/-- Whether a session is in the table and not closing. -/
def live (l : LocalLink) (id : Nat) : Bool := (l.st.sessions.get? id).any fun s => !s.closed

/-- Replace the shared state, and report its events. -/
def become (l : LocalLink) (r : GuardianState × List GuardianEvent) : LocalLink × List LinkEffect :=
  ({ l with st := r.1 }, r.2.map LinkEffect.event)

/-- Set what a flusher holds. -/
def hold (l : LocalLink) (id : Nat) (wraps : List NostrEvent) : LocalLink :=
  { l with taken := fun i => if i = id then wraps else l.taken i }

/-- One step. -/
def step (check : WrapCheck) (l : LocalLink) : LinkAction → LocalLink × List LinkEffect
  | .opened machine localIp now started =>
    match l.st.enter machine localIp now started with
    | none => (l, [])
    | some r =>
      ({ l.become r |>.1 with
          peers := fun i => if i = l.st.nextSession then some machine else l.peers i },
        (l.become r).2)
  | .broken id => ({ l with st := l.st.setSession id fun s => { s with closed := true } }, [])
  | .ended id => (l.hold id []).become (l.st.dropSession id)
  | .setAllowed allowed => l.become (l.st.setAllowed allowed)
  | .setAccepting on => l.become (l.st.setAccepting on)
  | .setAcceptAddresses addrs => l.become (l.st.setAcceptAddresses addrs)
  | .shutdown => ({ l with st := l.st.shutdown }, [])
  | .send recipient wrap now room =>
    match validateWrapFor check wrap recipient with
    | .error e => (l, [.returned recipient wrap.id (.rejected e.text)])
    | .ok () =>
      let r := l.st.send recipient wrap now room
      let b := l.become r.2.2
      (b.1, b.2 ++ (r.2.1.map fun _ => LinkEffect.put recipient wrap.id).toList ++
        [.returned recipient wrap.id r.1])
  | .flushPass id now =>
    match l.peers id with
    | some machine =>
      -- the flusher waits to be woken, with nothing left to write
      if l.taken id = [] ∧ ((l.st.sessions.get? id).all (·.wake)) then
        let r := l.st.flushPass id machine now
        (l.hold id (r.1.getD [])).become r.2
      else (l, [])
    | none => (l, [])
  | .flushPut id =>
    match l.peers id, l.taken id with
    | some machine, w :: ws => (l.hold id ws, if l.live id then [.put machine w.id] else [])
    | _, _ => (l, [])
  | .okFrame id wrap accepted now =>
    match l.peers id with
    | some machine =>
      let b := l.become (l.st.onOk id machine wrap accepted now)
      (b.1, LinkEffect.answered machine wrap :: b.2)
    | none => (l, [])
  | .ackFrame id wrap result verified now =>
    match l.peers id with
    | some machine =>
      if verified then l.become (l.st.onAck machine wrap result now) else (l, [])
    | none => (l, [])

/-- A link that has just been started on what its directory holds. -/
def start (queue : List QueuedWrap) (delivery : Registry DeliveryEntry.wrap)
    (allowed : List PubKey) (now : Nat) : LocalLink :=
  let pruned := ((GuardianState.loaded queue delivery allowed).prune now).1
  ⟨{ pruned with delivery := pruneDelivery pruned.delivery now }, fun _ => none, fun _ => []⟩

/-- The link after a run. -/
def run (check : WrapCheck) (l : LocalLink) (as : List LinkAction) : LocalLink :=
  (EffectRun.run (step check) l as).1

end LocalLink
end Kintrinsic
