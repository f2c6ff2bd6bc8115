import Kintrinsic.Registry
import Kintrinsic.WireTypes

/-! # Draining the home-network inbox

Wraps reach the guardian's app from relays and from the inbox of its own device, and both go through
one intake.  What is new is dispatched to the app's state, which is written to storage when it is
rendered; the inbox may forget a wrap once what it carried is there. -/
namespace Kintrinsic

/-! ## Wraps -/

/-- What a wrap opens to under the guardian's key: a heartbeat, an ask, an emergency unlock by its
identity, or nothing of these. -/
inductive Letter
  | status
  | request (machine : PubKey) (reqId : ReqId)
  | override (machine : PubKey) (key : String)
  | unreadable
deriving DecidableEq

/-- A gift wrap, with what is in it. -/
structure Wrap where
  createdAt : Int
  letter : Letter
deriving DecidableEq

def maxWrapJitterSecs : Nat := 2 * 24 * 60 * 60

/-- `unwrapStatus`, `unwrapRequest` and `unwrapAudit`, one after the other: none opens a wrap whose
stamp is too far from now. -/
def unwrap (w : Wrap) (nowSecs : Int) : Letter :=
  if maxWrapJitterSecs < (nowSecs - w.createdAt).natAbs then .unreadable else w.letter

/-! ## The app's state -/

structure ConsoleDevice where
  devicePubkey : Option PubKey
  paired : Bool
deriving DecidableEq

structure ConsoleChild where
  id : String
  devices : List ConsoleDevice
deriving DecidableEq

structure ChildRequest where
  reqId : ReqId
  childId : String
deriving DecidableEq

structure ActivityEvent where
  childId : String
  auditKey : Option String
deriving DecidableEq

/-- What of `CharterState` the intake reads. -/
structure CharterState where
  children : List ConsoleChild
  requests : List ChildRequest
  activity : List ActivityEvent
deriving DecidableEq

namespace CharterState
variable (s : CharterState)

def hasRequest (reqId : ReqId) : Bool := s.requests.any (·.reqId = reqId)

def hasAudit (key : String) : Bool := s.activity.any (·.auditKey = some key)

/-- The child with a paired device of the key. -/
def childOf (machine : PubKey) : Option String :=
  (s.children.find? fun c => c.devices.any fun d => d.paired && d.devicePubkey = some machine).map
    (·.id)

end CharterState

/-- The actions that the intake's part of the state knows; `setChildren` is every other change of
children and devices. -/
inductive ConsoleAction
  | addRequest (r : ChildRequest)
  | addActivity (e : ActivityEvent)
  | removeChild (childId : String)
  | setChildren (children : List ConsoleChild)
deriving DecidableEq

/-- `reducer`. -/
def CharterState.reduce (s : CharterState) : ConsoleAction → CharterState
  | .addRequest r => { s with requests := r :: s.requests }
  | .addActivity e => { s with activity := e :: s.activity }
  | .removeChild childId =>
    { s with
      children := s.children.filter (·.id ≠ childId)
      requests := s.requests.filter (·.childId ≠ childId) }
  | .setChildren children => { s with children }

/-! ## The consume queue -/

/-- A wrap that waits for the state that holds what it carried. -/
structure Queued where
  id : EventId
  reqId : Option ReqId
  auditKey : Option String
deriving DecidableEq

abbrev ConsumeQueue := Registry Queued.id

/-- `add`: a requirement is never weakened by a later duplicate. -/
def ConsumeQueue.add (q : ConsumeQueue) (id : EventId) (reqId : Option ReqId)
    (auditKey : Option String) : ConsumeQueue :=
  let cur := q.get? id
  q.put ⟨id, reqId.or (cur.bind (·.reqId)), auditKey.or (cur.bind (·.auditKey))⟩

/-- Whether what a queued wrap waits for is in the state. -/
def Queued.ready (s : CharterState) (q : Queued) : Bool :=
  q.reqId.all s.hasRequest && q.auditKey.all s.hasAudit

/-! ## The console -/

/-- The app: its state as rendered and what is dispatched to it since, what storage holds, the
session's memory of wraps, and the queue.  `forgotten` are the wraps the inbox was told to forget,
each with what storage held then; `refused` those that were not readable when they were opened. -/
structure Console where
  state : CharterState
  dispatched : List ConsoleAction
  written : CharterState
  persistedOk : Bool
  handledWraps : List EventId
  seenReqIds : List ReqId
  seenAudits : List String
  queue : ConsumeQueue
  forgotten : List (EventId × CharterState)
  refused : List EventId

inductive WrapIngestResult
  | handled
  | status
  | unreadable
  | duplicate (reqId : ReqId)
  | request (reqId : ReqId)
  | audit (key : String)
  | unlanded
deriving DecidableEq

namespace Console

/-- The app when it starts, from what storage holds. -/
def start (written : CharterState) : Console :=
  ⟨written, [], written, true, [], [], [], .empty, [], []⟩

variable (c : Console)

def handle (id : EventId) : Console := { c with handledWraps := c.handledWraps ++ [id] }

/-- `ingestDeviceRequest`: whether it was recorded. -/
def ingestDeviceRequest (machine : PubKey) (reqId : ReqId) : Console × Bool :=
  if c.state.hasRequest reqId then (c, true)
  else
    match c.state.childOf machine with
    | none => (c, false)
    | some childId =>
      ({ c with dispatched := c.dispatched ++ [.addRequest ⟨reqId, childId⟩] }, true)

/-- `ingestDeviceAudit`: whether it was recorded. -/
def ingestDeviceAudit (machine : PubKey) (key : String) : Console × Bool :=
  if c.state.hasAudit key then (c, true)
  else
    match c.state.childOf machine with
    | none => (c, false)
    | some childId =>
      ({ c with dispatched := c.dispatched ++ [.addActivity ⟨childId, some key⟩] }, true)

/-- `ingestOverride`. -/
def ingestOverride (id : EventId) (machine : PubKey) (key : String) : Console × WrapIngestResult :=
  if key ∈ c.seenAudits ∨ c.state.hasAudit key then (c.handle id, .audit key)
  else
    match c.ingestDeviceAudit machine key with
    | (_, false) => (c, .unlanded)
    | (c', true) => ({ c' with seenAudits := key :: c'.seenAudits }.handle id, .audit key)

/-- `ingestWrap`. -/
def ingestWrap (id : EventId) (w : Wrap) (nowSecs : Int) : Console × WrapIngestResult :=
  if id ∈ c.handledWraps then (c, .handled)
  else
    match unwrap w nowSecs with
    | .status => (c.handle id, .status)
    | .override machine key => c.ingestOverride id machine key
    | .unreadable => ({ c with refused := id :: c.refused }.handle id, .unreadable)
    | .request machine reqId =>
      if reqId ∈ c.seenReqIds ∨ c.state.hasRequest reqId then (c.handle id, .duplicate reqId)
      else
        match c.ingestDeviceRequest machine reqId with
        | (_, false) => (c, .unlanded)
        | (c', true) =>
          ({ c' with seenReqIds := reqId :: c'.seenReqIds }.handle id, .request reqId)

/-- What the drain queues a wrap with, after the intake. -/
def enqueue (id : EventId) : WrapIngestResult → Console
  | .unlanded => c
  | .duplicate reqId | .request reqId => { c with queue := c.queue.add id (some reqId) none }
  | .audit key => { c with queue := c.queue.add id none (some key) }
  | .handled | .status | .unreadable => { c with queue := c.queue.add id none none }

def handledWrapsMax : Nat := 10000

/-- The newest `n` of a list that grows at its end. -/
def keepNewest (n : Nat) (ids : List EventId) : List EventId := ids.drop (ids.length - n)

/-- `trimHandled`: the oldest are dropped. -/
def trimHandled : Console := { c with handledWraps := keepNewest handledWrapsMax c.handledWraps }

/-- `flush`, of the state as rendered. -/
def flush : Console :=
  if !c.persistedOk then c
  else
    { c with
      queue := c.queue.filter fun q => !q.ready c.state
      forgotten := c.forgotten ++
        (c.queue.entries.filter (·.ready c.state)).map fun q => (q.id, c.written) }

/-- What can happen to the app.  A wrap is given by its id, which is the hash of it. -/
inductive Step
  | poll (ids : List EventId) (nowSecs : Int)
  | drain (ids : List EventId) (nowSecs : Int)
  | act (a : ConsoleAction)
  | commit (ok : Bool)
  | restart
deriving DecidableEq

variable (wraps : EventId → Option Wrap)

/-- One wrap of a relay. -/
def pollOne (nowSecs : Int) (c : Console) (id : EventId) : Console :=
  match wraps id with
  | none => c
  | some w => (c.ingestWrap id w nowSecs).1

/-- One entry of the inbox; what does not look like a wrap is only queued. -/
def drainOne (nowSecs : Int) (c : Console) (id : EventId) : Console :=
  match wraps id with
  | none => { c with queue := c.queue.add id none none }
  | some w =>
    let (c', result) := c.ingestWrap id w nowSecs
    c'.enqueue id result

/-- `pollRelayOnce`, `drainLocalOnce`, a dispatch, a render with the write of its state, or the app
being closed and opened. -/
def apply (c : Console) : Step → Console
  | .poll ids nowSecs => (ids.foldl (pollOne wraps nowSecs) c).trimHandled
  | .drain ids nowSecs => (ids.foldl (drainOne wraps nowSecs) c).trimHandled.flush
  | .act a => { c with dispatched := c.dispatched ++ [a] }
  | .commit ok =>
    let state := c.dispatched.foldl CharterState.reduce c.state
    { c with
      state := state
      dispatched := []
      persistedOk := ok
      written := if ok then state else c.written }.flush
  | .restart => { start c.written with forgotten := c.forgotten, refused := c.refused }

def run (c : Console) (steps : List Step) : Console := steps.foldl (apply wraps) c

end Console
end Kintrinsic
