import Kintrinsic.GuardianLink
import Kintrinsic.GuardedRun
import Kintrinsic.LinkProofs

/-! # The handshakes of the local link, under attack

HELLO, CHALLENGE, AUTH and READY, for any number of handshakes of any number of daemons and
listeners.  The attacker controls every connection: any frame may reach any handshake at any time,
so long as a signature in it that verifies under a key the attacker does not hold was made before.
The log keeps what was written and drawn, the newest first. -/
namespace Kintrinsic

open GuardedRun

/-! ## The two ends -/

/-- A secret and the key derived from it. -/
structure KeyPair {δ σ : Type} (c : LinkCrypto δ σ) where
  sk : BitVec 256
  key : PubKey
  derived : c.xonlyPubkey sk = some key

/-- A daemon: its machine keys and the guardian it has pinned. -/
structure WardEnd {δ σ : Type} (c : LinkCrypto δ σ) where
  keys : KeyPair c
  guardian : PubKey

variable {δ σ W G : Type} {c : LinkCrypto δ σ}

namespace WardEnd
variable (w : WardEnd c)

def machine : PubKey := w.keys.key

/-- The ward's answer to the second frame: the guardian's challenge, the proof it checked, and the
signature it writes in AUTH. -/
def onChallenge (cw : BitVec 256) : Frame σ → Except String (BitVec 256 × σ × σ)
  | .challenge v guardian cg sig =>
    if v ≠ protocolVersion then .error "unexpected frame"
    else if guardian ≠ w.guardian then .error "not the pinned guardian"
    else if !c.guardianProofVerify cw cg guardian sig then .error "guardian proof did not verify"
    else
      match c.wardProofSign w.keys.sk cw cg guardian with
      | some sw => .ok (cg, sig, sw)
      | none => .error "cannot sign"
  | _ => .error "unexpected frame"

/-- The ward's reading of the last frame. -/
def onReady : Frame σ → Except String Unit
  | .ready v => if v = protocolVersion then .ok () else .error "not admitted"
  | _ => .error "not admitted"

end WardEnd

namespace KeyPair
variable (g : KeyPair c)

/-- The guardian's reading of the first frame. -/
def onHello : Frame σ → Option (BitVec 256)
  | .hello v challenge => if v = protocolVersion then some challenge else none
  | _ => none

/-- The guardian's reading of AUTH: the machine, when it is allowed and its proof verifies. -/
def onAuth (allowed : Finset PubKey) (cw cg : BitVec 256) : Frame σ → Option PubKey
  | .auth machine sig =>
    if machine ∉ allowed ∨ !c.wardProofVerify cw cg g.key machine sig then none else some machine
  | _ => none

end KeyPair

/-! ## Handshakes and frames -/

/-- The daemons and the listeners there are. -/
structure LinkParties (c : LinkCrypto δ σ) (W G : Type) where
  ward : W → WardEnd c
  guardian : G → KeyPair c

/-- How far a ward's handshake is. -/
inductive WardPhase
  | greeted (cw : BitVec 256)
  | proved (cw cg : BitVec 256)
  | admitted (cw cg : BitVec 256)
  | ended

/-- How far a guardian's handshake is. -/
inductive GuardianPhase
  | accepted
  | challenged (cw cg : BitVec 256)
  | authenticated (cw cg : BitVec 256) (machine : PubKey)
  | admitted (cw cg : BitVec 256) (machine : PubKey)
  | ended

/-- What the log keeps: the frames of handshakes and answers as they are written, AUTH with the
proof that was checked before it, and the event ids that the same keys sign. -/
inductive LinkEvent (W G σ : Type)
  | hello (i : Nat) (w : W) (cw : BitVec 256)
  | challenge (j : Nat) (g : G) (cw cg : BitVec 256) (sig : σ)
  | auth (i : Nat) (w : W) (cw cg : BitVec 256) (proof sig : σ)
  | session (j : Nat) (g : G) (cw cg : BitVec 256) (machine : PubKey)
  | ack (w : W) (ack : Ack σ)
  | event (party : W ⊕ G) (fields : String) (sig : σ)

structure LinkNet (W G σ : Type) where
  wards : Nat → Option (W × WardPhase)
  guardians : Nat → Option (G × GuardianPhase)
  listeners : G → GuardianState
  log : List (LinkEvent W G σ)

/-- What can happen next: a handshake begins, reads a frame or ends, an authenticated connection
enters its listener, a listener does anything else it does, or a key signs. -/
inductive LinkMove (W G σ : Type)
  | dial (i : Nat) (w : W) (cw : BitVec 256)
  | wardReads (i : Nat) (f : Frame σ)
  | wardEnds (i : Nat)
  | accept (j : Nat) (g : G)
  | guardianReads (j : Nat) (f : Frame σ) (cg : BitVec 256)
  | enter (j : Nat) (localIp : IpAddr) (now started : Nat)
  | guardianEnds (j : Nat)
  | listener (g : G) (st : GuardianState)
  | ack (i : Nat) (wrap : EventId) (result : AckResult) (ts : Nat)
  | event (party : W ⊕ G) (fields : String)

namespace LinkParties
variable (P : LinkParties c W G)

def keys : W ⊕ G → KeyPair c
  | .inl w => (P.ward w).keys
  | .inr g => P.guardian g

/-- The signature made at an event: by which keys, and of what. -/
def signed : LinkEvent W G σ → Option (KeyPair c × LinkStatement × σ)
  | .challenge _ g cw cg sig =>
    some (P.guardian g, .guardianProof cw cg (P.guardian g).key, sig)
  | .auth _ w cw cg _ sig =>
    some ((P.ward w).keys, .wardProof cw cg (P.ward w).guardian (P.ward w).machine, sig)
  | .ack w ack =>
    some ((P.ward w).keys,
      .ack (P.ward w).guardian (P.ward w).machine ack.wrap ack.result ack.ts, ack.sig)
  | .event party fields sig => some (P.keys party, .event fields, sig)
  | _ => none

end LinkParties

namespace LinkNet

def wardTo (net : LinkNet W G σ) (i : Nat) (w : W) (phase : WardPhase)
    (events : List (LinkEvent W G σ)) : LinkNet W G σ :=
  { net with wards := Function.update net.wards i (some (w, phase)), log := events ++ net.log }

def guardianTo (net : LinkNet W G σ) (j : Nat) (g : G) (phase : GuardianPhase)
    (events : List (LinkEvent W G σ)) : LinkNet W G σ :=
  { net with
    guardians := Function.update net.guardians j (some (g, phase)), log := events ++ net.log }

/-- Before the first connection. -/
def start (listeners : G → GuardianState) : LinkNet W G σ :=
  ⟨fun _ => none, fun _ => none, listeners, []⟩

variable [DecidableEq G] (P : LinkParties c W G)

/-- One move.  A frame that the source refuses ends the handshake. -/
def step (net : LinkNet W G σ) : LinkMove W G σ → LinkNet W G σ
  | .dial i w cw =>
    match net.wards i with
    | none => net.wardTo i w (.greeted cw) [.hello i w cw]
    | some _ => net
  | .wardReads i f =>
    match net.wards i with
    | some (w, .greeted cw) =>
      match (P.ward w).onChallenge cw f with
      | .ok (cg, proof, sw) => net.wardTo i w (.proved cw cg) [.auth i w cw cg proof sw]
      | .error _ => net.wardTo i w .ended []
    | some (w, .proved cw cg) =>
      match WardEnd.onReady f with
      | .ok _ => net.wardTo i w (.admitted cw cg) []
      | .error _ => net.wardTo i w .ended []
    | _ => net
  | .wardEnds i =>
    match net.wards i with
    | some (w, _) => net.wardTo i w .ended []
    | none => net
  | .accept j g =>
    match net.guardians j with
    | none => net.guardianTo j g .accepted []
    | some _ => net
  | .guardianReads j f cg =>
    match net.guardians j with
    | some (g, .accepted) =>
      match KeyPair.onHello f with
      | some cw =>
        match c.guardianProofSign (P.guardian g).sk cw cg with
        | some sig => net.guardianTo j g (.challenged cw cg) [.challenge j g cw cg sig]
        | none => net.guardianTo j g .ended []
      | none => net.guardianTo j g .ended []
    | some (g, .challenged cw cg) =>
      match (P.guardian g).onAuth (net.listeners g).allowed cw cg f with
      | some machine => net.guardianTo j g (.authenticated cw cg machine) []
      | none => net.guardianTo j g .ended []
    | _ => net
  | .enter j localIp now started =>
    match net.guardians j with
    | some (g, .authenticated cw cg machine) =>
      match (net.listeners g).enter machine localIp now started with
      | some (st, _) =>
        { net with listeners := Function.update net.listeners g st }.guardianTo j g
          (.admitted cw cg machine) [.session j g cw cg machine]
      | none => net.guardianTo j g .ended []
    | _ => net
  | .guardianEnds j =>
    match net.guardians j with
    | some (g, _) => net.guardianTo j g .ended []
    | none => net
  | .listener g st => { net with listeners := Function.update net.listeners g st }
  | .ack i wrap result ts =>
    match net.wards i with
    | some (w, .admitted _ _) =>
      { net with
        log := .ack w (c.signAck (P.ward w).keys.sk (P.ward w).guardian wrap result ts) :: net.log }
    | _ => net
  | .event party fields =>
    match c.schnorrSign (P.keys party).sk (c.digest (.event fields)) with
    | some sig => { net with log := .event party fields sig :: net.log }
    | none => net

end LinkNet

end Kintrinsic
