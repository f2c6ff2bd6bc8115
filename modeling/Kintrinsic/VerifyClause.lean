import Kintrinsic.Minutes
import Kintrinsic.WireTypes

/-! # Clauses, usage views and releases

The standing messages of a guardian and how each is authenticated: shape, event id, signature
and author first, the replay bound last. -/
namespace Kintrinsic

/-! ## Payloads -/

structure ClausePayload where
  v : Nat
  kind : ClauseKind
  subject : Option PubKey
  issuedAt : Nat
  body : Value
deriving DecidableEq

/-- The consolidated usage of a child's other devices. -/
structure UsageSyncPayload where
  v : Nat
  subject : PubKey
  ts : Nat
  dayKey : String
  spentElsewhereTodaySecs : Nat
  weekKey : Option String
  spentElsewhereWeekSecs : Option Nat
  elsewhereMinutesToday : Option String
deriving DecidableEq

structure ReleasePayload where
  v : Nat
  machine : PubKey
  issuedAt : Nat
deriving DecidableEq

/-- The JSON codec of the standing messages. -/
structure StandingCodec where
  clause : String → Except String ClausePayload
  usageSync : String → Except String UsageSyncPayload
  release : String → Except String ReleasePayload
  usageSyncJson : UsageSyncPayload → String
  value : String → Option Value

/-- A decoded payload of the one version implemented. -/
def ofVersion {α : Type} (version : α → Nat) (current : Nat) :
    Except String α → Except ProtoError α
  | .error e => .error (.json e)
  | .ok p => if version p ≠ current then .error (.badVersion (version p)) else .ok p

def clauseVersion : Nat := 1

def usageSyncVersion : Nat := 1

/-- `ClausePayload::from_json`. -/
def ClausePayload.fromJson (c : StandingCodec) (s : String) : Except ProtoError ClausePayload :=
  ofVersion ClausePayload.v clauseVersion (c.clause s)

/-- `UsageSyncPayload::from_json`. -/
def UsageSyncPayload.fromJson (c : StandingCodec) (s : String) :
    Except ProtoError UsageSyncPayload :=
  ofVersion UsageSyncPayload.v usageSyncVersion (c.usageSync s)

/-- `ReleasePayload::from_json`. -/
def ReleasePayload.fromJson (c : StandingCodec) (s : String) : Except ProtoError ReleasePayload :=
  ofVersion ReleasePayload.v 1 (c.release s)

/-! ## Authentication -/

variable (crypto : Crypto) (codec : StandingCodec) (event : NostrEvent) (pinnedGuardian : PubKey)

/-- Event id, signature and author, in this order. -/
def authenticate {ε : Type} (badSignature untrustedSigner : ε) : Except ε Unit :=
  if crypto.eventId event ≠ event.id then .error badSignature
  else if ¬crypto.signatureIsValid event then .error badSignature
  else if event.pubkey ≠ pinnedGuardian then .error untrustedSigner
  else .ok ()

structure VerifiedClause where
  kind : ClauseKind
  issuedAt : Nat
  body : Value
deriving DecidableEq

inductive ClauseError
  | malformed
  | badSignature
  | untrustedSigner
  | staleIssuedAt
  | badShape
deriving DecidableEq

/-- `verify_clause`. -/
def verifyClause (kind : ClauseKind) (prevIssuedAt : Option Nat) :
    Except ClauseError VerifiedClause :=
  if event.kind ≠ Kinds.charterDeviceClause then .error .malformed
  else
    match ClausePayload.fromJson codec event.content with
    | .error _ => .error .malformed
    | .ok payload =>
      if payload.kind ≠ kind then .error .badShape
      else
        match authenticate crypto event pinnedGuardian ClauseError.badSignature .untrustedSigner with
        | .error e => .error e
        | .ok () =>
          if prevIssuedAt.any (payload.issuedAt ≤ ·) then .error .staleIssuedAt
          else .ok ⟨payload.kind, payload.issuedAt, payload.body⟩

structure VerifiedUsageSync where
  ts : Nat
  payload : UsageSyncPayload
deriving DecidableEq

inductive UsageSyncError
  | malformed
  | badSignature
  | untrustedSigner
  | staleTs
deriving DecidableEq

/-- `verify_usage_sync`; a bitmap that is there and does not decode is malformed. -/
def verifyUsageSync (prevTs : Option Nat) : Except UsageSyncError VerifiedUsageSync :=
  if event.kind ≠ Kinds.charterDeviceUsageSync then .error .malformed
  else
    match UsageSyncPayload.fromJson codec event.content with
    | .error _ => .error .malformed
    | .ok payload =>
      if payload.elsewhereMinutesToday.any fun bm => (MinuteSet.fromB64url bm).isNone then
        .error .malformed
      else
        match authenticate crypto event pinnedGuardian UsageSyncError.badSignature
          .untrustedSigner with
        | .error e => .error e
        | .ok () =>
          if prevTs.any (payload.ts ≤ ·) then .error .staleTs
          else .ok ⟨payload.ts, payload⟩

inductive ReleaseError
  | malformed
  | badSignature
  | untrustedSigner
  | wrongMachine
  | stale
deriving DecidableEq

/-- Two days. -/
def releaseFreshnessSecs : Nat := 2 * 24 * 60 * 60

/-- `verify_release`. -/
def verifyRelease (machine : PubKey) (now : Nat) : Except ReleaseError Unit :=
  if event.kind ≠ Kinds.charterDeviceRelease then .error .malformed
  else
    match ReleasePayload.fromJson codec event.content with
    | .error _ => .error .malformed
    | .ok payload =>
      match authenticate crypto event pinnedGuardian ReleaseError.badSignature .untrustedSigner with
      | .error e => .error e
      | .ok () =>
        if payload.machine ≠ machine then .error .wrongMachine
        else if (now - payload.issuedAt) + (payload.issuedAt - now) > releaseFreshnessSecs then
          .error .stale
        else .ok ()

variable {crypto codec event pinnedGuardian}

/-- **What an accepted clause says**: it is the payload of the event, and above the bound. -/
theorem verifyClause_ok {kind : ClauseKind} {prev : Option Nat} {vc : VerifiedClause}
    (h : verifyClause crypto codec event pinnedGuardian kind prev = .ok vc) :
    ∃ payload, ClausePayload.fromJson codec event.content = .ok payload ∧
      vc = ⟨payload.kind, payload.issuedAt, payload.body⟩ ∧ payload.kind = kind ∧
      authenticate crypto event pinnedGuardian ClauseError.badSignature .untrustedSigner = .ok () ∧
      ∀ b ∈ prev, b < payload.issuedAt := by
  unfold verifyClause at h
  split at h
  · cases h
  split at h
  · cases h
  rename_i payload hdec
  split at h
  · cases h
  rename_i hkind
  split at h
  · cases h
  rename_i hauth
  split at h
  · cases h
  rename_i hfresh
  cases h
  refine ⟨payload, hdec, rfl, not_not.mp hkind, hauth, ?_⟩
  intro b hb
  obtain rfl := Option.mem_def.mp hb
  simpa using hfresh

/-- The bound is the last check: for a clause that passes the others it alone decides. -/
theorem verifyClause_bound {kind : ClauseKind} {vc : VerifiedClause} (prev : Option Nat)
    (h : verifyClause crypto codec event pinnedGuardian kind none = .ok vc) :
    verifyClause crypto codec event pinnedGuardian kind prev =
      if prev.any (vc.issuedAt ≤ ·) then .error .staleIssuedAt else .ok vc := by
  unfold verifyClause at h ⊢
  split at h
  · cases h
  split at h
  · cases h
  split at h
  · cases h
  split at h
  · cases h
  rename_i hkind _ payload hdec hshape _ hauth
  cases h
  simp only [if_neg hkind, if_neg hshape]

end Kintrinsic
