import Mathlib.Data.List.Basic

/-! # Wire types: identifiers, events, operations and grant payloads

The shapes of `charter-primitives` and `charter-proto` that the verifiers read.  A
`serde_json::Value` is carried as its canonical text, so that equal values are equal
texts.  What the crates take from libraries outside the tree is a parameter: the
JSON decoders of a payload are a `GrantCodec`, and SHA-256 with Schnorr
verification is a `Crypto`. -/
namespace Kintrinsic

/-! ## Identifiers -/

/-- A 256-bit brokered-request id. -/
structure ReqId where
  bytes : BitVec 256
deriving DecidableEq

/-- A 256-bit request nonce. -/
structure Nonce where
  bytes : BitVec 256
deriving DecidableEq

/-- A SHA-256 digest. -/
structure Sha256Hex where
  bytes : BitVec 256
deriving DecidableEq

/-- A 32-byte x-only public key. -/
structure PubKey where
  bytes : BitVec 256
deriving DecidableEq

/-- A NIP-01 event id. -/
structure EventId where
  bytes : BitVec 256
deriving DecidableEq

/-- A 64-byte Schnorr signature. -/
structure Sig where
  bytes : BitVec 512
deriving DecidableEq

/-! ## Events -/

/-- The NIP-01 signed envelope every charter-device message travels in. -/
structure NostrEvent where
  id : EventId
  pubkey : PubKey
  createdAt : Nat
  kind : Nat
  tags : List (List String)
  content : String
  sig : Sig
deriving DecidableEq

namespace Kinds

def charterDeviceRequest : Nat := 31111
def charterDeviceGrant : Nat := 31112
def charterDeviceClause : Nat := 31113
def charterDeviceUsageSync : Nat := 31115
def charterDeviceRelease : Nat := 31116

end Kinds

/-- Hashing and signatures: the event id is the SHA-256 of the canonical
serialization, and `schnorrVerify` checks a signature over an id. -/
structure Crypto where
  eventId : NostrEvent → EventId
  schnorrVerify : PubKey → EventId → Sig → Bool

namespace Crypto
variable (c : Crypto)

/-- Whether the claimed id matches the content. -/
def idIsConsistent (ev : NostrEvent) : Bool := c.eventId ev == ev.id

/-- Whether the signature over the recomputed id is the author's. -/
def signatureIsValid (ev : NostrEvent) : Bool :=
  c.schnorrVerify ev.pubkey (c.eventId ev) ev.sig

end Crypto

/-! ## Clause kinds -/

/-- The standing clauses a guardian can set. -/
inductive ClauseKind
  | schedule
  | budget
  | content
  | apps
  | learning
  | appRules
  | tethering
  | update
  | lifeline
  | buckets
  | gift
  | maintenance
  | standDown
  | listening
  | alwaysAvailable
  | debugging
  | times
  | connections
deriving DecidableEq

/-- The key of a kind in the clause stores. -/
def ClauseKind.storeKey : ClauseKind → Nat
  | schedule => 1
  | budget => 2
  | content => 3
  | apps => 4
  | learning => 5
  | appRules => 6
  | tethering => 7
  | update => 8
  | lifeline => 9
  | buckets => 10
  | maintenance => 11
  | gift => 12
  | standDown => 13
  | listening => 14
  | alwaysAvailable => 15
  | debugging => 16
  | times => 17
  | connections => 18

/-- Each kind has its own slot. -/
theorem ClauseKind.storeKey_injective : Function.Injective ClauseKind.storeKey := by
  intro a b h
  cases a <;> cases b <;> first | rfl | cases h

/-! ## Operations and decisions -/

/-- The brokered operations. -/
inductive OpType
  | installFlatpak
  | installApk
  | execAllow
  | timeExtend
  | appOpen
deriving DecidableEq

/-- The dotted wire string of an operation. -/
def OpType.asWire : OpType → String
  | installFlatpak => "install.flatpak"
  | installApk => "install.apk"
  | execAllow => "exec.allow"
  | timeExtend => "time.extend"
  | appOpen => "app.open"

/-- A guardian's decision. -/
inductive Decision
  | allow
  | deny
deriving DecidableEq

/-- Which limit the child hit when asking for more time. -/
inductive LimitHit
  | schedule
  | budget
  | bucket
deriving DecidableEq

/-- A JSON value, as its canonical text. -/
abbrev Value := String

/-- Why a wire payload did not parse. -/
inductive ProtoError
  | json (message : String)
  | badVersion (v : Nat)
  | badParams (message : String)
deriving DecidableEq

/-! ## Grant parameters -/

inductive Remote
  | flathub
deriving DecidableEq

inductive ApkSource
  | staged
deriving DecidableEq

structure InstallFlatpakParams where
  reference : String
  remote : Remote
deriving DecidableEq

structure InstallApkGrantParams where
  packageName : String
  versionCode : Option Nat
  signerCertSha256 : Sha256Hex
  source : ApkSource
deriving DecidableEq

structure ExecAllowParams where
  name : String
  sha256 : Sha256Hex
  size : Nat
  origin : Option String
deriving DecidableEq

structure TimeExtendGrantParams where
  minutesGranted : Nat
  limitHit : LimitHit
  bucketId : Option String
  time : Option String
deriving DecidableEq

structure AppOpenGrantParams where
  pkg : String
  minutesGranted : Nat
deriving DecidableEq

/-- The most minutes one `time.extend` may grant. -/
def maxExtendMinutes : Nat := 1440

/-- Two or more dot-separated segments, each a letter and then letters, digits or
underscores. -/
def validPackageName (s : String) : Bool :=
  let segments := s.toList.splitOn '.'
  s.utf8ByteSize ≤ 256 && 2 ≤ segments.length &&
    segments.all fun
      | [] => false
      | c :: cs => c.isAlpha && cs.all fun d => d.isAlphanum || d == '_'

def InstallApkGrantParams.validate (p : InstallApkGrantParams) : Except ProtoError Unit :=
  if validPackageName p.packageName then .ok () else .error (.badParams "invalid packageName")

/-- The bound `time.extend` and `app.open` grants share. -/
def validateMinutesGranted (minutes : Nat) : Except ProtoError Unit :=
  if minutes > maxExtendMinutes then .error (.badParams "minutesGranted exceeds 1440") else .ok ()

def TimeExtendGrantParams.validate (p : TimeExtendGrantParams) : Except ProtoError Unit :=
  validateMinutesGranted p.minutesGranted

def AppOpenGrantParams.validate (p : AppOpenGrantParams) : Except ProtoError Unit :=
  validateMinutesGranted p.minutesGranted

namespace FlatpakRef

def isRefChar (c : Char) : Bool := c.isAlphanum || c == '_' || c == '-'

/-- Whether a character stands twice in a row. -/
def doubled (c : Char) (chars : List Char) : Bool := chars.tails.any ([c, c].isPrefixOf ·)

/-- The app id, then at most an arch and a branch; no empty id component, no
traversal, nothing a shell would read. -/
def parse (s : String) : Bool :=
  let chars := s.toList
  let parts := chars.splitOn '/'
  !chars.isEmpty &&
    !(doubled '.' chars || doubled '/' chars || ['/'].isPrefixOf chars) &&
    chars.all (fun c => isRefChar c || c == '.' || c == '/') &&
    parts.length ≤ 3 &&
    ((parts.headD []).splitOn '.').all (fun c => !c.isEmpty && c.all isRefChar) &&
    parts.tail.all (fun p => p.all isRefChar)

end FlatpakRef

/-- The typed parameters a signed grant carries. -/
inductive GrantParams
  | installFlatpak (p : InstallFlatpakParams)
  | installApk (p : InstallApkGrantParams)
  | execAllow (p : ExecAllowParams)
  | timeExtend (p : TimeExtendGrantParams)
  | appOpen (p : AppOpenGrantParams)
deriving DecidableEq

/-! ## Grant payloads -/

/-- The decoded content of a GRANT; the parameters stay raw until the op is known. -/
structure GrantPayload where
  v : Nat
  op : OpType
  reqId : ReqId
  nonce : Nonce
  decision : Decision
  ts : Nat
  exp : Nat
  params : Value
deriving DecidableEq

/-- The JSON decoders of a grant and of its parameters; an error is the decoder's
own text. -/
structure GrantCodec where
  payload : String → Except String GrantPayload
  installFlatpak : Value → Except String InstallFlatpakParams
  installApk : Value → Except String InstallApkGrantParams
  execAllow : Value → Except String ExecAllowParams
  timeExtend : Value → Except String TimeExtendGrantParams
  appOpen : Value → Except String AppOpenGrantParams

def grantVersion : Nat := 1

/-- `GrantPayload::from_json`. -/
def GrantPayload.fromJson (c : GrantCodec) (s : String) : Except ProtoError GrantPayload :=
  match c.payload s with
  | .error e => .error (.json e)
  | .ok p => if p.v ≠ grantVersion then .error (.badVersion p.v) else .ok p

/-- Decode one op's parameters, then hold them to that op's own bounds. -/
def decodeParams {α : Type} (decoded : Except String α) (validate : α → Except ProtoError Unit)
    (wrap : α → GrantParams) : Except ProtoError GrantParams :=
  match decoded with
  | .error e => .error (.badParams e)
  | .ok p =>
    match validate p with
    | .error e => .error e
    | .ok () => .ok (wrap p)

/-- `GrantParams::parse`: every arm validates at the trust boundary. -/
def GrantParams.parse (c : GrantCodec) (op : OpType) (value : Value) :
    Except ProtoError GrantParams :=
  match op with
  | .installFlatpak =>
    decodeParams (c.installFlatpak value)
      (fun p =>
        if FlatpakRef.parse p.reference then .ok ()
        else .error (.badParams "ref is not a flatpak ref"))
      .installFlatpak
  | .installApk => decodeParams (c.installApk value) InstallApkGrantParams.validate .installApk
  | .execAllow => decodeParams (c.execAllow value) (fun _ => .ok ()) .execAllow
  | .timeExtend => decodeParams (c.timeExtend value) TimeExtendGrantParams.validate .timeExtend
  | .appOpen => decodeParams (c.appOpen value) AppOpenGrantParams.validate .appOpen

/-- `GrantPayload::grant_params`. -/
def GrantPayload.grantParams (c : GrantCodec) (p : GrantPayload) : Except ProtoError GrantParams :=
  GrantParams.parse c p.op p.params

/-- The op a parameter record belongs to. -/
def GrantParams.op : GrantParams → OpType
  | installFlatpak _ => .installFlatpak
  | installApk _ => .installApk
  | execAllow _ => .execAllow
  | timeExtend _ => .timeExtend
  | appOpen _ => .appOpen

theorem decodeParams_ok {α : Type} {d : Except String α} {validate : α → Except ProtoError Unit}
    {wrap : α → GrantParams} {params : GrantParams} (h : decodeParams d validate wrap = .ok params) :
    ∃ p, d = .ok p ∧ validate p = .ok () ∧ params = wrap p := by
  unfold decodeParams at h
  split at h
  · cases h
  · rename_i p
    split at h
    · cases h
    · exact ⟨p, rfl, ‹_›, (Except.ok.inj h).symm⟩

/-- Parameters parsed for an op are that op's: an enactor is never handed another's. -/
theorem GrantParams.parse_op {c : GrantCodec} {op : OpType} {value : Value} {params : GrantParams}
    (h : GrantParams.parse c op value = .ok params) : params.op = op := by
  unfold GrantParams.parse at h
  cases op <;> obtain ⟨p, -, -, rfl⟩ := decodeParams_ok h <;> rfl

theorem validateMinutesGranted_ok {m : Nat} (h : validateMinutesGranted m = .ok ()) :
    m ≤ maxExtendMinutes := by
  unfold validateMinutesGranted at h
  split at h
  · cases h
  · omega

/-- A `time.extend` grant that parses grants at most a day. -/
theorem GrantParams.parse_timeExtend_le {c : GrantCodec} {value : Value} {p : TimeExtendGrantParams}
    (h : GrantParams.parse c .timeExtend value = .ok (.timeExtend p)) :
    p.minutesGranted ≤ maxExtendMinutes := by
  obtain ⟨q, -, hv, hq⟩ := decodeParams_ok h
  cases hq
  exact validateMinutesGranted_ok hv

/-! ## Answers over the local link -/

/-- What a local ACK says. -/
inductive AckResult
  | applied
  | unchanged
  | superseded
  | expired
  | refused
  | failed
  | ignored
deriving DecidableEq

end Kintrinsic
