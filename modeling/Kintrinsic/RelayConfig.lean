import Kintrinsic.EffectRun
import Kintrinsic.FrameCodec

/-! # Relay lists signed by the guardian

A relay list is replaced by a code that the pinned guardian has signed for this machine, without any
relay that works.  A legacy list is expanded once.  The parser of URLs is a parameter, with what its
documentation says of secure URLs. -/
namespace Kintrinsic.Relays

open Text

/-! ## URLs -/

/-- What is read of a `url::Url`; `text` is its serialization. -/
structure Url where
  scheme : String
  host : Option String
  username : String
  password : Option String
  path : String
  query : Option String
  fragment : Option String
  text : String
deriving DecidableEq

/-- `s.trim()`. -/
def trimmed (s : String) : String := String.ofList (trim s.toList)

/-- The last character taken off. -/
def popped (s : String) : String := String.ofList s.toList.dropLast

/-- A `wss` URL with neither credentials nor a fragment. -/
def Url.Secure (u : Url) : Prop :=
  u.scheme = "wss" ∧ u.host.isSome = true ∧ u.username = "" ∧ u.password = none ∧ u.fragment = none

instance (u : Url) : Decidable u.Secure := inferInstanceAs (Decidable (_ ∧ _ ∧ _ ∧ _ ∧ _))

/-- A URL of nothing but its host. -/
def Url.Bare (u : Url) : Prop := u.path = "/" ∧ u.query = none

instance (u : Url) : Decidable u.Bare := inferInstanceAs (Decidable (_ ∧ _))

/-- The endpoint that is kept of a URL. -/
def Url.endpoint (u : Url) : String := if u.Bare then popped u.text else u.text

/-- `url::Url::parse`: a serialized URL parses to itself and has no white space around it, and where
it is secure and bare so does it without its last slash. -/
structure UrlParser where
  parse : String → Option Url
  parse_text : ∀ {s u}, parse s = some u → u.Secure → parse u.text = some u
  trim_text : ∀ {s u}, parse s = some u → u.Secure → trimmed u.text = u.text
  parse_popped : ∀ {s u}, parse s = some u → u.Secure → u.Bare → parse (popped u.text) = some u
  trim_popped : ∀ {s u}, parse s = some u → u.Secure → u.Bare → trimmed (popped u.text) = popped u.text

/-! ## Lists of relays -/

def defaultRelays : List String :=
  ["wss://relay.snort.social", "wss://nos.lol", "wss://relay.primal.net"]

section
variable (urls : UrlParser)

/-- The loop of `validate_relays`, with the endpoints so far. -/
def validateFrom (out : List String) : List String → Except String (List String)
  | [] => if out.length < 2 then .error "Choose at least two different secure relays." else .ok out
  | relay :: rest =>
    match urls.parse (trimmed relay) with
    | none => .error "Invalid relay URL."
    | some url =>
      if url.Secure then
        validateFrom (if url.endpoint ∈ out then out else out ++ [url.endpoint]) rest
      else .error "Each relay must be a wss:// URL without credentials or a fragment."

/-- `validate_relays`. -/
def validateRelays (relays : List String) : Except String (List String) :=
  if 10 < relays.length then .error "Choose between two and ten secure relays."
  else validateFrom urls [] relays

end

/-! ## The pairing -/

structure BatterySettings where
  screenOffSecs : Nat
  ordinarySecs : Nat
  requestBoost : Bool
  openingBoost : Bool
  boostSecs : Nat
deriving DecidableEq

namespace BatterySettings

/-- `valid`. -/
def valid (b : BatterySettings) : Bool :=
  decide (b.screenOffSecs ∈ [120, 300, 600]) && decide (b.ordinarySecs ∈ [30, 60, 120]) &&
    decide (b.boostSecs ∈ [60, 120, 180])

def toJson (b : BatterySettings) : Json :=
  .obj [("screenOffSecs", .int b.screenOffSecs), ("ordinarySecs", .int b.ordinarySecs),
    ("requestBoost", .bool b.requestBoost), ("openingBoost", .bool b.openingBoost),
    ("boostSecs", .int b.boostSecs)]

def ofValues (screenOff ordinary request opening boost : Json) : Option BatterySettings := do
  some ⟨← screenOff.asU64, ← ordinary.asU64, ← request.asBool, ← opening.asBool, ← boost.asU64⟩

/-- What serde reads the settings from; a field that is not known is refused. -/
def ofJson : Json → Option BatterySettings
  | .obj fields =>
    if fields.all fun f => ["screenOffSecs", "ordinarySecs", "requestBoost", "openingBoost",
        "boostSecs"].contains f.1 then do
      ofValues (← fields.lookup "screenOffSecs") (← fields.lookup "ordinarySecs")
        (← fields.lookup "requestBoost") (← fields.lookup "openingBoost")
        (← fields.lookup "boostSecs")
    else none
  | .arr [screenOff, ordinary, request, opening, boost] =>
    ofValues screenOff ordinary request opening boost
  | _ => none

end BatterySettings

/-- `Pairing`. -/
structure Pairing where
  guardianPubkey : PubKey
  relays : List String
  machine : PubKey
  subjectPubkey : PubKey
  auditTransparency : Bool
  pairedAt : UInt64
  relaysUpdatedAt : Option UInt64
  battery : Option BatterySettings
deriving DecidableEq

namespace Pairing

/-- The stamp of the last relay change. -/
def stamp (p : Pairing) : Nat := (p.relaysUpdatedAt.getD 0).toNat

def toJson (p : Pairing) : Json :=
  .obj ([("guardian_pubkey", .str p.guardianPubkey.toHex),
    ("relays", .arr (p.relays.map Json.str)), ("machine", .str p.machine.toHex),
    ("subject_pubkey", .str p.subjectPubkey.toHex),
    ("audit_transparency", .bool p.auditTransparency), ("paired_at", .int p.pairedAt.toNat),
    ("relays_updated_at", (p.relaysUpdatedAt.map fun t => Json.int t.toNat).getD .null)] ++
    (p.battery.map fun b => ("battery", b.toJson)).toList)

def pubKeyOfJson (v : Json) : Option PubKey := v.asString.bind fun s => (unhex32 s).map PubKey.mk

def u64OfJson (v : Json) : Option UInt64 := v.asU64.map UInt64.ofNat

/-- `stored_battery`: settings that cannot be read are none. -/
def storedBattery (v : Json) : Option BatterySettings :=
  (BatterySettings.ofJson v).filter (·.valid)

/-- A `Pairing` from the values of its fields; the last two may be left off. -/
def ofValues (guardian relays machine subject audit pairedAt : Json) (updatedAt battery : Option Json) :
    Option Pairing := do
  let guardian ← pubKeyOfJson guardian
  let relays ← (← relays.asArray).mapM Json.asString
  let machine ← pubKeyOfJson machine
  let subject ← pubKeyOfJson subject
  let audit ← audit.asBool
  let pairedAt ← u64OfJson pairedAt
  let updatedAt ← Json.optional u64OfJson updatedAt
  some ⟨guardian, relays, machine, subject, audit, pairedAt, updatedAt, battery.bind storedBattery⟩

/-- What serde reads a `Pairing` from. -/
def ofJson : Json → Option Pairing
  | .obj fields => do
    ofValues (← fields.lookup "guardian_pubkey") (← fields.lookup "relays")
      (← fields.lookup "machine") (← fields.lookup "subject_pubkey")
      (← fields.lookup "audit_transparency") (← fields.lookup "paired_at")
      (fields.lookup "relays_updated_at") (fields.lookup "battery")
  | .arr (guardian :: relays :: machine :: subject :: audit :: pairedAt :: rest) =>
    if rest.length ≤ 2 then ofValues guardian relays machine subject audit pairedAt rest[0]? rest[1]?
    else none
  | _ => none

end Pairing

/-- `migrate_legacy_relays`: whether the list was expanded, and the pairing. -/
def migrateLegacyRelays (urls : UrlParser) (p : Pairing) : Bool × Pairing :=
  if p.relaysUpdatedAt.isSome then (false, p)
  else if p.relays.any fun r => (urls.parse (trimmed r)).bind Url.host == some "relay.trotters.cc" then
    (true, { p with
      relays := defaultRelays.foldl (fun relays r => if r ∈ relays then relays else relays ++ [r])
        p.relays
      relaysUpdatedAt := some 0 })
  else (false, p)

/-! ## Signed codes -/

/-- `RelayConfig`. -/
structure RelayConfig where
  machine : PubKey
  relays : List String
  battery : Option BatterySettings

namespace RelayConfig

def ofValues (machine relays : Json) (battery : Option Json) : Option RelayConfig := do
  let machine ← Pairing.pubKeyOfJson machine
  let relays ← (← relays.asArray).mapM Json.asString
  let battery ← Json.optional BatterySettings.ofJson battery
  some ⟨machine, relays, battery⟩

/-- What serde reads a `RelayConfig` from; a field that is not known is refused. -/
def ofJson : Json → Option RelayConfig
  | .obj fields =>
    if fields.all fun f => ["machine", "relays", "battery"].contains f.1 then do
      ofValues (← fields.lookup "machine") (← fields.lookup "relays") (fields.lookup "battery")
    else none
  | .arr [machine, relays] => ofValues machine relays none
  | .arr [machine, relays, battery] => ofValues machine relays (some battery)
  | _ => none

end RelayConfig

/-- `has_tag`. -/
def hasTag (ev : NostrEvent) (name value : String) : Bool :=
  ev.tags.any fun t => decide (t[0]? = some name ∧ t[1]? = some value)

def charterDeviceRelays : Nat := 31118

def configTtlSecs : Nat := 600

/-- What the code is checked with: the parsers of JSON and of URLs, and the signatures. -/
structure Checker where
  crypto : Crypto
  urls : UrlParser
  fromStr : String → Option Json

section
variable (ck : Checker)

/-- An event that this pairing's guardian has signed for this machine. -/
def signedFor (p : Pairing) (ev : NostrEvent) : Bool :=
  decide (ev.pubkey = p.guardianPubkey ∧ ev.kind = charterDeviceRelays) &&
    hasTag ev "t" "charter-device" && hasTag ev "p" p.machine.toHex &&
    ck.crypto.idIsConsistent ev && ck.crypto.signatureIsValid ev

/-- An event that is neither from the future, nor expired, nor from before the pairing or the last
change. -/
def Fresh (p : Pairing) (ev : NostrEvent) (now : Nat) : Prop :=
  ev.createdAt ≤ now ∧ now - ev.createdAt ≤ configTtlSecs ∧ p.pairedAt.toNat ≤ ev.createdAt ∧
    p.stamp < ev.createdAt

instance (p : Pairing) (ev : NostrEvent) (now : Nat) : Decidable (Fresh p ev now) :=
  inferInstanceAs (Decidable (_ ∧ _ ∧ _ ∧ _))

/-- `apply_signed_config`: what is answered, and the pairing behind the reference afterwards. -/
def applySignedConfig (p : Pairing) (json : String) (now : UInt64) : Except String Unit × Pairing :=
  if 16384 < byteLen json.toList then (.error "Relay code is too long.", p)
  else
    match (ck.fromStr json).bind NostrEvent.ofJson with
    | none => (.error "Invalid signed relay code.", p)
    | some ev =>
      if !signedFor ck p ev then
        (.error "This relay code was not signed by this device's guardian.", p)
      else if ¬Fresh p ev now.toNat then
        (.error "This relay code has expired or was already used. Create a fresh code.", p)
      else
        match (ck.fromStr ev.content).bind RelayConfig.ofJson with
        | none => (.error "Invalid relay configuration.", p)
        | some config =>
          if config.machine ≠ p.machine then
            (.error "This relay code is for a different device.", p)
          else
            match validateRelays ck.urls config.relays with
            | .error e => (.error e, p)
            | .ok relays =>
              if config.battery.any fun b => !b.valid then (.error "Invalid battery settings.", p)
              else
                (.ok (), { p with
                  battery := config.battery.or p.battery
                  relays := relays
                  relaysUpdatedAt := some (UInt64.ofNat ev.createdAt) })

/-! ## Runs -/

/-- What happens to a pairing. -/
inductive Move
  | code (json : String) (now : UInt64)
  | migrate
  | restart

/-- One move, with the event that took effect. -/
def step (p : Pairing) : Move → Pairing × List NostrEvent
  | .code json now =>
    match applySignedConfig ck p json now with
    | (.ok (), q) => (q, ((ck.fromStr json).bind NostrEvent.ofJson).toList)
    | (.error _, q) => (q, [])
  | .migrate => ((migrateLegacyRelays ck.urls p).2, [])
  | .restart => ((Pairing.ofJson p.toJson).getD p, [])

end

end Kintrinsic.Relays
