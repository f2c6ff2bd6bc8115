import Kintrinsic.Hex
import Kintrinsic.StatusSeq
import Kintrinsic.WireTypes

/-! # Software releases

The release key announces, on relays, which bytes are the latest artifact of a channel.  An
announcement is authenticated against the compiled-in key, the newest one is picked, and downloaded
bytes go to their staged name only when they are the announced ones. -/
namespace Kintrinsic

def Kinds.softwareRelease : Nat := 30063

/-- `tag_value`: the value of the first tag of the name that has one. -/
def NostrEvent.tagValue (event : NostrEvent) (name : String) : Option String :=
  (event.tags.find? fun t => decide (2 ≤ t.length) && t.head? == some name).bind (·[1]?)

def Sha256Hex.toHex (h : Sha256Hex) : String := String.ofList (Hex.digits 64 h.bytes.toNat)

/-- `from_hex`: the exact length, lowercase only. -/
def Sha256Hex.fromHex (s : String) : Option Sha256Hex :=
  (Hex.read 64 s.toList).map fun n => ⟨BitVec.ofNat 256 n⟩

def isHttps (url : String) : Bool := "https://".toList.isPrefixOf url.toList

/-! ## Announcements -/

inductive SoftwareReleaseError
  | wrongKind
  | wrongChannel
  | badId
  | badSig
  | wrongAuthor
  | badShape (field : String)
deriving DecidableEq

/-- The authenticated announcement for one channel. -/
structure SoftwareRelease where
  channel : String
  versionName : String
  versionCode : Nat
  sha256 : Sha256Hex
  sizeBytes : Nat
  urls : List String
  certSha256 : Option Sha256Hex
  createdAt : Nat
deriving DecidableEq

namespace SoftwareRelease

/-- A required field, or the error that names it. -/
def field {α : Type} (name : String) : Option α → Except SoftwareReleaseError α
  | none => .error (.badShape name)
  | some a => .ok a

/-- A tag's number, when it is one and positive. -/
def positive (event : NostrEvent) (name : String) : Option Nat :=
  ((event.tagValue name).bind fun v => StatusSeq.parseU64 v.toList).filter (0 < ·)

/-- Every `url` tag, in the order of the event. -/
def urlTags (event : NostrEvent) : List String :=
  (event.tags.filter fun t => decide (2 ≤ t.length) && t.head? == some "url").filterMap (·[1]?)

/-- The fields of an announcement whose signature holds. -/
def parse (event : NostrEvent) (channel : String) :
    Except SoftwareReleaseError SoftwareRelease := do
  let versionName ← field "version" ((event.tagValue "version").filter (· ≠ ""))
  let versionCode ← field "version_code" (positive event "version_code")
  let sha256 ← field "x" ((event.tagValue "x").bind Sha256Hex.fromHex)
  let sizeBytes ← field "size" (positive event "size")
  let urls := urlTags event
  if urls.isEmpty then throw (.badShape "url")
  if urls.any (!isHttps ·) then throw (.badShape "url-not-https")
  let certSha256 ←
    match event.tagValue "cert" with
    | none => pure none
    | some s => (field "cert" (Sha256Hex.fromHex s)).map some
  return ⟨channel, versionName, versionCode, sha256, sizeBytes, urls, certSha256, event.createdAt⟩

end SoftwareRelease

section
variable (c : Crypto)

/-- `verify_software_release`. -/
def verifySoftwareRelease (event : NostrEvent) (pinnedReleaseKey : PubKey) (channel : String) :
    Except SoftwareReleaseError SoftwareRelease :=
  if event.kind ≠ Kinds.softwareRelease then .error .wrongKind
  else if event.tagValue "d" ≠ some channel then .error .wrongChannel
  else if !c.idIsConsistent event then .error .badId
  else if !c.signatureIsValid event then .error .badSig
  else if event.pubkey ≠ pinnedReleaseKey then .error .wrongAuthor
  else SoftwareRelease.parse event channel

/-- An announcement of the channel, signed by a key, that names a release. -/
structure Announces (pinned : PubKey) (channel : String) (event : NostrEvent)
    (r : SoftwareRelease) : Prop where
  kind : event.kind = Kinds.softwareRelease
  named : event.tagValue "d" = some channel
  genuine : c.idIsConsistent event = true
  signed : c.signatureIsValid event = true
  author : event.pubkey = pinned
  parsed : SoftwareRelease.parse event channel = .ok r

/-- **What verification accepts is signed by the pinned key.** -/
theorem verifySoftwareRelease_ok_iff {event : NostrEvent} {pinned : PubKey} {channel : String}
    {r : SoftwareRelease} :
    verifySoftwareRelease c event pinned channel = .ok r ↔
      Announces c pinned channel event r := by
  unfold verifySoftwareRelease
  constructor
  · intro h
    by_cases hkind : event.kind = Kinds.softwareRelease
    case neg => rw [if_pos hkind] at h; cases h
    by_cases hnamed : event.tagValue "d" = some channel
    case neg => rw [if_neg (not_not_intro hkind), if_pos hnamed] at h; cases h
    rw [if_neg (not_not_intro hkind), if_neg (not_not_intro hnamed)] at h
    cases hid : c.idIsConsistent event
    case false => rw [hid] at h; cases h
    cases hsig : c.signatureIsValid event
    case false => rw [hid, hsig] at h; cases h
    rw [hid, hsig] at h
    by_cases hauthor : event.pubkey = pinned
    case neg => rw [if_neg nofun, if_neg nofun, if_pos hauthor] at h; cases h
    rw [if_neg nofun, if_neg nofun, if_neg (not_not_intro hauthor)] at h
    exact ⟨hkind, hnamed, hid, hsig, hauthor, h⟩
  · rintro ⟨hkind, hnamed, hid, hsig, hauthor, hparsed⟩
    rw [if_neg (not_not_intro hkind), if_neg (not_not_intro hnamed), hid, hsig,
      if_neg nofun, if_neg nofun, if_neg (not_not_intro hauthor), hparsed]

end

/-! ## The release check -/

namespace ReleaseCheck

abbrev Bytes := List UInt8

/-- This platform's channel. -/
def channel : String := "charter-deb"

def maxArtifactBytes : Nat := 64 * 1024 * 1024

/-- Digits and dots only, starting and ending with a digit.  The length is that of an ASCII text. -/
def validVersionName (v : String) : Bool :=
  let cs := v.toList
  !cs.isEmpty && decide (cs.length ≤ 32) && cs.all (fun c => c.isDigit || c == '.') &&
    cs.head?.any (·.isDigit) && cs.getLast?.any (·.isDigit)

/-- `staged_path`: the name in the updates directory that a release lands at. -/
def stagedPath (r : SoftwareRelease) : Option String :=
  if validVersionName r.versionName then some ("charter_" ++ r.versionName ++ "_amd64.deb") else none

section
variable (c : Crypto)

/-- What verifies of the events that the relays sent. -/
def verified (pinned : PubKey) (events : List NostrEvent) : List SoftwareRelease :=
  events.filterMap fun event => (verifySoftwareRelease c event pinned channel).toOption

/-- `select_release`: the newest release above the installed one; the first of several wins. -/
def selectRelease (events : List NostrEvent) (pinned : PubKey) (installedCode : Nat) :
    Option SoftwareRelease :=
  (verified c pinned events).foldl
    (fun best r =>
      if r.versionCode ≤ installedCode then best
      else if maxArtifactBytes < r.sizeBytes then best
      else if best.all (·.versionCode < r.versionCode) then some r else best)
    none

end

/-- Whether `stage_bytes` writes bytes for a release: the signed size and the signed hash. -/
def matchesRelease (sha256 : Bytes → Sha256Hex) (bytes : Bytes) (r : SoftwareRelease) : Bool :=
  decide (bytes.length = r.sizeBytes) && decide (sha256 bytes = r.sha256)

end ReleaseCheck

theorem ReleaseCheck.mem_verified {c : Crypto} {pinned : PubKey} {events : List NostrEvent}
    {r : SoftwareRelease} (h : r ∈ ReleaseCheck.verified c pinned events) :
    ∃ event ∈ events, Announces c pinned ReleaseCheck.channel event r := by
  obtain ⟨event, hmem, hok⟩ := List.mem_filterMap.mp h
  refine ⟨event, hmem, (verifySoftwareRelease_ok_iff c).mp ?_⟩
  cases hverify : verifySoftwareRelease c event pinned channel with
  | error e => rw [hverify] at hok; cases hok
  | ok r' => rw [hverify] at hok; cases hok; rfl

end Kintrinsic
