import Kintrinsic.SoftwareRelease
import Kintrinsic.VerifyClause

/-! # The guardian's update

The guardian's `update` clause names a package, a version and the hash of its bytes.  It is acted on
when the release key has announced the same version with the same hash, and a durable record of the
attempts spaces them. -/
namespace Kintrinsic

open MachineWord ReleaseCheck

/-- The body of an `update` clause. -/
structure UpdateAppBody where
  v : Nat
  packageName : String
  versionCode : Nat
  versionName : String
  url : String
  apkSha256 : Sha256Hex
  signerCertSha256 : Sha256Hex
deriving DecidableEq

namespace SelfUpdate

/-- The Debian package the clause must name. -/
def debPackage : String := "kintrinsic"

def attemptIntervalSecs : Nat := 6 * 60 * 60

/-! ## The gates -/

/-- Why a clause leads to no attempt at all. -/
inductive Skip
  | noClause
  | badBody (why : String)
  | wrongPackage
  | wrongReleaseKey
  | upToDate
  | downgrade
deriving DecidableEq

/-- `check_clause`: the reason to refuse a clause, in the order of the gates. -/
def checkClause (body : UpdateAppBody) (installed : Nat) (pinned : PubKey) : Except Skip Unit :=
  if body.v ≠ clauseVersion then .error (.badBody "unknown body version")
  else if body.packageName ≠ debPackage then .error .wrongPackage
  else if body.versionCode = 0 then .error (.badBody "versionCode must be positive")
  else if !isHttps body.url then .error (.badBody "url must be https")
  else if body.signerCertSha256.bytes ≠ pinned.bytes then .error .wrongReleaseKey
  else if body.versionCode < installed then .error .downgrade
  else if body.versionCode = installed then .error .upToDate
  else .ok ()

/-- What a clause that passed the gates is. -/
structure Asks (body : UpdateAppBody) (installed : Nat) (pinned : PubKey) : Prop where
  version : body.v = clauseVersion
  package : body.packageName = debPackage
  https : isHttps body.url = true
  key : body.signerCertSha256.bytes = pinned.bytes
  newer : installed < body.versionCode

theorem checkClause_ok {body : UpdateAppBody} {installed : Nat} {pinned : PubKey}
    (h : checkClause body installed pinned = .ok ()) : Asks body installed pinned := by
  unfold checkClause at h
  by_cases hv : body.v = clauseVersion
  case neg => rw [if_pos hv] at h; cases h
  by_cases hp : body.packageName = debPackage
  case neg => rw [if_neg (not_not_intro hv), if_pos hp] at h; cases h
  rw [if_neg (not_not_intro hv), if_neg (not_not_intro hp)] at h
  by_cases hz : body.versionCode = 0
  case pos => rw [if_pos hz] at h; cases h
  cases hu : isHttps body.url
  case false => rw [if_neg hz, hu] at h; cases h
  by_cases hk : body.signerCertSha256.bytes = pinned.bytes
  case neg => rw [if_neg hz, hu, if_neg nofun, if_pos hk] at h; cases h
  rw [if_neg hz, hu, if_neg nofun, if_neg (not_not_intro hk)] at h
  by_cases hlt : body.versionCode < installed
  case pos => rw [if_pos hlt] at h; cases h
  by_cases heq : body.versionCode = installed
  case pos => rw [if_neg hlt, if_pos heq] at h; cases h
  exact ⟨hv, hp, hu, hk, by omega⟩

/-! ## The record of attempts -/

/-- One version's history.  With no attempt counted it carries only a note. -/
structure AttemptRecord where
  versionCode : Nat
  attempts : Nat
  sinceUnix : Nat
  lastAt : Nat
  lastError : Option String
deriving DecidableEq

/-- What the stored clause and the record call for. -/
inductive Plan
  | skip (why : Skip)
  | wait (nextAt : Nat)
  | attempt
deriving DecidableEq

/-- Whether a record is of an attempt at the version that had been made by now. -/
def AttemptRecord.counts (r : AttemptRecord) (versionCode now : Nat) : Bool :=
  decide (r.versionCode = versionCode) && decide (0 < r.attempts) && decide (r.lastAt ≤ now)

/-- `plan`: the gates, then the window since the last attempt. -/
def plan (clause : Option UpdateAppBody) (installed : Nat) (pinned : PubKey)
    (history : Option AttemptRecord) (now : Nat) : Plan :=
  match clause with
  | none => .skip .noClause
  | some body =>
    match checkClause body installed pinned with
    | .error skip => .skip skip
    | .ok () =>
      match history.filter (·.counts body.versionCode now) with
      | some r =>
        if now < addU64 r.lastAt attemptIntervalSecs then .wait (addU64 r.lastAt attemptIntervalSecs)
        else .attempt
      | none => .attempt

/-- An attempt is planned for a clause that passed the gates, outside the window of the last one. -/
theorem plan_attempt {body : UpdateAppBody} {installed : Nat} {pinned : PubKey}
    {history : Option AttemptRecord} {now : Nat}
    (h : plan (some body) installed pinned history now = .attempt) :
    Asks body installed pinned ∧ ∀ r, history = some r → r.counts body.versionCode now = true →
      addU64 r.lastAt attemptIntervalSecs ≤ now := by
  unfold plan at h
  dsimp only at h
  cases hcheck : checkClause body installed pinned with
  | error skip => rw [hcheck] at h; cases h
  | ok u =>
    refine ⟨checkClause_ok hcheck, ?_⟩
    rintro r rfl hcounts
    rw [hcheck, Option.filter_some, if_pos hcounts] at h
    dsimp only at h
    by_cases hlt : now < addU64 r.lastAt attemptIntervalSecs
    · rw [if_pos hlt] at h
      cases h
    · exact Nat.le_of_not_lt hlt

/-- `record_attempt`. -/
def recordAttempt (prev : Option AttemptRecord) (versionCode now : Nat) : AttemptRecord :=
  match prev.filter (·.versionCode = versionCode) with
  | some r =>
    { r with
      attempts := addU32 r.attempts 1
      lastAt := now
      lastError :=
        if r.attempts = 0 then none
        else r.lastError.or (some "the last install did not complete") }
  | none => ⟨versionCode, 1, now, now, none⟩

/-- `record_note`: why this round made no attempt. -/
def recordNote (prev : Option AttemptRecord) (versionCode now : Nat) (why : String) :
    AttemptRecord :=
  match prev.filter (·.versionCode = versionCode) with
  | some r => { r with lastError := some why }
  | none => ⟨versionCode, 0, now, 0, some why⟩

/-! ## What the install left -/

/-- What the install helper left in its result file. -/
structure InstallResult where
  versionCode : Nat
  exitCode : Int
  stderrTail : List Char
deriving DecidableEq

/-- The error of an install that did not end well, with the last lines that are not empty. -/
def InstallResult.error (r : InstallResult) : Option String :=
  if r.exitCode = 0 then none
  else
    let lines := ((Text.lines r.stderrTail).map Text.trim).filter (!·.isEmpty)
    let tail := [' ', '|', ' '].intercalate (lines.drop (lines.length - 3))
    let msg := "apt-get exited ".toList ++ (toString r.exitCode).toList
    some (String.ofList ((if tail.isEmpty then msg else msg ++ ':' :: ' ' :: tail).take 300))

/-- `parse::<i32>`. -/
def parseI32 : List Char → Option Int
  | '-' :: rest =>
    if rest.head? = some '+' then none
    else ((StatusSeq.parseU64 rest).filter (· ≤ 2 ^ 31)).map fun n => -(n : Int)
  | cs => ((StatusSeq.parseU64 cs).filter (· < 2 ^ 31)).map fun n => (n : Int)

/-- The two fields of a result's head; a line of neither makes the head unreadable. -/
def parseHead : List (List Char) → Option Nat × Option Int → Option (Option Nat × Option Int)
  | [], fields => some fields
  | line :: rest, (versionCode, exitCode) =>
    match Text.stripPrefix "versionCode=".toList line with
    | some v => parseHead rest (StatusSeq.parseU64 (Text.trim v), exitCode)
    | none =>
      match Text.stripPrefix "exit=".toList line with
      | some v => parseHead rest (versionCode, parseI32 (Text.trim v))
      | none => none

/-- `parse_install_result`. -/
def parseInstallResult (s : String) : Option InstallResult := do
  let (head, tail) ←
    (Text.splitOnce "\n---\n".toList s.toList).or
      ((Text.stripSuffix "\n---".toList s.toList).map fun h => (h, []))
  let (versionCode, exitCode) ← parseHead (Text.lines head) (none, none)
  return ⟨← versionCode, ← exitCode, tail⟩

/-- The record after a result was read: one about the same version sets its error. -/
def ingested (rec : Option AttemptRecord) (raw : String) : Option AttemptRecord :=
  match parseInstallResult raw with
  | none => rec
  | some result =>
    rec.map fun r =>
      if r.versionCode = result.versionCode then { r with lastError := result.error } else r

/-! ## The second key -/

/-- Why the release key does not back the clause. -/
inductive Disagreement
  | noAnnouncement
  | shaMismatch
deriving DecidableEq

def Disagreement.describe (versionCode : Nat) : Disagreement → String
  | .noAnnouncement => s!"no signed release announcement names version {versionCode} yet"
  | .shaMismatch =>
    s!"the signed release announcement for version {versionCode} names a different file"

/-- `agreeing_release`: the first verified announcement of the version and the hash. -/
def agreeingRelease (clause : UpdateAppBody) (releases : List SoftwareRelease) :
    Except Disagreement SoftwareRelease :=
  let sameVersion := releases.filter fun r =>
    decide (r.versionCode = clause.versionCode) && decide (r.sizeBytes ≤ maxArtifactBytes)
  if sameVersion.isEmpty then .error .noAnnouncement
  else match sameVersion.find? (·.sha256 = clause.apkSha256) with
    | some r => .ok r
    | none => .error .shaMismatch

theorem agreeingRelease_ok {clause : UpdateAppBody} {releases : List SoftwareRelease}
    {r : SoftwareRelease} (h : agreeingRelease clause releases = .ok r) :
    r ∈ releases ∧ r.versionCode = clause.versionCode ∧ r.sha256 = clause.apkSha256 := by
  unfold agreeingRelease at h
  dsimp only at h
  split at h
  · cases h
  split at h
  · rename_i r' hfind
    cases h
    obtain ⟨hmem, hkeep⟩ := List.mem_filter.mp (List.mem_of_find?_eq_some hfind)
    rw [Bool.and_eq_true] at hkeep
    have hsha := List.find?_some hfind
    exact ⟨hmem, of_decide_eq_true hkeep.1, of_decide_eq_true hsha⟩
  · cases h

/-- `fetch_urls`: the clause's own address, then the announced ones that carry the hash. -/
def fetchUrls (clause : UpdateAppBody) (release : SoftwareRelease) : List String :=
  release.urls.foldl
    (fun out u =>
      if isHttps u && decide (clause.apkSha256.toHex.toList <:+: u.toList) && !out.contains u
      then out ++ [u] else out)
    [clause.url]

/-- Where the bytes come from. -/
inductive Source
  | staged (path : String)
  | fetch (urls : List String)
deriving DecidableEq

/-- `pick_source`. -/
def pickSource (clause : UpdateAppBody) (release : SoftwareRelease) (staged : String)
    (stagedSha : Option Sha256Hex) : Source :=
  if stagedSha = some clause.apkSha256 then .staged staged else .fetch (fetchUrls clause release)

end SelfUpdate

end Kintrinsic
