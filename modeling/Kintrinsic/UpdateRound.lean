import Kintrinsic.GuardedRun
import Kintrinsic.SelfUpdate
import Mathlib.Logic.Function.Basic

/-! # Update rounds and release checks

Two tasks share the updates directory: the updater, which works the guardian's clause in rounds, and
the release check, which stages what the release key announced.  A round waits for relays, downloads
and blocking calls, and at every such place the other task may act or the machine restart. -/
namespace Kintrinsic

open ReleaseCheck

namespace SelfUpdate

/-- Seconds of the system clock since 1970. -/
abbrev UnixSecs := Fin (2 ^ 63)

/-! ## The updates directory -/

/-- The staged files by name, and the two files beside them. -/
structure UpdatesDir where
  staged : String → Option Bytes
  attempts : Option AttemptRecord
  result : Option String

/-- `save_record`; a write that fails is only logged. -/
def UpdatesDir.save (d : UpdatesDir) (landed : Bool) (record : AttemptRecord) : UpdatesDir :=
  if landed then { d with attempts := some record } else d

@[simp] theorem UpdatesDir.save_staged (d : UpdatesDir) (landed : Bool) (record : AttemptRecord) :
    (d.save landed record).staged = d.staged := by
  cases landed <;> rfl

/-- What got staged. -/
structure StagedUpdate where
  versionName : String
  versionCode : Nat
  path : String
deriving DecidableEq

/-- `stage_bytes`: bytes that match the announcement go to its staged name, when the write lands. -/
def UpdatesDir.stage (sha256 : Bytes → Sha256Hex) (d : UpdatesDir) (bytes : Bytes)
    (r : SoftwareRelease) (landed : Bool) : Option StagedUpdate × UpdatesDir :=
  match stagedPath r with
  | none => (none, d)
  | some path =>
    if matchesRelease sha256 bytes r && landed then
      (some ⟨r.versionName, r.versionCode, path⟩,
        { d with staged := Function.update d.staged path (some bytes) })
    else (none, d)

/-- What staging did, when it did something. -/
theorem UpdatesDir.stage_some {sha256 : Bytes → Sha256Hex} {d : UpdatesDir} {bytes : Bytes}
    {r : SoftwareRelease} {landed : Bool} {s : StagedUpdate}
    (h : (d.stage sha256 bytes r landed).1 = some s) :
    stagedPath r = some s.path ∧ matchesRelease sha256 bytes r = true ∧
      (d.stage sha256 bytes r landed).2 =
        { d with staged := Function.update d.staged s.path (some bytes) } := by
  unfold stage at h ⊢
  cases hpath : stagedPath r with
  | none => rw [hpath] at h; cases h
  | some path =>
    rw [hpath] at h
    dsimp only at h ⊢
    split at h
    · rename_i hmatches
      cases h
      rw [if_pos hmatches]
      rw [Bool.and_eq_true] at hmatches
      exact ⟨rfl, hmatches.1, rfl⟩
    · cases h

theorem UpdatesDir.stage_none {sha256 : Bytes → Sha256Hex} {d : UpdatesDir} {bytes : Bytes}
    {r : SoftwareRelease} {landed : Bool} (h : (d.stage sha256 bytes r landed).1 = none) :
    (d.stage sha256 bytes r landed).2 = d := by
  unfold stage at h ⊢
  cases hpath : stagedPath r with
  | none => rfl
  | some path =>
    rw [hpath] at h
    dsimp only at h ⊢
    split at h
    · cases h
    · rename_i hmatches
      rw [if_neg hmatches]

/-! ## The machine -/

/-- What one round did. -/
inductive RoundOutcome
  | skipped (why : Skip)
  | waiting (nextAt : Nat)
  | relaysUnreachable
  | refused (why : Disagreement)
  | fetchFailed
  | launched (versionCode : Nat) (path : String)
  | launchFailed (why : String)
deriving DecidableEq

/-- Where the updater stands, with what the round holds: the result was read, the relays are asked,
an attempt is counted, a download runs, the file is there. -/
inductive RoundPhase
  | idle
  | ingested (clause : Option UpdateAppBody) (now : UnixSecs) (history : Option AttemptRecord)
  | querying (clause : UpdateAppBody) (now : UnixSecs) (history : Option AttemptRecord)
  | attempted (clause : UpdateAppBody) (release : SoftwareRelease) (path : String)
      (record : AttemptRecord)
  | fetching (clause : UpdateAppBody) (release : SoftwareRelease) (urls : List String)
      (record : AttemptRecord)
  | ready (clause : UpdateAppBody) (release : SoftwareRelease) (path : String)
      (record : AttemptRecord)

/-- Where the release check stands. -/
inductive CheckPhase
  | idle
  | downloading (release : SoftwareRelease) (urls : List String)

/-- A call of the installer, with what stood when it was made; the time is the round's. -/
structure Launch where
  versionCode : Nat
  path : String
  clause : UpdateAppBody
  release : SoftwareRelease
  installed : Nat
  file : Option Bytes
  now : Nat

structure Machine where
  installed : Nat
  clock : UnixSecs
  dir : UpdatesDir
  round : RoundPhase
  check : CheckPhase
  outcome : Option RoundOutcome
  launches : List Launch

/-- What happens, one await or one file operation at a time.  `landed` says whether a write of the
attempt record landed, `staged` whether that of the downloaded file did. -/
inductive UpdateAction
  | clock (t : UnixSecs)
  | helper (result : Option String)
  | restart (installed : Nat)
  | ingest (clause : Option UpdateAppBody) (landed : Bool)
  | gate
  | answer (events : Except String (List NostrEvent)) (landed : Bool)
  | look
  | fetched (body : Except String Bytes) (staged landed : Bool)
  | launch (started : Except String Unit) (landed : Bool)
  | check (events : Except String (List NostrEvent))
  | checkFetched (body : Except String Bytes) (staged : Bool)

/-- Whether a record is forgotten: its version has landed, or the stored clause names another. -/
def forgets (clause : Option UpdateAppBody) (installed : Nat) (r : AttemptRecord) : Bool :=
  decide (r.versionCode ≤ installed) || decide (clause.map (·.versionCode) ≠ some r.versionCode)

namespace Machine

section
variable (m : Machine)

/-- A round that starts: what the install helper left goes into the record. -/
def ingest (clause : Option UpdateAppBody) (landed : Bool) : Machine :=
  match m.round with
  | .idle =>
    match m.dir.result with
    | none => { m with round := .ingested clause m.clock m.dir.attempts }
    | some raw =>
      let history := ingested m.dir.attempts raw
      { m with
        dir.result := none
        dir.attempts := if landed then history else m.dir.attempts
        round := .ingested clause m.clock history }
  | _ => m

/-- A round that ends without an attempt. -/
def stop (outcome : RoundOutcome) : Machine := { m with round := .idle, outcome := some outcome }

/-- A round that ends with a note of why. -/
def note (clause : UpdateAppBody) (now : UnixSecs) (history : Option AttemptRecord)
    (landed : Bool) (why : String) (outcome : RoundOutcome) : Machine :=
  { m with
    dir := m.dir.save landed (recordNote history clause.versionCode now why)
    round := .idle
    outcome := some outcome }

/-- The record that no clause names is dropped; then the gates and the window. -/
def gate (pinned : PubKey) : Machine :=
  match m.round with
  | .ingested clause now history =>
    let forgot := history.any (forgets clause m.installed)
    let history := if forgot then none else history
    let m := { m with dir.attempts := if forgot then none else m.dir.attempts }
    match clause, plan clause m.installed pinned history now with
    | _, .skip why => m.stop (.skipped why)
    | _, .wait nextAt => m.stop (.waiting nextAt)
    | some body, .attempt => { m with round := .querying body now history }
    | none, .attempt => m
  | _ => m

/-- The relays' answer: without an announcement that agrees there is no attempt; with one, the
attempt is counted before anything is fetched. -/
def answer (c : Crypto) (pinned : PubKey) (events : Except String (List NostrEvent))
    (landed : Bool) : Machine :=
  match m.round with
  | .querying clause now history =>
    match events with
    | .error why =>
      m.note clause now history landed s!"release relays unreachable ({why})" .relaysUnreachable
    | .ok events =>
      match agreeingRelease clause (verified c pinned events) with
      | .error d => m.note clause now history landed (d.describe clause.versionCode) (.refused d)
      | .ok release =>
        match stagedPath release with
        | none =>
          m.note clause now history landed "the release names an unusable version"
            (.refused .noAnnouncement)
        | some path =>
          let record := recordAttempt history clause.versionCode now
          { m with
            dir := m.dir.save landed record
            round := .attempted clause release path record }
  | _ => m

/-- The staged file is hashed, and the source picked. -/
def look (sha256 : Bytes → Sha256Hex) : Machine :=
  match m.round with
  | .attempted clause release path record =>
    match pickSource clause release path ((m.dir.staged path).map sha256) with
    | .staged path => { m with round := .ready clause release path record }
    | .fetch urls => { m with round := .fetching clause release urls record }
  | _ => m

/-- One address did not give the bytes: the next one, or the round failed. -/
def nextUrl (clause : UpdateAppBody) (release : SoftwareRelease) (urls : List String)
    (record : AttemptRecord) (landed : Bool) : Machine :=
  match urls with
  | [] =>
    let why := s!"could not download version {release.versionName} with the signed sha256"
    { m with
      dir := m.dir.save landed { record with lastError := some why }
      round := .idle
      outcome := some .fetchFailed }
  | urls => { m with round := .fetching clause release urls record }

@[simp] theorem nextUrl_launches (clause : UpdateAppBody) (release : SoftwareRelease)
    (urls : List String) (record : AttemptRecord) (landed : Bool) :
    (m.nextUrl clause release urls record landed).launches = m.launches := by
  cases urls <;> rfl

/-- A download of a round came back. -/
def fetched (sha256 : Bytes → Sha256Hex) (body : Except String Bytes) (staged landed : Bool) :
    Machine :=
  match m.round with
  | .fetching clause release (_ :: urls) record =>
    match body with
    | .error _ => m.nextUrl clause release urls record landed
    | .ok bytes =>
      match m.dir.stage sha256 bytes release staged with
      | (some s, dir) => { m with dir, round := .ready clause release s.path record }
      | (none, dir) => { m with dir }.nextUrl clause release urls record landed
  | _ => m

/-- The installer is called on the staged file. -/
def launch (started : Except String Unit) (landed : Bool) : Machine :=
  match m.round with
  | .ready clause release path record =>
    let m' := { m with
      dir.result := none
      round := .idle
      launches := ⟨clause.versionCode, path, clause, release, m.installed, m.dir.staged path,
        record.lastAt⟩ :: m.launches }
    match started with
    | .ok () => { m' with outcome := some (.launched clause.versionCode path) }
    | .error e =>
      { m' with
        dir := m'.dir.save landed { record with lastError := some e }
        outcome := some (.launchFailed e) }
  | _ => m

/-- A release check starts: nothing is fetched for a name that is already staged. -/
def startCheck (c : Crypto) (pinned : PubKey) (events : Except String (List NostrEvent)) :
    Machine :=
  match m.check with
  | .idle =>
    match selectRelease c (events.toOption.getD []) pinned m.installed with
    | none => m
    | some r =>
      match stagedPath r with
      | none => m
      | some path =>
        if (m.dir.staged path).isSome then m else { m with check := .downloading r r.urls }
  | _ => m

/-- A download of a release check came back. -/
def checkFetched (sha256 : Bytes → Sha256Hex) (body : Except String Bytes) (staged : Bool) :
    Machine :=
  match m.check with
  | .downloading r (_ :: urls) =>
    let next := if urls.isEmpty then CheckPhase.idle else .downloading r urls
    match body with
    | .error _ => { m with check := next }
    | .ok bytes =>
      match m.dir.stage sha256 bytes r staged with
      | (some _, dir) => { m with dir, check := .idle }
      | (none, dir) => { m with dir, check := next }
  | _ => m

end

section
variable (c : Crypto) (sha256 : Bytes → Sha256Hex) (pinned : PubKey)

def step (m : Machine) : UpdateAction → Machine
  | .clock t => { m with clock := t }
  | .helper result => { m with dir.result := result }
  | .restart installed => { m with installed, round := .idle, check := .idle, outcome := none }
  | .ingest clause landed => m.ingest clause landed
  | .gate => m.gate pinned
  | .answer events landed => m.answer c pinned events landed
  | .look => m.look sha256
  | .fetched body staged landed => m.fetched sha256 body staged landed
  | .launch started landed => m.launch started landed
  | .check events => m.startCheck c pinned events
  | .checkFetched body staged => m.checkFetched sha256 body staged

def run (m : Machine) (as : List UpdateAction) : Machine := as.foldl (step c sha256 pinned) m

end

/-- A machine whose process just started; what the directory holds is anything. -/
structure Started (m : Machine) : Prop where
  round : m.round = .idle
  check : m.check = .idle
  launches : m.launches = []

end Machine

end SelfUpdate

end Kintrinsic
