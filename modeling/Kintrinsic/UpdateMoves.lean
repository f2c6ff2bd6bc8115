import Kintrinsic.UpdateRound

/-! # What a step of the two tasks does

One case for each way a step can go, with the guards it passed. -/
namespace Kintrinsic

open ReleaseCheck

namespace SelfUpdate

/-- Two records of the same attempt: they differ in the error at most. -/
def SameAttempt (r r' : Option AttemptRecord) : Prop :=
  r.map (fun r => { r with lastError := none }) = r'.map fun r => { r with lastError := none }

theorem sameAttempt_ingested (r : Option AttemptRecord) (raw : String) :
    SameAttempt (ingested r raw) r := by
  unfold SameAttempt ingested
  cases parseInstallResult raw with
  | none => rfl
  | some result =>
    cases r with
    | none => rfl
    | some r =>
      dsimp only [Option.map_some]
      split <;> rfl

namespace Machine

/-- The record that a gate leaves. -/
def remembered (clause : Option UpdateAppBody) (installed : Nat)
    (history record : Option AttemptRecord) : Option AttemptRecord :=
  if history.any (forgets clause installed) then none else record

section
variable (c : Crypto) (sha256 : Bytes → Sha256Hex) (pinned : PubKey)

/-- A step, with what it is known to have found. -/
inductive Moves (m : Machine) : UpdateAction → Machine → Prop
  | stay (a : UpdateAction) : Moves m a m
  | clock (t : UnixSecs) : Moves m (.clock t) { m with clock := t }
  | helper (result : Option String) : Moves m (.helper result) { m with dir.result := result }
  | restart (installed : Nat) :
    Moves m (.restart installed)
      { m with installed, round := .idle, check := .idle, outcome := none }
  | ingest {clause : Option UpdateAppBody} {landed : Bool} {result : Option String}
    {history record : Option AttemptRecord} (hround : m.round = .idle)
    (hhistory : SameAttempt history m.dir.attempts) (hrecord : SameAttempt record m.dir.attempts) :
    Moves m (.ingest clause landed)
      { m with
        dir.result := result, dir.attempts := record, round := .ingested clause m.clock history }
  | refuse {clause : Option UpdateAppBody} {now : UnixSecs} {history : Option AttemptRecord}
    {outcome : RoundOutcome} (hround : m.round = .ingested clause now history) :
    Moves m .gate
      { m with
        dir.attempts := remembered clause m.installed history m.dir.attempts
        round := .idle, outcome := some outcome }
  | pass {clause : UpdateAppBody} {now : UnixSecs} {history : Option AttemptRecord}
    (hround : m.round = .ingested (some clause) now history)
    (hplan : plan (some clause) m.installed pinned
      (remembered (some clause) m.installed history history) now = .attempt) :
    Moves m .gate
      { m with
        dir.attempts := remembered (some clause) m.installed history m.dir.attempts
        round := .querying clause now (remembered (some clause) m.installed history history) }
  | note {clause : UpdateAppBody} {now : UnixSecs} {history : Option AttemptRecord} {landed : Bool}
    {events : Except String (List NostrEvent)} {why : String} {outcome : RoundOutcome}
    (hround : m.round = .querying clause now history) :
    Moves m (.answer events landed) (m.note clause now history landed why outcome)
  | attempt {clause : UpdateAppBody} {now : UnixSecs} {history : Option AttemptRecord}
    {landed : Bool} {events : List NostrEvent} {release : SoftwareRelease} {path : String}
    (hround : m.round = .querying clause now history)
    (hagree : agreeingRelease clause (verified c pinned events) = .ok release)
    (hpath : stagedPath release = some path) :
    Moves m (.answer (.ok events) landed)
      { m with
        dir := m.dir.save landed (recordAttempt history clause.versionCode now)
        round := .attempted clause release path (recordAttempt history clause.versionCode now) }
  | found {clause : UpdateAppBody} {release : SoftwareRelease} {path : String}
    {record : AttemptRecord} (hround : m.round = .attempted clause release path record)
    (hsha : (m.dir.staged path).map sha256 = some clause.apkSha256) :
    Moves m .look { m with round := .ready clause release path record }
  | seek {clause : UpdateAppBody} {release : SoftwareRelease} {path : String}
    {record : AttemptRecord} {urls : List String}
    (hround : m.round = .attempted clause release path record) :
    Moves m .look { m with round := .fetching clause release urls record }
  | next {clause : UpdateAppBody} {release : SoftwareRelease} {url : String} {urls : List String}
    {record : AttemptRecord} {body : Except String Bytes} {staged landed : Bool}
    (hround : m.round = .fetching clause release (url :: urls) record) :
    Moves m (.fetched body staged landed) (m.nextUrl clause release urls record landed)
  | got {clause : UpdateAppBody} {release : SoftwareRelease} {urls : List String}
    {record : AttemptRecord} {bytes : Bytes} {path : String} {staged landed : Bool}
    (hround : m.round = .fetching clause release urls record)
    (hpath : stagedPath release = some path) (hmatches : matchesRelease sha256 bytes release = true) :
    Moves m (.fetched (.ok bytes) staged landed)
      { m with
        dir.staged := Function.update m.dir.staged path (some bytes)
        round := .ready clause release path record }
  | launch {clause : UpdateAppBody} {release : SoftwareRelease} {path : String}
    {record written : AttemptRecord} {started : Except String Unit} {landed kept : Bool}
    {outcome : RoundOutcome} (hround : m.round = .ready clause release path record)
    (hwritten : SameAttempt (some written) (some record)) :
    Moves m (.launch started landed)
      { m with
        dir := { m.dir with result := none }.save kept written
        round := .idle
        outcome := some outcome
        launches := ⟨clause.versionCode, path, clause, release, m.installed, m.dir.staged path,
          record.lastAt⟩ :: m.launches }
  | check (a : UpdateAction) (check : CheckPhase) : Moves m a { m with check }
  | stage {r : SoftwareRelease} {urls : List String} {bytes : Bytes} {s : StagedUpdate}
    {staged : Bool} (hcheck : m.check = .downloading r urls)
    (hstage : (m.dir.stage sha256 bytes r staged).1 = some s)
    (hmatches : matchesRelease sha256 bytes r = true) :
    Moves m (.checkFetched (.ok bytes) staged)
      { m with dir.staged := Function.update m.dir.staged s.path (some bytes), check := .idle }

variable {c sha256 pinned} (m : Machine)

theorem ingest_moves (clause : Option UpdateAppBody) (landed : Bool) :
    Moves c sha256 pinned m (.ingest clause landed) (m.ingest clause landed) := by
  unfold ingest
  cases hround : m.round with
  | idle =>
    cases hresult : m.dir.result with
    | none =>
      have hmove : Moves c sha256 pinned m (.ingest clause landed)
          { m with
            dir.result := m.dir.result, dir.attempts := m.dir.attempts
            round := .ingested clause m.clock m.dir.attempts } := .ingest hround rfl rfl
      exact hmove
    | some raw =>
      refine .ingest hround (sameAttempt_ingested _ raw) ?_
      cases landed
      · rfl
      · exact sameAttempt_ingested _ raw
  | _ => exact .stay _

theorem gate_moves : Moves c sha256 pinned m .gate (m.gate pinned) := by
  unfold gate
  cases hround : m.round with
  | ingested clause now history =>
    dsimp only
    cases hplan : plan clause m.installed pinned
      (if history.any (forgets clause m.installed) then none else history) now with
    | skip why => exact .refuse hround
    | wait nextAt => exact .refuse hround
    | attempt =>
      cases clause with
      | none => cases hplan
      | some body => exact .pass hround hplan
  | _ => exact .stay _

theorem answer_moves (events : Except String (List NostrEvent)) (landed : Bool) :
    Moves c sha256 pinned m (.answer events landed) (m.answer c pinned events landed) := by
  unfold answer
  cases hround : m.round with
  | querying clause now history =>
    cases events with
    | error why => exact .note hround
    | ok events =>
      dsimp only
      cases hagree : agreeingRelease clause (verified c pinned events) with
      | error d => exact .note hround
      | ok release =>
        dsimp only
        cases hpath : stagedPath release with
        | none => exact .note hround
        | some path => exact .attempt hround hagree hpath
  | _ => exact .stay _

theorem look_moves : Moves c sha256 pinned m .look (m.look sha256) := by
  unfold look
  cases hround : m.round with
  | attempted clause release path record =>
    dsimp only
    unfold pickSource
    by_cases hsha : (m.dir.staged path).map sha256 = some clause.apkSha256
    · rw [if_pos hsha]
      exact .found hround hsha
    · rw [if_neg hsha]
      exact .seek hround
  | _ => exact .stay _

theorem fetched_moves (body : Except String Bytes) (staged landed : Bool) :
    Moves c sha256 pinned m (.fetched body staged landed)
      (m.fetched sha256 body staged landed) := by
  unfold fetched
  cases hround : m.round with
  | fetching clause release urls record =>
    cases urls with
    | nil => exact .stay _
    | cons url urls =>
      cases body with
      | error why => exact .next hround
      | ok bytes =>
        dsimp only
        cases hstage : (m.dir.stage sha256 bytes release staged).1 with
        | none =>
          have hdir := UpdatesDir.stage_none hstage
          rw [← Prod.eta (m.dir.stage sha256 bytes release staged), hstage, hdir]
          exact .next hround
        | some s =>
          obtain ⟨hpath, hmatches, hdir⟩ := UpdatesDir.stage_some hstage
          rw [← Prod.eta (m.dir.stage sha256 bytes release staged), hstage, hdir]
          exact .got hround hpath hmatches
  | _ => exact .stay _

theorem launch_moves (started : Except String Unit) (landed : Bool) :
    Moves c sha256 pinned m (.launch started landed) (m.launch started landed) := by
  unfold launch
  cases hround : m.round with
  | ready clause release path record =>
    cases started with
    | ok u =>
      have hmove : Moves c sha256 pinned m (.launch (.ok u) landed)
          { m with
            dir := { m.dir with result := none }.save false record
            round := .idle
            outcome := some (.launched clause.versionCode path)
            launches := ⟨clause.versionCode, path, clause, release, m.installed,
              m.dir.staged path, record.lastAt⟩ :: m.launches } := .launch hround rfl
      exact hmove
    | error e => exact .launch hround rfl
  | _ => exact .stay _

theorem startCheck_moves (a : UpdateAction) (events : Except String (List NostrEvent)) :
    Moves c sha256 pinned m a (m.startCheck c pinned events) := by
  unfold startCheck
  split
  · split
    · exact .stay a
    · split
      · exact .stay a
      · split
        · exact .stay a
        · exact .check a _
  · exact .stay a

theorem checkFetched_moves (body : Except String Bytes) (staged : Bool) :
    Moves c sha256 pinned m (.checkFetched body staged) (m.checkFetched sha256 body staged) := by
  unfold checkFetched
  cases hcheck : m.check with
  | idle => exact .stay _
  | downloading r urls =>
    cases urls with
    | nil => exact .stay _
    | cons url urls =>
      cases body with
      | error why => exact .check _ _
      | ok bytes =>
        dsimp only
        cases hstage : (m.dir.stage sha256 bytes r staged).1 with
        | none =>
          have hdir := UpdatesDir.stage_none hstage
          rw [← Prod.eta (m.dir.stage sha256 bytes r staged), hstage, hdir]
          exact .check _ _
        | some s =>
          obtain ⟨-, hmatches, hdir⟩ := UpdatesDir.stage_some hstage
          rw [← Prod.eta (m.dir.stage sha256 bytes r staged), hstage, hdir]
          exact .stage hcheck hstage hmatches

/-- **What a step does.** -/
theorem step_moves (a : UpdateAction) :
    Moves c sha256 pinned m a (step c sha256 pinned m a) := by
  cases a with
  | clock t => exact .clock t
  | helper result => exact .helper result
  | restart installed => exact .restart installed
  | ingest clause landed => exact ingest_moves m clause landed
  | gate => exact gate_moves m
  | answer events landed => exact answer_moves m events landed
  | look => exact look_moves m
  | fetched body staged landed => exact fetched_moves m body staged landed
  | launch started landed => exact launch_moves m started landed
  | check events => exact startCheck_moves m _ events
  | checkFetched body staged => exact checkFetched_moves m body staged

end

end Machine

end SelfUpdate

end Kintrinsic
