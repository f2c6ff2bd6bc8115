import Kintrinsic.UpdateMoves

/-! # Two keys, and one attempt in six hours

The installer is called on the file that the guardian's clause and the release key's announcement
both name, and the durable record keeps its calls for one version apart.  Both are invariants of the
two tasks' steps; what each needs of a step is its guard. -/
namespace Kintrinsic

open GuardedRun ReleaseCheck

namespace SelfUpdate

open Machine

section
variable (c : Crypto) (sha256 : Bytes → Sha256Hex) (pinned : PubKey)

/-! ## Two keys -/

/-- A clause that passed the gates, with an announcement by the release key that agrees. -/
structure Backed (installed : Nat) (clause : UpdateAppBody) (release : SoftwareRelease) :
    Prop where
  asks : Asks clause installed pinned
  announced : ∃ event, Announces c pinned channel event release
  version : release.versionCode = clause.versionCode
  hash : release.sha256 = clause.apkSha256

/-- A file is there, and its bytes hash to this. -/
def Hashes (file : Option Bytes) (h : Sha256Hex) : Prop := file.map sha256 = some h

/-- Both keys name what the installer was called on. -/
structure Launch.TwoKeys (l : Launch) : Prop where
  backed : Backed c pinned l.installed l.clause l.release
  code : l.versionCode = l.clause.versionCode
  staged : stagedPath l.release = some l.path
  bytes : Hashes sha256 l.file l.clause.apkSha256

/-- What a round has established so far. -/
def RoundPhase.Keyed (installed : Nat) (staged : String → Option Bytes) : RoundPhase → Prop
  | .idle | .ingested .. => True
  | .querying clause _ _ => Asks clause installed pinned
  | .attempted clause release path _ =>
    Backed c pinned installed clause release ∧ stagedPath release = some path
  | .fetching clause release _ _ => Backed c pinned installed clause release
  | .ready clause release path _ =>
    (Backed c pinned installed clause release ∧ stagedPath release = some path) ∧
      Hashes sha256 (staged path) clause.apkSha256

structure Keyed (m : Machine) : Prop where
  round : m.round.Keyed c sha256 pinned m.installed m.dir.staged
  launches : ∀ l ∈ m.launches, l.TwoKeys c sha256 pinned

/-- The release that a check downloads. -/
def CheckPhase.release? : CheckPhase → Option SoftwareRelease
  | .idle => none
  | .downloading release _ => some release

/-- A file about to be launched is the clause's. -/
def RoundPhase.Admits (path : String) (h : Sha256Hex) : RoundPhase → Prop
  | .ready clause _ path' _ => path' = path → h = clause.apkSha256
  | _ => True

instance (path : String) (h : Sha256Hex) : (p : RoundPhase) → Decidable (p.Admits path h)
  | .ready clause _ path' _ => inferInstanceAs (Decidable (path' = path → h = clause.apkSha256))
  | .idle | .ingested .. | .querying .. | .attempted .. | .fetching .. => .isTrue trivial

/-- No release check stages a file of another hash over the one that a round is about to launch. -/
def Undisturbed (m : Machine) : UpdateAction → Prop
  | .checkFetched (.ok bytes) staged =>
    ∀ r ∈ m.check.release?, ∀ s ∈ (m.dir.stage sha256 bytes r staged).1,
      m.round.Admits s.path r.sha256
  | _ => True

instance (m : Machine) : (a : UpdateAction) → Decidable (Undisturbed sha256 m a)
  | .checkFetched (.ok bytes) staged =>
    inferInstanceAs (Decidable (∀ r ∈ m.check.release?,
      ∀ s ∈ (m.dir.stage sha256 bytes r staged).1, m.round.Admits s.path r.sha256))
  | .checkFetched (.error _) _ | .clock _ | .helper _ | .restart _ | .ingest .. | .gate
  | .answer .. | .look | .fetched .. | .launch .. | .check _ => .isTrue trivial

variable {c sha256 pinned} {m : Machine}

theorem hashes_of_matches {bytes : Bytes} {r : SoftwareRelease}
    (h : matchesRelease sha256 bytes r = true) : sha256 bytes = r.sha256 := by
  unfold matchesRelease at h
  rw [Bool.and_eq_true] at h
  exact of_decide_eq_true h.2

theorem hashes_update_self {staged : String → Option Bytes} {path : String} {bytes : Bytes}
    {h : Sha256Hex} (hbytes : sha256 bytes = h) :
    Hashes sha256 (Function.update staged path (some bytes) path) h := by
  rw [Function.update_self]
  exact congrArg some hbytes

/-- A file that lands anywhere else, or with the same hash, leaves a round's file as it should be. -/
theorem RoundPhase.Keyed.update {installed : Nat} {staged : String → Option Bytes}
    {p : RoundPhase} {path : String} {bytes : Bytes}
    (h : p.Keyed c sha256 pinned installed staged)
    (hsame : ∀ clause release record, p = .ready clause release path record →
      sha256 bytes = clause.apkSha256) :
    p.Keyed c sha256 pinned installed (Function.update staged path (some bytes)) := by
  cases p with
  | ready clause release path' record =>
    refine ⟨h.1, ?_⟩
    by_cases hpath : path' = path
    · subst hpath
      exact hashes_update_self (hsame clause release record rfl)
    · rw [Function.update_of_ne hpath]
      exact h.2
  | idle | ingested | querying | attempted | fetching => exact h

theorem Keyed.step (h : Keyed c sha256 pinned m) {a : UpdateAction} {m' : Machine}
    (hmove : Moves c sha256 pinned m a m') (hguard : Undisturbed sha256 m a) :
    Keyed c sha256 pinned m' := by
  have hround := h.round
  cases hmove with
  | stay => exact h
  | clock | helper | check => exact ⟨h.round, h.launches⟩
  | restart | ingest | refuse => exact ⟨trivial, h.launches⟩
  | pass hingested hplan => exact ⟨(plan_attempt hplan).1, h.launches⟩
  | note => exact ⟨trivial, h.launches⟩
  | attempt hquerying hagree hpath =>
    rw [hquerying] at hround
    obtain ⟨hmem, hversion, hhash⟩ := agreeingRelease_ok hagree
    obtain ⟨event, -, hannounces⟩ := mem_verified hmem
    exact ⟨⟨⟨hround, ⟨event, hannounces⟩, hversion, hhash⟩, hpath⟩, h.launches⟩
  | found hattempted hsha =>
    rw [hattempted] at hround
    exact ⟨⟨hround, hsha⟩, h.launches⟩
  | seek hattempted =>
    rw [hattempted] at hround
    exact ⟨hround.1, h.launches⟩
  | @next clause release url urls record body staged landed hfetching =>
    rw [hfetching] at hround
    refine ⟨?_, by rw [nextUrl_launches]; exact h.launches⟩
    cases urls with
    | nil => trivial
    | cons url' urls => exact hround
  | got hfetching hpath hmatches =>
    rw [hfetching] at hround
    have hbytes := (hashes_of_matches hmatches).trans hround.hash
    exact ⟨⟨⟨hround, hpath⟩, hashes_update_self hbytes⟩, h.launches⟩
  | launch hready hwritten =>
    rw [hready] at hround
    refine ⟨trivial, fun l hl => ?_⟩
    rcases List.mem_cons.mp hl with rfl | hl
    · exact ⟨hround.1.1, rfl, hround.1.2, hround.2⟩
    · exact h.launches l hl
  | @stage r urls bytes s staged hcheck hstage hmatches =>
    refine ⟨hround.update ?_, h.launches⟩
    intro clause release record hready
    have hadmits := hguard r (hcheck ▸ rfl) s hstage
    rw [hready] at hadmits
    exact (hashes_of_matches hmatches).trans (hadmits rfl)

/-! ## One attempt in the window -/

/-- A version that has landed, or whose last launch is a window ago. -/
def Past (installed t : Nat) (l : Launch) : Prop :=
  l.versionCode ≤ installed ∨ l.now + attemptIntervalSecs ≤ t

/-- A record holds an attempt at the launched version, not before the launch. -/
def Noted (record : Option AttemptRecord) (t : Nat) (l : Launch) : Prop :=
  ∃ r, record = some r ∧ r.counts l.versionCode t = true ∧ l.now ≤ r.lastAt

/-- Any two launches of one version are a window apart; the newest comes first. -/
def Spaced (launches : List Launch) : Prop :=
  launches.Pairwise fun newer older =>
    newer.versionCode = older.versionCode → older.now + attemptIntervalSecs ≤ newer.now

/-- A record of an attempt, made while every version launched is past. -/
structure Counted (installed t : Nat) (launches : List Launch) (clause : UpdateAppBody)
    (record : AttemptRecord) : Prop where
  counts : record.counts clause.versionCode t = true
  newer : installed < clause.versionCode
  past : ∀ l ∈ launches, Past installed record.lastAt l

/-- What a round knows of the launches before it. -/
def RoundPhase.Clear (installed t : Nat) (launches : List Launch) : RoundPhase → Prop
  | .idle => True
  | .ingested _ now history =>
    now ≤ t ∧ ∀ l ∈ launches, Past installed now l ∨ Noted history now l
  | .querying clause now _ =>
    now ≤ t ∧ installed < clause.versionCode ∧ ∀ l ∈ launches, Past installed now l
  | .attempted clause _ _ record | .fetching clause _ _ record | .ready clause _ _ record =>
    Counted installed t launches clause record

structure Clear (m : Machine) : Prop where
  spaced : Spaced m.launches
  noted : ∀ l ∈ m.launches, Past m.installed m.clock l ∨ Noted m.dir.attempts m.clock l
  round : m.round.Clear m.installed m.clock m.launches

/-- The clock does not go back. -/
def Forward (m : Machine) : UpdateAction → Prop
  | .clock t => m.clock ≤ t
  | _ => True

instance (m : Machine) : (a : UpdateAction) → Decidable (Forward m a)
  | .clock t => inferInstanceAs (Decidable (m.clock ≤ t))
  | .helper _ | .restart _ | .ingest .. | .gate | .answer .. | .look | .fetched .. | .launch ..
  | .check _ | .checkFetched .. => .isTrue trivial

/-- A round that finds a record with its window open has a clause that names its version, or the
version has landed. -/
def RoundPhase.NamesRecord (installed : Nat) : RoundPhase → Prop
  | .ingested clause now (some r) =>
    r.counts r.versionCode now = true → now < r.lastAt + attemptIntervalSecs →
      r.versionCode ≤ installed ∨ clause.map (·.versionCode) = some r.versionCode
  | _ => True

instance (installed : Nat) : (p : RoundPhase) → Decidable (p.NamesRecord installed)
  | .ingested clause now (some r) =>
    inferInstanceAs (Decidable (r.counts r.versionCode now = true →
      now < r.lastAt + attemptIntervalSecs →
        r.versionCode ≤ installed ∨ clause.map (·.versionCode) = some r.versionCode))
  | .ingested _ _ none | .idle | .querying .. | .attempted .. | .fetching .. | .ready .. =>
    .isTrue trivial

/-- The record of the attempt that a round is about to launch is there. -/
def RoundPhase.FindsRecord (attempts : Option AttemptRecord) : RoundPhase → Prop
  | .ready _ _ _ record => attempts = some record
  | _ => True

instance (attempts : Option AttemptRecord) : (p : RoundPhase) → Decidable (p.FindsRecord attempts)
  | .ready _ _ _ record => inferInstanceAs (Decidable (attempts = some record))
  | .idle | .ingested .. | .querying .. | .attempted .. | .fetching .. => .isTrue trivial

/-- The record of an attempt stays while its window is open: the clause names its version at every
gate, its write landed before the launch, and no restart takes back a version that was launched
within the window and had landed. -/
def Kept (m : Machine) : UpdateAction → Prop
  | .gate => m.round.NamesRecord m.installed
  | .launch _ _ => m.round.FindsRecord m.dir.attempts
  | .restart installed =>
    ∀ l ∈ m.launches, l.versionCode ≤ m.installed → m.clock < l.now + attemptIntervalSecs →
      l.versionCode ≤ installed
  | _ => True

instance (m : Machine) : (a : UpdateAction) → Decidable (Kept m a)
  | .gate => inferInstanceAs (Decidable (m.round.NamesRecord m.installed))
  | .launch _ _ => inferInstanceAs (Decidable (m.round.FindsRecord m.dir.attempts))
  | .restart installed =>
    inferInstanceAs (Decidable (∀ l ∈ m.launches, l.versionCode ≤ m.installed →
      m.clock < l.now + attemptIntervalSecs → l.versionCode ≤ installed))
  | .clock _ | .helper _ | .ingest .. | .answer .. | .look | .fetched .. | .check _
  | .checkFetched .. => .isTrue trivial

section
variable {installed t t' : Nat} {l : Launch} {record record' : Option AttemptRecord}

theorem Past.mono (h : Past installed t l) (ht : t ≤ t') : Past installed t' l :=
  h.imp_right fun hpast => hpast.trans ht

theorem counts_iff {r : AttemptRecord} {versionCode now : Nat} :
    r.counts versionCode now = true ↔
      r.versionCode = versionCode ∧ 0 < r.attempts ∧ r.lastAt ≤ now := by
  unfold AttemptRecord.counts
  rw [Bool.and_eq_true, Bool.and_eq_true, decide_eq_true_iff, decide_eq_true_iff,
    decide_eq_true_iff, and_assoc]

theorem Noted.mono (h : Noted record t l) (ht : t ≤ t') : Noted record t' l := by
  obtain ⟨r, hr, hcounts, hlast⟩ := h
  obtain ⟨hcode, hattempts, hle⟩ := counts_iff.mp hcounts
  exact ⟨r, hr, counts_iff.mpr ⟨hcode, hattempts, hle.trans ht⟩, hlast⟩

/-- The error of a record does not matter. -/
theorem Noted.same (h : Noted record t l) (hsame : SameAttempt record' record) :
    Noted record' t l := by
  obtain ⟨r, rfl, hcounts, hlast⟩ := h
  obtain ⟨r', rfl, heq⟩ := Option.map_eq_some_iff.mp hsame
  obtain ⟨hcode, hattempts, -, hat, -⟩ := AttemptRecord.mk.inj heq
  obtain ⟨hc, ha, hle⟩ := counts_iff.mp hcounts
  exact ⟨r', rfl, counts_iff.mpr ⟨hcode.trans hc, hattempts ▸ ha, hat ▸ hle⟩, hat ▸ hlast⟩

/-- A record that a round forgets leaves every launch past, when its window is not cut short. -/
theorem past_of_forgets {clause : Option UpdateAppBody} {r : AttemptRecord}
    (hforgets : forgets clause installed r = true) (hcounts : r.counts l.versionCode t = true)
    (hlast : l.now ≤ r.lastAt)
    (hkept : t < r.lastAt + attemptIntervalSecs →
      r.versionCode ≤ installed ∨ clause.map (·.versionCode) = some r.versionCode) :
    Past installed t l := by
  have hcode := (counts_iff.mp hcounts).1
  by_cases hopen : t < r.lastAt + attemptIntervalSecs
  · refine .inl ?_
    unfold forgets at hforgets
    rw [Bool.or_eq_true, decide_eq_true_iff, decide_eq_true_iff] at hforgets
    have hlanded := (hkept hopen).resolve_right
    have hle : r.versionCode ≤ installed :=
      hforgets.elim id fun hne => hlanded hne
    omega
  · exact .inr (by omega)

end

/-- What a round has at its gate, past or noted, is past when the gate forgets it. -/
theorem past_of_gate {clause : Option UpdateAppBody} {now : UnixSecs}
    {history : Option AttemptRecord} (hround : m.round = .ingested clause now history)
    (hkept : Kept m .gate) (hforgot : history.any (forgets clause m.installed) = true) {l : Launch}
    (h : Past m.installed now l ∨ Noted history now l) : Past m.installed now l := by
  refine h.elim id ?_
  rintro ⟨r, rfl, hcounts, hlast⟩
  have hnames : m.round.NamesRecord m.installed := hkept
  rw [hround] at hnames
  refine past_of_forgets hforgot hcounts hlast (hnames ?_)
  obtain ⟨-, hattempts, hle⟩ := counts_iff.mp hcounts
  exact counts_iff.mpr ⟨rfl, hattempts, hle⟩

/-- What the gate leaves still covers every launch. -/
theorem noted_of_remembered {clause : Option UpdateAppBody} {now : UnixSecs}
    {history record : Option AttemptRecord} (hround : m.round = .ingested clause now history)
    (hkept : Kept m .gate) (hle : now ≤ m.clock) {l : Launch}
    (hnoted : Past m.installed m.clock l ∨ Noted record m.clock l)
    (h : Past m.installed now l ∨ Noted history now l) :
    Past m.installed m.clock l ∨
      Noted (remembered clause m.installed history record) m.clock l := by
  unfold remembered
  by_cases hforgot : history.any (forgets clause m.installed) = true
  · exact .inl ((past_of_gate hround hkept hforgot h).mono hle)
  · rw [if_neg hforgot]
    exact hnoted

/-- **An attempt is planned when every launch of its version is past.** -/
theorem past_of_pass {clause : UpdateAppBody} {now : UnixSecs} {history : Option AttemptRecord}
    (hround : m.round = .ingested (some clause) now history) (hkept : Kept m .gate)
    (hplan : plan (some clause) m.installed pinned
      (remembered (some clause) m.installed history history) now = .attempt) {l : Launch}
    (h : Past m.installed now l ∨ Noted history now l) : Past m.installed now l := by
  unfold remembered at hplan
  by_cases hforgot : history.any (forgets (some clause) m.installed) = true
  · exact past_of_gate hround hkept hforgot h
  · refine h.elim id ?_
    rintro ⟨r, rfl, hcounts, hlast⟩
    rw [if_neg hforgot] at hplan
    obtain ⟨hcode, hattempts, hle⟩ := counts_iff.mp hcounts
    have hnamed : clause.versionCode = r.versionCode := by
      rw [Option.any_some, forgets, Bool.or_eq_true, decide_eq_true_iff, decide_eq_true_iff] at hforgot
      exact Option.some.inj (not_not.mp fun hne => hforgot (.inr hne))
    have hwindow := (plan_attempt hplan).2 r rfl
      (counts_iff.mpr ⟨hnamed.symm, hattempts, hle⟩)
    have hnow := now.isLt
    rw [MachineWord.addU64_of_le (by unfold MachineWord.u64Max attemptIntervalSecs; omega)] at hwindow
    exact .inr (by omega)

theorem counts_recordAttempt (history : Option AttemptRecord) (versionCode now : Nat) :
    (recordAttempt history versionCode now).counts versionCode now = true ∧
      (recordAttempt history versionCode now).lastAt = now := by
  unfold recordAttempt
  cases hprev : history.filter (·.versionCode = versionCode) with
  | none => exact ⟨counts_iff.mpr ⟨rfl, Nat.one_pos, le_rfl⟩, rfl⟩
  | some r =>
    have hcode := (Option.filter_eq_some_iff.mp hprev).2
    refine ⟨counts_iff.mpr ⟨of_decide_eq_true hcode, ?_, le_rfl⟩, rfl⟩
    show 0 < min (r.attempts + 1) MachineWord.u32Max
    unfold MachineWord.u32Max
    omega

theorem RoundPhase.Clear.mono {installed t t' : Nat} {launches : List Launch} {p : RoundPhase}
    (h : p.Clear installed t launches) (ht : t ≤ t') : p.Clear installed t' launches := by
  have hcounted : ∀ clause record, Counted installed t launches clause record →
      Counted installed t' launches clause record := by
    rintro clause record ⟨hcounts, hnewer, hpast⟩
    obtain ⟨hcode, hattempts, hle⟩ := counts_iff.mp hcounts
    exact ⟨counts_iff.mpr ⟨hcode, hattempts, hle.trans ht⟩, hnewer, hpast⟩
  cases p with
  | idle => trivial
  | ingested clause now history => exact ⟨h.1.trans ht, h.2⟩
  | querying clause now history => exact ⟨h.1.trans ht, h.2⟩
  | attempted clause release path record => exact hcounted _ _ h
  | fetching clause release urls record => exact hcounted _ _ h
  | ready clause release path record => exact hcounted _ _ h

/-- The call of the installer: the new launch is a window after the ones of its version, and its
record is there. -/
theorem Clear.launch (h : Clear m) {clause : UpdateAppBody} {release : SoftwareRelease}
    {path : String} {record written : AttemptRecord} {kept : Bool} {outcome : RoundOutcome}
    {file : Option Bytes} (hready : m.round = .ready clause release path record)
    (hdisk : m.dir.attempts = some record) (hwritten : SameAttempt (some written) (some record)) :
    Clear { m with
      dir := { m.dir with result := none }.save kept written
      round := .idle
      outcome := some outcome
      launches := ⟨clause.versionCode, path, clause, release, m.installed, file, record.lastAt⟩ ::
        m.launches } := by
  have hround := h.round
  rw [hready] at hround
  obtain ⟨hcounts, hnewer, hpast⟩ := hround
  have hle := (counts_iff.mp hcounts).2.2
  refine ⟨List.pairwise_cons.mpr ⟨?_, h.spaced⟩, fun l hl => ?_, trivial⟩
  · intro l hl hcode
    rcases hpast l hl with hlanded | hwindow
    · have hversion : clause.versionCode = l.versionCode := hcode
      omega
    · exact hwindow
  · rcases List.mem_cons.mp hl with rfl | hl
    · refine .inr (Noted.same ⟨record, rfl, hcounts, le_rfl⟩ ?_)
      cases kept
      · exact congrArg _ hdisk
      · exact hwritten
    · exact .inl ((hpast l hl).mono hle)

theorem Clear.step (h : Clear m) {a : UpdateAction} {m' : Machine}
    (hmove : Moves c sha256 pinned m a m') (hforward : Forward m a) (hkept : Kept m a) :
    Clear m' := by
  have hround := h.round
  cases hmove with
  | stay => exact h
  | clock t =>
    exact ⟨h.spaced, fun l hl => (h.noted l hl).imp (·.mono hforward) (·.mono hforward),
      hround.mono hforward⟩
  | helper | check | stage => exact ⟨h.spaced, h.noted, h.round⟩
  | restart installed =>
    refine ⟨h.spaced, fun l hl => (h.noted l hl).imp_left ?_, trivial⟩
    rintro (hlanded | hpast)
    · by_cases hopen : (m.clock : Nat) < l.now + attemptIntervalSecs
      · exact .inl (hkept l hl hlanded hopen)
      · exact .inr (Nat.le_of_not_lt hopen)
    · exact .inr hpast
  | ingest hidle hhistory hrecord =>
    exact ⟨h.spaced, fun l hl => (h.noted l hl).imp_right (·.same hrecord), le_rfl,
      fun l hl => (h.noted l hl).imp_right (·.same hhistory)⟩
  | @refuse clause now history outcome hingested =>
    rw [hingested] at hround
    refine ⟨h.spaced, fun l hl => ?_, trivial⟩
    exact noted_of_remembered hingested hkept hround.1 (h.noted l hl) (hround.2 l hl)
  | @pass clause now history hingested hplan =>
    rw [hingested] at hround
    refine ⟨h.spaced, fun l hl => ?_, hround.1, (plan_attempt hplan).1.newer,
      fun l hl => past_of_pass hingested hkept hplan (hround.2 l hl)⟩
    exact noted_of_remembered hingested hkept hround.1 (h.noted l hl) (hround.2 l hl)
  | note hquerying =>
    rw [hquerying] at hround
    exact ⟨h.spaced, fun l hl => .inl ((hround.2.2 l hl).mono hround.1), trivial⟩
  | @attempt clause now history _ _ _ _ hquerying =>
    rw [hquerying] at hround
    obtain ⟨hcounts, hlast⟩ := counts_recordAttempt history clause.versionCode now
    obtain ⟨hcode, hattempts, -⟩ := counts_iff.mp hcounts
    refine ⟨h.spaced, fun l hl => .inl ((hround.2.2 l hl).mono hround.1),
      counts_iff.mpr ⟨hcode, hattempts, hlast.le.trans hround.1⟩, hround.2.1, ?_⟩
    rw [hlast]
    exact hround.2.2
  | found hattempted | seek hattempted =>
    rw [hattempted] at hround
    exact ⟨h.spaced, h.noted, hround⟩
  | @next clause release url urls record body staged landed hfetching =>
    rw [hfetching] at hround
    cases urls with
    | nil =>
      have hle := (counts_iff.mp hround.counts).2.2
      exact ⟨h.spaced, fun l hl => .inl ((hround.past l hl).mono hle), trivial⟩
    | cons url' urls => exact ⟨h.spaced, h.noted, hround⟩
  | got hfetching hpath hmatches =>
    rw [hfetching] at hround
    exact ⟨h.spaced, h.noted, hround⟩
  | launch hready hwritten =>
    have hfinds : m.round.FindsRecord m.dir.attempts := hkept
    rw [hready] at hfinds
    exact h.launch hready hfinds hwritten

theorem keyed_run (h : Keyed c sha256 pinned m) {as : List UpdateAction}
    (hguard : Obeys (Machine.step c sha256 pinned) (Undisturbed sha256) m as) :
    Keyed c sha256 pinned (m.run c sha256 pinned as) :=
  hguard.invariant (fun _ a h hguard => h.step (step_moves _ a) hguard) h

theorem clear_run (h : Clear m) {as : List UpdateAction}
    (hforward : Obeys (Machine.step c sha256 pinned) Forward m as)
    (hkept : Obeys (Machine.step c sha256 pinned) Kept m as) :
    Clear (m.run c sha256 pinned as) :=
  (hforward.and hkept).invariant (fun _ a h hguard => h.step (step_moves _ a) hguard.1 hguard.2) h

/-- **Two keys, and one attempt in six hours.**  Over any interleaving of rounds, release checks and
restarts, from any directory: undisturbed, the installer is called only on bytes that the clause and
an announcement of the release key both name, and with the record kept, calls for one version are
six hours apart. -/
theorem two_keys_kept (hstart : m.Started) (as : List UpdateAction) :
    (Obeys (Machine.step c sha256 pinned) (Undisturbed sha256) m as →
      ∀ l ∈ (m.run c sha256 pinned as).launches, l.TwoKeys c sha256 pinned) ∧
    (Obeys (Machine.step c sha256 pinned) Forward m as →
      Obeys (Machine.step c sha256 pinned) Kept m as →
        Spaced (m.run c sha256 pinned as).launches) := by
  have hkeyed : Keyed c sha256 pinned m :=
    ⟨by rw [hstart.round]; trivial, by rw [hstart.launches]; exact nofun⟩
  have hclear : Clear m :=
    ⟨by rw [hstart.launches]; exact .nil, by rw [hstart.launches]; exact nofun,
      by rw [hstart.round]; trivial⟩
  exact ⟨fun hguard => (keyed_run hkeyed hguard).launches,
    fun hforward hkept => (clear_run hclear hforward hkept).spaced⟩

end

/-! ## A clause that comes back, and a build that was replaced -/

/-- A deb of three bytes, and the build that replaces it. -/
def debBytes : Bytes := [100, 101, 98]

def rebuiltBytes : Bytes := [100, 101, 98, 50]

/-- SHA-256, of these two. -/
def debSha (bytes : Bytes) : Sha256Hex :=
  if bytes = debBytes then
    ⟨0x9cfa1468c93fc18652e34a000f0c6614b0fa18f6f4887477ad9b0d36ca6a7eaa⟩
  else if bytes = rebuiltBytes then
    ⟨0x5d84d5d8a3987d3a6f188f5fff1e5fcc77c692e65b0bb9a755ce5787a3084c63⟩
  else ⟨0⟩

def genuineEvents : Crypto := ⟨fun event => event.id, fun _ _ _ => true⟩

/-- The release key announces a version under the name `0.7.12`. -/
def announce (versionCode : String) (bytes : Bytes) : NostrEvent :=
  ⟨⟨1⟩, ⟨7⟩, 1000, Kinds.softwareRelease,
    [["d", channel], ["version", "0.7.12"], ["version_code", versionCode],
      ["x", (debSha bytes).toHex], ["size", toString bytes.length], ["url", "https://deb"]],
    "", ⟨0⟩⟩

/-- The guardian asks for 712. -/
def clause712 : UpdateAppBody :=
  ⟨1, "kintrinsic", 712, "0.7.12", "https://deb", debSha debBytes, ⟨7⟩⟩

/-- A machine that runs 711, with an empty directory. -/
def machine711 : Machine :=
  ⟨711, 1000, ⟨fun _ => none, none, none⟩, .idle, .idle, none, []⟩

/-- A round over the clause, up to its file. -/
def round712 : List UpdateAction :=
  [.ingest (some clause712) true, .gate, .answer (.ok [announce "712" debBytes]) true, .look,
    .fetched (.ok debBytes) true true]

/-- The clause goes, and is there again two minutes later. -/
def clauseReturns : List UpdateAction :=
  round712 ++ [.launch (.ok ()) true, .clock 1060, .ingest none true, .gate, .clock 1120] ++
    round712.take 4 ++ [.launch (.ok ()) true]

/-- The release check was downloading the next build of the same name. -/
def buildReplaced : List UpdateAction :=
  .check (.ok [announce "713" rebuiltBytes]) :: round712 ++
    [.checkFetched (.ok rebuiltBytes) true, .launch (.ok ()) true]

/-- The clause stays, and the round after the window tries again. -/
def clauseStays : List UpdateAction :=
  round712 ++ [.launch (.ok ()) true, .clock 1060, .ingest (some clause712) true, .gate,
    .clock 22600] ++ round712.take 4 ++ [.launch (.ok ()) true]

theorem two_keys_kept_clauseStays :
    (∀ l ∈ (machine711.run genuineEvents debSha ⟨7⟩ clauseStays).launches,
      l.TwoKeys genuineEvents debSha ⟨7⟩) ∧
    Spaced (machine711.run genuineEvents debSha ⟨7⟩ clauseStays).launches ∧
    (machine711.run genuineEvents debSha ⟨7⟩ clauseStays).launches.map (·.now) = [22600, 1000] :=
  have hkept := @two_keys_kept genuineEvents debSha ⟨7⟩ machine711 ⟨rfl, rfl, rfl⟩ clauseStays
  ⟨hkept.1 (by decide +kernel), hkept.2 (by decide +kernel) (by decide +kernel),
    by decide +kernel⟩

/-- **A clause that comes back is tried again at once, and a build that was replaced is launched.** -/
theorem two_keys_broken :
    Obeys (Machine.step genuineEvents debSha ⟨7⟩) Forward machine711 clauseReturns ∧
    ¬ Spaced (machine711.run genuineEvents debSha ⟨7⟩ clauseReturns).launches ∧
    ¬ ∀ l ∈ (machine711.run genuineEvents debSha ⟨7⟩ buildReplaced).launches,
      l.TwoKeys genuineEvents debSha ⟨7⟩ := by
  refine ⟨by decide +kernel, fun hspaced => ?_, fun hkeys => ?_⟩
  · have hpairs : ((machine711.run genuineEvents debSha ⟨7⟩ clauseReturns).launches.map
        fun l => (l.versionCode, l.now)) = [(712, 1120), (712, 1000)] := by decide +kernel
    have hapart : ([(712, 1120), (712, 1000)] : List (Nat × Nat)).Pairwise fun newer older =>
        newer.1 = older.1 → older.2 + attemptIntervalSecs ≤ newer.2 := by
      rw [← hpairs]
      exact List.pairwise_map.mpr hspaced
    exact absurd hapart (by decide)
  · have hfiles : ((machine711.run genuineEvents debSha ⟨7⟩ buildReplaced).launches.map
        fun l => (l.file.map debSha, l.clause.apkSha256)) =
          [(some (debSha rebuiltBytes), debSha debBytes)] := by decide +kernel
    obtain ⟨l, hl, hpair⟩ := List.mem_map.mp (hfiles ▸ List.mem_singleton_self _)
    have hbytes : l.file.map debSha = some l.clause.apkSha256 := (hkeys l hl).bytes
    obtain ⟨hfile, hsha⟩ := Prod.mk.inj hpair
    exact absurd (hfile.symm.trans (hbytes.trans (congrArg some hsha))) (by decide)

end SelfUpdate

end Kintrinsic
