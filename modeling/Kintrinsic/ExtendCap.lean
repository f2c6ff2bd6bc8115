import Kintrinsic.IntakeRecords
import Kintrinsic.TimeExtend

/-! # The cap on a time extension

The broker files a schedule and a budget under the child they are for, and takes its end of day from
the machine-wide slots.  These stay empty, so its day is always that of UTC. -/
namespace Kintrinsic

open MachineWord

/-! ## What the machine-wide slots hold -/

/-- No schedule and no budget is stored machine-wide. -/
structure NoMachineTimes (files : ClauseFiles) : Prop where
  schedule : files.get .machine ClauseKind.schedule.storeKey = .ok none
  budget : files.get .machine ClauseKind.budget.storeKey = .ok none

/-- The stores after some deliveries. -/
def ClauseFiles.receive (crypto : Crypto) (codec : StandingCodec) (link : Link)
    (files : ClauseFiles) (received : List (NostrEvent × IntakeIo)) : ClauseFiles :=
  received.foldl (fun files r => (clauseDisposition crypto codec link r.2 files r.1).2) files

/-- Only a content clause goes to a machine-wide slot. -/
theorem ClausePayload.kind_of_machine {payload : ClausePayload} {link : Link}
    (h : payload.slot link = .machine) : payload.kind = .content := by
  unfold slot at h
  split at h
  · cases h
  · split at h
    · assumption
    · cases h

theorem machine_get_kept (crypto : Crypto) (codec : StandingCodec) (link : Link)
    (files : ClauseFiles) (io : IntakeIo) (event : NostrEvent) {kind : ClauseKind}
    (hkind : kind ≠ .content) :
    (clauseDisposition crypto codec link io files event).2.get .machine kind.storeKey =
      files.get .machine kind.storeKey := by
  have hnone : storedFor crypto codec link .machine kind files io event = none := by
    unfold storedFor
    split
    · rfl
    · refine if_neg ?_
      rintro ⟨⟨hslot, rfl⟩, -⟩
      exact hkind (ClausePayload.kind_of_machine hslot)
  rw [clauseDisposition_get, hnone]

theorem NoMachineTimes.receive (crypto : Crypto) (codec : StandingCodec) (link : Link)
    {files : ClauseFiles} (h : NoMachineTimes files) (received : List (NostrEvent × IntakeIo)) :
    NoMachineTimes (files.receive crypto codec link received) := by
  unfold ClauseFiles.receive
  induction received generalizing files with
  | nil => exact h
  | cons r received ih =>
    refine ih ⟨?_, ?_⟩
    · rw [machine_get_kept crypto codec link files r.2 r.1 (by decide)]
      exact h.schedule
    · rw [machine_get_kept crypto codec link files r.2 r.1 (by decide)]
      exact h.budget

/-- The next midnight of UTC. -/
def utcMidnight (now : Int) : Int := (now / 86400 + 1) * 86400

theorem timeExtendEod_of_none (zones : Zones) (codec : ClauseCodec) {files : ClauseFiles}
    (h : NoMachineTimes files) (now : Int) :
    timeExtendEod zones codec files now = utcMidnight now := by
  unfold timeExtendEod ClauseFiles.machineClause
  rw [h.schedule, h.budget]
  change now + (Tz.utc.secsToEod now : Int) = _
  rw [Tz.secsToEod_utc]
  unfold utcMidnight
  omega

/-! ## How far the guardian's end of day can lie -/

theorem ontoMidnight_le (tz : Tz) (today : String) (n : Nat) (eod : Int) :
    ontoMidnight tz today n eod ≤ eod + n * 86400 := by
  induction n generalizing eod with
  | zero =>
    unfold ontoMidnight
    omega
  | succ n ih =>
    unfold ontoMidnight
    dsimp only
    split
    · omega
    · refine (ih _).trans ?_
      split <;> omega

theorem endOfDayUnix_le (zones : Zones) (phone : Tz) (now : Int) (tz : Option String) :
    endOfDayUnix zones phone now tz ≤ now + 432000 := by
  have hloop := ontoMidnight_le ((tz.bind zones).getD phone)
    (tzDayParts ((tz.bind zones).getD phone) now).1 4
    (now + (86400 - (tzDayParts ((tz.bind zones).getD phone) now).2))
  unfold endOfDayUnix
  dsimp only
  omega

/-- Where the offset does not change before it, the end of day is the zone's next midnight. -/
theorem endOfDayUnix_of_steady {zones : Zones} {phone tz : Tz} {name : String} {now o : Int}
    (hname : zones name = some tz) (hyear : PlainYear (tz.localDay now))
    (hyear' : PlainYear (tz.localDay now + 1)) (hnow : tz.offsetAt now = o)
    (hend : tz.offsetAt ((tz.localDay now + 1) * 86400 - o) = o) :
    endOfDayUnix zones phone now (some name) = (tz.localDay now + 1) * 86400 - o := by
  have hnaive : now + (86400 - (tz.secondOfDay now : Int)) = (tz.localDay now + 1) * 86400 - o := by
    unfold Tz.secondOfDay Tz.localDay Tz.wall
    rw [hnow]
    omega
  have hwall : tz.wall ((tz.localDay now + 1) * 86400 - o) = (tz.localDay now + 1) * 86400 := by
    unfold Tz.wall
    rw [hend]
    omega
  have hnext : tz.localDay ((tz.localDay now + 1) * 86400 - o) = tz.localDay now + 1 := by
    change tz.wall ((tz.localDay now + 1) * 86400 - o) / 86400 = _
    rw [hwall]
    omega
  have hday : jsDayKey (tz.localDay ((tz.localDay now + 1) * 86400 - o)) ≠
      jsDayKey (tz.localDay now) := by
    rw [hnext, jsDayKey_eq hyear, jsDayKey_eq hyear']
    intro hsame
    have := CivilDate.dateKey_inj hsame
    omega
  have hsecs : tz.secondOfDay ((tz.localDay now + 1) * 86400 - o) = 0 := by
    unfold Tz.secondOfDay
    rw [hwall]
    omega
  unfold endOfDayUnix
  dsimp only [Option.bind_some]
  rw [hname, Option.getD_some]
  dsimp only [tzDayParts]
  rw [hnaive]
  unfold ontoMidnight
  exact if_pos ⟨hday, hsecs⟩

/-- Such a zone's day ends with the UTC day when its date is not ahead of the UTC date, and, behind
UTC, is still the day before. -/
theorem steady_ends_with_utc_iff {zones : Zones} {phone tz : Tz} {name : String} {now o : Int}
    (hname : zones name = some tz) (hyear : PlainYear (tz.localDay now))
    (hyear' : PlainYear (tz.localDay now + 1)) (hnow : tz.offsetAt now = o)
    (hend : tz.offsetAt ((tz.localDay now + 1) * 86400 - o) = o) :
    endOfDayUnix zones phone now (some name) ≤ utcMidnight now + extendExpSkew ↔
      (tz.localDay now - now / 86400) * 86400 ≤ o + extendExpSkew := by
  rw [endOfDayUnix_of_steady hname hyear hyear' hnow hend]
  unfold utcMidnight
  omega

/-! ## The enactor's check -/

theorem TimeExtendGrantPayload.allowParams_verified (g : TimeExtendGrantPayload) :
    g.verified.allowParams =
      if g.decision = .allow then some (.timeExtend g.params) else none := by
  have houtcome : g.verified.outcome =
      if g.decision = .allow then .allow (.timeExtend g.params) else .deny := rfl
  unfold VerifiedGrant.allowParams
  rw [houtcome]
  by_cases hallow : g.decision = .allow
  · rw [if_pos hallow, if_pos hallow]
  · rw [if_neg hallow, if_neg hallow]

namespace TimeExtendEnactor
variable (zones : Zones) (e : TimeExtendEnactor) (ctx : EnactContext)

theorem route_ne_beyond (now : Int) (reqId : String) (p : TimeExtendGrantParams) :
    (e.route zones ctx now reqId p).1 ≠ .error beyondEndOfDay := by
  unfold route
  dsimp only
  split
  · simp [beyondEndOfDay]
  all_goals simp

/-- A grant that gives minutes is refused for its expiry exactly when it outlasts the day. -/
theorem enact_beyond_iff {g : TimeExtendGrantPayload} (hallow : g.decision = .allow)
    (hvalid : g.params.minutesGranted ≤ maxExtendMinutes) (hminutes : g.params.minutesGranted ≠ 0)
    {now eod : Int} (hnow : ctx.nowUnix = some now) (heod : ctx.eodUnix = some eod) :
    (e.enact zones g.verified ctx).1 = .error beyondEndOfDay ↔
      eod + extendExpSkew < asI64 g.exp := by
  have hparams : g.verified.allowParams = some (.timeExtend g.params) :=
    g.allowParams_verified.trans (if_pos hallow)
  have hvalidate : g.params.validate = .ok () := if_neg (Nat.not_lt.mpr hvalid)
  unfold enact
  rw [hparams]
  dsimp only
  rw [hvalidate]
  dsimp only
  rw [if_neg hminutes, hnow, heod]
  dsimp only
  by_cases hbeyond : eod + extendExpSkew < asI64 g.exp
  · exact iff_of_true (by rw [if_pos (show asI64 g.verified.exp > _ from hbeyond)]) hbeyond
  · refine iff_of_false ?_ hbeyond
    rw [if_neg (show ¬asI64 g.verified.exp > _ from hbeyond)]
    exact e.route_ne_beyond zones ctx now _ _

/-- A grant that gives no minutes is never refused for its expiry. -/
theorem enact_ne_beyond {g : TimeExtendGrantPayload}
    (h : g.decision = .deny ∨ g.params.minutesGranted = 0) :
    (e.enact zones g.verified ctx).1 ≠ .error beyondEndOfDay := by
  unfold enact
  rw [g.allowParams_verified]
  by_cases hallow : g.decision = .allow
  · have hzero := h.resolve_left (by rw [hallow]; decide)
    have hvalidate : g.params.validate = .ok () := by
      refine if_neg ?_
      rw [hzero]
      decide
    rw [if_pos hallow]
    dsimp only
    rw [hvalidate]
    dsimp only
    rw [if_pos hzero]
    simp
  · rw [if_neg hallow]
    simp [beyondEndOfDay]

end TimeExtendEnactor

/-! ## Answers to an ask -/

/-- A guardian's answer to an ask, signed at an instant that the dates of both sides represent. -/
structure TimeExtendAnswer where
  reqId : ReqId
  nonce : Nonce
  decision : Decision
  minutesGranted : Int
  limitHit : LimitHit
  bucketId : Option String
  time : Option String
  bucketsTz : Option String
  ts : Nat
  ts_lt : ts < 2 ^ 42

/-- The zone of a clause stored for a child. -/
def ClauseFiles.childTz {α : Type} (files : ClauseFiles) (subject : PubKey) (kind : ClauseKind)
    (parse : String → Option α) (tz : α → String) : Option String :=
  match files.get (.child subject) kind.storeKey with
  | .ok (some json) => (parse json).map tz
  | _ => none

/-- The decision on an answer, from the zones of the child's stored clauses. -/
def TimeExtendAnswer.decide (a : TimeExtendAnswer) (codec : ClauseCodec) (files : ClauseFiles)
    (subject : PubKey) : TimeExtendDecision :=
  let scheduleTz := files.childTz subject .schedule codec.schedule (·.tz)
  let budgetTz := files.childTz subject .budget codec.budget (·.tz)
  { reqId := a.reqId
    nonce := a.nonce
    decision := a.decision
    minutesGranted := a.minutesGranted
    limitHit := a.limitHit
    bucketId := a.bucketId
    time := a.time
    ts := a.ts
    ts_lt := a.ts_lt
    tz := pickExtendTz a.limitHit scheduleTz budgetTz a.bucketsTz
    scheduleTz := scheduleTz
    budgetTz := budgetTz }

namespace TimeExtendDecision
variable (zones : Zones) (phone : Tz) (d : TimeExtendDecision)

/-- The decision gives minutes. -/
def Gives : Prop := d.decision = .allow ∧ clampGrantMinutes d.minutesGranted ≠ 0

/-- The local day ends within five minutes of the UTC day, in the zone of the grant or in those of
the cap. -/
def EndsWithUtc : Prop :=
  endOfDayUnix zones phone d.ts d.tz ≤ utcMidnight d.ts + extendExpSkew ∨
    deviceExtendCapEod zones phone d.ts d.scheduleTz d.budgetTz ≤ utcMidnight d.ts + extendExpSkew

variable {zones phone d}

theorem exp_eq (zones : Zones) (phone : Tz) (d : TimeExtendDecision) :
    ((buildTimeExtendGrant zones phone d).exp : Int) =
    max (d.validUntil zones phone) (d.ts + 1) := by
  unfold buildTimeExtendGrant
  dsimp only
  omega

theorem asI64_exp : asI64 (buildTimeExtendGrant zones phone d).exp =
    max (d.validUntil zones phone) (d.ts + 1) := by
  have hnatural : d.validUntil zones phone ≤ d.ts + 432000 :=
    (min_le_left _ _).trans (endOfDayUnix_le zones phone d.ts d.tz)
  have hts := d.ts_lt
  have hexp := exp_eq zones phone d
  rw [asI64_of_lt (by omega), hexp]

theorem ts_lt_utcMidnight (ts : Int) : ts + 1 ≤ utcMidnight ts := by
  unfold utcMidnight
  omega

theorem utcMidnight_mono {ts now : Int} (h : ts ≤ now) : utcMidnight ts ≤ utcMidnight now := by
  unfold utcMidnight
  omega

theorem endsWithUtc_iff : d.EndsWithUtc zones phone ↔
    max (d.validUntil zones phone) (d.ts + 1) ≤ utcMidnight d.ts + extendExpSkew := by
  have hts := ts_lt_utcMidnight d.ts
  unfold EndsWithUtc validUntil extendExpSkew
  rw [max_le_iff, min_le_iff]
  exact (and_iff_left (by omega)).symm

end TimeExtendDecision

/-- **A grant is enactable from its signing to its expiry** in exactly these cases: it gives no
minutes, or the local day it is signed for ends within five minutes of the UTC day. -/
theorem extension_enactable_iff (zones : Zones) (phone : Tz) (crypto : Crypto)
    (standing : StandingCodec) (link : Link) (codec : ClauseCodec) {files : ClauseFiles}
    (hfresh : NoMachineTimes files) (received : List (NostrEvent × IntakeIo)) (subject : PubKey)
    (answer : TimeExtendAnswer) (e : TimeExtendEnactor) (usedToday usedWeek : Nat) :
    let stored := files.receive crypto standing link received
    let d := answer.decide codec stored subject
    let grant := buildTimeExtendGrant zones phone d
    (∀ now : Int, d.ts ≤ now → now ≤ grant.exp →
      (e.enact zones grant.verified
        ⟨some now, some (timeExtendEod zones codec stored now), usedToday, usedWeek⟩).1 ≠
          .error beyondEndOfDay) ↔
      (d.Gives → d.EndsWithUtc zones phone) := by
  intro stored d grant
  have hempty : NoMachineTimes stored := hfresh.receive crypto standing link received
  by_cases hgives : d.Gives
  · have hminutes : grant.params.minutesGranted = clampGrantMinutes d.minutesGranted :=
      if_pos hgives.1
    have hvalid : grant.params.minutesGranted ≤ maxExtendMinutes := by
      rw [hminutes]
      unfold clampGrantMinutes
      omega
    have hnonzero : grant.params.minutesGranted ≠ 0 := hminutes ▸ hgives.2
    have hreject : ∀ now : Int, (e.enact zones grant.verified
        ⟨some now, some (timeExtendEod zones codec stored now), usedToday, usedWeek⟩).1 ≠
          .error beyondEndOfDay ↔
        max (d.validUntil zones phone) (d.ts + 1) ≤ utcMidnight now + extendExpSkew := by
      intro now
      rw [ne_eq, e.enact_beyond_iff zones _ hgives.1 hvalid hnonzero rfl rfl,
        timeExtendEod_of_none zones codec hempty, TimeExtendDecision.asI64_exp, not_lt]
    rw [show (d.Gives → d.EndsWithUtc zones phone) ↔ d.EndsWithUtc zones phone from
      ⟨fun h => h hgives, fun h _ => h⟩, TimeExtendDecision.endsWithUtc_iff]
    constructor
    · intro hall
      refine (hreject d.ts).mp (hall d.ts le_rfl ?_)
      rw [TimeExtendDecision.exp_eq]
      omega
    · intro hts now hnow _
      refine (hreject now).mpr (hts.trans ?_)
      have hmono := TimeExtendDecision.utcMidnight_mono hnow
      omega
  · refine iff_of_true ?_ fun h => absurd h hgives
    intro now _ _
    refine e.enact_ne_beyond zones _ ?_
    by_cases hallow : d.decision = .allow
    · exact .inr ((if_pos hallow).trans (not_not.mp fun hne => hgives ⟨hallow, hne⟩))
    · exact .inl (by cases hd : d.decision with
        | allow => exact absurd hd hallow
        | deny => exact hd)

/-! ## A schedule in a zone behind UTC -/

/-- UTC, and a zone five hours behind it. -/
def westZones : Zones := fun name =>
  if name = "UTC" then some Tz.utc
  else if name = "Etc/GMT+5" then some ⟨-18000, [], by decide⟩ else none

/-- A schedule's body, which here is the name of its zone, and the clause it arrives in. -/
def scheduleClause (tz : String) : String :=
  "\x7b\"v\":1,\"kind\":\"schedule\",\"issuedAt\":10,\"body\":" ++ tz ++ "\x7d"

def zoneCodec : StandingCodec where
  clause s :=
    if s = scheduleClause "UTC" then .ok ⟨1, .schedule, none, 10, "UTC"⟩
    else if s = scheduleClause "Etc/GMT+5" then .ok ⟨1, .schedule, none, 10, "Etc/GMT+5"⟩
    else .error "missing field"
  usageSync _ := .error "missing field"
  release _ := .error "missing field"
  usageSyncJson _ := "\x7b\x7d"
  value s := some s

def zoneBodies : ClauseCodec where
  schedule tz := some ⟨1, tz, none, .empty, none, 10⟩
  budget _ := none
  learning _ := none

def scheduleDelivery (tz : String) : NostrEvent × IntakeIo :=
  (⟨⟨1⟩, ⟨7⟩, 1000, Kinds.charterDeviceClause, [], scheduleClause tz, ⟨0⟩⟩, .ok)

/-- Half an hour, allowed at noon in UTC. -/
def noonAnswer : TimeExtendAnswer :=
  ⟨⟨0x0b0b⟩, ⟨0x0c0c⟩, .allow, 30, .schedule, none, none, none, 1782734400, by decide⟩

/-- The stores of a device that has taken one schedule. -/
def storedZone (tz : String) : ClauseFiles :=
  ClauseFiles.receive genuineCrypto zoneCodec deviceLink .empty [scheduleDelivery tz]

def noonGrant (tz : String) : TimeExtendGrantPayload :=
  buildTimeExtendGrant westZones Tz.utc (noonAnswer.decide zoneBodies (storedZone tz) ⟨8⟩)

/-- What the enactor answers to that grant at an instant. -/
def enactedAt (tz : String) (now : Int) : Except String String :=
  (TimeExtendEnactor.enact westZones ⟨.new westZones "UTC" 1782734400, some []⟩
    (noonGrant tz).verified
    ⟨some now, some (timeExtendEod westZones zoneBodies (storedZone tz) now), 0, 0⟩).1

/-- With the schedule in UTC the grant is enactable an hour later. -/
theorem extension_enactable_iff_utc :
    (storedZone "UTC").childTz ⟨8⟩ .schedule zoneBodies.schedule (·.tz) = some "UTC" ∧
      enactedAt "UTC" 1782738000 ≠ .error beyondEndOfDay := by
  have hends : (noonAnswer.decide zoneBodies (storedZone "UTC") ⟨8⟩).EndsWithUtc westZones Tz.utc :=
    .inl (by decide +kernel)
  refine ⟨by decide +kernel, ?_⟩
  exact (extension_enactable_iff westZones Tz.utc genuineCrypto zoneCodec deviceLink zoneBodies
    ⟨rfl, rfl⟩ [scheduleDelivery "UTC"] ⟨8⟩ noonAnswer ⟨.new westZones "UTC" 1782734400, some []⟩
    0 0).mpr (fun _ => hends) 1782738000 (by decide +kernel) (by decide +kernel)

/-- **With the schedule five hours behind UTC** it is refused at the instant it is signed, though the
schedule is stored and its day goes on for seventeen hours. -/
theorem not_extension_enactable_west :
    (storedZone "Etc/GMT+5").childTz ⟨8⟩ .schedule zoneBodies.schedule (·.tz) = some "Etc/GMT+5" ∧
      (noonGrant "Etc/GMT+5").exp = 1782734400 + 17 * 3600 ∧
      enactedAt "Etc/GMT+5" 1782734400 = .error beyondEndOfDay := by
  decide +kernel

end Kintrinsic
