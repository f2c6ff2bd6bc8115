import Kintrinsic.ChildPolicy
import Kintrinsic.ClauseStore
import Kintrinsic.ExtensionRuns
import Kintrinsic.GuardianDates
import Kintrinsic.Hex
import Kintrinsic.VerifyGrant

/-! # A time extension, signed and enacted

The guardian signs an extension until the end of a local day, the enactor takes it if that is no
later than an end of day of the broker's own.  The broker's comes from the machine-wide slots. -/
namespace Kintrinsic

open MachineWord

def ReqId.toHex (id : ReqId) : String := String.ofList (Hex.digits 64 id.bytes.toNat)

/-! ## The guardian -/

/-- The loop of `endOfDayUnix`: onto the day's boundary, from either side. -/
def ontoMidnight (tz : Tz) (today : String) : Nat → Int → Int
  | 0, eod => eod
  | n + 1, eod =>
    let parts := tzDayParts tz eod
    if parts.1 ≠ today ∧ parts.2 = 0 then eod
    else ontoMidnight tz today n (if parts.1 = today then eod + (86400 - parts.2) else eod - parts.2)

variable (zones : Zones) (phone : Tz)

/-- `endOfDayUnix`; a zone that is absent or unknown is the phone's. -/
def endOfDayUnix (nowSecs : Int) (tz : Option String) : Int :=
  let zone := (tz.bind zones).getD phone
  let now := tzDayParts zone nowSecs
  ontoMidnight zone now.1 4 (nowSecs + (86400 - now.2))

/-- Whether an optional text is there and not empty. -/
def isTruthy (s : Option String) : Bool := s.any (· ≠ "")

/-- `deviceExtendCapEod`. -/
def deviceExtendCapEod (ts : Int) (scheduleTz budgetTz : Option String) : Int :=
  if isTruthy scheduleTz && isTruthy budgetTz then
    max (endOfDayUnix zones phone ts scheduleTz) (endOfDayUnix zones phone ts budgetTz)
  else if isTruthy scheduleTz then endOfDayUnix zones phone ts scheduleTz
  else if isTruthy budgetTz then endOfDayUnix zones phone ts budgetTz
  else endOfDayUnix zones phone ts (some "UTC")

/-- `pickExtendTz`. -/
def pickExtendTz (limitHit : LimitHit) (scheduleTz budgetTz bucketsTz : Option String) :
    Option String :=
  match limitHit with
  | .bucket => (scheduleTz.or budgetTz).or bucketsTz
  | .budget => budgetTz.or scheduleTz
  | .schedule => scheduleTz.or budgetTz

/-- `clampGrantMinutes`, of a finite number. -/
def clampGrantMinutes (minutes : Int) : Nat := (min (maxExtendMinutes : Int) (max 0 minutes)).toNat

/-- The guardian's decision on one ask, at an instant that the dates of both sides represent. -/
structure TimeExtendDecision where
  reqId : ReqId
  nonce : Nonce
  decision : Decision
  minutesGranted : Int
  limitHit : LimitHit
  bucketId : Option String
  time : Option String
  ts : Nat
  ts_lt : ts < 2 ^ 42
  tz : Option String
  scheduleTz : Option String
  budgetTz : Option String

/-- The GRANT payload of a `time.extend` decision. -/
structure TimeExtendGrantPayload where
  reqId : ReqId
  nonce : Nonce
  decision : Decision
  ts : Nat
  exp : Nat
  params : TimeExtendGrantParams
deriving DecidableEq

/-- The end of day of the decision's zone, capped as the device is taken to cap it. -/
def TimeExtendDecision.validUntil (d : TimeExtendDecision) : Int :=
  min (endOfDayUnix zones phone d.ts d.tz)
    (deviceExtendCapEod zones phone d.ts d.scheduleTz d.budgetTz)

def buildTimeExtendGrant (d : TimeExtendDecision) : TimeExtendGrantPayload where
  reqId := d.reqId
  nonce := d.nonce
  decision := d.decision
  ts := d.ts
  exp := (max (d.validUntil zones phone) (d.ts + 1)).toNat
  params :=
    { minutesGranted := if d.decision = .allow then clampGrantMinutes d.minutesGranted else 0
      limitHit := d.limitHit
      bucketId := d.bucketId
      time := d.time }

/-- What the device has once it has verified the payload. -/
def TimeExtendGrantPayload.verified (g : TimeExtendGrantPayload) : VerifiedGrant where
  op := .timeExtend
  reqId := g.reqId
  exp := g.exp
  outcome := if g.decision = .allow then .allow (.timeExtend g.params) else .deny
  belongs := by
    split
    · rfl
    · trivial

/-! ## The broker's end of day -/

/-- The clause of a machine-wide slot: a substitute in UTC where the slot is there and cannot be
used. -/
def ClauseFiles.machineClause {α : Type} (files : ClauseFiles) (kind : ClauseKind)
    (parse : String → Option α) (failSafe : α) : Option α :=
  match files.get .machine kind.storeKey with
  | .ok (some json) => some ((parse json).getD failSafe)
  | .ok none => none
  | .error _ => some failSafe

/-- `enforcement_eod_unix`. -/
def enforcementEodUnix (schedule : Option GrantSchedule) (budget : Option GrantBudget) (now : Int) :
    Int :=
  now + (enforcementTzOf zones schedule budget).secsToEod now

/-- `time_extend_eod`. -/
def timeExtendEod (codec : ClauseCodec) (files : ClauseFiles) (now : Int) : Int :=
  let schedule := files.machineClause .schedule codec.schedule (failSafeSchedule unresolvedTz)
  let budget := files.machineClause .budget codec.budget (failSafeBudget unresolvedTz)
  let schedEod := schedule.map fun s => enforcementEodUnix zones (some s) none now
  let budgetEod := budget.map fun b => enforcementEodUnix zones none (some b) now
  match schedEod, budgetEod with
  | some a, some b => max a b
  | some a, none => a
  | none, some b => b
  | none, none => enforcementEodUnix zones none none now

/-! ## The enactor -/

def ProtoError.text : ProtoError → String
  | json message => "json: " ++ message
  | badVersion v => "unsupported version: " ++ toString v
  | badParams message => "bad params: " ++ message

/-- An extension on its way to the ledger that is enforced. -/
structure PendingExtension where
  reqId : String
  minutes : Nat
  dim : Option Dimension
  bucketId : Option String
  timeId : Option String
  at_ : Int
deriving DecidableEq

/-- What the enactor acts on: the ledger of the readout and the inbox of the enforcing one, if it
has one. -/
structure TimeExtendEnactor where
  extension : ExtensionLedger
  inbox : Option (List PendingExtension)

/-- The clock readings and the usage that an enactment is given. -/
structure EnactContext where
  nowUnix : Option Int
  eodUnix : Option Int
  usedToday : Nat
  usedWeek : Nat

/-- Clock-skew tolerance of the today-only check. -/
def extendExpSkew : Int := 300

def beyondEndOfDay : String := "extension expiry beyond end-of-day"

namespace TimeExtendEnactor
variable (e : TimeExtendEnactor)

def detailOf (applied : Bool) : String := if applied then "extended" else "already applied"

def push (p : PendingExtension) : TimeExtendEnactor := { e with inbox := e.inbox.map (· ++ [p]) }

/-- `apply_extension`. -/
def applyExtension (ctx : EnactContext) (now : Int) (reqId : String) (minutes : Nat)
    (dim : Dimension) : Bool × TimeExtendEnactor :=
  match e.extension.apply zones now reqId minutes dim with
  | (newly, l) =>
    (newly, { e with extension :=
      if newly && dim = .budget then l.noteBudgetBaseline zones now ctx.usedToday ctx.usedWeek
      else l })

/-- Where a verified extension goes. -/
def route (ctx : EnactContext) (now : Int) (reqId : String) (p : TimeExtendGrantParams) :
    Except String String × TimeExtendEnactor :=
  let wholeDevice := fun dim =>
    match e.applyExtension zones ctx now reqId p.minutesGranted dim with
    | (applied, e) => (.ok (detailOf applied),
        e.push ⟨reqId, p.minutesGranted, some dim, none, none, now⟩)
  match p.limitHit, p.time, p.bucketId with
  | .bucket, _, none => (.error "bucket-routed time.extend missing bucketId", e)
  | .bucket, _, some bucketId =>
    match e.extension.applyBucket zones now reqId p.minutesGranted bucketId with
    | (applied, l) => (.ok (detailOf applied), { e with extension := l }.push
        ⟨reqId, p.minutesGranted, none, some bucketId, none, now⟩)
  | .schedule, none, _ => wholeDevice .schedule
  | .budget, none, _ => wholeDevice .budget
  | _, some timeId, _ =>
    match e.extension.applyTime zones now reqId p.minutesGranted timeId with
    | (applied, l) => (.ok (detailOf applied), { e with extension := l }.push
        ⟨reqId, p.minutesGranted, none, none, some timeId, now⟩)

/-- `enact`; an error is a terminal one, with its text. -/
def enact (grant : VerifiedGrant) (ctx : EnactContext) : Except String String × TimeExtendEnactor :=
  match grant.allowParams with
  | some (.timeExtend p) =>
    match p.validate with
    | .error err => (.error err.text, e)
    | .ok () =>
      if p.minutesGranted = 0 then (.ok "no effect (0 minutes)", e)
      else
        match ctx.nowUnix, ctx.eodUnix with
        | none, _ => (.error "no clock in context", e)
        | some _, none => (.error "no enforcement eod in context", e)
        | some now, some eod =>
          if asI64 grant.exp > eod + extendExpSkew then (.error beyondEndOfDay, e)
          else e.route zones ctx now grant.reqId.toHex p
  | _ => (.error "not a time.extend allow", e)

end TimeExtendEnactor

end Kintrinsic
