import Kintrinsic.SplitPolicy

/-! # The windows of a named time

A named time is given its weekly windows on one device, or is deleted with every window of it.  The
windows are written into that device's own schedule; a child with no second paired device has one
schedule, the base. -/
namespace Kintrinsic

open RecordMaps

/-! ## Devices -/

inductive PairingState
  | unpaired
  | pairing
  | paired
deriving DecidableEq

inductive Platform
  | linux
  | android
deriving DecidableEq

/-- `Device`, as the guardian keeps it. -/
structure DeviceRecord where
  id : String
  label : String
  platform : Platform
  pairing : PairingState
  devicePubkey : Option String
deriving DecidableEq

inductive TimesGate
  | open
  | old
  | unreported
deriving DecidableEq

/-- `MIN_VERSION.times`. -/
def Platform.timesVersion : Platform → Nat
  | android => 49
  | linux => 800

/-- `timesGateFor`. -/
def timesGateFor (platform : Platform) : Option Nat → TimesGate
  | none => .unreported
  | some reported => if reported < platform.timesVersion then .old else .open

/-- `timesGate`; `reported` is the version code of the live status, by device key. -/
def timesGate (device : DeviceRecord) (reported : String → Option Nat) : TimesGate :=
  timesGateFor device.platform ((device.devicePubkey.filter (· ≠ "")).bind reported)

/-! ## Tags -/

/-- `stripWeeklyTag`: a day that is emptied is dropped. -/
def Schedule.stripWeeklyTag (s : Schedule) (id : String) : Schedule :=
  { s with
    weekly := fun day => (s.weekly day).bind fun ws =>
      let kept := ws.filter (·.time ≠ some id)
      if kept ≠ [] ∨ ws = [] then some kept else none }

/-- `stripTag`: an override that is emptied stays, as a closed day. -/
def Schedule.stripTag (s : Schedule) (id : String) : Schedule :=
  let has := fun (ws : List ScheduleWindow) => ws.any (·.time == some id)
  if !((s.weekWindows ++ s.overrideWindows).any has) then s
  else
    { s with
      weekly := fun day => (s.weekly day).bind fun ws =>
        let kept := ws.filter (·.time ≠ some id)
        if kept ≠ [] then some kept else if !has ws then some ws else none
      overrides := s.overrides.map
        (mapKept fun ws => some (ws.filter (·.time ≠ some id))) }

variable {Other : PolicyDimension → Type}

/-- `removeNamedTime`. -/
def removeNamedTime (p : Policy Other) (id : String) : Except String (Policy Other) :=
  if id = freeTimeId then .error "Free time can't be deleted."
  else
    .ok { p with
      base := Function.update
        (Function.update p.base .times ((p.base .times).map fun times => times.filter (·.id ≠ id)))
        .schedule ((p.base .schedule).map fun s => s.stripTag id)
      deviceOverrides := p.deviceOverrides.map (mapKept fun o =>
        match o.get .schedule with
        | none => some o
        | some s => some (o.set .schedule (some (Schedule.stripTag s id)))) }

/-! ## Writing windows -/

/-- A window without a tag. -/
structure PlainWindow where
  start : String
  stop : String
deriving DecidableEq

/-- A plain window of a named time. -/
def PlainWindow.tagged (w : PlainWindow) (id : String) : ScheduleWindow := ⟨w.start, w.stop, some id⟩

/-- `TimeWindows`. -/
abbrev TimeWindows : Type := Weekday → Option (List PlainWindow)

/-- The first of the given windows that does not end after it starts. -/
def plainFault (windows : TimeWindows) : Option String :=
  (Weekday.all.flatMap fun day => (windows day).getD []).findSome? fun w =>
    if !isHhmm w.start || !isHhmm w.stop || decide (w.stop ≤ w.start) then
      some ("A window must start before it ends (got " ++ w.start ++ "-" ++ w.stop ++ ").")
    else none

/-- The schedule with a time's weekly windows replaced. -/
def Schedule.withWindows (own : Schedule) (id : String) (windows : TimeWindows) : Schedule :=
  let without := own.stripWeeklyTag id
  { without with
    weekly := fun day =>
      let add := (windows day).getD []
      if add = [] then without.weekly day
      else some ((without.weekly day).getD [] ++ add.map (·.tagged id)) }

/-- What is said of two overlapping times. -/
def overlapMessage (o : TaggedOverlap) : String :=
  "Two times overlap on " ++ o.day ++ " (" ++ o.a.start ++ "-" ++ o.a.stop ++ " and " ++ o.b.start ++
    "-" ++ o.b.stop ++ "). Move one so they don't run at the same time."

def noScheduleMessage : String := "Set up a schedule for this child before adding a time to it."

/-- A child's only schedule is the base: no own one of this device, and no second paired device. -/
def soleDevice (p : Policy Other) (deviceId : String) (devices : List DeviceRecord) : Bool :=
  (p.own deviceId .schedule).isNone &&
    decide ((devices.filter fun d => decide (d.pairing = .paired)).length ≤ 1)

/-- The schedule that is written to, and the policy that it is written into. -/
def scheduleToWrite (p : Policy Other) (deviceId : String) (devices : List DeviceRecord) :
    Except String (Policy Other × Schedule) :=
  if soleDevice p deviceId devices then
    match p.base .schedule with
    | none => .error noScheduleMessage
    | some s => .ok (p, s)
  else
    match p.own deviceId .schedule with
    | some s => .ok (p, s)
    | none =>
      if (p.base .schedule).isNone then .error noScheduleMessage
      else
        let next := p.setControlSplit .schedule (devices.map (·.id))
        match next.own deviceId .schedule with
        | some s => .ok (next, s)
        | none => .error "Cannot read properties of undefined (reading 'paused')"

/-- `setTimeWindows`. -/
def setTimeWindows (p : Policy Other) (id deviceId : String) (windows : TimeWindows)
    (devices : List DeviceRecord) (reported : String → Option Nat) : Except String (Policy Other) :=
  if !isValidTimeId id || !(((p.base .times).getD []).any fun t => t.id == id) then
    .error ("There is no time \"" ++ id ++ "\" to give windows to.")
  else
    match devices.find? fun d => d.id == deviceId with
    | none => .error "That device isn't one of this child's."
    | some device =>
      match timesGate device reported with
      | .unreported =>
        .error (device.label ++ " needs to check in once before it can run a time.")
      | .old => .error (device.label ++ " needs the latest Kintrinsic before it can run a time.")
      | .open =>
        match plainFault windows with
        | some fault => .error fault
        | none =>
          match scheduleToWrite p deviceId devices with
          | .error e => .error e
          | .ok (next, own) =>
            if own.paused = some true then
              .error (device.label ++ "'s schedule is switched off, so a time would have no effect. " ++
                "Switch it on first.")
            else
              let schedule := own.withWindows id windows
              match findTaggedOverlaps schedule with
              | o :: _ => .error (overlapMessage o)
              | [] =>
                if soleDevice p deviceId devices then
                  .ok { next with base := Function.update next.base .schedule (some schedule) }
                else .ok (next.setDeviceControl .schedule deviceId (some schedule))

end Kintrinsic
