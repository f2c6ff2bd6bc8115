import Kintrinsic.ClauseShapes
import Kintrinsic.GuardianDates
import Kintrinsic.TimesEval

/-! # The guardian's schedule and named times

What the guardian's app keeps, what it puts on the wire, and its own answer to which time it is. -/
namespace Kintrinsic

open CivilDate

/-! ## Domain -/

/-- An allowed window as the guardian keeps it. -/
structure ScheduleWindow where
  start : String
  stop : String
  time : Option String
deriving DecidableEq

inductive Weekday
  | mon | tue | wed | thu | fri | sat | sun
deriving DecidableEq

namespace Weekday

def all : List Weekday := [mon, tue, wed, thu, fri, sat, sun]

/-- `SUNDAY_FIRST`. -/
def sundayFirst : List Weekday := [sun, mon, tue, wed, thu, fri, sat]

def name : Weekday → String
  | mon => "mon"
  | tue => "tue"
  | wed => "wed"
  | thu => "thu"
  | fri => "fri"
  | sat => "sat"
  | sun => "sun"

end Weekday

/-- `Schedule`: `paused` lifts it. -/
structure Schedule where
  tz : String
  weekly : Weekday → Option (List ScheduleWindow)
  overrides : Option (AList fun _ : String => List ScheduleWindow)
  paused : Option Bool

/-- A site window or a program as the guardian keeps it. -/
structure LearningAppSel where
  id : String
  label : String
  kind : LearningAppKind
  domains : Option (List String)
  url : Option String
  exec : Option String
  trusted : Option Bool
  free : Option Bool
deriving DecidableEq

/-- A named time as the guardian keeps it. -/
structure TimeSel where
  id : String
  label : String
  posture : TimePosture
  blockApps : Option (List String)
  unblockApps : Option (List String)
  denySites : Option (List String)
  undenySites : Option (List String)
  apps : Option (List String)
  sites : Option (List LearningAppSel)
  countsAgainstBudget : Option Bool
deriving DecidableEq

/-! ## Clock times -/

/-- The pattern `HHMM`. -/
def isHhmm (s : String) : Bool :=
  match s.toList with
  | [a, b, ':', c, d] =>
    (((a == '0' || a == '1') && b.isDigit) || (a == '2' && decide ('0' ≤ b ∧ b ≤ '3'))) &&
      (decide ('0' ≤ c ∧ c ≤ '5') && d.isDigit)
  | _ => false

/-- `minutesOf`, of a text of that pattern. -/
def minutesOf (hhmm : String) : Nat :=
  digitsValue (hhmm.toList.take 2) * 60 + digitsValue ((hhmm.toList.drop 3).take 2)

/-! ## Ids and faults of named times -/

def freeTimeId : String := "free"

def isIdChar (c : Char) : Bool := Text.isAsciiLower c || Text.isAsciiDigit c || c == '-'

/-- `isValidTimeId`. -/
def isValidTimeId (s : String) : Bool :=
  decide (1 ≤ s.toList.length) && decide (s.toList.length ≤ 32) && s.toList.all isIdChar &&
    s != freeTimeId

/-- The white space of `\s` and of `trim`. -/
def isJsSpace (c : Char) : Bool :=
  let n := c.toNat
  decide (9 ≤ n ∧ n ≤ 13 ∨ n = 0x20 ∨ n = 0xa0 ∨ n = 0x1680 ∨ 0x2000 ≤ n ∧ n ≤ 0x200a ∨
    n = 0x2028 ∨ n = 0x2029 ∨ n = 0x202f ∨ n = 0x205f ∨ n = 0x3000 ∨ n = 0xfeff)

/-- `String.prototype.trim`. -/
def jsTrim (s : String) : String :=
  String.ofList (Text.trimEndBy isJsSpace (s.toList.dropWhile isJsSpace))

def isHostChar (c : Char) : Bool :=
  c.isAlpha || c.isDigit || c == '.' || c == '-'

/-- `domainFault`. -/
def domainFault (d : String) : Bool :=
  let chars := d.toList
  if chars.isEmpty || !chars.all isHostChar then true
  else
    let host := Text.withoutPrefix "www.".toList
      (Text.trimEndBy (· == '.') (chars.map Text.asciiLower))
    host.isEmpty || decide (253 < host.length) ||
      (host.splitOn '.').any fun l => l.isEmpty || decide (63 < l.length)

/-- `siteFault`. -/
def siteFault (a : LearningAppSel) : Option String :=
  let url := a.url.getD ""
  let domains := a.domains.getD []
  if a.kind ≠ .site then some "only site apps can be listed in a time"
  else if a.id.toList.isEmpty || !a.id.toList.all isIdChar then
    some "a site id must be a [a-z0-9-] slug"
  else if jsTrim a.label = "" then some "a site needs a name"
  else if url = "" then some "a site needs a launch address"
  else if !"https://".toList.isPrefixOf url.toList ||
      url.toList.any (fun c => isJsSpace c || c == ',') then
    some "a site's address must start with https:// and contain no spaces or commas"
  else if domains = [] then some "a site needs at least one verified domain"
  else if domains.any domainFault then some "a site has a domain that isn't a plain web address"
  else none

def maxTimeLabelLen : Nat := 60

def maxNamedTimes : Nat := 16

/-- `namedTimeFault`. -/
def namedTimeFault (t : TimeSel) : Option String :=
  if !isValidTimeId t.id then
    some (if t.id = freeTimeId then "\"free\" is reserved for Free time"
      else "a time id must be 1-32 characters of a-z, 0-9 and -")
  else if t.label.toList.length < 1 ∨ maxTimeLabelLen < t.label.toList.length then
    some "a time name must be 1-60 characters"
  else if t.posture = .onlyThese then (t.sites.getD []).findSome? siteFault
  else none

/-- The loop of `timesFault`, over the ids seen so far. -/
def faultAmong : List String → List TimeSel → Option String
  | _, [] => none
  | seen, t :: ts =>
    match namedTimeFault t with
    | some fault => some fault
    | none =>
      if t.id ∈ seen then some ("two times share the id \"" ++ t.id ++ "\"")
      else faultAmong (t.id :: seen) ts

/-- `timesFault`. -/
def timesFault (times : List TimeSel) : Option String :=
  if maxNamedTimes < times.length then some "a child can have at most 16 times"
  else faultAmong [] times

/-! ## The wire form of named times -/

/-- Trimmed, without the empty ones and without repeats. -/
def cleanTexts (list : List String) : List String :=
  ((list.map jsTrim).filter (· ≠ "")).reverse.dedup.reverse

/-- `cleanList`; an absent or empty list is left off the wire, where it is read as empty. -/
def cleanList (list : Option (List String)) : List String := cleanTexts (list.getD [])

/-- `cleanSite`. -/
def cleanSite (a : LearningAppSel) : LearningApp where
  id := a.id
  label := jsTrim a.label
  kind := .site
  domains := cleanTexts (a.domains.getD [])
  url := some (jsTrim (a.url.getD ""))
  exec := none
  trusted := false
  free := none

/-- `normaliseNamedTime`, as the device reads it back. -/
def normaliseNamedTime (t : TimeSel) : NamedTime :=
  let counts := if t.countsAgainstBudget = some true then some true else none
  match t.posture with
  | .everythingExcept =>
    ⟨t.id, jsTrim t.label, t.posture, cleanList t.blockApps, cleanList t.unblockApps,
      cleanList t.denySites, cleanList t.undenySites, [], [], counts⟩
  | .onlyThese =>
    ⟨t.id, jsTrim t.label, t.posture, [], [], [], [], cleanList t.apps,
      (t.sites.getD []).map cleanSite, counts⟩

/-- What is trimmed before the check. -/
def cleanTime (t : TimeSel) : TimeSel :=
  { t with
    label := jsTrim t.label
    sites := t.sites.map fun sites => sites.map fun a =>
      { a with url := a.url.map jsTrim, domains := a.domains.map (·.map jsTrim) } }

/-- `timesToGrant`. -/
def timesToGrant (times : List TimeSel) (issuedAt : Nat) : Except String GrantTimes :=
  let cleaned := times.map cleanTime
  match timesFault cleaned with
  | some fault => .error ("times can't be sent: " ++ fault)
  | none => .ok ⟨1, cleaned.map normaliseNamedTime, issuedAt⟩

/-! ## The wire form of a schedule -/

/-- `assertWindows`: the first window that is refused. -/
def windowsFault (windows : List ScheduleWindow) : Option String :=
  windows.findSome? fun w =>
    if !isHhmm w.start || !isHhmm w.stop then
      some ("schedule window must be HH:MM, got " ++ w.start ++ "-" ++ w.stop)
    else if w.stop ≤ w.start then
      some ("schedule window must satisfy start < end, got " ++ w.start ++ "-" ++ w.stop)
    else
      match w.time with
      | none => none
      | some tag => if isValidTimeId tag then none
          else some ("schedule window time must be a named-time id, got " ++ tag)

/-- Two tagged windows of one day that overlap. -/
structure TaggedOverlap where
  day : String
  a : ScheduleWindow
  b : ScheduleWindow

/-- The overlaps of the tagged windows of one day. -/
def overlapsOn (day : String) : List ScheduleWindow → List TaggedOverlap
  | [] => []
  | a :: rest =>
    (rest.filter fun b => decide (a.start < b.stop) && decide (b.start < a.stop)).map (⟨day, a, ·⟩) ++
      overlapsOn day rest

/-- `findTaggedOverlaps`. -/
def findTaggedOverlaps (s : Schedule) : List TaggedOverlap :=
  let tagged := fun (windows : List ScheduleWindow) => windows.filter (·.time.isSome)
  (Weekday.all.flatMap fun day => overlapsOn day.name (tagged ((s.weekly day).getD []))) ++
    ((s.overrides.map (·.entries)).getD []).flatMap fun e => overlapsOn e.1 (tagged e.2)

def ScheduleWindow.toGrant (w : ScheduleWindow) : GrantScheduleWindow := ⟨w.start, w.stop, w.time⟩

/-- The week on the wire; a day without an entry has none there. -/
def weekToGrant (weekly : Weekday → Option (List ScheduleWindow)) : WeeklySchedule :=
  let day := fun d => (weekly d).map (·.map ScheduleWindow.toGrant)
  ⟨day .mon, day .tue, day .wed, day .thu, day .fri, day .sat, day .sun⟩

/-- The windows of every date that has its own. -/
def Schedule.overrideWindows (s : Schedule) : List (List ScheduleWindow) :=
  ((s.overrides.map (·.entries)).getD []).map fun e => e.2

/-- The windows of every weekday that has some. -/
def Schedule.weekWindows (s : Schedule) : List (List ScheduleWindow) :=
  Weekday.all.filterMap s.weekly

def overridesToGrant (o : AList fun _ : String => List ScheduleWindow) : Overrides :=
  (o.entries.map fun e => ⟨e.1, e.2.map ScheduleWindow.toGrant⟩).toAList

/-- `scheduleToGrant`. -/
def scheduleToGrant (s : Schedule) (issuedAt : Nat) : Except String GrantSchedule :=
  if jsTrim s.tz = "" then .error "schedule.tz is required"
  else if s.paused = some true then .ok ⟨1, s.tz, none, .empty, none, issuedAt⟩
  else
    match (s.weekWindows ++ s.overrideWindows).findSome? windowsFault with
    | some fault => .error fault
    | none =>
      match findTaggedOverlaps s with
      | o :: _ =>
        .error ("two named times overlap on " ++ o.day ++ ": " ++ o.a.start ++ "-" ++ o.a.stop ++
          " and " ++ o.b.start ++ "-" ++ o.b.stop)
      | [] =>
        if ((s.weekWindows ++ s.overrideWindows).map List.length).sum = 0 then
          .ok ⟨1, s.tz, some true, .empty, none, issuedAt⟩
        else .ok ⟨1, s.tz, none, weekToGrant s.weekly, s.overrides.map overridesToGrant, issuedAt⟩

/-! ## The guardian's own answer -/

inductive ActiveTime
  | free
  | time (t : TimeSel)
  | outside
  | unknownTime (tag : String)
deriving DecidableEq

/-- `windowsOn`: the date's own windows, or those of its weekday. -/
def Schedule.windowsOn (s : Schedule) (dayKey : String) : List ScheduleWindow :=
  match s.overrides.bind fun o => o.lookup dayKey with
  | some windows => windows
  | none =>
    (((weekdayOf dayKey).bind fun d => Weekday.sundayFirst[d]?).bind s.weekly).getD []

def ScheduleWindow.inside (w : ScheduleWindow) (secs : Nat) : Bool :=
  decide (minutesOf w.start * 60 ≤ secs) && decide (secs < minutesOf w.stop * 60)

/-- `activeTimeAt`; `phone` is the zone of the guardian's own clock. -/
def activeTimeAt (zones : Zones) (phone : Tz) (schedule : Option Schedule) (times : List TimeSel)
    (nowSecs : Int) : ActiveTime :=
  match schedule with
  | none => .free
  | some s =>
    if s.paused = some true then .free
    else
      let parts := tzDayParts ((zones s.tz).getD phone) nowSecs
      let covering := (s.windowsOn parts.1).filter (·.inside parts.2)
      match minByKey (minutesOf ·.start) (covering.filter (·.time.isSome)) with
      | some tagged =>
        let tag := tagged.time.getD ""
        match times.find? (·.id = tag) with
        | some t => .time t
        | none => .unknownTime tag
      | none => if covering = [] then .outside else .free

end Kintrinsic
