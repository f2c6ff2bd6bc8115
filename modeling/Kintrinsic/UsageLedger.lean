import Kintrinsic.Minutes
import Kintrinsic.PreRollChain

/-! # The usage ledger

Active-usage accounting keyed to a time zone.  The day-keyed and the week-keyed counters
are the two tracks of the ledger; every credit rolls both before it adds, and every
reader answers zero once the local day, or week, has advanced past the stored key. -/
namespace Kintrinsic

open CivilDate MachineWord

/-- The managed session's activity state. -/
inductive Activity
  | active
  | idle
  | locked
  | suspended
  | frozenByCharter
deriving DecidableEq

/-- Only active time counts against the quota. -/
def Activity.counts : Activity → Bool
  | active => true
  | _ => false

/-- Which meter an active tick feeds. -/
inductive Bucket
  | screen
  | learning
deriving DecidableEq

inductive WeekStart
  | sun
  | mon
deriving DecidableEq

/-- Days from Sunday to the first day of the week. -/
def WeekStart.fromSunday : WeekStart → Int
  | sun => 0
  | mon => 1

/-- The counters of one day. -/
structure DayCounters where
  key : String
  usedTodaySecs : Nat
  learningTodaySecs : Nat
  unrecognisedTodaySecs : Nat
  outOfHoursTodaySecs : Nat
  minutesToday : MinuteSet
  bucketTodaySecs : String → Nat

/-- The counters of one week. -/
structure WeekCounters where
  key : String
  usedWeekSecs : Nat
  outOfHoursWeekSecs : Nat
  outOfHoursNightsWeek : Nat
  bucketWeekSecs : String → Nat

instance : PreRoll DayCounters where
  key := DayCounters.key
  fresh k := ⟨k, 0, 0, 0, 0, MinuteSet.empty, fun _ => 0⟩
  setKey t k := { t with key := k }
  merge t u :=
    { t with
      usedTodaySecs := addU64 t.usedTodaySecs u.usedTodaySecs
      learningTodaySecs := addU64 t.learningTodaySecs u.learningTodaySecs
      unrecognisedTodaySecs := addU64 t.unrecognisedTodaySecs u.unrecognisedTodaySecs
      outOfHoursTodaySecs := addU64 t.outOfHoursTodaySecs u.outOfHoursTodaySecs
      minutesToday := t.minutesToday.union u.minutesToday
      bucketTodaySecs := fun b => addU64 (t.bucketTodaySecs b) (u.bucketTodaySecs b) }
  key_fresh _ := rfl
  key_setKey _ _ := rfl
  key_merge _ _ := rfl

instance : PreRoll WeekCounters where
  key := WeekCounters.key
  fresh k := ⟨k, 0, 0, 0, fun _ => 0⟩
  setKey t k := { t with key := k }
  merge t u :=
    { t with
      usedWeekSecs := addU64 t.usedWeekSecs u.usedWeekSecs
      outOfHoursWeekSecs := addU64 t.outOfHoursWeekSecs u.outOfHoursWeekSecs
      outOfHoursNightsWeek := addU32 t.outOfHoursNightsWeek u.outOfHoursNightsWeek
      bucketWeekSecs := fun b => addU64 (t.bucketWeekSecs b) (u.bucketWeekSecs b) }
  key_fresh _ := rfl
  key_setKey _ _ := rfl
  key_merge _ _ := rfl

/-! The numbers a ledger is read for, as meters. -/

def usedTodayMeter : Meter DayCounters :=
  ⟨DayCounters.usedTodaySecs, fun _ => rfl, fun _ _ => rfl, fun _ _ => rfl⟩

def learningMeter : Meter DayCounters :=
  ⟨DayCounters.learningTodaySecs, fun _ => rfl, fun _ _ => rfl, fun _ _ => rfl⟩

def unrecognisedMeter : Meter DayCounters :=
  ⟨DayCounters.unrecognisedTodaySecs, fun _ => rfl, fun _ _ => rfl, fun _ _ => rfl⟩

def bucketMeter (id : String) : Meter DayCounters :=
  ⟨fun d => d.bucketTodaySecs id, fun _ => rfl, fun _ _ => rfl, fun _ _ => rfl⟩

def usedWeekMeter : Meter WeekCounters :=
  ⟨WeekCounters.usedWeekSecs, fun _ => rfl, fun _ _ => rfl, fun _ _ => rfl⟩

def bucketWeekMeter (id : String) : Meter WeekCounters :=
  ⟨fun w => w.bucketWeekSecs id, fun _ => rfl, fun _ _ => rfl, fun _ _ => rfl⟩

/-- The durable accounting of one child. -/
structure UsageLedger where
  tz : String
  weekStart : WeekStart
  day : Track DayCounters
  week : Track WeekCounters
  clockTrusted : Bool

/-- What date keys are computed and read back with: the zone database, and the parser of
`%Y-%m-%d`. -/
structure Calendar where
  zones : Zones
  parse : String → Option Int

/-- The parser reads back what the formatter writes. -/
def Calendar.ReadsBack (cal : Calendar) : Prop := ∀ n, cal.parse (dateKey n) = some n

/-- `week_key_of`: the date of the week's first day. -/
def Tz.weekKey (tz : Tz) (weekStart : WeekStart) (now : Int) : String :=
  dateKey (weekStartDay weekStart.fromSunday (tz.localDay now))

namespace UsageLedger
variable (cal : Calendar)

/-- A fresh ledger. -/
def new (tz : String) (weekStart : WeekStart) (now : Int) : UsageLedger where
  tz := tz
  weekStart := weekStart
  day := ⟨PreRoll.fresh ((Tz.ofName cal.zones tz).dayKey now), []⟩
  week := ⟨PreRoll.fresh ((Tz.ofName cal.zones tz).weekKey weekStart now), []⟩
  clockTrusted := false

variable (l : UsageLedger)

def setClockTrusted (trusted : Bool) : UsageLedger := { l with clockTrusted := trusted }

/-- The zone in force; a name that does not parse is UTC. -/
def zone : Tz := Tz.ofName cal.zones l.tz

/-- The day key the zone computes for an instant. -/
def dayKeyAt (now : Int) : String := (l.zone cal).dayKey now

def weekKeyAt (now : Int) : String := (l.zone cal).weekKey l.weekStart now

/-- Whether the day has advanced past the one the counters belong to. -/
def dayHasRolled (now : Int) : Bool := l.day.key < l.dayKeyAt cal now

def weekHasRolled (now : Int) : Bool := l.week.key < l.weekKeyAt cal now

/-- A night counted on the real day and again on an excursion's is still one night. -/
def settleNights (l : UsageLedger) (restored : Option DayCounters) : UsageLedger :=
  match restored with
  | none => l
  | some r =>
    if 0 < r.outOfHoursTodaySecs ∧ r.outOfHoursTodaySecs < l.day.current.outOfHoursTodaySecs then
      { l with week.current.outOfHoursNightsWeek := l.week.current.outOfHoursNightsWeek - 1 }
    else l

/-- `roll`: the day track, the week track, and the nights they both counted. -/
def roll (now : Int) : UsageLedger :=
  let day := l.day.roll cal.parse l.clockTrusted 1 (l.dayKeyAt cal now)
  let week := l.week.roll cal.parse l.clockTrusted 7 (l.weekKeyAt cal now)
  settleNights { l with day := day.1, week := week.1 } day.2

/-- `credit_bucket`: learning is time-free, and either bucket is time at the glass. -/
def creditBucket (now : Int) (activity : Activity) (bucket : Bucket) (elapsed : Nat) :
    UsageLedger :=
  let l := l.roll cal now
  if activity.counts then
    let minutes := l.day.current.minutesToday.markSpan (l.zone cal) now elapsed
    match bucket with
    | .screen =>
      { l with
        day.current.usedTodaySecs := addU64 l.day.current.usedTodaySecs elapsed
        day.current.minutesToday := minutes
        week.current.usedWeekSecs := addU64 l.week.current.usedWeekSecs elapsed }
    | .learning =>
      { l with
        day.current.learningTodaySecs := addU64 l.day.current.learningTodaySecs elapsed
        day.current.minutesToday := minutes }
  else l

/-- `credit`. -/
def credit (now : Int) (activity : Activity) (elapsed : Nat) : UsageLedger :=
  l.creditBucket cal now activity .screen elapsed

def creditUnrecognised (now : Int) (activity : Activity) (elapsed : Nat) : UsageLedger :=
  let l := l.roll cal now
  if activity.counts then
    { l with
      day.current.unrecognisedTodaySecs := addU64 l.day.current.unrecognisedTodaySecs elapsed }
  else l

/-- Add to one entry of a bucket map. -/
def addTo (buckets : String → Nat) (id : String) (elapsed : Nat) : String → Nat :=
  fun b => if b = id then addU64 (buckets b) elapsed else buckets b

/-- `credit_app_bucket`: the day and the week meter move together. -/
def creditAppBucket (now : Int) (id : String) (elapsed : Nat) : UsageLedger :=
  let l := l.roll cal now
  { l with
    day.current.bucketTodaySecs := addTo l.day.current.bucketTodaySecs id elapsed
    week.current.bucketWeekSecs := addTo l.week.current.bucketWeekSecs id elapsed }

/-- `mark_out_of_hours`: no roll of its own; the first of a day is a night. -/
def markOutOfHours (secs : Nat) : UsageLedger :=
  if secs = 0 then l
  else
    { l with
      day.current.outOfHoursTodaySecs := addU64 l.day.current.outOfHoursTodaySecs secs
      week.current.outOfHoursWeekSecs := addU64 l.week.current.outOfHoursWeekSecs secs
      week.current.outOfHoursNightsWeek :=
        if l.day.current.outOfHoursTodaySecs = 0 then addU32 l.week.current.outOfHoursNightsWeek 1
        else l.week.current.outOfHoursNightsWeek }

/-- `snapshot` and `from_snapshot`: everything is kept but the trust in the clock. -/
def restored : UsageLedger := { l with clockTrusted := false }

/-! ## Readers -/

def usedToday (now : Int) : Nat :=
  if l.dayHasRolled cal now then 0 else l.day.current.usedTodaySecs

def learningToday (now : Int) : Nat :=
  if l.dayHasRolled cal now then 0 else l.day.current.learningTodaySecs

def unrecognisedToday (now : Int) : Nat :=
  if l.dayHasRolled cal now then 0 else l.day.current.unrecognisedTodaySecs

def appBucketToday (now : Int) (id : String) : Nat :=
  if l.dayHasRolled cal now then 0 else l.day.current.bucketTodaySecs id

def appBucketWeek (now : Int) (id : String) : Nat :=
  if l.weekHasRolled cal now then 0 else l.week.current.bucketWeekSecs id

def usedWeek (now : Int) : Nat :=
  if l.weekHasRolled cal now then 0 else l.week.current.usedWeekSecs

def minutesToday (now : Int) : MinuteSet :=
  if l.dayHasRolled cal now then MinuteSet.empty else l.day.current.minutesToday

def currentDayKey (now : Int) : String :=
  l.day.currentKey cal.parse l.clockTrusted 1 (l.dayKeyAt cal now)

def currentWeekKey (now : Int) : String :=
  l.week.currentKey cal.parse l.clockTrusted 7 (l.weekKeyAt cal now)

/-- `reconcile`: re-key to another zone or week start, the totals preserved. -/
def reconcile (tz : String) (weekStart : WeekStart) (now : Int) : UsageLedger :=
  if l.tz = tz ∧ l.weekStart = weekStart then l
  else
    let zone := Tz.ofName cal.zones tz
    { l with
      tz := tz
      weekStart := weekStart
      day := ⟨PreRoll.setKey l.day.current (zone.dayKey now), []⟩
      week := ⟨PreRoll.setKey l.week.current (zone.weekKey weekStart now), []⟩ }

/-- Clocks in UTC, with the parser that inverts the formatter. -/
def utcCalendar : Calendar := ⟨fun name => if name = "UTC" then some Tz.utc else none, parseKey⟩

theorem utcCalendar_readsBack : utcCalendar.ReadsBack := by
  intro n
  simp only [utcCalendar]
  exact parseKey_dateKey n

/-! ## What a roll does -/

variable {cal l}

/-- Settling touches the night count only. -/
theorem settleNights_eq (r : Option DayCounters) :
    ∃ nights, l.settleNights r = { l with week.current.outOfHoursNightsWeek := nights } := by
  unfold settleNights
  split
  · exact ⟨_, rfl⟩
  · split <;> exact ⟨_, rfl⟩

variable (cal l)

/-- A rolled ledger: each track rolls on its own key, and nothing else moves but the
nights. -/
structure Rolled (now : Int) (l' : UsageLedger) : Prop where
  tz : l'.tz = l.tz
  weekStart : l'.weekStart = l.weekStart
  clockTrusted : l'.clockTrusted = l.clockTrusted
  day : l'.day = (l.day.roll cal.parse l.clockTrusted 1 (l.dayKeyAt cal now)).1
  weekChain : l'.week.chain =
    (l.week.roll cal.parse l.clockTrusted 7 (l.weekKeyAt cal now)).1.chain
  weekKey : l'.week.key = (l.week.roll cal.parse l.clockTrusted 7 (l.weekKeyAt cal now)).1.key
  usedWeek : l'.week.current.usedWeekSecs =
    (l.week.roll cal.parse l.clockTrusted 7 (l.weekKeyAt cal now)).1.current.usedWeekSecs
  bucketsWeek : l'.week.current.bucketWeekSecs =
    (l.week.roll cal.parse l.clockTrusted 7 (l.weekKeyAt cal now)).1.current.bucketWeekSecs

theorem rolled_roll (now : Int) : l.Rolled cal now (l.roll cal now) := by
  obtain ⟨nights, h⟩ := settleNights_eq (l := { l with
    day := (l.day.roll cal.parse l.clockTrusted 1 (l.dayKeyAt cal now)).1
    week := (l.week.roll cal.parse l.clockTrusted 7 (l.weekKeyAt cal now)).1 })
    (l.day.roll cal.parse l.clockTrusted 1 (l.dayKeyAt cal now)).2
  have hroll : l.roll cal now = _ := h
  rw [hroll]
  constructor <;> rfl

end UsageLedger

/-! ## The credit entry points -/

/-- A call of one of the entry points that credit time at an instant; `credit` is
`credit_bucket` on the screen meter. -/
inductive Credit
  | bucket (now : Int) (activity : Activity) (bucket : Bucket) (elapsed : Nat)
  | unrecognised (now : Int) (activity : Activity) (elapsed : Nat)
  | appBucket (now : Int) (id : String) (elapsed : Nat)

namespace Credit

def now : Credit → Int
  | bucket now _ _ _ => now
  | unrecognised now _ _ => now
  | appBucket now _ _ => now

def apply (cal : Calendar) (l : UsageLedger) : Credit → UsageLedger
  | bucket now activity b elapsed => l.creditBucket cal now activity b elapsed
  | unrecognised now activity elapsed => l.creditUnrecognised cal now activity elapsed
  | appBucket now id elapsed => l.creditAppBucket cal now id elapsed

/-- The seconds a call credits to the screen meter. -/
def screenSecs : Credit → Nat
  | bucket _ activity .screen elapsed => if activity.counts then elapsed else 0
  | _ => 0

def learningSecs : Credit → Nat
  | bucket _ activity .learning elapsed => if activity.counts then elapsed else 0
  | _ => 0

def unrecognisedSecs : Credit → Nat
  | unrecognised _ activity elapsed => if activity.counts then elapsed else 0
  | _ => 0

/-- The seconds a call credits to one app bucket. -/
def bucketSecs (id : String) : Credit → Nat
  | appBucket _ id' elapsed => if id = id' then elapsed else 0
  | _ => 0

/-- **What a credit does**: it rolls, it keeps both keys and both chains of the rolled
ledger, and to each counter it adds that counter's seconds. -/
structure Adds (c : Credit) (rolled l : UsageLedger) : Prop where
  tz : l.tz = rolled.tz
  weekStart : l.weekStart = rolled.weekStart
  clockTrusted : l.clockTrusted = rolled.clockTrusted
  dayKey : l.day.key = rolled.day.key
  dayChain : l.day.chain = rolled.day.chain
  weekKey : l.week.key = rolled.week.key
  weekChain : l.week.chain = rolled.week.chain
  used : Added c.screenSecs rolled.day.current.usedTodaySecs l.day.current.usedTodaySecs
  learning :
    Added c.learningSecs rolled.day.current.learningTodaySecs l.day.current.learningTodaySecs
  unrecognised : Added c.unrecognisedSecs rolled.day.current.unrecognisedTodaySecs
    l.day.current.unrecognisedTodaySecs
  buckets : ∀ id, Added (c.bucketSecs id) (rolled.day.current.bucketTodaySecs id)
    (l.day.current.bucketTodaySecs id)
  usedWeek : Added c.screenSecs rolled.week.current.usedWeekSecs l.week.current.usedWeekSecs
  bucketsWeek : ∀ id, Added (c.bucketSecs id) (rolled.week.current.bucketWeekSecs id)
    (l.week.current.bucketWeekSecs id)

variable (cal : Calendar) (l : UsageLedger)

theorem adds_creditBucket (now : Int) (activity : Activity) (b : Bucket) (elapsed : Nat) :
    Adds (bucket now activity b elapsed) (l.roll cal now)
      (l.creditBucket cal now activity b elapsed) := by
  unfold UsageLedger.creditBucket
  by_cases h : activity.counts <;> cases b <;> constructor <;>
    simp [h, Added, screenSecs, learningSecs, unrecognisedSecs, bucketSecs, Track.key, PreRoll.key]

theorem adds_creditUnrecognised (now : Int) (activity : Activity) (elapsed : Nat) :
    Adds (unrecognised now activity elapsed) (l.roll cal now)
      (l.creditUnrecognised cal now activity elapsed) := by
  unfold UsageLedger.creditUnrecognised
  by_cases h : activity.counts <;> constructor <;>
    simp [h, Added, screenSecs, learningSecs, unrecognisedSecs, bucketSecs, Track.key, PreRoll.key]

theorem adds_creditAppBucket (now : Int) (id : String) (elapsed : Nat) :
    Adds (appBucket now id elapsed) (l.roll cal now) (l.creditAppBucket cal now id elapsed) := by
  have hadd : ∀ (buckets : String → Nat) (b : String),
      Added (if b = id then elapsed else 0) (buckets b)
        (UsageLedger.addTo buckets id elapsed b) := by
    intro buckets b
    by_cases hb : b = id <;> simp [UsageLedger.addTo, Added, hb]
  unfold UsageLedger.creditAppBucket
  constructor
  case buckets => exact hadd _
  case bucketsWeek => exact hadd _
  all_goals simp [Added, screenSecs, learningSecs, unrecognisedSecs, Track.key, PreRoll.key]

/-- Every entry point rolls and adds. -/
theorem adds_apply (c : Credit) : Adds c (l.roll cal c.now) (c.apply cal l) := by
  cases c with
  | bucket now activity b elapsed => exact adds_creditBucket cal l now activity b elapsed
  | unrecognised now activity elapsed => exact adds_creditUnrecognised cal l now activity elapsed
  | appBucket now id elapsed => exact adds_creditAppBucket cal l now id elapsed

variable {cal l}

@[simp] theorem apply_tz (c : Credit) : (c.apply cal l).tz = l.tz :=
  (adds_apply cal l c).tz.trans (l.rolled_roll cal c.now).tz

@[simp] theorem apply_weekStart (c : Credit) : (c.apply cal l).weekStart = l.weekStart :=
  (adds_apply cal l c).weekStart.trans (l.rolled_roll cal c.now).weekStart

@[simp] theorem apply_clockTrusted (c : Credit) : (c.apply cal l).clockTrusted = l.clockTrusted :=
  (adds_apply cal l c).clockTrusted.trans (l.rolled_roll cal c.now).clockTrusted

end Credit
end Kintrinsic
