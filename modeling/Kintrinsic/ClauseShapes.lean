import Kintrinsic.UsageLedger
import Mathlib.Data.List.AList

/-! # Clause shapes

The schedule and the budget clause, and the apps of other clauses, as `clause.rs` deserialises
them.  Unknown fields are
dropped by the decoder, so a body of a later version arrives in the same shape; the version
field is all that tells it apart. -/
namespace Kintrinsic

/-- An allowed window, `"HH:MM"` at both ends. -/
structure GrantScheduleWindow where
  start : String
  stop : String
  time : Option String
deriving DecidableEq

/-- The recurring windows of the week. -/
structure WeeklySchedule where
  mon : Option (List GrantScheduleWindow)
  tue : Option (List GrantScheduleWindow)
  wed : Option (List GrantScheduleWindow)
  thu : Option (List GrantScheduleWindow)
  fri : Option (List GrantScheduleWindow)
  sat : Option (List GrantScheduleWindow)
  sun : Option (List GrantScheduleWindow)
deriving DecidableEq

namespace WeeklySchedule
variable (w : WeeklySchedule)

/-- `WeeklySchedule::default`. -/
def empty : WeeklySchedule := ⟨none, none, none, none, none, none, none⟩

/-- The windows of a weekday, Sunday first. -/
def forDay : Nat → Option (List GrantScheduleWindow)
  | 0 => w.sun
  | 1 => w.mon
  | 2 => w.tue
  | 3 => w.wed
  | 4 => w.thu
  | 5 => w.fri
  | 6 => w.sat
  | _ => none

/-- Whether no day has a window. -/
def isEmpty : Bool :=
  [w.mon, w.tue, w.wed, w.thu, w.fri, w.sat, w.sun].all fun d => (d.map List.isEmpty).getD true

end WeeklySchedule

def scheduleVersion : Nat := 1

/-- A date's windows, which replace the week's on that date. -/
abbrev Overrides := AList fun _ : String => List GrantScheduleWindow

/-- The schedule clause. -/
structure GrantSchedule where
  v : UInt32
  tz : String
  paused : Option Bool
  weekly : WeeklySchedule
  overrides : Option Overrides
  issuedAt : Nat
deriving DecidableEq

def GrantSchedule.isSupportedVersion (s : GrantSchedule) : Bool := s.v.toNat ≤ scheduleVersion

/-- What an allowance is spent on. -/
inductive TimeModel
  | session
  | named
deriving DecidableEq

def budgetVersion : Nat := 1

/-- The budget clause. -/
structure GrantBudget where
  v : UInt32
  tz : String
  dailyMinutes : Option UInt32
  weeklyMinutes : Option UInt32
  weekStart : Option WeekStart
  paused : Option Bool
  revoked : Option Bool
  model : Option TimeModel
  issuedAt : Nat
deriving DecidableEq

def GrantBudget.isSupportedVersion (b : GrantBudget) : Bool := b.v.toNat ≤ budgetVersion

/-- How a learning app is identified. -/
inductive LearningAppKind
  | site
  | native
deriving DecidableEq

/-- A site window or a program, of a named time or of the learning clause. -/
structure LearningApp where
  id : String
  label : String
  kind : LearningAppKind
  domains : List String
  url : Option String
  exec : Option String
  trusted : Bool
  free : Option Bool
deriving DecidableEq

end Kintrinsic
