import Kintrinsic.UsageExcursion
import Kintrinsic.UsageMirrors

/-! # A guardian's edit of the zone or the week start

`reconcile` re-keys the counters in force to the instant's day and week in the new zone and
drops both chains.  It refills nothing: whatever was in force is charged to the current day
from then on, whichever day the old zone had it on. -/
namespace Kintrinsic

open CivilDate PreRoll

namespace UsageLedger
variable {cal : Calendar} {l : UsageLedger} {tz : String} {weekStart : WeekStart} {now : Int}

/-- An edit that changes nothing is not one. -/
theorem reconcile_same (h : l.tz = tz ∧ l.weekStart = weekStart) :
    l.reconcile cal tz weekStart now = l := if_pos h

variable (cal l tz weekStart now) in
/-- The counters in force come out of an edit as they went in. -/
theorem reconcile_meters :
    (∀ m : Meter DayCounters,
      m.read (l.reconcile cal tz weekStart now).day.current = m.read l.day.current) ∧
    (∀ m : Meter WeekCounters,
      m.read (l.reconcile cal tz weekStart now).week.current = m.read l.week.current) ∧
    (l.reconcile cal tz weekStart now).day.current.minutesToday = l.day.current.minutesToday := by
  unfold reconcile
  split
  · exact ⟨fun _ => rfl, fun _ => rfl, rfl⟩
  · exact ⟨fun m => m.read_setKey _ _, fun m => m.read_setKey _ _, rfl⟩

/-- A changed zone or week start leaves the ledger as a trusted tick would: on the keys of the
instant, with nothing set aside. -/
theorem settled_reconcile (h : ¬(l.tz = tz ∧ l.weekStart = weekStart)) :
    (l.reconcile cal tz weekStart now).Settled cal now := by
  rw [reconcile, if_neg h]
  exact ⟨key_setKey _ _, rfl, key_setKey _ _, rfl⟩

/-- An edit leaves a day that had not rolled as it was, and every other one current. -/
theorem dayHasRolled_reconcile (h : l.dayHasRolled cal now = false) :
    (l.reconcile cal tz weekStart now).dayHasRolled cal now = false := by
  by_cases hsame : l.tz = tz ∧ l.weekStart = weekStart
  · rwa [reconcile_same hsame]
  · exact dayHasRolled_current (settled_reconcile hsame).dayKey

theorem weekHasRolled_reconcile (h : l.weekHasRolled cal now = false) :
    (l.reconcile cal tz weekStart now).weekHasRolled cal now = false := by
  by_cases hsame : l.tz = tz ∧ l.weekStart = weekStart
  · rwa [reconcile_same hsame]
  · exact weekHasRolled_current (settled_reconcile hsame).weekKey

variable (cal l tz weekStart now)

/-- **What an edit does to what is charged**: read at its instant, no counter falls, and those
of a day, or week, that the old zone had not seen the end of are charged to the current one to
the second, with the minutes of that day.  An edit that changes something ends on the keys of
the new zone's day and week with nothing set aside, so that the next call there rolls nothing. -/
structure Recharged (l' : UsageLedger) : Prop where
  dayLe : ∀ m, l.readDay cal now m ≤ l'.readDay cal now m
  weekLe : ∀ m, l.readWeek cal now m ≤ l'.readWeek cal now m
  day : l.dayHasRolled cal now = false → ∀ m, l'.readDay cal now m = l.readDay cal now m
  week : l.weekHasRolled cal now = false → ∀ m, l'.readWeek cal now m = l.readWeek cal now m
  minutes : l.dayHasRolled cal now = false → l'.minutesToday cal now = l.minutesToday cal now
  zone : l'.tz = tz
  start : l'.weekStart = weekStart
  settled : l.tz = tz ∧ l.weekStart = weekStart ∧ l' = l ∨ l'.Settled cal now

/-- **An edit re-keys what is in force and refunds none of it.** -/
theorem recharged_reconcile :
    l.Recharged cal tz weekStart now (l.reconcile cal tz weekStart now) := by
  obtain ⟨hday, hweek, hminutes⟩ := reconcile_meters cal l tz weekStart now
  have hdayEq : l.dayHasRolled cal now = false → ∀ m : Meter DayCounters,
      (l.reconcile cal tz weekStart now).readDay cal now m = l.readDay cal now m := by
    intro h m
    rw [readDay, readDay, dayHasRolled_reconcile h, h, hday]
  have hweekEq : l.weekHasRolled cal now = false → ∀ m : Meter WeekCounters,
      (l.reconcile cal tz weekStart now).readWeek cal now m = l.readWeek cal now m := by
    intro h m
    rw [readWeek, readWeek, weekHasRolled_reconcile h, h, hweek]
  constructor
  case day => exact hdayEq
  case week => exact hweekEq
  case dayLe =>
    intro m
    cases h : l.dayHasRolled cal now with
    | false => exact (hdayEq h m).ge
    | true =>
      rw [readDay, h, if_pos rfl]
      exact Nat.zero_le _
  case weekLe =>
    intro m
    cases h : l.weekHasRolled cal now with
    | false => exact (hweekEq h m).ge
    | true =>
      rw [readWeek, h, if_pos rfl]
      exact Nat.zero_le _
  case minutes =>
    intro h
    rw [minutesToday, minutesToday, dayHasRolled_reconcile h, h, hminutes]
  case zone =>
    unfold reconcile
    split
    · rename_i hsame
      exact hsame.1
    · rfl
  case start =>
    unfold reconcile
    split
    · rename_i hsame
      exact hsame.2
    · rfl
  case settled =>
    by_cases hsame : l.tz = tz ∧ l.weekStart = weekStart
    · exact Or.inl ⟨hsame.1, hsame.2, reconcile_same hsame⟩
    · exact Or.inr (settled_reconcile hsame)

/-- The screen seconds that some calls credit on one local day. -/
def creditedOn (zone : Tz) (day : Int) (cs : List Credit) : Nat :=
  ((cs.filter fun c => zone.localDay c.now = day).map Credit.screenSecs).sum

theorem hourEast_bounded (o : Int) (h : o ∈ [3600]) : -86400 < o ∧ o < 86400 := by
  rw [List.mem_singleton.mp h]
  decide

/-- An hour east of UTC. -/
def hourEast : Tz := ⟨3600, [], hourEast_bounded⟩

def twoZones : Calendar :=
  ⟨fun name => if name = "UTC" then some Tz.utc else if name = "Etc/GMT-1" then some hourEast
    else none, parseKey⟩

/-- An hour in the evening. -/
def evening : List Credit := [.bucket 1782763200 .active .screen 3600]

/-- **What an edit does not go by is when the time was spent.**  Half an hour before midnight
the zone moves an hour east, into the next day, and takes along the hour of an evening that
neither zone had on that day; and on the real day after an excursion the hour that was spent on
it, being set aside, is not charged to it. -/
theorem reconcile_exceptions :
    (((credited twoZones noonLedger evening).reconcile twoZones "Etc/GMT-1" .mon
        1782775800).usedToday twoZones 1782775800 = 3600 ∧
      hourEast.localDay 1782775800 = 20634 ∧
      creditedOn Tz.utc 20634 evening = 0 ∧ creditedOn hourEast 20634 evening = 0) ∧
    ((credited twoZones noonLedger dayAhead).reconcile twoZones "Etc/GMT-1" .mon
        1782734460).usedToday twoZones 1782734460 = 60 ∧
      hourEast.localDay 1782734460 = 20633 ∧
      creditedOn Tz.utc 20633 dayAhead = 3600 ∧ creditedOn hourEast 20633 dayAhead = 3600 := by
  decide +kernel

end UsageLedger
end Kintrinsic
