import Kintrinsic.ClauseShapes
import Mathlib.Data.List.Sort

/-! # Schedule evaluation

`evaluate_grant_schedule`: the checks in the source's order, and the two countdowns, to the
close of the window in force and to the next one that opens.  Both are differences of two
instants. -/
namespace Kintrinsic

open CivilDate

/-- Whether the device is inside a window, with the countdown to what ends that. -/
inductive ScheduleStatus
  | unbounded
  | opened (secondsToClose : Nat)
  | locked (secondsToOpen : Option Nat)
  | unparseable
deriving DecidableEq

/-! ## Windows -/

/-- `str::parse::<u32>`: digits, with a plus sign or without. -/
def parseU32 (cs : List Char) : Option Nat :=
  let digits := match cs with
    | '+' :: rest => rest
    | _ => cs
  if digits.isEmpty || digits.any (fun c => !c.isDigit) then none
  else
    let n := digits.foldl (fun n c => 10 * n + (c.toNat - '0'.toNat)) 0
    if n < 2 ^ 32 then some n else none

/-- `str::split_once`. -/
def splitOnce (sep : Char) : List Char → Option (List Char × List Char)
  | [] => none
  | c :: cs =>
    if c = sep then some ([], cs)
    else (splitOnce sep cs).map fun p => (c :: p.1, p.2)

/-- `parse_hhmm`. -/
def parseHhmm (s : String) : Option Nat := do
  let (h, m) ← splitOnce ':' s.toList
  let h ← parseU32 h
  let m ← parseU32 m
  if 23 < h ∨ 59 < m then none else some (h * 60 + m)

/-- A window as minutes of the day. -/
def parseWindow (w : GrantScheduleWindow) : Option (Nat × Nat) := do
  let s ← parseHhmm w.start
  let e ← parseHhmm w.stop
  some (s, e)

/-- `parse_windows`: what does not parse, or ends before it starts, is left out. -/
def parseWindows (windows : List GrantScheduleWindow) : List (Nat × Nat) :=
  (windows.filterMap parseWindow).filter fun w => w.1 < w.2

namespace GrantSchedule
variable (sched : GrantSchedule)

/-- `windows_for`: an override for the date replaces the weekly entry. -/
def windowsFor (dateKey : String) (day : Nat) : Option (List (Nat × Nat)) :=
  match sched.overrides.bind fun o => o.lookup dateKey with
  | some windows => some (parseWindows windows)
  | none => (sched.weekly.forDay day).map parseWindows

/-- The windows of a local day. -/
def windowsOn (day : Int) : Option (List (Nat × Nat)) :=
  sched.windowsFor (dateKey day) (daysFromSunday day).toNat

/-- The first of the starts, earliest first, that is still to come. -/
def firstOpen (tz : Tz) (now day : Int) (starts : List Nat) : Option Nat :=
  (starts.insertionSort (· ≤ ·)).findSome? fun start =>
    let opens := tz.localWallTs day start
    if now < opens then some (opens - now).toNat else none

/-- `next_open_secs`: today and the seven days after it. -/
def nextOpenSecs (tz : Tz) (now : Int) : Option Nat :=
  (List.range 8).findSome? fun (offset : Nat) =>
    let probe := tz.localDay now + offset
    (sched.windowsOn probe).bind fun windows => firstOpen tz now probe (windows.map Prod.fst)

/-- The window of a day that a minute falls in. -/
def windowAt (minute : Nat) (windows : List (Nat × Nat)) : Option (Nat × Nat) :=
  windows.find? fun w => decide (w.1 ≤ minute) && decide (minute < w.2)

def hasOverrides : Bool := (sched.overrides.map fun o => !o.entries.isEmpty).getD false

/-- `evaluate_grant_schedule`. -/
def evaluate (zones : Zones) (now : Int) : ScheduleStatus :=
  if !sched.isSupportedVersion then .unparseable
  else if sched.paused = some true then .locked none
  else
    match zones sched.tz with
    | none => .unparseable
    | some tz =>
      if sched.weekly.isEmpty && !sched.hasOverrides then .unbounded
      else
        match (sched.windowsOn (tz.localDay now)).bind (windowAt (tz.minuteOfDay now)) with
        | some (_, close) =>
          .opened (max (tz.localWallTs (tz.localDay now) close - now) 0).toNat
        | none => .locked (sched.nextOpenSecs tz now)

end GrantSchedule

/-! ## Windows are within a day, and their countdowns short -/

theorem parseHhmm_lt {s : String} {n : Nat} (h : parseHhmm s = some n) : n < 1440 := by
  unfold parseHhmm at h
  obtain ⟨⟨hs, ms⟩, -, h⟩ := Option.bind_eq_some_iff.mp h
  obtain ⟨hour, -, h⟩ := Option.bind_eq_some_iff.mp h
  obtain ⟨minute, -, h⟩ := Option.bind_eq_some_iff.mp h
  split at h
  · cases h
  · cases h
    omega

/-- **Every window kept is well formed**: it opens before it closes, within the day. -/
theorem parseWindows_wellFormed {windows : List GrantScheduleWindow} {w : Nat × Nat}
    (h : w ∈ parseWindows windows) : w.1 < w.2 ∧ w.2 < 1440 := by
  obtain ⟨hmem, hlt⟩ := List.mem_filter.mp h
  obtain ⟨src, -, hsrc⟩ := List.mem_filterMap.mp hmem
  unfold parseWindow at hsrc
  obtain ⟨s, -, hsrc⟩ := Option.bind_eq_some_iff.mp hsrc
  obtain ⟨e, he, hsrc⟩ := Option.bind_eq_some_iff.mp hsrc
  cases hsrc
  exact ⟨of_decide_eq_true hlt, parseHhmm_lt he⟩

namespace GrantSchedule
variable {sched : GrantSchedule} {zones : Zones} {now : Int}

theorem windowsOn_wellFormed {day : Int} {windows : List (Nat × Nat)}
    (h : sched.windowsOn day = some windows) {w : Nat × Nat} (hw : w ∈ windows) :
    w.1 < w.2 ∧ w.2 < 1440 := by
  unfold windowsOn windowsFor at h
  split at h
  · cases h
    exact parseWindows_wellFormed hw
  · obtain ⟨src, -, rfl⟩ := Option.map_eq_some_iff.mp h
    exact parseWindows_wellFormed hw

/-- **What an open status says**: a window of the local day holds the minute, and the
countdown runs to its close. -/
theorem evaluate_opened {secs : Nat} (h : sched.evaluate zones now = .opened secs) :
    ∃ tz windows w, zones sched.tz = some tz ∧
      sched.windowsOn (tz.localDay now) = some windows ∧ w ∈ windows ∧
      w.1 ≤ tz.minuteOfDay now ∧ tz.minuteOfDay now < w.2 ∧
      secs = (max (tz.localWallTs (tz.localDay now) w.2 - now) 0).toNat := by
  unfold evaluate at h
  split at h
  · cases h
  split at h
  · cases h
  split at h
  · cases h
  rename_i tz htz
  split at h
  · cases h
  split at h
  · rename_i start close hfind
    obtain ⟨windows, hwindows, hat⟩ := Option.bind_eq_some_iff.mp hfind
    have hmem := List.mem_of_find?_eq_some hat
    have hholds := List.find?_some hat
    rw [Bool.and_eq_true, decide_eq_true_eq, decide_eq_true_eq] at hholds
    cases h
    exact ⟨tz, windows, _, htz, hwindows, hmem, hholds.1, hholds.2, rfl⟩
  · cases h

theorem secondsToClose_lt {secs : Nat} (h : sched.evaluate zones now = .opened secs) :
    secs < 345600 := by
  obtain ⟨tz, windows, w, -, hwindows, hmem, -, -, rfl⟩ := evaluate_opened h
  have hclose := (windowsOn_wellFormed hwindows hmem).2
  have hts := tz.localWallTs_sub_lt now w.2
  omega

end GrantSchedule
end Kintrinsic
