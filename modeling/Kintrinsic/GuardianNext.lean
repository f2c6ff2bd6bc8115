import Kintrinsic.TimeExtend
import Kintrinsic.UsableStarts

/-! # What the guardian's app says comes next

`nextWindow` and `defaultExtendTime` look for the first and the last of the raw windows of a day, of
those whose tag the child has a definition for. -/
namespace Kintrinsic

open CivilDate Times

/-! ## Instants of a local day -/

section
variable (zones : Zones) (phone : Tz)

/-- `startOfDayUnix`. -/
def startOfDayUnix (nowSecs : Int) (tz : Option String) : Int :=
  let zone := (tz.bind zones).getD phone
  let now := tzDayParts zone nowSecs
  let start := nowSecs - now.2
  let parts := tzDayParts zone start
  if parts.2 = 0 then start
  else if parts.1 = now.1 then start - parts.2
  else start + (86400 - parts.2)

end

/-- The loop of `unixAtLocal`: onto the second of the day, while it is that day. -/
def ontoSecond (tz : Tz) (day : String) (secsOfDay : Nat) : Nat → Int → Int
  | 0, at_ => at_
  | n + 1, at_ =>
    let parts := tzDayParts tz at_
    if parts.1 ≠ day ∨ parts.2 = secsOfDay then at_
    else ontoSecond tz day secsOfDay n (at_ + (secsOfDay - parts.2))

/-- `unixAtLocal`. -/
def unixAtLocal (tz : Tz) (dayStart : Int) (secsOfDay : Nat) : Int :=
  ontoSecond tz (tzDayParts tz dayStart).1 secsOfDay 2 (dayStart + secsOfDay)

/-! ## The raw windows -/

/-- `isKnown`: the tag, if any, is one that the child has defined. -/
def ScheduleWindow.isKnown (w : ScheduleWindow) (times : List TimeSel) : Bool :=
  match w.time with
  | none => true
  | some tag => times.any (·.id = tag)

/-- `tagWins`. -/
def tagWins (a b : ScheduleWindow) : Bool := a.time.isSome && b.time.isNone

/-- It starts earlier, or together and tagged. -/
def startsSooner (w b : ScheduleWindow) : Bool :=
  decide (minutesOf w.start < minutesOf b.start) ||
    (decide (minutesOf w.start = minutesOf b.start) && tagWins w b)

/-- It ends later, or together and tagged. -/
def endsLater (w b : ScheduleWindow) : Bool :=
  decide (minutesOf b.stop < minutesOf w.stop) ||
    (decide (minutesOf w.stop = minutesOf b.stop) && tagWins w b)

/-- The best so far and one more; the earlier one stays unless it is beaten. -/
def keepBetter (beats : ScheduleWindow → ScheduleWindow → Bool) (best : Option ScheduleWindow)
    (w : ScheduleWindow) : Option ScheduleWindow :=
  match best with
  | none => some w
  | some b => if beats w b then some w else some b

/-- The loop over the windows that one condition leaves in. -/
def pickWindow (beats : ScheduleWindow → ScheduleWindow → Bool) (windows : List ScheduleWindow) :
    Option ScheduleWindow :=
  windows.foldl (keepBetter beats) none

inductive OpeningDay
  | today
  | tomorrow
deriving DecidableEq

/-- `NextWindow`, of the guardian's app. -/
structure Opening where
  time : Option String
  startsAt : Int
  hhmm : String
  day : OpeningDay
deriving DecidableEq

section
variable (zones : Zones) (phone : Tz)

/-- `nextWindow`; without `times` every tag counts as known. -/
def Schedule.nextWindow (schedule : Option Schedule) (nowSecs : Int) (times : Option (List TimeSel)) :
    Option Opening :=
  match schedule with
  | none => none
  | some s =>
    if s.paused = some true then none
    else
      let zone := (zones s.tz).getD phone
      let now := tzDayParts zone nowSecs
      let usable := fun (w : ScheduleWindow) => (times.map w.isKnown).getD true
      match pickWindow startsSooner ((s.windowsOn now.1).filter fun w =>
          usable w && decide (now.2 < minutesOf w.start * 60)) with
      | some w =>
        some ⟨w.time, unixAtLocal zone (startOfDayUnix zones phone nowSecs (some s.tz))
          (minutesOf w.start * 60), w.start, .today⟩
      | none =>
        let tomorrowStart := endOfDayUnix zones phone nowSecs (some s.tz)
        match pickWindow startsSooner
            ((s.windowsOn (tzDayParts zone tomorrowStart).1).filter usable) with
        | some w =>
          some ⟨w.time, unixAtLocal zone tomorrowStart (minutesOf w.start * 60), w.start, .tomorrow⟩
        | none => none

/-- `defaultExtendTime`. -/
def defaultExtendTime (schedule : Option Schedule) (times : List TimeSel) (nowSecs : Int) :
    Option String :=
  match activeTimeAt zones phone schedule times nowSecs with
  | .time t => some t.id
  | .free => none
  | .outside | .unknownTime _ =>
    match schedule with
    | none => none
    | some s =>
      let now := tzDayParts ((zones s.tz).getD phone) nowSecs
      let usable := (s.windowsOn now.1).filter (·.isKnown times)
      match pickWindow endsLater (usable.filter fun w => minutesOf w.stop * 60 ≤ now.2) with
      | some ended => ended.time
      | none =>
        (pickWindow startsSooner (usable.filter fun w => now.2 < minutesOf w.start * 60)).bind
          (·.time)

end

/-! ## What a pick picks -/

/-- What is picked ranks first. -/
theorem pickWindow_spec {beats : ScheduleWindow → ScheduleWindow → Bool}
    (rank : ScheduleWindow → Int) (hbeats : ∀ w b, beats w b = true ↔ rank w < rank b)
    (windows : List ScheduleWindow) :
    pickWindow beats windows = none ∧ windows = [] ∨
      ∃ w ∈ windows, pickWindow beats windows = some w ∧ ∀ k ∈ windows, rank w ≤ rank k := by
  cases windows with
  | nil => exact .inl ⟨rfl, rfl⟩
  | cons x xs =>
    have hpick : ∀ b w, ∃ c, keepBetter beats (some b) w = some c ∧ (c = b ∨ c = w) ∧
        rank c ≤ rank b ∧ rank c ≤ rank w := by
      intro b w
      by_cases hlt : rank w < rank b
      · exact ⟨w, if_pos ((hbeats w b).mpr hlt), .inr rfl, hlt.le, le_rfl⟩
      · exact ⟨b, if_neg (mt (hbeats w b).mp hlt), .inl rfl, le_rfl, not_lt.mp hlt⟩
    obtain ⟨c, hc, hfrom, hx, hall⟩ := foldl_best (fun a b => rank b ≤ rank a) (keepBetter beats)
      (fun _ => le_rfl) (fun _ _ _ hab hbc => hbc.trans hab) hpick xs x
    refine .inr ⟨c, ?_, hc, ?_⟩
    · rcases hfrom with rfl | hmem
      · exact List.mem_cons_self
      · exact List.mem_cons_of_mem _ hmem
    · intro k hk
      rcases List.mem_cons.mp hk with rfl | hk
      · exact hx
      · exact hall k hk

/-- A tie goes to a tag. -/
def tieRank (w : ScheduleWindow) : Int := if w.time.isSome then 0 else 1

theorem tagWins_iff {a b : ScheduleWindow} : tagWins a b = true ↔ tieRank a < tieRank b := by
  unfold tagWins tieRank
  cases a.time <;> cases b.time <;> simp

theorem tieRank_bounds (w : ScheduleWindow) : 0 ≤ tieRank w ∧ tieRank w ≤ 1 := by
  unfold tieRank
  split <;> omega

/-- As high, and not tagged: then neither is the other. -/
theorem untagged_of_tieRank {w k : ScheduleWindow} (h : tieRank w ≤ tieRank k)
    (hw : w.time = none) : k.time = none := by
  unfold tieRank at h
  rw [hw] at h
  cases hk : k.time with
  | none => rfl
  | some tag =>
    rw [hk] at h
    simp at h

/-- The first to start, and of those a tagged one. -/
theorem pick_startsSooner (windows : List ScheduleWindow) :
    pickWindow startsSooner windows = none ∧ windows = [] ∨
      ∃ w ∈ windows, pickWindow startsSooner windows = some w ∧ ∀ k ∈ windows,
        minutesOf w.start ≤ minutesOf k.start ∧
          (minutesOf k.start = minutesOf w.start → w.time = none → k.time = none) := by
  have hrank : ∀ w b, startsSooner w b = true ↔
      2 * (minutesOf w.start : Int) + tieRank w < 2 * (minutesOf b.start : Int) + tieRank b := by
    intro w b
    have hw := tieRank_bounds w
    have hb := tieRank_bounds b
    rw [startsSooner, Bool.or_eq_true, Bool.and_eq_true, decide_eq_true_eq, decide_eq_true_eq,
      tagWins_iff]
    omega
  rcases pickWindow_spec _ hrank windows with hnone | ⟨w, hw, hpick, hleast⟩
  · exact .inl hnone
  · refine .inr ⟨w, hw, hpick, fun k hk => ?_⟩
    have hle := hleast k hk
    have hw := tieRank_bounds w
    have hk := tieRank_bounds k
    exact ⟨by omega, fun heq => untagged_of_tieRank (by omega)⟩

/-- The last to end, and of those a tagged one. -/
theorem pick_endsLater (windows : List ScheduleWindow) :
    pickWindow endsLater windows = none ∧ windows = [] ∨
      ∃ w ∈ windows, pickWindow endsLater windows = some w ∧ ∀ k ∈ windows,
        minutesOf k.stop ≤ minutesOf w.stop ∧
          (minutesOf k.stop = minutesOf w.stop → w.time = none → k.time = none) := by
  have hrank : ∀ w b, endsLater w b = true ↔
      -2 * (minutesOf w.stop : Int) + tieRank w < -2 * (minutesOf b.stop : Int) + tieRank b := by
    intro w b
    have hw := tieRank_bounds w
    have hb := tieRank_bounds b
    rw [endsLater, Bool.or_eq_true, Bool.and_eq_true, decide_eq_true_eq, decide_eq_true_eq,
      tagWins_iff]
    omega
  rcases pickWindow_spec _ hrank windows with hnone | ⟨w, hw, hpick, hleast⟩
  · exact .inl hnone
  · refine .inr ⟨w, hw, hpick, fun k hk => ?_⟩
    have hle := hleast k hk
    have hw := tieRank_bounds w
    have hk := tieRank_bounds k
    exact ⟨by omega, fun heq => untagged_of_tieRank (by omega)⟩

end Kintrinsic
