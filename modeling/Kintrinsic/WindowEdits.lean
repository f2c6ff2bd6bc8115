import Kintrinsic.TimeWindows

/-! # What an edit of a time's windows changes

Giving a time its windows changes the schedule of one device, in the windows of that time alone. -/
namespace Kintrinsic

open RecordMaps

/-! ## The week -/

section
variable (s : Schedule) (id : String) (windows : TimeWindows) (day : Weekday)

/-- The windows of a weekday. -/
def Schedule.weekdayWindows : List ScheduleWindow := (s.weekly day).getD []

theorem weekdayWindows_stripWeeklyTag : (s.stripWeeklyTag id).weekdayWindows day =
    (s.weekdayWindows day).filter (·.time ≠ some id) := by
  unfold Schedule.weekdayWindows Schedule.stripWeeklyTag
  dsimp only
  cases s.weekly day with
  | none => rfl
  | some ws =>
    rw [Option.bind_some]
    split
    · rfl
    · rename_i hnone
      push Not at hnone
      rw [Option.getD_none, Option.getD_some, hnone.1]

/-- **The week that is written**: that of before without the windows of the time, and the given ones
after it. -/
theorem weekdayWindows_withWindows : (s.withWindows id windows).weekdayWindows day =
    (s.weekdayWindows day).filter (·.time ≠ some id) ++
      ((windows day).getD []).map (·.tagged id) := by
  rw [← weekdayWindows_stripWeeklyTag]
  unfold Schedule.withWindows Schedule.weekdayWindows
  dsimp only
  by_cases hadd : (windows day).getD [] = []
  · rw [if_pos hadd, hadd, List.map_nil, List.append_nil]
  · rw [if_neg hadd, Option.getD_some]

end

/-! ## Overlaps -/

/-- Two windows do not overlap, by their texts. -/
def ScheduleWindow.Apart (a b : ScheduleWindow) : Prop := a.stop ≤ b.start ∨ b.stop ≤ a.start

/-- No overlap of a day is found where its windows are apart. -/
theorem overlapsOn_eq_nil {day : String} {ws : List ScheduleWindow} :
    overlapsOn day ws = [] ↔ ws.Pairwise ScheduleWindow.Apart := by
  induction ws with
  | nil => exact ⟨fun _ => .nil, fun _ => rfl⟩
  | cons a rest ih =>
    unfold overlapsOn
    rw [List.append_eq_nil_iff, List.map_eq_nil_iff, List.filter_eq_nil_iff, ih, List.pairwise_cons]
    refine and_congr_left fun _ => forall₂_congr fun b _ => ?_
    unfold ScheduleWindow.Apart
    rw [Bool.and_eq_true, decide_eq_true_eq, decide_eq_true_eq, not_and_or, not_lt, not_lt, or_comm]

/-- The tagged windows of every day that has its own are apart. -/
theorem apart_of_findTaggedOverlaps {s : Schedule} (h : findTaggedOverlaps s = []) :
    ∀ ws ∈ s.weekWindows ++ s.overrideWindows,
      (ws.filter (·.time.isSome)).Pairwise ScheduleWindow.Apart := by
  unfold findTaggedOverlaps at h
  dsimp only at h
  rw [List.append_eq_nil_iff, List.flatMap_eq_nil_iff, List.flatMap_eq_nil_iff] at h
  obtain ⟨hweek, hdates⟩ := h
  intro ws hws
  rcases List.mem_append.mp hws with hws | hws
  · obtain ⟨day, hday, hsome⟩ := List.mem_filterMap.mp hws
    have hapart := overlapsOn_eq_nil.mp (hweek day hday)
    rwa [hsome, Option.getD_some] at hapart
  · obtain ⟨e, he, rfl⟩ := List.mem_map.mp hws
    exact overlapsOn_eq_nil.mp (hdates e he)

/-- So are those of one time. -/
theorem apart_of_tag {ws : List ScheduleWindow} (id : String)
    (h : (ws.filter (·.time.isSome)).Pairwise ScheduleWindow.Apart) :
    (ws.filter (·.time = some id)).Pairwise ScheduleWindow.Apart := by
  refine h.sublist ?_
  refine List.monotone_filter_right ws fun w hw => ?_
  rw [of_decide_eq_true hw]
  rfl

/-! ## What is written -/

section
variable {Other : PolicyDimension → Type} {p q next : Policy Other} {id deviceId : String}
  {windows : TimeWindows} {devices : List DeviceRecord} {reported : String → Option Nat}
  {own : Schedule}

theorem Policy.effective_schedule (r : Policy Other) (deviceId : String) :
    r.effective deviceId .schedule = (r.own deviceId .schedule).or (r.base .schedule) :=
  r.effective_control deviceId .schedule

/-- A device with its own schedule does not read the base. -/
theorem effectivePolicy_writeBase {other : String} (hown : (p.own other .schedule).isSome = true)
    (schedule : Option Schedule) :
    ({ p with base := Function.update p.base .schedule schedule } :
      Policy Other).effectivePolicyForDevice other = p.effectivePolicyForDevice other := by
  have hsame : overlay (p.own other) (Function.update p.base .schedule schedule) =
      overlay (p.own other) p.base := by
    funext d
    by_cases hd : d = .schedule
    · subst hd
      obtain ⟨s, hs⟩ := Option.isSome_iff_exists.mp hown
      show (p.own other .schedule).or _ = (p.own other .schedule).or _
      rw [hs]
      rfl
    · exact overlay_update hd _
  rw [Policy.effectivePolicy_eq, Policy.effectivePolicy_eq]
  exact congrArg (Policy.mk p.scope · none) hsame

/-- **What is written to** is the device's effective schedule, in a policy that every device is sent
the same of. -/
theorem scheduleToWrite_ok (h : scheduleToWrite p deviceId devices = .ok (next, own)) :
    p.effective deviceId .schedule = some own ∧
      (∀ other, next.effectivePolicyForDevice other = p.effectivePolicyForDevice other) ∧
      (soleDevice p deviceId devices = true → next = p ∧ p.own deviceId .schedule = none) := by
  unfold scheduleToWrite at h
  split at h
  · rename_i hsole
    have hnone : p.own deviceId .schedule = none := by
      unfold soleDevice at hsole
      rw [Bool.and_eq_true, Option.isNone_iff_eq_none] at hsole
      exact hsole.1
    cases hbase : p.base .schedule with
    | none =>
      rw [hbase] at h
      cases h
    | some s =>
      rw [hbase] at h
      cases h
      rw [Policy.effective_schedule, hnone, hbase]
      exact ⟨rfl, fun _ => rfl, fun _ => ⟨rfl, rfl⟩⟩
  · rename_i hnot
    cases hown : p.own deviceId .schedule with
    | some s =>
      rw [hown] at h
      cases h
      rw [Policy.effective_schedule, hown]
      exact ⟨rfl, fun _ => rfl, fun hsole => absurd hsole hnot⟩
    | none =>
      rw [hown] at h
      dsimp only at h
      split at h
      · cases h
      · cases hsplit : (p.setControlSplit .schedule (devices.map (·.id))).own deviceId .schedule with
        | none =>
          rw [hsplit] at h
          cases h
        | some s =>
          rw [hsplit] at h
          cases h
          have hsent := Policy.effectivePolicy_setControlSplit p .schedule (devices.map (·.id))
          refine ⟨?_, hsent, fun hsole => absurd hsole hnot⟩
          -- what the device was seeded with is what it had
          have hsame : (p.setControlSplit .schedule (devices.map (·.id))).effective deviceId .schedule =
              p.effective deviceId .schedule := congrArg (fun q => q.base .schedule) (hsent deviceId)
          rw [← hsame, Policy.effective_schedule, hsplit]
          rfl

/-- What a write that is not refused passed, and what it comes to. -/
theorem setTimeWindows_ok (h : setTimeWindows p id deviceId windows devices reported = .ok q) :
    ∃ next own, scheduleToWrite p deviceId devices = .ok (next, own) ∧ plainFault windows = none ∧
      own.paused ≠ some true ∧ findTaggedOverlaps (own.withWindows id windows) = [] ∧
      q = if soleDevice p deviceId devices then
        { next with base := Function.update next.base .schedule (some (own.withWindows id windows)) }
      else next.setDeviceControl .schedule deviceId (some (own.withWindows id windows)) := by
  unfold setTimeWindows at h
  split at h
  · cases h
  · split at h
    · cases h
    · split at h
      · cases h
      · cases h
      · split at h
        · cases h
        · rename_i hplain
          split at h
          · cases h
          · rename_i next own hwrite
            split at h
            · cases h
            · rename_i hlifted
              dsimp only at h
              split at h
              · cases h
              · rename_i hoverlaps
                refine ⟨next, own, hwrite, hplain, hlifted, hoverlaps, ?_⟩
                split at h
                · rename_i hsole
                  rw [if_pos hsole]
                  exact (Except.ok.inj h).symm
                · rename_i hnot
                  rw [if_neg hnot]
                  exact (Except.ok.inj h).symm

end

end Kintrinsic
