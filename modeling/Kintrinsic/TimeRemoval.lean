import Kintrinsic.NextWindow
import Kintrinsic.TimesAgree
import Kintrinsic.TimesLocks
import Kintrinsic.WindowEdits

/-! # Deleting a named time

The windows of a time go with it, from the base and from every device's own schedule.  What stands
under them comes out; what was locked stays locked, unless a window of that very time had locked it. -/
namespace Kintrinsic

open RecordMaps Times CivilDate

/-! ## The first of the least -/

section
variable {α : Type} {key : α → Nat} {xs l r : List α} {w : α}

theorem minByKey_append_singleton (x : α) :
    minByKey key (xs ++ [x]) = lesser key (minByKey key xs) x := by
  unfold minByKey
  rw [List.foldl_append]
  rfl

/-- What is picked comes before nothing lesser and after nothing as small. -/
theorem split_of_minByKey (h : minByKey key xs = some w) : ∃ l r, xs = l ++ w :: r ∧
    (∀ x ∈ l, key w < key x) ∧ ∀ x ∈ r, key w ≤ key x := by
  induction xs using List.reverseRecOn generalizing w with
  | nil => cases h
  | append_singleton xs x ih =>
    rw [minByKey_append_singleton] at h
    rcases minByKey_spec key xs with ⟨hnone, rfl⟩ | ⟨b, -, hb, hleast⟩
    · rw [hnone] at h
      obtain rfl : x = w := Option.some.inj h
      exact ⟨[], [], rfl, by simp, by simp⟩
    · rw [hb] at h
      unfold lesser at h
      dsimp only at h
      split at h
      · rename_i hlt
        obtain rfl : x = w := Option.some.inj h
        exact ⟨xs, [], rfl, fun y hy => hlt.trans_le (hleast y hy), by simp⟩
      · rename_i hge
        obtain rfl : b = w := Option.some.inj h
        obtain ⟨l, r, rfl, hl, hr⟩ := ih hb
        refine ⟨l, r ++ [x], by simp, hl, fun y hy => ?_⟩
        rcases List.mem_append.mp hy with hy | hy
        · exact hr y hy
        · rw [List.mem_singleton.mp hy]
          exact not_lt.mp hge

/-- And it is what is picked. -/
theorem minByKey_of_split (hl : ∀ x ∈ l, key w < key x) (hr : ∀ x ∈ r, key w ≤ key x) :
    minByKey key (l ++ w :: r) = some w := by
  induction r using List.reverseRecOn with
  | nil =>
    rw [minByKey_append_singleton]
    rcases minByKey_spec key l with ⟨hnone, -⟩ | ⟨b, hb, hpick, -⟩
    · rw [hnone]
      rfl
    · rw [hpick]
      exact if_pos (hl b hb)
  | append_singleton r x ih =>
    have hassoc : l ++ w :: (r ++ [x]) = (l ++ w :: r) ++ [x] := by simp
    rw [hassoc, minByKey_append_singleton, ih fun y hy => hr y (List.mem_append_left _ hy)]
    exact if_neg (not_lt.mpr (hr x (List.mem_append_right _ List.mem_cons_self)))

/-- **What is picked is picked of fewer**, if it is among them. -/
theorem minByKey_filter {p : α → Bool} (h : minByKey key xs = some w) (hp : p w = true) :
    minByKey key (xs.filter p) = some w := by
  obtain ⟨l, r, rfl, hl, hr⟩ := split_of_minByKey h
  rw [List.filter_append, List.filter_cons_of_pos hp]
  exact minByKey_of_split (fun x hx => hl x (List.mem_of_mem_filter hx))
    fun x hx => hr x (List.mem_of_mem_filter hx)

end

/-! ## The label of a minute -/

section
variable {wins : List Win} {known known' : String → Bool} {minute : Nat} {id : String}

/-- **What was not runnable stays so** without the windows of a time, unless it was locked by one. -/
theorem labelAt_without (hknown : ∀ u, u ≠ id → known' u = known u)
    (hlocked : (labelAt wins known minute).runnable = false)
    (hnot : labelAt wins known minute ≠ .unknown id) :
    (labelAt (wins.filter (·.tag ≠ some id)) known' minute).runnable = false := by
  have hswap : ∀ p : Win → Bool, (wins.filter (·.tag ≠ some id)).filter p =
      (wins.filter p).filter (·.tag ≠ some id) := fun p => List.filter_comm _ _ _
  unfold labelAt at hlocked hnot ⊢
  rw [hswap]
  cases hpick : minByKey Win.start (wins.filter fun w => w.tag.isSome && w.covers minute) with
  | some w =>
    rw [hpick] at hlocked hnot
    dsimp only at hlocked hnot
    obtain ⟨u, hu⟩ : ∃ u, w.tag = some u := by
      have hmem := List.mem_filter.mp (mem_of_minByKey hpick)
      rw [Bool.and_eq_true] at hmem
      exact Option.isSome_iff_exists.mp hmem.2.1
    rw [hu, Option.getD_some] at hlocked hnot
    cases hk : known u with
    | true =>
      rw [hk] at hlocked
      cases hlocked
    | false =>
      rw [hk] at hnot
      have hne : u ≠ id := by
        rintro rfl
        exact hnot rfl
      -- the window of the other unknown tag is still the first
      have hstays : decide (w.tag ≠ some id) = true := by
        rw [hu]
        exact decide_eq_true fun heq => hne (Option.some.inj heq)
      rw [minByKey_filter hpick hstays]
      dsimp only
      rw [hu, Option.getD_some, hknown u hne, hk]
      rfl
  | none =>
    rw [hpick] at hlocked
    dsimp only at hlocked
    rcases minByKey_spec Win.start (wins.filter fun w => w.tag.isSome && w.covers minute) with
      ⟨-, hnil⟩ | ⟨x, -, hsome, -⟩
    · rw [hnil]
      dsimp only [List.filter_nil]
      have hany : (wins.any fun w => w.tag.isNone && w.covers minute) = false := by
        by_contra htrue
        rw [Bool.not_eq_false] at htrue
        rw [htrue] at hlocked
        cases hlocked
      have hnone : ((wins.filter (·.tag ≠ some id)).any fun w => w.tag.isNone && w.covers minute) =
          false := by
        rw [List.any_eq_false] at hany ⊢
        exact fun w hw => hany w (List.mem_of_mem_filter hw)
      rw [hnone]
      rfl
    · rw [hpick] at hsome
      cases hsome

end

/-! ## The schedule without a time -/

section
variable {s : Schedule} {id : String}

/-- Windows of which none has a tag are what is left without it. -/
theorem filter_of_untagged {ws : List ScheduleWindow}
    (h : (ws.any fun w => w.time == some id) = false) : ws.filter (·.time ≠ some id) = ws := by
  refine List.filter_eq_self.mpr fun w hw => decide_eq_true ?_
  simpa using List.any_eq_false.mp h w hw

/-- Without the tag every weekday has its other windows, … -/
theorem weekdayWindows_stripTag (s : Schedule) (id : String) (day : Weekday) :
    (s.stripTag id).weekdayWindows day = (s.weekdayWindows day).filter (·.time ≠ some id) := by
  unfold Schedule.stripTag
  dsimp only
  split
  · rename_i hnone
    rw [Bool.not_eq_true', List.any_eq_false] at hnone
    symm
    unfold Schedule.weekdayWindows
    cases hday : s.weekly day with
    | none => rfl
    | some ws =>
      have hmem : ws ∈ s.weekWindows ++ s.overrideWindows :=
        List.mem_append_left _ (List.mem_filterMap.mpr ⟨day, day.mem_all, hday⟩)
      exact filter_of_untagged (Bool.eq_false_iff.mpr (hnone ws hmem))
  · unfold Schedule.weekdayWindows
    dsimp only
    cases s.weekly day with
    | none => rfl
    | some ws =>
      rw [Option.bind_some, Option.getD_some]
      split
      · rfl
      · rename_i hempty
        rw [not_not] at hempty
        split
        · rename_i hhas
          rw [Bool.not_eq_true'] at hhas
          exact (filter_of_untagged hhas).symm
        · exact hempty.symm

/-- … and so has every date of its own. -/
theorem lookup_stripTag (s : Schedule) (id dayKey : String) :
    ((s.stripTag id).overrides.bind fun o => o.lookup dayKey) =
      (s.overrides.bind fun o => o.lookup dayKey).map fun ws => ws.filter (·.time ≠ some id) := by
  unfold Schedule.stripTag
  dsimp only
  split
  · rename_i hnone
    rw [Bool.not_eq_true', List.any_eq_false] at hnone
    cases hlookup : s.overrides.bind fun o => o.lookup dayKey with
    | none => rfl
    | some ws =>
      obtain ⟨o, ho, hkey⟩ := Option.bind_eq_some_iff.mp hlookup
      have hmem : ws ∈ s.weekWindows ++ s.overrideWindows := by
        refine List.mem_append_right _ ?_
        unfold Schedule.overrideWindows
        rw [ho]
        exact List.mem_map.mpr ⟨⟨dayKey, ws⟩, List.of_mem_dlookup hkey, rfl⟩
      rw [Option.map_some, filter_of_untagged (Bool.eq_false_iff.mpr (hnone ws hmem))]
  · cases s.overrides with
    | none => rfl
    | some o =>
      show (mapKept _ o).lookup dayKey = (o.lookup dayKey).map _
      rw [lookup_mapKept]
      cases o.lookup dayKey <;> rfl

theorem stripTag_kept (s : Schedule) (id : String) :
    (s.stripTag id).tz = s.tz ∧ (s.stripTag id).paused = s.paused := by
  unfold Schedule.stripTag
  dsimp only
  split <;> exact ⟨rfl, rfl⟩

/-- A window of a schedule stands on a weekday or on a date. -/
theorem mem_windows {ws : List ScheduleWindow} (h : ws ∈ s.weekWindows ++ s.overrideWindows) :
    (∃ day, s.weekly day = some ws) ∨ ∃ dayKey, (s.overrides.bind fun o => o.lookup dayKey) = some ws := by
  rcases List.mem_append.mp h with h | h
  · obtain ⟨day, -, hday⟩ := List.mem_filterMap.mp h
    exact .inl ⟨day, hday⟩
  · right
    unfold Schedule.overrideWindows at h
    cases ho : s.overrides with
    | none =>
      rw [ho] at h
      cases h
    | some o =>
      rw [ho] at h
      obtain ⟨e, he, rfl⟩ := List.mem_map.mp h
      exact ⟨e.1, List.mem_dlookup o.nodupKeys he⟩

/-- A schedule without windows has none on any day. -/
theorem no_window_of_empty (h : ∀ ws ∈ s.weekWindows ++ s.overrideWindows, ws = []) :
    (∀ day, ∀ w, w ∉ s.weekdayWindows day) ∧
      ∀ dayKey ws, (s.overrides.bind fun o => o.lookup dayKey) = some ws → ∀ w, w ∉ ws := by
  constructor
  · intro day w hw
    unfold Schedule.weekdayWindows at hw
    cases hday : s.weekly day with
    | none =>
      rw [hday] at hw
      cases hw
    | some ws =>
      have hnil := h ws (List.mem_append_left _ (List.mem_filterMap.mpr ⟨day, day.mem_all, hday⟩))
      rw [hday, hnil] at hw
      cases hw
  · intro dayKey ws hkey w hw
    obtain ⟨o, ho, hlookup⟩ := Option.bind_eq_some_iff.mp hkey
    have hnil : ws = [] := by
      refine h ws (List.mem_append_right _ ?_)
      unfold Schedule.overrideWindows
      rw [ho]
      exact List.mem_map.mpr ⟨⟨dayKey, ws⟩, List.of_mem_dlookup hlookup, rfl⟩
    rw [hnil] at hw
    cases hw

/-- **No window of the time is left.** -/
theorem untagged_stripTag (s : Schedule) (id : String) :
    ∀ ws ∈ (s.stripTag id).weekWindows ++ (s.stripTag id).overrideWindows,
      ∀ w ∈ ws, w.time ≠ some id := by
  intro ws hws w hw
  obtain ⟨day, hday⟩ | ⟨dayKey, hkey⟩ := mem_windows hws
  · have hmem : w ∈ (s.stripTag id).weekdayWindows day := by
      unfold Schedule.weekdayWindows
      rw [hday]
      exact hw
    rw [weekdayWindows_stripTag] at hmem
    exact of_decide_eq_true (List.mem_filter.mp hmem).2
  · rw [lookup_stripTag] at hkey
    obtain ⟨ws', -, rfl⟩ := Option.map_eq_some_iff.mp hkey
    exact of_decide_eq_true (List.mem_filter.mp hw).2

end

/-! ## On the device -/

section
variable {s : Schedule} {g g' : GrantSchedule} {id : String}

/-- The raw windows of a date. -/
def Schedule.rawWindows (s : Schedule) (dayKey : String) (weekday : Nat) : List ScheduleWindow :=
  match s.overrides.bind fun o => o.lookup dayKey with
  | some ws => ws
  | none => (Weekday.sundayFirst[weekday]?.bind s.weekly).getD []

/-- Without the tag a date has its other windows. -/
theorem rawWindows_stripTag (s : Schedule) (id dayKey : String) (weekday : Nat) :
    (s.stripTag id).rawWindows dayKey weekday =
      (s.rawWindows dayKey weekday).filter (·.time ≠ some id) := by
  unfold Schedule.rawWindows
  rw [lookup_stripTag]
  cases s.overrides.bind fun o => o.lookup dayKey with
  | some ws => rfl
  | none =>
    cases hday : Weekday.sundayFirst[weekday]? with
    | none => rfl
    | some day => exact weekdayWindows_stripTag s id day

/-- **A device reads the raw windows** of a schedule that was sent with its windows. -/
theorem Schedule.SentAs.windowsOf_raw (h : s.SentAs g) (day : Int) : windowsOf g day =
    ((s.rawWindows (dateKey day) (daysFromSunday day).toNat).map ScheduleWindow.toGrant).filterMap
      winOf := by
  unfold windowsOf dayWindows Schedule.rawWindows
  rw [h.overrides, h.weekly, forDay_weekToGrant]
  have hlookup : ((s.overrides.map overridesToGrant).bind fun o => o.lookup (dateKey day)) =
      (s.overrides.bind fun o => o.lookup (dateKey day)).map (·.map ScheduleWindow.toGrant) := by
    cases s.overrides with
    | none => rfl
    | some o => exact lookup_overridesToGrant o _
  rw [hlookup]
  cases s.overrides.bind fun o => o.lookup (dateKey day) with
  | some ws => rfl
  | none =>
    dsimp only [Option.map_none]
    cases Weekday.sundayFirst[(daysFromSunday day).toNat]?.bind s.weekly <;> rfl

/-- A window is read with its tag. -/
theorem winOf_tag {w : GrantScheduleWindow} {v : Win} (h : winOf w = some v) : v.tag = w.time := by
  unfold winOf at h
  simp only [Option.bind_eq_bind, Option.bind_eq_some_iff] at h
  obtain ⟨a, -, b, -, h⟩ := h
  split at h
  · rw [← Option.some.inj h]
  · cases h

/-- **A device reads the other windows** of a schedule without a time. -/
theorem windowsOf_stripTag (h : s.SentAs g) (h' : (s.stripTag id).SentAs g') (day : Int) :
    windowsOf g' day = (windowsOf g day).filter (·.tag ≠ some id) := by
  rw [h.windowsOf_raw, h'.windowsOf_raw, rawWindows_stripTag]
  induction s.rawWindows (dateKey day) (daysFromSunday day).toNat with
  | nil => rfl
  | cons w ws ih =>
    by_cases htag : w.time = some id
    · rw [List.filter_cons_of_neg (by simpa using htag), ih, List.map_cons]
      cases hw : winOf w.toGrant with
      | none => rw [List.filterMap_cons_none hw]
      | some v =>
        have hv : v.tag = some id := (winOf_tag hw).trans htag
        rw [List.filterMap_cons_some hw, List.filter_cons_of_neg (by simpa using hv)]
    · rw [List.filter_cons_of_pos (by simpa using htag), List.map_cons, List.map_cons]
      cases hw : winOf w.toGrant with
      | none => rw [List.filterMap_cons_none hw, List.filterMap_cons_none hw, ih]
      | some v =>
        have hv : v.tag ≠ some id := fun heq => htag ((winOf_tag hw).symm.trans heq)
        rw [List.filterMap_cons_some hw, List.filterMap_cons_some hw, ih,
          List.filter_cons_of_pos (by simpa using hv)]

variable {zones : Zones} {known known' : String → Bool} {now : Int} {sentAt sentAt' : Nat}

/-- A device under a schedule with windows is locked exactly where nothing runnable is labelled. -/
theorem Schedule.SentAs.locked_iff (h : s.SentAs g) (known : String → Bool) (now : Int) :
    (∃ cause wait, evaluateTimes zones g known now = .locked cause wait) ↔
      ∃ tz, zones s.tz = some tz ∧
        (labelAt (windowsOf g (tz.localDay now)) known (tz.minuteOfDay now)).runnable = false := by
  have hversion : g.isSupportedVersion = true := by
    unfold GrantSchedule.isSupportedVersion
    rw [h.version]
    rfl
  unfold evaluateTimes
  rw [hversion, h.paused, h.tz, Bool.not_true, if_neg Bool.false_ne_true,
    if_neg (show ¬(none : Option Bool) = some true by simp)]
  cases htz : zones s.tz with
  | none => simp
  | some tz =>
    dsimp only
    rw [h.isUnbounded_eq, if_neg Bool.false_ne_true]
    cases hlabel : labelAt (windowsOf g (tz.localDay now)) known (tz.minuteOfDay now) <;>
      simp [Label.runnable, hlabel]

/-- Where an unknown tag labels the minute, that is the cause. -/
theorem Schedule.SentAs.cause_eq (h : s.SentAs g) {tz : Tz} (htz : zones s.tz = some tz)
    {u : String} {cause : LockCause} {wait : Option Nat}
    (hlocked : evaluateTimes zones g known now = .locked cause wait)
    (hlabel : labelAt (windowsOf g (tz.localDay now)) known (tz.minuteOfDay now) = .unknown u) :
    cause = .unknownTime u := by
  have hversion : g.isSupportedVersion = true := by
    unfold GrantSchedule.isSupportedVersion
    rw [h.version]
    rfl
  unfold evaluateTimes at hlocked
  rw [hversion, h.paused, h.tz, Bool.not_true, if_neg Bool.false_ne_true,
    if_neg (show ¬(none : Option Bool) = some true by simp), htz] at hlocked
  dsimp only at hlocked
  rw [h.isUnbounded_eq, if_neg Bool.false_ne_true, hlabel] at hlocked
  cases hlocked
  rfl

/-- **What a device locked stays locked** without the windows of a time, unless one of them had
locked it. -/
theorem locked_stripTag (hsent : scheduleToGrant s sentAt = .ok g)
    (hsent' : scheduleToGrant (s.stripTag id) sentAt' = .ok g')
    (hknown : ∀ u, u ≠ id → known' u = known u) {cause : LockCause} {wait : Option Nat}
    (hlocked : evaluateTimes zones g known now = .locked cause wait)
    (hcause : cause ≠ .unknownTime id) :
    ∃ cause' wait', evaluateTimes zones g' known' now = .locked cause' wait' := by
  obtain ⟨htz, hpaused⟩ := stripTag_kept s id
  rcases scheduleToGrant_cases hsent with
    ⟨-, rfl⟩ | ⟨hlifted, hempty, -⟩ | ⟨hlifted, -, hwindows⟩
  · -- a lifted schedule locks nothing
    unfold evaluateTimes at hlocked
    dsimp only at hlocked
    cases hzone : zones s.tz with
    | none =>
      rw [hzone] at hlocked
      cases hlocked
    | some tz =>
      rw [hzone] at hlocked
      cases hlocked
  all_goals
    rcases scheduleToGrant_cases hsent' with
      ⟨hlifted', -⟩ | ⟨-, -, rfl⟩ | ⟨-, -, hwindows'⟩
  · exact absurd (hpaused.symm.trans hlifted') hlifted
  · exact ⟨.paused, none, rfl⟩
  · -- of no windows none are left
    obtain ⟨ws, hws, hne⟩ := hwindows'.some_window
    obtain ⟨w, hw⟩ := List.exists_mem_of_ne_nil ws hne
    have hnone := no_window_of_empty hempty
    obtain ⟨day, hday⟩ | ⟨dayKey, hkey⟩ := mem_windows hws
    · have hmem : w ∈ (s.stripTag id).weekdayWindows day := by
        unfold Schedule.weekdayWindows
        rw [hday]
        exact hw
      rw [weekdayWindows_stripTag] at hmem
      exact absurd (List.mem_of_mem_filter hmem) (hnone.1 day w)
    · rw [lookup_stripTag] at hkey
      obtain ⟨ws', hkey', rfl⟩ := Option.map_eq_some_iff.mp hkey
      exact absurd (List.mem_of_mem_filter hw) (hnone.2 dayKey ws' hkey' w)
  · exact absurd (hpaused.symm.trans hlifted') hlifted
  · exact ⟨.paused, none, rfl⟩
  · obtain ⟨tz, hzone, hlabel⟩ := (hwindows.locked_iff known now).mp ⟨cause, wait, hlocked⟩
    refine (hwindows'.locked_iff known' now).mpr ⟨tz, htz ▸ hzone, ?_⟩
    rw [windowsOf_stripTag hwindows hwindows']
    exact labelAt_without hknown hlabel fun hid =>
      hcause (hwindows.cause_eq hzone hlocked hid)

end

/-! ## The policy without a time -/

/-- What is known of a child's times: those sent, or none where the child has never used any. -/
def Knows (times : Option (List TimeSel)) (known : String → Bool) : Prop :=
  match times with
  | none => known = knownIn none
  | some ts => ∃ sentAt gt, timesToGrant ts sentAt = .ok gt ∧ known = knownIn (some gt)

theorem Knows.eq_any {times : Option (List TimeSel)} {known : String → Bool} (h : Knows times known)
    (u : String) : known u = (times.getD []).any (·.id = u) := by
  cases times with
  | none =>
    rw [show known = knownIn none from h]
    rfl
  | some ts =>
    obtain ⟨sentAt, gt, hsent, rfl⟩ := h
    unfold knownIn
    rw [Option.any_some, get_timesToGrant hsent, Option.isSome_map, List.isSome_find?]
    rfl

/-- Without a time the others are known as before. -/
theorem Knows.without {times : Option (List TimeSel)} {known known' : String → Bool} {id : String}
    (h : Knows times known) (h' : Knows (times.map fun ts => ts.filter (·.id ≠ id)) known')
    (u : String) (hu : u ≠ id) : known' u = known u := by
  rw [h.eq_any, h'.eq_any]
  cases times with
  | none => rfl
  | some ts =>
    rw [Option.map_some, Option.getD_some, Option.getD_some, List.any_filter]
    congr 1
    funext t
    by_cases ht : t.id = u
    · have hne : t.id ≠ id := fun heq => hu (ht.symm.trans heq)
      simp [ht, hu]
    · simp [ht]

section
variable {Other : PolicyDimension → Type} {p q : Policy Other} {id : String}

/-- **What a deleted time leaves** of every schedule, and of the times. -/
theorem removeNamedTime_ok (h : removeNamedTime p id = .ok q) :
    q.base .times = (p.base .times).map (fun ts => ts.filter (·.id ≠ id)) ∧
      q.base .schedule = (p.base .schedule).map (fun s => s.stripTag id) ∧
      ∀ deviceId, q.own deviceId .schedule =
        (p.own deviceId .schedule).map fun s => Schedule.stripTag s id := by
  unfold removeNamedTime at h
  split at h
  · cases h
  · cases h
    refine ⟨rfl, rfl, fun deviceId => ?_⟩
    unfold Policy.own Policy.overrideOf
    cases p.deviceOverrides with
    | none => rfl
    | some o =>
      show ((mapKept _ o).lookup deviceId).bind _ = Option.map _ ((o.lookup deviceId).bind _)
      rw [lookup_mapKept]
      cases o.lookup deviceId with
      | none => rfl
      | some mine =>
        rw [Option.bind_some]
        show _ = (mine.get .schedule).map fun s => Schedule.stripTag s id
        cases hmine : mine.get .schedule with
        | none => exact hmine
        | some s => exact PolicyOverride.get_set _

/-- Every device's effective schedule is that of before without the windows of the time. -/
theorem effective_removeNamedTime (h : removeNamedTime p id = .ok q) (deviceId : String) :
    q.effective deviceId .schedule =
      (p.effective deviceId .schedule).map fun s => Schedule.stripTag s id := by
  obtain ⟨-, hbase, hown⟩ := removeNamedTime_ok h
  rw [Policy.effective_schedule, Policy.effective_schedule, hown, hbase]
  cases p.own deviceId .schedule <;> rfl

end

/-! ## The law -/

/-- **A time's windows are one device's.**  Giving a time its windows replaces the weekly windows of
that time in the device's effective schedule and nothing else of it, and leaves no two windows of the
time over each other.  With two paired devices, or a schedule of the device's own, every other device
is sent what it was; a child's only schedule is the base, which every device without its own follows.
Deleting a time leaves no window of it in any schedule, and on no device does it open what was locked
for another reason than a window of that time, which the child has no definition of. -/
theorem window_edits_law {Other : PolicyDimension → Type} (p q : Policy Other) (id : String) :
    (∀ (deviceId : String) (windows : TimeWindows) (devices : List DeviceRecord)
      (reported : String → Option Nat),
      setTimeWindows p id deviceId windows devices reported = .ok q →
      (∃ own schedule : Schedule, p.effective deviceId .schedule = some own ∧
        q.effective deviceId .schedule = some schedule ∧ schedule.tz = own.tz ∧
        schedule.paused = own.paused ∧ schedule.overrides = own.overrides ∧
        (∀ day, schedule.weekdayWindows day = (own.weekdayWindows day).filter (·.time ≠ some id) ++
          ((windows day).getD []).map (·.tagged id)) ∧
        ∀ ws ∈ schedule.weekWindows ++ schedule.overrideWindows,
          (ws.filter (·.time = some id)).Pairwise ScheduleWindow.Apart) ∧
      (∀ other, other ≠ deviceId →
        soleDevice p deviceId devices = false ∨ (p.own other .schedule).isSome = true →
          q.effectivePolicyForDevice other = p.effectivePolicyForDevice other) ∧
      ∀ other d, d ≠ .schedule → q.effective other d = p.effective other d) ∧
    (removeNamedTime p id = .ok q →
      (∀ s : Schedule, (q.base .schedule = some s ∨ ∃ deviceId, q.own deviceId .schedule = some s) →
        ∀ ws ∈ s.weekWindows ++ s.overrideWindows, ∀ w ∈ ws, w.time ≠ some id) ∧
      ∀ (deviceId : String) (s s' : Schedule) (sentAt sentAt' : Nat) (g g' : GrantSchedule)
        (known known' : String → Bool) (zones : Zones) (now : Int) (cause : LockCause)
        (wait : Option Nat),
        p.effective deviceId .schedule = some s → scheduleToGrant s sentAt = .ok g →
        q.effective deviceId .schedule = some s' → scheduleToGrant s' sentAt' = .ok g' →
        Knows (p.base .times) known → Knows (q.base .times) known' →
        evaluateTimes zones g known now = .locked cause wait →
          (∃ cause' wait', evaluateTimes zones g' known' now = .locked cause' wait') ∨
            cause = .unknownTime id ∧ ∀ t ∈ (p.base .times).getD [], t.id ≠ id) := by
  refine ⟨?_, ?_⟩
  · intro deviceId windows devices reported h
    obtain ⟨next, own, hwrite, -, -, hoverlaps, rfl⟩ := setTimeWindows_ok h
    obtain ⟨heffective, hsent, hsole⟩ := scheduleToWrite_ok hwrite
    have hschedule : ∀ r : Policy Other,
        r.effective deviceId .schedule = some (own.withWindows id windows) →
        ∃ own schedule : Schedule, p.effective deviceId .schedule = some own ∧
          r.effective deviceId .schedule = some schedule ∧ schedule.tz = own.tz ∧
          schedule.paused = own.paused ∧ schedule.overrides = own.overrides ∧
          (∀ day, schedule.weekdayWindows day =
            (own.weekdayWindows day).filter (·.time ≠ some id) ++
              ((windows day).getD []).map (·.tagged id)) ∧
          ∀ ws ∈ schedule.weekWindows ++ schedule.overrideWindows,
            (ws.filter (·.time = some id)).Pairwise ScheduleWindow.Apart := by
      intro r hr
      exact ⟨own, _, heffective, hr, rfl, rfl, rfl, weekdayWindows_withWindows own id windows,
        fun ws hws => apart_of_tag id (apart_of_findTaggedOverlaps hoverlaps ws hws)⟩
    by_cases hone : soleDevice p deviceId devices = true
    · -- the base is written
      obtain ⟨rfl, hnone⟩ := hsole hone
      rw [if_pos hone]
      refine ⟨hschedule _ ?_, fun other hne hkeeps => ?_, fun other d hd => ?_⟩
      · rw [Policy.effective_schedule]
        show (next.own deviceId .schedule).or _ = _
        rw [hnone]
        exact Function.update_self PolicyDimension.schedule _ next.base
      · have hown := hkeeps.resolve_left fun hfalse => by
          rw [hone] at hfalse
          cases hfalse
        exact effectivePolicy_writeBase hown _
      · rw [Policy.effective_eq, Policy.effective_eq]
        exact overlay_update hd _
    · -- the device's own schedule is written
      rw [if_neg hone]
      obtain ⟨hwritten, hrest⟩ := Policy.effective_setDeviceControl next .schedule deviceId
        (some (own.withWindows id windows))
      refine ⟨hschedule _ hwritten, fun other hne _ => ?_, fun other d hd => ?_⟩
      · rw [Policy.effectivePolicy_setDeviceControl_of_ne _ hne, hsent]
      · by_cases hsame : other = deviceId
        · subst hsame
          rw [hrest d hd]
          exact congrArg (fun r => r.base d) (hsent other)
        · unfold Policy.effective
          rw [Policy.effectivePolicy_setDeviceControl_of_ne _ hsame, hsent]
  · intro h
    obtain ⟨htimes, hbase, hown⟩ := removeNamedTime_ok h
    refine ⟨?_, ?_⟩
    · rintro s (hs | ⟨deviceId, hs⟩)
      · rw [hbase] at hs
        obtain ⟨s₀, -, rfl⟩ := Option.map_eq_some_iff.mp hs
        exact untagged_stripTag s₀ id
      · rw [hown] at hs
        obtain ⟨s₀, -, rfl⟩ := Option.map_eq_some_iff.mp hs
        exact untagged_stripTag s₀ id
    · intro deviceId s s' sentAt sentAt' g g' known known' zones now cause wait hs hg hs' hg' hknown
        hknown' hlocked
      have hstrip := effective_removeNamedTime h deviceId
      rw [hs, hs'] at hstrip
      obtain rfl : s' = s.stripTag id := Option.some.inj hstrip
      rw [htimes] at hknown'
      by_cases hcause : cause = .unknownTime id
      · right
        subst hcause
        have hunknown := TimesRouting.knownIn_of_unknownTime hlocked
        rw [hknown.eq_any, List.any_eq_false] at hunknown
        exact ⟨rfl, fun t ht => by simpa using hunknown t ht⟩
      · exact .inl (locked_stripTag hg hg' (hknown.without hknown') hlocked hcause)

/-! ## Where the claim is too wide -/

/-- A child with the school week as the only schedule, and the given times. -/
def schoolChild (times : Option (List TimeSel)) : Policy fun _ => Unit where
  scope := .device
  base
    | .schedule => some schoolWeek
    | .times => times
    | _ => none
  deviceOverrides := none

/-- A paired laptop, and a phone that is being paired. -/
def familyDevices : List DeviceRecord :=
  [⟨"laptop", "Laptop", .linux, .paired, some "aa"⟩, ⟨"phone", "Phone", .android, .pairing, none⟩]

/-- An afternoon of homework. -/
def homeworkMonday : TimeWindows
  | .mon => some [⟨"16:00", "17:00"⟩]
  | _ => none

/-- The only paired device's windows are the base's, which the phone follows; and a window of a time
that the child has no definition of locked what the plain window under it leaves open. -/
theorem not_window_edits :
    (∃ q, setTimeWindows (schoolChild (some [homeworkTime])) "homework" "laptop" homeworkMonday
        familyDevices (fun _ => some 800) = .ok q ∧
      q.effective "phone" .schedule ≠
        (schoolChild (some [homeworkTime])).effective "phone" .schedule) ∧
    ∃ q s' g g', removeNamedTime (schoolChild none) "homework" = .ok q ∧
      (schoolChild none).effective "phone" .schedule = some schoolWeek ∧
      scheduleToGrant schoolWeek 0 = .ok g ∧
      q.effective "phone" .schedule = some s' ∧ scheduleToGrant s' 0 = .ok g' ∧
      evaluateTimes (fun _ => some .utc) g (knownIn none) 36000 =
        .locked (.unknownTime "homework") (some 7200) ∧
      ∀ cause wait,
        evaluateTimes (fun _ => some .utc) g' (knownIn none) 36000 ≠ .locked cause wait := by
  constructor
  · have hmonday : ((setTimeWindows (schoolChild (some [homeworkTime])) "homework" "laptop"
        homeworkMonday familyDevices (fun _ => some 800)).toOption.map fun q =>
          (q.effective "phone" .schedule).map fun s => (s.weekly .mon).isSome) =
        some (some true) := by decide +kernel
    cases hset : setTimeWindows (schoolChild (some [homeworkTime])) "homework" "laptop"
        homeworkMonday familyDevices (fun _ => some 800) with
    | error e =>
      rw [hset] at hmonday
      cases hmonday
    | ok q =>
      refine ⟨q, rfl, fun hsame => ?_⟩
      rw [hset] at hmonday
      replace hmonday : (q.effective "phone" .schedule).map
          (fun s => (Schedule.weekly s .mon).isSome) = some true := Option.some.inj hmonday
      rw [hsame] at hmonday
      cases hmonday
  · have hopen : TimesRouting.TimedStatus.isLocked (evaluateTimes (fun _ => some .utc) ⟨1, "UTC", none,
        weekToGrant (schoolWeek.stripTag "homework").weekly, none, 0⟩ (knownIn none) 36000) =
          false := by decide +kernel
    refine ⟨_, schoolWeek.stripTag "homework", ⟨1, "UTC", none, weekToGrant schoolWeek.weekly, none, 0⟩,
      ⟨1, "UTC", none, weekToGrant (schoolWeek.stripTag "homework").weekly, none, 0⟩,
      rfl, rfl, ?_, rfl, ?_, ?_, fun cause wait hlocked => ?_⟩
    · decide +kernel
    · decide +kernel
    · decide +kernel
    · rw [hlocked] at hopen
      cases hopen

end Kintrinsic
