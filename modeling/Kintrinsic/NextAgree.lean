import Kintrinsic.ExtendCap
import Kintrinsic.GuardianNext

/-! # What comes next, on both sides

The guardian's app picks among the raw windows whose tag it knows, the device among the spans that
can run.  A window of a tag that is not known hides what lies under it from the device alone; where it
hides nothing that either would pick, the two say the same. -/
namespace Kintrinsic

open CivilDate Times

/-! ## Clock texts -/

/-- A minute of the day is read back. -/
theorem minutesOf_hhmm {m : Nat} (h : m < 1440) : minutesOf (hhmm m) = m := by
  have hchars : (hhmm m).toList = padDigits 2 (m / 60) ++ ':' :: padDigits 2 (m % 60) :=
    String.toList_ofList
  have hhour : (hhmm m).toList.take 2 = padDigits 2 (m / 60) := by
    rw [hchars]
    rfl
  have hminute : ((hhmm m).toList.drop 3).take 2 = padDigits 2 (m % 60) := by
    rw [hchars]
    rfl
  unfold minutesOf
  rw [hhour, hminute, digitsValue_padDigits (by omega), digitsValue_padDigits (by omega)]
  omega

theorem hhmm_inj {m m' : Nat} (hm : m < 1440) (hm' : m' < 1440) (h : hhmm m = hhmm m') : m = m' := by
  rw [← minutesOf_hhmm hm, h, minutesOf_hhmm hm']

theorem digitChar_of_isDigit {a : Char} (h : a.isDigit = true) :
    Nat.digitChar ((a.toNat - 48) % 10) = a := by
  obtain ⟨hlo, hhi⟩ := isDigit_bounds h
  have hlt : (a.toNat - 48) % 10 < 10 := by omega
  refine Char.toNat_inj.mp ?_
  rw [Nat.toNat_digitChar_of_lt_ten hlt]
  omega

theorem padDigits_two {a b : Char} (ha : a.isDigit = true) (hb : b.isDigit = true) :
    padDigits 2 (digitsValue [a, b]) = [a, b] := by
  have hba := isDigit_bounds ha
  have hbb := isDigit_bounds hb
  have htens : digitsValue [a, b] / 10 ^ 1 % 10 = (a.toNat - 48) % 10 := by
    rw [digitsValue_two]
    omega
  have hones : digitsValue [a, b] / 10 ^ 0 % 10 = (b.toNat - 48) % 10 := by
    rw [digitsValue_two]
    omega
  show [Nat.digitChar (digitsValue [a, b] / 10 ^ 1 % 10),
    Nat.digitChar (digitsValue [a, b] / 10 ^ 0 % 10)] = _
  rw [htens, hones, digitChar_of_isDigit ha, digitChar_of_isDigit hb]

/-- A text of the pattern is how its minute is written. -/
theorem hhmm_minutesOf {s : String} (h : isHhmm s = true) : hhmm (minutesOf s) = s := by
  obtain ⟨a, b, c, d, hchars, ha, hb, hc, hd, -, hsix⟩ := isHhmm_parts h
  have hminute : digitsValue [c, d] ≤ 59 := by
    have hdb := isDigit_bounds hd
    rw [digitsValue_two]
    omega
  have hminutes : minutesOf s = digitsValue [a, b] * 60 + digitsValue [c, d] := by
    unfold minutesOf
    rw [hchars]
    rfl
  have hhour : minutesOf s / 60 = digitsValue [a, b] := by omega
  have hrest : minutesOf s % 60 = digitsValue [c, d] := by omega
  unfold hhmm
  rw [hhour, hrest, padDigits_two ha hb, padDigits_two hc hd, ← String.ofList_toList (s := s), hchars]
  rfl

/-! ## The windows of a day on both sides -/

section
variable {s : Schedule} {g : GrantSchedule} {times : List TimeSel} {gt : GrantTimes}
  {issuedAt : Nat} {windows : List ScheduleWindow} {w : ScheduleWindow}

theorem known_timesToGrant (h : timesToGrant times issuedAt = .ok gt) (id : String) :
    knownIn (some gt) id = times.any (·.id = id) := by
  unfold knownIn
  rw [Option.any_some, get_timesToGrant h, Option.isSome_map, Bool.eq_iff_iff,
    List.find?_isSome, List.any_eq_true]

/-- Known to the guardian is usable on the device. -/
theorem usable_win_iff (h : timesToGrant times issuedAt = .ok gt) :
    w.win.Usable (knownIn (some gt)) ↔ w.isKnown times = true := by
  unfold Win.Usable ScheduleWindow.win ScheduleWindow.isKnown
  cases w.time with
  | none => simp
  | some tag => simp [known_timesToGrant h]

/-- Tagged windows are sent apart. -/
theorem overlapsOn_nil {day : String} (h : overlapsOn day windows = []) :
    windows.Pairwise fun a b => ¬(a.start < b.stop ∧ b.start < a.stop) := by
  induction windows with
  | nil => exact .nil
  | cons a rest ih =>
    obtain ⟨hhead, htail⟩ := List.append_eq_nil_iff.mp h
    refine List.pairwise_cons.mpr ⟨fun b hb hboth => ?_, ih htail⟩
    have hmem := List.filter_eq_nil_iff.mp (List.map_eq_nil_iff.mp hhead) b hb
    rw [decide_eq_true hboth.1, decide_eq_true hboth.2] at hmem
    exact hmem rfl

theorem lt_of_minutesOf_lt {a b : String} (ha : isHhmm a = true) (hb : isHhmm b = true)
    (h : minutesOf a < minutesOf b) : a < b := by
  by_contra hnot
  rcases (not_lt.mp hnot).lt_or_eq with hlt | rfl
  · have hmin := minutesOf_lt hb ha hlt
    omega
  · exact lt_irrefl _ h

theorem tagsApart_win (hsent : ∀ w ∈ windows, w.Sent) {day : String}
    (h : overlapsOn day (windows.filter (·.time.isSome)) = []) :
    TagsApart (windows.map ScheduleWindow.win) := by
  intro a ha b hb minute hat hbt hac hbc
  obtain ⟨x, hx, rfl⟩ := List.mem_map.mp ha
  obtain ⟨y, hy, rfl⟩ := List.mem_map.mp hb
  by_contra hne
  have hsymm : Std.Symm fun a b : ScheduleWindow => ¬(a.start < b.stop ∧ b.start < a.stop) :=
    ⟨fun _ _ hnot hboth => hnot ⟨hboth.2, hboth.1⟩⟩
  have hxy : x ≠ y := fun heq => hne (heq ▸ rfl)
  refine (overlapsOn_nil h).forall (List.mem_filter.mpr ⟨hx, hat⟩)
    (List.mem_filter.mpr ⟨hy, hbt⟩) hxy ?_
  obtain ⟨ha1, ha2⟩ := Win.covers_iff.mp hac
  obtain ⟨hb1, hb2⟩ := Win.covers_iff.mp hbc
  unfold ScheduleWindow.win at ha1 ha2 hb1 hb2
  dsimp only at ha1 ha2 hb1 hb2
  have hxs := hsent x hx
  have hys := hsent y hy
  exact ⟨lt_of_minutesOf_lt hxs.start hys.stop (by omega),
    lt_of_minutesOf_lt hys.start hxs.stop (by omega)⟩

/-- On no day of the wire do two tagged windows overlap. -/
theorem Schedule.SentAs.tagsApart (h : s.SentAs g) (hoverlaps : findTaggedOverlaps s = [])
    (day : Int) : TagsApart (windowsOf g day) := by
  obtain ⟨hweek, hover⟩ := List.append_eq_nil_iff.mp hoverlaps
  have hempty : TagsApart [] := fun _ ha => absurd ha List.not_mem_nil
  unfold windowsOf dayWindows
  rw [h.overrides, h.weekly, forDay_weekToGrant]
  cases hlookup : (s.overrides.map overridesToGrant).bind fun o => o.lookup (dateKey day) with
  | some sent =>
    obtain ⟨o, ho, hfound⟩ := Option.bind_eq_some_iff.mp hlookup
    obtain ⟨kept, hkept, rfl⟩ := Option.map_eq_some_iff.mp ho
    rw [lookup_overridesToGrant] at hfound
    obtain ⟨windows, hwindows, rfl⟩ := Option.map_eq_some_iff.mp hfound
    have hmem : (⟨dateKey day, windows⟩ : Sigma _) ∈ kept.entries := List.of_mem_dlookup hwindows
    have hsent : ∀ w ∈ windows, w.Sent := by
      refine h.sent windows (List.mem_append_right _ ?_)
      unfold Schedule.overrideWindows
      rw [hkept]
      exact List.mem_map.mpr ⟨_, hmem, rfl⟩
    dsimp only
    rw [filterMap_winOf hsent]
    rw [hkept] at hover
    exact tagsApart_win hsent (List.flatMap_eq_nil_iff.mp hover _ hmem)
  | none =>
    dsimp only
    cases hday : Weekday.sundayFirst[(daysFromSunday day).toNat]?.bind s.weekly with
    | none => exact hempty
    | some windows =>
      obtain ⟨d, -, hd⟩ := Option.bind_eq_some_iff.mp hday
      have hsent : ∀ w ∈ windows, w.Sent :=
        h.sent windows (List.mem_append_left _ (List.mem_filterMap.mpr ⟨d, d.mem_all, hd⟩))
      rw [Option.map_some, Option.getD_some, filterMap_winOf hsent]
      have hnil := List.flatMap_eq_nil_iff.mp hweek d d.mem_all
      rw [hd, Option.getD_some] at hnil
      exact tagsApart_win hsent hnil

/-! ## The two answers -/

/-- How the guardian's app would show a window of the device. -/
def NextWindow.asOpening (w : NextWindow) : Opening :=
  ⟨w.time, w.start, w.startHhmm, if w.dayOffset = 0 then .today else .tomorrow⟩

/-- The clock of the zone is not set where it would be felt: the next day begins where the guardian
takes it to begin, no boundary ahead on the wall has passed, and the boundaries of both days have the
instants that the guardian walks to. -/
structure ReadsAlike (sched : GrantSchedule) (tz : Tz) (now dayStart tomorrowStart : Int) :
    Prop where
  nextDay : tz.localDay tomorrowStart = tz.localDay now + 1
  ahead : ∀ day, ∀ b ∈ boundaries (windowsOf sched day),
    (day = tz.localDay now ∧ tz.minuteOfDay now < b ∨ day = tz.localDay now + 1) →
      now < tz.localWallTs day b
  today : ∀ b ∈ boundaries (windowsOf sched (tz.localDay now)), tz.minuteOfDay now < b →
    unixAtLocal tz dayStart (b * 60) = tz.localWallTs (tz.localDay now) b
  tomorrow : ∀ b ∈ boundaries (windowsOf sched (tz.localDay now + 1)),
    unixAtLocal tz tomorrowStart (b * 60) = tz.localWallTs (tz.localDay now + 1) b

variable {zones : Zones} {phone tz : Tz} {now dayStart tomorrowStart : Int}

/-- **In a zone that is not set within days of an instant the clocks read alike.** -/
theorem readsAlike_of_undisturbed (hz : tz.Ordered) (htz : zones s.tz = some tz)
    (hyear : PlainYear (tz.localDay now)) (hyear' : PlainYear (tz.localDay now + 1))
    (hset : RunningClock.Undisturbed tz.SetAt (now - 432000) (now + 432000)) :
    ReadsAlike g tz now (startOfDayUnix zones phone now (some s.tz))
      (endOfDayUnix zones phone now (some s.tz)) := by
  have hwall : ∀ t, now - 432000 ≤ t → t ≤ now + 432000 → tz.wall t = t + tz.offsetAt now := by
    intro t hlo hhi
    have hthen : tz.wall t = tz.wall (now - 432000) + (t - (now - 432000)) :=
      tz.runs.wall_eq hlo (hset.mono le_rfl hhi)
    have hnow : tz.wall now = tz.wall (now - 432000) + (now - (now - 432000)) :=
      tz.runs.wall_eq (by omega) (hset.mono le_rfl (by omega))
    unfold Tz.wall at hnow hthen ⊢
    omega
  have hbounds := tz.wall_bounds now
  have hday : tz.localDay now * 86400 ≤ tz.wall now ∧ tz.wall now < tz.localDay now * 86400 + 86400 := by
    unfold Tz.localDay
    omega
  have hnow : tz.wall now = now + tz.offsetAt now := rfl
  generalize hoffset : tz.offsetAt now = o at hwall hnow
  generalize hlocal : tz.localDay now = day at hday hyear hyear' ⊢
  have hstart : startOfDayUnix zones phone now (some s.tz) = day * 86400 - o := by
    have hsecs : now - (tz.secondOfDay now : Int) = day * 86400 - o := by
      unfold Tz.secondOfDay
      rw [hnow]
      omega
    have hzero : tz.secondOfDay (now - (tz.secondOfDay now : Int)) = 0 := by
      rw [hsecs]
      unfold Tz.secondOfDay
      rw [hwall _ (by omega) (by omega)]
      omega
    unfold startOfDayUnix
    dsimp only [Option.bind_some]
    rw [htz, Option.getD_some]
    exact (if_pos hzero).trans hsecs
  have heod : endOfDayUnix zones phone now (some s.tz) = (day + 1) * 86400 - o := by
    have hend : tz.offsetAt ((day + 1) * 86400 - o) = o := by
      have hthen := hwall ((day + 1) * 86400 - o) (by omega) (by omega)
      unfold Tz.wall at hthen
      omega
    rw [← hlocal] at hyear hyear' hend ⊢
    exact endOfDayUnix_of_steady htz hyear hyear' hoffset hend
  -- an instant near now that shows a wall time is the only one
  have hts : ∀ (d : Int) (m : Nat), day ≤ d → d ≤ day + 1 → m < 1440 →
      tz.localWallTs d m = d * 86400 - o + m * 60 := by
    intro d m hlo hhi hm
    have hshown : tz.wall (d * 86400 - o + m * 60) = Tz.wallOf d m := by
      rw [hwall _ (by omega) (by omega)]
      unfold Tz.wallOf
      omega
    have hnear := tz.localWallTs_bounds d m
    have hfirst := (Tz.localWallTs_of_shown hz hshown).1
    rw [hwall _ (by omega) (by omega)] at hfirst
    unfold Tz.wallOf at hfirst
    omega
  have hunix : ∀ (d : Int) (m : Nat), day ≤ d → d ≤ day + 1 → m < 1440 →
      unixAtLocal tz (d * 86400 - o) (m * 60) = d * 86400 - o + m * 60 := by
    intro d m hlo hhi hm
    have hsecs : tz.secondOfDay (d * 86400 - o + m * 60) = m * 60 := by
      unfold Tz.secondOfDay
      rw [hwall _ (by omega) (by omega)]
      omega
    unfold unixAtLocal ontoSecond
    rw [Nat.cast_mul, Nat.cast_ofNat]
    exact if_pos (.inr hsecs)
  rw [hstart, heod]
  refine ⟨?_, fun d b hb hlater => ?_, fun b hb _ => ?_, fun b hb => ?_⟩
  · rw [hlocal]
    unfold Tz.localDay
    rw [hwall _ (by omega) (by omega)]
    omega
  · have hb := boundaries_lt hb
    have hminute : tz.minuteOfDay now = (now + o - day * 86400).toNat / 60 := by
      unfold Tz.minuteOfDay Tz.secondOfDay
      rw [hnow]
      congr 2
      omega
    rw [hlocal] at hlater
    rw [hts d b (by omega) (by omega) hb]
    omega
  · rw [hlocal] at hb ⊢
    have hb := boundaries_lt hb
    rw [hts day b le_rfl (by omega) hb, hunix day b le_rfl (by omega) hb]
  · rw [hlocal] at hb ⊢
    have hb := boundaries_lt hb
    rw [hts _ b (by omega) le_rfl hb, hunix _ b (by omega) le_rfl hb]

/-- What the guardian shows for a window of one of the two days. -/
def openingOf (tz : Tz) (now dayStart tomorrowStart day : Int) (w : ScheduleWindow) : Opening :=
  if day = tz.localDay now then
    ⟨w.time, unixAtLocal tz dayStart (minutesOf w.start * 60), w.start, .today⟩
  else ⟨w.time, unixAtLocal tz tomorrowStart (minutesOf w.start * 60), w.start, .tomorrow⟩

/-- **The guardian shows the first usable window ahead**, if there is one, and of those that start
together a tagged one. -/
theorem Schedule.SentAs.nextWindow_cases (h : s.SentAs g) (hlifted : s.paused ≠ some true)
    (htimes : timesToGrant times issuedAt = .ok gt) (htz : zones s.tz = some tz)
    (hyear : PlainYear (tz.localDay now)) (hyear' : PlainYear (tz.localDay now + 1))
    (hstart : startOfDayUnix zones phone now (some s.tz) = dayStart)
    (heod : endOfDayUnix zones phone now (some s.tz) = tomorrowStart)
    (hnext : tz.localDay tomorrowStart = tz.localDay now + 1) :
    (Schedule.nextWindow zones phone (some s) now (some times) = none ∧
        ∀ day w, ¬UsableAhead g (knownIn (some gt)) tz now day w) ∨
      ∃ day, ∃ w : ScheduleWindow, w.Sent ∧ FirstUsable g (knownIn (some gt)) tz now day w.win ∧
        (∀ k ∈ windowsOf g day, k.Usable (knownIn (some gt)) → k.start = minutesOf w.start →
          w.time = none → k.tag = none) ∧
        Schedule.nextWindow zones phone (some s) now (some times) =
          some (openingOf tz now dayStart tomorrowStart day w) := by
  have htoday := h.windowsOf_eq hyear
  have htomorrow := h.windowsOf_eq hyear'
  have hsecs : ∀ m, tz.secondOfDay now < m * 60 ↔ tz.minuteOfDay now < m := by
    intro m
    unfold Tz.minuteOfDay
    omega
  -- of either day, what is picked is the first of the usable windows there that are ahead
  have hpicked : ∀ {day : Int} {windows kept : List ScheduleWindow} {w : ScheduleWindow},
      windowsOf g day = windows.map ScheduleWindow.win →
      (∀ k ∈ windows, UsableAhead g (knownIn (some gt)) tz now day k.win ↔ k ∈ kept) →
      (∀ k ∈ kept, minutesOf w.start ≤ minutesOf k.start ∧
        (minutesOf k.start = minutesOf w.start → w.time = none → k.time = none)) →
      ∀ k, UsableAhead g (knownIn (some gt)) tz now day k →
        minutesOf w.start ≤ k.start ∧ (k.start = minutesOf w.start → w.time = none →
          k.tag = none) := by
    intro day windows kept w hwins hkept hleast k hk
    obtain ⟨x, hx, rfl⟩ := List.mem_map.mp (hwins ▸ hk.mem)
    exact hleast x ((hkept x hx).mp hk)
  have hanswer : Schedule.nextWindow zones phone (some s) now (some times) =
      (pickWindow startsSooner ((s.windowsOn (jsDayKey (tz.localDay now))).filter fun w =>
          w.isKnown times && decide (tz.secondOfDay now < minutesOf w.start * 60))).elim
        ((pickWindow startsSooner ((s.windowsOn (jsDayKey (tz.localDay now + 1))).filter fun w =>
          w.isKnown times)).map fun w =>
            ⟨w.time, unixAtLocal tz tomorrowStart (minutesOf w.start * 60), w.start, .tomorrow⟩)
        fun w => some ⟨w.time, unixAtLocal tz dayStart (minutesOf w.start * 60), w.start, .today⟩ := by
    unfold Schedule.nextWindow
    dsimp only
    rw [if_neg hlifted, htz, Option.getD_some, hstart, heod, ← hnext]
    split
    · next w hw =>
      have htoday : pickWindow startsSooner ((s.windowsOn (jsDayKey (tz.localDay now))).filter fun w =>
          w.isKnown times && decide (tz.secondOfDay now < minutesOf w.start * 60)) = some w := hw
      rw [htoday]
      rfl
    · next hnone =>
      have htoday : pickWindow startsSooner ((s.windowsOn (jsDayKey (tz.localDay now))).filter fun w =>
          w.isKnown times && decide (tz.secondOfDay now < minutesOf w.start * 60)) = none := hnone
      rw [htoday, Option.elim_none]
      split
      · next w hw =>
        have htomorrow : pickWindow startsSooner
            ((s.windowsOn (jsDayKey (tz.localDay tomorrowStart))).filter fun w => w.isKnown times) =
              some w := hw
        rw [htomorrow]
        rfl
      · next hnone =>
        have htomorrow : pickWindow startsSooner
            ((s.windowsOn (jsDayKey (tz.localDay tomorrowStart))).filter fun w => w.isKnown times) =
              none := hnone
        rw [htomorrow]
        rfl
  rw [hanswer]
  have hkept : ∀ w ∈ s.windowsOn (jsDayKey (tz.localDay now)),
      UsableAhead g (knownIn (some gt)) tz now (tz.localDay now) w.win ↔
        w ∈ (s.windowsOn (jsDayKey (tz.localDay now))).filter fun w =>
          w.isKnown times && decide (tz.secondOfDay now < minutesOf w.start * 60) := by
    intro w hw
    rw [List.mem_filter, Bool.and_eq_true, decide_eq_true_eq, hsecs, ← usable_win_iff htimes]
    constructor
    · rintro ⟨-, husable, hlater⟩
      refine ⟨hw, husable, ?_⟩
      rcases hlater with ⟨-, hlater⟩ | hlater
      · exact hlater
      · omega
    · rintro ⟨-, husable, hlater⟩
      exact ⟨htoday ▸ List.mem_map_of_mem hw, husable, .inl ⟨rfl, hlater⟩⟩
  have hkept' : ∀ w ∈ s.windowsOn (jsDayKey (tz.localDay now + 1)),
      UsableAhead g (knownIn (some gt)) tz now (tz.localDay now + 1) w.win ↔
        w ∈ (s.windowsOn (jsDayKey (tz.localDay now + 1))).filter fun w => w.isKnown times := by
    intro w hw
    rw [List.mem_filter, ← usable_win_iff htimes]
    exact ⟨fun hahead => ⟨hw, hahead.usable⟩,
      fun hboth => ⟨htomorrow ▸ List.mem_map_of_mem hw, hboth.2, .inr rfl⟩⟩
  rcases pick_startsSooner ((s.windowsOn (jsDayKey (tz.localDay now))).filter fun w =>
      w.isKnown times && decide (tz.secondOfDay now < minutesOf w.start * 60)) with
    ⟨hnone, hnil⟩ | ⟨w, hw, hpick, hleast⟩
  · have hnotoday : ∀ w, ¬UsableAhead g (knownIn (some gt)) tz now (tz.localDay now) w := by
      intro w hw
      obtain ⟨x, hx, rfl⟩ := List.mem_map.mp (htoday ▸ hw.mem)
      have hmem := (hkept x hx).mp hw
      rw [hnil] at hmem
      cases hmem
    rw [hnone, Option.elim_none]
    rcases pick_startsSooner ((s.windowsOn (jsDayKey (tz.localDay now + 1))).filter fun w =>
        w.isKnown times) with ⟨hnone', hnil'⟩ | ⟨w, hw, hpick, hleast⟩
    · rw [hnone']
      refine .inl ⟨rfl, fun day w hw => ?_⟩
      rcases hw.later with ⟨rfl, -⟩ | rfl
      · exact hnotoday w hw
      · obtain ⟨x, hx, rfl⟩ := List.mem_map.mp (htomorrow ▸ hw.mem)
        have hmem := (hkept' x hx).mp hw
        rw [hnil'] at hmem
        cases hmem
    · have hmem := List.mem_of_mem_filter hw
      have hfirst := hpicked htomorrow hkept' hleast
      rw [hpick]
      refine .inr ⟨tz.localDay now + 1, w, h.sent_windowsOn _ w hmem,
        ⟨(hkept' w hmem).mpr hw, fun day k hk => ?_⟩, fun k hk hku hstart => ?_, ?_⟩
      · rcases hk.later with ⟨rfl, -⟩ | rfl
        · exact absurd hk (hnotoday k)
        · have hle : w.win.start ≤ k.start := (hfirst k hk).1
          unfold Tz.wallOf
          omega
      · exact (hfirst k ⟨hk, hku, .inr rfl⟩).2 hstart
      · unfold openingOf
        rw [if_neg (by omega)]
        rfl
  · have hmem := List.mem_of_mem_filter hw
    have hahead := (hkept w hmem).mpr hw
    have hfirst := hpicked htoday hkept hleast
    rw [hpick]
    refine .inr ⟨tz.localDay now, w, h.sent_windowsOn _ w hmem, ⟨hahead, fun day k hk => ?_⟩,
      fun k hk hku hstart => ?_, ?_⟩
    · have hstart : w.win.start < 1440 := by
        have hwell := windowsOf_wellFormed hahead.mem
        omega
      rcases hk.later with ⟨rfl, -⟩ | rfl
      · have hle : w.win.start ≤ k.start := (hfirst k hk).1
        unfold Tz.wallOf
        omega
      · unfold Tz.wallOf
        omega
    · have hlater : tz.minuteOfDay now < w.win.start := by
        rcases hahead.later with hlater | hlater
        · exact hlater.2
        · omega
      refine (hfirst k ⟨hk, hku, .inl ⟨rfl, ?_⟩⟩).2 hstart
      rw [hstart]
      exact hlater
    · unfold openingOf
      rw [if_pos rfl]
      rfl

/-- **The guardian's default is the tag of the usable window that ended last**, or else of the
next. -/
theorem Schedule.SentAs.usableAsks (h : s.SentAs g)
    (htimes : timesToGrant times issuedAt = .ok gt) (htz : zones s.tz = some tz)
    (hyear : PlainYear (tz.localDay now))
    (hlocked : activeTimeAt zones phone (some s) times now = .outside ∨
      ∃ tag, activeTimeAt zones phone (some s) times now = .unknownTime tag) :
    UsableAsks (windowsOf g (tz.localDay now)) (knownIn (some gt)) (tz.minuteOfDay now)
      (defaultExtendTime zones phone (some s) times now) := by
  have hanswer : defaultExtendTime zones phone (some s) times now =
      (pickWindow endsLater (((s.windowsOn (jsDayKey (tz.localDay now))).filter fun w =>
          w.isKnown times).filter fun w => minutesOf w.stop * 60 ≤ tz.secondOfDay now)).elim
        ((pickWindow startsSooner (((s.windowsOn (jsDayKey (tz.localDay now))).filter fun w =>
          w.isKnown times).filter fun w => tz.secondOfDay now < minutesOf w.start * 60)).bind
            (·.time))
        (·.time) := by
    unfold defaultExtendTime
    rcases hlocked with hlocked | ⟨tag, hlocked⟩ <;>
      (rw [hlocked]; dsimp only; rw [htz, Option.getD_some]; split)
    all_goals
      next hpick =>
        have hended : pickWindow endsLater (((s.windowsOn (jsDayKey (tz.localDay now))).filter fun w =>
          w.isKnown times).filter fun w => minutesOf w.stop * 60 ≤ tz.secondOfDay now) = _ := hpick
        rw [hended]
        rfl
  have hstop : ∀ m, m * 60 ≤ tz.secondOfDay now ↔ m ≤ tz.minuteOfDay now := by
    intro m
    unfold Tz.minuteOfDay
    omega
  have hstart : ∀ m, tz.secondOfDay now < m * 60 ↔ tz.minuteOfDay now < m := by
    intro m
    unfold Tz.minuteOfDay
    omega
  have hended : ∀ w : ScheduleWindow, w ∈ ((s.windowsOn (jsDayKey (tz.localDay now))).filter
      fun w => w.isKnown times).filter (fun w => minutesOf w.stop * 60 ≤ tz.secondOfDay now) ↔
        w ∈ s.windowsOn (jsDayKey (tz.localDay now)) ∧ w.win.Usable (knownIn (some gt)) ∧
          w.win.stop ≤ tz.minuteOfDay now := by
    intro w
    rw [List.mem_filter, List.mem_filter, decide_eq_true_eq, hstop, usable_win_iff htimes, and_assoc]
    rfl
  have hahead : ∀ w : ScheduleWindow, w ∈ ((s.windowsOn (jsDayKey (tz.localDay now))).filter
      fun w => w.isKnown times).filter (fun w => tz.secondOfDay now < minutesOf w.start * 60) ↔
        w ∈ s.windowsOn (jsDayKey (tz.localDay now)) ∧ w.win.Usable (knownIn (some gt)) ∧
          tz.minuteOfDay now < w.win.start := by
    intro w
    rw [List.mem_filter, List.mem_filter, decide_eq_true_eq, hstart, usable_win_iff htimes,
      and_assoc]
    rfl
  rw [hanswer, h.windowsOf_eq hyear]
  generalize s.windowsOn (jsDayKey (tz.localDay now)) = windows at hended hahead
  rcases pick_endsLater ((windows.filter fun w => w.isKnown times).filter fun w =>
      minutesOf w.stop * 60 ≤ tz.secondOfDay now) with ⟨hnone, hnil⟩ | ⟨w, hw, hpick, hlast⟩
  · have hnot : ∀ k ∈ windows.map ScheduleWindow.win, k.Usable (knownIn (some gt)) →
        ¬k.stop ≤ tz.minuteOfDay now := by
      intro k hk hku hle
      obtain ⟨x, hx, rfl⟩ := List.mem_map.mp hk
      have hmem := (hended x).mpr ⟨hx, hku, hle⟩
      rw [hnil] at hmem
      cases hmem
    rw [hnone, Option.elim_none]
    rcases pick_startsSooner ((windows.filter fun w => w.isKnown times).filter fun w =>
        tz.secondOfDay now < minutesOf w.start * 60) with ⟨hnone', hnil'⟩ | ⟨w, hw, hpick, hfirst⟩
    · rw [hnone']
      refine ⟨fun ⟨k, hk, hku, hle⟩ => absurd hle (hnot k hk hku),
        fun _ ⟨k, hk, hku, hlt⟩ => ?_, fun _ => rfl⟩
      obtain ⟨x, hx, rfl⟩ := List.mem_map.mp hk
      have hmem := (hahead x).mpr ⟨hx, hku, hlt⟩
      rw [hnil'] at hmem
      cases hmem
    · obtain ⟨hmem, husable, hlt⟩ := (hahead w).mp hw
      rw [hpick]
      refine ⟨fun ⟨k, hk, hku, hle⟩ => absurd hle (hnot k hk hku), fun _ _ => ?_,
        fun hneither => absurd hlt (hneither _ (List.mem_map_of_mem hmem) husable).2⟩
      refine ⟨w.win, List.mem_map_of_mem hmem, husable, hlt, rfl, fun k hk hku hklt => ?_⟩
      obtain ⟨x, hx, rfl⟩ := List.mem_map.mp hk
      exact hfirst x ((hahead x).mpr ⟨hx, hku, hklt⟩)
  · obtain ⟨hmem, husable, hle⟩ := (hended w).mp hw
    rw [hpick]
    refine ⟨fun _ => ?_, fun hnone _ => absurd hle (hnone _ (List.mem_map_of_mem hmem) husable),
      fun hneither => absurd hle (hneither _ (List.mem_map_of_mem hmem) husable).1⟩
    refine ⟨w.win, List.mem_map_of_mem hmem, husable, hle, rfl, fun k hk hku hkle => ?_⟩
    obtain ⟨x, hx, rfl⟩ := List.mem_map.mp hk
    exact hlast x ((hended x).mpr ⟨hx, hku, hkle⟩)

/-- What the device shows for a start is what the guardian shows for the usable window there. -/
theorem asOpening_windowStarting (hread : ReadsAlike g tz now dayStart tomorrowStart)
    {known : String → Bool} {day : Int} {w : ScheduleWindow} (hsent : w.Sent)
    (hw : UsableAhead g known tz now day w.win)
    (htime : (labelAt (windowsOf g day) known (minutesOf w.start)).named = w.time) :
    (windowStarting g known tz now day (minutesOf w.start)).asOpening =
      openingOf tz now dayStart tomorrowStart day w := by
  have hbound : minutesOf w.start ∈ boundaries (windowsOf g day) :=
    mem_boundaries.mpr ⟨_, hw.mem, .inl rfl⟩
  unfold NextWindow.asOpening windowStarting openingOf
  dsimp only
  rw [htime, hhmm_minutesOf hsent.start]
  rcases hw.later with ⟨rfl, hlater⟩ | rfl
  · rw [if_pos (by omega), if_pos rfl, hread.today _ hbound hlater]
  · rw [if_neg (by omega), if_neg (by omega), hread.tomorrow _ hbound]

/-- **The opening is the same on both sides exactly when no unknown tag hides it**, of a schedule sent
with its windows. -/
theorem Schedule.SentAs.nextWindow_agree_iff (h : s.SentAs g) (hlifted : s.paused ≠ some true)
    (hoverlaps : findTaggedOverlaps s = []) (htimes : timesToGrant times issuedAt = .ok gt)
    (htz : zones s.tz = some tz) (hyear : PlainYear (tz.localDay now))
    (hyear' : PlainYear (tz.localDay now + 1))
    (hread : ReadsAlike g tz now (startOfDayUnix zones phone now (some s.tz))
      (endOfDayUnix zones phone now (some s.tz)))
    (hd : g.Decides zones tz)
    (hlocked : (labelOn g (knownIn (some gt)) (tz.wall now)).runnable = false) :
    Schedule.nextWindow zones phone (some s) now (some times) =
        (Times.nextWindow zones g (knownIn (some gt)) now).map NextWindow.asOpening ↔
      NextUnhidden g (knownIn (some gt)) tz now := by
  have hapart := h.tagsApart hoverlaps
  have hguardian := h.nextWindow_cases hlifted htimes htz hyear hyear' rfl rfl hread.nextDay
  have hshown : ∀ {day b}, FirstAhead g (knownIn (some gt)) tz now day b →
      Times.nextWindow zones g (knownIn (some gt)) now =
        some (windowStarting g (knownIn (some gt)) tz now day b) := by
    intro day b hfirst
    obtain ⟨e, hspan⟩ := hfirst.starts
    exact hfirst.shown hd (hread.ahead day b hspan.start_mem hfirst.later)
  have hnone : (∀ day b, ¬FirstAhead g (knownIn (some gt)) tz now day b) →
      Times.nextWindow zones g (knownIn (some gt)) now = none := by
    intro hno
    cases hw : Times.nextWindow zones g (knownIn (some gt)) now with
    | none => rfl
    | some w =>
      obtain ⟨day, b, hstart, -, -⟩ := nextWindow_eq_some hd hw
      obtain ⟨day', b', hfirst⟩ := exists_firstAhead hstart
      exact absurd hfirst (hno day' b')
  rw [nextUnhidden_iff hapart hlocked]
  constructor
  · intro hsame day b
    rcases hguardian with ⟨hempty, hno⟩ | ⟨day', w, hsent, hw, htie, hopening⟩
    · rw [hempty] at hsame
      refine iff_of_false (fun hfirst => ?_) (fun ⟨w, hw, _⟩ => hno day w hw.toUsableAhead)
      rw [hshown hfirst] at hsame
      cases hsame
    · -- both show an opening, of one day and one text, so of one minute
      rw [hopening] at hsame
      have hsome : ∃ day'' b'', FirstAhead g (knownIn (some gt)) tz now day'' b'' := by
        by_contra hno
        rw [hnone fun day'' b'' hfirst => hno ⟨day'', b'', hfirst⟩] at hsame
        cases hsame
      obtain ⟨day'', b'', hfirst⟩ := hsome
      rw [hshown hfirst, Option.map_some, Option.some_inj] at hsame
      have hhhmm : w.start = hhmm b'' := by
        have hfield := congrArg Opening.hhmm hsame
        unfold openingOf at hfield
        split at hfield <;> exact hfield
      have hminute : minutesOf w.start = b'' := by
        rw [hhhmm, minutesOf_hhmm hfirst.lt]
      have hday : day' = day'' := by
        have hfield := congrArg Opening.day hsame
        have hlater := hfirst.later
        have hlater' := hw.later
        unfold openingOf NextWindow.asOpening windowStarting at hfield
        dsimp only at hfield
        by_contra hne
        rcases hlater' with ⟨htoday, -⟩ | htomorrow
        · rw [if_pos htoday, if_neg (by omega)] at hfield
          cases hfield
        · rw [if_neg (by omega), if_pos (by omega)] at hfield
          cases hfield
      subst hday hminute
      constructor
      · intro hother
        obtain ⟨rfl, rfl⟩ := hfirst.unique hother
        exact ⟨w.win, hw, rfl⟩
      · rintro ⟨k, hk, rfl⟩
        have hle := hk.first _ _ hw.toUsableAhead
        have hge := hw.first _ _ hk.toUsableAhead
        have hkb := (windowsOf_wellFormed hk.mem)
        obtain ⟨rfl, hstart⟩ := Tz.wallOf_inj (hkb.1.trans hkb.2) hfirst.lt (le_antisymm hle hge)
        rw [hstart]
        exact hfirst
  · intro hsame
    rcases hguardian with ⟨hempty, hno⟩ | ⟨day, w, hsent, hw, htie, hopening⟩
    · rw [hempty, hnone fun day b hfirst => ?_]
      · rfl
      · obtain ⟨k, hk, -⟩ := (hsame day b).mp hfirst
        exact hno day k hk.toUsableAhead
    · have hfirst := (hsame day w.win.start).mpr ⟨w.win, hw, rfl⟩
      rw [hopening, hshown hfirst, Option.map_some, Option.some_inj]
      refine (asOpening_windowStarting hread hsent hw.toUsableAhead ?_).symm
      obtain ⟨e, hspan⟩ := hfirst.starts
      have hcovers : w.win.covers w.win.start = true :=
        Win.covers_iff.mpr ⟨le_rfl, (windowsOf_wellFormed hw.mem).1⟩
      show (labelAt (windowsOf g day) (knownIn (some gt)) w.win.start).named = w.win.tag
      cases htag : w.win.tag with
      | some id =>
        have hsome : w.win.tag.isSome = true := by rw [htag]; rfl
        rw [(hapart day).named_of_tagged hw.mem hcovers hsome hspan.runnable, htag]
      | none =>
        -- what runs there starts there, and of those a tagged one would have been picked
        rcases usable_of_runs_ahead hapart hlocked hspan.runnable hfirst.later with
          ⟨k, hk, hkc, hkt⟩ | ⟨-, hfree, -⟩
        · have hle := hw.first _ _ hk
          have hks := (Win.covers_iff.mp hkc).1
          rw [← hkt]
          refine htie k hk.mem hk.usable ?_ htag
          show k.start = w.win.start
          unfold Tz.wallOf at hle
          omega
        · rw [hfree]
          rfl

end

/-! ## A schedule with an unknown tag, and one without -/

/-- A Thursday on which a time that the child has no definition for lies over Free time. -/
def hiddenWeek : Schedule where
  tz := "UTC"
  weekly
    | .thu => some [⟨"06:00", "07:00", some "homework"⟩, ⟨"15:00", "17:00", some "learning"⟩,
        ⟨"15:00", "16:30", none⟩]
    | _ => none
  overrides := none
  paused := none

end Kintrinsic
