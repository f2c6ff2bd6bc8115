import Kintrinsic.GuardianTimes

/-! # Both sides agree on the time

What the guardian's app answers from its own schedule and named times is what the device answers
from the clauses they are sent as.  A schedule that is sent has well-formed windows, and the wire
keeps their order and their tags. -/
namespace Kintrinsic

open CivilDate Times

/-! ## Clock times -/

theorem isDigit_bounds {c : Char} (h : c.isDigit = true) : 48 ≤ c.toNat ∧ c.toNat ≤ 57 :=
  Char.isDigit_iff_toNat.mp h

theorem ne_of_isDigit {c d : Char} (h : c.isDigit = true) (hd : d.isDigit = false) : c ≠ d := by
  rintro rfl
  rw [hd] at h
  cases h

theorem digitsValue_two (a b : Char) :
    digitsValue [a, b] = 10 * (a.toNat - 48) + (b.toNat - 48) := by
  change 10 * (10 * 0 + (a.toNat - 48)) + (b.toNat - 48) = _
  omega

/-- Without a sign the digits are the whole text. -/
theorem parseU32_of_ne_plus {a : Char} {cs : List Char} (h : a ≠ '+') :
    parseU32 (a :: cs) =
      if (a :: cs).any (fun c => !c.isDigit) then none
      else if digitsValue (a :: cs) < 2 ^ 32 then some (digitsValue (a :: cs)) else none := by
  unfold parseU32
  split
  · rename_i rest heq
    exact absurd (List.cons.inj heq).1 h
  · rfl

theorem parseU32_two {a b : Char} (ha : a.isDigit = true) (hb : b.isDigit = true) :
    parseU32 [a, b] = some (digitsValue [a, b]) := by
  have hbounds := isDigit_bounds ha
  have hbounds' := isDigit_bounds hb
  rw [parseU32_of_ne_plus (ne_of_isDigit ha (by decide)), if_neg (by simp [ha, hb])]
  exact if_pos (by
    rw [digitsValue_two]
    omega)

/-- A text of the pattern, taken apart. -/
theorem isHhmm_parts {s : String} (h : isHhmm s = true) : ∃ a b c d : Char,
    s.toList = [a, b, ':', c, d] ∧ a.isDigit = true ∧ b.isDigit = true ∧ c.isDigit = true ∧
      d.isDigit = true ∧ digitsValue [a, b] ≤ 23 ∧ c.toNat ≤ 53 := by
  unfold isHhmm at h
  split at h
  · rename_i a b c d hchars
    simp only [Bool.and_eq_true, Bool.or_eq_true, beq_iff_eq, decide_eq_true_eq] at h
    obtain ⟨hhour, ⟨hclo, hchi⟩, hd⟩ := h
    change 48 ≤ c.toNat at hclo
    change c.toNat ≤ 53 at hchi
    have hdb := isDigit_bounds hd
    have hc : c.isDigit = true := Char.isDigit_iff_toNat.mpr ⟨hclo, hchi.trans (by decide)⟩
    rcases hhour with ⟨ha, hb⟩ | ⟨rfl, hblo, hbhi⟩
    · have hbb := isDigit_bounds hb
      refine ⟨a, b, c, d, hchars, ?_, hb, hc, hd, ?_, hchi⟩
      · rcases ha with rfl | rfl <;> decide
      · rw [digitsValue_two]
        rcases ha with rfl | rfl
        · change 10 * (48 - 48) + _ ≤ 23
          omega
        · change 10 * (49 - 48) + _ ≤ 23
          omega
    · change 48 ≤ b.toNat at hblo
      change b.toNat ≤ 51 at hbhi
      refine ⟨'2', b, c, d, hchars, by decide,
        Char.isDigit_iff_toNat.mpr ⟨hblo, hbhi.trans (by decide)⟩, hc, hd, ?_, hchi⟩
      rw [digitsValue_two]
      change 10 * (50 - 48) + _ ≤ 23
      omega
  · cases h

/-- **The device reads the minutes the guardian means.** -/
theorem parseHhmm_of_isHhmm {s : String} (h : isHhmm s = true) :
    parseHhmm s = some (minutesOf s) := by
  obtain ⟨a, b, c, d, hchars, ha, hb, hc, hd, hhour, hsix⟩ := isHhmm_parts h
  have hminute : digitsValue [c, d] ≤ 59 := by
    have hdb := isDigit_bounds hd
    rw [digitsValue_two]
    omega
  have hsplit : splitOnce ':' s.toList = some ([a, b], [c, d]) := by
    rw [hchars]
    simp [splitOnce, ne_of_isDigit ha (show Char.isDigit ':' = false by decide),
      ne_of_isDigit hb (show Char.isDigit ':' = false by decide)]
  have hminutes : minutesOf s = digitsValue [a, b] * 60 + digitsValue [c, d] := by
    unfold minutesOf
    rw [hchars]
    rfl
  unfold parseHhmm
  rw [hsplit, Option.bind_eq_bind, Option.bind_some]
  dsimp only
  rw [parseU32_two ha hb, parseU32_two hc hd, hminutes]
  exact if_neg (by omega)

/-- **The order of the texts is that of the minutes.** -/
theorem minutesOf_lt {s e : String} (hs : isHhmm s = true) (he : isHhmm e = true) (h : s < e) :
    minutesOf s < minutesOf e := by
  obtain ⟨a, b, c, d, hchars, ha, hb, hc, hd, -, hsix⟩ := isHhmm_parts hs
  obtain ⟨a', b', c', d', hchars', ha', hb', hc', hd', -, hsix'⟩ := isHhmm_parts he
  have hlt : ∀ x y : Char, x < y ↔ x.toNat < y.toNat := fun _ _ => Iff.rfl
  rw [String.lt_iff_toList_lt, hchars, hchars'] at h
  simp only [List.cons_lt_cons_iff, hlt, lt_irrefl, true_and, false_or] at h
  unfold minutesOf
  rw [hchars, hchars']
  change digitsValue [a, b] * 60 + digitsValue [c, d] <
    digitsValue [a', b'] * 60 + digitsValue [c', d']
  simp only [digitsValue_two]
  have := isDigit_bounds ha
  have := isDigit_bounds hb
  have := isDigit_bounds hc
  have := isDigit_bounds hd
  have := isDigit_bounds ha'
  have := isDigit_bounds hb'
  have := isDigit_bounds hc'
  have := isDigit_bounds hd'
  rcases h with h | ⟨rfl, h | ⟨rfl, h | ⟨rfl, h | ⟨rfl, h⟩⟩⟩⟩
  · omega
  · omega
  · omega
  · omega
  · exact absurd h (by simp)

/-! ## The first of the least -/

theorem lesser_map {α β : Type} (f : α → β) (key : β → Nat) (best : Option α) (x : α) :
    lesser key (best.map f) (f x) = (lesser (fun x => key (f x)) best x).map f := by
  cases best with
  | none => rfl
  | some b => exact (apply_ite (Option.map f) (key (f x) < key (f b)) (some x) (some b)).symm

theorem minByKey_map {α β : Type} (f : α → β) (key : β → Nat) (xs : List α) :
    minByKey key (xs.map f) = (minByKey (fun x => key (f x)) xs).map f := by
  have hfold : ∀ best : Option α, (xs.map f).foldl (lesser key) (best.map f) =
      (xs.foldl (lesser fun x => key (f x)) best).map f := by
    induction xs with
    | nil => exact fun _ => rfl
    | cons x xs ih =>
      intro best
      rw [List.map_cons, List.foldl_cons, List.foldl_cons, ← ih, lesser_map]
  exact hfold none

/-- Once there is a least, there is one. -/
theorem isSome_foldl_lesser {α : Type} (key : α → Nat) (xs : List α) (b : α) :
    (xs.foldl (lesser key) (some b)).isSome := by
  induction xs generalizing b with
  | nil => rfl
  | cons x xs ih =>
    rw [List.foldl_cons, lesser]
    split
    · exact ih x
    · exact ih b

theorem minByKey_eq_none {α : Type} {key : α → Nat} {xs : List α} (h : minByKey key xs = none) :
    xs = [] := by
  cases xs with
  | nil => rfl
  | cons x xs =>
    have hsome : (minByKey key (x :: xs)).isSome := isSome_foldl_lesser key xs x
    rw [h] at hsome
    cases hsome

/-! ## Windows on the wire -/

/-- A window that is sent. -/
structure ScheduleWindow.Sent (w : ScheduleWindow) : Prop where
  start : isHhmm w.start = true
  stop : isHhmm w.stop = true
  ordered : w.start < w.stop

theorem sent_of_windowsFault {windows : List ScheduleWindow} (h : windowsFault windows = none) :
    ∀ w ∈ windows, w.Sent := by
  intro w hw
  have hnone := List.findSome?_eq_none_iff.mp h w hw
  split at hnone
  · cases hnone
  · rename_i hpattern
    split at hnone
    · cases hnone
    · rename_i horder
      simp only [Bool.or_eq_true, Bool.not_eq_true', not_or, Bool.not_eq_false] at hpattern
      exact ⟨hpattern.1, hpattern.2, not_le.mp horder⟩

/-- The device's reading of a window that was sent. -/
def ScheduleWindow.win (w : ScheduleWindow) : Win := ⟨minutesOf w.start, minutesOf w.stop, w.time⟩

theorem winOf_toGrant {w : ScheduleWindow} (h : w.Sent) : winOf w.toGrant = some w.win := by
  unfold winOf ScheduleWindow.toGrant
  rw [parseHhmm_of_isHhmm h.start, parseHhmm_of_isHhmm h.stop]
  exact if_pos (minutesOf_lt h.start h.stop h.ordered)

theorem filterMap_winOf {windows : List ScheduleWindow} (h : ∀ w ∈ windows, w.Sent) :
    (windows.map ScheduleWindow.toGrant).filterMap winOf = windows.map ScheduleWindow.win := by
  induction windows with
  | nil => rfl
  | cons w ws ih =>
    rw [List.map_cons, List.filterMap_cons_some (winOf_toGrant (h w List.mem_cons_self)),
      ih fun v hv => h v (List.mem_cons_of_mem _ hv), List.map_cons]

/-! ## The windows of a day -/

/-- What a schedule that is neither lifted nor without windows passed, and how it was sent. -/
structure Schedule.SentAs (s : Schedule) (g : GrantSchedule) : Prop where
  version : g.v = 1
  tz : g.tz = s.tz
  paused : g.paused = none
  weekly : g.weekly = weekToGrant s.weekly
  overrides : g.overrides = s.overrides.map overridesToGrant
  sent : ∀ windows ∈ s.weekWindows ++ s.overrideWindows, ∀ w ∈ windows, w.Sent
  some_window : ∃ windows ∈ s.weekWindows ++ s.overrideWindows, windows ≠ []

theorem lookup_overridesToGrant (o : AList fun _ : String => List ScheduleWindow) (key : String) :
    (overridesToGrant o).lookup key = (o.lookup key).map (·.map ScheduleWindow.toGrant) := by
  unfold overridesToGrant
  rw [AList.lookup_to_alist]
  exact List.dlookup_map₂ (l := o.entries)
    (f := fun _ windows => windows.map ScheduleWindow.toGrant) key

theorem forDay_weekToGrant (weekly : Weekday → Option (List ScheduleWindow)) {day : Nat} :
    (weekToGrant weekly).forDay day =
      (Weekday.sundayFirst[day]?.bind weekly).map (·.map ScheduleWindow.toGrant) := by
  match day with
  | 0 | 1 | 2 | 3 | 4 | 5 | 6 => rfl
  | n + 7 => rfl

theorem Weekday.mem_all (d : Weekday) : d ∈ Weekday.all := by cases d <;> decide

variable {s : Schedule} {g : GrantSchedule}

/-- The windows of a date are among those that were checked. -/
theorem Schedule.SentAs.sent_windowsOn (h : s.SentAs g) (key : String) :
    ∀ w ∈ s.windowsOn key, w.Sent := by
  intro w hw
  unfold Schedule.windowsOn at hw
  split at hw
  · rename_i windows hover
    obtain ⟨o, ho, hlookup⟩ := Option.bind_eq_some_iff.mp hover
    refine h.sent windows (List.mem_append_right _ ?_) w hw
    unfold Schedule.overrideWindows
    rw [ho]
    exact List.mem_map.mpr ⟨⟨key, windows⟩, List.of_mem_dlookup hlookup, rfl⟩
  · cases hday : ((weekdayOf key).bind fun d => Weekday.sundayFirst[d]?).bind s.weekly with
    | none =>
      rw [hday] at hw
      cases hw
    | some windows =>
      rw [hday] at hw
      obtain ⟨d, -, hweek⟩ := Option.bind_eq_some_iff.mp hday
      exact h.sent windows
        (List.mem_append_left _ (List.mem_filterMap.mpr ⟨d, d.mem_all, hweek⟩)) w hw

/-- **The device reads the windows the guardian keeps**, in their order. -/
theorem Schedule.SentAs.windowsOf_eq (h : s.SentAs g) {day : Int} (hyear : PlainYear day) :
    windowsOf g day = (s.windowsOn (jsDayKey day)).map ScheduleWindow.win := by
  rw [← filterMap_winOf (h.sent_windowsOn _)]
  unfold windowsOf dayWindows Schedule.windowsOn
  rw [h.overrides, h.weekly, forDay_weekToGrant, jsDayKey_eq hyear]
  have hweekday : weekdayOf (dateKey day) = some (daysFromSunday day).toNat := by
    rw [← jsDayKey_eq hyear, weekdayOf_jsDayKey hyear]
  rw [hweekday, Option.bind_some]
  have hlookup : ((s.overrides.map overridesToGrant).bind fun o => o.lookup (dateKey day)) =
      (s.overrides.bind fun o => o.lookup (dateKey day)).map (·.map ScheduleWindow.toGrant) := by
    cases s.overrides with
    | none => rfl
    | some o => exact lookup_overridesToGrant o _
  rw [hlookup]
  cases s.overrides.bind fun o => o.lookup (dateKey day) with
  | some windows => rfl
  | none =>
    dsimp only [Option.map_none]
    cases Weekday.sundayFirst[(daysFromSunday day).toNat]?.bind s.weekly with
    | some windows => rfl
    | none => rfl

/-- A schedule with a window somewhere bounds the device. -/
theorem Schedule.SentAs.isUnbounded_eq (h : s.SentAs g) : isUnbounded g = false := by
  obtain ⟨windows, hmem, hne⟩ := h.some_window
  unfold isUnbounded
  rw [Bool.and_eq_false_iff]
  rcases List.mem_append.mp hmem with hweek | hover
  · left
    obtain ⟨d, -, hd⟩ := List.mem_filterMap.mp hweek
    obtain ⟨w, ws, rfl⟩ := List.exists_cons_of_ne_nil hne
    rw [h.weekly]
    unfold WeeklySchedule.isEmpty weekToGrant
    cases d <;> simp [hd]
  · right
    unfold Schedule.overrideWindows at hover
    cases ho : s.overrides with
    | none =>
      rw [ho] at hover
      cases hover
    | some o =>
      rw [ho] at hover
      obtain ⟨e, he, -⟩ := List.mem_map.mp hover
      unfold GrantSchedule.hasOverrides
      rw [h.overrides, ho]
      have hmem : e.1 ∈ (overridesToGrant o).keys := by
        rw [← AList.mem_keys, ← AList.lookup_isSome, lookup_overridesToGrant, Option.isSome_map,
          AList.lookup_isSome]
        exact List.mem_map.mpr ⟨e, he, rfl⟩
      cases hentries : (overridesToGrant o).entries with
      | nil =>
        rw [AList.keys, hentries] at hmem
        cases hmem
      | cons x xs => simp [hentries]

/-! ## The answers -/

theorem covers_win (w : ScheduleWindow) (secs : Nat) :
    w.win.covers (secs / 60) = w.inside secs := by
  have hstart : minutesOf w.start ≤ secs / 60 ↔ minutesOf w.start * 60 ≤ secs := by omega
  have hstop : secs / 60 < minutesOf w.stop ↔ secs < minutesOf w.stop * 60 := by omega
  unfold Win.covers ScheduleWindow.inside ScheduleWindow.win
  dsimp only
  rw [decide_eq_decide.mpr hstart, decide_eq_decide.mpr hstop]

/-- What the device is in, by the guardian's windows. -/
theorem labelAt_win (windows : List ScheduleWindow) (known : String → Bool) (secs : Nat) :
    labelAt (windows.map ScheduleWindow.win) known (secs / 60) =
      match minByKey (minutesOf ·.start)
          ((windows.filter (·.inside secs)).filter (·.time.isSome)) with
      | some w =>
        if known (w.time.getD "") then .time (w.time.getD "") else .unknown (w.time.getD "")
      | none => if windows.filter (·.inside secs) = [] then .closed else .free := by
  have htagged : ((windows.map ScheduleWindow.win).filter fun w =>
        w.tag.isSome && w.covers (secs / 60)) =
      ((windows.filter (·.inside secs)).filter (·.time.isSome)).map ScheduleWindow.win := by
    rw [List.filter_map, List.filter_filter]
    congr 1
    refine List.filter_congr fun w _ => ?_
    rw [Function.comp_apply, covers_win]
    rfl
  unfold labelAt
  rw [htagged, minByKey_map]
  cases hmin : minByKey (fun w => minutesOf w.start)
      ((windows.filter (·.inside secs)).filter (·.time.isSome)) with
  | some w =>
    have hmap : minByKey (fun w : ScheduleWindow => w.win.start)
        ((windows.filter (·.inside secs)).filter (·.time.isSome)) = some w := hmin
    rw [hmap]
    rfl
  | none =>
    have hmap : minByKey (fun w : ScheduleWindow => w.win.start)
        ((windows.filter (·.inside secs)).filter (·.time.isSome)) = none := hmin
    have huntagged := minByKey_eq_none hmin
    rw [hmap]
    dsimp only [Option.map_none]
    by_cases hcover : windows.filter (·.inside secs) = []
    · rw [if_pos hcover, if_neg]
      rw [List.any_map, List.any_eq_true]
      rintro ⟨w, hw, hin⟩
      rw [Function.comp_apply, covers_win, Bool.and_eq_true] at hin
      exact List.filter_eq_nil_iff.mp hcover w hw hin.2
    · rw [if_neg hcover, if_pos]
      obtain ⟨w, hw⟩ := List.exists_mem_of_ne_nil _ hcover
      have hnone := List.filter_eq_nil_iff.mp huntagged w hw
      obtain ⟨hmem, hin⟩ := List.mem_filter.mp hw
      rw [List.any_map, List.any_eq_true]
      refine ⟨w, hmem, ?_⟩
      rw [Function.comp_apply, covers_win, hin, Bool.and_true]
      simpa [ScheduleWindow.win] using hnone

variable {times : List TimeSel} {gt : GrantTimes} {issuedAt : Nat}

/-- The device's named times are the guardian's, in its own form. -/
theorem get_timesToGrant (h : timesToGrant times issuedAt = .ok gt) (id : String) :
    gt.get id = (times.find? (·.id = id)).map fun t => normaliseNamedTime (cleanTime t) := by
  have hid : ∀ t : TimeSel, (normaliseNamedTime (cleanTime t)).id = t.id := by
    intro t
    unfold normaliseNamedTime cleanTime
    cases t.posture <;> rfl
  unfold timesToGrant at h
  dsimp only at h
  split at h
  · cases h
  · cases h
    unfold GrantTimes.get
    dsimp only
    have hpred : ((fun t : NamedTime => decide (t.id = id)) ∘ normaliseNamedTime ∘ cleanTime) =
        fun t : TimeSel => decide (t.id = id) := funext fun t => by
      rw [Function.comp_apply, Function.comp_apply, hid]
    rw [List.map_map, List.find?_map, hpred]
    rfl

/-- The two answers of one instant. -/
structure TimesAgree (gt : GrantTimes) (a : ActiveTime) (st : TimedStatus) : Prop where
  free : a = .free ↔ st = .unbounded ∨ ∃ spanEnd, st = .opened none spanEnd
  time : ∀ id, (∃ t, a = .time t ∧ t.id = id) ↔ ∃ spanEnd, st = .opened (some id) spanEnd
  definition : ∀ t, a = .time t → gt.get t.id = some (normaliseNamedTime (cleanTime t))
  outside : a = .outside ↔ ∃ next, st = .locked .outsideWindows next ∨ st = .locked .paused next
  unknown : ∀ tag, a = .unknownTime tag ↔ ∃ next, st = .locked (.unknownTime tag) next

namespace TimesAgree

theorem of_unbounded : TimesAgree gt .free .unbounded := by
  constructor <;> simp

theorem of_free {spanEnd : Int} : TimesAgree gt .free (.opened none spanEnd) := by
  constructor <;> simp

theorem of_outside {next : Option Nat} : TimesAgree gt .outside (.locked .outsideWindows next) := by
  constructor <;> simp

theorem of_paused {next : Option Nat} : TimesAgree gt .outside (.locked .paused next) := by
  constructor <;> simp

theorem of_unknown {tag : String} {next : Option Nat} :
    TimesAgree gt (.unknownTime tag) (.locked (.unknownTime tag) next) := by
  constructor <;> simp [eq_comm]

theorem of_time {t : TimeSel} {spanEnd : Int}
    (h : gt.get t.id = some (normaliseNamedTime (cleanTime t))) :
    TimesAgree gt (.time t) (.opened (some t.id) spanEnd) := by
  constructor
  · simp
  · intro id
    constructor
    · rintro ⟨t', ht', rfl⟩
      cases ht'
      exact ⟨spanEnd, rfl⟩
    · rintro ⟨e, he⟩
      cases he
      exact ⟨t, rfl, rfl⟩
  · rintro t' ht'
    cases ht'
    exact h
  · simp
  · simp

end TimesAgree

variable {zones : Zones} {phone tz : Tz} {now : Int}

/-- The answers about a schedule sent with its windows. -/
theorem Schedule.SentAs.agree (h : s.SentAs g) (hlifted : s.paused ≠ some true)
    (htimes : timesToGrant times issuedAt = .ok gt) (htz : zones s.tz = some tz)
    (hyear : PlainYear (tz.localDay now)) :
    TimesAgree gt (activeTimeAt zones phone (some s) times now)
      (evaluateTimes zones g (knownIn (some gt)) now) := by
  have hversion : g.isSupportedVersion = true := by
    unfold GrantSchedule.isSupportedVersion
    rw [h.version]
    rfl
  have hknown : ∀ id, knownIn (some gt) id = (times.find? (·.id = id)).isSome := by
    intro id
    unfold knownIn
    rw [Option.any_some, get_timesToGrant htimes, Option.isSome_map]
  unfold activeTimeAt evaluateTimes
  dsimp only
  rw [if_neg hlifted, hversion, Bool.not_true, if_neg Bool.false_ne_true, h.paused,
    if_neg (show ¬ (none : Option Bool) = some true by simp), h.tz, htz]
  dsimp only [Option.getD_some, tzDayParts]
  rw [h.isUnbounded_eq, if_neg Bool.false_ne_true, h.windowsOf_eq hyear]
  unfold Tz.minuteOfDay
  rw [labelAt_win]
  cases minByKey (fun w => minutesOf w.start)
      (((s.windowsOn (jsDayKey (tz.localDay now))).filter
        (·.inside (tz.secondOfDay now))).filter (·.time.isSome)) with
  | some w =>
    dsimp only
    rw [hknown]
    cases hfind : times.find? (·.id = w.time.getD "") with
    | some t =>
      have hid : t.id = w.time.getD "" := by simpa using List.find?_some hfind
      have hget : gt.get t.id = some (normaliseNamedTime (cleanTime t)) := by
        rw [get_timesToGrant htimes, hid, hfind]
        rfl
      rw [Option.isSome_some, if_pos rfl, ← hid]
      exact .of_time hget
    | none =>
      rw [Option.isSome_none, if_neg Bool.false_ne_true]
      exact .of_unknown
  | none =>
    dsimp only
    by_cases hcover :
        (s.windowsOn (jsDayKey (tz.localDay now))).filter (·.inside (tz.secondOfDay now)) = []
    · simp only [hcover, if_true]
      exact .of_outside
    · simp only [hcover, if_false]
      exact .of_free

/-- A day of a schedule without windows has none. -/
theorem Schedule.windowsOn_eq_nil
    (h : ∀ windows ∈ s.weekWindows ++ s.overrideWindows, windows = []) (key : String) :
    s.windowsOn key = [] := by
  unfold Schedule.windowsOn
  split
  · rename_i windows hover
    obtain ⟨o, ho, hlookup⟩ := Option.bind_eq_some_iff.mp hover
    refine h windows (List.mem_append_right _ ?_)
    unfold Schedule.overrideWindows
    rw [ho]
    exact List.mem_map.mpr ⟨⟨key, windows⟩, List.of_mem_dlookup hlookup, rfl⟩
  · cases hday : ((weekdayOf key).bind fun d => Weekday.sundayFirst[d]?).bind s.weekly with
    | none => rfl
    | some windows =>
      obtain ⟨d, -, hweek⟩ := Option.bind_eq_some_iff.mp hday
      exact h windows (List.mem_append_left _ (List.mem_filterMap.mpr ⟨d, d.mem_all, hweek⟩))

/-- **What a schedule is sent as**: lifted, without windows, or with the windows it has, of which no
two tagged ones overlap. -/
theorem scheduleToGrant_cases {sentAt : Nat} (hsched : scheduleToGrant s sentAt = .ok g) :
    (s.paused = some true ∧ g = ⟨1, s.tz, none, .empty, none, sentAt⟩) ∨
      (s.paused ≠ some true ∧ (∀ windows ∈ s.weekWindows ++ s.overrideWindows, windows = []) ∧
        g = ⟨1, s.tz, some true, .empty, none, sentAt⟩) ∨
      (s.paused ≠ some true ∧ findTaggedOverlaps s = [] ∧ s.SentAs g) := by
  unfold scheduleToGrant at hsched
  by_cases hzone : jsTrim s.tz = ""
  · rw [if_pos hzone] at hsched
    cases hsched
  rw [if_neg hzone] at hsched
  by_cases hlifted : s.paused = some true
  · rw [if_pos hlifted] at hsched
    cases hsched
    exact .inl ⟨hlifted, rfl⟩
  rw [if_neg hlifted] at hsched
  right
  cases hfault : (s.weekWindows ++ s.overrideWindows).findSome? windowsFault with
  | some fault =>
    rw [hfault] at hsched
    cases hsched
  | none =>
    rw [hfault] at hsched
    cases hoverlaps : findTaggedOverlaps s with
    | cons o os =>
      rw [hoverlaps] at hsched
      cases hsched
    | nil =>
      rw [hoverlaps] at hsched
      dsimp only at hsched
      split at hsched
      · rename_i hnone
        cases hsched
        refine .inl ⟨hlifted, fun ws hws => ?_, rfl⟩
        exact List.length_eq_zero_iff.mp
          (List.sum_eq_zero_iff_forall_eq_nat.mp hnone _ (List.mem_map.mpr ⟨ws, hws, rfl⟩))
      · rename_i hsome
        cases hsched
        refine .inr ⟨hlifted, rfl, rfl, rfl, rfl, rfl, rfl, fun windows hmem =>
          sent_of_windowsFault (List.findSome?_eq_none_iff.mp hfault windows hmem), ?_⟩
        by_contra hall
        push Not at hall
        refine hsome (List.sum_eq_zero_iff_forall_eq_nat.mpr ?_)
        intro n hn
        obtain ⟨ws, hws, rfl⟩ := List.mem_map.mp hn
        rw [hall ws hws]
        rfl

/-- Without windows it is never open. -/
theorem activeTimeAt_of_empty (hlifted : s.paused ≠ some true)
    (hempty : ∀ windows ∈ s.weekWindows ++ s.overrideWindows, windows = []) :
    activeTimeAt zones phone (some s) times now = .outside := by
  unfold activeTimeAt
  dsimp only
  rw [if_neg hlifted, Schedule.windowsOn_eq_nil hempty]
  rfl

/-- **Guardian and device agree on which time it is**, a lifted schedule being free on the one and
unbounded on the other. -/
theorem times_agree {sentAt : Nat} (hsched : scheduleToGrant s sentAt = .ok g)
    (htimes : timesToGrant times issuedAt = .ok gt) (htz : zones s.tz = some tz)
    (hyear : PlainYear (tz.localDay now)) :
    TimesAgree gt (activeTimeAt zones phone (some s) times now)
      (evaluateTimes zones g (knownIn (some gt)) now) := by
  rcases scheduleToGrant_cases hsched with
    ⟨hlifted, rfl⟩ | ⟨hlifted, hempty, rfl⟩ | ⟨hlifted, -, hsent⟩
  · have hfree : activeTimeAt zones phone (some s) times now = .free := if_pos hlifted
    have hdevice : evaluateTimes zones ⟨1, s.tz, none, .empty, none, sentAt⟩
        (knownIn (some gt)) now = .unbounded := by
      unfold evaluateTimes
      dsimp only
      rw [htz]
      rfl
    rw [hfree, hdevice]
    exact .of_unbounded
  · rw [activeTimeAt_of_empty hlifted hempty]
    exact .of_paused
  · exact hsent.agree hlifted htimes htz hyear

/-- A day of homework and free time. -/
def schoolWeek : Schedule where
  tz := "UTC"
  weekly
    | .thu => some [⟨"08:00", "12:00", some "homework"⟩, ⟨"07:00", "20:00", none⟩]
    | _ => none
  overrides := none
  paused := none

def homeworkTime : TimeSel where
  id := "homework"
  label := "Homework"
  posture := .everythingExcept
  blockApps := none
  unblockApps := none
  denySites := none
  undenySites := none
  apps := none
  sites := none
  countsAgainstBudget := none

theorem times_agree_school :
    ∃ g gt, scheduleToGrant schoolWeek 0 = .ok g ∧ timesToGrant [homeworkTime] 0 = .ok gt ∧
      TimesAgree gt (activeTimeAt (fun _ => some .utc) .utc (some schoolWeek) [homeworkTime] 36000)
        (evaluateTimes (fun _ => some .utc) g (knownIn (some gt)) 36000) ∧
      activeTimeAt (fun _ => some .utc) .utc (some schoolWeek) [homeworkTime] 36000 =
        .time homeworkTime := by
  have hsched : scheduleToGrant schoolWeek 0 =
      .ok ⟨1, "UTC", none, weekToGrant schoolWeek.weekly, none, 0⟩ := by decide +kernel
  have htimes : timesToGrant [homeworkTime] 0 =
      .ok ⟨1, [normaliseNamedTime (cleanTime homeworkTime)], 0⟩ := by decide +kernel
  have htz : (fun _ => some Tz.utc : Zones) schoolWeek.tz = some Tz.utc := rfl
  exact ⟨_, _, hsched, htimes, times_agree hsched htimes htz (by decide +kernel), by decide +kernel⟩

/-- A schedule that was lifted. -/
def liftedWeek : Schedule where
  tz := "UTC"
  weekly := fun _ => none
  overrides := none
  paused := some true

/-- A window on the first day of the year 10000, as the guardian spells it. -/
def farWeek : Schedule where
  tz := "UTC"
  weekly := fun _ => none
  overrides := some ([⟨"10000-01-01", [⟨"00:00", "23:00", none⟩]⟩] : List (Sigma _)).toAList
  paused := none

/-- **Not on every schedule and instant.**  A lifted schedule is free here and unbounded there,
which is not open; and a year of five digits has two spellings. -/
theorem times_agree_not_always :
    (∃ g gt, scheduleToGrant liftedWeek 0 = .ok g ∧ timesToGrant [] 0 = .ok gt ∧
      activeTimeAt (fun _ => some .utc) .utc (some liftedWeek) [] 36000 = .free ∧
      evaluateTimes (fun _ => some .utc) g (knownIn (some gt)) 36000 = .unbounded) ∧
    ∃ g gt next, scheduleToGrant farWeek 0 = .ok g ∧ timesToGrant [] 0 = .ok gt ∧
      activeTimeAt (fun _ => some .utc) .utc (some farWeek) [] 253402304400 = .free ∧
      evaluateTimes (fun _ => some .utc) g (knownIn (some gt)) 253402304400 =
        .locked .outsideWindows next := by
  refine ⟨⟨⟨1, "UTC", none, .empty, none, 0⟩, ⟨1, [], 0⟩, ?_, ?_, ?_, ?_⟩,
    ⟨⟨1, "UTC", none, weekToGrant farWeek.weekly, farWeek.overrides.map overridesToGrant, 0⟩,
      ⟨1, [], 0⟩, none, ?_, ?_, ?_, ?_⟩⟩
  case refine_5 => rfl
  all_goals decide +kernel

end Kintrinsic
