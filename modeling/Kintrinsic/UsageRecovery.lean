import Kintrinsic.CivilWeeks
import Kintrinsic.UsageMirrors

/-! # The way back from a clock that ran ahead

Whatever an unconfirmed clock did to a ledger, one credit on a confirmed one leaves it on the
day of its instant or the next, and on that week or the next; and a roll at an instant whose
day the ledger is already past takes nothing away. -/
namespace Kintrinsic

open CivilDate MachineWord PreRoll

/-! ## One track -/

section Track
variable {T : Type} [PreRoll T] {parse : String → Option Int} {b : Int} {computed : String}
  {t : Track T}

/-- A confirmed clock leaves a dated key no more than the bound ahead. -/
theorem currentKey_trusted (hparse : ∀ n, parse (dateKey n) = some n) {d n : Int}
    (hkey : t.key = dateKey d) :
    t.currentKey parse true b (dateKey n) = dateKey n ∨
      t.currentKey parse true b (dateKey n) = dateKey d ∧ ¬dateKey d < dateKey n ∧ d - n ≤ b := by
  unfold Track.currentKey
  split
  · exact Or.inl rfl
  · rename_i hstays
    refine Or.inr ⟨hkey, fun hlt => hstays (Or.inl (hkey ▸ hlt)), ?_⟩
    by_contra hfar
    refine hstays (Or.inr (Or.inr ?_))
    rw [hkey, daysAhead, hparse, hparse, dropBack, Option.all_some, Bool.true_and,
      decide_eq_true_eq]
    omega

theorem roll_untrusted_restored (hparse : (daysAhead parse t.key computed).isSome) :
    (t.roll parse false b computed).2 = none := by
  obtain ⟨d, hd⟩ := Option.isSome_iff_exists.mp hparse
  unfold Track.roll
  split <;> simp [hd, dropBack]

/-- What merging keeps of two entries holds of all of a shortened chain. -/
theorem forall_shorten {P : T → Prop} (hmerge : ∀ t u, P t → P u → P (mergeNewest t u)) (n : Nat)
    (l : List T) (h : ∀ e ∈ l, P e) : ∀ e ∈ shorten n l, P e := by
  induction n generalizing l with
  | zero => simpa [shorten] using h
  | succ n ih =>
    rcases l with _ | ⟨newest, _ | ⟨prev, rest⟩⟩
    · simp [shorten]
    · simpa [shorten] using h
    · refine ih _ ?_
      intro e he
      rcases List.mem_cons.mp he with rfl | he
      · exact hmerge _ _ (h newest (by simp)) (h prev (by simp))
      · exact h e (by simp [he])

theorem forall_pushPreRoll {P : T → Prop} (hmerge : ∀ t u, P t → P u → P (mergeNewest t u))
    {chain : List T} {entry : T} (hchain : ∀ e ∈ chain, P e) (hentry : P entry) :
    ∀ e ∈ pushPreRoll chain entry, P e := by
  intro e he
  refine forall_shorten hmerge _ _ ?_ e (List.mem_reverse.mp he)
  intro e he
  rcases List.mem_cons.mp he with rfl | he
  · exact hentry
  · exact hchain e (List.mem_reverse.mp he)

/-- What is folded back from entries that read nothing reads nothing. -/
theorem roll_restored_read (m : Meter T) {trusted : Bool} (h : ∀ e ∈ t.chain, m.read e = 0)
    {r : T} (hr : (t.roll parse trusted b computed).2 = some r) : m.read r = 0 := by
  have hzero : m.restorable t.chain computed = 0 := by
    rw [Meter.restorable, Meter.sum, List.sum_eq_zero]
    intro n hn
    obtain ⟨e, he, rfl⟩ := List.mem_map.mp hn
    exact h e (List.mem_of_mem_filter he)
  unfold Track.roll at hr
  split at hr
  · cases hr
  split at hr
  · dsimp only [Track.restore] at hr
    rcases m.read_takeRestorable t.chain computed with ⟨htake, -⟩ | ⟨r', htake, hread⟩
    · rw [htake] at hr
      cases hr
    · rw [htake] at hr
      cases hr
      exact hread.mpr hzero
  split at hr <;> cases hr

end Track

namespace UsageLedger
variable {cal : Calendar} {l : UsageLedger} {d now : Int}

def outOfHoursMeter : Meter DayCounters :=
  ⟨DayCounters.outOfHoursTodaySecs, fun _ => rfl, fun _ _ => rfl, fun _ _ => rfl⟩

/-- **The invariant of credits on an unconfirmed clock**: the keys are those of one day of a
four-digit year, the counters are words, and nothing was marked out of hours. -/
structure Dated (l : UsageLedger) (d : Int) : Prop where
  untrusted : l.clockTrusted = false
  key : l.day.key = dateKey d
  year : FourDigitYear d
  week : l.week.key = dateKey (weekStartDay l.weekStart.fromSunday d)
  fits : l.Fits
  quiet : l.day.current.outOfHoursTodaySecs = 0 ∧ ∀ e ∈ l.day.chain, e.outOfHoursTodaySecs = 0
  quietWeek : l.week.current.outOfHoursWeekSecs = 0 ∧ l.week.current.outOfHoursNightsWeek = 0

/-- A fresh ledger is dated at its instant. -/
theorem dated_new (tz : String) (weekStart : WeekStart)
    (hnow : FourDigitYear ((Tz.ofName cal.zones tz).localDay now)) :
    (new cal tz weekStart now).Dated ((Tz.ofName cal.zones tz).localDay now) :=
  ⟨rfl, rfl, hnow, rfl, by constructor <;> simp [new, PreRoll.fresh],
    ⟨rfl, by simp [new]⟩, ⟨rfl, rfl⟩⟩

/-- An instant of a four-digit year has rolled the day, or the week, exactly when its day, or
week, is later. -/
theorem Dated.dayHasRolled (hl : l.Dated d) (hn : FourDigitYear ((l.zone cal).localDay now)) :
    l.dayHasRolled cal now = decide (d < (l.zone cal).localDay now) := by
  rw [UsageLedger.dayHasRolled, hl.key, dayKeyAt, Tz.dayKey]
  exact decide_eq_decide.mpr (dateKey_lt_iff hl.year hn)

theorem Dated.weekHasRolled (hl : l.Dated d) (hn : FourDigitYear ((l.zone cal).localDay now)) :
    l.weekHasRolled cal now = decide (weekStartDay l.weekStart.fromSunday d <
      weekStartDay l.weekStart.fromSunday ((l.zone cal).localDay now)) := by
  rw [UsageLedger.weekHasRolled, hl.week, weekKeyAt, Tz.weekKey]
  exact decide_eq_decide.mpr (weekKey_lt_iff hl.year hn)

/-- Credits mark nothing. -/
theorem apply_outOfHours (cal : Calendar) (l : UsageLedger) (c : Credit) :
    (c.apply cal l).day.current.outOfHoursTodaySecs =
        (l.roll cal c.now).day.current.outOfHoursTodaySecs ∧
      (c.apply cal l).week.current.outOfHoursWeekSecs =
        (l.roll cal c.now).week.current.outOfHoursWeekSecs ∧
      (c.apply cal l).week.current.outOfHoursNightsWeek =
        (l.roll cal c.now).week.current.outOfHoursNightsWeek := by
  cases c with
  | bucket now activity b elapsed =>
    simp only [Credit.apply, creditBucket, Credit.now]
    split
    · cases b <;> exact ⟨rfl, rfl, rfl⟩
    · exact ⟨rfl, rfl, rfl⟩
  | unrecognised now activity elapsed =>
    simp only [Credit.apply, creditUnrecognised, Credit.now]
    split <;> exact ⟨rfl, rfl, rfl⟩
  | appBucket now id elapsed => exact ⟨rfl, rfl, rfl⟩

/-- A credit keeps words words. -/
theorem Fits.apply {c : Credit} (h : (l.roll cal c.now).Fits) : (c.apply cal l).Fits := by
  have hadds := Credit.adds_apply cal l c
  have hword : ∀ {n before after : Nat}, Added n before after → before ≤ u64Max →
      after ≤ u64Max := by
    intro n before after hadded hle
    rw [hadded.eq_addU64 hle]
    exact addU64_le_max _ _
  exact ⟨hword hadds.used h.used, hword hadds.learning h.learning,
    hword hadds.unrecognised h.unrecognised, fun id => hword (hadds.buckets id) (h.buckets id),
    hword hadds.usedWeek h.usedWeek, fun id => hword (hadds.bucketsWeek id) (h.bucketsWeek id)⟩

theorem Dated.parses (hcal : cal.ReadsBack) (hl : l.Dated d) (now : Int) :
    (daysAhead cal.parse l.day.key (l.dayKeyAt cal now)).isSome ∧
      (daysAhead cal.parse l.week.key (l.weekKeyAt cal now)).isSome := by
  rw [hl.key, hl.week, dayKeyAt, weekKeyAt, Tz.dayKey, Tz.weekKey, daysAhead, daysAhead]
  simp only [hcal _]
  exact ⟨rfl, rfl⟩

/-- On an unconfirmed clock a roll sets aside, or does nothing. -/
theorem roll_setsAside (htrust : l.clockTrusted = false)
    (hday : (daysAhead cal.parse l.day.key (l.dayKeyAt cal now)).isSome)
    (hweek : (daysAhead cal.parse l.week.key (l.weekKeyAt cal now)).isSome) :
    l.roll cal now = { l with
      day := if l.dayHasRolled cal now then
          ⟨fresh (l.dayKeyAt cal now), pushPreRoll l.day.chain l.day.current⟩ else l.day
      week := if l.weekHasRolled cal now then
          ⟨fresh (l.weekKeyAt cal now), pushPreRoll l.week.chain l.week.current⟩ else l.week } := by
  have hnone := roll_untrusted_restored (b := 1) hday
  rw [roll, htrust, hnone, roll_untrusted hday, roll_untrusted hweek]
  simp only [settleNights, dayHasRolled, weekHasRolled, decide_eq_true_eq]

theorem Dated.roll_eq (hcal : cal.ReadsBack) (hl : l.Dated d) (now : Int) :
    l.roll cal now = { l with
      day := if l.dayHasRolled cal now then
          ⟨fresh (l.dayKeyAt cal now), pushPreRoll l.day.chain l.day.current⟩ else l.day
      week := if l.weekHasRolled cal now then
          ⟨fresh (l.weekKeyAt cal now), pushPreRoll l.week.chain l.week.current⟩ else l.week } :=
  roll_setsAside hl.untrusted (hl.parses hcal now).1 (hl.parses hcal now).2

/-- A roll at an instant of a four-digit year dates the ledger at the later day. -/
theorem Dated.roll (hcal : cal.ReadsBack) (hl : l.Dated d)
    (hn : FourDigitYear ((l.zone cal).localDay now)) :
    (l.roll cal now).Dated (max d ((l.zone cal).localDay now)) := by
  rw [hl.roll_eq hcal, hl.dayHasRolled hn, hl.weekHasRolled hn]
  by_cases hadv : d < (l.zone cal).localDay now
  · have hquiet : ∀ e ∈ pushPreRoll l.day.chain l.day.current, e.outOfHoursTodaySecs = 0 := by
      refine forall_pushPreRoll ?_ hl.quiet.2 hl.quiet.1
      intro t u ht hu
      change addU64 u.outOfHoursTodaySecs t.outOfHoursTodaySecs = 0
      rw [ht, hu]
      rfl
    rw [max_eq_right hadv.le, if_pos (decide_eq_true hadv)]
    by_cases hweek : weekStartDay l.weekStart.fromSunday d <
        weekStartDay l.weekStart.fromSunday ((l.zone cal).localDay now)
    · rw [if_pos (decide_eq_true hweek)]
      refine ⟨hl.untrusted, rfl, hn, rfl, ?_, ⟨rfl, hquiet⟩, ⟨rfl, rfl⟩⟩
      constructor <;> simp [PreRoll.fresh]
    · have hsame := le_antisymm (not_lt.mp hweek) (weekStartDay_mono hadv.le)
      rw [if_neg (by simpa using hweek)]
      refine ⟨hl.untrusted, rfl, hn, ?_, ?_, ⟨rfl, hquiet⟩, hl.quietWeek⟩
      · exact hl.week.trans (congrArg dateKey hsame.symm)
      · refine ⟨?_, ?_, ?_, ?_, hl.fits.usedWeek, hl.fits.bucketsWeek⟩ <;> simp [PreRoll.fresh]
  · have hweek : ¬weekStartDay l.weekStart.fromSunday d <
        weekStartDay l.weekStart.fromSunday ((l.zone cal).localDay now) :=
      not_lt.mpr (weekStartDay_mono (not_lt.mp hadv))
    rw [max_eq_left (not_lt.mp hadv), if_neg (by simpa using hadv), if_neg (by simpa using hweek)]
    exact hl

/-- And so does a credit. -/
theorem Dated.credit (hcal : cal.ReadsBack) (hl : l.Dated d) {c : Credit}
    (hn : FourDigitYear ((l.zone cal).localDay c.now)) :
    (c.apply cal l).Dated (max d ((l.zone cal).localDay c.now)) := by
  have hadds := Credit.adds_apply cal l c
  have hrolled := hl.roll hcal hn
  obtain ⟨hooh, hoohWeek, hnights⟩ := apply_outOfHours cal l c
  refine ⟨hadds.clockTrusted.trans hrolled.untrusted, hadds.dayKey.trans hrolled.key, hrolled.year,
    ?_, hrolled.fits.apply, ⟨hooh.trans hrolled.quiet.1, ?_⟩,
    ⟨hoohWeek.trans hrolled.quietWeek.1, hnights.trans hrolled.quietWeek.2⟩⟩
  · rw [hadds.weekKey, hrolled.week, hadds.weekStart]
  · rw [hadds.dayChain]
    exact hrolled.quiet.2

/-- A run of credits ends on some day. -/
theorem Dated.credited (hcal : cal.ReadsBack) (hl : l.Dated d) (cs : List Credit)
    (hcs : ∀ c ∈ cs, FourDigitYear ((l.zone cal).localDay c.now)) :
    ∃ d', (credited cal l cs).Dated d' := by
  induction cs generalizing l d with
  | nil => exact ⟨d, hl⟩
  | cons c cs ih =>
    have hstep := hl.credit hcal (hcs c List.mem_cons_self)
    have hzone : (c.apply cal l).zone cal = l.zone cal := by rw [zone, zone, Credit.apply_tz]
    refine ih hstep ?_
    intro c' hc'
    rw [hzone]
    exact hcs c' (List.mem_cons_of_mem _ hc')

/-! ## The trusted credit -/

variable (l) in
/-- Every counter of one ledger is at least another's. -/
structure Keeps (l' : UsageLedger) : Prop where
  used : l.day.current.usedTodaySecs ≤ l'.day.current.usedTodaySecs
  learning : l.day.current.learningTodaySecs ≤ l'.day.current.learningTodaySecs
  unrecognised : l.day.current.unrecognisedTodaySecs ≤ l'.day.current.unrecognisedTodaySecs
  outOfHours : l.day.current.outOfHoursTodaySecs ≤ l'.day.current.outOfHoursTodaySecs
  minutes : l.day.current.minutesToday.bits ⊆ l'.day.current.minutesToday.bits
  buckets : ∀ id, l.day.current.bucketTodaySecs id ≤ l'.day.current.bucketTodaySecs id
  usedWeek : l.week.current.usedWeekSecs ≤ l'.week.current.usedWeekSecs
  outOfHoursWeek : l.week.current.outOfHoursWeekSecs ≤ l'.week.current.outOfHoursWeekSecs
  nights : l.week.current.outOfHoursNightsWeek ≤ l'.week.current.outOfHoursNightsWeek
  bucketsWeek : ∀ id, l.week.current.bucketWeekSecs id ≤ l'.week.current.bucketWeekSecs id

variable (cal l) in
/-- **Recovery.**  One call on a confirmed clock leaves the keys on its instant's day and week
or on the ones that follow, and a roll to a day that is not past the ledger's lowers no counter,
whether the clock is confirmed or not. -/
structure Recovers : Prop where
  dayKey : ∀ c : Credit, FourDigitYear ((l.zone cal).localDay c.now) →
    (c.apply cal (l.setClockTrusted true)).day.key = dateKey ((l.zone cal).localDay c.now) ∨
      (c.apply cal (l.setClockTrusted true)).day.key = dateKey ((l.zone cal).localDay c.now + 1)
  weekKey : ∀ c : Credit, FourDigitYear ((l.zone cal).localDay c.now) →
    (c.apply cal (l.setClockTrusted true)).week.key = l.weekKeyAt cal c.now ∨
      (c.apply cal (l.setClockTrusted true)).week.key =
        dateKey (weekStartDay l.weekStart.fromSunday ((l.zone cal).localDay c.now) + 7)
  kept : ∀ trusted now, FourDigitYear ((l.zone cal).localDay now) →
    l.dayHasRolled cal now = false →
      l.Keeps ((l.setClockTrusted trusted).roll cal now)

/-- A dated ledger recovers its day. -/
theorem Dated.dayKey (hcal : cal.ReadsBack) (hl : l.Dated d) {c : Credit}
    (hn : FourDigitYear ((l.zone cal).localDay c.now)) :
    (c.apply cal (l.setClockTrusted true)).day.key = dateKey ((l.zone cal).localDay c.now) ∨
      (c.apply cal (l.setClockTrusted true)).day.key =
        dateKey ((l.zone cal).localDay c.now + 1) := by
  have hkey := (Credit.adds_apply cal (l.setClockTrusted true) c).dayKey
  rw [((l.setClockTrusted true).rolled_roll cal c.now).day, roll_key] at hkey
  rw [hkey]
  rcases currentKey_trusted (b := 1) (t := l.day) hcal (n := (l.zone cal).localDay c.now) hl.key
    with hcurrent | ⟨hcurrent, hnot, hle⟩
  · exact Or.inl hcurrent
  · rw [dateKey_lt_iff hl.year hn] at hnot
    rcases (not_lt.mp hnot).eq_or_lt with heq | hlt
    · exact Or.inl (hcurrent.trans (congrArg dateKey heq.symm))
    · have hnext : d = (l.zone cal).localDay c.now + 1 := by omega
      exact Or.inr (hcurrent.trans (congrArg dateKey hnext))

/-- And its week. -/
theorem Dated.weekKey (hcal : cal.ReadsBack) (hl : l.Dated d) {c : Credit}
    (hn : FourDigitYear ((l.zone cal).localDay c.now)) :
    (c.apply cal (l.setClockTrusted true)).week.key = l.weekKeyAt cal c.now ∨
      (c.apply cal (l.setClockTrusted true)).week.key =
        dateKey (weekStartDay l.weekStart.fromSunday ((l.zone cal).localDay c.now) + 7) := by
  have hkey := (Credit.adds_apply cal (l.setClockTrusted true) c).weekKey
  rw [((l.setClockTrusted true).rolled_roll cal c.now).weekKey, roll_key] at hkey
  rw [hkey]
  rcases currentKey_trusted (b := 7) (t := l.week) hcal
      (n := weekStartDay l.weekStart.fromSunday ((l.zone cal).localDay c.now)) hl.week with
    hcurrent | ⟨hcurrent, hnot, hle⟩
  · exact Or.inl hcurrent
  · rw [weekKey_lt_iff hl.year hn] at hnot
    rcases weekStartDay_next (not_lt.mp hnot) hle with hsame | hnext
    · exact Or.inl (hcurrent.trans (congrArg dateKey hsame))
    · exact Or.inr (hcurrent.trans (congrArg dateKey hnext))

/-- Where nothing was marked out of hours, no night is settled. -/
theorem Dated.roll_tracks (hl : l.Dated d) (trusted : Bool) (now : Int) :
    (l.setClockTrusted trusted).roll cal now = { l with
      day := (l.day.roll cal.parse trusted 1 (l.dayKeyAt cal now)).1
      week := (l.week.roll cal.parse trusted 7 (l.weekKeyAt cal now)).1
      clockTrusted := trusted } := by
  change settleNights _ (l.day.roll cal.parse trusted 1 (l.dayKeyAt cal now)).2 = _
  cases hr : (l.day.roll cal.parse trusted 1 (l.dayKeyAt cal now)).2 with
  | none => rfl
  | some r =>
    have hzero : r.outOfHoursTodaySecs = 0 :=
      roll_restored_read outOfHoursMeter hl.quiet.2 hr
    simp only [settleNights, hzero, lt_irrefl, false_and, if_false]
    rfl

/-- A track that does not advance loses nothing. -/
theorem read_le_stay {T : Type} [PreRoll T] (m : Meter T) {parse : String → Option Int}
    {trusted : Bool} {b : Int} {computed : String} {t : Track T} (h : m.read t.current ≤ u64Max)
    (hstay : ¬t.key < computed) :
    m.read t.current ≤ m.read (t.roll parse trusted b computed).1.current := by
  have hle := m.read_le_roll parse trusted b computed h
  rwa [if_neg hstay] at hle

/-- A roll that does not advance the day keeps every counter. -/
theorem Dated.keeps (hl : l.Dated d) (trusted : Bool)
    (hn : FourDigitYear ((l.zone cal).localDay now)) (hday : l.dayHasRolled cal now = false) :
    l.Keeps ((l.setClockTrusted trusted).roll cal now) := by
  have hweek : l.weekHasRolled cal now = false := by
    rw [hl.dayHasRolled hn, decide_eq_false_iff_not, not_lt] at hday
    rw [hl.weekHasRolled hn, decide_eq_false_iff_not, not_lt]
    exact weekStartDay_mono hday
  have hdayStay : ¬l.day.key < l.dayKeyAt cal now := of_decide_eq_false hday
  have hweekStay : ¬l.week.key < l.weekKeyAt cal now := of_decide_eq_false hweek
  rw [hl.roll_tracks]
  constructor
  case used => exact read_le_stay usedTodayMeter hl.fits.used hdayStay
  case learning => exact read_le_stay learningMeter hl.fits.learning hdayStay
  case unrecognised => exact read_le_stay unrecognisedMeter hl.fits.unrecognised hdayStay
  case buckets => exact fun id => read_le_stay (bucketMeter id) (hl.fits.buckets id) hdayStay
  case usedWeek => exact read_le_stay usedWeekMeter hl.fits.usedWeek hweekStay
  case bucketsWeek =>
    exact fun id => read_le_stay (bucketWeekMeter id) (hl.fits.bucketsWeek id) hweekStay
  case outOfHours => exact hl.quiet.1 ▸ Nat.zero_le _
  case outOfHoursWeek => exact hl.quietWeek.1 ▸ Nat.zero_le _
  case nights => exact hl.quietWeek.2 ▸ Nat.zero_le _
  case minutes =>
    rcases roll_current cal.parse trusted 1 (l.dayKeyAt cal now) l.day with
      ⟨hlt, -⟩ | ⟨-, hsame | hmoved | ⟨r, hmerged⟩⟩
    · exact absurd hlt hdayStay
    · rw [hsame]
    · rw [hmoved]
      exact Finset.Subset.refl _
    · rw [hmerged]
      exact Finset.subset_union_left

/-- **A clock that ran ahead is recovered from.**  However a fresh ledger was credited on an
unconfirmed clock in four-digit years, with whatever chain that left, one credit on a confirmed
one puts it on its instant's day and week or the ones that follow, and a roll to a day that is
not past the ledger's takes nothing away. -/
theorem recovers_credited (hcal : cal.ReadsBack) (tz : String) (weekStart : WeekStart) {t₀ : Int}
    (ht₀ : FourDigitYear ((Tz.ofName cal.zones tz).localDay t₀)) (cs : List Credit)
    (hcs : ∀ c ∈ cs, FourDigitYear ((Tz.ofName cal.zones tz).localDay c.now)) :
    (credited cal (new cal tz weekStart t₀) cs).Recovers cal := by
  obtain ⟨d, hl⟩ := (dated_new tz weekStart ht₀).credited hcal cs hcs
  exact ⟨fun _ hn => hl.dayKey hcal hn, fun _ hn => hl.weekKey hcal hn,
    fun trusted _ hn hday => hl.keeps trusted hn hday⟩

/-- The minute a day ahead is back on the real day, the hour with it. -/
theorem recovers_credited_dayAhead :
    (credited utcCalendar noonLedger dayAhead).Recovers utcCalendar := by
  have hday : FourDigitYear ((Tz.ofName utcCalendar.zones "UTC").localDay 1782734400) := by
    decide +kernel
  exact recovers_credited utcCalendar_readsBack "UTC" .mon hday dayAhead (by decide +kernel)

end UsageLedger
end Kintrinsic
