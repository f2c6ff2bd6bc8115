import Kintrinsic.RemainingLaws

/-! # Usage pooled over devices

A view of the other devices only ever adds to what the device counted itself.  Under the rule
of minutes a minute used on two devices is one minute; the rule of seconds, which pools the
week and every day one of the two journals is missing for, adds the figures up as they are. -/
namespace Kintrinsic

open MachineWord

/-- `c'` tells of the day and week that `c` tells of, and of no fewer minutes or seconds. -/
structure ConsolidatedUsage.Gains (c c' : ConsolidatedUsage) : Prop where
  dayKey : c'.dayKey = c.dayKey
  weekKey : ∀ k ∈ c.weekKey, k ∈ c'.weekKey
  today : c.spentElsewhereTodaySecs ≤ c'.spentElsewhereTodaySecs
  week : ∀ n ∈ c.spentElsewhereWeekSecs, ∃ n' ∈ c'.spentElsewhereWeekSecs, n ≤ n'
  minutes : ∀ s ∈ c.elsewhereMinutesToday, ∃ s' ∈ c'.elsewhereMinutesToday, s.bits ⊆ s'.bits

/-- The view of one other device that kept a minute journal. -/
def ConsolidatedUsage.ofMinutes (dayKey : String) (secs : Nat) (s : MinuteSet) :
    ConsolidatedUsage :=
  ⟨dayKey, secs, none, none, some s⟩

namespace MinuteSet

/-- A minute in both sets counts once in their union. -/
theorem count_union_add_count_inter (s t : MinuteSet) :
    (s.union t).count + (s.bits ∩ t.bits).card = s.count + t.count :=
  Finset.card_union_add_card_inter _ _

end MinuteSet

namespace UsageLedger
variable {cal : Calendar} {usage : UsageLedger} {c c' : ConsolidatedUsage} {now : Int}

/-- The two rules of the day, and the two ways a view is of no use to it. -/
theorem pooledToday_some (cal : Calendar) (usage : UsageLedger) (c : ConsolidatedUsage)
    (now : Int) :
    (∃ s, c.dayKey = usage.currentDayKey cal now ∧ c.elsewhereMinutesToday = some s ∧
      usage.journalled cal now = true ∧
      usage.pooledToday cal (some c) now =
        max (((usage.minutesToday cal now).union s).count * 60) (usage.usedToday cal now)) ∨
    (c.dayKey = usage.currentDayKey cal now ∧
      usage.pooledByMinutes cal (some c) now = false ∧
      usage.pooledToday cal (some c) now =
        addU64 (usage.usedToday cal now) c.spentElsewhereTodaySecs) ∨
    (c.dayKey ≠ usage.currentDayKey cal now ∧
      usage.pooledToday cal (some c) now = usage.usedToday cal now) := by
  simp only [pooledToday, pooledByMinutes, Option.any_some]
  by_cases hkey : c.dayKey = usage.currentDayKey cal now
  · rw [if_pos hkey]
    cases hs : c.elsewhereMinutesToday with
    | none => exact .inr (.inl ⟨hkey, by simp, rfl⟩)
    | some s =>
      cases hj : usage.journalled cal now with
      | true => exact .inl ⟨s, hkey, rfl, rfl, rfl⟩
      | false => exact .inr (.inl ⟨hkey, by simp, rfl⟩)
  · exact .inr (.inr ⟨hkey, if_neg hkey⟩)

/-- The week's rule, and the view that is of no use to it. -/
theorem pooledWeek_some (cal : Calendar) (usage : UsageLedger) (c : ConsolidatedUsage)
    (now : Int) :
    (∃ n, c.weekKey = some (usage.currentWeekKey cal now) ∧ c.spentElsewhereWeekSecs = some n ∧
      usage.pooledWeek cal (some c) now = addU64 (usage.usedWeek cal now) n) ∨
    ((c.weekKey = some (usage.currentWeekKey cal now) → c.spentElsewhereWeekSecs = none) ∧
      usage.pooledWeek cal (some c) now = usage.usedWeek cal now) := by
  simp only [pooledWeek]
  cases hk : c.weekKey with
  | none => exact .inr ⟨fun h => absurd h.symm (Option.some_ne_none _), rfl⟩
  | some wk =>
    cases hn : c.spentElsewhereWeekSecs with
    | none => exact .inr ⟨fun _ => rfl, rfl⟩
    | some n =>
      dsimp only
      by_cases hwk : wk = usage.currentWeekKey cal now
      · exact .inl ⟨n, congrArg some hwk, rfl, if_pos hwk⟩
      · exact .inr ⟨fun h => absurd (Option.some.inj h) hwk, if_neg hwk⟩

/-- The device's own seconds are the least a pool can be. -/
theorem usedToday_le_pooledToday (hu : usage.Within u64Max)
    (consolidated : Option ConsolidatedUsage) :
    usage.usedToday cal now ≤ usage.pooledToday cal consolidated now := by
  cases consolidated with
  | none => exact le_rfl
  | some c =>
    rcases pooledToday_some cal usage c now with ⟨s, _, _, _, h⟩ | ⟨_, _, h⟩ | ⟨_, h⟩
    · rw [h]
      exact le_max_right _ _
    · rw [h]
      exact le_addU64 (usedToday_le cal now hu) _
    · exact h.ge

theorem usedWeek_le_pooledWeek (hu : usage.Within u64Max)
    (consolidated : Option ConsolidatedUsage) :
    usage.usedWeek cal now ≤ usage.pooledWeek cal consolidated now := by
  cases consolidated with
  | none => exact le_rfl
  | some c =>
    rcases pooledWeek_some cal usage c now with ⟨n, _, _, h⟩ | ⟨_, h⟩
    · rw [h]
      exact le_addU64 (usedWeek_le cal now hu) _
    · exact h.ge

theorem pooledToday_of_other_day (h : c.dayKey ≠ usage.currentDayKey cal now) :
    usage.pooledToday cal (some c) now = usage.usedToday cal now := by
  rw [pooledToday]
  exact if_neg h

theorem pooledWeek_of_other_week (h : c.weekKey ≠ some (usage.currentWeekKey cal now)) :
    usage.pooledWeek cal (some c) now = usage.usedWeek cal now := by
  rcases pooledWeek_some cal usage c now with ⟨n, hk, _, _⟩ | ⟨_, heq⟩
  · exact absurd hk h
  · exact heq

/-- The rule of minutes. -/
theorem pooledToday_of_byMinutes {s : MinuteSet} (hs : c.elsewhereMinutesToday = some s)
    (h : usage.pooledByMinutes cal (some c) now = true) :
    usage.pooledToday cal (some c) now =
      max (((usage.minutesToday cal now).union s).count * 60) (usage.usedToday cal now) := by
  simp only [pooledByMinutes, Option.any_some, Bool.and_eq_true, decide_eq_true_eq] at h
  rcases pooledToday_some cal usage c now with ⟨s', _, hs', _, heq⟩ | ⟨_, hr, _⟩ | ⟨hk, _⟩
  · obtain rfl := Option.some.inj (hs.symm.trans hs')
    exact heq
  · simp [pooledByMinutes, h.1.1, h.1.2, h.2] at hr
  · exact absurd h.1.1 hk

/-- **The pool grows with its view** as long as the day does not change from the rule of
seconds to the rule of minutes. -/
theorem pooledToday_gains (hu : usage.Within u64Max) (h : c.Gains c')
    (hrule : usage.pooledByMinutes cal (some c') now = true →
      usage.pooledByMinutes cal (some c) now = true) :
    usage.pooledToday cal (some c) now ≤ usage.pooledToday cal (some c') now := by
  rcases pooledToday_some cal usage c now with ⟨s, hk, hs, hj, heq⟩ | ⟨hk, hr, heq⟩ | ⟨_, heq⟩
  · obtain ⟨s', hs', hsub⟩ := h.minutes s hs
    have hby : usage.pooledByMinutes cal (some c') now = true := by
      simp [pooledByMinutes, h.dayKey, hk, Option.mem_def.mp hs', hj]
    rw [heq, pooledToday_of_byMinutes hs' hby]
    refine max_le_max (Nat.mul_le_mul_right 60 ?_) le_rfl
    exact MinuteSet.count_mono (Finset.union_subset_union_right hsub)
  · have hr' : usage.pooledByMinutes cal (some c') now ≠ true := by
      intro hby
      rw [hrule hby] at hr
      cases hr
    rcases pooledToday_some cal usage c' now with ⟨s', hk', hs', hj, _⟩ | ⟨_, _, heq'⟩ | ⟨hk', _⟩
    · exact absurd (by simp [pooledByMinutes, hk', hs', hj]) hr'
    · rw [heq, heq']
      exact addU64_mono le_rfl h.today
    · exact absurd (h.dayKey.trans hk) hk'
  · rw [heq]
    exact usedToday_le_pooledToday hu _

theorem pooledWeek_gains (hu : usage.Within u64Max) (h : c.Gains c') :
    usage.pooledWeek cal (some c) now ≤ usage.pooledWeek cal (some c') now := by
  rcases pooledWeek_some cal usage c now with ⟨n, hk, hn, heq⟩ | ⟨_, heq⟩
  · obtain ⟨n', hn', hle⟩ := h.week n hn
    have hk' : c'.weekKey = some (usage.currentWeekKey cal now) := h.weekKey _ hk
    rcases pooledWeek_some cal usage c' now with ⟨m, _, hm, heq'⟩ | ⟨hnone, _⟩
    · obtain rfl := Option.some.inj ((Option.mem_def.mp hn').symm.trans hm)
      rw [heq, heq']
      exact addU64_mono le_rfl hle
    · rw [Option.mem_def.mp hn'] at hnone
      cases hnone hk'
  · rw [heq]
    exact usedWeek_le_pooledWeek hu _

/-- **Pooled usage.**  It is never below the device's own; it is the device's own without a view,
and on the day or in the week the view is not about; under the rule of minutes it is the minutes
of the union, a shared one counted once, and telling the device of its own minutes changes
nothing; and it grows with its view while one rule pools the day. -/
theorem pooledUsed_law (cal : Calendar) {usage : UsageLedger} (hu : usage.Within u64Max)
    (now : Int) :
    (∀ view, usage.usedToday cal now ≤ (usage.pooledUsed cal view now).1 ∧
      usage.usedWeek cal now ≤ (usage.pooledUsed cal view now).2) ∧
    usage.pooledUsed cal none now = (usage.usedToday cal now, usage.usedWeek cal now) ∧
    (∀ c : ConsolidatedUsage,
      (c.dayKey ≠ usage.currentDayKey cal now →
        (usage.pooledUsed cal (some c) now).1 = usage.usedToday cal now) ∧
      (c.weekKey ≠ some (usage.currentWeekKey cal now) →
        (usage.pooledUsed cal (some c) now).2 = usage.usedWeek cal now)) ∧
    (∀ (c : ConsolidatedUsage) (s : MinuteSet), c.elsewhereMinutesToday = some s →
      usage.pooledByMinutes cal (some c) now = true →
      (usage.pooledUsed cal (some c) now).1 =
          max (((usage.minutesToday cal now).union s).count * 60) (usage.usedToday cal now) ∧
        ((usage.minutesToday cal now).union s).count +
            ((usage.minutesToday cal now).bits ∩ s.bits).card =
          (usage.minutesToday cal now).count + s.count ∧
        ∀ t : MinuteSet, t.bits ⊆ (usage.minutesToday cal now).bits →
          (usage.pooledUsed cal (some { c with elsewhereMinutesToday := some (s.union t) }) now).1 =
            (usage.pooledUsed cal (some c) now).1) ∧
    ∀ c c' : ConsolidatedUsage, c.Gains c' →
      ((usage.pooledByMinutes cal (some c') now = true →
          usage.pooledByMinutes cal (some c) now = true) →
        (usage.pooledUsed cal (some c) now).1 ≤ (usage.pooledUsed cal (some c') now).1) ∧
      (usage.pooledUsed cal (some c) now).2 ≤ (usage.pooledUsed cal (some c') now).2 := by
  refine ⟨fun view => ⟨usedToday_le_pooledToday hu view, usedWeek_le_pooledWeek hu view⟩, rfl,
    fun c => ⟨pooledToday_of_other_day, pooledWeek_of_other_week⟩, ?_,
    fun c c' hg => ⟨pooledToday_gains hu hg, pooledWeek_gains hu hg⟩⟩
  intro c s hs hrule
  refine ⟨pooledToday_of_byMinutes hs hrule, MinuteSet.count_union_add_count_inter _ _, ?_⟩
  intro t ht
  have hrule' : usage.pooledByMinutes cal
      (some { c with elsewhereMinutesToday := some (s.union t) }) now = true := by
    simp only [pooledByMinutes, Option.any_some, hs] at hrule ⊢
    exact hrule
  have hunion : (usage.minutesToday cal now).union (s.union t) =
      (usage.minutesToday cal now).union s := by
    simp only [MinuteSet.union, MinuteSet.mk.injEq]
    rw [Finset.union_comm s.bits, ← Finset.union_assoc, Finset.union_eq_left.mpr ht]
  calc (usage.pooledUsed cal (some { c with elsewhereMinutesToday := some (s.union t) }) now).1
      = max (((usage.minutesToday cal now).union (s.union t)).count * 60)
          (usage.usedToday cal now) := pooledToday_of_byMinutes rfl hrule'
    _ = max (((usage.minutesToday cal now).union s).count * 60) (usage.usedToday cal now) := by
        rw [hunion]
    _ = (usage.pooledUsed cal (some c) now).1 := (pooledToday_of_byMinutes hs hrule).symm

/-- One minute of use at noon. -/
def noonMinute : UsageLedger :=
  (new utcCalendar "UTC" .mon 1782734400).credit utcCalendar 1782734400 .active 60

theorem pooledUsed_law_noonMinute :
    (noonMinute.pooledUsed utcCalendar
      (some (.ofMinutes "2026-06-29" 60 noonMinute.day.current.minutesToday))
      1782734400).1 = 60 := by
  have hlaw := (@pooledUsed_law utcCalendar noonMinute
    ⟨by decide +kernel, by decide +kernel⟩ 1782734400).2.2.2.1
    (.ofMinutes "2026-06-29" 60 noonMinute.day.current.minutesToday) _ rfl (by decide +kernel)
  exact hlaw.1.trans (by decide +kernel)

/-- **What the rule of seconds still shows.**  The one minute, told of in seconds by another
device that was used at the same time, is counted twice, in the day and in the week; and an hour
told of in seconds is dropped when the view gains its first minute. -/
theorem pooledUsed_exceptions :
    noonMinute.usedToday utcCalendar 1782734400 = 60 ∧
    noonMinute.usedWeek utcCalendar 1782734400 = 60 ∧
    noonMinute.pooledUsed utcCalendar
      (some ⟨"2026-06-29", noonMinute.usedToday utcCalendar 1782734400, some "2026-06-29",
        some (noonMinute.usedWeek utcCalendar 1782734400), none⟩) 1782734400 = (120, 120) ∧
    ConsolidatedUsage.Gains ⟨"2026-06-29", 3600, none, none, none⟩
      (.ofMinutes "2026-06-29" 3600 noonMinute.day.current.minutesToday) ∧
    (noonMinute.pooledUsed utcCalendar (some ⟨"2026-06-29", 3600, none, none, none⟩)
      1782734400).1 = 3660 ∧
    (noonMinute.pooledUsed utcCalendar
      (some (.ofMinutes "2026-06-29" 3600 noonMinute.day.current.minutesToday))
      1782734400).1 = 60 := by
  refine ⟨by decide +kernel, by decide +kernel, by decide +kernel,
    ⟨rfl, nofun, le_rfl, nofun, nofun⟩, by decide +kernel, by decide +kernel⟩

end UsageLedger
end Kintrinsic
