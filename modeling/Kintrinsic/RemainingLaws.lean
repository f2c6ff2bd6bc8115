import Kintrinsic.ExtensionToday
import Kintrinsic.Remaining
import Kintrinsic.UsageReaders

/-! # Laws of the time-left breakdown

The effective seconds are the least of three countdowns: the schedule's, the budget's and the
stand-down's.  Each of them is monotone in what it reads, as long as no sum leaves its range,
and from that follow the laws of adding a clause, granting, taking back and crediting. -/
namespace Kintrinsic

open Countdown MachineWord

/-! ## Counters far from the ends of their range -/

structure UsageLedger.Within (n : Nat) (l : UsageLedger) : Prop where
  today : l.day.current.usedTodaySecs ≤ n
  week : l.week.current.usedWeekSecs ≤ n

structure ConsolidatedUsage.Within (n : Nat) (c : ConsolidatedUsage) : Prop where
  today : c.spentElsewhereTodaySecs ≤ n
  week : ∀ secs ∈ c.spentElsewhereWeekSecs, secs ≤ n

/-- Every count of seconds that a tick reads is at most `n`. -/
structure EnforcerInputs.Within (n : Nat) (inp : EnforcerInputs) : Prop where
  usage : inp.usage.Within n
  extension : inp.extension.Within n
  consolidated : ∀ c ∈ inp.consolidated, c.Within n

/-! ## The three axes -/

theorem ofSecs_minUnbounded (a b : Int) :
    ofSecs (minUnbounded a b) = min (ofSecs a) (ofSecs b) := by
  unfold minUnbounded
  by_cases ha : a < 0
  · rw [if_pos ha, ofSecs_of_neg ha, min_top_left]
    split
    · rename_i hb
      rw [ofSecs_of_neg hb]
      rfl
    · rfl
  rw [if_neg ha]
  by_cases hb : b < 0
  · rw [if_pos hb, ofSecs_of_neg hb, min_top_right]
  · rw [if_neg hb, ofSecs_min (not_lt.mp ha) (not_lt.mp hb)]

/-- The countdown of a stand-down. -/
def StandDown.countdown (sd : StandDown) : WithTop Nat := .some sd.secsUntilLock.toNat

theorem StandDown.ofSecs_over (sd : StandDown) (charter : Int) :
    ofSecs (sd.over charter) = min (ofSecs charter) sd.countdown := by
  have hcap : ofSecs (max sd.secsUntilLock 0) = sd.countdown := ofSecs_max_zero _
  unfold StandDown.over
  dsimp only
  split
  · rename_i h
    rw [ofSecs_of_neg h, min_top_left, hcap]
  · rename_i h
    rw [ofSecs_min (not_lt.mp h) (le_max_right _ _), hcap]

namespace EnforcerInputs
variable (cal : Calendar) (inp : EnforcerInputs)

/-- The effective countdown. -/
def effective : WithTop Nat := ofSecs (computeRemaining cal inp).effectiveSecs

/-- The countdown of the stand-down in force, if there is one. -/
def standDownAxis : WithTop Nat := (inp.standDown.map StandDown.countdown).getD ⊤

theorem ofSecs_clampLeft (left : Option Int) : ofSecs (clampLeft left) = ofLeft left := by
  cases left with
  | none => rfl
  | some n => exact ofSecs_max_zero n

theorem ofSecs_budgetSecs : ofSecs (inp.budgetSecs cal) =
    min (ofLeft (inp.budgetParts cal).1) (ofLeft (inp.budgetParts cal).2) := by
  rw [budgetSecs, ofSecs_clampLeft, ofLeft_binding]

/-- **The effective countdown is the least of the three axes.** -/
theorem effective_eq : inp.effective cal =
    min (min (ofSecs (inp.scheduleSecs cal)) (ofSecs (inp.budgetSecs cal))) inp.standDownAxis := by
  rw [← ofSecs_minUnbounded, effective, standDownAxis, computeRemaining]
  cases inp.standDown with
  | none => exact (min_top_right _).symm
  | some sd => exact sd.ofSecs_over _

theorem locked_iff :
    (computeRemaining cal inp).locked = true ↔ (computeRemaining cal inp).effectiveSecs = 0 :=
  decide_eq_true_iff

theorem locked_iff_effective :
    (computeRemaining cal inp).locked = true ↔ inp.effective cal = .some 0 := by
  rw [locked_iff, effective, ofSecs_eq_zero]

variable {cal inp}

/-- Shorter axes make a shorter countdown. -/
theorem effective_mono {inp' : EnforcerInputs}
    (hschedule : ofSecs (inp.scheduleSecs cal) ≤ ofSecs (inp'.scheduleSecs cal))
    (hbudget : ofSecs (inp.budgetSecs cal) ≤ ofSecs (inp'.budgetSecs cal))
    (hstand : inp.standDownAxis ≤ inp'.standDownAxis) :
    inp.effective cal ≤ inp'.effective cal := by
  rw [effective_eq, effective_eq]
  exact min_le_min (min_le_min hschedule hbudget) hstand

/-! ## The schedule axis -/

theorem scheduleBase_lt (zones : Zones) (now : Int) (schedule : Option GrantSchedule) :
    (scheduleBase zones now schedule).secs < 345600 := by
  cases schedule with
  | none =>
    show (-1 : Int) < 345600
    decide
  | some s =>
    simp only [scheduleBase]
    split <;> dsimp only
    case h_2 secs h =>
      have hlt := GrantSchedule.secondsToClose_lt h
      omega
    all_goals omega

/-- More extension, or less taken back, is a longer schedule axis. -/
theorem withPools_mono {base : ScheduleBase} {extra extra' deducted deducted' eod : Nat}
    (hbase : base.secs < 345600) (hextra : extra ≤ extra') (hsmall : extra' ≤ 2 ^ 61)
    (hdeducted : deducted' ≤ deducted) :
    ofSecs (base.withPools extra deducted eod) ≤ ofSecs (base.withPools extra' deducted' eod) := by
  unfold ScheduleBase.withPools
  split
  · exact le_rfl
  split
  · exact le_rfl
  rw [wrapU64_of_lt (by omega), wrapU64_of_lt (by omega), ofSecs_le_ofSecs]
  right
  omega

theorem scheduleSecs_le_eod : inp.scheduleSecs cal ≤ inp.eod cal := by
  unfold scheduleSecs ScheduleBase.withPools
  split
  · exact Int.natCast_nonneg _
  split
  · omega
  · exact Int.ofNat_le.mpr (min_le_right _ _)

theorem scheduleSecs_absent (h : inp.schedule = none) : ofSecs (inp.scheduleSecs cal) = ⊤ := by
  rw [scheduleSecs, h]
  rfl

/-- A budget does not move the schedule axis: the zone is the schedule's where there is one. -/
theorem scheduleSecs_addBudget (b : GrantBudget) :
    ofSecs ({ inp with budget := some b }.scheduleSecs cal) = ofSecs (inp.scheduleSecs cal) := by
  cases h : inp.schedule with
  | none => rw [scheduleSecs_absent h, scheduleSecs_absent rfl]
  | some s =>
    unfold scheduleSecs eod enforcementTzOf
    rw [h]
    rfl

theorem budgetSecs_absent (h : inp.budget = none) : ofSecs (inp.budgetSecs cal) = ⊤ := by
  rw [ofSecs_budgetSecs, budgetParts, h]
  rfl

/-! ## The budget axis -/

/-- What one cap of a budget is drawn down by. -/
structure Draw where
  net : Int
  baseline : Option Nat
  pooled : Nat

def Draw.left (d : Draw) (cap : UInt32) : Int := capLeft cap d.baseline d.net d.pooled

/-- No sum with the draw leaves its range. -/
structure Draw.InRange (d : Draw) : Prop where
  lo : -2 ^ 61 ≤ d.net
  hi : d.net ≤ 2 ^ 61
  baseline : ∀ secs ∈ d.baseline, secs ≤ 2 ^ 61
  pooled : d.pooled ≤ 2 ^ 61

/-- A draw that leaves no more than another one: less given, a lower floor, more used. -/
structure Draw.LeavesLess (d d' : Draw) : Prop where
  net : d.net ≤ d'.net
  baseline : d.baseline.getD 0 ≤ d'.baseline.getD 0
  pooled : d'.pooled ≤ d.pooled

theorem allowance_mono {cap : UInt32} {base base' : Option Nat}
    (h : base.getD 0 ≤ base'.getD 0) : allowance cap base ≤ allowance cap base' := by
  unfold allowance
  cases base <;> cases base' <;> simp only [Option.getD_none, Option.getD_some] at h ⊢ <;> omega

theorem Draw.left_mono {d d' : Draw} (hin : d.InRange) (hin' : d'.InRange)
    (hle : d.LeavesLess d') (cap : UInt32) : d.left cap ≤ d'.left cap := by
  obtain ⟨hlo, hhi, hbase, hpooled⟩ := hin
  obtain ⟨hlo', hhi', hbase', hpooled'⟩ := hin'
  obtain ⟨hnet, hfloor, hused⟩ := hle
  have hallowance : allowance cap d.baseline ≤ allowance cap d'.baseline := allowance_mono hfloor
  rw [Draw.left, Draw.left, capLeft_eq hbase hlo hhi hpooled, capLeft_eq hbase' hlo' hhi' hpooled']
  omega

def dayDraw (cal : Calendar) (inp : EnforcerInputs) : Draw where
  net := inp.budgetNet cal
  baseline := (inp.extension.budgetBaselineSecs cal.zones inp.nowUnix).map Prod.fst
  pooled := inp.usage.pooledToday cal inp.consolidated inp.nowUnix

def weekDraw (cal : Calendar) (inp : EnforcerInputs) : Draw where
  net := inp.budgetNet cal
  baseline := (inp.extension.budgetBaselineSecs cal.zones inp.nowUnix).map Prod.snd
  pooled := inp.usage.pooledWeek cal inp.consolidated inp.nowUnix

theorem ofLeft_map_mono {caps : Option UInt32} {f g : UInt32 → Int} (h : ∀ cap, f cap ≤ g cap) :
    ofLeft (caps.map f) ≤ ofLeft (caps.map g) := by
  cases caps with
  | none => exact le_rfl
  | some cap => exact ofLeft_mono (h cap)

/-- **Less given or more used is a shorter budget axis.** -/
theorem budgetSecs_mono {inp' : EnforcerInputs} (hbudget : inp.budget = inp'.budget)
    (hday : ∀ cap, (inp.dayDraw cal).left cap ≤ (inp'.dayDraw cal).left cap)
    (hweek : ∀ cap, (inp.weekDraw cal).left cap ≤ (inp'.weekDraw cal).left cap) :
    ofSecs (inp.budgetSecs cal) ≤ ofSecs (inp'.budgetSecs cal) := by
  rw [ofSecs_budgetSecs, ofSecs_budgetSecs, budgetParts, budgetParts, ← hbudget]
  cases inp.budget with
  | none => exact le_rfl
  | some b =>
    dsimp only
    rcases b.quotaParts_cases cal with hspent | hlifted | hdrawn
    · rw [hspent, hspent]
    · rw [hlifted, hlifted]
    · rw [hdrawn, hdrawn]
      simp only [Draw.left, dayDraw] at hday
      simp only [Draw.left, weekDraw] at hweek
      exact min_le_min (ofLeft_map_mono hday) (ofLeft_map_mono hweek)

end EnforcerInputs

/-! ## Pooled usage in range -/

namespace UsageLedger
variable {cal : Calendar} {usage : UsageLedger} {consolidated : Option ConsolidatedUsage} {now : Int}

theorem usedToday_le (cal : Calendar) (now : Int) {n : Nat} (hu : usage.Within n) :
    usage.usedToday cal now ≤ n := by
  unfold usedToday
  split
  · exact Nat.zero_le _
  · exact hu.today

theorem usedWeek_le (cal : Calendar) (now : Int) {n : Nat} (hu : usage.Within n) :
    usage.usedWeek cal now ≤ n := by
  unfold usedWeek
  split
  · exact Nat.zero_le _
  · exact hu.week

theorem pooledToday_le (hu : usage.Within smallSecs) (hc : ∀ c ∈ consolidated, c.Within smallSecs) :
    usage.pooledToday cal consolidated now ≤ 2 ^ 61 := by
  have hlocal : usage.usedToday cal now ≤ smallSecs := usedToday_le cal now hu
  unfold smallSecs at hlocal
  unfold pooledToday
  cases consolidated with
  | none =>
    dsimp only
    omega
  | some c =>
    have hspent := (hc c rfl).today
    unfold smallSecs at hspent
    have hsum := addU64_le_add (usage.usedToday cal now) c.spentElsewhereTodaySecs
    dsimp only
    split
    · split
      · rename_i elsewhere _
        have hcount := ((usage.minutesToday cal now).union elsewhere).count_le
        split <;> omega
      · omega
    · omega

theorem pooledWeek_le (hu : usage.Within smallSecs) (hc : ∀ c ∈ consolidated, c.Within smallSecs) :
    usage.pooledWeek cal consolidated now ≤ 2 ^ 61 := by
  have hlocal : usage.usedWeek cal now ≤ smallSecs := usedWeek_le cal now hu
  unfold smallSecs at hlocal
  unfold pooledWeek
  cases consolidated with
  | none =>
    dsimp only
    omega
  | some c =>
    dsimp only
    split
    · rename_i wk elsewhere _ hweek
      have hspent := (hc c rfl).week elsewhere hweek
      unfold smallSecs at hspent
      have hsum := addU64_le_add (usage.usedWeek cal now) elsewhere
      split <;> omega
    · omega

end UsageLedger

namespace EnforcerInputs
variable {cal : Calendar} {inp : EnforcerInputs}

theorem budgetNet_eq (h : inp.extension.ReadsWithin cal.zones inp.nowUnix (2 ^ 61)) :
    inp.budgetNet cal = (inp.extension.budgetExtraSecs cal.zones inp.nowUnix : Int) -
      inp.extension.budgetDeductedSecs cal.zones inp.nowUnix := by
  have hextra := h.budgetExtra
  have hdeducted := h.budgetDeducted
  rw [budgetNet, asI64_of_lt (by omega), asI64_of_lt (by omega)]
  exact wrapI64_of_mem (by omega) (by omega)

/-- What a tick reads is in range, its extension pools a grant wider than the rest. -/
structure Roomy (inp : EnforcerInputs) : Prop where
  usage : inp.usage.Within smallSecs
  extension : inp.extension.Within (2 ^ 61)
  consolidated : ∀ c ∈ inp.consolidated, c.Within smallSecs

theorem Within.roomy (h : inp.Within smallSecs) : inp.Roomy :=
  ⟨h.usage, h.extension.mono (by decide), h.consolidated⟩

theorem Roomy.draws (h : inp.Roomy) : (inp.dayDraw cal).InRange ∧ (inp.weekDraw cal).InRange := by
  have hreads : inp.extension.ReadsWithin cal.zones inp.nowUnix (2 ^ 61) := h.extension.reads
  have hextra := hreads.budgetExtra
  have hdeducted := hreads.budgetDeducted
  have hnet := budgetNet_eq hreads
  have hlo : -2 ^ 61 ≤ inp.budgetNet cal := by omega
  have hhi : inp.budgetNet cal ≤ 2 ^ 61 := by omega
  refine ⟨⟨hlo, hhi, ?_, UsageLedger.pooledToday_le h.usage h.consolidated⟩,
    hlo, hhi, ?_, UsageLedger.pooledWeek_le h.usage h.consolidated⟩
  · intro secs hsecs
    obtain ⟨p, hp, rfl⟩ := Option.map_eq_some_iff.mp hsecs
    exact (hreads.baseline p hp).1
  · intro secs hsecs
    obtain ⟨p, hp, rfl⟩ := Option.map_eq_some_iff.mp hsecs
    exact (hreads.baseline p hp).2

/-- **Pools that give less make a shorter countdown.** -/
theorem effective_mono_extension {l l' : ExtensionLedger} (h : { inp with extension := l }.Roomy)
    (h' : { inp with extension := l' }.Roomy)
    (hle : (l.today cal.zones inp.nowUnix).GivesLess (l'.today cal.zones inp.nowUnix)) :
    { inp with extension := l }.effective cal ≤ { inp with extension := l' }.effective cal := by
  have hreads : l.ReadsWithin cal.zones inp.nowUnix (2 ^ 61) := h.extension.reads
  have hreads' : l'.ReadsWithin cal.zones inp.nowUnix (2 ^ 61) := h'.extension.reads
  obtain ⟨hschedule, hdeduct, hextra, hdeducted, hfloor⟩ := hle
  simp only [ExtensionLedger.today] at hschedule hdeduct hextra hdeducted hfloor
  have hnet : { inp with extension := l }.budgetNet cal ≤
      { inp with extension := l' }.budgetNet cal := by
    rw [budgetNet_eq hreads, budgetNet_eq hreads']
    dsimp only
    omega
  have hfst : ∀ q : Option (Nat × Nat), (q.map Prod.fst).getD 0 = (q.getD (0, 0)).1 := by
    rintro (_ | q) <;> rfl
  have hsnd : ∀ q : Option (Nat × Nat), (q.map Prod.snd).getD 0 = (q.getD (0, 0)).2 := by
    rintro (_ | q) <;> rfl
  refine effective_mono ?_ ?_ le_rfl
  · exact withPools_mono (scheduleBase_lt _ _ _) hschedule hreads'.scheduleExtra hdeduct
  · refine budgetSecs_mono rfl (Draw.left_mono h.draws.1 h'.draws.1 ⟨hnet, ?_, le_rfl⟩)
      (Draw.left_mono h.draws.2 h'.draws.2 ⟨hnet, ?_, le_rfl⟩)
    · simp only [dayDraw, hfst]
      exact hfloor.1
    · simp only [weekDraw, hsnd]
      exact hfloor.2

/-- More pooled usage makes a shorter countdown. -/
theorem effective_mono_usage {usage : UsageLedger} (h : inp.Roomy)
    (h' : { inp with usage := usage }.Roomy)
    (htoday : inp.usage.pooledToday cal inp.consolidated inp.nowUnix ≤
      usage.pooledToday cal inp.consolidated inp.nowUnix)
    (hweek : inp.usage.pooledWeek cal inp.consolidated inp.nowUnix ≤
      usage.pooledWeek cal inp.consolidated inp.nowUnix) :
    { inp with usage := usage }.effective cal ≤ inp.effective cal := by
  refine effective_mono le_rfl ?_ le_rfl
  exact budgetSecs_mono rfl (Draw.left_mono h'.draws.1 h.draws.1 ⟨le_rfl, le_rfl, htoday⟩)
    (Draw.left_mono h'.draws.2 h.draws.2 ⟨le_rfl, le_rfl, hweek⟩)

/-- `apply_extension`: a new budget grant records where the debt stood. -/
def applyExtension (cal : Calendar) (inp : EnforcerInputs) (reqId : String) (minutes : UInt16)
    (dim : Dimension) : ExtensionLedger :=
  let r := inp.extension.apply cal.zones inp.nowUnix reqId minutes.toNat dim
  if r.1 ∧ dim = .budget then
    r.2.noteBudgetBaseline cal.zones inp.nowUnix (inp.usage.usedToday cal inp.nowUnix)
      (inp.usage.usedWeek cal inp.nowUnix)
  else r.2

open ExtensionLedger in
/-- A grant gives with the floor it records, too. -/
theorem applyExtension_gives (h : inp.Within smallSecs) (reqId : String) (minutes : UInt16)
    (dim : Dimension) :
    (inp.extension.roll cal.zones inp.nowUnix).SameDay (inp.applyExtension cal reqId minutes dim) ∧
      (inp.extension.roll cal.zones inp.nowUnix).held.GivesLess
        (inp.applyExtension cal reqId minutes dim).held := by
  have happly : (inp.extension.roll cal.zones inp.nowUnix).SameDay
      (inp.extension.apply cal.zones inp.nowUnix reqId minutes.toNat dim).2 ∧ _ :=
    apply_gives h.extension reqId minutes dim
  unfold applyExtension
  generalize inp.extension.apply cal.zones inp.nowUnix reqId minutes.toNat dim = r at happly
  obtain ⟨hsame, hgives⟩ := happly
  dsimp only
  split
  · have hday : r.2.dayKeyAt cal.zones inp.nowUnix = r.2.dayKey := by
      rw [dayKeyAt, zone, hsame.tz, hsame.dayKey]
      exact roll_current_day
    have hlarge : smallSecs ≤ 2 ^ 61 := by decide
    obtain ⟨hsame', hgives'⟩ := noteBudgetBaseline_gives hday hsame.within
      ((UsageLedger.usedToday_le cal inp.nowUnix h.usage).trans hlarge)
      ((UsageLedger.usedWeek_le cal inp.nowUnix h.usage).trans hlarge)
    exact ⟨⟨hsame'.tz.trans hsame.tz, hsame'.dayKey.trans hsame.dayKey, hsame'.within⟩,
      hgives.trans hgives'⟩
  · exact ⟨hsame, hgives⟩

theorem Roomy.extend (h : inp.Within smallSecs) {l : ExtensionLedger}
    (hl : (inp.extension.roll cal.zones inp.nowUnix).SameDay l) :
    { inp with extension := l }.Roomy :=
  ⟨h.usage, hl.within, h.consolidated⟩

theorem effective_of_gives (h : inp.Within smallSecs) {l : ExtensionLedger}
    (hl : (inp.extension.roll cal.zones inp.nowUnix).SameDay l)
    (hgives : (inp.extension.roll cal.zones inp.nowUnix).held.GivesLess l.held) :
    inp.effective cal ≤ { inp with extension := l }.effective cal := by
  refine effective_mono_extension h.roomy (Roomy.extend h hl) ?_
  rw [hl.today, ExtensionLedger.today_roll]
  exact hgives

theorem effective_of_takes (h : inp.Within smallSecs) {l : ExtensionLedger}
    (hl : (inp.extension.roll cal.zones inp.nowUnix).SameDay l)
    (htakes : l.held.GivesLess (inp.extension.roll cal.zones inp.nowUnix).held) :
    { inp with extension := l }.effective cal ≤ inp.effective cal := by
  refine effective_mono_extension (Roomy.extend h hl) h.roomy ?_
  rw [hl.today, ExtensionLedger.today_roll]
  exact htakes

theorem effective_of_credit (h : inp.Within smallSecs) {c : Credit} (hnow : c.now = inp.nowUnix)
    (hafter : (c.apply cal inp.usage).Within smallSecs)
    (hrule : inp.usage.pooledByMinutes cal inp.consolidated inp.nowUnix =
      (c.apply cal inp.usage).pooledByMinutes cal inp.consolidated inp.nowUnix) :
    { inp with usage := c.apply cal inp.usage }.effective cal ≤ inp.effective cal := by
  have hmax : smallSecs ≤ u64Max := by decide
  rw [← hnow] at hrule
  have htoday := UsageLedger.pooledToday_mono (UsageLedger.currentDayKey_credit c).symm
    (UsageLedger.usedToday_le_credit c (h.usage.today.trans hmax))
    (UsageLedger.minutesToday_subset_credit c) hrule
  have hweek : inp.usage.pooledWeek cal inp.consolidated c.now ≤
      (c.apply cal inp.usage).pooledWeek cal inp.consolidated c.now :=
    UsageLedger.pooledWeek_mono (UsageLedger.currentWeekKey_credit c).symm
      (UsageLedger.usedWeek_le_credit c (h.usage.week.trans hmax))
  rw [hnow] at htoday hweek
  exact effective_mono_usage h.roomy ⟨hafter, h.roomy.extension, h.consolidated⟩ htoday hweek

/-- A stand-down that has landed locks. -/
theorem effective_landed (sd : StandDown) (h : sd.secsUntilLock ≤ 0)
    (hsd : inp.standDown = some sd) : inp.effective cal = .some 0 := by
  rw [effective_eq, standDownAxis, hsd, Option.map_some, Option.getD_some, StandDown.countdown,
    Int.toNat_of_nonpos h]
  exact min_eq_right bot_le

end EnforcerInputs

/-! ## The laws -/

/-- **The laws of the breakdown** at one input.  The monotone ones read at the instant of the
change, and with counters far from the ends of their range. -/
structure RemainingLaws (cal : Calendar) (inp : EnforcerInputs) : Prop where
  locked : (computeRemaining cal inp).locked = true ↔ (computeRemaining cal inp).effectiveSecs = 0
  least : ofSecs (computeRemaining cal inp).effectiveSecs =
    min (min (ofSecs (computeRemaining cal inp).scheduleSecs)
      (ofSecs (computeRemaining cal inp).budgetSecs)) inp.standDownAxis
  noSchedule : inp.schedule = none → ofSecs (computeRemaining cal inp).scheduleSecs = ⊤
  noBudget : inp.budget = none → ofSecs (computeRemaining cal inp).budgetSecs = ⊤
  landed : ∀ (sd : StandDown) (l : ExtensionLedger), sd.secsUntilLock ≤ 0 →
    (computeRemaining cal { inp with standDown := some sd, extension := l }).locked = true
  dayEnd : (computeRemaining cal inp).scheduleSecs ≤ inp.eod cal
  addSchedule : inp.schedule = none → ∀ s : GrantSchedule,
    { inp with schedule := some s }.effective cal ≤ inp.effective cal
  addBudget : inp.budget = none → ∀ b : GrantBudget,
    { inp with budget := some b }.effective cal ≤ inp.effective cal
  addStandDown : inp.standDown = none → ∀ sd : StandDown,
    { inp with standDown := some sd }.effective cal ≤ inp.effective cal
  deduct : inp.Within smallSecs → ∀ (reqId : String) (minutes : UInt16) (dim : Dimension),
    { inp with
      extension := (inp.extension.deduct cal.zones inp.nowUnix reqId minutes.toNat dim).2
      }.effective cal ≤ inp.effective cal
  credit : inp.Within smallSecs → ∀ c : Credit, c.now = inp.nowUnix →
    (c.apply cal inp.usage).Within smallSecs →
    inp.usage.pooledByMinutes cal inp.consolidated inp.nowUnix =
      (c.apply cal inp.usage).pooledByMinutes cal inp.consolidated inp.nowUnix →
    { inp with usage := c.apply cal inp.usage }.effective cal ≤ inp.effective cal
  grant : inp.Within smallSecs → ∀ (reqId : String) (minutes : UInt16) (dim : Dimension),
    inp.effective cal ≤ { inp with
      extension := (inp.extension.apply cal.zones inp.nowUnix reqId minutes.toNat dim).2
      }.effective cal
  grantWithFloor : inp.Within smallSecs → ∀ (reqId : String) (minutes : UInt16) (dim : Dimension),
    inp.effective cal ≤
      { inp with extension := inp.applyExtension cal reqId minutes dim }.effective cal

open EnforcerInputs in
/-- **Every input is lawful.** -/
theorem remaining_laws (cal : Calendar) (inp : EnforcerInputs) : RemainingLaws cal inp where
  locked := locked_iff cal inp
  least := effective_eq cal inp
  noSchedule := scheduleSecs_absent
  noBudget := budgetSecs_absent
  landed sd l h := (locked_iff_effective cal _).mpr (effective_landed sd h rfl)
  dayEnd := scheduleSecs_le_eod
  addSchedule h s := by
    refine effective_mono ?_ le_rfl le_rfl
    rw [scheduleSecs_absent h]
    exact le_top
  addBudget h b := by
    refine effective_mono ?_ ?_ le_rfl
    · exact (scheduleSecs_addBudget b).le
    · rw [budgetSecs_absent h]
      exact le_top
  addStandDown h sd := by
    refine effective_mono le_rfl le_rfl ?_
    rw [show inp.standDownAxis = ⊤ by rw [standDownAxis, h]; rfl]
    exact le_top
  deduct h reqId minutes dim := by
    obtain ⟨hsame, htakes⟩ := ExtensionLedger.deduct_takes h.extension reqId minutes dim
    exact effective_of_takes h hsame htakes
  credit h c hnow hafter hrule := effective_of_credit h hnow hafter hrule
  grant h reqId minutes dim := by
    obtain ⟨hsame, hgives⟩ := ExtensionLedger.apply_gives h.extension reqId minutes dim
    exact effective_of_gives h hsame hgives
  grantWithFloor h reqId minutes dim := by
    obtain ⟨hsame, hgives⟩ := applyExtension_gives h reqId minutes dim
    exact effective_of_gives h hsame hgives

/-! ## One afternoon -/

/-- Mondays from four to eight. -/
def afterSchool : GrantSchedule :=
  ⟨1, "UTC", none, { WeeklySchedule.empty with mon := some [⟨"16:00", "20:00", none⟩] }, none, 1⟩

/-- So many minutes a day. -/
def dailyBudget (minutes : UInt32) : GrantBudget :=
  ⟨1, "UTC", some minutes, none, some .mon, none, none, none, 1⟩

/-- Five o'clock on Monday 2026-06-29, nothing used of two hours. -/
def afternoon : EnforcerInputs where
  nowUnix := 1782752400
  schedule := some afterSchool
  budget := some (dailyBudget 120)
  usage := .new UsageLedger.utcCalendar "UTC" .mon 1782752400
  extension := .new UsageLedger.utcCalendar.zones "UTC" 1782752400
  consolidated := none
  standDown := none

open UsageLedger in
theorem remaining_laws_afternoon :
    afternoon.effective utcCalendar ≤
        { afternoon with
          extension := (afternoon.extension.apply utcCalendar.zones 1782752400 "r1" 30 .budget).2
          }.effective utcCalendar ∧
      { afternoon with
        extension := (afternoon.extension.deduct utcCalendar.zones 1782752400 "r2" 20 .schedule).2
        }.effective utcCalendar ≤ afternoon.effective utcCalendar ∧
      { afternoon with
        usage := (Credit.bucket 1782752400 .active .screen 60).apply utcCalendar afternoon.usage
        }.effective utcCalendar ≤ afternoon.effective utcCalendar := by
  have hsmall : afternoon.Within smallSecs := by
    refine ⟨⟨?_, ?_⟩, ⟨?_, ?_, ?_, ?_, ?_, ?_⟩, by rintro _ ⟨⟩⟩ <;> decide +kernel
  have hlaws := remaining_laws utcCalendar afternoon
  refine ⟨hlaws.grant hsmall "r1" 30 .budget, hlaws.deduct hsmall "r2" 20 .schedule, ?_⟩
  refine hlaws.credit hsmall (.bucket 1782752400 .active .screen 60) rfl ?_ ?_
  · constructor <;> decide +kernel
  · decide +kernel

/-- A minute past midnight, an hour credited as it struck: the hour is in no minute. -/
def pastMidnight : EnforcerInputs :=
  { afternoon with
    nowUnix := 1782777660
    schedule := none
    usage := (Credit.bucket 1782777600 .active .screen 3600).apply UsageLedger.utcCalendar
      afternoon.usage
    consolidated := some ⟨"2026-06-30", 600, none, none, some .empty⟩ }

open UsageLedger in
/-- **Where a law fails.**  The first minute marked after seconds that no minute holds switches
the pool from sums to minutes, and time comes back; a schedule without windows is not bounded
by the day; a plain 64-bit sum turns a grant, a take-back or a credit round at the end of its
range; and a credit or a grant made the day after wipes what is read of the day before. -/
theorem remaining_laws_exceptions :
    ((computeRemaining utcCalendar pastMidnight).effectiveSecs = 3000 ∧
        (computeRemaining utcCalendar { pastMidnight with
          usage := (Credit.bucket 1782777660 .active .screen 60).apply utcCalendar
            pastMidnight.usage }).effectiveSecs = 3540) ∧
      (computeRemaining utcCalendar { afternoon with
        schedule := some { afterSchool with weekly := .empty } }).scheduleSecs = -1 ∧
      ((computeRemaining utcCalendar { afternoon with
          nowUnix := 1782766800
          budget := none
          extension.scheduleSecs := 2 ^ 64 - 60 }).effectiveSecs = 10800 ∧
        (computeRemaining utcCalendar { afternoon with
          nowUnix := 1782766800
          budget := none
          extension := ({ afternoon.extension with scheduleSecs := 2 ^ 64 - 60 }.apply
            utcCalendar.zones 1782766800 "r1" 1 .schedule).2 }).effectiveSecs = 0) ∧
      ((computeRemaining utcCalendar { afternoon with
          schedule := none
          budget := some (dailyBudget 0)
          extension.budgetDeductSecs := 2 ^ 63 - 60 }).effectiveSecs = 0 ∧
        (computeRemaining utcCalendar { afternoon with
          schedule := none
          budget := some (dailyBudget 0)
          extension := ({ afternoon.extension with budgetDeductSecs := 2 ^ 63 - 60 }.deduct
            utcCalendar.zones 1782752400 "r2" 2 .budget).2 }).effectiveSecs = 2 ^ 63 - 60) ∧
      ((computeRemaining utcCalendar { afternoon with
          schedule := none
          budget := some (dailyBudget 0)
          usage.day.current.usedTodaySecs := 2 ^ 63 - 60 }).effectiveSecs = 0 ∧
        (computeRemaining utcCalendar { afternoon with
          schedule := none
          budget := some (dailyBudget 0)
          usage := (Credit.bucket 1782752400 .active .screen 120).apply utcCalendar
            { afternoon.usage with
              day.current.usedTodaySecs := 2 ^ 63 - 60 } }).effectiveSecs = 2 ^ 63 - 60) ∧
      ((computeRemaining utcCalendar { afternoon with
          schedule := none
          usage.day.current.usedTodaySecs := 3600 }).effectiveSecs = 3600 ∧
        (computeRemaining utcCalendar { afternoon with
          schedule := none
          usage := (Credit.bucket 1782820800 .active .screen 60).apply utcCalendar
            { afternoon.usage with
              day.current.usedTodaySecs := 3600 } }).effectiveSecs = 7140) ∧
      (computeRemaining utcCalendar { afternoon with
          schedule := none
          extension.budgetSecs := 1800 }).effectiveSecs = 9000 ∧
        (computeRemaining utcCalendar { afternoon with
          schedule := none
          extension := ({ afternoon.extension with budgetSecs := 1800 }.apply
            utcCalendar.zones 1782820800 "r3" 5 .budget).2 }).effectiveSecs = 7200 := by
  decide +kernel

end Kintrinsic
