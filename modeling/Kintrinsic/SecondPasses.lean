import Kintrinsic.TimesLocks
import Kintrinsic.TimesSpan

/-! # One second

What a second that brings nothing leaves of each limit: the pools that run have burned it, usage has
been charged for it at most.  Each countdown has lost no more than the second, while the ledger's day
and the schedule's own countdown go on. -/
namespace Kintrinsic

open Countdown MachineWord

/-! ## The latest of the named pools -/

namespace ExtensionLedger
variable {zones : Zones} {l l' : ExtensionLedger} {now : Int}

/-- One pool was topped up no later than another; of one number the ids tell. -/
def NoLater (q p : String × TimePool) : Prop :=
  q.2.seq < p.2.seq ∨ q.2.seq = p.2.seq ∧ q.1 ≤ p.1

theorem NoLater.trans {a b c : String × TimePool} (h : NoLater a b) (h' : NoLater b c) :
    NoLater a c := by
  rcases h with h | ⟨h, hid⟩
  · rcases h' with h' | ⟨h', -⟩
    · exact .inl (h.trans h')
    · exact .inl (h.trans_eq h')
  · rcases h' with h' | ⟨h', hid'⟩
    · exact .inl (h.trans_lt h')
    · exact .inr ⟨h.trans h', hid.trans hid'⟩

theorem laterPool_latest (b p : String × TimePool) :
    ∃ q, laterPool (some b) p = some q ∧ NoLater b q ∧ NoLater p q := by
  unfold laterPool
  dsimp only
  split
  · rename_i h
    refine ⟨p, rfl, h.imp_right fun h => ⟨h.1, h.2.le⟩, .inr ⟨rfl, le_rfl⟩⟩
  · rename_i h
    push Not at h
    refine ⟨b, rfl, .inr ⟨rfl, le_rfl⟩, ?_⟩
    rcases h.1.lt_or_eq with hlt | heq
    · exact .inl hlt
    · exact .inr ⟨heq, not_lt.mp (h.2 heq.symm)⟩

/-- The latest of some pools is no earlier than any of them. -/
theorem foldl_laterPool_latest {pools : List (String × TimePool)} {b p : String × TimePool}
    (h : pools.foldl laterPool (some b) = some p) : NoLater b p ∧ ∀ q ∈ pools, NoLater q p := by
  induction pools generalizing b with
  | nil =>
    obtain rfl := Option.some.inj h
    exact ⟨.inr ⟨rfl, le_rfl⟩, fun q hq => absurd hq List.not_mem_nil⟩
  | cons x pools ih =>
    rw [List.foldl_cons] at h
    obtain ⟨m, hm, hb, hx⟩ := laterPool_latest b x
    rw [hm] at h
    obtain ⟨hm', hrest⟩ := ih h
    refine ⟨hb.trans hm', fun q hq => ?_⟩
    rcases List.mem_cons.mp hq with rfl | hq
    · exact hx.trans hm'
    · exact hrest q hq

/-- The pool that is offered is the latest of those that have seconds left. -/
theorem mostRecentNamedPool_latest {known : String → Bool} {id : String}
    (h : l.mostRecentNamedPoolAmong zones now known = some id) {id' : String}
    (hknown : known id' = true) (hleft : 0 < l.timeExtraSecs zones now id') :
    NoLater (id', l.timePool id') (id, l.timePool id) := by
  unfold mostRecentNamedPoolAmong at h
  split at h
  · cases h
  rename_i hstale
  obtain ⟨p, hp, rfl⟩ := Option.map_eq_some_iff.mp h
  obtain ⟨hfrom, -, -⟩ := foldl_laterPool_spec.2 p hp
  rw [timeExtraSecs, if_neg hstale] at hleft
  have hlt : (l.timePool id').consumed < (l.timePool id').secs := by omega
  have hmem := (mem_livePools (p := (id', l.timePool id'))).mpr ⟨lookup_of_left hlt, hlt, hknown⟩
  have hp' : p ∈ _ := hfrom.resolve_left (fun hnone => by cases hnone)
  have hpool : l.timePool p.1 = p.2 := by
    rw [timePool, (mem_livePools.mp hp').1, Option.getD_some]
  rw [hpool]
  cases hlist : (l.timePools.entries.map fun e => (e.1, e.2)).filter fun p =>
      decide (p.2.consumed < p.2.secs) && known p.1 with
  | nil =>
    rw [hlist] at hmem
    cases hmem
  | cons x pools =>
    rw [hlist] at hmem
    rw [hlist, List.foldl_cons] at hp
    obtain ⟨hx, hrest⟩ := foldl_laterPool_latest hp
    rcases List.mem_cons.mp hmem with heq | hin
    · rw [heq]
      exact hx
    · exact hrest _ hin

/-- **The pool that is offered stays the one that is offered** while it has seconds left, none is
topped up and no other one comes back. -/
theorem mostRecentNamedPool_stays {known : String → Bool} {id : String} {now' : Int}
    (h : l.mostRecentNamedPoolAmong zones now known = some id)
    (hleft : 0 < l'.timeExtraSecs zones now' id)
    (hseq : ∀ id', (l'.timePool id').seq = (l.timePool id').seq)
    (hless : ∀ id', l'.timeExtraSecs zones now' id' ≤ l.timeExtraSecs zones now id') :
    l'.mostRecentNamedPoolAmong zones now' known = some id := by
  have hknown := (mostRecentNamedPool_some h).1
  cases hother : l'.mostRecentNamedPoolAmong zones now' known with
  | none => exact absurd (mostRecentNamedPool_none.mp hother id hknown) hleft.ne'
  | some r =>
    obtain ⟨hrknown, hrleft⟩ := mostRecentNamedPool_some hother
    have hthere := mostRecentNamedPool_latest hother hknown hleft
    have hhere := mostRecentNamedPool_latest h hrknown (hrleft.trans_le (hless r))
    unfold NoLater at hthere hhere
    dsimp only at hthere hhere
    rw [hseq, hseq] at hthere
    have hr : r = id := by
      rcases hthere with hlt | ⟨heq, hle⟩
      · rcases hhere with hlt' | ⟨heq', -⟩
        · omega
        · omega
      · rcases hhere with hlt' | ⟨-, hle'⟩
        · omega
        · exact le_antisymm hle' hle
    rw [hr]

/-! ## A second on the ledger of minutes -/

/-- The ledger a second later: the named pool that runs, and Free time's while the schedule is
closed, have burned it. -/
def passed (zones : Zones) (l : ExtensionLedger) (schedule : Option GrantSchedule)
    (running : Option String) (now : Int) : ExtensionLedger :=
  burnScheduleExtension zones ((running.map fun id => l.burnTime zones now id 1).getD l) schedule
    now 1

variable {schedule : Option GrantSchedule} {running : Option String}

theorem burnTime_day (l : ExtensionLedger) (now : Int) (id : String) (elapsed : Nat) (t : Int) :
    (l.burnTime zones now id elapsed).dayKeyAt zones t = l.dayKeyAt zones t := by
  obtain ⟨pools, hframe⟩ := @burnTime_frame zones l now id elapsed
  rw [hframe]
  unfold dayKeyAt ExtensionLedger.zone ExtensionLedger.roll
  split <;> rfl

theorem burnSchedule_day (l : ExtensionLedger) (now : Int) (elapsed : Nat) (t : Int) :
    (l.burnSchedule zones now elapsed).dayKeyAt zones t = l.dayKeyAt zones t := by
  obtain ⟨n, hframe⟩ := @burnSchedule_frame zones l now elapsed
  rw [hframe]
  unfold dayKeyAt ExtensionLedger.zone ExtensionLedger.roll
  split <;> rfl

/-- What a burn of a named time leaves of the pools of the day: all of them. -/
theorem burnTime_today (l : ExtensionLedger) (now : Int) (id : String) (elapsed : Nat) :
    (l.burnTime zones now id elapsed).today zones now = l.today zones now := by
  obtain ⟨pools, hframe⟩ := @burnTime_frame zones l now id elapsed
  have hcurrent : (l.roll zones now).dayKeyAt zones now = (l.roll zones now).dayKey :=
    roll_current_day
  rw [today_roll (l := l), hframe]
  exact today_of_credited hcurrent rfl rfl

/-- A second of Free time's pool takes a second of it, and nothing else. -/
theorem burnSchedule_today (l : ExtensionLedger) (now : Int) :
    ∃ extra, (l.burnSchedule zones now 1).today zones now =
        { l.today zones now with scheduleExtra := extra } ∧
      (l.today zones now).scheduleExtra ≤ extra + 1 := by
  have hcurrent : (l.roll zones now).dayKeyAt zones now = (l.roll zones now).dayKey :=
    roll_current_day
  rw [today_roll (l := l)]
  unfold ExtensionLedger.burnSchedule
  dsimp only
  split
  · rename_i hlt
    refine ⟨_, today_of_credited hcurrent rfl rfl, ?_⟩
    show (l.roll zones now).scheduleSecs - (l.roll zones now).scheduleConsumedSecs ≤
      (l.roll zones now).scheduleSecs - min (addU64 (l.roll zones now).scheduleConsumedSecs 1)
        (l.roll zones now).scheduleSecs + 1
    have hsum := addU64_le_add (l.roll zones now).scheduleConsumedSecs 1
    omega
  · rw [today_of_current hcurrent]
    exact ⟨_, rfl, Nat.le_succ _⟩

/-- Readings of one day. -/
theorem today_congr {t : Int} (h : l.dayKeyAt zones t = l.dayKeyAt zones now) :
    l.today zones t = l.today zones now := by
  unfold today scheduleExtraSecs scheduleDeductedSecs budgetExtraSecs budgetDeductedSecs
    budgetBaselineSecs stale
  rw [h]

/-- The pools a second later on the same day. -/
structure SecondLater (schedule : Option GrantSchedule) (zones : Zones) (now : Int)
    (p p' : TodayPools) : Prop where
  scheduleExtra : p.scheduleExtra ≤ p'.scheduleExtra + 1
  kept : (∀ s ∈ schedule, ∀ o, s.evaluate zones now ≠ .locked o) →
    p'.scheduleExtra = p.scheduleExtra
  scheduleDeducted : p'.scheduleDeducted = p.scheduleDeducted
  budgetExtra : p'.budgetExtra = p.budgetExtra
  budgetDeducted : p'.budgetDeducted = p.budgetDeducted
  baseline : p'.baseline = p.baseline

theorem passed_day (l : ExtensionLedger) (schedule : Option GrantSchedule) (running : Option String)
    (now t : Int) : (l.passed zones schedule running now).dayKeyAt zones t = l.dayKeyAt zones t := by
  have hrun : ((running.map fun id => l.burnTime zones now id 1).getD l).dayKeyAt zones t =
      l.dayKeyAt zones t := by
    cases running with
    | none => rfl
    | some id => exact burnTime_day l now id 1 t
  unfold passed burnScheduleExtension
  rw [if_neg (by decide)]
  cases schedule with
  | none => exact hrun
  | some s =>
    dsimp only
    split
    · rw [burnSchedule_day]
      exact hrun
    · exact hrun

/-- **A second of the ledger's day.** -/
theorem passed_today (l : ExtensionLedger) (schedule : Option GrantSchedule)
    (running : Option String) {now : Int}
    (hday : l.dayKeyAt zones (now + 1) = l.dayKeyAt zones now) :
    SecondLater schedule zones now (l.today zones now)
      ((l.passed zones schedule running now).today zones (now + 1)) := by
  have hrun : ((running.map fun id => l.burnTime zones now id 1).getD l).today zones now =
      l.today zones now := by
    cases running with
    | none => rfl
    | some id => exact burnTime_today l now id 1
  have hsame : (l.passed zones schedule running now).dayKeyAt zones (now + 1) =
      (l.passed zones schedule running now).dayKeyAt zones now := by
    rw [passed_day, passed_day, hday]
  rw [today_congr hsame]
  unfold passed burnScheduleExtension
  rw [if_neg (by decide)]
  cases schedule with
  | none =>
    dsimp only
    rw [hrun]
    exact ⟨Nat.le_succ _, fun _ => rfl, rfl, rfl, rfl, rfl⟩
  | some s =>
    dsimp only
    split
    · rename_i o heval
      obtain ⟨extra, htoday, hextra⟩ := @burnSchedule_today zones
        ((running.map fun id => l.burnTime zones now id 1).getD l) now
      rw [htoday, hrun]
      rw [hrun] at hextra
      exact ⟨hextra, fun hnot => absurd heval (hnot s rfl o), rfl, rfl, rfl, rfl⟩
    · rw [hrun]
      exact ⟨Nat.le_succ _, fun _ => rfl, rfl, rfl, rfl, rfl⟩

/-- The named pools a second later: the one that runs has burned it, if any. -/
theorem passed_timePool (l : ExtensionLedger) (schedule : Option GrantSchedule)
    (running : Option String) {now : Int} (hcurrent : l.dayKeyAt zones now = l.dayKey)
    (id : String) : (l.passed zones schedule running now).timePool id =
      if running = some id then
        { l.timePool id with
          consumed := min (addU64 (l.timePool id).consumed 1) (l.timePool id).secs }
      else l.timePool id := by
  have hrun : ((running.map fun id => l.burnTime zones now id 1).getD l).timePool id =
      if running = some id then
        { l.timePool id with
          consumed := min (addU64 (l.timePool id).consumed 1) (l.timePool id).secs }
      else l.timePool id := by
    cases running with
    | none => rfl
    | some id' =>
      show (l.burnTime zones now id' 1).timePool id = _
      rw [timePool_burnTime, roll_of_current hcurrent]
      by_cases hid : id = id'
      · rw [if_pos hid, hid, if_pos rfl]
      · rw [if_neg hid, if_neg fun heq => hid (Option.some.inj heq).symm]
  have hstill : ((running.map fun id => l.burnTime zones now id 1).getD l).dayKeyAt zones now =
      ((running.map fun id => l.burnTime zones now id 1).getD l).dayKey := by
    cases running with
    | none => exact hcurrent
    | some id' =>
      obtain ⟨pools, hframe⟩ := @burnTime_frame zones l now id' 1
      show (l.burnTime zones now id' 1).dayKeyAt zones now = (l.burnTime zones now id' 1).dayKey
      rw [hframe, roll_of_current hcurrent]
      exact hcurrent
  rw [← hrun]
  unfold passed burnScheduleExtension
  rw [if_neg (by decide)]
  cases schedule with
  | none => rfl
  | some s =>
    dsimp only
    split
    · generalize (running.map fun id => l.burnTime zones now id 1).getD l = b at hstill ⊢
      obtain ⟨n, hframe⟩ := @burnSchedule_frame zones b now 1
      rw [hframe, roll_of_current hstill]
      rfl
    · rfl

theorem passed_dayKey (l : ExtensionLedger) (schedule : Option GrantSchedule)
    (running : Option String) {now : Int} (hcurrent : l.dayKeyAt zones now = l.dayKey) :
    (l.passed zones schedule running now).dayKey = l.dayKey := by
  have hstill : ((running.map fun id => l.burnTime zones now id 1).getD l).dayKeyAt zones now =
      ((running.map fun id => l.burnTime zones now id 1).getD l).dayKey ∧
      ((running.map fun id => l.burnTime zones now id 1).getD l).dayKey = l.dayKey := by
    cases running with
    | none => exact ⟨hcurrent, rfl⟩
    | some id' =>
      obtain ⟨pools, hframe⟩ := @burnTime_frame zones l now id' 1
      show (l.burnTime zones now id' 1).dayKeyAt zones now = (l.burnTime zones now id' 1).dayKey ∧
        (l.burnTime zones now id' 1).dayKey = l.dayKey
      rw [hframe, roll_of_current hcurrent]
      exact ⟨hcurrent, rfl⟩
  unfold passed burnScheduleExtension
  rw [if_neg (by decide)]
  cases schedule with
  | none => exact hstill.2
  | some s =>
    dsimp only
    split
    · generalize (running.map fun id => l.burnTime zones now id 1).getD l = b at hstill ⊢
      obtain ⟨n, hframe⟩ := @burnSchedule_frame zones b now 1
      rw [hframe, roll_of_current hstill.1]
      exact hstill.2
    · exact hstill.2

/-- **The pool that is offered a second later** is the same one, with a second less at most. -/
theorem passed_offered (l : ExtensionLedger) (schedule : Option GrantSchedule)
    (running : Option String) {now : Int} {known : String → Bool} {id : String}
    (hday : l.dayKeyAt zones (now + 1) = l.dayKeyAt zones now)
    (hwords : ∀ id, (l.timePool id).consumed ≤ u64Max)
    (h : l.mostRecentNamedPoolAmong zones now known = some id)
    (hleft : 1 < l.timeExtraSecs zones now id) :
    (l.passed zones schedule running now).mostRecentNamedPoolAmong zones (now + 1) known = some id ∧
      l.timeExtraSecs zones now id ≤
        (l.passed zones schedule running now).timeExtraSecs zones (now + 1) id + 1 := by
  have hcurrent : l.dayKeyAt zones now = l.dayKey := by
    by_contra hstale
    rw [timeExtraSecs, if_pos (by rw [stale, decide_eq_true_eq]; exact hstale)] at hleft
    omega
  have hcurrent' : (l.passed zones schedule running now).dayKeyAt zones (now + 1) =
      (l.passed zones schedule running now).dayKey := by
    rw [passed_day, passed_dayKey l schedule running hcurrent, hday, hcurrent]
  have hpool := passed_timePool l schedule running hcurrent
  have hextra : ∀ id', l.timeExtraSecs zones now id' ≤
        (l.passed zones schedule running now).timeExtraSecs zones (now + 1) id' + 1 ∧
      (l.passed zones schedule running now).timeExtraSecs zones (now + 1) id' ≤
        l.timeExtraSecs zones now id' := by
    intro id'
    rw [timeExtraSecs_of_current hcurrent, timeExtraSecs_of_current hcurrent', hpool]
    split
    · dsimp only
      have hword := hwords id'
      unfold addU64
      omega
    · omega
  refine ⟨mostRecentNamedPool_stays h ?_ ?_ fun id' => (hextra id').2, (hextra id).1⟩
  · have hpos := (hextra id).1
    omega
  · intro id'
    rw [hpool]
    split <;> rfl

end ExtensionLedger

/-! ## A second on the axes -/

namespace EnforcerInputs
variable {cal : Calendar} {inp inp' : EnforcerInputs}

/-- A second that brings nothing: the clauses stay, the stand-down is a second nearer, of the pools
only Free time's has burned, and the usage pooled is a second more at most. -/
structure Passes (cal : Calendar) (inp inp' : EnforcerInputs) : Prop where
  now : inp'.nowUnix = inp.nowUnix + 1
  schedule : inp'.schedule = inp.schedule
  budget : inp'.budget = inp.budget
  standDown : inp'.standDown = inp.standDown.map fun sd => ⟨sd.secsUntilLock - 1⟩
  pools : ExtensionLedger.SecondLater inp.schedule cal.zones inp.nowUnix
    (inp.extension.today cal.zones inp.nowUnix) (inp'.extension.today cal.zones inp'.nowUnix)
  today : inp'.usage.pooledToday cal inp'.consolidated inp'.nowUnix ≤
    inp.usage.pooledToday cal inp.consolidated inp.nowUnix + 1
  week : inp'.usage.pooledWeek cal inp'.consolidated inp'.nowUnix ≤
    inp.usage.pooledWeek cal inp.consolidated inp.nowUnix + 1
  dayEnd : inp.eod cal ≤ inp'.eod cal + 1

theorem Passes.standDownAxis_le (h : Passes cal inp inp') :
    inp.standDownAxis ≤ inp'.standDownAxis + 1 := by
  unfold standDownAxis
  rw [h.standDown]
  cases inp.standDown with
  | none => exact le_rfl
  | some sd =>
    show (sd.secsUntilLock.toNat : WithTop Nat) ≤ ((sd.secsUntilLock - 1).toNat : Nat) + 1
    have hle : sd.secsUntilLock.toNat ≤ (sd.secsUntilLock - 1).toNat + 1 := by omega
    exact_mod_cast hle

/-- Of one net move and one floor, a second used is a second of the cap. -/
theorem Draw.left_second {d d' : Draw} (hin : d.InRange) (hin' : d'.InRange)
    (hnet : d'.net = d.net) (hfloor : d'.baseline = d.baseline) (hpooled : d'.pooled ≤ d.pooled + 1)
    (cap : UInt32) : d.left cap ≤ d'.left cap + 1 := by
  obtain ⟨hlo, hhi, hbase, hused⟩ := hin
  obtain ⟨hlo', hhi', hbase', hused'⟩ := hin'
  rw [Draw.left, Draw.left, capLeft_eq hbase hlo hhi hused, capLeft_eq hbase' hlo' hhi' hused', hnet,
    hfloor]
  omega

theorem Passes.budgetSecs_le (h : Passes cal inp inp') (hin : inp.Roomy) (hin' : inp'.Roomy) :
    ofSecs (inp.budgetSecs cal) ≤ ofSecs (inp'.budgetSecs cal) + 1 := by
  have hpools := h.pools
  have hnet : inp'.budgetNet cal = inp.budgetNet cal := by
    have hextra := hpools.budgetExtra
    have hdeducted := hpools.budgetDeducted
    simp only [ExtensionLedger.today] at hextra hdeducted
    rw [budgetNet, budgetNet, hextra, hdeducted]
  have hbaseline : inp'.extension.budgetBaselineSecs cal.zones inp'.nowUnix =
      inp.extension.budgetBaselineSecs cal.zones inp.nowUnix := hpools.baseline
  have hday : ∀ cap, (inp.dayDraw cal).left cap ≤ (inp'.dayDraw cal).left cap + 1 :=
    Draw.left_second hin.draws.1 hin'.draws.1 hnet
      (congrArg (Option.map Prod.fst) hbaseline) h.today
  have hweek : ∀ cap, (inp.weekDraw cal).left cap ≤ (inp'.weekDraw cal).left cap + 1 :=
    Draw.left_second hin.draws.2 hin'.draws.2 hnet
      (congrArg (Option.map Prod.snd) hbaseline) h.week
  rw [ofSecs_budgetSecs, ofSecs_budgetSecs, budgetParts, budgetParts, h.budget]
  cases inp.budget with
  | none => exact le_rfl
  | some b =>
    dsimp only
    rcases b.quotaParts_cases cal with hspent | hlifted | hdrawn
    · rw [hspent, hspent]
      exact le_self_add
    · rw [hlifted, hlifted]
      exact le_self_add
    · rw [hdrawn, hdrawn]
      simp only [Draw.left, dayDraw] at hday
      simp only [Draw.left, weekDraw] at hweek
      exact min_second (ofLeft_map_second hday) (ofLeft_map_second hweek)

/-! ## How long the schedule lasts -/

/-- Whether a schedule can be read does not change with the hour, nor whether it bounds the day. -/
theorem evaluate_same (s : GrantSchedule) (zones : Zones) (t t' : Int) :
    (s.evaluate zones t = .unparseable ↔ s.evaluate zones t' = .unparseable) ∧
      (s.evaluate zones t = .unbounded ↔ s.evaluate zones t' = .unbounded) := by
  by_cases hdecides : ∃ tz, s.Decides zones tz
  · obtain ⟨tz, hdecides⟩ := hdecides
    have hverdict : ∀ t, s.evaluate zones t ≠ .unparseable ∧ s.evaluate zones t ≠ .unbounded := by
      intro t
      rw [GrantSchedule.evaluate_of_decides hdecides]
      split
      · exact ⟨by simp, by simp⟩
      · exact ⟨by simp, by simp⟩
    exact ⟨iff_of_false (hverdict t).1 (hverdict t').1, iff_of_false (hverdict t).2 (hverdict t').2⟩
  · rcases GrantSchedule.evaluate_of_not_decides (not_exists.mp hdecides) with hall | hall | hall
    · rw [hall, hall]
      exact ⟨Iff.rfl, Iff.rfl⟩
    · rw [hall, hall]
      exact ⟨Iff.rfl, Iff.rfl⟩
    · rw [hall, hall]
      exact ⟨Iff.rfl, Iff.rfl⟩

/-- What a schedule lasts for: it bounds nothing, or a window is open up to a close, after which
Free time's pool runs, less what was taken back and no further than the end of the day. -/
inductive Lasts (cal : Calendar) (inp : EnforcerInputs) (p : Nat) : Prop
  | unbounded (h : (scheduleBase cal.zones inp.nowUnix inp.schedule).secs < 0)
    (hread : (scheduleBase cal.zones inp.nowUnix inp.schedule).malformed = false)
  | windows {s : GrantSchedule} {close : Int} (hs : inp.schedule = some s)
    (hread : s.evaluate cal.zones inp.nowUnix ≠ .unparseable)
    (hopen : ∀ t, inp.nowUnix ≤ t → t < close → t < inp.nowUnix + p →
      ∃ n, s.evaluate cal.zones t = .opened n)
    (hleft : p ≤ min ((close - inp.nowUnix).toNat + inp.extension.scheduleExtraSecs cal.zones
      inp.nowUnix - inp.extension.scheduleDeductedSecs cal.zones inp.nowUnix) (inp.eod cal))

theorem scheduleBase_unbounded_iff {zones : Zones} {now : Int} {schedule : Option GrantSchedule} :
    (scheduleBase zones now schedule).secs < 0 ↔
      ∀ s ∈ schedule, s.evaluate zones now = .unbounded := by
  cases schedule with
  | none => simp [scheduleBase]
  | some s =>
    unfold scheduleBase
    cases heval : s.evaluate zones now with
    | unbounded => simp [heval]
    | opened n => simp [heval]
    | locked secs => simp [heval]
    | unparseable => simp [heval]

theorem scheduleBase_malformed_iff {zones : Zones} {now : Int} {schedule : Option GrantSchedule} :
    (scheduleBase zones now schedule).malformed = true ↔
      ∃ s ∈ schedule, s.evaluate zones now = .unparseable := by
  cases schedule with
  | none => simp [scheduleBase]
  | some s =>
    unfold scheduleBase
    cases heval : s.evaluate zones now <;> simp [heval]

/-- **A second of the schedule.** -/
theorem Passes.lasts {p : Nat} (h : Passes cal inp inp') (hlasts : inp.Lasts cal (p + 1)) :
    inp'.Lasts cal p := by
  have hnow := h.now
  cases hlasts with
  | unbounded hsecs hread =>
    rw [scheduleBase_unbounded_iff] at hsecs
    refine .unbounded ?_ ?_
    · rw [scheduleBase_unbounded_iff, h.schedule]
      exact fun s hs => ((evaluate_same s cal.zones inp.nowUnix inp'.nowUnix).2).mp (hsecs s hs)
    · rw [Bool.eq_false_iff, Ne, scheduleBase_malformed_iff, h.schedule]
      rintro ⟨s, hs, heval⟩
      have heval' := ((evaluate_same s cal.zones inp.nowUnix inp'.nowUnix).1).mpr heval
      rw [hsecs s hs] at heval'
      cases heval'
  | @windows s close hs hread hopen hleft =>
    have hpools := h.pools
    have hextra := hpools.scheduleExtra
    have hkept := hpools.kept
    have hdeducted := hpools.scheduleDeducted
    simp only [ExtensionLedger.today] at hextra hkept hdeducted
    have hend := h.dayEnd
    refine @Lasts.windows _ _ _ s close (h.schedule.trans hs) ?_ ?_ ?_
    · exact fun heval => hread (((evaluate_same s cal.zones _ _).1).mpr heval)
    · exact fun t hlo hclose hhi => hopen t (by omega) hclose (by omega)
    · rw [hdeducted]
      by_cases hclosed : ∃ o, s.evaluate cal.zones inp.nowUnix = .locked o
      · -- the window is over: Free time's pool runs
        obtain ⟨o, hclosed⟩ := hclosed
        have hover : close ≤ inp.nowUnix := by
          by_contra hbefore
          obtain ⟨n, hn⟩ := hopen inp.nowUnix le_rfl (not_le.mp hbefore) (by omega)
          rw [hclosed] at hn
          cases hn
        omega
      · have hsame : inp'.extension.scheduleExtraSecs cal.zones inp'.nowUnix =
            inp.extension.scheduleExtraSecs cal.zones inp.nowUnix := by
          refine hkept ?_
          rintro s' hs' o heval
          rw [hs] at hs'
          cases hs'
          exact hclosed ⟨o, heval⟩
        rw [hsame]
        omega

/-- While a schedule lasts its axis is spent only under an open window. -/
theorem Lasts.spent {p : Nat} (h : inp.Lasts cal p) (hp : 0 < p) (hin : inp.Roomy)
    (hspent : inp.scheduleSecs cal = 0) :
    ∃ s n, inp.schedule = some s ∧ s.evaluate cal.zones inp.nowUnix = .opened n := by
  have hreads : inp.extension.ReadsWithin cal.zones inp.nowUnix (2 ^ 61) := hin.extension.reads
  have hword := hreads.scheduleExtra
  cases h with
  | unbounded hsecs hread =>
    unfold scheduleSecs ScheduleBase.withPools at hspent
    rw [hread, if_neg Bool.false_ne_true, if_pos hsecs] at hspent
    omega
  | @windows s close hs hread hopen hleft =>
    refine ⟨s, ?_⟩
    unfold scheduleSecs at hspent
    rw [hs] at hspent
    unfold scheduleBase at hspent
    dsimp only at hspent
    cases heval : s.evaluate cal.zones inp.nowUnix with
    | unbounded =>
      rw [heval] at hspent
      unfold ScheduleBase.withPools at hspent
      simp at hspent
    | opened n => exact ⟨n, hs, rfl⟩
    | unparseable => exact absurd heval hread
    | locked o =>
      have hover : close ≤ inp.nowUnix := by
        by_contra hbefore
        obtain ⟨n, hn⟩ := hopen inp.nowUnix le_rfl (not_le.mp hbefore) (by omega)
        rw [heval] at hn
        cases hn
      rw [heval] at hspent
      unfold ScheduleBase.withPools at hspent
      dsimp only at hspent
      rw [if_neg Bool.false_ne_true, if_neg (by omega), wrapU64_of_lt (by omega)] at hspent
      omega

end EnforcerInputs
end Kintrinsic
