import Kintrinsic.LocalAdjust
import Kintrinsic.PooledUse

/-! # A give and an equal take-back

What a pair of entries of one size leaves.  Both go to one limit and cancel, except where the give
lifts the nearer limit past the other one: then the take-back goes to that. -/
namespace Kintrinsic

open MachineWord

/-! ## The axes by the pools -/

namespace EnforcerInputs
variable (cal : Calendar) (inp : EnforcerInputs)

/-- The schedule axis, with its pools as given. -/
def scheduleAt (extra deducted : Nat) : Int :=
  (scheduleBase cal.zones inp.nowUnix inp.schedule).withPools extra deducted (inp.eod cal)

/-- The budget axis, with the net of its pools and its floor as given. -/
def budgetAt (net : Int) (floor : Option (Nat × Nat)) : Int :=
  clampLeft (binding (match inp.budget with
    | none => (none, none)
    | some b => b.quotaParts cal inp.usage inp.consolidated inp.nowUnix net floor))

/-- The pools as a tick reads them. -/
def pools : ExtensionLedger.TodayPools := inp.extension.today cal.zones inp.nowUnix

theorem scheduleSecs_eq : inp.scheduleSecs cal =
    inp.scheduleAt cal (inp.pools cal).scheduleExtra (inp.pools cal).scheduleDeducted := by
  unfold scheduleSecs scheduleAt pools ExtensionLedger.today
  rfl

theorem budgetSecs_eq : inp.budgetSecs cal =
    inp.budgetAt cal (inp.budgetNet cal) (inp.pools cal).baseline := by
  unfold budgetSecs budgetAt budgetParts pools ExtensionLedger.today
  rfl

theorem budgetNet_pools : inp.budgetNet cal =
    wrapI64 (asI64 (inp.pools cal).budgetExtra - asI64 (inp.pools cal).budgetDeducted) := by
  unfold budgetNet pools ExtensionLedger.today
  rfl

/-- What is left of a schedule axis with so much more given or taken back. -/
def scheduleGiven (secs : Nat) : Int :=
  inp.scheduleAt cal ((inp.pools cal).scheduleExtra + secs) (inp.pools cal).scheduleDeducted

def scheduleTaken (secs : Nat) : Int :=
  inp.scheduleAt cal (inp.pools cal).scheduleExtra ((inp.pools cal).scheduleDeducted + secs)

/-- What is left of a budget axis with so much more given or taken back.  A give notes where the
debt stands, if none has today. -/
def budgetGiven (secs : Nat) : Int :=
  inp.budgetAt cal (inp.budgetNet cal + secs)
    ((inp.pools cal).baseline.or
      (some (inp.usage.usedToday cal inp.nowUnix, inp.usage.usedWeek cal inp.nowUnix)))

def budgetTaken (secs : Nat) : Int :=
  inp.budgetAt cal (inp.budgetNet cal - secs) (inp.pools cal).baseline

variable {cal inp}

/-! ## The schedule axis -/

/-- A give and a take-back of the schedule are a move of it. -/
theorem moves_schedule {secs : Nat} (hextra : (inp.pools cal).scheduleExtra ≤ 2 ^ 61)
    (hsecs : secs < 2 ^ 32) :
    AxisMoves (inp.scheduleSecs cal) (inp.scheduleGiven cal secs) (inp.scheduleTaken cal secs) := by
  have hbase := scheduleBase_lt cal.zones inp.nowUnix inp.schedule
  rw [scheduleSecs_eq]
  unfold scheduleGiven scheduleTaken scheduleAt ScheduleBase.withPools
  generalize scheduleBase cal.zones inp.nowUnix inp.schedule = base at hbase
  generalize inp.pools cal = p at hextra
  split
  · exact ⟨by omega, by omega, by omega⟩
  split
  · exact ⟨by omega, by omega, by omega⟩
  rw [wrapU64_of_lt (by omega), wrapU64_of_lt (by omega)]
  exact ⟨by omega, by omega, by omega⟩

/-- On the schedule a pair cancels. -/
theorem scheduleAt_pair {extra deducted secs : Nat} (hextra : extra ≤ 2 ^ 61)
    (hsecs : secs < 2 ^ 32) :
    inp.scheduleAt cal (extra + secs) (deducted + secs) = inp.scheduleAt cal extra deducted := by
  have hbase := scheduleBase_lt cal.zones inp.nowUnix inp.schedule
  unfold scheduleAt ScheduleBase.withPools
  generalize scheduleBase cal.zones inp.nowUnix inp.schedule = base at hbase
  split
  · rfl
  split
  · rfl
  rw [wrapU64_of_lt (by omega), wrapU64_of_lt (by omega)]
  congr 2
  omega

/-- Nothing lifts a malformed schedule. -/
theorem scheduleAt_of_malformed (h : inp.malformed cal = true) (extra deducted : Nat) :
    inp.scheduleAt cal extra deducted = 0 := by
  unfold scheduleAt ScheduleBase.withPools
  exact if_pos h

/-! ## The budget axis -/

theorem clampLeft_ge (left : Option Int) : -1 ≤ clampLeft left := by
  cases left with
  | none => exact le_rfl
  | some n =>
    show -1 ≤ max n 0
    omega

/-- **The axis of two caps grows with each of them**, and is unbounded without any. -/
theorem clampLeft_binding_mono (daily weekly : Option UInt32) {f f' g g' : UInt32 → Int}
    (hf : ∀ cap, f cap ≤ f' cap) (hg : ∀ cap, g cap ≤ g' cap) :
    (clampLeft (binding (daily.map f, weekly.map g)) < 0 →
        clampLeft (binding (daily.map f', weekly.map g')) = -1) ∧
      (0 ≤ clampLeft (binding (daily.map f, weekly.map g)) →
        clampLeft (binding (daily.map f, weekly.map g)) ≤
          clampLeft (binding (daily.map f', weekly.map g'))) := by
  cases daily with
  | none =>
    cases weekly with
    | none => exact ⟨fun _ => rfl, fun _ => le_rfl⟩
    | some w =>
      have hw := hg w
      show (max (g w) 0 < 0 → max (g' w) 0 = -1) ∧ (0 ≤ max (g w) 0 → max (g w) 0 ≤ max (g' w) 0)
      omega
  | some d =>
    have hd := hf d
    cases weekly with
    | none =>
      show (max (f d) 0 < 0 → max (f' d) 0 = -1) ∧ (0 ≤ max (f d) 0 → max (f d) 0 ≤ max (f' d) 0)
      omega
    | some w =>
      have hw := hg w
      show (max (min (f d) (g w)) 0 < 0 → max (min (f' d) (g' w)) 0 = -1) ∧
        (0 ≤ max (min (f d) (g w)) 0 → max (min (f d) (g w)) 0 ≤ max (min (f' d) (g' w)) 0)
      omega

/-- Two caps that are overdrawn together leave the same. -/
theorem clampLeft_binding_congr (daily weekly : Option UInt32) {f f' g g' : UInt32 → Int}
    (hf : ∀ cap, max (f cap) 0 = max (f' cap) 0) (hg : ∀ cap, max (g cap) 0 = max (g' cap) 0) :
    clampLeft (binding (daily.map f, weekly.map g)) =
      clampLeft (binding (daily.map f', weekly.map g')) := by
  cases daily with
  | none =>
    cases weekly with
    | none => rfl
    | some w => exact hg w
  | some d =>
    have hd := hf d
    cases weekly with
    | none => exact hd
    | some w =>
      have hw := hg w
      show max (min (f d) (g w)) 0 = max (min (f' d) (g' w)) 0
      omega

/-- A cap that a new floor lifts is overdrawn with it and without. -/
theorem capLeft_noted (cap : UInt32) {net : Int} {used pooled : Nat} (hlo : -2 ^ 61 ≤ net)
    (hnet : net ≤ 0) (hused : used ≤ pooled) (hpooled : pooled ≤ 2 ^ 61) :
    max (capLeft cap (some used) net pooled) 0 = max (capLeft cap none net pooled) 0 := by
  have hfloor : ∀ n ∈ some used, n ≤ 2 ^ 61 := by
    rintro n hn
    obtain rfl := Option.some.inj hn
    exact hused.trans hpooled
  have hhi : net ≤ 2 ^ 61 := hnet.trans (by decide)
  rw [capLeft_eq hfloor hlo hhi hpooled, capLeft_eq (fun n hn => absurd hn (Option.not_mem_none n))
    hlo hhi hpooled]
  unfold allowance
  rw [Option.getD_some, Option.getD_none]
  omega

/-- A net and a floor whose sums stay in range. -/
structure NetInRange (net : Int) (floor : Option (Nat × Nat)) : Prop where
  lo : -2 ^ 61 ≤ net
  hi : net ≤ 2 ^ 61
  floor : ∀ p ∈ floor, p.1 ≤ 2 ^ 61 ∧ p.2 ≤ 2 ^ 61

theorem NetInRange.draws {net : Int} {floor : Option (Nat × Nat)} (h : NetInRange net floor)
    {pooled : Nat} (hpooled : pooled ≤ 2 ^ 61) :
    Draw.InRange ⟨net, floor.map Prod.fst, pooled⟩ ∧
      Draw.InRange ⟨net, floor.map Prod.snd, pooled⟩ := by
  refine ⟨⟨h.lo, h.hi, ?_, hpooled⟩, h.lo, h.hi, ?_, hpooled⟩
  · intro secs hsecs
    obtain ⟨p, hp, rfl⟩ := Option.map_eq_some_iff.mp hsecs
    exact (h.floor p hp).1
  · intro secs hsecs
    obtain ⟨p, hp, rfl⟩ := Option.map_eq_some_iff.mp hsecs
    exact (h.floor p hp).2

variable (hu : inp.usage.Within smallSecs) (hc : ∀ c ∈ inp.consolidated, c.Within smallSecs)
include hu hc

/-- **The budget axis grows with what is given and with the floor.** -/
theorem budgetAt_mono {net net' : Int} {floor floor' : Option (Nat × Nat)}
    (hin : NetInRange net floor) (hin' : NetInRange net' floor') (hnet : net ≤ net')
    (hfloor : ∀ p ∈ floor, floor' = some p) :
    (inp.budgetAt cal net floor < 0 → inp.budgetAt cal net' floor' = -1) ∧
      (0 ≤ inp.budgetAt cal net floor →
        inp.budgetAt cal net floor ≤ inp.budgetAt cal net' floor') := by
  have hday := @UsageLedger.pooledToday_le cal _ _ inp.nowUnix hu hc
  have hweek := @UsageLedger.pooledWeek_le cal _ _ inp.nowUnix hu hc
  have hbase : ∀ f : Nat × Nat → Nat, (floor.map f).getD 0 ≤ (floor'.map f).getD 0 := by
    intro f
    cases hnone : floor with
    | none => exact Nat.zero_le _
    | some p => rw [hfloor p hnone]
  unfold budgetAt
  cases inp.budget with
  | none => exact ⟨fun _ => rfl, fun _ => le_rfl⟩
  | some b =>
    dsimp only
    rcases b.quotaParts_cases cal with hspent | hlifted | hdrawn
    · rw [hspent, hspent]
      exact ⟨fun h => absurd h (by decide), fun _ => le_rfl⟩
    · rw [hlifted, hlifted]
      exact ⟨fun _ => rfl, fun _ => le_rfl⟩
    · rw [hdrawn, hdrawn]
      refine clampLeft_binding_mono _ _ (fun cap => ?_) fun cap => ?_
      · exact Draw.left_mono (hin.draws hday).1 (hin'.draws hday).1
          ⟨hnet, hbase Prod.fst, le_rfl⟩ cap
      · exact Draw.left_mono (hin.draws hweek).2 (hin'.draws hweek).2
          ⟨hnet, hbase Prod.snd, le_rfl⟩ cap

/-- **Noting where the debt stands forgives nothing** while nothing is given on balance. -/
theorem budgetAt_noted {net : Int} (hlo : -2 ^ 61 ≤ net) (hnet : net ≤ 0) :
    inp.budgetAt cal net
        (some (inp.usage.usedToday cal inp.nowUnix, inp.usage.usedWeek cal inp.nowUnix)) =
      inp.budgetAt cal net none := by
  have hday := @UsageLedger.pooledToday_le cal _ _ inp.nowUnix hu hc
  have hweek := @UsageLedger.pooledWeek_le cal _ _ inp.nowUnix hu hc
  have hlarge : inp.usage.Within u64Max :=
    ⟨hu.today.trans (by decide), hu.week.trans (by decide)⟩
  have htoday := @UsageLedger.usedToday_le_pooledToday cal _ inp.nowUnix hlarge
    inp.consolidated
  have husedWeek := @UsageLedger.usedWeek_le_pooledWeek cal _ inp.nowUnix hlarge
    inp.consolidated
  have hday' := fun cap => capLeft_noted cap hlo hnet htoday hday
  have hweek' := fun cap => capLeft_noted cap hlo hnet husedWeek hweek
  unfold budgetAt
  cases inp.budget with
  | none => rfl
  | some b =>
    dsimp only
    rcases b.quotaParts_cases cal with hspent | hlifted | hdrawn
    · rw [hspent, hspent]
    · rw [hlifted, hlifted]
    · rw [hdrawn, hdrawn]
      exact clampLeft_binding_congr _ _ hday' hweek'

end EnforcerInputs

/-! ## One entry on the ledger -/

namespace ExtensionLedger
variable (zones : Zones) (l : ExtensionLedger)

/-- Budget time is given only with a note of where the debt stood, and the note has two halves. -/
structure Noted : Prop where
  halves : l.budgetBaselineTodaySecs.isSome = l.budgetBaselineWeekSecs.isSome
  unnoted : l.budgetBaselineTodaySecs = none → l.budgetSecs = 0

/-- A ledger that a few more entries fit in, its schedule pool burned no further than it was
given. -/
structure Roomy (n : Nat) : Prop extends l.Within n where
  burned : l.scheduleConsumedSecs ≤ l.scheduleSecs

/-- The ledger of the day with so much given. -/
def given (reqId : String) (dim : Dimension) (secs : Nat) (used : Nat × Nat) : ExtensionLedger :=
  match dim with
  | .schedule =>
    { l with applied := l.applied ++ [reqId], scheduleSecs := l.scheduleSecs + secs }
  | .budget =>
    { l with
      applied := l.applied ++ [reqId]
      budgetSecs := l.budgetSecs + secs
      budgetBaselineTodaySecs := l.budgetBaselineTodaySecs.or (some used.1)
      budgetBaselineWeekSecs := l.budgetBaselineWeekSecs.or (some used.2) }

/-- The ledger of the day with so much taken back. -/
def takenBack (reqId : String) (dim : Dimension) (secs : Nat) : ExtensionLedger :=
  match dim with
  | .schedule =>
    { l with applied := l.applied ++ [reqId], scheduleDeductSecs := l.scheduleDeductSecs + secs }
  | .budget =>
    { l with applied := l.applied ++ [reqId], budgetDeductSecs := l.budgetDeductSecs + secs }

/-- The pools of the day with so much given. -/
def TodayPools.given (p : TodayPools) (dim : Dimension) (secs : Nat) (used : Nat × Nat) :
    TodayPools :=
  match dim with
  | .schedule => { p with scheduleExtra := p.scheduleExtra + secs }
  | .budget =>
    { p with budgetExtra := p.budgetExtra + secs, baseline := p.baseline.or (some used) }

def TodayPools.takenBack (p : TodayPools) (dim : Dimension) (secs : Nat) : TodayPools :=
  match dim with
  | .schedule => { p with scheduleDeducted := p.scheduleDeducted + secs }
  | .budget => { p with budgetDeducted := p.budgetDeducted + secs }

variable {zones l} {reqId : String} {dim : Dimension} {secs n : Nat} {used : Nat × Nat}

theorem Noted.roll (h : l.Noted) (now : Int) : (l.roll zones now).Noted := by
  unfold ExtensionLedger.roll
  split
  · exact h
  · exact ⟨rfl, fun _ => rfl⟩

theorem Roomy.roll (h : l.Roomy n) (now : Int) : (l.roll zones now).Roomy n := by
  refine ⟨h.toWithin.roll, ?_⟩
  unfold ExtensionLedger.roll
  split
  · exact h.burned
  · exact le_rfl

theorem held_given (hnoted : l.Noted) (hburned : l.scheduleConsumedSecs ≤ l.scheduleSecs) :
    (l.given reqId dim secs used).held = l.held.given dim secs used := by
  cases dim with
  | schedule =>
    unfold ExtensionLedger.given TodayPools.given held
    dsimp only
    congr 1
    omega
  | budget =>
    have hhalves := hnoted.halves
    unfold ExtensionLedger.given TodayPools.given held baseline
    dsimp only
    congr 1
    cases hday : l.budgetBaselineTodaySecs <;> cases hweek : l.budgetBaselineWeekSecs <;>
      rw [hday, hweek] at hhalves <;> first | rfl | cases hhalves

theorem held_takenBack :
    (l.takenBack reqId dim secs).held = l.held.takenBack dim secs := by
  cases dim <;> rfl

variable (l) in
theorem given_day : (l.given reqId dim secs used).tz = l.tz ∧
    (l.given reqId dim secs used).dayKey = l.dayKey := by
  cases dim <;> exact ⟨rfl, rfl⟩

variable (l) in
theorem takenBack_day : (l.takenBack reqId dim secs).tz = l.tz ∧
    (l.takenBack reqId dim secs).dayKey = l.dayKey := by
  cases dim <;> exact ⟨rfl, rfl⟩

variable (l) in
theorem given_applied : (l.given reqId dim secs used).applied = l.applied ++ [reqId] := by
  cases dim <;> rfl

variable (l) in
theorem takenBack_applied : (l.takenBack reqId dim secs).applied = l.applied ++ [reqId] := by
  cases dim <;> rfl

theorem Noted.given (h : l.Noted) : (l.given reqId dim secs used).Noted := by
  cases dim with
  | schedule => exact ⟨h.halves, h.unnoted⟩
  | budget =>
    refine ⟨?_, ?_⟩
    · unfold ExtensionLedger.given
      dsimp only
      rw [Option.isSome_or, Option.isSome_or, h.halves]
      rfl
    · unfold ExtensionLedger.given
      dsimp only
      intro hnone
      rw [Option.or_eq_none_iff] at hnone
      cases hnone.2

theorem Noted.takenBack (h : l.Noted) : (l.takenBack reqId dim secs).Noted := by
  cases dim <;> exact ⟨h.halves, h.unnoted⟩

theorem Roomy.given (h : l.Roomy n) (hused : used.1 ≤ n ∧ used.2 ≤ n) :
    (l.given reqId dim secs used).Roomy (n + secs) := by
  obtain ⟨⟨hs, hb, hsd, hbd, hday, hweek⟩, hburned⟩ := h
  have hfloor : ∀ {o : Option Nat} {k : Nat}, (∀ x ∈ o, x ≤ n) → k ≤ n →
      ∀ x ∈ o.or (some k), x ≤ n + secs := by
    intro o k ho hk x hx
    rcases Option.or_eq_some_iff.mp hx with hx | ⟨-, hx⟩
    · exact (ho x hx).trans (Nat.le_add_right n secs)
    · obtain rfl := Option.some.inj hx
      exact hk.trans (Nat.le_add_right _ secs)
  cases dim with
  | schedule =>
    refine ⟨⟨?_, ?_, ?_, ?_, ?_, ?_⟩, ?_⟩ <;> unfold ExtensionLedger.given <;> dsimp only
    · omega
    · omega
    · omega
    · omega
    · exact fun x hx => (hday x hx).trans (Nat.le_add_right n secs)
    · exact fun x hx => (hweek x hx).trans (Nat.le_add_right n secs)
    · omega
  | budget =>
    refine ⟨⟨?_, ?_, ?_, ?_, ?_, ?_⟩, ?_⟩ <;> unfold ExtensionLedger.given <;> dsimp only
    · omega
    · omega
    · omega
    · omega
    · exact hfloor hday hused.1
    · exact hfloor hweek hused.2
    · omega

theorem Roomy.takenBack (h : l.Roomy n) : (l.takenBack reqId dim secs).Roomy (n + secs) := by
  obtain ⟨⟨hs, hb, hsd, hbd, hday, hweek⟩, hburned⟩ := h
  cases dim <;> refine ⟨⟨?_, ?_, ?_, ?_, ?_, ?_⟩, ?_⟩ <;> unfold ExtensionLedger.takenBack <;>
    dsimp only
  all_goals first
    | omega
    | exact fun x hx => (hday x hx).trans (Nat.le_add_right n secs)
    | exact fun x hx => (hweek x hx).trans (Nat.le_add_right n secs)

/-- A note on its own day: what stands already is kept. -/
theorem noteBudgetBaseline_eq {now : Int} {today week : Nat}
    (hhalves : l.budgetBaselineTodaySecs.isSome = l.budgetBaselineWeekSecs.isSome)
    (hday : l.dayKeyAt zones now = l.dayKey) :
    l.noteBudgetBaseline zones now today week = { l with
      budgetBaselineTodaySecs := l.budgetBaselineTodaySecs.or (some today)
      budgetBaselineWeekSecs := l.budgetBaselineWeekSecs.or (some week) } := by
  unfold noteBudgetBaseline
  dsimp only
  rw [roll_of_current hday]
  obtain ⟨tz, dayKey, applied, schedule, budget, consumed, t, w, ds, db, extra, pools, seq⟩ := l
  dsimp only at hhalves ⊢
  cases t <;> cases w <;> first | rfl | cases hhalves

/-- A take-back under a new id. -/
theorem deduct_eq {now : Int} {minutes : Nat} (hnew : reqId ∉ (l.roll zones now).applied)
    (hroom : l.Roomy (2 ^ 62)) (hminutes : minutes ≤ 65535) :
    (l.deduct zones now reqId minutes dim).2 =
      (l.roll zones now).takenBack reqId dim (secsOf minutes) := by
  have hday := @Roomy.roll zones _ _ hroom now
  unfold ExtensionLedger.deduct once
  dsimp only
  generalize l.roll zones now = r at hnew hday ⊢
  rw [if_neg hnew]
  have hs := hday.scheduleDeduct
  have hb := hday.budgetDeduct
  unfold secsOf
  cases dim with
  | schedule =>
    dsimp only [ExtensionLedger.takenBack]
    rw [addU64_of_le (by unfold u64Max; omega)]
  | budget =>
    dsimp only [ExtensionLedger.takenBack]
    rw [addU64_of_le (by unfold u64Max; omega)]

end ExtensionLedger

namespace ChildEnforcer
variable {cal : Calendar} {c : ChildEnforcer} {now : Int} {reqId : String} {dim : Dimension}

open ExtensionLedger in
/-- A give under a new id. -/
theorem applyExtension_eq {minutes : Nat}
    (hnew : reqId ∉ (c.extension.roll cal.zones now).applied)
    (hnoted : c.extension.Noted) (hroom : c.extension.Roomy (2 ^ 62))
    (hminutes : minutes ≤ 65535) :
    (c.applyExtension cal now reqId minutes dim).2.extension =
      (c.extension.roll cal.zones now).given reqId dim (secsOf minutes)
        (c.usage.usedToday cal now, c.usage.usedWeek cal now) := by
  have hday := @Roomy.roll cal.zones _ _ hroom now
  have hkept := @Noted.roll cal.zones _ hnoted now
  have hcurrent : (c.extension.roll cal.zones now).dayKeyAt cal.zones now =
      (c.extension.roll cal.zones now).dayKey := roll_current_day
  unfold ChildEnforcer.applyExtension adjustExtension ExtensionLedger.apply once
  dsimp only
  generalize c.extension.roll cal.zones now = r at hnew hday hkept hcurrent ⊢
  rw [if_neg hnew]
  have hs := hday.schedule
  have hb := hday.budget
  unfold secsOf
  cases dim with
  | schedule =>
    dsimp only [ExtensionLedger.given]
    rw [wrapU64_of_lt (by omega)]
    rfl
  | budget =>
    have hsum : wrapU64 (r.budgetSecs + minutes * 60) = r.budgetSecs + minutes * 60 :=
      wrapU64_of_lt (by omega)
    simp only [hsum, decide_true, Bool.and_self, if_true]
    refine (noteBudgetBaseline_eq (l := { r with
      applied := r.applied ++ [reqId]
      budgetSecs := r.budgetSecs + minutes * 60 }) hkept.halves ?_).trans rfl
    exact current_of_credited hcurrent rfl rfl

end ChildEnforcer

/-! ## The axes after an entry -/

namespace EnforcerInputs
variable {cal : Calendar} {inp : EnforcerInputs}

open ExtensionLedger

variable (cal inp) in
/-- The axes, with the pools of a day. -/
def scheduleBy (p : TodayPools) : Int := inp.scheduleAt cal p.scheduleExtra p.scheduleDeducted

variable (cal inp) in
def budgetBy (p : TodayPools) : Int :=
  inp.budgetAt cal (wrapI64 (asI64 p.budgetExtra - asI64 p.budgetDeducted)) p.baseline

theorem axes_of_today {l : ExtensionLedger} {p : TodayPools}
    (h : l.today cal.zones inp.nowUnix = p) :
    { inp with extension := l }.scheduleSecs cal = inp.scheduleBy cal p ∧
      { inp with extension := l }.budgetSecs cal = inp.budgetBy cal p := by
  rw [scheduleSecs_eq, budgetSecs_eq, budgetNet_pools]
  unfold pools
  rw [h]
  exact ⟨rfl, rfl⟩

/-- Pools whose sums stay in range. -/
structure PoolsInRange (n : Nat) (p : TodayPools) : Prop where
  scheduleExtra : p.scheduleExtra ≤ n
  budgetExtra : p.budgetExtra ≤ n
  budgetDeducted : p.budgetDeducted ≤ n
  floor : ∀ q ∈ p.baseline, q.1 ≤ n ∧ q.2 ≤ n

variable {p : TodayPools} {secs : Nat} {used : Nat × Nat}

/-- A pair on the budget moves no net. -/
theorem budgetBy_pair (h : PoolsInRange (2 ^ 60) p) (hsecs : secs < 2 ^ 32)
    (floor : Option (Nat × Nat)) :
    inp.budgetBy cal { p with
        budgetExtra := p.budgetExtra + secs
        budgetDeducted := p.budgetDeducted + secs
        baseline := floor } =
      inp.budgetAt cal (p.budgetExtra - p.budgetDeducted) floor := by
  have hextra := h.budgetExtra
  have hdeducted := h.budgetDeducted
  unfold budgetBy
  dsimp only
  rw [asI64_of_lt (by omega), asI64_of_lt (by omega), wrapI64_of_mem (by omega) (by omega)]
  congr 1
  omega

/-- A child's counts of seconds are far from the end of their range, and its ledger is as the
enforcer keeps it. -/
structure Settled (inp : EnforcerInputs) : Prop where
  within : inp.Within smallSecs
  burned : inp.extension.scheduleConsumedSecs ≤ inp.extension.scheduleSecs
  noted : inp.extension.Noted

theorem Settled.pools (h : inp.Settled) : PoolsInRange (2 ^ 60) (inp.pools cal) := by
  have hreads : inp.extension.ReadsWithin cal.zones inp.nowUnix smallSecs :=
    h.within.extension.reads
  exact ⟨hreads.scheduleExtra, hreads.budgetExtra, hreads.budgetDeducted, hreads.baseline⟩

theorem Settled.ownUse (h : inp.Settled) : inp.usage.usedToday cal inp.nowUnix ≤ 2 ^ 60 ∧
    inp.usage.usedWeek cal inp.nowUnix ≤ 2 ^ 60 :=
  ⟨UsageLedger.usedToday_le cal inp.nowUnix h.within.usage,
    UsageLedger.usedWeek_le cal inp.nowUnix h.within.usage⟩

theorem Settled.net (h : inp.Settled) : inp.budgetNet cal =
    (inp.pools cal).budgetExtra - (inp.pools cal).budgetDeducted := by
  have hpools : PoolsInRange (2 ^ 60) (inp.pools cal) := h.pools
  have hextra := hpools.budgetExtra
  have hdeducted := hpools.budgetDeducted
  rw [budgetNet_pools, asI64_of_lt (by omega), asI64_of_lt (by omega)]
  exact wrapI64_of_mem (by omega) (by omega)

/-- No budget time was given on a day without a note. -/
theorem Settled.unnoted (h : inp.Settled) (hnone : (inp.pools cal).baseline = none) :
    (inp.pools cal).budgetExtra = 0 := by
  unfold EnforcerInputs.pools at hnone ⊢
  rw [today_roll] at hnone ⊢
  have hday : (inp.extension.roll cal.zones inp.nowUnix).Noted := h.noted.roll _
  refine hday.unnoted ?_
  have hhalves := hday.halves
  unfold held baseline at hnone
  dsimp only at hnone
  split at hnone
  · cases hnone
  · rename_i hboth
    cases hday' : (inp.extension.roll cal.zones inp.nowUnix).budgetBaselineTodaySecs with
    | none => rfl
    | some t =>
      cases hweek : (inp.extension.roll cal.zones inp.nowUnix).budgetBaselineWeekSecs with
      | none =>
        rw [hday', hweek] at hhalves
        cases hhalves
      | some w => exact absurd hweek (hboth t w hday')

/-- A give and a take-back of the budget are a move of it. -/
theorem Settled.moves_budget (h : inp.Settled) (hsecs : secs < 2 ^ 32) :
    AxisMoves (inp.budgetSecs cal) (inp.budgetGiven cal secs) (inp.budgetTaken cal secs) := by
  have hpools : PoolsInRange (2 ^ 60) (inp.pools cal) := h.pools
  have hextra := hpools.budgetExtra
  have hdeducted := hpools.budgetDeducted
  have hnet : inp.budgetNet cal = _ := h.net
  have hused : inp.usage.usedToday cal inp.nowUnix ≤ 2 ^ 60 ∧
      inp.usage.usedWeek cal inp.nowUnix ≤ 2 ^ 60 := h.ownUse
  have hfloor : ∀ q ∈ (inp.pools cal).baseline, q.1 ≤ 2 ^ 61 ∧ q.2 ≤ 2 ^ 61 := by
    intro q hq
    have hq := hpools.floor q hq
    omega
  have hfloor' : ∀ q ∈ (inp.pools cal).baseline.or
      (some (inp.usage.usedToday cal inp.nowUnix, inp.usage.usedWeek cal inp.nowUnix)),
      q.1 ≤ 2 ^ 61 ∧ q.2 ≤ 2 ^ 61 := by
    intro q hq
    rcases Option.or_eq_some_iff.mp hq with hq | ⟨-, hq⟩
    · exact hfloor q hq
    · obtain rfl := Option.some.inj hq
      dsimp only
      omega
  have hnow : NetInRange (inp.budgetNet cal) (inp.pools cal).baseline :=
    ⟨by omega, by omega, hfloor⟩
  have hless : NetInRange (inp.budgetNet cal - secs) (inp.pools cal).baseline :=
    ⟨by omega, by omega, hfloor⟩
  have hmore : NetInRange (inp.budgetNet cal + secs) ((inp.pools cal).baseline.or
      (some (inp.usage.usedToday cal inp.nowUnix, inp.usage.usedWeek cal inp.nowUnix))) :=
    ⟨by omega, by omega, hfloor'⟩
  have hup := @budgetAt_mono cal _ h.within.usage h.within.consolidated _ _ _ _ hnow hmore
    (by omega)
    (fun q hq => by rw [Option.mem_def.mp hq, Option.some_or])
  have hdown := @budgetAt_mono cal _ h.within.usage h.within.consolidated _ _ _ _ hless hnow
    (by omega)
    (fun q hq => hq)
  have hleast : ∀ net floor, -1 ≤ inp.budgetAt cal net floor := fun _ _ => clampLeft_ge _
  have htaken := hleast (inp.budgetNet cal - secs) (inp.pools cal).baseline
  have hhere := hleast (inp.budgetNet cal) (inp.pools cal).baseline
  rw [budgetSecs_eq]
  unfold budgetGiven budgetTaken
  constructor
  · exact hhere
  · omega
  · omega

end EnforcerInputs

/-! ## A child after an entry -/

namespace ChildEnforcer
variable (cal : Calendar) (c : ChildEnforcer) (now : Int) (e : AdjustEntry)

open ExtensionLedger

/-- The limit that an entry goes to. -/
def route : Dimension := dimensionFor (computeRemaining cal (c.inputs now))

/-- What the device itself has been used today and this week. -/
def used : Nat × Nat := (c.usage.usedToday cal now, c.usage.usedWeek cal now)

/-- A child after an entry that takes effect. -/
def adjusted : ChildEnforcer :=
  if 0 < e.minutes then (c.applyExtension cal now e.reqId e.magnitude (c.route cal now)).2
  else (c.adjustExtension fun l =>
    l.deduct cal.zones now e.reqId e.magnitude (c.route cal now)).2

end ChildEnforcer

/-- The pools after an entry. -/
def AdjustEntry.moved (e : AdjustEntry) (dim : Dimension) (used : Nat × Nat)
    (p : ExtensionLedger.TodayPools) : ExtensionLedger.TodayPools :=
  if 0 < e.minutes then p.given dim (ExtensionLedger.secsOf e.magnitude) used
  else p.takenBack dim (ExtensionLedger.secsOf e.magnitude)

namespace ChildEnforcer
variable {cal : Calendar} {c : ChildEnforcer} {now : Int} {e : AdjustEntry}

open ExtensionLedger

/-- **What an entry that takes effect leaves**: its minutes in the pools, its id on the list, and a
ledger of today. -/
structure EntryApplied (cal : Calendar) (c : ChildEnforcer) (now : Int) (e : AdjustEntry)
    (c' : ChildEnforcer) : Prop where
  inputs : c'.inputs now = { c.inputs now with extension := c'.extension }
  pools : c'.extension.today cal.zones now =
    e.moved (c.route cal now) (c.used cal now) (c.extension.today cal.zones now)
  applied : c'.extension.applied = (c.extension.roll cal.zones now).applied ++ [e.reqId]
  current : c'.extension.dayKeyAt cal.zones now = c'.extension.dayKey
  noted : c'.extension.Noted
  roomy : ∀ n, c.extension.Roomy n → (c.used cal now).1 ≤ n ∧ (c.used cal now).2 ≤ n →
    c'.extension.Roomy (n + secsOf e.magnitude)

theorem adjusted_spec (hnew : e.reqId ∉ (c.extension.roll cal.zones now).applied)
    (hnoted : c.extension.Noted) (hroom : c.extension.Roomy (2 ^ 62)) :
    EntryApplied cal c now e (c.adjusted cal now e) := by
  have hmagnitude : e.magnitude ≤ 65535 := Nat.min_le_right _ _
  have hday := @Noted.roll cal.zones _ hnoted now
  have hcurrent : (c.extension.roll cal.zones now).dayKeyAt cal.zones now =
      (c.extension.roll cal.zones now).dayKey := roll_current_day
  have hburned : (c.extension.roll cal.zones now).scheduleConsumedSecs ≤
      (c.extension.roll cal.zones now).scheduleSecs := (hroom.roll now).burned
  have hrolled : ∀ n, c.extension.Roomy n → (c.extension.roll cal.zones now).Roomy n :=
    fun n hn => hn.roll now
  have htoday : c.extension.today cal.zones now = (c.extension.roll cal.zones now).held :=
    today_roll
  have hgiven := @applyExtension_eq _ c _ _ (c.route cal now) _ hnew hnoted hroom hmagnitude
  have htaken := @deduct_eq _ _ _ (c.route cal now) _ _ hnew hroom hmagnitude
  unfold adjusted
  split
  · rename_i hgive
    refine ⟨rfl, ?_, ?_, ?_, ?_, ?_⟩ <;> rw [hgiven]
    · unfold AdjustEntry.moved
      rw [if_pos hgive, htoday, ← held_given hday hburned]
      exact today_of_credited hcurrent (given_day _).1 (given_day _).2
    · exact given_applied _
    · exact current_of_credited hcurrent (given_day _).1 (given_day _).2
    · exact hday.given
    · exact fun n hn hused => (hrolled n hn).given hused
  · rename_i htake
    have hext : (c.adjustExtension fun l => l.deduct cal.zones now e.reqId e.magnitude
        (c.route cal now)).2.extension = _ := htaken
    refine ⟨rfl, ?_, ?_, ?_, ?_, ?_⟩ <;> rw [hext]
    · unfold AdjustEntry.moved
      rw [if_neg htake, htoday, ← held_takenBack]
      exact today_of_credited hcurrent (takenBack_day _).1 (takenBack_day _).2
    · exact takenBack_applied _
    · exact current_of_credited hcurrent (takenBack_day _).1 (takenBack_day _).2
    · exact hday.takenBack
    · exact fun n hn _ => (hrolled n hn).takenBack

end ChildEnforcer

end Kintrinsic
