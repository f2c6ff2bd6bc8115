import Kintrinsic.AdjustPair

/-! # When a pair cancels

A take-back and then a give always cancel.  A give and then a take-back cancel unless the give lifts
the nearer limit past the other, and then only by chance. -/
namespace Kintrinsic

open ExtensionLedger MachineWord

/-! ## Where the second entry goes -/

namespace EnforcerInputs
variable (cal : Calendar) (inp : EnforcerInputs)

/-- Given to the schedule, the time lifts it up to the budget or past it, and what is then taken from
the budget is felt. -/
structure LiftsSchedule (secs : Nat) : Prop where
  nearest : dimensionFor (computeRemaining cal inp) = .schedule
  opens : 0 < inp.scheduleGiven cal secs
  bounded : 0 ≤ inp.budgetSecs cal
  past : inp.budgetSecs cal ≤ inp.scheduleGiven cal secs
  felt : ¬(0 < inp.scheduleSecs cal ∧
    capped inp.standDown (inp.scheduleSecs cal) = capped inp.standDown (inp.budgetTaken cal secs))

/-- Given to the budget, the time lifts it past an open schedule that is all that is left to lock,
and what is then taken from the schedule is felt. -/
structure LiftsBudget (secs : Nat) : Prop where
  nearest : dimensionFor (computeRemaining cal inp) = .budget
  wellFormed : inp.malformed cal = false
  standing : landed inp.standDown = false
  opened : 0 < inp.scheduleSecs cal
  past : inp.scheduleSecs cal < inp.budgetGiven cal secs
  felt : ¬(0 < inp.budgetSecs cal ∧
    capped inp.standDown (inp.budgetSecs cal) = capped inp.standDown (inp.scheduleTaken cal secs))

/-- The give takes the take-back's place away. -/
def GiveLifts (secs : Nat) : Prop := inp.LiftsSchedule cal secs ∨ inp.LiftsBudget cal secs

end EnforcerInputs

/-! ## Two entries on one child -/

/-- A give and a take-back of as many minutes, dated today and new to the child's ledger. -/
structure PairFor (cal : Calendar) (c : ChildEnforcer) (now : Int) (give take : AdjustEntry) :
    Prop where
  positive : 0 < give.minutes
  equal : take.minutes = -give.minutes
  distinct : give.reqId ≠ take.reqId
  giveToday : c.extension.sameDay cal.zones give.at_ now = true
  takeToday : c.extension.sameDay cal.zones take.at_ now = true
  giveNew : give.reqId ∉ (c.extension.roll cal.zones now).applied
  takeNew : take.reqId ∉ (c.extension.roll cal.zones now).applied

namespace ChildEnforcer
variable {cal : Calendar} {c c₁ : ChildEnforcer} {now : Int} {e e' : AdjustEntry}

/-- The ledger after one entry has room for another. -/
theorem EntryApplied.next (h : EntryApplied cal c now e c₁) (hc : (c.inputs now).Settled)
    (hnew : e'.reqId ∉ (c.extension.roll cal.zones now).applied) (hne : e.reqId ≠ e'.reqId) :
    EntryApplied cal c₁ now e' (c₁.adjusted cal now e') := by
  have hroomy : c.extension.Roomy (2 ^ 60) := ⟨hc.within.extension, hc.burned⟩
  have hsmall := h.roomy (2 ^ 60) hroomy hc.ownUse
  have hmagnitude : e.magnitude ≤ 65535 := Nat.min_le_right _ _
  have hbound : 2 ^ 60 + secsOf e.magnitude ≤ 2 ^ 62 := by
    unfold secsOf
    omega
  refine adjusted_spec ?_ h.noted ⟨hsmall.toWithin.mono hbound, hsmall.burned⟩
  rw [roll_of_current h.current, h.applied, List.mem_append, List.mem_singleton]
  rintro (hmem | heq)
  · exact hnew hmem
  · exact hne heq.symm

theorem EntryApplied.used (h : EntryApplied cal c now e c₁) : c₁.used cal now = c.used cal now := by
  have husage : c₁.usage = c.usage := congrArg EnforcerInputs.usage h.inputs
  unfold ChildEnforcer.used
  rw [husage]

/-- The axes that an entry leaves. -/
theorem EntryApplied.axes (h : EntryApplied cal c now e c₁) :
    (c₁.inputs now).scheduleSecs cal = (c.inputs now).scheduleBy cal
        (e.moved (c.route cal now) (c.used cal now) ((c.inputs now).pools cal)) ∧
      (c₁.inputs now).budgetSecs cal = (c.inputs now).budgetBy cal
        (e.moved (c.route cal now) (c.used cal now) ((c.inputs now).pools cal)) := by
  rw [h.inputs]
  exact EnforcerInputs.axes_of_today h.pools

/-- The axes that two entries leave. -/
theorem EntryApplied.axes_after {c₂ : ChildEnforcer} (h : EntryApplied cal c now e c₁)
    (h' : EntryApplied cal c₁ now e' c₂) :
    (c₂.inputs now).scheduleSecs cal = (c.inputs now).scheduleBy cal
        (e'.moved (c₁.route cal now) (c.used cal now)
          (e.moved (c.route cal now) (c.used cal now) ((c.inputs now).pools cal))) ∧
      (c₂.inputs now).budgetSecs cal = (c.inputs now).budgetBy cal
        (e'.moved (c₁.route cal now) (c.used cal now)
          (e.moved (c.route cal now) (c.used cal now) ((c.inputs now).pools cal))) := by
  have hpools : (c₁.inputs now).pools cal =
      e.moved (c.route cal now) (c.used cal now) ((c.inputs now).pools cal) := h.pools
  have haxes := h'.axes
  rw [hpools, h.used, h.inputs] at haxes
  exact haxes

/-- An entry moves neither the schedule's clause nor the stand-down. -/
theorem EntryApplied.kept (h : EntryApplied cal c now e c₁) :
    (c₁.inputs now).malformed cal = (c.inputs now).malformed cal ∧
      (c₁.inputs now).standDown = (c.inputs now).standDown := by
  rw [h.inputs]
  exact ⟨rfl, rfl⟩

theorem EntryApplied.route_eq (h : EntryApplied cal c now e c₁) {s b : Int}
    (hs : (c₁.inputs now).scheduleSecs cal = s) (hb : (c₁.inputs now).budgetSecs cal = b) :
    c₁.route cal now = routeOf
      (feltOf ((c.inputs now).malformed cal) (c.inputs now).standDown s b) s b := by
  unfold ChildEnforcer.route
  rw [EnforcerInputs.route_eq, h.kept.1, h.kept.2, hs, hb]

end ChildEnforcer

namespace EnforcerInputs
variable {cal : Calendar} {inp : EnforcerInputs} {secs : Nat}

/-- The budget axis of one move. -/
theorem Settled.budgetBy_takenBack (h : inp.Settled) (hsecs : secs < 2 ^ 32) :
    inp.budgetBy cal ((inp.pools cal).takenBack .budget secs) = inp.budgetTaken cal secs := by
  have hpools : PoolsInRange (2 ^ 60) (inp.pools cal) := h.pools
  have hextra := hpools.budgetExtra
  have hdeducted := hpools.budgetDeducted
  have hnet : inp.budgetNet cal = _ := h.net
  unfold budgetBy budgetTaken TodayPools.takenBack
  dsimp only
  rw [hnet, asI64_of_lt (by omega), asI64_of_lt (by omega), wrapI64_of_mem (by omega) (by omega)]
  congr 1
  omega

theorem Settled.budgetBy_given (h : inp.Settled) (hsecs : secs < 2 ^ 32) :
    inp.budgetBy cal ((inp.pools cal).given .budget secs
      (inp.usage.usedToday cal inp.nowUnix, inp.usage.usedWeek cal inp.nowUnix)) =
        inp.budgetGiven cal secs := by
  have hpools : PoolsInRange (2 ^ 60) (inp.pools cal) := h.pools
  have hextra := hpools.budgetExtra
  have hdeducted := hpools.budgetDeducted
  have hnet : inp.budgetNet cal = _ := h.net
  unfold budgetBy budgetGiven TodayPools.given
  dsimp only
  rw [hnet, asI64_of_lt (by omega), asI64_of_lt (by omega), wrapI64_of_mem (by omega) (by omega)]
  congr 1
  omega

/-- **On the budget a pair cancels**: the note it may leave lifts only what is overdrawn anyway. -/
theorem Settled.budgetBy_cancel (h : inp.Settled) (hsecs : secs < 2 ^ 32) :
    inp.budgetBy cal { inp.pools cal with
        budgetExtra := (inp.pools cal).budgetExtra + secs
        budgetDeducted := (inp.pools cal).budgetDeducted + secs
        baseline := (inp.pools cal).baseline.or
          (some (inp.usage.usedToday cal inp.nowUnix, inp.usage.usedWeek cal inp.nowUnix)) } =
      inp.budgetSecs cal := by
  have hpools : PoolsInRange (2 ^ 60) (inp.pools cal) := h.pools
  rw [budgetBy_pair hpools hsecs, budgetSecs_eq, h.net]
  cases hnone : (inp.pools cal).baseline with
  | some floor => rw [Option.some_or]
  | none =>
    have hdeducted := hpools.budgetDeducted
    have hzero : (inp.pools cal).budgetExtra = 0 := h.unnoted hnone
    rw [Option.none_or]
    exact budgetAt_noted h.within.usage h.within.consolidated (by omega) (by omega)

/-- On the schedule it cancels as well. -/
theorem Settled.scheduleAt_cancel (h : inp.Settled) (hsecs : secs < 2 ^ 32) :
    inp.scheduleAt cal ((inp.pools cal).scheduleExtra + secs)
        ((inp.pools cal).scheduleDeducted + secs) = inp.scheduleSecs cal := by
  have hpools : PoolsInRange (2 ^ 60) (inp.pools cal) := h.pools
  have hextra := hpools.scheduleExtra
  rw [scheduleSecs_eq]
  exact scheduleAt_pair (by omega) hsecs

theorem Settled.moves_schedule (h : inp.Settled) (hsecs : secs < 2 ^ 32) :
    AxisMoves (inp.scheduleSecs cal) (inp.scheduleGiven cal secs) (inp.scheduleTaken cal secs) := by
  have hpools : PoolsInRange (2 ^ 60) (inp.pools cal) := h.pools
  have hextra := hpools.scheduleExtra
  exact EnforcerInputs.moves_schedule (by omega) hsecs

theorem budgetBy_pools : inp.budgetBy cal (inp.pools cal) = inp.budgetSecs cal := by
  rw [budgetSecs_eq, budgetNet_pools]
  rfl

theorem scheduleBy_pools : inp.scheduleBy cal (inp.pools cal) = inp.scheduleSecs cal := by
  rw [scheduleSecs_eq]
  rfl

/-- A malformed schedule is closed, whatever is given or taken. -/
theorem scheduleSecs_of_malformed (h : inp.malformed cal = true) :
    inp.scheduleSecs cal = 0 ∧ inp.scheduleGiven cal secs = 0 ∧ inp.scheduleTaken cal secs = 0 := by
  rw [scheduleSecs_eq]
  exact ⟨scheduleAt_of_malformed h _ _, scheduleAt_of_malformed h _ _,
    scheduleAt_of_malformed h _ _⟩

end EnforcerInputs

/-! ## The pair -/

namespace PairFor
variable {cal : Calendar} {c : ChildEnforcer} {now : Int} {give take : AdjustEntry}

theorem magnitude_eq (h : PairFor cal c now give take) : take.magnitude = give.magnitude := by
  unfold AdjustEntry.magnitude
  rw [h.equal, Int.natAbs_neg]

theorem magnitude_pos (h : PairFor cal c now give take) : 0 < give.magnitude := by
  have hpos := h.positive
  unfold AdjustEntry.magnitude
  omega

/-- The seconds of either entry. -/
def secs (give : AdjustEntry) : Nat := secsOf give.magnitude

theorem secs_lt (give : AdjustEntry) : secs give < 2 ^ 32 := by
  have hmagnitude : give.magnitude ≤ 65535 := Nat.min_le_right _ _
  unfold secs secsOf
  omega

theorem moved_give (h : PairFor cal c now give take) (dim : Dimension) (used : Nat × Nat)
    (p : TodayPools) : give.moved dim used p = p.given dim (secs give) used :=
  if_pos h.positive

theorem moved_take (h : PairFor cal c now give take) (dim : Dimension) (used : Nat × Nat)
    (p : TodayPools) : take.moved dim used p = p.takenBack dim (secs give) := by
  have hneg : ¬0 < take.minutes := by
    have hpos := h.positive
    have hequal := h.equal
    omega
  unfold AdjustEntry.moved secs
  rw [if_neg hneg, h.magnitude_eq]

/-- What is felt after both entries. -/
def feltAfter (cal : Calendar) (c : ChildEnforcer) (now : Int) (e e' : AdjustEntry) : Felt :=
  (computeRemaining cal (((c.adjusted cal now e).adjusted cal now e').inputs now)).felt

/-- **A take-back and then a give leave everything as it was.** -/
theorem take_first (h : PairFor cal c now give take) (hc : (c.inputs now).Settled) :
    feltAfter cal c now take give = (computeRemaining cal (c.inputs now)).felt := by
  have hroomy : c.extension.Roomy (2 ^ 60) := ⟨hc.within.extension, hc.burned⟩
  have hsecs := secs_lt give
  have hspec : ChildEnforcer.EntryApplied cal c now take (c.adjusted cal now take) :=
    ChildEnforcer.adjusted_spec h.takeNew hc.noted
      ⟨hroomy.toWithin.mono (by decide), hroomy.burned⟩
  have hspec' := hspec.next hc h.giveNew h.distinct.symm
  have hafter := hspec.axes
  have haxes := hspec.axes_after hspec'
  rw [h.moved_take] at hafter haxes
  rw [h.moved_give] at haxes
  have hmalformed := fun hm => @EnforcerInputs.scheduleSecs_of_malformed cal (c.inputs now)
    (secs give) hm
  have hs := @EnforcerInputs.Settled.moves_schedule cal _ _ hc hsecs
  have hb := @EnforcerInputs.Settled.moves_budget cal _ _ hc hsecs
  unfold feltAfter
  rw [EnforcerInputs.felt_eq, EnforcerInputs.felt_eq, hspec'.kept.1, hspec'.kept.2, hspec.kept.1,
    hspec.kept.2]
  cases hroute : c.route cal now with
  | schedule =>
    rw [hroute] at hafter haxes
    have hbefore := hroute
    unfold ChildEnforcer.route at hbefore
    rw [EnforcerInputs.route_eq] at hbefore
    have hnext : (c.adjusted cal now take).route cal now = .schedule := by
      rw [hspec.route_eq hafter.1 (hafter.2.trans EnforcerInputs.budgetBy_pools)]
      exact route_after_take_schedule hs hb.least
        (fun hm => ⟨(hmalformed hm).1, (hmalformed hm).2.2⟩)
        hbefore
    rw [hnext] at haxes
    have hschedule : _ = (c.inputs now).scheduleSecs cal :=
      haxes.1.trans (hc.scheduleAt_cancel hsecs)
    have hbudget : _ = (c.inputs now).budgetSecs cal := haxes.2.trans EnforcerInputs.budgetBy_pools
    rw [hschedule, hbudget]
  | budget =>
    rw [hroute] at hafter haxes
    have hbefore := hroute
    unfold ChildEnforcer.route at hbefore
    rw [EnforcerInputs.route_eq] at hbefore
    have hnext : (c.adjusted cal now take).route cal now = .budget := by
      rw [hspec.route_eq (hafter.1.trans EnforcerInputs.scheduleBy_pools)
        (hafter.2.trans (hc.budgetBy_takenBack hsecs))]
      exact route_after_take_budget hs.least hb (fun hm => (hmalformed hm).1) hbefore
    rw [hnext] at haxes
    have hschedule : _ = (c.inputs now).scheduleSecs cal :=
      haxes.1.trans EnforcerInputs.scheduleBy_pools
    have hbudget : _ = (c.inputs now).budgetSecs cal := haxes.2.trans (hc.budgetBy_cancel hsecs)
    rw [hschedule, hbudget]

/-- **A give and then a take-back leave everything as it was** exactly when the give does not lift
the nearer limit past the other one. -/
theorem give_first (h : PairFor cal c now give take) (hc : (c.inputs now).Settled) :
    feltAfter cal c now give take = (computeRemaining cal (c.inputs now)).felt ↔
      ¬(c.inputs now).GiveLifts cal (secs give) := by
  have hroomy : c.extension.Roomy (2 ^ 60) := ⟨hc.within.extension, hc.burned⟩
  have hsecs := secs_lt give
  have hspec : ChildEnforcer.EntryApplied cal c now give (c.adjusted cal now give) :=
    ChildEnforcer.adjusted_spec h.giveNew hc.noted
      ⟨hroomy.toWithin.mono (by decide), hroomy.burned⟩
  have hspec' := hspec.next hc h.takeNew h.distinct
  have hafter := hspec.axes
  have haxes := hspec.axes_after hspec'
  rw [h.moved_give] at hafter haxes
  rw [h.moved_take] at haxes
  have hmalformed := fun hm => @EnforcerInputs.scheduleSecs_of_malformed cal (c.inputs now)
    (secs give) hm
  have hs := @EnforcerInputs.Settled.moves_schedule cal _ _ hc hsecs
  have hb := @EnforcerInputs.Settled.moves_budget cal _ _ hc hsecs
  unfold feltAfter
  rw [EnforcerInputs.felt_eq, EnforcerInputs.felt_eq, hspec'.kept.1, hspec'.kept.2, hspec.kept.1,
    hspec.kept.2]
  cases hroute : c.route cal now with
  | schedule =>
    rw [hroute] at hafter haxes
    have hbefore := hroute
    unfold ChildEnforcer.route at hbefore
    rw [EnforcerInputs.route_eq] at hbefore
    have hcross := route_after_give_schedule hs hb.least
      (fun hm => ⟨(hmalformed hm).1, (hmalformed hm).2.1⟩) hbefore
    have hnext := hspec.route_eq hafter.1 (hafter.2.trans EnforcerInputs.budgetBy_pools)
    change _ = routeOf (feltOf _ _ ((c.inputs now).scheduleGiven cal (secs give)) _)
      ((c.inputs now).scheduleGiven cal (secs give)) _ at hnext
    rw [← hnext] at hcross
    obtain ⟨hm, hl, hnear, hnearest⟩ :=
      (routeOf_schedule_iff hs.least hb.least fun hm => (hmalformed hm).1).mp hbefore
    cases hagain : (c.adjusted cal now give).route cal now with
    | schedule =>
      -- both go to the schedule
      rw [hagain] at haxes hcross
      have hschedule : _ = (c.inputs now).scheduleSecs cal :=
        haxes.1.trans (hc.scheduleAt_cancel hsecs)
      have hbudget : _ = (c.inputs now).budgetSecs cal :=
        haxes.2.trans EnforcerInputs.budgetBy_pools
      rw [hschedule, hbudget]
      refine iff_of_true rfl ?_
      rintro (hlift | hlift)
      · cases hcross.mpr ⟨hlift.opens, hlift.bounded, hlift.past⟩
      · have hother : c.route cal now = .budget := hlift.nearest
        rw [hroute] at hother
        cases hother
    | budget =>
      rw [hagain] at haxes hcross
      obtain ⟨hopens, hbounded, hpast⟩ := hcross.mp rfl
      have hbudget : _ = (c.inputs now).budgetTaken cal (secs give) :=
        haxes.2.trans (hc.budgetBy_takenBack hsecs)
      have hschedule : _ = (c.inputs now).scheduleGiven cal (secs give) := haxes.1
      rw [hschedule, hbudget, hm, felt_crossed_schedule hl hnear (by omega) hopens hpast
        (hb.bounded hbounded).2]
      constructor
      · rintro hchance (hlift | hlift)
        · exact hlift.felt hchance
        · have hother : c.route cal now = .budget := hlift.nearest
          rw [hroute] at hother
          cases hother
      · intro hnot
        by_contra hfelt
        exact hnot (.inl ⟨hroute, hopens, hbounded, hpast, hfelt⟩)
  | budget =>
    rw [hroute] at hafter haxes
    have hbefore := hroute
    unfold ChildEnforcer.route at hbefore
    rw [EnforcerInputs.route_eq] at hbefore
    have hcross := route_after_give_budget hs.least hb (fun hm => (hmalformed hm).1) hbefore
    rw [← hspec.route_eq (hafter.1.trans EnforcerInputs.scheduleBy_pools)
      (hafter.2.trans (hc.budgetBy_given hsecs))] at hcross
    cases hagain : (c.adjusted cal now give).route cal now with
    | budget =>
      -- both go to the budget
      rw [hagain] at haxes hcross
      have hschedule : _ = (c.inputs now).scheduleSecs cal :=
        haxes.1.trans EnforcerInputs.scheduleBy_pools
      have hbudget : _ = (c.inputs now).budgetSecs cal := haxes.2.trans (hc.budgetBy_cancel hsecs)
      rw [hschedule, hbudget]
      refine iff_of_true rfl ?_
      rintro (hlift | hlift)
      · have hother : c.route cal now = .schedule := hlift.nearest
        rw [hroute] at hother
        cases hother
      · cases hcross.mpr ⟨hlift.wellFormed, hlift.standing, hlift.opened, hlift.past⟩
    | schedule =>
      rw [hagain] at haxes hcross
      obtain ⟨hm, hl, hopened, hpast⟩ := hcross.mp rfl
      have hnear : 0 ≤ (c.inputs now).budgetSecs cal ∧
          (c.inputs now).budgetSecs cal ≤ (c.inputs now).scheduleSecs cal := by
        rw [routeOf_budget_iff, routeOf_schedule_iff hs.least hb.least
          fun hm => (hmalformed hm).1] at hbefore
        by_contra hnone
        exact hbefore ⟨hm, hl, hopened.le, by omega⟩
      have hschedule : _ = (c.inputs now).scheduleTaken cal (secs give) := haxes.1
      have hbudget : _ = (c.inputs now).budgetGiven cal (secs give) :=
        haxes.2.trans (hc.budgetBy_given hsecs)
      rw [hschedule, hbudget, hm, felt_crossed_budget hl hopened hnear hpast
        (hs.bounded hopened.le).2]
      constructor
      · rintro hchance (hlift | hlift)
        · have hother : c.route cal now = .schedule := hlift.nearest
          rw [hroute] at hother
          cases hother
        · exact hlift.felt hchance
      · intro hnot
        by_contra hfelt
        exact hnot (.inr ⟨hroute, hm, hl, hopened, hpast, hfelt⟩)

end PairFor

end Kintrinsic
