import Kintrinsic.FirstGrant

/-! # Time given and taken back at the computer

An admin's record is read at every tick.  Each entry that is dated today goes to the limit that the
child is up against at that moment, once by its id. -/
namespace Kintrinsic

open MachineWord

/-! ## The record -/

/-- One give or take-back. -/
structure AdjustEntry where
  id : String
  minutes : Int
  at_ : Int
  by_ : Option String
deriving DecidableEq

structure AdjustRecord where
  v : Nat
  entries : List AdjustEntry
deriving DecidableEq

def adjustVersion : Nat := 1

/-- `AdjustRecord::load`: a file that is not there, does not parse or is of another version has no
entries. -/
def AdjustRecord.load (file : Option AdjustRecord) : AdjustRecord :=
  (file.filter fun r => r.v = adjustVersion).getD ⟨adjustVersion, []⟩

/-- `dimension_for`: whichever wall the child is up against. -/
def dimensionFor (r : Remaining) : Dimension :=
  if r.locked then if r.reason = some .schedule then .schedule else .budget
  else if 0 ≤ r.scheduleSecs ∧ 0 ≤ r.budgetSecs then
    if r.scheduleSecs < r.budgetSecs then .schedule else .budget
  else if 0 ≤ r.scheduleSecs then .schedule
  else .budget

namespace AdjustEntry
variable (e : AdjustEntry)

/-- The id that an entry is applied by. -/
def reqId : String := "local:" ++ e.id

def magnitude : Nat := min e.minutes.natAbs 65535

end AdjustEntry

/-- `same_day`. -/
def ExtensionLedger.sameDay (zones : Zones) (l : ExtensionLedger) (a b : Int) : Bool :=
  decide (l.dayKeyAt zones a = l.dayKeyAt zones b)

namespace MultiChildEnforcer
variable (cal : Calendar) (m : MultiChildEnforcer)

/-- `same_enforcement_day`. -/
def sameEnforcementDay (uid : UInt32) (a b : Int) : Option Bool :=
  (m.children uid).map fun c => c.extension.sameDay cal.zones a b

/-- One entry of `apply_to`. -/
def applyEntry (uid : UInt32) (now : Int) (s : Int × MultiChildEnforcer) (e : AdjustEntry) :
    Int × MultiChildEnforcer :=
  if s.2.sameEnforcementDay cal uid e.at_ now ≠ some true then s
  else
    match s.2.remaining cal uid now with
    | none => s
    | some rem =>
      if e.magnitude = 0 then s
      else
        let r := if 0 < e.minutes then
            s.2.applyExtension cal uid now e.reqId e.magnitude (dimensionFor rem)
          else s.2.deductExtension cal uid now e.reqId e.magnitude (dimensionFor rem)
        (if r.1 then (s.1 + e.minutes).bmod (2 ^ 32) else s.1, r.2)

/-- `apply_to`: the net minutes that were newly applied, and the enforcer. -/
def applyTo (uid : UInt32) (now : Int) (record : AdjustRecord) : Int × MultiChildEnforcer :=
  record.entries.foldl (applyEntry cal uid now) (0, m)

end MultiChildEnforcer

/-! ## What a child feels -/

/-- What a child feels of its limits. -/
structure Felt where
  effectiveSecs : Int
  locked : Bool
  reason : Option LockReason
deriving DecidableEq

def Remaining.felt (r : Remaining) : Felt := ⟨r.effectiveSecs, r.locked, r.reason⟩

/-- A number of seconds under a stand-down. -/
def capped (sd : Option StandDown) (n : Int) : Int :=
  (sd.map fun sd => sd.over n).getD n

def landed (sd : Option StandDown) : Bool := (sd.map StandDown.hasLanded).getD false

/-- What is felt of the two axes. -/
def feltOf (malformed : Bool) (sd : Option StandDown) (schedule budget : Int) : Felt :=
  let effective := capped sd (minUnbounded schedule budget)
  ⟨effective, decide (effective = 0),
    if effective = 0 then some (lockReason malformed (landed sd) schedule) else none⟩

/-- The limit that an entry goes to, by what is felt and by the axes. -/
def routeOf (f : Felt) (schedule budget : Int) : Dimension :=
  if f.locked then if f.reason = some .schedule then .schedule else .budget
  else if 0 ≤ schedule ∧ 0 ≤ budget then if schedule < budget then .schedule else .budget
  else if 0 ≤ schedule then .schedule
  else .budget

namespace EnforcerInputs
variable (cal : Calendar) (inp : EnforcerInputs)

def malformed : Bool := (scheduleBase cal.zones inp.nowUnix inp.schedule).malformed

theorem felt_eq : (computeRemaining cal inp).felt =
    feltOf (inp.malformed cal) inp.standDown (inp.scheduleSecs cal) (inp.budgetSecs cal) := by
  unfold Remaining.felt feltOf computeRemaining
  simp only
  rfl

theorem route_eq : dimensionFor (computeRemaining cal inp) =
    routeOf (feltOf (inp.malformed cal) inp.standDown (inp.scheduleSecs cal) (inp.budgetSecs cal))
      (inp.scheduleSecs cal) (inp.budgetSecs cal) := by
  rw [← felt_eq]
  rfl

end EnforcerInputs

/-! ## Two axes and a pair of moves -/

section Axes
variable {malformed : Bool} {sd : Option StandDown} {schedule budget : Int}

/-- A stand-down locks when it has landed, and with nothing left under it. -/
theorem capped_eq_zero_iff {n : Int} (hn : -1 ≤ n) :
    capped sd n = 0 ↔ landed sd = true ∨ n = 0 := by
  unfold capped landed
  cases sd with
  | none => simp
  | some sd =>
    dsimp only [Option.map_some, Option.getD_some]
    have hlanded : sd.hasLanded = true ↔ max sd.secsUntilLock 0 = 0 := decide_eq_true_iff
    rw [hlanded]
    unfold StandDown.over
    dsimp only
    split <;> omega

theorem minUnbounded_eq_zero_iff (hschedule : -1 ≤ schedule) (hbudget : -1 ≤ budget) :
    minUnbounded schedule budget = 0 ↔ schedule = 0 ∨ budget = 0 := by
  unfold minUnbounded
  split <;> split <;> omega

theorem minUnbounded_ge (hschedule : -1 ≤ schedule) (hbudget : -1 ≤ budget) :
    -1 ≤ minUnbounded schedule budget := by
  unfold minUnbounded
  split <;> split <;> omega

/-- What locks. -/
theorem felt_locked_iff (hschedule : -1 ≤ schedule) (hbudget : -1 ≤ budget) :
    (feltOf malformed sd schedule budget).locked = true ↔
      landed sd = true ∨ schedule = 0 ∨ budget = 0 := by
  unfold feltOf
  rw [decide_eq_true_eq, capped_eq_zero_iff (minUnbounded_ge hschedule hbudget),
    minUnbounded_eq_zero_iff hschedule hbudget]

/-- What it is put down to. -/
theorem felt_reason (h : (feltOf malformed sd schedule budget).locked = true) :
    (feltOf malformed sd schedule budget).reason =
      some (lockReason malformed (landed sd) schedule) :=
  if_pos (of_decide_eq_true h)

theorem lockReason_schedule_iff (stoodDown : Bool) :
    lockReason malformed stoodDown schedule = .schedule ↔
      malformed = false ∧ stoodDown = false ∧ schedule = 0 := by
  unfold lockReason
  cases malformed <;> cases stoodDown <;> by_cases h : schedule = 0 <;> simp [h]

/-- **When an entry goes to the schedule**: nothing else locks, and it is the nearer limit, closed
or the only one. -/
theorem routeOf_schedule_iff (hschedule : -1 ≤ schedule) (hbudget : -1 ≤ budget)
    (hmalformed : malformed = true → schedule = 0) :
    routeOf (feltOf malformed sd schedule budget) schedule budget = .schedule ↔
      malformed = false ∧ landed sd = false ∧ 0 ≤ schedule ∧
        (schedule = 0 ∨ budget < 0 ∨ schedule < budget) := by
  unfold routeOf
  by_cases hlocked : (feltOf malformed sd schedule budget).locked = true
  · rw [if_pos hlocked, felt_reason hlocked]
    have hwhy := (felt_locked_iff hschedule hbudget).mp hlocked
    have hroute : ∀ {p : Prop} [Decidable p],
        (if p then Dimension.schedule else .budget) = .schedule ↔ p := by
      intro p _
      split <;> simp [*]
    rw [hroute, Option.some_inj, lockReason_schedule_iff]
    constructor
    · rintro ⟨hm, hl, rfl⟩
      exact ⟨hm, hl, le_rfl, .inl rfl⟩
    · rintro ⟨hm, hl, hpos, hnear⟩
      rw [hl] at hwhy
      refine ⟨hm, hl, ?_⟩
      rcases hwhy with hwhy | hwhy | hwhy
      · cases hwhy
      · exact hwhy
      · omega
  · rw [if_neg hlocked]
    rw [felt_locked_iff hschedule hbudget, not_or, not_or] at hlocked
    obtain ⟨hl, hs, hb⟩ := hlocked
    have hm : malformed = false := by
      by_contra hm
      exact hs (hmalformed (by simpa using hm))
    rw [Bool.not_eq_true] at hl
    rw [hm, hl]
    split_ifs <;> simp <;> omega

/-- What a give and a take-back of one size make of an axis: it stays unbounded, or the give lets it
grow and the take-back shrink. -/
structure AxisMoves (axis given taken : Int) : Prop where
  least : -1 ≤ axis
  unbounded : axis < 0 → given = -1 ∧ taken = -1
  bounded : 0 ≤ axis → axis ≤ given ∧ 0 ≤ taken ∧ taken ≤ axis

variable {scheduleGiven scheduleTaken budgetGiven budgetTaken : Int}

theorem routeOf_budget_iff (f : Felt) (a b : Int) :
    routeOf f a b = .budget ↔ ¬routeOf f a b = .schedule := by
  cases routeOf f a b <;> simp

/-- What is taken from the schedule is given back to it. -/
theorem route_after_take_schedule (hs : AxisMoves schedule scheduleGiven scheduleTaken)
    (hb : -1 ≤ budget) (hmalformed : malformed = true → schedule = 0 ∧ scheduleTaken = 0)
    (h : routeOf (feltOf malformed sd schedule budget) schedule budget = .schedule) :
    routeOf (feltOf malformed sd scheduleTaken budget) scheduleTaken budget = .schedule := by
  obtain ⟨hm, hl, hpos, hnear⟩ :=
    (routeOf_schedule_iff hs.least hb fun hm => (hmalformed hm).1).mp h
  obtain ⟨-, htaken, hle⟩ := hs.bounded hpos
  refine (routeOf_schedule_iff (by omega) hb fun hm => (hmalformed hm).2).mpr
    ⟨hm, hl, htaken, ?_⟩
  omega

/-- What is taken from the budget is given back to it. -/
theorem route_after_take_budget (hs : -1 ≤ schedule) (hb : AxisMoves budget budgetGiven budgetTaken)
    (hmalformed : malformed = true → schedule = 0)
    (h : routeOf (feltOf malformed sd schedule budget) schedule budget = .budget) :
    routeOf (feltOf malformed sd schedule budgetTaken) schedule budgetTaken = .budget := by
  have hleast : -1 ≤ budgetTaken := by
    by_cases hneg : budget < 0
    · exact (hb.unbounded hneg).2.ge
    · have hbounded := hb.bounded (not_lt.mp hneg)
      omega
  rw [routeOf_budget_iff, routeOf_schedule_iff hs hb.least hmalformed] at h
  rw [routeOf_budget_iff, routeOf_schedule_iff hs hleast hmalformed]
  rintro ⟨hm, hl, hpos, hnear⟩
  refine h ⟨hm, hl, hpos, ?_⟩
  have hneg := hb.unbounded
  have hbounded := hb.bounded
  omega

/-- When a give to the schedule sends the take-back to the budget. -/
theorem route_after_give_schedule (hs : AxisMoves schedule scheduleGiven scheduleTaken)
    (hb : -1 ≤ budget) (hmalformed : malformed = true → schedule = 0 ∧ scheduleGiven = 0)
    (h : routeOf (feltOf malformed sd schedule budget) schedule budget = .schedule) :
    routeOf (feltOf malformed sd scheduleGiven budget) scheduleGiven budget = .budget ↔
      0 < scheduleGiven ∧ 0 ≤ budget ∧ budget ≤ scheduleGiven := by
  obtain ⟨hm, hl, hpos, -⟩ :=
    (routeOf_schedule_iff hs.least hb fun hm => (hmalformed hm).1).mp h
  obtain ⟨hge, -, -⟩ := hs.bounded hpos
  rw [routeOf_budget_iff,
    routeOf_schedule_iff (by omega) hb fun hm => (hmalformed hm).2]
  constructor
  · intro hnot
    by_contra hnone
    exact hnot ⟨hm, hl, by omega, by omega⟩
  · rintro ⟨hgiven, hbudget, hle⟩ ⟨-, -, -, hnear⟩
    omega

/-- When a give to the budget sends the take-back to the schedule. -/
theorem route_after_give_budget (hs : -1 ≤ schedule) (hb : AxisMoves budget budgetGiven budgetTaken)
    (hmalformed : malformed = true → schedule = 0)
    (h : routeOf (feltOf malformed sd schedule budget) schedule budget = .budget) :
    routeOf (feltOf malformed sd schedule budgetGiven) schedule budgetGiven = .schedule ↔
      malformed = false ∧ landed sd = false ∧ 0 < schedule ∧ schedule < budgetGiven := by
  have hneg := hb.unbounded
  have hbounded := hb.bounded
  have hleast : -1 ≤ budgetGiven := by omega
  rw [routeOf_budget_iff, routeOf_schedule_iff hs hb.least hmalformed] at h
  rw [routeOf_schedule_iff hs hleast hmalformed]
  constructor
  · rintro ⟨hm, hl, hpos, hnear⟩
    have hfar : ¬(schedule = 0 ∨ budget < 0 ∨ schedule < budget) := fun hn => h ⟨hm, hl, hpos, hn⟩
    exact ⟨hm, hl, by omega, by omega⟩
  · rintro ⟨hm, hl, hpos, hlt⟩
    exact ⟨hm, hl, hpos.le, by omega⟩

/-- Nothing is locked while there is time on both axes. -/
theorem felt_eq_of_open (hl : landed sd = false) (hs : 0 < schedule) (hb : 0 < budget) :
    feltOf malformed sd schedule budget = ⟨capped sd (min schedule budget), false, none⟩ := by
  have hmin : minUnbounded schedule budget = min schedule budget := by
    unfold minUnbounded
    rw [if_neg (by omega), if_neg (by omega)]
  have hopen : ¬capped sd (min schedule budget) = 0 := by
    rw [capped_eq_zero_iff (by omega), hl]
    rintro (h | h)
    · cases h
    · omega
  unfold feltOf
  rw [hmin]
  dsimp only
  rw [if_neg hopen, decide_eq_false hopen]

/-- The nearer of two limits that is closed is what is felt. -/
theorem felt_eq_of_closed (hl : landed sd = false) (hs : 0 ≤ schedule) (hb : 0 ≤ budget)
    (hclosed : schedule = 0 ∨ budget = 0) :
    feltOf false sd schedule budget =
      ⟨0, true, some (if schedule = 0 then .schedule else .budget)⟩ := by
  have hzero : capped sd (minUnbounded schedule budget) = 0 := by
    rw [capped_eq_zero_iff (minUnbounded_ge (by omega) (by omega)),
      minUnbounded_eq_zero_iff (by omega) (by omega)]
    exact .inr hclosed
  unfold feltOf
  dsimp only
  rw [if_pos hzero, decide_eq_true hzero, hzero, hl]
  rfl

/-- **A pair that went to both limits, the schedule first**, leaves what was felt only by chance. -/
theorem felt_crossed_schedule (hl : landed sd = false) (hnear : 0 ≤ schedule)
    (hnearest : schedule = 0 ∨ schedule < budget) (hgiven : 0 < scheduleGiven)
    (hbudget : budget ≤ scheduleGiven) (htaken : 0 ≤ budgetTaken ∧ budgetTaken ≤ budget) :
    feltOf false sd scheduleGiven budgetTaken = feltOf false sd schedule budget ↔
      0 < schedule ∧ capped sd schedule = capped sd budgetTaken := by
  have hafter : min scheduleGiven budgetTaken = budgetTaken := min_eq_right (by omega)
  by_cases hs : schedule = 0
  · have hbefore := felt_eq_of_closed hl hnear (htaken.1.trans htaken.2) (.inl hs)
    rw [hbefore, if_pos hs]
    refine iff_of_false ?_ fun h => by omega
    by_cases ht : budgetTaken = 0
    · rw [felt_eq_of_closed hl hgiven.le htaken.1 (.inr ht), if_neg hgiven.ne']
      simp
    · rw [felt_eq_of_open hl hgiven (by omega)]
      simp
  · have hbefore : min schedule budget = schedule := min_eq_left (by omega)
    rw [@felt_eq_of_open _ _ _ budget hl (by omega) (by omega), hbefore]
    have hpos : capped sd schedule ≠ 0 := by
      rw [ne_eq, capped_eq_zero_iff (by omega), hl]
      simp [hs]
    by_cases ht : budgetTaken = 0
    · rw [felt_eq_of_closed hl hgiven.le htaken.1 (.inr ht)]
      refine iff_of_false (by simp) ?_
      rintro ⟨-, heq⟩
      have hzero : capped sd budgetTaken = 0 := (capped_eq_zero_iff (by omega)).mpr (.inr ht)
      exact hpos (heq.trans hzero)
    · rw [felt_eq_of_open hl hgiven (by omega), hafter, Felt.mk.injEq]
      constructor
      · rintro ⟨heq, -, -⟩
        exact ⟨by omega, heq.symm⟩
      · rintro ⟨-, heq⟩
        exact ⟨heq.symm, rfl, rfl⟩

/-- **A pair that went to both limits, the budget first**, leaves what was felt only by chance. -/
theorem felt_crossed_budget (hl : landed sd = false) (hopen : 0 < schedule)
    (hnear : 0 ≤ budget ∧ budget ≤ schedule) (hgiven : schedule < budgetGiven)
    (htaken : 0 ≤ scheduleTaken ∧ scheduleTaken ≤ schedule) :
    feltOf false sd scheduleTaken budgetGiven = feltOf false sd schedule budget ↔
      0 < budget ∧ capped sd budget = capped sd scheduleTaken := by
  have hafter : min scheduleTaken budgetGiven = scheduleTaken := min_eq_left (by omega)
  by_cases hb : budget = 0
  · rw [@felt_eq_of_closed _ _ budget hl hopen.le hnear.1 (.inr hb), if_neg hopen.ne']
    refine iff_of_false ?_ fun h => by omega
    by_cases ht : scheduleTaken = 0
    · rw [felt_eq_of_closed hl htaken.1 (by omega) (.inl ht), if_pos ht]
      simp
    · rw [felt_eq_of_open hl (by omega) (by omega)]
      simp
  · have hbefore : min schedule budget = budget := min_eq_right hnear.2
    rw [@felt_eq_of_open _ _ _ budget hl hopen (by omega), hbefore]
    have hpos : capped sd budget ≠ 0 := by
      rw [ne_eq, capped_eq_zero_iff (by omega), hl]
      simp [hb]
    by_cases ht : scheduleTaken = 0
    · rw [felt_eq_of_closed hl htaken.1 (by omega) (.inl ht)]
      refine iff_of_false (by simp) ?_
      rintro ⟨-, heq⟩
      have hzero : capped sd scheduleTaken = 0 := (capped_eq_zero_iff (by omega)).mpr (.inr ht)
      exact hpos (heq.trans hzero)
    · rw [felt_eq_of_open hl (by omega) (by omega), hafter, Felt.mk.injEq]
      constructor
      · rintro ⟨heq, -, -⟩
        exact ⟨by omega, heq.symm⟩
      · rintro ⟨-, heq⟩
        exact ⟨heq.symm, rfl, rfl⟩

end Axes

end Kintrinsic
