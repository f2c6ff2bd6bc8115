import Kintrinsic.RemainingLaws
import Kintrinsic.WireTypes

/-! # Which policy governs a child

`resolve_effective`: a guardian's time clauses before the device's own limits, and a substitute
for each clause that is there and cannot be used.  What each slot holds decides the policy; a
slot is read once, in the order of the bodies, and the last body of a kind is in force. -/
namespace Kintrinsic

open Countdown MachineWord

/-! ## Clauses and device limits -/

/-- The learning clause. -/
structure GrantLearning where
  v : UInt32
  apps : List LearningApp
  capMinutes : Option UInt32
  paused : Option Bool
  issuedAt : Nat
deriving DecidableEq

/-- The body decoders of the clauses that a child's policy reads; `none` is a body that does
not parse. -/
structure ClauseCodec where
  schedule : String → Option GrantSchedule
  budget : String → Option GrantBudget
  learning : String → Option GrantLearning

/-- A child's cached clauses: the bodies that were read, and the kinds whose slot is there and
would not read. -/
structure ChildClauses where
  clauses : List (Nat × String)
  unreadable : List Nat
deriving DecidableEq

/-- An allowed-hours window. -/
structure DayWindow where
  wake : String
  bedtime : String
deriving DecidableEq

/-- A parent's limits on one device. -/
structure DeviceLimits where
  tz : String
  wake : String
  bedtime : String
  dailyMinutes : UInt32
  weekend : Option DayWindow
deriving DecidableEq

namespace DeviceLimits
variable (d : DeviceLimits)

def weekdayWindow : List GrantScheduleWindow := [⟨d.wake, d.bedtime, none⟩]

def weekendWindow : List GrantScheduleWindow :=
  match d.weekend with
  | some w => [⟨w.wake, w.bedtime, none⟩]
  | none => d.weekdayWindow

/-- `to_schedule`. -/
def toSchedule (issuedAt : Nat) : GrantSchedule where
  v := 1
  tz := d.tz
  paused := none
  weekly :=
    { mon := some d.weekdayWindow
      tue := some d.weekdayWindow
      wed := some d.weekdayWindow
      thu := some d.weekdayWindow
      fri := some d.weekdayWindow
      sat := some d.weekendWindow
      sun := some d.weekendWindow }
  overrides := none
  issuedAt := issuedAt

/-- `to_budget`. -/
def toBudget (issuedAt : Nat) : GrantBudget where
  v := 1
  tz := d.tz
  dailyMinutes := some d.dailyMinutes
  weeklyMinutes := none
  weekStart := some .mon
  paused := none
  revoked := none
  model := none
  issuedAt := issuedAt

end DeviceLimits

/-! ## Resolution -/

/-- Which source governs a child. -/
inductive PolicySource
  | guardian
  | deviceOnly
  | unconstrained
deriving DecidableEq

structure EffectivePolicy where
  schedule : Option GrantSchedule
  budget : Option GrantBudget
  learning : Option GrantLearning
  source : PolicySource
deriving DecidableEq

/-- The zone of a substitute when no other clause names one. -/
def unresolvedTz : String := ""

/-- `fail_safe_schedule`: paused. -/
def failSafeSchedule (tz : String) : GrantSchedule where
  v := 1
  tz := tz
  paused := some true
  weekly := .empty
  overrides := none
  issuedAt := 0

/-- `fail_safe_budget`: paused, and nothing on either cap. -/
def failSafeBudget (tz : String) : GrantBudget where
  v := 1
  tz := tz
  dailyMinutes := some 0
  weeklyMinutes := some 0
  weekStart := none
  paused := some true
  revoked := none
  model := none
  issuedAt := 0

/-- The characters `str::trim` takes off. -/
def isWhitespace (c : Char) : Bool :=
  let n := c.toNat
  (9 ≤ n && n ≤ 13) || n = 32 || n = 0x85 || n = 0xA0 || n = 0x1680 ||
    (0x2000 ≤ n && n ≤ 0x200A) || n = 0x2028 || n = 0x2029 || n = 0x202F || n = 0x205F || n = 0x3000

def isBlank (s : String) : Bool := s.toList.all isWhitespace

namespace ChildClauses
variable (codec : ClauseCodec) (cc : ChildClauses)

def isUnreadable (kind : ClauseKind) : Bool := cc.unreadable.contains kind.storeKey

/-- The guardian's learning clause: the first body, if it parses. -/
def guardianLearning : Option GrantLearning :=
  (cc.clauses.find? fun e => e.1 = ClauseKind.learning.storeKey).bind fun e => codec.learning e.2

/-- Whether the guardian has set a time clause, readable or not. -/
def guardianTimeGoverns : Bool :=
  cc.clauses.any (fun e => e.1 = ClauseKind.schedule.storeKey || e.1 = ClauseKind.budget.storeKey) ||
    cc.isUnreadable .schedule || cc.isUnreadable .budget

def resolveLearning (deviceLearning : Option GrantLearning) : Option GrantLearning :=
  if cc.isUnreadable .learning then none
  else
    match cc.guardianLearning codec with
    | some g => some g
    | none => if cc.guardianTimeGoverns then none else deviceLearning

/-- The zone that a time clause names, if it parses. -/
def clauseTz (entry : Nat × String) : Option String :=
  if entry.1 = ClauseKind.budget.storeKey then (codec.budget entry.2).map (·.tz)
  else if entry.1 = ClauseKind.schedule.storeKey then (codec.schedule entry.2).map (·.tz)
  else none

/-- The zone of the first time clause that parses, unless it is blank. -/
def siblingTz : String :=
  ((cc.clauses.findSome? (clauseTz codec)).filter fun tz => !isBlank tz).getD unresolvedTz

/-- The two variables of the resolving loop. -/
structure TimeClauses where
  schedule : Option GrantSchedule
  budget : Option GrantBudget

/-- One round of the loop: a body that does not parse gives the substitute. -/
def TimeClauses.take (tz : String) (acc : TimeClauses) (entry : Nat × String) : TimeClauses :=
  if entry.1 = ClauseKind.schedule.storeKey then
    { acc with schedule := some ((codec.schedule entry.2).getD (failSafeSchedule tz)) }
  else if entry.1 = ClauseKind.budget.storeKey then
    { acc with budget := some ((codec.budget entry.2).getD (failSafeBudget tz)) }
  else acc

/-- The guardian's time clauses; a slot that would not read gives the substitute. -/
def timeClauses : TimeClauses :=
  let tz := cc.siblingTz codec
  let acc := cc.clauses.foldl (TimeClauses.take codec tz) ⟨none, none⟩
  let acc := if cc.isUnreadable .schedule then
    { acc with schedule := some (failSafeSchedule tz) } else acc
  if cc.isUnreadable .budget then { acc with budget := some (failSafeBudget tz) } else acc

end ChildClauses

/-- `resolve_effective`. -/
def resolveEffective (codec : ClauseCodec) (guardianClauses : ChildClauses)
    (deviceOnly : Option DeviceLimits) (deviceLearning : Option GrantLearning) : EffectivePolicy :=
  let learning := guardianClauses.resolveLearning codec deviceLearning
  if guardianClauses.guardianTimeGoverns then
    let time := guardianClauses.timeClauses codec
    ⟨time.schedule, time.budget, learning, .guardian⟩
  else
    match deviceOnly with
    | some limits => ⟨some (limits.toSchedule 1), some (limits.toBudget 1), learning, .deviceOnly⟩
    | none => ⟨none, none, learning, .unconstrained⟩

/-! ## What a slot holds -/

/-- A slot: empty, there and of no use, or holding a clause. -/
inductive Slot (α : Type)
  | absent
  | illegible
  | held (clause : α)

/-- What is in force for a slot. -/
def Slot.inForce {α : Type} (failSafe : α) : Slot α → Option α
  | absent => none
  | illegible => some failSafe
  | held clause => some clause

/-- The clause is there and cannot be used: it was not read, did not parse, or is in a version
not implemented here. -/
def Slot.Damaged {α : Type} (supported : α → Bool) : Slot α → Prop
  | absent => False
  | illegible => True
  | held clause => supported clause = false

namespace ChildClauses
variable (codec : ClauseCodec) (cc : ChildClauses)

/-- The last body of a kind. -/
def lastBody (kind : ClauseKind) : Option String :=
  ((cc.clauses.filter fun e => e.1 = kind.storeKey).getLast?).map Prod.snd

/-- The slot of a kind: unreadable, empty, or with a last body that parses or does not. -/
def slot {α : Type} (decode : String → Option α) (kind : ClauseKind) : Slot α :=
  if cc.isUnreadable kind then .illegible
  else
    match cc.lastBody kind with
    | none => .absent
    | some body =>
      match decode body with
      | none => .illegible
      | some clause => .held clause

def scheduleSlot : Slot GrantSchedule := cc.slot codec.schedule .schedule

def budgetSlot : Slot GrantBudget := cc.slot codec.budget .budget

/-- Some time clause is there and cannot be used. -/
def TimeDamaged : Prop :=
  (cc.scheduleSlot codec).Damaged GrantSchedule.isSupportedVersion ∨
    (cc.budgetSlot codec).Damaged GrantBudget.isSupportedVersion

variable {codec cc} {tz : String}

/-- A loop variable that the last entry under a key decides. -/
def lastUnder {α : Type} (key : Nat) (read : String → α) (acc : Option α) (e : Nat × String) :
    Option α :=
  if e.1 = key then some (read e.2) else acc

theorem foldl_lastUnder {α : Type} (key : Nat) (read : String → α) (l : List (Nat × String)) :
    l.foldl (lastUnder key read) none =
      (((l.filter fun e => e.1 = key).getLast?).map Prod.snd).map read := by
  induction l using List.reverseRecOn with
  | nil => rfl
  | append_singleton l e ih =>
    rw [List.foldl_append, List.filter_append, List.foldl_cons, List.foldl_nil, lastUnder, ih]
    by_cases h : e.1 = key
    · have hlast : [e].filter (fun e => e.1 = key) = [e] := by simp [h]
      rw [if_pos h, hlast, List.getLast?_concat]
      rfl
    · have hskip : [e].filter (fun e => e.1 = key) = [] := by simp [h]
      rw [if_neg h, hskip, List.append_nil]

variable (codec cc tz) in
theorem foldl_take_schedule : (cc.clauses.foldl (TimeClauses.take codec tz) ⟨none, none⟩).schedule =
    (cc.lastBody .schedule).map fun body => (codec.schedule body).getD (failSafeSchedule tz) := by
  have hstep : ∀ acc e, lastUnder ClauseKind.schedule.storeKey
      (fun body => (codec.schedule body).getD (failSafeSchedule tz)) (TimeClauses.schedule acc) e =
        (TimeClauses.take codec tz acc e).schedule := by
    intro acc e
    unfold lastUnder TimeClauses.take
    split
    · rfl
    · split <;> rfl
  rw [lastBody, ← foldl_lastUnder]
  exact (@List.foldl_hom _ _ _ TimeClauses.schedule _ _ _ ⟨none, none⟩ hstep).symm

variable (codec cc tz) in
theorem foldl_take_budget : (cc.clauses.foldl (TimeClauses.take codec tz) ⟨none, none⟩).budget =
    (cc.lastBody .budget).map fun body => (codec.budget body).getD (failSafeBudget tz) := by
  have hstep : ∀ acc e, lastUnder ClauseKind.budget.storeKey
      (fun body => (codec.budget body).getD (failSafeBudget tz)) (TimeClauses.budget acc) e =
        (TimeClauses.take codec tz acc e).budget := by
    intro acc e
    unfold lastUnder TimeClauses.take
    by_cases hs : e.1 = ClauseKind.schedule.storeKey
    · have hb : ¬e.1 = ClauseKind.budget.storeKey := by
        intro hb
        cases ClauseKind.storeKey_injective (hs.symm.trans hb)
      rw [if_pos hs, if_neg hb]
    · rw [if_neg hs]
      split <;> rfl
  rw [lastBody, ← foldl_lastUnder]
  exact (@List.foldl_hom _ _ _ TimeClauses.budget _ _ _ ⟨none, none⟩ hstep).symm

/-- Reading the slot first and the loop are one. -/
theorem slot_inForce {α : Type} (decode : String → Option α) (kind : ClauseKind) (failSafe : α) :
    (cc.slot decode kind).inForce failSafe =
      if cc.isUnreadable kind then some failSafe
      else (cc.lastBody kind).map fun body => (decode body).getD failSafe := by
  unfold slot
  split
  · rfl
  cases cc.lastBody kind with
  | none => rfl
  | some body =>
    dsimp only [Option.map_some]
    cases decode body <;> rfl

variable (codec cc) in
/-- **Each slot decides its clause**, whatever the order of the bodies. -/
theorem timeClauses_eq : cc.timeClauses codec =
    ⟨(cc.scheduleSlot codec).inForce (failSafeSchedule (cc.siblingTz codec)),
      (cc.budgetSlot codec).inForce (failSafeBudget (cc.siblingTz codec))⟩ := by
  have hs := cc.foldl_take_schedule codec (cc.siblingTz codec)
  have hb := cc.foldl_take_budget codec (cc.siblingTz codec)
  rw [scheduleSlot, budgetSlot, slot_inForce, slot_inForce, ← hs, ← hb, timeClauses]
  split <;> split <;> rfl

/-- A slot that is not empty makes the guardian govern. -/
theorem governs_of_slot {α : Type} {decode : String → Option α} {kind : ClauseKind}
    (hkind : kind = .schedule ∨ kind = .budget) (h : cc.slot decode kind ≠ .absent) :
    cc.guardianTimeGoverns = true := by
  unfold guardianTimeGoverns
  rw [Bool.or_eq_true, Bool.or_eq_true, List.any_eq_true]
  by_cases hunread : cc.isUnreadable kind = true
  · rcases hkind with rfl | rfl
    · exact Or.inl (Or.inr hunread)
    · exact Or.inr hunread
  cases hbody : cc.lastBody kind with
  | none =>
    rw [slot, if_neg hunread, hbody] at h
    exact absurd rfl h
  | some body =>
    obtain ⟨e, he, -⟩ := Option.map_eq_some_iff.mp hbody
    obtain ⟨hmem, hkey⟩ := List.mem_filter.mp (List.mem_of_getLast? he)
    refine Or.inl (Or.inl ⟨e, hmem, ?_⟩)
    rw [Bool.or_eq_true]
    rcases hkind with rfl | rfl
    · exact Or.inl hkey
    · exact Or.inr hkey

end ChildClauses

theorem Slot.Damaged.ne_absent {α : Type} {supported : α → Bool} {s : Slot α}
    (h : s.Damaged supported) : s ≠ .absent := by
  rintro rfl
  exact h

/-- With a damaged time clause the two slots are the whole time policy. -/
theorem resolveEffective_damaged {codec : ClauseCodec} {cc : ChildClauses}
    (h : cc.TimeDamaged codec) (deviceOnly : Option DeviceLimits)
    (deviceLearning : Option GrantLearning) :
    (resolveEffective codec cc deviceOnly deviceLearning).schedule =
        (cc.scheduleSlot codec).inForce (failSafeSchedule (cc.siblingTz codec)) ∧
      (resolveEffective codec cc deviceOnly deviceLearning).budget =
        (cc.budgetSlot codec).inForce (failSafeBudget (cc.siblingTz codec)) := by
  have hgoverns : cc.guardianTimeGoverns = true := by
    rcases h with h | h
    · exact ChildClauses.governs_of_slot (Or.inl rfl) h.ne_absent
    · exact ChildClauses.governs_of_slot (Or.inr rfl) h.ne_absent
  unfold resolveEffective
  dsimp only
  rw [if_pos hgoverns, ChildClauses.timeClauses_eq]
  exact ⟨rfl, rfl⟩

/-! ## What locks whatever the pools hold -/

namespace EnforcerInputs
variable {cal : Calendar} {inp : EnforcerInputs}

/-- A spent schedule axis locks. -/
theorem locked_of_scheduleSecs (h : inp.scheduleSecs cal = 0) :
    (computeRemaining cal inp).locked = true := by
  rw [locked_iff_effective, effective_eq, h]
  exact le_antisymm ((min_le_left _ _).trans (min_le_left _ _)) bot_le

/-- A spent budget axis locks. -/
theorem locked_of_budgetSecs (h : inp.budgetSecs cal = 0) :
    (computeRemaining cal inp).locked = true := by
  rw [locked_iff_effective, effective_eq, h]
  exact le_antisymm ((min_le_left _ _).trans (min_le_right _ _)) bot_le

theorem locked_of_unparseable {s : GrantSchedule} (hschedule : inp.schedule = some s)
    (h : s.evaluate cal.zones inp.nowUnix = .unparseable) :
    (computeRemaining cal inp).locked = true := by
  refine locked_of_scheduleSecs ?_
  rw [scheduleSecs, hschedule, scheduleBase, h]
  rfl

theorem locked_of_spent {b : GrantBudget} (hbudget : inp.budget = some b) (h : b.Spent) :
    (computeRemaining cal inp).locked = true := by
  refine locked_of_budgetSecs ?_
  rw [budgetSecs, budgetParts, hbudget]
  dsimp only
  rw [b.quotaParts_spent h]
  rfl

/-! ## What the pools lift -/

variable {schedule : Option GrantSchedule} {budget : Option GrantBudget} {now : Int}

/-- A day without usage, one minute granted on each dimension. -/
def minuteGranted (cal : Calendar) (schedule : Option GrantSchedule) (budget : Option GrantBudget)
    (now : Int) : EnforcerInputs where
  nowUnix := now
  schedule := schedule
  budget := budget
  usage := .new cal "" .mon now
  extension := { ExtensionLedger.new cal.zones "" now with scheduleSecs := 60, budgetSecs := 60 }
  consolidated := none
  standDown := none

variable (cal schedule budget now) in
theorem minuteGranted_today :
    (minuteGranted cal schedule budget now).extension.today cal.zones
      (minuteGranted cal schedule budget now).nowUnix = ⟨60, 0, 60, 0, none⟩ :=
  ExtensionLedger.today_of_current rfl

/-- A grant on the schedule dimension opens a paused schedule until the day ends. -/
theorem scheduleSecs_minuteGranted {s : GrantSchedule} (h : s.evaluate cal.zones now = .locked none) :
    (minuteGranted cal (some s) budget now).scheduleSecs cal =
      (min 60 ((minuteGranted cal (some s) budget now).eod cal) : Nat) := by
  obtain ⟨hextra, hdeducted, -⟩ := ExtensionLedger.TodayPools.mk.inj
    (minuteGranted_today cal (some s) budget now)
  have hbase : scheduleBase cal.zones (minuteGranted cal (some s) budget now).nowUnix
      (minuteGranted cal (some s) budget now).schedule = ⟨0, false, none⟩ := by
    show scheduleBase cal.zones now (some s) = _
    rw [scheduleBase, h]
    rfl
  rw [scheduleSecs, hbase, hextra, hdeducted]
  rfl

/-- A grant on the budget dimension leaves a minute of every budget that is not spent. -/
theorem budgetSecs_minuteGranted (h : ∀ b ∈ budget, ¬b.Spent) :
    .some 0 < ofSecs ((minuteGranted cal schedule budget now).budgetSecs cal) := by
  obtain ⟨-, -, hextra, hdeducted, hbaseline⟩ := ExtensionLedger.TodayPools.mk.inj
    (minuteGranted_today cal schedule budget now)
  have hnet : (minuteGranted cal schedule budget now).budgetNet cal = 60 := by
    rw [budgetNet, hextra, hdeducted, asI64_of_lt (by decide), asI64_of_lt (by decide)]
    exact wrapI64_of_mem (by decide) (by decide)
  have hpooled : (minuteGranted cal schedule budget now).usage.pooledUsed cal none now = (0, 0) := by
    have htoday : (UsageLedger.new cal "" .mon now).usedToday cal now = 0 := by
      unfold UsageLedger.usedToday
      exact ite_self 0
    have hweek : (UsageLedger.new cal "" .mon now).usedWeek cal now = 0 := by
      unfold UsageLedger.usedWeek
      exact ite_self 0
    show ((UsageLedger.new cal "" .mon now).pooledUsed cal none now) = (0, 0)
    unfold UsageLedger.pooledUsed UsageLedger.pooledToday UsageLedger.pooledWeek
    dsimp only
    rw [htoday, hweek]
  have hleft : ∀ cap, 0 < capLeft cap none 60 0 := by
    intro cap
    rw [capLeft_eq (by simp) (by decide) (by decide) (by decide), allowance]
    omega
  rw [ofSecs_budgetSecs, lt_min_iff]
  cases budget with
  | none => exact ⟨WithTop.coe_lt_top 0, WithTop.coe_lt_top 0⟩
  | some b =>
    have hb := h b rfl
    have hversion : b.isSupportedVersion = true :=
      Bool.eq_true_of_not_eq_false fun hv => hb (Or.inl hv)
    have hparts : (minuteGranted cal schedule (some b) now).budgetParts cal =
        b.quotaParts cal (minuteGranted cal schedule (some b) now).usage none now 60 none := by
      rw [← hnet, ← hbaseline]
      rfl
    have hcap : ∀ caps : Option UInt32,
        .some 0 < ofLeft (caps.map fun cap => capLeft cap none 60 0) := by
      intro caps
      refine ofLeft_pos ?_
      intro n hn
      obtain ⟨cap, -, rfl⟩ := Option.map_eq_some_iff.mp hn
      exact hleft cap
    rw [hparts, GrantBudget.quotaParts, hversion, hpooled]
    by_cases hrevoked : b.revoked = some true
    · rw [if_pos hrevoked]
      exact ⟨WithTop.coe_lt_top 0, WithTop.coe_lt_top 0⟩
    · have hpaused : ¬b.paused = some true := fun hpaused => hb (Or.inr ⟨hrevoked, hpaused⟩)
      rw [if_neg hrevoked, if_neg hpaused]
      exact ⟨hcap b.dailyMinutes, hcap b.weeklyMinutes⟩

/-- **The pools open a paused schedule** over a budget that is not spent. -/
theorem exists_unlocked {s : GrantSchedule} (hs : ∀ now, s.evaluate cal.zones now = .locked none)
    (hbudget : ∀ b ∈ budget, ¬b.Spent) :
    ∃ now, (computeRemaining cal (minuteGranted cal (some s) budget now)).locked = false := by
  obtain ⟨now, hnow⟩ := (enforcementTzOf cal.zones (some s) budget).exists_secsToEod_pos
  refine ⟨now, Bool.eq_false_of_not_eq_true ?_⟩
  intro hlocked
  rw [locked_iff_effective, effective_eq] at hlocked
  have heod : 0 < (minuteGranted cal (some s) budget now).eod cal := hnow
  have hschedule : .some 0 < ofSecs ((minuteGranted cal (some s) budget now).scheduleSecs cal) := by
    rw [scheduleSecs_minuteGranted (hs now)]
    refine ofSecs_pos ?_
    omega
  have hbudgetSecs :
      .some 0 < ofSecs ((minuteGranted cal (some s) budget now).budgetSecs cal) :=
    budgetSecs_minuteGranted hbudget
  have hpos := lt_min (lt_min hschedule hbudgetSecs) (WithTop.coe_lt_top 0)
  exact absurd hlocked hpos.ne'

end EnforcerInputs

/-! ## A damaged clause locks -/

/-- A tick's inputs, the clauses taken from a policy. -/
def EffectivePolicy.inputs (p : EffectivePolicy) (inp : EnforcerInputs) : EnforcerInputs :=
  { inp with schedule := p.schedule, budget := p.budget }

theorem failSafeSchedule_evaluate (zones : Zones) (tz : String) (now : Int) :
    (failSafeSchedule tz).evaluate zones now = .locked none := rfl

theorem failSafeBudget_spent (tz : String) : (failSafeBudget tz).Spent :=
  Or.inr ⟨by simp [failSafeBudget], rfl⟩

theorem evaluate_unsupported {s : GrantSchedule} (h : s.isSupportedVersion = false) (zones : Zones)
    (now : Int) : s.evaluate zones now = .unparseable := by
  rw [GrantSchedule.evaluate, h]
  rfl

/-- The budget in force is spent when the slot is damaged, or holds a paused budget. -/
theorem inForce_spent_iff {slot : Slot GrantBudget} {tz : String} :
    (∃ b, slot.inForce (failSafeBudget tz) = some b ∧ b.Spent) ↔
      slot.Damaged GrantBudget.isSupportedVersion ∨
        ∃ b, slot = .held b ∧ b.revoked ≠ some true ∧ b.paused = some true := by
  cases slot with
  | absent => simp [Slot.inForce, Slot.Damaged]
  | illegible =>
    constructor
    · intro _
      exact Or.inl trivial
    · intro _
      exact ⟨_, rfl, failSafeBudget_spent tz⟩
  | held b =>
    constructor
    · rintro ⟨b', hb', hspent⟩
      cases hb'
      rcases hspent with hversion | hpaused
      · exact Or.inl hversion
      · exact Or.inr ⟨b, rfl, hpaused⟩
    · rintro (hversion | ⟨b', hb', hpaused⟩)
      · exact ⟨b, rfl, Or.inl hversion⟩
      · cases hb'
        exact ⟨b, rfl, Or.inr hpaused⟩

/-- **A damaged time clause locks, whatever the pools hold, exactly when the schedule could be
read or the budget in force is spent**: the substitute for a schedule is a pause, and a grant on
the schedule dimension lifts a pause. -/
theorem damaged_locked_iff (cal : Calendar) (codec : ClauseCodec) (cc : ChildClauses)
    (deviceOnly : Option DeviceLimits) (deviceLearning : Option GrantLearning)
    (h : cc.TimeDamaged codec) :
    (∀ inp, (computeRemaining cal
        ((resolveEffective codec cc deviceOnly deviceLearning).inputs inp)).locked = true) ↔
      cc.scheduleSlot codec ≠ .illegible ∨
        (cc.budgetSlot codec).Damaged GrantBudget.isSupportedVersion ∨
        ∃ b, cc.budgetSlot codec = .held b ∧ b.revoked ≠ some true ∧ b.paused = some true := by
  obtain ⟨hschedule, hbudget⟩ := resolveEffective_damaged h deviceOnly deviceLearning
  generalize resolveEffective codec cc deviceOnly deviceLearning = p at hschedule hbudget
  rw [← inForce_spent_iff, ← hbudget]
  constructor
  · intro hlocked
    by_contra hnot
    push Not at hnot
    obtain ⟨hillegible, hunspent⟩ := hnot
    rw [hillegible] at hschedule
    obtain ⟨now, hunlocked⟩ := EnforcerInputs.exists_unlocked
      (failSafeSchedule_evaluate cal.zones (cc.siblingTz codec)) hunspent
    have hinputs : p.inputs (.minuteGranted cal none none now) =
        .minuteGranted cal (some (failSafeSchedule (cc.siblingTz codec))) p.budget now := by
      rw [EffectivePolicy.inputs, hschedule]
      rfl
    have hat := hlocked (.minuteGranted cal none none now)
    rw [hinputs, hunlocked] at hat
    cases hat
  · intro hholds inp
    -- a schedule that was read and is damaged is in a version that does not evaluate
    have hcause : (∃ b, p.budget = some b ∧ b.Spent) ∨
        ∃ s, p.schedule = some s ∧ s.isSupportedVersion = false := by
      rcases hholds with hread | hspent
      · rcases h with hdamaged | hdamaged
        · cases hslot : cc.scheduleSlot codec with
          | absent => exact absurd hslot hdamaged.ne_absent
          | illegible => exact absurd hslot hread
          | held s =>
            rw [hslot] at hschedule hdamaged
            exact Or.inr ⟨s, hschedule, hdamaged⟩
        · rw [hbudget]
          exact Or.inl (inForce_spent_iff.mpr (Or.inl hdamaged))
      · exact Or.inl hspent
    rcases hcause with ⟨b, hb, hspent⟩ | ⟨s, hs, hversion⟩
    · exact EnforcerInputs.locked_of_spent hb hspent
    · exact EnforcerInputs.locked_of_unparseable hs (evaluate_unsupported hversion _ _)

/-- A device none of whose clause bodies parses. -/
def garbled : ClauseCodec := ⟨fun _ => none, fun _ => none, fun _ => none⟩

/-- Noon, half an hour granted on the schedule dimension. -/
def halfHourGranted : EnforcerInputs where
  nowUnix := 1782820800
  schedule := none
  budget := none
  usage := .new UsageLedger.utcCalendar "UTC" .mon 1782820800
  extension := ((ExtensionLedger.new UsageLedger.utcCalendar.zones "UTC" 1782820800).apply
    UsageLedger.utcCalendar.zones 1782820800 "r1" 30 .schedule).2
  consolidated := none
  standDown := none

open UsageLedger in
/-- Over a budget file that cannot be read the same grant opens nothing. -/
theorem damaged_locked_unreadableBudget :
    (computeRemaining utcCalendar
      ((resolveEffective garbled ⟨[], [2]⟩ none none).inputs halfHourGranted)).locked = true :=
  (damaged_locked_iff utcCalendar garbled ⟨[], [2]⟩ none none (Or.inr trivial)).mpr
    (Or.inr (Or.inl trivial)) halfHourGranted

open UsageLedger in
/-- **The substitute for a schedule does not hold**: over a schedule file that cannot be read,
and over one that does not parse, a grant of half an hour opens the device for half an hour. -/
theorem damaged_unlocked :
    (({ clauses := [], unreadable := [1] } : ChildClauses).TimeDamaged garbled ∧
      (computeRemaining utcCalendar ((resolveEffective garbled ⟨[], [1]⟩ none none).inputs
        halfHourGranted)).locked = false ∧
      (computeRemaining utcCalendar ((resolveEffective garbled ⟨[], [1]⟩ none none).inputs
        halfHourGranted)).effectiveSecs = 1800) ∧
    (({ clauses := [(1, "\x7b")], unreadable := [] } : ChildClauses).TimeDamaged garbled ∧
      (computeRemaining utcCalendar ((resolveEffective garbled ⟨[(1, "\x7b")], []⟩ none none).inputs
        halfHourGranted)).locked = false) := by
  refine ⟨⟨Or.inl trivial, ?_, ?_⟩, Or.inl trivial, ?_⟩
  · decide +kernel
  · decide +kernel
  · decide +kernel

end Kintrinsic
