import Kintrinsic.EffectRun
import Kintrinsic.Remaining

/-! # The enforcer's ticks

`EnforcerCore::tick` turns the level that `compute_remaining` reports into effects on the
edge, and warns once on the way down.  Over any run the locks and thaws alternate, and a
warning comes again only after it was re-armed. -/
namespace Kintrinsic

open EffectRun GuardedRun

/-- The one legal target of a freeze. -/
inductive FreezeTarget
  | managedAppSlice
deriving DecidableEq

inductive FreezeAction
  | freeze
  | thaw
deriving DecidableEq

/-- `reconcile_freeze`: the action that brings a slice to the current level. -/
def reconcileFreeze (locked sliceExists : Bool) : Option FreezeAction :=
  if !sliceExists then none
  else if locked then some .freeze
  else some .thaw

inductive WarnLevel
  | ten
  | one
deriving DecidableEq

/-- The remaining seconds at which a warning is due. -/
def WarnLevel.threshold : WarnLevel → Int
  | ten => 600
  | one => 60

inductive AuditKind
  | locked
  | thawed
deriving DecidableEq

/-- An effect the runtime carries out. -/
inductive EnforcerEffect
  | freeze (target : FreezeTarget)
  | thaw (target : FreezeTarget)
  | showLock (reason : LockReason)
  | hideLock
  | warn (level : WarnLevel)
  | audit (kind : AuditKind)
  | timeLeft (rem : Remaining)
deriving DecidableEq

/-- The latches of the edge detector. -/
structure EnforcerCore where
  locked : Bool
  warnedTen : Bool
  warnedOne : Bool
deriving DecidableEq

namespace EnforcerCore

def new : EnforcerCore := ⟨false, false, false⟩

def isLocked (core : EnforcerCore) : Bool := core.locked

/-- The lock edge of a tick; a thaw re-arms both warnings. -/
def cross (core : EnforcerCore) (rem : Remaining) : EnforcerCore × List EnforcerEffect :=
  if rem.locked && !core.locked then
    ({ core with locked := true },
      [.showLock (rem.reason.getD .schedule), .freeze .managedAppSlice, .audit .locked])
  else if !rem.locked && core.locked then
    (⟨false, false, false⟩, [.thaw .managedAppSlice, .hideLock, .audit .thawed])
  else (core, [])

/-- The warnings of a tick that is not locked.  A latch is re-armed above its threshold and
consumed below it; the ten-minute message is withheld where the one-minute one is due. -/
def warn (core : EnforcerCore) (secs : Int) : EnforcerCore × List EnforcerEffect :=
  let warnedTen := core.warnedTen && !(decide (secs < 0) || decide (600 < secs))
  let warnedOne := core.warnedOne && !(decide (secs < 0) || decide (60 < secs))
  let oneDue := decide (0 ≤ secs) && decide (secs ≤ 60) && !warnedOne
  let tenDue := decide (0 ≤ secs) && decide (secs ≤ 600) && !warnedTen
  ({ core with warnedTen := warnedTen || tenDue, warnedOne := warnedOne || oneDue },
    (if tenDue && !oneDue then [.warn .ten] else []) ++ if oneDue then [.warn .one] else [])

/-- The part of `tick` that acts on the breakdown. -/
def act (core : EnforcerCore) (rem : Remaining) : EnforcerCore × List EnforcerEffect :=
  let crossed := core.cross rem
  let warned := if crossed.1.locked then (crossed.1, []) else crossed.1.warn rem.effectiveSecs
  (warned.1, crossed.2 ++ warned.2 ++ [.timeLeft rem])

/-- `tick`. -/
def tick (cal : Calendar) (core : EnforcerCore) (inp : EnforcerInputs) :
    EnforcerCore × List EnforcerEffect :=
  core.act (computeRemaining cal inp)

/-! ## What one tick does -/

variable (core : EnforcerCore) (rem : Remaining)

/-- The latch of a warning. -/
def warned : WarnLevel → Bool
  | .ten => core.warnedTen
  | .one => core.warnedOne

/-- **The three kinds of tick.** -/
theorem cross_cases :
    core.locked = false ∧ rem.locked = true ∧ core.cross rem =
        ({ core with locked := true },
          [.showLock (rem.reason.getD .schedule), .freeze .managedAppSlice, .audit .locked]) ∨
      core.locked = true ∧ rem.locked = false ∧ core.cross rem =
        (⟨false, false, false⟩, [.thaw .managedAppSlice, .hideLock, .audit .thawed]) ∨
      core.locked = rem.locked ∧ core.cross rem = (core, []) := by
  unfold cross
  cases hcore : core.locked <;> cases hrem : rem.locked <;> simp

@[simp] theorem cross_locked : (core.cross rem).1.locked = rem.locked := by
  rcases core.cross_cases rem with ⟨-, h, heq⟩ | ⟨-, h, heq⟩ | ⟨h, heq⟩ <;> rw [heq]
  · exact h.symm
  · exact h.symm
  · exact h

@[simp] theorem warn_locked (secs : Int) : (core.warn secs).1.locked = core.locked := rfl

/-- After a tick the core is where the breakdown is. -/
theorem act_locked : (core.act rem).1.locked = rem.locked := by
  unfold act
  dsimp only
  split
  · exact core.cross_locked rem
  · rw [warn_locked, cross_locked]

/-- A latch is consumed exactly between zero and its threshold. -/
theorem warned_warn (w : WarnLevel) (secs : Int) :
    (core.warn secs).1.warned w = true ↔ 0 ≤ secs ∧ secs ≤ w.threshold := by
  cases w with
  | ten =>
    show (core.warnedTen && !(decide (secs < 0) || decide (600 < secs)) ||
      (decide (0 ≤ secs) && decide (secs ≤ 600) &&
        !(core.warnedTen && !(decide (secs < 0) || decide (600 < secs))))) = true ↔
      0 ≤ secs ∧ secs ≤ 600
    cases core.warnedTen <;> simp
  | one =>
    show (core.warnedOne && !(decide (secs < 0) || decide (60 < secs)) ||
      (decide (0 ≤ secs) && decide (secs ≤ 60) &&
        !(core.warnedOne && !(decide (secs < 0) || decide (60 < secs))))) = true ↔
      0 ≤ secs ∧ secs ≤ 60
    cases core.warnedOne <;> simp

/-- **At most one warning a tick**, and only one whose latch was free or has been freed. -/
theorem warn_cases (secs : Int) :
    (core.warn secs).2 = [] ∨
      ∃ w, (core.warn secs).2 = [.warn w] ∧ core.warned w = false := by
  have hone : (decide (0 ≤ secs) && decide (secs ≤ 60) &&
      !(core.warnedOne && !(decide (secs < 0) || decide (60 < secs)))) = true →
        core.warnedOne = false := by
    cases core.warnedOne <;> simp
  have hten : (decide (0 ≤ secs) && decide (secs ≤ 600) &&
      !(core.warnedTen && !(decide (secs < 0) || decide (600 < secs)))) = true →
        core.warnedTen = false := by
    cases core.warnedTen <;> simp
  unfold warn
  dsimp only
  -- the one-minute warning, due, withholds the other
  split_ifs with h h' h'
  · rw [h', Bool.not_true, Bool.and_false] at h
    cases h
  · exact Or.inr ⟨.ten, rfl, hten (Bool.and_eq_true_iff.mp h).1⟩
  · exact Or.inr ⟨.one, rfl, hone h'⟩
  · exact Or.inl rfl

theorem not_both_warned (secs : Int) :
    ¬(.warn .ten ∈ (core.warn secs).2 ∧ .warn .one ∈ (core.warn secs).2) := by
  rintro ⟨hten, hone⟩
  rcases core.warn_cases secs with hnone | ⟨w, hsole, -⟩
  · rw [hnone] at hten
    cases hten
  · rw [hsole, List.mem_singleton] at hten hone
    cases hten
    cases hone

/-- What a tick emits: the edge it crosses, warnings where it is not locked, the report. -/
theorem mem_act {e : EnforcerEffect} (h : e ∈ (core.act rem).2) :
    e ∈ (core.cross rem).2 ∨ (∃ w, e = .warn w) ∧ rem.locked = false ∨ e = .timeLeft rem := by
  unfold act at h
  dsimp only at h
  rw [cross_locked] at h
  simp only [List.mem_append, List.mem_singleton] at h
  rcases h with (h | h) | h
  · exact Or.inl h
  · split at h
    · cases h
    · rename_i hlocked
      rcases (core.cross rem).1.warn_cases rem.effectiveSecs with hnone | ⟨w, hone, -⟩
      · rw [hnone] at h
        cases h
      · rw [hone, List.mem_singleton] at h
        exact Or.inr (Or.inl ⟨⟨w, h⟩, by simpa using hlocked⟩)
  · exact Or.inr (Or.inr h)

theorem cross_subset {e : EnforcerEffect} (h : e ∈ (core.cross rem).2) : e ∈ (core.act rem).2 := by
  unfold act
  exact List.mem_append_left _ (List.mem_append_left _ h)

/-! ## Locks and thaws in turn -/

/-- The lock edge an effect is, if it is one. -/
def edge : EnforcerEffect → Option FreezeAction
  | .freeze _ => some .freeze
  | .thaw _ => some .thaw
  | _ => none

end EnforcerCore

def FreezeAction.other : FreezeAction → FreezeAction
  | freeze => thaw
  | thaw => freeze

/-- The actions come in turn, from a given one on. -/
def AlternatesFrom : FreezeAction → List FreezeAction → Prop
  | _, [] => True
  | next, a :: as => a = next ∧ AlternatesFrom next.other as

namespace EnforcerCore
variable (cal : Calendar) (core : EnforcerCore) (rem : Remaining)

/-- The edge a core is ready to cross. -/
def nextEdge : FreezeAction := if core.locked then .thaw else .freeze

theorem edges_warn (secs : Int) : (core.warn secs).2.filterMap edge = [] := by
  rcases core.warn_cases secs with hnone | ⟨w, hone, -⟩
  · rw [hnone]
    rfl
  · rw [hone]
    rfl

/-- A tick crosses the edge it is ready for, or none. -/
theorem edges_act :
    (core.act rem).2.filterMap edge = [core.nextEdge] ∧
        (core.act rem).1.nextEdge = core.nextEdge.other ∨
      (core.act rem).2.filterMap edge = [] ∧ (core.act rem).1.nextEdge = core.nextEdge := by
  have hedges : (core.act rem).2.filterMap edge = (core.cross rem).2.filterMap edge := by
    unfold act
    dsimp only
    rw [List.filterMap_append, List.filterMap_append]
    split
    · simp [edge]
    · rw [edges_warn]
      simp [edge]
  rw [hedges]
  unfold nextEdge
  rw [act_locked]
  rcases core.cross_cases rem with ⟨hcore, hrem, heq⟩ | ⟨hcore, hrem, heq⟩ | ⟨hsame, heq⟩ <;>
    rw [heq]
  · left
    rw [hcore, hrem]
    exact ⟨rfl, rfl⟩
  · left
    rw [hcore, hrem]
    exact ⟨rfl, rfl⟩
  · right
    rw [hsame]
    exact ⟨rfl, rfl⟩

/-- **Locks and thaws alternate** over any run. -/
theorem alternates_run (inputs : List EnforcerInputs) :
    AlternatesFrom core.nextEdge ((effects (tick cal) core inputs).filterMap edge) := by
  induction inputs generalizing core with
  | nil => trivial
  | cons inp inputs ih =>
    rw [effects_cons, List.filterMap_append]
    have hrest := ih (core.tick cal inp).1
    rcases core.edges_act (computeRemaining cal inp) with ⟨hedge, hnext⟩ | ⟨hedge, hnext⟩
    · rw [tick, hedge]
      rw [tick, hnext] at hrest
      exact ⟨rfl, hrest⟩
    · rw [tick, hedge]
      rw [tick, hnext] at hrest
      exact hrest

/-! ## Warnings are one shot -/

/-- Whether an effect is a given warning. -/
def warns (w : WarnLevel) : EnforcerEffect → Bool
  | .warn w' => w' = w
  | _ => false

/-- What re-arms a warning: a thaw, or time left that is unbounded or above its threshold. -/
def rearms (w : WarnLevel) : EnforcerEffect → Bool
  | .thaw _ => true
  | .timeLeft rem => decide (rem.effectiveSecs < 0) || decide (w.threshold < rem.effectiveSecs)
  | _ => false

/-- A shot that is spent has its latch consumed. -/
def Covers (w : WarnLevel) (core : EnforcerCore) (spent : Bool) : Prop :=
  spent = true → core.warned w = true

theorem covers_cross {w : WarnLevel} {spent : Bool} (h : Covers w core spent) :
    Obeys (spend (warns w) (rearms w)) (Fresh (warns w)) spent (core.cross rem).2 ∧
      Covers w (core.cross rem).1
        ((core.cross rem).2.foldl (spend (warns w) (rearms w)) spent) := by
  rcases core.cross_cases rem with ⟨-, -, heq⟩ | ⟨-, -, heq⟩ | ⟨-, heq⟩ <;> rw [heq]
  · refine ⟨obeys_of_silent (by simp [warns]), ?_⟩
    cases w <;> exact h
  · refine ⟨obeys_of_silent (by simp [warns]), ?_⟩
    -- the thaw re-arms, so nothing is left spent
    intro hspent
    simp [spend, warns, rearms] at hspent
  · exact ⟨trivial, h⟩

/-- The report of a tick re-arms a warning just where the tick freed its latch. -/
theorem covers_warn {w : WarnLevel} {spent : Bool} (h : Covers w core spent) :
    Obeys (spend (warns w) (rearms w)) (Fresh (warns w)) spent
        ((core.warn rem.effectiveSecs).2 ++ [EnforcerEffect.timeLeft rem]) ∧
      Covers w (core.warn rem.effectiveSecs).1
        (((core.warn rem.effectiveSecs).2 ++ [EnforcerEffect.timeLeft rem]).foldl
          (spend (warns w) (rearms w)) spent) := by
  refine ⟨?_, ?_⟩
  · rw [obeys_append]
    refine ⟨?_, obeys_of_silent (by simp [warns])⟩
    rcases core.warn_cases rem.effectiveSecs with hnone | ⟨w', hone, hfree⟩
    · rw [hnone]
      trivial
    · rw [hone]
      refine ⟨?_, trivial⟩
      intro hfires
      obtain rfl : w' = w := of_decide_eq_true hfires
      by_contra hspent
      rw [h (by simpa using hspent)] at hfree
      cases hfree
  · rw [List.foldl_append]
    intro hspent
    simp only [List.foldl_cons, List.foldl_nil, spend, warns, Bool.false_eq_true, if_false] at hspent
    rw [warned_warn]
    split at hspent
    · contradiction
    · rename_i hrearms
      simp only [rearms, Bool.or_eq_true, decide_eq_true_eq] at hrearms
      omega

/-- **One tick keeps the latches over the shots.** -/
theorem covers_act {w : WarnLevel} {spent : Bool} (h : Covers w core spent) :
    Obeys (spend (warns w) (rearms w)) (Fresh (warns w)) spent (core.act rem).2 ∧
      Covers w (core.act rem).1 ((core.act rem).2.foldl (spend (warns w) (rearms w)) spent) := by
  obtain ⟨hcross, hcovers⟩ := covers_cross core rem h
  unfold act
  dsimp only
  split
  · rw [List.append_nil, obeys_append, List.foldl_append]
    refine ⟨⟨hcross, obeys_of_silent (by simp [warns])⟩, ?_⟩
    intro hspent
    simp only [List.foldl_cons, List.foldl_nil, spend, warns, Bool.false_eq_true, if_false] at hspent
    split at hspent
    · contradiction
    · exact hcovers hspent
  · rw [List.append_assoc, obeys_append, List.foldl_append]
    exact ⟨⟨hcross, (covers_warn _ rem hcovers).1⟩, (covers_warn _ rem hcovers).2⟩

/-! ## Runs of ticks -/

/-- What a tick on an input may emit. -/
structure TickLaw (cal : Calendar) (inp : EnforcerInputs) (effs : List EnforcerEffect) : Prop where
  freezeShown : .freeze .managedAppSlice ∈ effs → ∃ reason, .showLock reason ∈ effs
  thawHidden : .thaw .managedAppSlice ∈ effs → .hideLock ∈ effs
  quiet : (computeRemaining cal inp).locked = true → ∀ w, .warn w ∉ effs
  notBoth : ¬(.warn .ten ∈ effs ∧ .warn .one ∈ effs)
  reported : ∀ rem, .timeLeft rem ∈ effs ↔ rem = computeRemaining cal inp

/-- **The law of a run of ticks.**  Each entry of the log is an input with what its tick
emitted; the effects are those of all ticks in order. -/
structure TickRunLaw (cal : Calendar) (inputs : List EnforcerInputs) : Prop where
  alternate : AlternatesFrom .freeze ((effects (tick cal) new inputs).filterMap edge)
  ticks : ∀ t ∈ (run (tick cal) new inputs).2, TickLaw cal t.1 t.2
  verdict : ∀ earlier last, inputs = earlier ++ [last] →
    (run (tick cal) new inputs).1.isLocked = (computeRemaining cal last).locked
  rearmed : ∀ w before between after,
    effects (tick cal) new inputs = before ++ .warn w :: between ++ .warn w :: after →
      ∃ e ∈ between, (∃ target, e = .thaw target) ∨
        ∃ rem, e = .timeLeft rem ∧ (rem.effectiveSecs < 0 ∨ w.threshold < rem.effectiveSecs)

theorem freeze_shown (h : .freeze .managedAppSlice ∈ (core.act rem).2) :
    ∃ reason, .showLock reason ∈ (core.act rem).2 := by
  rcases mem_act core rem h with hcross | ⟨⟨w, hw⟩, -⟩ | hreport
  · rcases core.cross_cases rem with ⟨-, -, heq⟩ | ⟨-, -, heq⟩ | ⟨-, heq⟩
    · exact ⟨rem.reason.getD .schedule, cross_subset core rem (by rw [heq]; simp)⟩
    · rw [heq] at hcross
      simp at hcross
    · rw [heq] at hcross
      cases hcross
  · cases hw
  · cases hreport

theorem thaw_hidden (h : .thaw .managedAppSlice ∈ (core.act rem).2) :
    .hideLock ∈ (core.act rem).2 := by
  rcases mem_act core rem h with hcross | ⟨⟨w, hw⟩, -⟩ | hreport
  · rcases core.cross_cases rem with ⟨-, -, heq⟩ | ⟨-, -, heq⟩ | ⟨-, heq⟩
    · rw [heq] at hcross
      simp at hcross
    · exact cross_subset core rem (by rw [heq]; simp)
    · rw [heq] at hcross
      cases hcross
  · cases hw
  · cases hreport

/-- A lock edge is no warning and no report. -/
theorem mem_cross {e : EnforcerEffect} (h : e ∈ (core.cross rem).2) :
    (∀ w, e ≠ .warn w) ∧ ∀ r, e ≠ .timeLeft r := by
  rcases core.cross_cases rem with ⟨-, -, heq⟩ | ⟨-, -, heq⟩ | ⟨-, heq⟩ <;> rw [heq] at h
  · simp only [List.mem_cons, List.not_mem_nil, or_false] at h
    rcases h with rfl | rfl | rfl <;> simp
  · simp only [List.mem_cons, List.not_mem_nil, or_false] at h
    rcases h with rfl | rfl | rfl <;> simp
  · cases h

theorem quiet_when_locked (hlocked : rem.locked = true) (w : WarnLevel) :
    .warn w ∉ (core.act rem).2 := by
  intro h
  rcases mem_act core rem h with hcross | ⟨-, hopen⟩ | hreport
  · exact (mem_cross core rem hcross).1 w rfl
  · rw [hlocked] at hopen
    cases hopen
  · cases hreport

theorem act_not_both : ¬(.warn .ten ∈ (core.act rem).2 ∧ .warn .one ∈ (core.act rem).2) := by
  have hwarn : ∀ w, .warn w ∈ (core.act rem).2 →
      .warn w ∈ ((core.cross rem).1.warn rem.effectiveSecs).2 := by
    intro w h
    unfold act at h
    simp only [List.mem_append, List.mem_singleton] at h
    rcases h with (h | h) | h
    · exact absurd rfl ((mem_cross core rem h).1 w)
    · split at h
      · cases h
      · exact h
    · cases h
  rintro ⟨hten, hone⟩
  exact not_both_warned _ _ ⟨hwarn _ hten, hwarn _ hone⟩

theorem mem_act_timeLeft (r : Remaining) : .timeLeft r ∈ (core.act rem).2 ↔ r = rem := by
  constructor
  · intro h
    rcases mem_act core rem h with hcross | ⟨⟨w, hw⟩, -⟩ | hreport
    · exact absurd rfl ((mem_cross core rem hcross).2 r)
    · cases hw
    · cases hreport
      rfl
  · rintro rfl
    exact List.mem_append_right _ List.mem_cons_self

theorem tick_law (cal : Calendar) (core : EnforcerCore) (inp : EnforcerInputs) :
    TickLaw cal inp (core.tick cal inp).2 where
  freezeShown := freeze_shown core _
  thawHidden := thaw_hidden core _
  quiet := quiet_when_locked core _
  notBoth := act_not_both core _
  reported := mem_act_timeLeft core _

/-- **Every run of ticks from a new core is lawful.** -/
theorem tick_run_law (cal : Calendar) (inputs : List EnforcerInputs) : TickRunLaw cal inputs where
  alternate := alternates_run cal new inputs
  ticks := run_entries (tick_law cal)
  verdict earlier last h := by
    rw [h, run_append_singleton]
    exact act_locked _ _
  rearmed w before between after h := by
    have hfirst : Covers w new false := fun hspent => absurd hspent (by decide)
    have hobeys : Obeys (spend (warns w) (rearms w)) (Fresh (warns w)) false
        (effects (tick cal) new inputs) :=
      effects_obey (R := Covers w)
        (fun core _ inp h => covers_act core (computeRemaining cal inp) h) hfirst inputs
    rw [h] at hobeys
    have hself : warns w (.warn w) = true := decide_eq_true rfl
    obtain ⟨e, he, hrearms⟩ := rearmed_between hobeys hself hself
    refine ⟨e, he, ?_⟩
    cases e with
    | thaw target => exact Or.inl ⟨target, rfl⟩
    | timeLeft rem =>
      simp only [rearms, Bool.or_eq_true, decide_eq_true_eq] at hrearms
      exact Or.inr ⟨rem, rfl, hrearms⟩
    | _ => cases hrearms

end EnforcerCore
end Kintrinsic
