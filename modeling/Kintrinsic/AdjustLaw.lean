import Kintrinsic.AdjustRuns

/-! # Given and taken back

What holds of an admin's entries in every run of the loop: when a pair of one size cancels, that the
ledgers count each id once, that an entry of another day does nothing, and when none takes effect
again. -/
namespace Kintrinsic

open ExtensionLedger GuardedRun

/-! ## A pair at the enforcer -/

namespace MultiChildEnforcer
variable (cal : Calendar) (m : MultiChildEnforcer) (uid : UInt32) (now : Int)

/-- What a child feels at an instant. -/
def feltAt : Option Felt := (m.remaining cal uid now).map Remaining.felt

/-- Draining two entries leaves what the child feels as it was. -/
def Leaves (e e' : AdjustEntry) : Prop :=
  (m.applyTo cal uid now ⟨adjustVersion, [e, e']⟩).2.feltAt cal uid now = m.feltAt cal uid now

instance decidableLeaves (e e' : AdjustEntry) : Decidable (m.Leaves cal uid now e e') :=
  inferInstanceAs (Decidable (_ = _))

/-- A give and a take-back cancel, in either order. -/
def Cancels (give take : AdjustEntry) : Prop :=
  m.Leaves cal uid now give take ∧ m.Leaves cal uid now take give

instance decidableCancels (give take : AdjustEntry) : Decidable (m.Cancels cal uid now give take) :=
  inferInstanceAs (Decidable (_ ∧ _))

variable {cal m uid now} {c : ChildEnforcer} {e e' : AdjustEntry}

theorem applyTo_two (hc : m.children uid = some c)
    (hday : c.extension.sameDay cal.zones e.at_ now = true) (hmagnitude : e.magnitude ≠ 0)
    (hday' : c.extension.sameDay cal.zones e'.at_ now = true) (hmagnitude' : e'.magnitude ≠ 0) :
    (m.applyTo cal uid now ⟨adjustVersion, [e, e']⟩).2.children uid =
      some ((c.adjusted cal now e).adjusted cal now e') := by
  have hfirst : (m.enter cal uid now e).2.children uid = some (c.adjusted cal now e) := by
    rw [(enter_today hc hday hmagnitude).2, if_pos rfl]
  have hagain : (c.adjusted cal now e).extension.sameDay cal.zones e'.at_ now = true := by
    unfold sameDay dayKeyAt ExtensionLedger.zone at hday' ⊢
    rw [ChildEnforcer.adjusted_tz]
    exact hday'
  unfold applyTo
  rw [List.foldl_cons, List.foldl_cons, List.foldl_nil, applyEntry_enter, applyEntry_enter]
  dsimp only
  rw [(enter_today hfirst hagain hmagnitude').2, if_pos rfl]

theorem feltAt_of_tracked (hc : m.children uid = some c) :
    m.feltAt cal uid now = some (computeRemaining cal (c.inputs now)).felt := by
  unfold feltAt remaining
  rw [hc]
  rfl

theorem leaves_iff (hc : m.children uid = some c)
    (hday : c.extension.sameDay cal.zones e.at_ now = true) (hmagnitude : e.magnitude ≠ 0)
    (hday' : c.extension.sameDay cal.zones e'.at_ now = true) (hmagnitude' : e'.magnitude ≠ 0) :
    m.Leaves cal uid now e e' ↔
      PairFor.feltAfter cal c now e e' = (computeRemaining cal (c.inputs now)).felt := by
  unfold Leaves
  rw [feltAt_of_tracked (applyTo_two hc hday hmagnitude hday' hmagnitude'), feltAt_of_tracked hc,
    Option.some_inj]
  rfl

end MultiChildEnforcer

/-! ## Every run -/

namespace AdjustWorld
variable {cal : Calendar} {deviceTz : String}

/-- An effect is of an entry that is dated on the child's day of the effect. -/
def Dated (cal : Calendar) (x : AdjustEffect) : Prop :=
  (Tz.ofName cal.zones x.tz).dayKey x.entry.at_ = (Tz.ofName cal.zones x.tz).dayKey x.now

theorem take_dated {w : AdjustWorld} (h : ∀ x ∈ w.effects, Dated cal x) (uid : UInt32) (now : Int)
    (e : AdjustEntry) : ∀ x ∈ (w.take cal uid now e).effects, Dated cal x := by
  unfold take
  cases hc : w.multi.children uid with
  | none => exact h
  | some c =>
    dsimp only
    split
    · rename_i hnewly
      intro x hx
      rcases List.mem_append.mp hx with hx | hx
      · exact h x hx
      · obtain rfl := List.mem_singleton.mp hx
        by_contra hother
        have hday : ¬c.extension.sameDay cal.zones e.at_ now = true := by
          unfold sameDay
          rw [decide_eq_true_eq]
          exact hother
        have hnone : w.multi.enter cal uid now e = (false, w.multi) :=
          MultiChildEnforcer.enter_other hc fun htoday => hday htoday.1
        rw [hnone] at hnewly
        cases hnewly
    · exact h

theorem run_dated (steps : List AdjustStep) :
    ∀ x ∈ (run cal deviceTz steps).effects, Dated cal x := by
  refine foldl_invariant (I := fun w : AdjustWorld => ∀ x ∈ w.effects, Dated cal x)
    (fun w step h => ?_) steps fun x hx => by cases hx
  cases step with
  | op o => exact h
  | save uid =>
    unfold AdjustWorld.step
    dsimp only
    split <;> exact h
  | restart => exact h
  | drain uid now file =>
    exact foldl_invariant (I := fun w : AdjustWorld => ∀ x ∈ w.effects, Dated cal x)
      (fun w e h => take_dated h uid now e) _ h

/-- An entry of another day changes nothing. -/
theorem take_other {w : AdjustWorld} {uid : UInt32} {c : ChildEnforcer}
    (hc : w.multi.children uid = some c) {now : Int} {e : AdjustEntry}
    (h : c.extension.sameDay cal.zones e.at_ now = false) : w.take cal uid now e = w := by
  have hnone : w.multi.enter cal uid now e = (false, w.multi) :=
    MultiChildEnforcer.enter_other hc fun htoday => by rw [h] at htoday; cases htoday.1
  unfold take
  rw [hc]
  dsimp only
  rw [hnone]
  rfl

/-- **Entries, in every run of the loop.**  For every child, instant and pair of one size that is new
to the child's ledger and dated today, with counts far from the end of their range: a take-back and
then a give leave everything, and the pair cancels in either order exactly when the give does not
lift the nearer limit past the other one.  Every ledger counts each of its ids once.  An entry that
is not of the day changes nothing, and what took effect was of its day.  Where no day comes back and
each ledger that is forgotten was saved, no entry takes effect twice. -/
theorem adjust_law (cal : Calendar) (deviceTz : String) (steps : List AdjustStep) :
    (∀ uid c, (run cal deviceTz steps).multi.children uid = some c →
      ∀ now give take, PairFor cal c now give take → (c.inputs now).Within smallSecs →
        c.extension.scheduleConsumedSecs ≤ c.extension.scheduleSecs →
        (run cal deviceTz steps).multi.Leaves cal uid now take give ∧
          ((run cal deviceTz steps).multi.Cancels cal uid now give take ↔
            ¬(c.inputs now).GiveLifts cal (PairFor.secs give))) ∧
      (∀ uid l, (run cal deviceTz steps).Holds uid l → l.Counted) ∧
      (∀ uid c, (run cal deviceTz steps).multi.children uid = some c →
        ∀ now e, c.extension.sameDay cal.zones e.at_ now = false →
          (run cal deviceTz steps).take cal uid now e = run cal deviceTz steps) ∧
      (∀ x ∈ (run cal deviceTz steps).effects, Dated cal x) ∧
      (Obeys (step cal deviceTz) (Onward cal) start steps →
        ((run cal deviceTz steps).effects.map fun x => (x.uid, x.entry)).Nodup) := by
  refine ⟨fun uid c hc now give take hpair hwithin hburned => ?_, ?_,
    fun uid c hc now e h => take_other hc h, run_dated steps, fun h => (Kept.run h).once⟩
  · have hnoted : c.extension.Noted :=
      run_holds noted_emptyDay (fun now l tz l' ht hl => ht.noted hl) steps uid _ (.inl ⟨c, hc, rfl⟩)
    have hsettled : (c.inputs now).Settled := ⟨hwithin, hburned, hnoted⟩
    have hgive : give.magnitude ≠ 0 := hpair.magnitude_pos.ne'
    have htake : take.magnitude ≠ 0 := by
      rw [hpair.magnitude_eq]
      exact hgive
    have hfirst := MultiChildEnforcer.leaves_iff hc hpair.giveToday hgive hpair.takeToday htake
    have hlast := MultiChildEnforcer.leaves_iff hc hpair.takeToday htake hpair.giveToday hgive
    have hleaves := hlast.mpr (hpair.take_first hsettled)
    refine ⟨hleaves, ?_⟩
    unfold MultiChildEnforcer.Cancels
    rw [hfirst, hpair.give_first hsettled]
    exact and_iff_left hleaves
  · exact run_holds counted_emptyDay (fun now l tz l' ht hl => ht.counted hl) steps

/-! ## Twenty to eight -/

/-- Until eight, and forty minutes a day: at twenty to eight the schedule is nearer. -/
def twentyToEight : List AdjustStep :=
  [.op (.sync [(7, ⟨some afterSchool, some (dailyBudget 40), none, .guardian⟩)] 1782762000
    fun _ => (none, none))]

def halfAnHourMore : AdjustEntry := ⟨"a", 30, 1782762000, none⟩

def halfAnHourLess : AdjustEntry := ⟨"b", -30, 1782762000, none⟩

open UsageLedger in
/-- **A pair that does not cancel**: given to the schedule and taken from the budget, half an hour
leaves ten minutes of twenty. -/
theorem not_cancels_twentyToEight :
    (∃ c, (run utcCalendar "UTC" twentyToEight).multi.children 7 = some c ∧
        PairFor utcCalendar c 1782762000 halfAnHourMore halfAnHourLess) ∧
      (run utcCalendar "UTC" twentyToEight).multi.feltAt utcCalendar 7 1782762000 =
        some ⟨1200, false, none⟩ ∧
      ((run utcCalendar "UTC" twentyToEight).multi.applyTo utcCalendar 7 1782762000
          ⟨1, [halfAnHourMore, halfAnHourLess]⟩).2.feltAt utcCalendar 7 1782762000 =
        some ⟨600, false, none⟩ ∧
      ¬(run utcCalendar "UTC" twentyToEight).multi.Cancels utcCalendar 7 1782762000
        halfAnHourMore halfAnHourLess := by
  refine ⟨⟨_, rfl, ?_⟩, ?_, ?_, ?_⟩
  · constructor <;> decide +kernel
  · decide +kernel
  · decide +kernel
  · decide +kernel

end AdjustWorld
end Kintrinsic
