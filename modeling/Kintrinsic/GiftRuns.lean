import Kintrinsic.ExtensionToday
import Kintrinsic.Gifts

/-! # A gift pays once

The ids a ledger has paid are cleared with its day, in either direction of the clock and after an
edit of the zone.  A ghost keeps what was cleared.  Every run pays each gift once exactly when no
gift still live at a tick is among the cleared ones. -/
namespace Kintrinsic

open EffectRun ExtensionLedger GuardedRun

namespace ExtensionLedger
variable (zones : Zones) (l : ExtensionLedger) (c : PoolCall)

/-- A call leaves the ledger in the day of its instant. -/
theorem PoolCall.run_current_day :
    (c.run zones l).2.dayKeyAt zones c.now = (c.run zones l).2.dayKey := by
  have hday : (l.roll zones c.now).dayKeyAt zones c.now = (l.roll zones c.now).dayKey :=
    roll_current_day
  rw [← PoolCall.run_roll]
  by_cases hmem : c.reqId ∈ (l.roll zones c.now).applied
  · rw [run_of_mem hday hmem]
    exact hday
  · obtain ⟨-, hcredited⟩ := run_of_not_mem hday hmem
    unfold dayKeyAt zone at hday ⊢
    rw [hcredited.tz, hcredited.dayKey, hday]

end ExtensionLedger

variable {zones : Zones}

/-! ## One tick -/

/-- The gift that a tick finds live, with its minutes. -/
def GiftTick.live (t : GiftTick) : Option GiftBody → Option (GiftBody × Nat)
  | none => none
  | some body => (body.minutesNow (asU64 t.now)).map (body, ·)

/-- The call a live gift asks for. -/
def GiftTick.callOf (t : GiftTick) (body : GiftBody) (minutes : Nat) : PoolCall :=
  ⟨t.now, giftReqId body.id, minutes, giftRoute body t.lockReason t.buckets⟩

theorem giftStep_of_dead (l : ExtensionLedger) {stored : Option GiftBody} {t : GiftTick}
    (h : t.live stored = none) : giftStep zones l stored t = ([], l) := by
  unfold GiftTick.live at h
  unfold giftStep
  cases stored with
  | none => rfl
  | some body =>
    dsimp only at h ⊢
    rw [Option.map_eq_none_iff.mp h]

/-- A tick that finds a live gift makes its call. -/
theorem giftStep_of_live (l : ExtensionLedger) {stored : Option GiftBody} {t : GiftTick}
    {body : GiftBody} {minutes : Nat} (h : t.live stored = some (body, minutes)) :
    giftStep zones l stored t =
      if ((t.callOf body minutes).run zones l).1 then
        ([⟨body, t.callOf body minutes⟩],
          if (t.callOf body minutes).address = .give .budget then
            ((t.callOf body minutes).run zones l).2.noteBudgetBaseline zones t.now t.usedToday
              t.usedWeek
          else ((t.callOf body minutes).run zones l).2)
      else ([], ((t.callOf body minutes).run zones l).2) := by
  cases stored with
  | none => cases h
  | some given =>
    obtain ⟨m, hm, hpair⟩ := Option.map_eq_some_iff.mp h
    obtain ⟨rfl, rfl⟩ := Prod.mk.inj hpair
    have hcall : t.callOf given m =
      ⟨t.now, giftReqId given.id, m, giftRoute given t.lockReason t.buckets⟩ := rfl
    unfold giftStep
    dsimp only
    rw [hm, hcall]
    dsimp only
    generalize PoolCall.run zones l _ = r
    obtain ⟨_ | _, l'⟩ := r
    · rfl
    · rfl

/-- **What a tick pays.**  A live gift is paid under an id not applied on the day of the tick, and
its id is applied from then on. -/
theorem giftStep_pays (zones : Zones) (l : ExtensionLedger) {stored : Option GiftBody} {t : GiftTick}
    {body : GiftBody} {minutes : Nat} (h : t.live stored = some (body, minutes)) :
    (giftStep zones l stored t).1 =
        (if giftReqId body.id ∈ (l.roll zones t.now).applied then []
          else [⟨body, t.callOf body minutes⟩]) ∧
      (giftStep zones l stored t).2.applied =
        if giftReqId body.id ∈ (l.roll zones t.now).applied then (l.roll zones t.now).applied
        else (l.roll zones t.now).applied ++ [giftReqId body.id] := by
  have hday := PoolCall.run_current_day zones l (t.callOf body minutes)
  obtain ⟨hanswer, happlied⟩ := PoolCall.run_applied zones l (t.callOf body minutes)
  change _ = decide (giftReqId body.id ∉ (l.roll zones t.now).applied) at hanswer
  change _ = if giftReqId body.id ∈ (l.roll zones t.now).applied then (l.roll zones t.now).applied
    else (l.roll zones t.now).applied ++ [giftReqId body.id] at happlied
  rw [giftStep_of_live l h, hanswer]
  by_cases hmem : giftReqId body.id ∈ (l.roll zones t.now).applied
  · rw [if_pos hmem] at happlied
    simp only [hmem, not_true_eq_false, decide_false, Bool.false_eq_true, if_false, if_true]
    exact ⟨trivial, happlied⟩
  · rw [if_neg hmem] at happlied
    simp only [hmem, not_false_eq_true, decide_true, if_true, if_false, true_and]
    split
    · have hcurrent : ((t.callOf body minutes).run zones l).2.roll zones t.now =
        ((t.callOf body minutes).run zones l).2 := roll_of_current hday
      rw [noteBudgetBaseline_applied, hcurrent, happlied]
    · exact happlied

theorem noteBudgetBaseline_pool (l : ExtensionLedger) (now : Int) (usedToday usedWeek : Nat)
    (a : PoolAddress) :
    (l.noteBudgetBaseline zones now usedToday usedWeek).pool a = (l.roll zones now).pool a := by
  unfold noteBudgetBaseline
  dsimp only
  generalize l.roll zones now = r
  split
  · rcases a with (_ | _) | id | id | (_ | _) <;> rfl
  · rfl

/-- **What a payment adds**: the gift's seconds, to the one pool it addresses.  A tick that pays
nothing adds nothing. -/
theorem giftStep_pools (l : ExtensionLedger) {stored : Option GiftBody} {t : GiftTick}
    {body : GiftBody} {minutes : Nat} (h : t.live stored = some (body, minutes)) (a : PoolAddress) :
    ((giftStep zones l stored t).1 = [] →
      (giftStep zones l stored t).2.pool a = (l.roll zones t.now).pool a) ∧
    ∀ p ∈ (giftStep zones l stored t).1,
      (giftStep zones l stored t).2.pool a = (l.roll zones t.now).pool a ∧ p.call.secsTo a = 0 ∨
      (giftStep zones l stored t).2.pool a =
        settle a ((l.roll zones t.now).pool a + p.call.secsTo a) := by
  have hday : (l.roll zones t.now).dayKeyAt zones t.now = (l.roll zones t.now).dayKey :=
    roll_current_day
  have hstays := PoolCall.run_current_day zones l (t.callOf body minutes)
  have hroll : (t.callOf body minutes).run zones (l.roll zones t.now) =
      (t.callOf body minutes).run zones l := PoolCall.run_roll zones l (t.callOf body minutes)
  rw [giftStep_of_live l h]
  by_cases hmem : giftReqId body.id ∈ (l.roll zones t.now).applied
  · have hrun : (t.callOf body minutes).run zones l = (false, l.roll zones t.now) :=
      hroll.symm.trans (run_of_mem hday hmem)
    rw [hrun, if_neg Bool.false_ne_true]
    exact ⟨fun _ => rfl, fun p hp => absurd hp List.not_mem_nil⟩
  · obtain ⟨htrue, hcredited⟩ := run_of_not_mem (c := t.callOf body minutes) hday hmem
    rw [hroll] at htrue hcredited
    rw [if_pos htrue]
    refine ⟨fun hnone => absurd hnone (List.cons_ne_nil _ _), ?_⟩
    intro p hp
    rw [List.mem_singleton.mp hp]
    have hsame : (if (t.callOf body minutes).address = .give .budget then
        ((t.callOf body minutes).run zones l).2.noteBudgetBaseline zones t.now t.usedToday
          t.usedWeek
      else ((t.callOf body minutes).run zones l).2).pool a =
        ((t.callOf body minutes).run zones l).2.pool a := by
      split
      · rw [noteBudgetBaseline_pool]
        exact congrArg (pool · a) (roll_of_current hstays)
      · rfl
    dsimp only
    rw [hsame]
    exact hcredited.pools a

theorem lt_of_live {t : GiftTick} {stored : Option GiftBody} {body : GiftBody} {minutes : Nat}
    (h : t.live stored = some (body, minutes)) : t.now < body.expiresAt := by
  cases stored with
  | none => cases h
  | some given =>
    obtain ⟨m, hm, hpair⟩ := Option.map_eq_some_iff.mp h
    obtain ⟨rfl, rfl⟩ := Prod.mk.inj hpair
    apply lt_of_asU64_lt t.now_lt
    by_contra hexpired
    unfold GiftBody.minutesNow at hm
    rw [if_pos (Nat.le_of_not_lt hexpired)] at hm
    split at hm
    · cases hm
    · split at hm <;> cases hm

/-! ## Runs -/

/-- A child's ledger, and the ids that it had applied and then cleared with their day. -/
structure GiftDays where
  ledger : ExtensionLedger
  forgotten : List String

/-- A tick over what is stored then, or anything else that touches the ledger. -/
inductive GiftAction
  | tick (stored : Option GiftBody) (t : GiftTick)
  | work (w : LedgerWork)

/-- The instant at which an action rolls the day, if it does. -/
def GiftAction.rollsAt (l : ExtensionLedger) : GiftAction → Option Int
  | tick stored t => (t.live stored).map fun _ => t.now
  | work w => w.rollsAt l

/-- The ids a roll clears. -/
def clearedAt (zones : Zones) (l : ExtensionLedger) : Option Int → List String
  | none => []
  | some now => if l.dayKeyAt zones now = l.dayKey then [] else l.applied

namespace GiftDays

/-- What is forgotten once an action has rolled the day. -/
def forget (zones : Zones) (s : GiftDays) (a : GiftAction) : List String :=
  s.forgotten ++ clearedAt zones s.ledger (a.rollsAt s.ledger)

def step (zones : Zones) (s : GiftDays) (a : GiftAction) : GiftDays × List Payment :=
  match a with
  | .tick stored t =>
    (⟨(giftStep zones s.ledger stored t).2, s.forget zones a⟩,
      (giftStep zones s.ledger stored t).1)
  | .work w => (⟨w.run zones s.ledger, s.forget zones a⟩, [])

/-- A gift that a tick finds live was not paid on a day that is gone. -/
def Recalls (zones : Zones) (s : GiftDays) (a : GiftAction) : Prop :=
  match a with
  | .tick stored t => ∀ p ∈ t.live stored, giftReqId p.1.id ∉ s.forget zones a
  | .work _ => True

/-- A child's ledger as it is made. -/
def start (zones : Zones) (tz : String) (now : Int) : GiftDays := ⟨.new zones tz now, []⟩

end GiftDays

/-- Every gift was paid once at most, and before it expired. -/
def PaysOnce (ps : List Payment) : Prop :=
  (ps.map (·.body.id)).Nodup ∧ ∀ p ∈ ps, p.call.now < p.body.expiresAt

/-- **The invariant**: an id was paid as often as it is applied today and forgotten, and it is
applied once at most. -/
structure Remembered (applied forgotten paid : List String) : Prop where
  count : ∀ id, paid.count id =
    applied.count (giftReqId id) + forgotten.count (giftReqId id)
  once : ∀ id, applied.count (giftReqId id) ≤ 1

theorem Remembered.congr {applied applied' forgotten paid : List String}
    (h : Remembered applied forgotten paid)
    (happlied : ∀ id, applied'.count (giftReqId id) = applied.count (giftReqId id)) :
    Remembered applied' forgotten paid where
  count id := by rw [happlied, h.count]
  once id := by
    rw [happlied]
    exact h.once id

/-- A roll moves what was applied to what is forgotten. -/
theorem Remembered.rolled (zones : Zones) {l : ExtensionLedger} {forgotten paid : List String}
    (h : Remembered l.applied forgotten paid) (r : Option Int) :
    Remembered (rolledAt zones l r).applied (forgotten ++ clearedAt zones l r) paid := by
  cases r with
  | none =>
    unfold rolledAt clearedAt
    rwa [List.append_nil]
  | some now =>
    change Remembered (l.roll zones now).applied
      (forgotten ++ if l.dayKeyAt zones now = l.dayKey then [] else l.applied) paid
    unfold roll
    by_cases hday : l.dayKeyAt zones now = l.dayKey
    · rwa [if_pos hday, if_pos hday, List.append_nil]
    · rw [if_neg hday, if_neg hday]
      refine ⟨fun id => ?_, fun id => Nat.zero_le 1⟩
      rw [h.count, List.count_append]
      change _ = 0 + _
      omega

/-- Paying a gift that is not applied. -/
theorem Remembered.pay {applied forgotten paid : List String} {id : String}
    (h : Remembered applied forgotten paid) (hid : giftReqId id ∉ applied) :
    Remembered (applied ++ [giftReqId id]) forgotten (paid ++ [id]) := by
  have hsame : ∀ other, [giftReqId id].count (giftReqId other) = [id].count other := by
    intro other
    rw [List.count_singleton, List.count_singleton]
    exact if_congr (by simp [giftReqId_injective.eq_iff]) rfl rfl
  refine ⟨fun other => ?_, fun other => ?_⟩
  · rw [List.count_append, List.count_append, hsame, h.count]
    omega
  · rw [List.count_append, hsame]
    have honce := h.once other
    by_cases hother : other = id
    · subst hother
      rw [List.count_eq_zero_of_not_mem hid, List.count_singleton_self]
    · rw [List.count_singleton, if_neg (by simpa using fun heq => hother heq.symm)]
      exact honce

theorem rollsAt_tick {l : ExtensionLedger} {stored : Option GiftBody} {t : GiftTick}
    {live : Option (GiftBody × Nat)} (h : t.live stored = live) :
    GiftAction.rollsAt l (.tick stored t) = live.map fun _ => t.now :=
  congrArg (Option.map fun _ => t.now) h

namespace GiftDays

/-- The ids of the gifts an action pays. -/
def paysIds (zones : Zones) (s : GiftDays) (a : GiftAction) : List String :=
  (s.step zones a).2.map (·.body.id)

theorem paysIds_of_dead {s : GiftDays} {stored : Option GiftBody} {t : GiftTick}
    (h : t.live stored = none) : s.paysIds zones (.tick stored t) = [] := by
  unfold paysIds step
  dsimp only
  rw [giftStep_of_dead s.ledger h]
  rfl

theorem paysIds_of_live {s : GiftDays} {stored : Option GiftBody} {t : GiftTick}
    {body : GiftBody} {minutes : Nat} (h : t.live stored = some (body, minutes)) :
    s.paysIds zones (.tick stored t) =
      if giftReqId body.id ∈ (s.ledger.roll zones t.now).applied then [] else [body.id] := by
  unfold paysIds step
  dsimp only
  rw [(giftStep_pays zones s.ledger h).1]
  split <;> rfl

/-- **Every action keeps the invariant.** -/
theorem remembered_step (zones : Zones) {s : GiftDays} {paid : List String}
    (h : Remembered s.ledger.applied s.forgotten paid) (a : GiftAction) :
    Remembered (s.step zones a).1.ledger.applied (s.step zones a).1.forgotten
      (paid ++ s.paysIds zones a) := by
  have hrolled : Remembered (rolledAt zones s.ledger (a.rollsAt s.ledger)).applied
      (s.forget zones a) paid := h.rolled zones _
  cases a with
  | work w =>
    have hnone : s.paysIds zones (.work w) = [] := rfl
    rw [hnone, List.append_nil]
    exact hrolled.congr (w.run_count s.ledger)
  | tick stored t =>
    cases hlive : t.live stored with
    | none =>
      rw [rollsAt_tick hlive] at hrolled
      rw [paysIds_of_dead hlive, List.append_nil]
      unfold step
      dsimp only
      rw [giftStep_of_dead s.ledger hlive]
      exact hrolled
    | some live =>
      obtain ⟨body, minutes⟩ := live
      rw [rollsAt_tick hlive] at hrolled
      rw [paysIds_of_live hlive]
      unfold step
      dsimp only
      rw [(giftStep_pays zones s.ledger hlive).2]
      by_cases hmem : giftReqId body.id ∈ (s.ledger.roll zones t.now).applied
      · rw [if_pos hmem, if_pos hmem, List.append_nil]
        exact hrolled
      · rw [if_neg hmem, if_neg hmem]
        exact hrolled.pay hmem

theorem recalls_tick {s : GiftDays} {stored : Option GiftBody} {t : GiftTick} {body : GiftBody}
    {minutes : Nat} (h : t.live stored = some (body, minutes)) :
    s.Recalls zones (.tick stored t) ↔ giftReqId body.id ∉ s.forget zones (.tick stored t) := by
  change (∀ p ∈ t.live stored, _) ↔ _
  rw [h]
  exact ⟨fun hall => hall (body, minutes) rfl, fun hid p hp => Option.some.inj hp ▸ hid⟩

/-- After payments that were all different, an action keeps them so exactly when it recalls. -/
theorem nodup_step_iff {s : GiftDays} {paid : List String}
    (h : Remembered s.ledger.applied s.forgotten paid) (hpaid : paid.Nodup) (a : GiftAction) :
    (paid ++ s.paysIds zones a).Nodup ↔ s.Recalls zones a := by
  cases a with
  | work w =>
    have hnone : s.paysIds zones (.work w) = [] := rfl
    rw [hnone, List.append_nil]
    exact iff_of_true hpaid trivial
  | tick stored t =>
    have hrolled : Remembered
        (rolledAt zones s.ledger (GiftAction.rollsAt s.ledger (.tick stored t))).applied
        (s.forget zones (.tick stored t)) paid := h.rolled zones _
    rw [rollsAt_tick rfl] at hrolled
    cases hlive : t.live stored with
    | none =>
      rw [paysIds_of_dead hlive, List.append_nil]
      refine iff_of_true hpaid fun p hp => ?_
      rw [hlive] at hp
      cases hp
    | some live =>
      obtain ⟨body, minutes⟩ := live
      rw [hlive] at hrolled
      rw [paysIds_of_live hlive, recalls_tick hlive]
      have hcount : paid.count body.id =
          (s.ledger.roll zones t.now).applied.count (giftReqId body.id) +
            (s.forget zones (.tick stored t)).count (giftReqId body.id) := hrolled.count body.id
      by_cases hmem : giftReqId body.id ∈ (s.ledger.roll zones t.now).applied
      · rw [if_pos hmem, List.append_nil]
        refine iff_of_true hpaid ?_
        have hone := List.nodup_iff_count_le_one.mp hpaid body.id
        have happlied := List.count_pos_iff.mpr hmem
        rw [← List.count_eq_zero]
        omega
      · rw [if_neg hmem]
        rw [List.count_eq_zero_of_not_mem hmem, Nat.zero_add] at hcount
        rw [← List.count_eq_zero, ← hcount, List.count_eq_zero, List.nodup_append]
        constructor
        · rintro ⟨-, -, hdistinct⟩ hid
          exact hdistinct _ hid _ (List.mem_singleton_self _) rfl
        · intro hid
          refine ⟨hpaid, List.nodup_singleton _, ?_⟩
          rintro other hother _ hbody rfl
          exact hid (List.mem_singleton.mp hbody ▸ hother)

theorem paid_nodup_iff {s : GiftDays} {paid : List String} {as : List GiftAction}
    (h : Remembered s.ledger.applied s.forgotten paid) (hpaid : paid.Nodup) :
    (paid ++ (effects (step zones) s as).map (·.body.id)).Nodup ↔
      Obeys (fun s a => (s.step zones a).1) (Recalls zones) s as := by
  induction as generalizing s paid with
  | nil => simpa using hpaid
  | cons a as ih =>
    rw [effects_cons, obeys_cons, List.map_append, ← List.append_assoc,
      ← nodup_step_iff h hpaid a]
    change (paid ++ s.paysIds zones a ++ _).Nodup ↔ _
    by_cases hnodup : (paid ++ s.paysIds zones a).Nodup
    · rw [ih (remembered_step zones h a) hnodup]
      exact (and_iff_right hnodup).symm
    · refine iff_of_false (fun hall => hnodup ?_) (fun hobeys => hnodup hobeys.1)
      exact (List.nodup_append.mp hall).1

theorem remembered_start (zones : Zones) (tz : String) (made : Int) :
    Remembered (start zones tz made).ledger.applied (start zones tz made).forgotten [] :=
  ⟨fun _ => rfl, fun _ => Nat.zero_le 1⟩

end GiftDays

/-- What a tick pays has not expired. -/
theorem giftStep_unexpired (l : ExtensionLedger) (stored : Option GiftBody) (t : GiftTick) :
    ∀ p ∈ (giftStep zones l stored t).1, p.call.now < p.body.expiresAt := by
  intro p hp
  cases hlive : t.live stored with
  | none =>
    rw [giftStep_of_dead l hlive] at hp
    cases hp
  | some live =>
    rw [(giftStep_pays zones l hlive).1] at hp
    split at hp
    · cases hp
    · rw [List.mem_singleton.mp hp]
      exact lt_of_live hlive

/-- **A gift pays once**, before it expires, in exactly the runs in which no gift is live at a tick
after the day its payment stood on was cleared. -/
theorem gifts_pay_once_iff (zones : Zones) (tz : String) (made : Int) (as : List GiftAction) :
    PaysOnce (effects (GiftDays.step zones) (.start zones tz made) as) ↔
      Obeys (fun s a => (s.step zones a).1) (GiftDays.Recalls zones) (.start zones tz made) as := by
  rw [← GiftDays.paid_nodup_iff (GiftDays.remembered_start zones tz made) List.nodup_nil,
    List.nil_append]
  refine and_iff_left ?_
  intro p hp
  obtain ⟨js, a, ks, -, hpaid⟩ := mem_effects hp
  cases a with
  | tick stored t => exact giftStep_unexpired _ stored t p hpaid
  | work w => cases hpaid

/-- Half an hour, given for Monday. -/
def halfHour : GiftBody := ⟨1, 1782734400, "g1", 30, 1782777600, none, none⟩

/-- A tick of an open device at an instant of Monday noon's week. -/
def quietTick (now : Int) (h : now < 2 ^ 63) : GiftTick := ⟨now, h, none, none, 0, 0⟩

/-- **Two payments of one gift.**  The clock goes back over midnight with the clause still stored;
or it goes on, and an edit of the zone brings midnight before the expiry. -/
theorem gifts_pay_twice :
    ¬ PaysOnce (effects (GiftDays.step twoZones) (.start twoZones "UTC" 1782734400)
        [.tick (some halfHour) (quietTick 1782734400 (by decide)),
          .tick (some halfHour) (quietTick 1782648000 (by decide))]) ∧
      ¬ PaysOnce (effects (GiftDays.step twoZones) (.start twoZones "UTC" 1782734400)
        [.tick (some halfHour) (quietTick 1782734400 (by decide)),
          .work (.reconcile "Etc/GMT-1" 1782734460),
          .tick (some halfHour) (quietTick 1782775800 (by decide))]) := by
  constructor
  · rintro ⟨hnodup, -⟩
    revert hnodup
    decide +kernel
  · rintro ⟨hnodup, -⟩
    revert hnodup
    decide +kernel

end Kintrinsic
