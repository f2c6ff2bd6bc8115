import Kintrinsic.ExtensionRuns
import Kintrinsic.Newest

/-! # The pools of named times

Over whole runs of the ledger, day rolls included: what a named time was granted today is what
it has spent and what it has left, a burn takes from one pool and stops at its end, and the
pool that is offered is the one topped up last of those with seconds left.  A run keeps the
day's top-ups beside the ledger, the latest first. -/
namespace Kintrinsic
namespace ExtensionLedger

open GuardedRun MachineWord RecentFirst

/-- A call of `apply_time` that was accepted. -/
structure TopUp where
  timeId : String
  minutes : Nat
deriving DecidableEq

/-- What can happen to a ledger, at any instants. -/
inductive PoolAction
  | call (c : PoolCall)
  | burnTime (now : Int) (timeId : String) (elapsed : Nat)
  | burnSchedule (now : Int) (elapsed : Nat)
  | reconcile (tz : String) (now : Int)
  | restart
deriving DecidableEq

/-- A ledger, and the day's top-ups of named times, the latest first. -/
structure TimesDay where
  ledger : ExtensionLedger
  topUps : List TopUp

/-- The top-up that a call is, when it is one. -/
def PoolCall.topUps (c : PoolCall) : List TopUp :=
  match c.address with
  | .time id => [⟨id, c.minutes⟩]
  | _ => []

namespace TimesDay

def start (zones : Zones) (tz : String) (now : Int) : TimesDay := ⟨.new zones tz now, []⟩

/-- The ledger of the day of `now`. -/
def roll (zones : Zones) (r : TimesDay) (now : Int) : TimesDay :=
  ⟨r.ledger.roll zones now,
    if r.ledger.dayKeyAt zones now = r.ledger.dayKey then r.topUps else []⟩

def step (zones : Zones) (r : TimesDay) : PoolAction → TimesDay
  | .call c =>
    let taken := if (c.run zones r.ledger).1 then c.topUps else []
    ⟨(c.run zones r.ledger).2, taken ++ (r.roll zones c.now).topUps⟩
  | .burnTime now id elapsed =>
    ⟨r.ledger.burnTime zones now id elapsed, (r.roll zones now).topUps⟩
  | .burnSchedule now elapsed =>
    ⟨r.ledger.burnSchedule zones now elapsed, (r.roll zones now).topUps⟩
  | .reconcile tz now =>
    ⟨r.ledger.reconcile zones tz now,
      if r.ledger.tz = tz then r.topUps else (r.roll zones now).topUps⟩
  | .restart => ⟨r.ledger.restored, r.topUps⟩

/-- The list of applied ids is one that a vector can hold. -/
def Fits (r : TimesDay) (_ : PoolAction) : Prop := r.ledger.applied.length < 2 ^ 63

instance (r : TimesDay) (a : PoolAction) : Decidable (Fits r a) :=
  inferInstanceAs (Decidable (_ < _))

end TimesDay

/-- The seconds of some top-ups that a named time was granted. -/
def secsFor (id : String) (ts : List TopUp) : Nat :=
  (ts.map fun t => if t.timeId = id then secsOf t.minutes else 0).sum

/-- **The invariant** of the pools and the day's top-ups. -/
structure Kept (r : TimesDay) : Prop where
  applied : r.topUps.length ≤ r.ledger.applied.length
  topupSeq : r.ledger.timeTopupSeq = r.topUps.length
  secs : ∀ id, (r.ledger.timePool id).secs = min (secsFor id r.topUps) u64Max
  consumed : ∀ id, (r.ledger.timePool id).consumed ≤ (r.ledger.timePool id).secs
  seq : ∀ id, (r.ledger.timePool id).seq = turn TopUp.timeId id r.topUps

variable {zones : Zones} {l : ExtensionLedger} {r : TimesDay} {now : Int}

/-! ## Rolling -/

theorem kept_emptyDay (tz dayKey : String) : Kept ⟨emptyDay tz dayKey, []⟩ :=
  ⟨Nat.le_refl _, rfl, fun _ => rfl, fun _ => Nat.le_refl _, fun _ => rfl⟩

theorem kept_roll (h : Kept r) (now : Int) : Kept (r.roll zones now) := by
  unfold TimesDay.roll ExtensionLedger.roll
  split
  · exact h
  · exact kept_emptyDay _ _

theorem applied_roll_le (l : ExtensionLedger) (now : Int) :
    (l.roll zones now).applied.length ≤ l.applied.length := by
  unfold roll
  split
  · exact Nat.le_refl _
  · exact Nat.zero_le _

/-! ## One step -/

theorem timePool_insert (pools : AList fun _ : String => TimePool) (id id' : String)
    (p : TimePool) :
    (((pools.insert id p).lookup id').getD ⟨0, 0, 0⟩) =
      if id' = id then p else (pools.lookup id').getD ⟨0, 0, 0⟩ := by
  split
  · subst_vars
    rw [AList.lookup_insert, Option.getD_some]
  · rw [AList.lookup_insert_ne (by assumption)]

/-- An accepted top-up, of a pool that the day's counter numbers. -/
theorem kept_topUp (h : Kept r) (hfits : r.ledger.applied.length < 2 ^ 63) (reqId id : String)
    (minutes : Nat) :
    Kept ⟨{ r.ledger with
        applied := r.ledger.applied ++ [reqId]
        timeTopupSeq := wrapU64 (r.ledger.timeTopupSeq + 1)
        timePools := r.ledger.timePools.insert id
          { r.ledger.timePool id with
            secs := addU64 (r.ledger.timePool id).secs (secsOf minutes)
            seq := wrapU64 (r.ledger.timeTopupSeq + 1) } }, ⟨id, minutes⟩ :: r.topUps⟩ := by
  have hseq : wrapU64 (r.ledger.timeTopupSeq + 1) = r.topUps.length + 1 := by
    have hle := h.applied
    rw [h.topupSeq]
    exact wrapU64_of_lt (by omega)
  constructor
  case applied =>
    have hle := h.applied
    simp only [List.length_cons, List.length_append, List.length_nil]
    omega
  case topupSeq => exact hseq
  case secs =>
    intro id'
    simp only [timePool, timePool_insert, secsFor, List.map_cons, List.sum_cons]
    have hsecs := h.secs id'
    simp only [timePool, secsFor] at hsecs
    by_cases hid : id' = id
    · subst hid
      rw [if_pos rfl, if_pos rfl, hsecs, addU64_min_left, Nat.add_comm]
    · rw [if_neg hid, if_neg (fun heq => hid heq.symm), Nat.zero_add]
      exact hsecs
  case consumed =>
    intro id'
    simp only [timePool, timePool_insert]
    split
    · have hmax : (r.ledger.timePool id).secs ≤ u64Max := by
        rw [h.secs id]
        exact Nat.min_le_right _ _
      exact (h.consumed id).trans (le_addU64 hmax _)
    · exact h.consumed id'
  case seq =>
    intro id'
    simp only [timePool, timePool_insert, turn]
    by_cases hid : id' = id
    · subst hid
      rw [if_pos rfl, if_pos rfl]
      exact hseq
    · rw [if_neg hid, if_neg (fun heq => hid heq.symm)]
      exact h.seq id'

/-- A longer list of applied ids, with the pools as they were. -/
theorem Kept.of_pools (h : Kept r) {l' : ExtensionLedger}
    (happlied : r.ledger.applied.length ≤ l'.applied.length)
    (hseq : l'.timeTopupSeq = r.ledger.timeTopupSeq) (hpools : l'.timePools = r.ledger.timePools) :
    Kept ⟨l', r.topUps⟩ := by
  have hpool : ∀ id, l'.timePool id = r.ledger.timePool id := fun id => by
    rw [timePool, timePool, hpools]
  exact ⟨h.applied.trans happlied, hseq.trans h.topupSeq, fun id => by rw [hpool]; exact h.secs id,
    fun id => by rw [hpool]; exact h.consumed id, fun id => by rw [hpool]; exact h.seq id⟩

theorem kept_call (h : Kept r) (hfits : r.ledger.applied.length < 2 ^ 63) (c : PoolCall) :
    Kept (r.step zones (.call c)) := by
  have hroll : Kept (r.roll zones c.now) := kept_roll h c.now
  have hfits' := (@applied_roll_le zones r.ledger c.now).trans_lt hfits
  have hday := @roll_current_day zones r.ledger c.now
  simp only [TimesDay.step]
  rw [← PoolCall.run_roll]
  by_cases hmem : c.reqId ∈ (r.ledger.roll zones c.now).applied
  · rw [run_of_mem hday hmem]
    exact hroll
  · obtain ⟨now, reqId, minutes, address⟩ := c
    dsimp only at hmem hday
    have hmore : (r.ledger.roll zones now).applied.length ≤
        ((r.ledger.roll zones now).applied ++ [reqId]).length := by simp
    cases address with
    | give dim =>
      simp only [PoolCall.run, apply, once_of_not_mem hday hmem]
      cases dim <;> exact hroll.of_pools hmore rfl rfl
    | bucket id =>
      simp only [PoolCall.run, applyBucket, once_of_not_mem hday hmem]
      exact hroll.of_pools hmore rfl rfl
    | time id =>
      simp only [PoolCall.run, applyTime, once_of_not_mem hday hmem]
      exact kept_topUp hroll hfits' reqId id minutes
    | take dim =>
      simp only [PoolCall.run, deduct, once_of_not_mem hday hmem]
      cases dim <;> exact hroll.of_pools hmore rfl rfl

/-- What a burn leaves of each pool. -/
theorem timePool_burnTime (now : Int) (id : String) (elapsed : Nat) (id' : String) :
    (l.burnTime zones now id elapsed).timePool id' =
      if id' = id then
        { (l.roll zones now).timePool id with
          consumed := min (addU64 ((l.roll zones now).timePool id).consumed elapsed)
            ((l.roll zones now).timePool id).secs }
      else (l.roll zones now).timePool id' := by
  unfold burnTime
  dsimp only
  cases hlook : (l.roll zones now).timePools.lookup id with
  | none =>
    by_cases hid : id' = id
    · subst hid
      simp [timePool, hlook]
    · rw [if_neg hid]
  | some p =>
    simp only [timePool, timePool_insert, hlook, Option.getD_some]

theorem burnTime_frame (now : Int) (id : String) (elapsed : Nat) :
    ∃ pools, l.burnTime zones now id elapsed = { l.roll zones now with timePools := pools } := by
  unfold burnTime
  dsimp only
  split
  · exact ⟨_, rfl⟩
  · exact ⟨_, rfl⟩

theorem burnSchedule_frame (now : Int) (elapsed : Nat) :
    ∃ n, l.burnSchedule zones now elapsed =
      { l.roll zones now with scheduleConsumedSecs := n } := by
  unfold burnSchedule
  dsimp only
  split
  · exact ⟨_, rfl⟩
  · exact ⟨_, rfl⟩

theorem kept_burnTime (h : Kept r) (now : Int) (id : String) (elapsed : Nat) :
    Kept (r.step zones (.burnTime now id elapsed)) := by
  have hroll : Kept (r.roll zones now) := kept_roll h now
  obtain ⟨pools, hframe⟩ := @burnTime_frame zones r.ledger now id elapsed
  have happlied : (r.ledger.burnTime zones now id elapsed).applied =
      (r.ledger.roll zones now).applied := by rw [hframe]
  have hseq : (r.ledger.burnTime zones now id elapsed).timeTopupSeq =
      (r.ledger.roll zones now).timeTopupSeq := by rw [hframe]
  simp only [TimesDay.step]
  constructor
  case applied =>
    dsimp only
    rw [happlied]
    exact hroll.applied
  case topupSeq => exact hseq.trans hroll.topupSeq
  case secs =>
    intro id'
    dsimp only
    rw [timePool_burnTime]
    split
    · rename_i hid
      rw [hid]
      exact hroll.secs id
    · exact hroll.secs id'
  case consumed =>
    intro id'
    dsimp only
    rw [timePool_burnTime]
    split
    · exact Nat.min_le_right _ _
    · exact hroll.consumed id'
  case seq =>
    intro id'
    dsimp only
    rw [timePool_burnTime]
    split
    · rename_i hid
      rw [hid]
      exact hroll.seq id
    · exact hroll.seq id'

theorem kept_step (h : Kept r) (a : PoolAction) (hfits : r.Fits a) : Kept (r.step zones a) := by
  cases a with
  | call c => exact kept_call h hfits c
  | burnTime now id elapsed => exact kept_burnTime h now id elapsed
  | burnSchedule now elapsed =>
    obtain ⟨n, hframe⟩ := @burnSchedule_frame zones r.ledger now elapsed
    simp only [TimesDay.step]
    rw [hframe]
    exact (kept_roll h now).of_pools (Nat.le_refl _) rfl rfl
  | reconcile tz now =>
    simp only [TimesDay.step, ExtensionLedger.reconcile]
    split
    · exact h
    · exact (kept_roll h now).of_pools (Nat.le_refl _) rfl rfl
  | restart => exact h

/-- The run of some actions on a new ledger. -/
def timesRun (zones : Zones) (tz : String) (now : Int) (as : List PoolAction) : TimesDay :=
  as.foldl (TimesDay.step zones) (.start zones tz now)

/-- The states that runs of the entry points reach. -/
def Reached (zones : Zones) (r : TimesDay) : Prop :=
  ∃ tz now as, Obeys (TimesDay.step zones) TimesDay.Fits (.start zones tz now) as ∧
    timesRun zones tz now as = r

theorem Reached.kept (h : Reached zones r) : Kept r := by
  obtain ⟨tz, now, as, hfits, rfl⟩ := h
  exact hfits.invariant (fun _ a h hf => kept_step h a hf) (kept_emptyDay _ _)

/-! ## Readers -/

/-- What each pool reads today. -/
def reading (zones : Zones) (l : ExtensionLedger) (now : Int) : PoolAddress → Nat
  | .give .schedule => l.scheduleExtraSecs zones now
  | .give .budget => l.budgetExtraSecs zones now
  | .bucket id => l.bucketExtraSecs zones now id
  | .time id => l.timeExtraSecs zones now id
  | .take .schedule => l.scheduleDeductedSecs zones now
  | .take .budget => l.budgetDeductedSecs zones now

theorem timeExtraSecs_of_current (hday : l.dayKeyAt zones now = l.dayKey) (id : String) :
    l.timeExtraSecs zones now id = (l.timePool id).secs - (l.timePool id).consumed :=
  if_neg (by rw [stale, decide_eq_true_eq]; exact fun hne => hne hday)

/-- The later of two pools is no earlier than either. -/
theorem laterPool_spec (best : Option (String × TimePool)) (p : String × TimePool) :
    ∃ q, laterPool best p = some q ∧ (q = p ∨ best = some q) ∧ p.2.seq ≤ q.2.seq ∧
      ∀ b ∈ best, b.2.seq ≤ q.2.seq := by
  unfold laterPool
  cases best with
  | none => exact ⟨p, rfl, .inl rfl, Nat.le_refl _, nofun⟩
  | some b =>
    dsimp only
    split
    · refine ⟨p, rfl, .inl rfl, Nat.le_refl _, ?_⟩
      rintro b' ⟨⟩
      omega
    · refine ⟨b, rfl, .inr rfl, by omega, ?_⟩
      rintro b' ⟨⟩
      exact Nat.le_refl _

/-- The latest of some pools: none when there are none. -/
theorem foldl_laterPool_spec {pools : List (String × TimePool)}
    {best : Option (String × TimePool)} :
    (pools.foldl laterPool best = none ↔ best = none ∧ pools = []) ∧
      ∀ p, pools.foldl laterPool best = some p → (best = some p ∨ p ∈ pools) ∧
        (∀ b ∈ best, b.2.seq ≤ p.2.seq) ∧ ∀ q ∈ pools, q.2.seq ≤ p.2.seq := by
  induction pools generalizing best with
  | nil =>
    refine ⟨by simp, ?_⟩
    rintro p rfl
    refine ⟨.inl rfl, ?_, nofun⟩
    rintro b ⟨⟩
    exact Nat.le_refl _
  | cons q pools ih =>
    obtain ⟨m, hm, hsource, hq, hbest⟩ := laterPool_spec best q
    rw [List.foldl_cons, hm]
    obtain ⟨hnone, hsome⟩ := @ih (some m)
    refine ⟨⟨fun h => (nomatch (hnone.mp h).1), fun h => (nomatch h.2)⟩, ?_⟩
    intro p hp
    obtain ⟨hfrom, hm', hpools⟩ := hsome p hp
    have hmp : m.2.seq ≤ p.2.seq := hm' m rfl
    refine ⟨?_, fun b hb => (hbest b hb).trans hmp, ?_⟩
    · rcases hfrom with hpm | hmem
      · obtain rfl := Option.some.inj hpm
        rcases hsource with rfl | hb
        · exact .inr List.mem_cons_self
        · exact .inl hb
      · exact .inr (List.mem_cons_of_mem _ hmem)
    · intro x hx
      rcases List.mem_cons.mp hx with rfl | hx
      · exact hq.trans hmp
      · exact hpools x hx

/-- The pools among which the latest is looked for. -/
theorem mem_livePools {known : String → Bool} {p : String × TimePool} :
    p ∈ ((l.timePools.entries.map fun e => (e.1, e.2)).filter fun p =>
        decide (p.2.consumed < p.2.secs) && known p.1) ↔
      l.timePools.lookup p.1 = some p.2 ∧ p.2.consumed < p.2.secs ∧ known p.1 = true := by
  rw [List.mem_filter, List.mem_map, Bool.and_eq_true, decide_eq_true_iff]
  refine and_congr_left fun _ => ⟨?_, ?_⟩
  · rintro ⟨e, he, rfl⟩
    exact AList.mem_lookup_iff.mpr he
  · intro h
    exact ⟨⟨p.1, p.2⟩, AList.mem_lookup_iff.mp h, rfl⟩

/-- A pool that has seconds left is in the map. -/
theorem lookup_of_left {id : String} (h : (l.timePool id).consumed < (l.timePool id).secs) :
    l.timePools.lookup id = some (l.timePool id) := by
  unfold timePool at h ⊢
  cases hlook : l.timePools.lookup id with
  | none =>
    rw [hlook] at h
    exact absurd h (Nat.lt_irrefl 0)
  | some p => rfl

/-- The latest pool is one of the ids asked for, it has seconds left, and none of those that
have is later. -/
theorem mostRecentNamedPool_spec {known : String → Bool} {id : String}
    (h : l.mostRecentNamedPoolAmong zones now known = some id) :
    known id = true ∧ 0 < l.timeExtraSecs zones now id ∧
      ∀ id', known id' = true → 0 < l.timeExtraSecs zones now id' →
        (l.timePool id').seq ≤ (l.timePool id).seq := by
  unfold mostRecentNamedPoolAmong at h
  split at h
  · cases h
  rename_i hstale
  obtain ⟨p, hp, rfl⟩ := Option.map_eq_some_iff.mp h
  obtain ⟨hfrom, _, hmax⟩ := foldl_laterPool_spec.2 p hp
  obtain ⟨hlook, hleft, hknown⟩ := mem_livePools.mp (hfrom.resolve_left nofun)
  have hpool : l.timePool p.1 = p.2 := by rw [timePool, hlook, Option.getD_some]
  simp only [timeExtraSecs, if_neg hstale]
  rw [hpool]
  refine ⟨hknown, Nat.sub_pos_of_lt hleft, ?_⟩
  intro id' hknown' hleft'
  have hlt : (l.timePool id').consumed < (l.timePool id').secs := by omega
  exact hmax (id', l.timePool id') (mem_livePools.mpr ⟨lookup_of_left hlt, hlt, hknown'⟩)

theorem mostRecentNamedPool_some {known : String → Bool} {id : String}
    (h : l.mostRecentNamedPoolAmong zones now known = some id) :
    known id = true ∧ 0 < l.timeExtraSecs zones now id :=
  ⟨(mostRecentNamedPool_spec h).1, (mostRecentNamedPool_spec h).2.1⟩

/-- No pool is offered exactly when none that is asked for has seconds left. -/
theorem mostRecentNamedPool_none {known : String → Bool} :
    l.mostRecentNamedPoolAmong zones now known = none ↔
      ∀ id, known id = true → l.timeExtraSecs zones now id = 0 := by
  unfold mostRecentNamedPoolAmong timeExtraSecs
  split
  · exact ⟨fun _ _ _ => rfl, fun _ => rfl⟩
  · rw [Option.map_eq_none_iff, foldl_laterPool_spec.1]
    constructor
    · rintro ⟨-, hempty⟩ id hknown
      by_contra hleft
      have hlt : (l.timePool id).consumed < (l.timePool id).secs := by omega
      have hmem := (mem_livePools (p := (id, l.timePool id))).mpr ⟨lookup_of_left hlt, hlt, hknown⟩
      rw [hempty] at hmem
      cases hmem
    · intro hzero
      refine ⟨rfl, List.eq_nil_iff_forall_not_mem.mpr ?_⟩
      intro p hp
      obtain ⟨hlook, hleft, hknown⟩ := mem_livePools.mp hp
      have hpool : l.timePool p.1 = p.2 := by rw [timePool, hlook, Option.getD_some]
      have hz := hzero p.1 hknown
      rw [hpool] at hz
      omega

/-! ## The law -/

theorem exists_topUp_of_secsFor_pos {id : String} {ts : List TopUp} (h : 0 < secsFor id ts) :
    ∃ t ∈ ts, t.timeId = id := by
  by_contra hnone
  refine Nat.lt_irrefl 0 (h.trans_le (Nat.le_of_eq (List.sum_eq_zero ?_)))
  intro n hn
  obtain ⟨t, ht, rfl⟩ := List.mem_map.mp hn
  exact if_neg fun heq => hnone ⟨t, ht, heq⟩

/-- **Nothing granted is lost.** -/
theorem spent_add_left (h : Kept r) (hday : r.ledger.dayKeyAt zones now = r.ledger.dayKey)
    (id : String) :
    (r.ledger.timePool id).consumed + r.ledger.timeExtraSecs zones now id =
      (r.ledger.timePool id).secs := by
  have hconsumed := h.consumed id
  rw [timeExtraSecs_of_current hday]
  omega

/-- **A burn** takes what there is, and no more. -/
theorem left_burnTime (h : Kept r) (hday : r.ledger.dayKeyAt zones now = r.ledger.dayKey)
    (id : String) (elapsed : Nat) :
    (r.ledger.burnTime zones now id elapsed).timeExtraSecs zones now id =
      r.ledger.timeExtraSecs zones now id - elapsed := by
  obtain ⟨pools, hframe⟩ := @burnTime_frame zones r.ledger now id elapsed
  have hday' : (r.ledger.burnTime zones now id elapsed).dayKeyAt zones now =
      (r.ledger.burnTime zones now id elapsed).dayKey := by
    rw [hframe, roll_of_current hday]
    exact hday
  have hconsumed := h.consumed id
  have hsecs : (r.ledger.timePool id).secs ≤ u64Max := by
    rw [h.secs id]
    exact Nat.min_le_right _ _
  rw [timeExtraSecs_of_current hday', timeExtraSecs_of_current hday, timePool_burnTime, if_pos rfl,
    roll_of_current hday]
  simp only [addU64]
  omega

/-- A burn of one named time leaves every other pool alone. -/
theorem reading_burnTime (hday : l.dayKeyAt zones now = l.dayKey) {id : String} (elapsed : Nat)
    {a : PoolAddress} (ha : a ≠ .time id) :
    (l.burnTime zones now id elapsed).reading zones now a = l.reading zones now a := by
  obtain ⟨pools, hframe⟩ := @burnTime_frame zones l now id elapsed
  rcases a with (_ | _) | b | id' | (_ | _)
  case time =>
    have hne : id' ≠ id := fun heq => ha (congrArg PoolAddress.time heq)
    have hpool := @timePool_burnTime zones l now id elapsed id'
    rw [if_neg hne, roll_of_current hday] at hpool
    simp only [reading, timeExtraSecs]
    rw [hpool, hframe, roll_of_current hday]
    rfl
  all_goals
    rw [hframe, roll_of_current hday]
    rfl

/-- Nor does a burn of the schedule pool touch another one. -/
theorem reading_burnSchedule (hday : l.dayKeyAt zones now = l.dayKey) (elapsed : Nat)
    {a : PoolAddress} (ha : a ≠ .give .schedule) :
    (l.burnSchedule zones now elapsed).reading zones now a = l.reading zones now a := by
  obtain ⟨n, hframe⟩ := @burnSchedule_frame zones l now elapsed
  rw [hframe, roll_of_current hday]
  rcases a with (_ | _) | b | id | (_ | _)
  · exact absurd rfl ha
  all_goals rfl

/-- **The pool that is offered** is the first found from the front of the day's top-ups. -/
theorem mostRecent_eq_find? (h : Kept r) (hday : r.ledger.dayKeyAt zones now = r.ledger.dayKey)
    (known : String → Bool) :
    r.ledger.mostRecentNamedPoolAmong zones now known =
      (r.topUps.find? fun t => known t.timeId &&
        decide (0 < r.ledger.timeExtraSecs zones now t.timeId)).map TopUp.timeId := by
  let live : String → Bool := fun id =>
    known id && decide (0 < r.ledger.timeExtraSecs zones now id)
  have hlive : ∀ id, live id = true ↔
      known id = true ∧ 0 < r.ledger.timeExtraSecs zones now id := fun id => by
    simp only [live, Bool.and_eq_true, decide_eq_true_iff]
  change _ = (r.topUps.find? fun t : TopUp => live t.timeId).map TopUp.timeId
  cases hrecent : r.ledger.mostRecentNamedPoolAmong zones now known with
  | none =>
    have hzero := mostRecentNamedPool_none.mp hrecent
    have hnot : ∀ t ∈ r.topUps, ¬ live t.timeId = true := by
      intro t _ ht
      obtain ⟨hknown, hleft⟩ := (hlive t.timeId).mp ht
      exact Nat.ne_of_gt hleft (hzero _ hknown)
    rw [List.find?_eq_none.mpr hnot, Option.map_none]
  | some id =>
    obtain ⟨hknown, hleft, hmax⟩ := mostRecentNamedPool_spec hrecent
    obtain ⟨t, ht, rfl⟩ : ∃ t ∈ r.topUps, t.timeId = id := by
      refine exists_topUp_of_secsFor_pos ?_
      have hsum := spent_add_left h hday id
      have hsecs := h.secs id
      omega
    cases hfind : r.topUps.find? fun t : TopUp => live t.timeId with
    | none =>
      exact absurd ((hlive t.timeId).mpr ⟨hknown, hleft⟩) (List.find?_eq_none.mp hfind t ht)
    | some u =>
      have hu : live u.timeId = true := List.find?_some (p := fun t : TopUp => live t.timeId) hfind
      obtain ⟨hknown', hleft'⟩ := (hlive u.timeId).mp hu
      rw [Option.map_some, Option.some.injEq]
      by_contra hne
      -- A later top-up has a later number, and the number offered is the latest.
      have hlt := turn_lt_of_find? hfind ((hlive t.timeId).mpr ⟨hknown, hleft⟩) hne
      have hle := hmax u.timeId hknown' hleft'
      rw [h.seq, h.seq] at hle
      omega

/-- **Named-time pools.**  After every run of the ledger's entry points, at an instant of its day:
the seconds spent from a pool and those left in it are the seconds it was granted that day, the
sum of its top-ups as a 64-bit number; a burn takes `elapsed` of what is left and stops at zero,
and every other pool reads as before, as after a burn of the schedule pool; and of the known
labels with seconds left the one topped up last is offered, none exactly when none of them has.
On another day nothing is left. -/
theorem named_time_pools {zones : Zones} {r : TimesDay} (hr : Reached zones r) :
    (∀ now, r.ledger.dayKeyAt zones now = r.ledger.dayKey →
      (∀ id, (r.ledger.timePool id).consumed + r.ledger.timeExtraSecs zones now id =
          (r.ledger.timePool id).secs ∧
        (r.ledger.timePool id).secs = min (secsFor id r.topUps) u64Max) ∧
      (∀ id elapsed,
        (r.ledger.burnTime zones now id elapsed).timeExtraSecs zones now id =
          r.ledger.timeExtraSecs zones now id - elapsed ∧
        (∀ a, a ≠ .time id → (r.ledger.burnTime zones now id elapsed).reading zones now a =
          r.ledger.reading zones now a) ∧
        ∀ a, a ≠ .give .schedule →
          (r.ledger.burnSchedule zones now elapsed).reading zones now a =
            r.ledger.reading zones now a) ∧
      ∀ known : String → Bool,
        r.ledger.mostRecentNamedPoolAmong zones now known =
          (r.topUps.find? fun t => known t.timeId &&
            decide (0 < r.ledger.timeExtraSecs zones now t.timeId)).map TopUp.timeId ∧
        (r.ledger.mostRecentNamedPoolAmong zones now known = none ↔
          ∀ id, known id = true → r.ledger.timeExtraSecs zones now id = 0)) ∧
    ∀ now, r.ledger.dayKeyAt zones now ≠ r.ledger.dayKey →
      (∀ id, r.ledger.timeExtraSecs zones now id = 0) ∧
      ∀ known, r.ledger.mostRecentNamedPoolAmong zones now known = none := by
  have h := hr.kept
  refine ⟨fun now hday => ⟨fun id => ⟨spent_add_left h hday id, h.secs id⟩, ?_, ?_⟩, ?_⟩
  · intro id elapsed
    exact ⟨left_burnTime h hday id elapsed, fun a => reading_burnTime hday elapsed,
      fun a => reading_burnSchedule hday elapsed⟩
  · intro known
    exact ⟨mostRecent_eq_find? h hday known, mostRecentNamedPool_none⟩
  · intro now hday
    have hstale : r.ledger.stale zones now = true := by
      rw [stale, decide_eq_true_eq]
      exact hday
    exact ⟨fun id => if_pos hstale, fun known => if_pos hstale⟩

/-- Two named times topped up, the later one burnt to its end, the first one topped up again. -/
def homeworkThenMusic : List PoolAction :=
  [.call ⟨1782734400, "r1", 15, .time "homework"⟩, .call ⟨1782734460, "r2", 5, .time "music"⟩,
    .burnTime 1782734520 "music" 400, .call ⟨1782734580, "r1", 15, .time "music"⟩,
    .call ⟨1782734640, "r3", 10, .time "homework"⟩, .burnSchedule 1782734700 60]

theorem named_time_pools_homeworkThenMusic :
    (timesRun twoZones "UTC" 1782734400 homeworkThenMusic).ledger.mostRecentNamedPoolAmong
        twoZones 1782734400 (fun _ => true) = some "homework" ∧
      ((timesRun twoZones "UTC" 1782734400 homeworkThenMusic).ledger.timePool
          "homework").consumed +
        (timesRun twoZones "UTC" 1782734400 homeworkThenMusic).ledger.timeExtraSecs
          twoZones 1782734400 "homework" = 1500 := by
  have hlaw := (@named_time_pools twoZones _
    ⟨"UTC", 1782734400, homeworkThenMusic, by decide +kernel, rfl⟩).1 1782734400
      (by decide +kernel)
  exact ⟨(hlaw.2.2 _).1.trans (by decide +kernel), (hlaw.1 "homework").1.trans (by decide +kernel)⟩

end ExtensionLedger
end Kintrinsic
