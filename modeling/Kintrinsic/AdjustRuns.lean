import Kintrinsic.AdjustCancel
import Kintrinsic.LedgerTouches

/-! # Entries over drains and restarts

The loop drains an admin's record at every tick, among all else that it does to the ledgers.  A
restart forgets the enforcer, and a child that is tracked again gets the ledger that was saved. -/
namespace Kintrinsic

open ExtensionLedger GuardedRun

/-! ## One entry -/

namespace MultiChildEnforcer
variable (cal : Calendar) (m : MultiChildEnforcer) (uid : UInt32) (now : Int) (e : AdjustEntry)

/-- One entry of `apply_to`: whether it newly takes effect, and the enforcer. -/
def enter : Bool × MultiChildEnforcer :=
  if m.sameEnforcementDay cal uid e.at_ now ≠ some true then (false, m)
  else
    match m.remaining cal uid now with
    | none => (false, m)
    | some rem =>
      if e.magnitude = 0 then (false, m)
      else if 0 < e.minutes then
        m.applyExtension cal uid now e.reqId e.magnitude (dimensionFor rem)
      else m.deductExtension cal uid now e.reqId e.magnitude (dimensionFor rem)

variable {cal m uid now e}

theorem applyEntry_enter (s : Int × MultiChildEnforcer) :
    applyEntry cal uid now s e =
      (if (s.2.enter cal uid now e).1 then (s.1 + e.minutes).bmod (2 ^ 32) else s.1,
        (s.2.enter cal uid now e).2) := by
  unfold applyEntry enter
  split
  · rfl
  · cases s.2.remaining cal uid now with
    | none => rfl
    | some rem =>
      dsimp only
      split
      · rfl
      · split <;> rfl

theorem enter_none (h : m.children uid = none) : m.enter cal uid now e = (false, m) := by
  unfold enter sameEnforcementDay
  rw [h]
  exact if_pos (by simp)

theorem modify_tracked {c : ChildEnforcer} (hc : m.children uid = some c)
    (f : ChildEnforcer → ChildEnforcer) (u : UInt32) :
    (m.modify uid f).children u = if u = uid then some (f c) else m.children u := by
  rw [modify_children]
  by_cases hu : u = uid
  · rw [if_pos hu, if_pos hu, hu, hc]
    rfl
  · rw [if_neg hu, if_neg hu]

/-- An entry that is dated today goes to the limit the child is up against. -/
theorem enter_today {c : ChildEnforcer} (hc : m.children uid = some c)
    (hday : c.extension.sameDay cal.zones e.at_ now = true) (hmagnitude : e.magnitude ≠ 0) :
    (m.enter cal uid now e).1 = decide (e.reqId ∉ (c.extension.roll cal.zones now).applied) ∧
      ∀ u, (m.enter cal uid now e).2.children u =
        if u = uid then some (c.adjusted cal now e) else m.children u := by
  have hroute : m.remaining cal uid now = some (computeRemaining cal (c.inputs now)) := by
    unfold remaining
    rw [hc]
    rfl
  have hsame : m.sameEnforcementDay cal uid e.at_ now = some true := by
    unfold sameEnforcementDay
    rw [hc, Option.map_some, hday]
  have hnewly : ∀ address, (PoolCall.run cal.zones c.extension
      ⟨now, e.reqId, e.magnitude, address⟩).1 =
        decide (e.reqId ∉ (c.extension.roll cal.zones now).applied) :=
    fun address => (PoolCall.run_applied cal.zones c.extension _).1
  unfold enter
  rw [if_neg (by rw [hsame]; simp), hroute]
  dsimp only
  rw [if_neg hmagnitude]
  unfold ChildEnforcer.adjusted ChildEnforcer.route
  split
  · refine ⟨?_, fun u => ?_⟩
    · rw [← hnewly (.give (dimensionFor (computeRemaining cal (c.inputs now))))]
      unfold applyExtension adjust
      rw [hc]
      dsimp only [Option.map_some, Option.getD_some, PoolCall.run]
      unfold ChildEnforcer.applyExtension ChildEnforcer.adjustExtension
      dsimp only
      split <;> rfl
    · exact modify_tracked hc _ u
  · refine ⟨?_, fun u => ?_⟩
    · rw [← hnewly (.take (dimensionFor (computeRemaining cal (c.inputs now))))]
      unfold deductExtension adjust
      rw [hc]
      rfl
    · exact modify_tracked hc _ u

/-- An entry of another day, or of no minutes, does nothing. -/
theorem enter_other {c : ChildEnforcer} (hc : m.children uid = some c)
    (h : ¬(c.extension.sameDay cal.zones e.at_ now = true ∧ e.magnitude ≠ 0)) :
    m.enter cal uid now e = (false, m) := by
  have hroute : m.remaining cal uid now = some (computeRemaining cal (c.inputs now)) := by
    unfold remaining
    rw [hc]
    rfl
  unfold enter
  by_cases hday : c.extension.sameDay cal.zones e.at_ now = true
  · have hzero : e.magnitude = 0 := by
      by_contra hmagnitude
      exact h ⟨hday, hmagnitude⟩
    rw [hroute]
    dsimp only
    rw [if_pos hzero, ite_self]
  · refine if_pos ?_
    unfold sameEnforcementDay
    rw [hc, Option.map_some]
    simpa using hday

end MultiChildEnforcer

namespace ChildEnforcer
variable {cal : Calendar} {c : ChildEnforcer} {now : Int} {e : AdjustEntry}

/-- What an entry leaves of the ledger. -/
theorem adjusted_touches : Touch cal.zones now c.extension c.extension.tz
    (c.adjusted cal now e).extension := by
  unfold adjusted
  split
  · rw [applyExtension_grant]
    exact .grant ..
  · exact .call ⟨now, e.reqId, e.magnitude, .take (c.route cal now)⟩ rfl fun dim h => by cases h

theorem adjusted_tz : (c.adjusted cal now e).extension.tz = c.extension.tz := by
  rcases (@adjusted_touches cal c now e).follows with h | h
  · exact h.1
  · exact h.1

/-- It is of the day of the entry, and knows it. -/
theorem adjusted_knows :
    (c.adjusted cal now e).extension.dayKeyAt cal.zones now =
        (c.adjusted cal now e).extension.dayKey ∧
      e.reqId ∈ (c.adjusted cal now e).extension.applied := by
  have hids : ∀ address, e.reqId ∈ (PoolCall.run cal.zones c.extension
      ⟨now, e.reqId, e.magnitude, address⟩).2.applied := by
    intro address
    rw [(PoolCall.run_applied cal.zones c.extension _).2]
    split
    · assumption
    · exact List.mem_append_right _ (List.mem_singleton_self _)
  have hdays : ∀ address, (PoolCall.run cal.zones c.extension
      ⟨now, e.reqId, e.magnitude, address⟩).2.dayKeyAt cal.zones now =
        (PoolCall.run cal.zones c.extension ⟨now, e.reqId, e.magnitude, address⟩).2.dayKey :=
    fun address => PoolCall.run_current_day cal.zones c.extension _
  unfold adjusted
  split
  · have hid := hids (.give (c.route cal now))
    have hday := hdays (.give (c.route cal now))
    dsimp only [PoolCall.run] at hid hday
    rcases applyExtension_extension cal c now e.reqId e.magnitude (c.route cal now) with hext | hext
    · rw [hext]
      exact ⟨hday, hid⟩
    · rw [hext, noteBudgetBaseline_applied, roll_of_current hday]
      obtain ⟨hzone, hkey⟩ := @note_day cal.zones
        (c.extension.apply cal.zones now e.reqId e.magnitude (c.route cal now)).2 now
        (c.usage.usedToday cal now) (c.usage.usedWeek cal now)
      refine ⟨?_, hid⟩
      rw [hkey, roll_of_current hday, ← hday]
      unfold dayKeyAt ExtensionLedger.zone
      rw [hzone]
  · exact ⟨hdays (.take _), hids (.take _)⟩

end ChildEnforcer

/-! ## The world of the loop -/

/-- An entry that newly took effect: when, and in what zone the child's day was told. -/
structure AdjustEffect where
  uid : UInt32
  entry : AdjustEntry
  now : Int
  tz : String
deriving DecidableEq

/-- The enforcer in memory, the ledgers on disk, and what took effect so far. -/
structure AdjustWorld where
  multi : MultiChildEnforcer
  files : Restore
  effects : List AdjustEffect

/-- What the loop does, and what may befall it. -/
inductive AdjustStep
  | op (o : ChildOp)
  | save (uid : UInt32)
  | restart
  | drain (uid : UInt32) (now : Int) (file : Option AdjustRecord)

/-- A sync restores from the disk. -/
def ChildOp.onDisk (files : Restore) : ChildOp → ChildOp
  | .sync configs now _ => .sync configs now files
  | o => o

namespace AdjustWorld
variable (cal : Calendar) (deviceTz : String)

def start : AdjustWorld := ⟨.new, fun _ => (none, none), []⟩

/-- One entry of a drain. -/
def take (uid : UInt32) (now : Int) (w : AdjustWorld) (e : AdjustEntry) : AdjustWorld :=
  match w.multi.children uid with
  | none => w
  | some c =>
    let r := w.multi.enter cal uid now e
    { w with
      multi := r.2
      effects := if r.1 then w.effects ++ [⟨uid, e, now, c.extension.tz⟩] else w.effects }

def step (w : AdjustWorld) : AdjustStep → AdjustWorld
  | .op o => { w with multi := (w.multi.step cal deviceTz (o.onDisk w.files)).1 }
  | .save uid =>
    match w.multi.snapshots uid with
    | none => w
    | some snap =>
      { w with files := fun u => if u = uid then (some snap.1, some snap.2) else w.files u }
  | .restart => { w with multi := .new }
  | .drain uid now file => (AdjustRecord.load file).entries.foldl (take cal uid now) w

/-- A run from an empty disk. -/
def run (steps : List AdjustStep) : AdjustWorld := steps.foldl (step cal deviceTz) start

variable {cal deviceTz} {w : AdjustWorld} {uid : UInt32} {now : Int}

/-- The drain of the world is the loop's. -/
theorem take_multi (e : AdjustEntry) :
    (w.take cal uid now e).multi = (w.multi.enter cal uid now e).2 := by
  unfold take
  cases hc : w.multi.children uid with
  | none => rw [MultiChildEnforcer.enter_none hc]
  | some c => rfl

/-! ### The ledgers -/

/-- A ledger of the world, in memory or on disk. -/
def Holds (w : AdjustWorld) (uid : UInt32) (l : ExtensionLedger) : Prop :=
  (∃ c, w.multi.children uid = some c ∧ c.extension = l) ∨ (w.files uid).2 = some l

section Ledgers
variable {P : ExtensionLedger → Prop} (hnew : ∀ tz dayKey, P (emptyDay tz dayKey))
  (htouch : ∀ now l tz l', Touch cal.zones now l tz l' → P l → P l')
include hnew htouch

theorem op_holds (h : ∀ uid l, w.Holds uid l → P l) (o : ChildOp) :
    ∀ uid l, (w.step cal deviceTz (.op o)).Holds uid l → P l := by
  rintro uid l (⟨c', hc', rfl⟩ | hfile)
  · by_cases hsync : o.IsSync
    · cases o with
      | sync configs now restore =>
        by_cases htracked : uid ∈ configs.map Prod.fst
        · obtain ⟨c'', policy, hc'', hext⟩ :=
            w.multi.sync_ledger cal deviceTz now w.files htracked
          obtain rfl := Option.some.inj (hc''.symm.trans hc')
          rw [hext]
          cases hc : w.multi.children uid with
          | some c => exact h uid _ (.inl ⟨c, hc, rfl⟩)
          | none =>
            cases hfile : (w.files uid).2 with
            | some l => exact h uid _ (.inr hfile)
            | none => exact hnew _ _
        · have hnone := w.multi.sync_children_of_notMem cal deviceTz now w.files htracked
          exact absurd (hnone.symm.trans hc') (by simp)
      | _ => exact absurd hsync id
    · have hdisk : o.onDisk w.files = o := by
        cases o with
        | sync => exact absurd trivial hsync
        | _ => rfl
      have hstep : (w.multi.step cal deviceTz o).1.children uid = some c' := by
        rw [← hdisk]
        exact hc'
      cases hc : w.multi.children uid with
      | none =>
        have hnone := MultiChildEnforcer.step_none cal deviceTz hsync hc
        exact absurd (hnone.symm.trans hstep) (by simp)
      | some c =>
        obtain ⟨c'', hc'', htouches⟩ := MultiChildEnforcer.step_touches deviceTz hsync hc
        obtain rfl := Option.some.inj (hc''.symm.trans hstep)
        have hbefore : P c.extension := h uid _ (.inl ⟨c, hc, rfl⟩)
        rcases htouches with hsame | ⟨now, -, ht⟩
        · rw [hsame]
          exact hbefore
        · exact htouch _ _ _ _ ht hbefore
  · exact h uid l (.inr hfile)

omit hnew in
theorem take_holds (h : ∀ uid l, w.Holds uid l → P l) (uid : UInt32) (now : Int)
    (e : AdjustEntry) : ∀ u l, (w.take cal uid now e).Holds u l → P l := by
  unfold take
  cases hc : w.multi.children uid with
  | none => exact h
  | some c =>
    rintro u l (⟨c', hc', rfl⟩ | hfile)
    · dsimp only at hc'
      by_cases htoday : c.extension.sameDay cal.zones e.at_ now = true ∧ e.magnitude ≠ 0
      · rw [(MultiChildEnforcer.enter_today hc htoday.1 htoday.2).2] at hc'
        split at hc'
        · obtain rfl := Option.some.inj hc'
          exact htouch _ _ _ _ ChildEnforcer.adjusted_touches (h uid _ (.inl ⟨c, hc, rfl⟩))
        · exact h u _ (.inl ⟨c', hc', rfl⟩)
      · rw [MultiChildEnforcer.enter_other hc htoday] at hc'
        exact h u _ (.inl ⟨c', hc', rfl⟩)
    · exact h u l (.inr hfile)

/-- **What a new ledger has and every touch keeps**, every ledger of every run has. -/
theorem run_holds (steps : List AdjustStep) :
    ∀ uid l, (run cal deviceTz steps).Holds uid l → P l := by
  refine foldl_invariant (I := fun w : AdjustWorld => ∀ uid l, w.Holds uid l → P l)
    (fun w step h => ?_) steps ?_
  · cases step with
    | op o => exact op_holds hnew htouch h o
    | save uid =>
      unfold AdjustWorld.step
      dsimp only
      cases hsnap : w.multi.snapshots uid with
      | none => exact h
      | some snap =>
        rintro u l (hlive | hfile)
        · exact h u l (.inl hlive)
        · dsimp only at hfile
          split at hfile
          · rename_i hu
            obtain ⟨c, hc, rfl⟩ := Option.map_eq_some_iff.mp hsnap
            obtain rfl := Option.some.inj hfile
            exact h u _ (.inl ⟨c, hu ▸ hc, rfl⟩)
          · exact h u l (.inr hfile)
    | restart =>
      rintro u l (⟨c, hc, -⟩ | hfile)
      · cases hc
      · exact h u l (.inr hfile)
    | drain uid now file =>
      exact foldl_invariant (I := fun w : AdjustWorld => ∀ uid l, w.Holds uid l → P l)
        (fun w e h => take_holds htouch h uid now e) _ h
  · rintro u l (⟨c, hc, -⟩ | hfile)
    · cases hc
    · cases hfile

end Ledgers

/-! ### What took effect -/

variable (cal) in
/-- A ledger knows each entry of its day that took effect. -/
def Knows (effects : List AdjustEffect) (uid : UInt32) (l : ExtensionLedger) : Prop :=
  ∀ x ∈ effects, x.uid = uid → l.dayKeyAt cal.zones x.entry.at_ = l.dayKey →
    x.entry.reqId ∈ l.applied

variable (cal) in
/-- **The day comes back**: a ledger is to turn, or to be told in another zone, at an instant on
whose day an entry took effect that it does not know any more. -/
def ComesBack (w : AdjustWorld) (uid : UInt32) (l : ExtensionLedger) (tz : String) (now : Int) :
    Prop :=
  (l.stale cal.zones now = true ∨ l.tz ≠ tz) ∧
    ∃ x ∈ w.effects, x.uid = uid ∧
      (Tz.ofName cal.zones tz).dayKey x.entry.at_ = (Tz.ofName cal.zones tz).dayKey now ∧
      (l.stale cal.zones now = true ∨ x.entry.reqId ∉ l.applied)

/-- The saved ledger stands for the one in memory: it is of its day and knows its ids, or nothing
took effect for the child. -/
def Saved (w : AdjustWorld) (uid : UInt32) (l : ExtensionLedger) : Prop :=
  (∃ s ∈ (w.files uid).2, s.tz = l.tz ∧ s.dayKey = l.dayKey ∧ ∀ id ∈ l.applied, id ∈ s.applied) ∨
    ∀ x ∈ w.effects, x.uid ≠ uid

variable (cal) in
/-- **A step that goes on**: no child's day comes back, and the ledger of a child that is forgotten
was saved. -/
def Onward (w : AdjustWorld) : AdjustStep → Prop
  | .op o => ∀ uid c, w.multi.children uid = some c →
      (∀ configs now restore, o = .sync configs now restore → uid ∉ configs.map Prod.fst →
        w.Saved uid c.extension) ∧
      ∀ now, o.instantFor uid = some now →
        ¬w.ComesBack cal uid c.extension (o.zoneFor c) now
  | .save _ => True
  | .restart => ∀ uid c, w.multi.children uid = some c → w.Saved uid c.extension
  | .drain uid now _ => ∀ c, w.multi.children uid = some c →
      ¬w.ComesBack cal uid c.extension c.extension.tz now

/-- **The invariant** of a run that goes on. -/
structure Kept (cal : Calendar) (w : AdjustWorld) : Prop where
  live : ∀ uid c, w.multi.children uid = some c → Knows cal w.effects uid c.extension
  saved : ∀ uid, w.multi.children uid = none →
    (∀ l ∈ (w.files uid).2, Knows cal w.effects uid l) ∧
      ((w.files uid).2 = none → ∀ x ∈ w.effects, x.uid ≠ uid)
  once : (w.effects.map fun x => (x.uid, x.entry)).Nodup

theorem knows_of_none {effects : List AdjustEffect} (h : ∀ x ∈ effects, x.uid ≠ uid)
    (l : ExtensionLedger) : Knows cal effects uid l :=
  fun x hx huid => absurd huid (h x hx)

/-- What follows a ledger knows as much, unless the day comes back. -/
theorem Knows.follows {l l' : ExtensionLedger} {tz : String} (h : Knows cal w.effects uid l)
    (hfollows : Follows cal.zones tz now l l') (hback : ¬w.ComesBack cal uid l tz now) :
    Knows cal w.effects uid l' := by
  intro x hx huid hday
  rcases hfollows with ⟨htz, hkey, hids⟩ | ⟨htz, hcurrent, hids⟩
  · refine hids _ (h x hx huid ?_)
    unfold dayKeyAt ExtensionLedger.zone at hday ⊢
    rw [htz, hkey] at hday
    exact hday
  · by_contra hnot
    have hsame : (Tz.ofName cal.zones tz).dayKey x.entry.at_ =
        (Tz.ofName cal.zones tz).dayKey now := by
      have heq := hday.trans hcurrent.symm
      unfold dayKeyAt ExtensionLedger.zone at heq
      rw [htz] at heq
      exact heq
    cases hstale : l.stale cal.zones now with
    | true => exact hback ⟨.inl hstale, x, hx, huid, hsame, .inl hstale⟩
    | false =>
      have hunknown : x.entry.reqId ∉ l.applied := fun hid => hnot (hids hstale _ hid)
      by_cases hzone : l.tz = tz
      · -- in one zone the ledger is of that very day
        refine hunknown (h x hx huid ?_)
        have hnow := day_of_not_stale hstale
        rw [← hnow]
        unfold dayKeyAt ExtensionLedger.zone
        rw [hzone]
        exact hsame
      · exact hback ⟨.inr hzone, x, hx, huid, hsame, .inr hunknown⟩

/-- The saved ledger knows what the one in memory did. -/
theorem Saved.knows {l : ExtensionLedger} (h : w.Saved uid l) (hl : Knows cal w.effects uid l) :
    (∀ s ∈ (w.files uid).2, Knows cal w.effects uid s) ∧
      ((w.files uid).2 = none → ∀ x ∈ w.effects, x.uid ≠ uid) := by
  rcases h with ⟨s, hs, htz, hkey, hids⟩ | hnone
  · rw [Option.mem_def.mp hs]
    refine ⟨fun s' hs' x hx huid hday => ?_, fun hfile => by cases hfile⟩
    obtain rfl := Option.some.inj hs'
    refine hids _ (hl x hx huid ?_)
    unfold dayKeyAt ExtensionLedger.zone at hday ⊢
    rw [htz, hkey] at hday
    exact hday
  · exact ⟨fun s _ => knows_of_none hnone s, fun _ => hnone⟩

theorem Kept.restart (h : w.Kept cal)
    (hsaved : ∀ uid c, w.multi.children uid = some c → w.Saved uid c.extension) :
    ({ w with multi := .new } : AdjustWorld).Kept cal := by
  refine ⟨fun uid c hc => (by cases hc), fun uid _ => ?_, h.once⟩
  cases hc : w.multi.children uid with
  | none => exact h.saved uid hc
  | some c => exact (hsaved uid c hc).knows (h.live uid c hc)

theorem Kept.op (h : w.Kept cal) {o : ChildOp} (ho : Onward cal w (.op o)) :
    (w.step cal deviceTz (.op o)).Kept cal := by
  refine ⟨fun uid c' hc' => ?_, fun uid hnone => ?_, h.once⟩
  · by_cases hsync : o.IsSync
    · cases o with
      | sync configs now restore =>
        by_cases htracked : uid ∈ configs.map Prod.fst
        · obtain ⟨c'', hc'', hkept, hrestored⟩ :=
            w.multi.sync_extension cal deviceTz now w.files htracked
          obtain rfl := Option.some.inj (hc''.symm.trans hc')
          cases hc : w.multi.children uid with
          | some c =>
            rw [hkept c hc]
            exact h.live uid c hc
          | none =>
            cases hfile : (w.files uid).2 with
            | some l =>
              rw [(hrestored hc).1 l hfile]
              exact (h.saved uid hc).1 l hfile
            | none => exact knows_of_none ((h.saved uid hc).2 hfile) _
        · have hnone := w.multi.sync_children_of_notMem cal deviceTz now w.files htracked
          exact absurd (hnone.symm.trans hc') (by simp)
      | _ => exact absurd hsync id
    · have hdisk : o.onDisk w.files = o := by
        cases o with
        | sync => exact absurd trivial hsync
        | _ => rfl
      have hstep : (w.multi.step cal deviceTz o).1.children uid = some c' := by
        rw [← hdisk]
        exact hc'
      cases hc : w.multi.children uid with
      | none =>
        have hnone := MultiChildEnforcer.step_none cal deviceTz hsync hc
        exact absurd (hnone.symm.trans hstep) (by simp)
      | some c =>
        obtain ⟨c'', hc'', htouches⟩ := MultiChildEnforcer.step_touches deviceTz hsync hc
        obtain rfl := Option.some.inj (hc''.symm.trans hstep)
        rcases htouches with hsame | ⟨now, hinstant, ht⟩
        · rw [hsame]
          exact h.live uid c hc
        · exact (h.live uid c hc).follows ht.follows ((ho uid c hc).2 now hinstant)
  · cases hc : w.multi.children uid with
    | none => exact h.saved uid hc
    | some c =>
      -- only a sync forgets a child
      by_cases hsync : o.IsSync
      · cases o with
        | sync configs now restore =>
          by_cases htracked : uid ∈ configs.map Prod.fst
          · obtain ⟨c', hc', -⟩ := w.multi.sync_extension cal deviceTz now w.files htracked
            exact absurd (hc'.symm.trans hnone) (by simp)
          · exact ((ho uid c hc).1 configs now restore rfl htracked).knows (h.live uid c hc)
        | _ => exact absurd hsync id
      · have hdisk : o.onDisk w.files = o := by
          cases o with
          | sync => exact absurd trivial hsync
          | _ => rfl
        obtain ⟨c', hc'⟩ := MultiChildEnforcer.step_some cal deviceTz hsync hc
        have hstep : (w.multi.step cal deviceTz o).1.children uid = none := by
          rw [← hdisk]
          exact hnone
        exact absurd (hc'.symm.trans hstep) (by simp)

theorem Kept.save (h : w.Kept cal) (uid : UInt32) : (w.step cal deviceTz (.save uid)).Kept cal := by
  unfold AdjustWorld.step
  dsimp only
  cases hsnap : w.multi.snapshots uid with
  | none => exact h
  | some snap =>
    refine ⟨h.live, fun u hnone => ?_, h.once⟩
    dsimp only at hnone ⊢
    obtain ⟨c, hc, -⟩ := Option.map_eq_some_iff.mp hsnap
    have hu : u ≠ uid := by
      rintro rfl
      exact absurd (hc.symm.trans hnone) (by simp)
    rw [if_neg hu]
    exact h.saved u hnone

/-- A ledger of today does not turn today. -/
theorem not_comesBack {l : ExtensionLedger} (h : l.dayKeyAt cal.zones now = l.dayKey) :
    ¬w.ComesBack cal uid l l.tz now := by
  rintro ⟨hstale | hzone, -⟩
  · rw [stale_of_day h] at hstale
    cases hstale
  · exact hzone rfl

/-- A child whose ledger knows what took effect for it may change. -/
theorem Kept.child (h : w.Kept cal) {m : MultiChildEnforcer} {c' : ChildEnforcer}
    (hchildren : ∀ u, m.children u = if u = uid then some c' else w.multi.children u)
    (hknows : Knows cal w.effects uid c'.extension) :
    ({ w with multi := m } : AdjustWorld).Kept cal := by
  refine ⟨fun u c hc => ?_, fun u hnone => ?_, h.once⟩
  · dsimp only at hc ⊢
    rw [hchildren] at hc
    split at hc
    · rename_i hu
      obtain rfl := Option.some.inj hc
      rw [hu]
      exact hknows
    · exact h.live u c hc
  · dsimp only at hnone ⊢
    rw [hchildren] at hnone
    split at hnone
    · cases hnone
    · exact h.saved u hnone

/-- An effect on a tracked child that its ledger knows, and that it had none of before. -/
theorem Kept.effect (h : w.Kept cal) {c : ChildEnforcer} (hc : w.multi.children uid = some c)
    {x : AdjustEffect} (hx : x.uid = uid) (hid : x.entry.reqId ∈ c.extension.applied)
    (hfirst : ∀ y ∈ w.effects, y.uid = uid → y.entry ≠ x.entry) :
    ({ w with effects := w.effects ++ [x] } : AdjustWorld).Kept cal := by
  refine ⟨fun u c' hc' y hy huid hday => ?_, fun u hnone => ?_, ?_⟩
  · rcases List.mem_append.mp hy with hy | hy
    · exact h.live u c' hc' y hy huid hday
    · obtain rfl := List.mem_singleton.mp hy
      obtain rfl : uid = u := hx.symm.trans huid
      obtain rfl := Option.some.inj (hc.symm.trans hc')
      exact hid
  · have hu : x.uid ≠ u := by
      rintro rfl
      rw [hx] at hnone
      exact absurd (hc.symm.trans hnone) (by simp)
    obtain ⟨hfile, hnofile⟩ := h.saved u hnone
    refine ⟨fun l hl y hy huid hday => ?_, fun hf y hy => ?_⟩
    · rcases List.mem_append.mp hy with hy | hy
      · exact hfile l hl y hy huid hday
      · obtain rfl := List.mem_singleton.mp hy
        exact absurd huid hu
    · rcases List.mem_append.mp hy with hy | hy
      · exact hnofile hf y hy
      · obtain rfl := List.mem_singleton.mp hy
        exact hu
  · dsimp only
    rw [List.map_append, List.map_singleton, List.nodup_append]
    refine ⟨h.once, List.nodup_singleton _, ?_⟩
    rintro p hp q hq rfl
    obtain rfl := List.mem_singleton.mp hq
    obtain ⟨y, hy, hsame⟩ := List.mem_map.mp hp
    obtain ⟨hu, he⟩ := Prod.mk.inj hsame
    exact hfirst y hy (hu.trans hx) he

/-- **An entry whose id is new took no effect before**: else the ledger would know it. -/
theorem Kept.first (h : w.Kept cal) {c : ChildEnforcer} (hc : w.multi.children uid = some c)
    {e : AdjustEntry} (hback : ¬w.ComesBack cal uid c.extension c.extension.tz now)
    (hday : c.extension.sameDay cal.zones e.at_ now = true)
    (hnew : e.reqId ∉ (c.extension.roll cal.zones now).applied) :
    ∀ y ∈ w.effects, y.uid = uid → y.entry ≠ e := by
  rintro y hy hu rfl
  have hsame : c.extension.dayKeyAt cal.zones y.entry.at_ = c.extension.dayKeyAt cal.zones now :=
    of_decide_eq_true hday
  cases hstale : c.extension.stale cal.zones now with
  | true => exact hback ⟨.inl hstale, y, hy, hu, hsame, .inl hstale⟩
  | false =>
    have hnow := day_of_not_stale hstale
    rw [roll_of_current hnow] at hnew
    exact hnew (h.live uid c hc y hy hu (hsame.trans hnow))

/-- **One entry of a drain** keeps the invariant, and the day stays. -/
theorem Kept.take (h : w.Kept cal) (e : AdjustEntry)
    (hback : ∀ c, w.multi.children uid = some c →
      ¬w.ComesBack cal uid c.extension c.extension.tz now) :
    (w.take cal uid now e).Kept cal ∧ ∀ c, (w.take cal uid now e).multi.children uid = some c →
      ¬(w.take cal uid now e).ComesBack cal uid c.extension c.extension.tz now := by
  unfold AdjustWorld.take
  cases hc : w.multi.children uid with
  | none => exact ⟨h, fun c' hc' => hback c' hc'⟩
  | some c =>
    dsimp only
    by_cases htoday : c.extension.sameDay cal.zones e.at_ now = true ∧ e.magnitude ≠ 0
    · obtain ⟨hnewly, hchildren⟩ := MultiChildEnforcer.enter_today hc htoday.1 htoday.2
      obtain ⟨hcurrent, hid⟩ :=
        @ChildEnforcer.adjusted_knows cal c now e
      have hknows : Knows cal w.effects uid (c.adjusted cal now e).extension :=
        (h.live uid c hc).follows ChildEnforcer.adjusted_touches.follows (hback c hc)
      have hkept := h.child hchildren hknows
      have hafter : (w.multi.enter cal uid now e).2.children uid = some (c.adjusted cal now e) := by
        rw [hchildren, if_pos rfl]
      refine ⟨?_, fun c' hc' => ?_⟩
      · by_cases hnew : e.reqId ∈ (c.extension.roll cal.zones now).applied
        · have hfalse : (w.multi.enter cal uid now e).1 = false :=
            hnewly.trans (decide_eq_false (not_not_intro hnew))
          rw [hfalse]
          exact hkept
        · have htrue : (w.multi.enter cal uid now e).1 = true :=
            hnewly.trans (decide_eq_true hnew)
          rw [htrue]
          exact hkept.effect hafter rfl hid (h.first hc (hback c hc) htoday.1 hnew)
      · obtain rfl := Option.some.inj (hafter.symm.trans hc')
        exact not_comesBack hcurrent
    · rw [MultiChildEnforcer.enter_other hc htoday]
      exact ⟨h, fun c' hc' => hback c' hc'⟩

/-- **A run that goes on** lets no entry take effect twice. -/
theorem Kept.run {steps : List AdjustStep}
    (h : Obeys (step cal deviceTz) (Onward cal) start steps) : (run cal deviceTz steps).Kept cal := by
  refine h.invariant (fun w s hw hs => ?_) ?_
  · cases s with
    | op o => exact hw.op hs
    | save uid => exact hw.save uid
    | restart => exact hw.restart hs
    | drain uid now file =>
      have hfold : ∀ (entries : List AdjustEntry) (w : AdjustWorld), w.Kept cal →
          (∀ c, w.multi.children uid = some c →
            ¬w.ComesBack cal uid c.extension c.extension.tz now) →
          (entries.foldl (AdjustWorld.take cal uid now) w).Kept cal := by
        intro entries
        induction entries with
        | nil => exact fun _ hw _ => hw
        | cons e entries ih =>
          intro w hw hback
          obtain ⟨hnext, hstill⟩ := hw.take e hback
          exact ih _ hnext hstill
      exact hfold _ w hw hs
  · refine ⟨fun uid c hc => ?_, fun uid _ => ⟨fun l hl => ?_, fun _ x hx => ?_⟩, List.nodup_nil⟩
    · cases hc
    · cases hl
    · cases hx

end AdjustWorld
end Kintrinsic
