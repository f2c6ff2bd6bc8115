import Kintrinsic.GuardedRun
import Kintrinsic.PoolRouting
import Mathlib.Logic.Relation

/-! # Extensions between the record and the ledger

A request's record reads enacted once its minutes are in the inbox, which is memory.  The loop takes
the inbox when the child's uid resolves, and saves the ledger that they land in on its slow cadence.
Here is what holds an extension in between, over every run with its crashes. -/
namespace Kintrinsic

open ExtensionLedger

/-! ## A ledger on its day -/

namespace ExtensionLedger

/-- A change that the enforcer makes to a ledger which stands on the day of the change. -/
inductive Change (zones : Zones) (l : ExtensionLedger) : ExtensionLedger → Prop
  | call (c : PoolCall) (hday : l.stale zones c.now = false) : Change zones l (c.run zones l).2
  | baseline (now : Int) (usedToday usedWeek : Nat) (hday : l.stale zones now = false) :
    Change zones l (l.noteBudgetBaseline zones now usedToday usedWeek)
  | reconcile (tz : String) (now : Int) (hday : l.stale zones now = false) :
    Change zones l (l.reconcile zones tz now)
  | burnSchedule (now : Int) (elapsed : Nat) (hday : l.stale zones now = false) :
    Change zones l (l.burnSchedule zones now elapsed)
  | burnTime (now : Int) (timeId : String) (elapsed : Nat) (hday : l.stale zones now = false) :
    Change zones l (l.burnTime zones now timeId elapsed)

/-- A ledger that has gone on since, without its day turning. -/
def GoesOn (zones : Zones) : ExtensionLedger → ExtensionLedger → Prop :=
  Relation.ReflTransGen (Change zones)

variable {zones : Zones} {l l' : ExtensionLedger}

theorem day_of_not_stale {now : Int} (h : l.stale zones now = false) :
    l.dayKeyAt zones now = l.dayKey := by simpa [stale] using h

theorem stale_of_day {now : Int} (h : l.dayKeyAt zones now = l.dayKey) :
    l.stale zones now = false := by simpa [stale] using h

/-- A roll keeps the ids, or none. -/
theorem mem_applied_roll {now : Int} {id : String} (h : id ∈ (l.roll zones now).applied) :
    id ∈ l.applied := by
  unfold roll at h
  split at h
  · exact h
  · cases h

/-- After a call there is its own id besides those before it. -/
theorem mem_applied_run {c : PoolCall} {id : String} (h : id ∈ (c.run zones l).2.applied) :
    id ∈ l.applied ∨ id = c.reqId := by
  rw [(PoolCall.run_applied zones l c).2] at h
  split at h
  · exact .inl (mem_applied_roll h)
  · rw [List.mem_append, List.mem_singleton] at h
    exact h.imp_left mem_applied_roll

theorem mem_applied_reconcile {tz : String} {now : Int} {id : String}
    (h : id ∈ (l.reconcile zones tz now).applied) : id ∈ l.applied := by
  unfold ExtensionLedger.reconcile at h
  split at h
  · exact h
  · exact mem_applied_roll h

theorem Change.applied (h : Change zones l l') : ∀ id ∈ l.applied, id ∈ l'.applied := by
  intro id hid
  cases h with
  | call c hday =>
    rw [(PoolCall.run_applied zones l c).2, roll_of_current (day_of_not_stale hday)]
    split
    · exact hid
    · exact List.mem_append_left _ hid
  | baseline now usedToday usedWeek hday =>
    rw [noteBudgetBaseline_applied, roll_of_current (day_of_not_stale hday)]
    exact hid
  | reconcile tz now hday =>
    unfold ExtensionLedger.reconcile
    rw [roll_of_current (day_of_not_stale hday)]
    split <;> exact hid
  | burnSchedule now elapsed hday =>
    rw [burnSchedule_applied, roll_of_current (day_of_not_stale hday)]
    exact hid
  | burnTime now timeId elapsed hday =>
    rw [burnTime_applied, roll_of_current (day_of_not_stale hday)]
    exact hid

theorem GoesOn.applied (h : GoesOn zones l l') : ∀ id ∈ l.applied, id ∈ l'.applied := by
  induction h with
  | refl => exact fun _ hid => hid
  | tail _ hchange ih => exact fun id hid => hchange.applied id (ih id hid)

end ExtensionLedger

/-! ## What an extension does to a ledger -/

/-- The call that a pending extension makes. -/
def PendingExtension.call (p : PendingExtension) : Option PoolCall :=
  (pendingRoute p).map fun address => ⟨p.at_, p.reqId, p.minutes, address⟩

/-- **The minutes of an extension are in a ledger**: it was credited with them under a new id, and
has gone on since on the same day. -/
def EnactedExtension.In (x : EnactedExtension) (zones : Zones) (l : ExtensionLedger) : Prop :=
  ∃ c ∈ x.pending.call, ∃ before after, Credited c before after ∧ GoesOn zones after l

namespace EnactedExtension
variable {zones : Zones} {x : EnactedExtension} {l l' : ExtensionLedger}

theorem pending_reqId (x : EnactedExtension) : x.pending.reqId = x.reqId := by
  unfold pending pendingOf
  dsimp only
  split <;> rfl

/-- Every enacted extension has a pool to go to. -/
theorem call_isSome (x : EnactedExtension) : ∃ c, x.pending.call = some c ∧ c.reqId = x.reqId := by
  have hroute := TrackedWard.pendingRoute_eq x none none
  unfold PendingExtension.call
  rw [hroute]
  exact ⟨_, rfl, x.pending_reqId⟩

theorem In.taken (h : x.In zones l) : x.reqId ∈ l.applied := by
  obtain ⟨c, hc, before, after, hcredited, hgoes⟩ := h
  obtain ⟨c', hc', hid⟩ := x.call_isSome
  rw [hc', Option.mem_some_iff] at hc
  subst hc
  refine hgoes.applied _ ?_
  rw [hcredited.applied, hid]
  exact List.mem_append_right _ (List.mem_singleton_self _)

theorem In.goesOn (h : x.In zones l) (hgoes : GoesOn zones l l') : x.In zones l' := by
  obtain ⟨c, hc, before, after, hcredited, hgone⟩ := h
  exact ⟨c, hc, before, after, hcredited, hgone.trans hgoes⟩

/-- A call under an id that is new to the ledger puts the minutes in. -/
theorem in_run {c : PoolCall} (hc : x.pending.call = some c) (hnew : c.reqId ∉ l.applied) :
    x.In zones (c.run zones l).2 := by
  rw [← PoolCall.run_roll]
  obtain ⟨-, hcredited⟩ := run_of_not_mem roll_current_day
    (fun hmem => hnew (mem_applied_roll hmem))
  exact ⟨c, hc, _, _, hcredited, .refl⟩

end EnactedExtension

/-! ## The loop's operations on one child -/

/-- A sync. -/
def ChildOp.IsSync : ChildOp → Prop
  | .sync _ _ _ => True
  | _ => False

/-- The id that an operation applies minutes under. -/
def ChildOp.reqId : ChildOp → Option String
  | .applyExtension _ _ id _ _ | .deductExtension _ _ id _ _ | .applyBucketExtension _ _ id _ _
  | .applyTimeExtension _ _ id _ _ => some id
  | _ => none

/-- The instant at which an operation may turn the day of a child's ledger. -/
def ChildOp.instantFor (uid : UInt32) : ChildOp → Option Int
  | .tick _ _ t => some t.now
  | .applyExtension u now _ _ _ | .deductExtension u now _ _ _ | .applyBucketExtension u now _ _ _
  | .applyTimeExtension u now _ _ _ | .burnTimePool u now _ _ => if u = uid then some now else none
  | _ => none

/-- The drain of a pending extension, as operations. -/
def PendingExtension.ops (uid : UInt32) (p : PendingExtension) : List ChildOp :=
  match pendingRoute p with
  | some (.give dim) => [.applyExtension uid p.at_ p.reqId p.minutes dim]
  | some (.bucket id) => [.applyBucketExtension uid p.at_ p.reqId p.minutes id]
  | some (.time id) => [.applyTimeExtension uid p.at_ p.reqId p.minutes id]
  | some (.take dim) => [.deductExtension uid p.at_ p.reqId p.minutes dim]
  | none => []

namespace MultiChildEnforcer
variable {cal : Calendar} {deviceTz : String} {m : MultiChildEnforcer} {uid : UInt32}

/-- They are the drain. -/
theorem drainOne_ops (m : MultiChildEnforcer) (p : PendingExtension) :
    Lockstep.final (step cal deviceTz) m (p.ops uid) = m.drainOne cal uid p := by
  unfold drainOne PendingExtension.ops
  cases pendingRoute p with
  | none => rfl
  | some address => cases address <;> rfl

theorem modify_children (u : UInt32) (f : ChildEnforcer → ChildEnforcer) :
    (m.modify u f).children uid =
      if uid = u then (m.children uid).map f else m.children uid := rfl

/-- A change of one child's ledger, as another child or the same one has it. -/
theorem modify_goesOn {zones : Zones} {c : ChildEnforcer} (hc : m.children uid = some c)
    (u : UInt32) {f : ChildEnforcer → ChildEnforcer}
    (hf : u = uid → GoesOn zones c.extension (f c).extension) :
    ∃ c', (m.modify u f).children uid = some c' ∧ GoesOn zones c.extension c'.extension := by
  rw [modify_children, hc]
  by_cases hu : uid = u
  · rw [if_pos hu]
    exact ⟨f c, rfl, hf hu.symm⟩
  · rw [if_neg hu]
    exact ⟨c, rfl, .refl⟩

end MultiChildEnforcer

namespace ChildEnforcer
variable {cal : Calendar} {c : ChildEnforcer}

/-- What a tick makes of the ledger. -/
theorem tick_extension (clockTrusted : Bool) (uid : UInt32) (fg : Option Foreground)
    (t : TickClock) : (c.tick cal clockTrusted uid fg t).1.extension =
      burnScheduleExtension cal.zones (c.extension.reconcile cal.zones c.tz t.now) c.schedule t.now
        t.elapsed := by
  cases fg <;> rfl

theorem tick_goesOn {t : TickClock} (hday : c.extension.stale cal.zones t.now = false)
    (clockTrusted : Bool) (uid : UInt32) (fg : Option Foreground) :
    GoesOn cal.zones c.extension (c.tick cal clockTrusted uid fg t).1.extension := by
  have hreconciled :
      (c.extension.reconcile cal.zones c.tz t.now).stale cal.zones t.now = false := by
    unfold ExtensionLedger.reconcile
    split
    · exact hday
    · exact stale_of_day rfl
  have hfirst : GoesOn cal.zones c.extension (c.extension.reconcile cal.zones c.tz t.now) :=
    .single (.reconcile c.tz t.now hday)
  rw [tick_extension]
  unfold burnScheduleExtension
  split
  · exact hfirst
  · split
    · exact hfirst
    · split
      · exact hfirst.tail (.burnSchedule t.now t.elapsed hreconciled)
      · exact hfirst

/-- What a grant of minutes makes of the ledger: the pool's call, and for a budget grant a note of
where the debt stood. -/
theorem applyExtension_extension (cal : Calendar) (c : ChildEnforcer) (now : Int) (reqId : String)
    (minutes : Nat) (dim : Dimension) :
    (c.applyExtension cal now reqId minutes dim).2.extension =
        (c.extension.apply cal.zones now reqId minutes dim).2 ∨
      (c.applyExtension cal now reqId minutes dim).2.extension =
        (c.extension.apply cal.zones now reqId minutes dim).2.noteBudgetBaseline cal.zones now
          (c.usage.usedToday cal now) (c.usage.usedWeek cal now) := by
  unfold ChildEnforcer.applyExtension adjustExtension
  dsimp only
  split
  · right
    dsimp only
  · exact .inl rfl

/-- After the call the ledger is of the day of the call. -/
theorem stale_apply (l : ExtensionLedger) (now : Int) (reqId : String) (minutes : Nat)
    (dim : Dimension) :
    (l.apply cal.zones now reqId minutes dim).2.stale cal.zones now = false := by
  have hday := PoolCall.run_current_day cal.zones l ⟨now, reqId, minutes, .give dim⟩
  dsimp only [PoolCall.run] at hday
  exact stale_of_day hday

theorem applyExtension_goesOn {now : Int} (hday : c.extension.stale cal.zones now = false)
    (reqId : String) (minutes : Nat) (dim : Dimension) :
    GoesOn cal.zones c.extension (c.applyExtension cal now reqId minutes dim).2.extension := by
  have hcall : GoesOn cal.zones c.extension
      (c.extension.apply cal.zones now reqId minutes dim).2 :=
    .single (.call ⟨now, reqId, minutes, .give dim⟩ hday)
  rcases applyExtension_extension cal c now reqId minutes dim with hext | hext
  · rw [hext]
    exact hcall
  · rw [hext]
    exact hcall.tail (.baseline now _ _ (stale_apply ..))

theorem mem_applied_tick {t : TickClock} {clockTrusted : Bool} {uid : UInt32}
    {fg : Option Foreground} {id : String}
    (h : id ∈ (c.tick cal clockTrusted uid fg t).1.extension.applied) :
    id ∈ c.extension.applied := by
  rw [tick_extension] at h
  unfold burnScheduleExtension at h
  split at h
  · exact mem_applied_reconcile h
  · split at h
    · exact mem_applied_reconcile h
    · split at h
      · rw [burnSchedule_applied] at h
        exact mem_applied_reconcile (mem_applied_roll h)
      · exact mem_applied_reconcile h

theorem mem_applied_applyExtension {now : Int} {reqId : String} {minutes : Nat} {dim : Dimension}
    {id : String} (h : id ∈ (c.applyExtension cal now reqId minutes dim).2.extension.applied) :
    id ∈ c.extension.applied ∨ id = reqId := by
  have hcall : ∀ id ∈ (c.extension.apply cal.zones now reqId minutes dim).2.applied,
      id ∈ c.extension.applied ∨ id = reqId :=
    fun id hid => mem_applied_run (c := ⟨now, reqId, minutes, .give dim⟩) hid
  rcases applyExtension_extension cal c now reqId minutes dim with hext | hext
  · rw [hext] at h
    exact hcall id h
  · rw [hext, noteBudgetBaseline_applied] at h
    exact hcall id (mem_applied_roll h)

end ChildEnforcer

namespace MultiChildEnforcer
variable {cal : Calendar} {m : MultiChildEnforcer} {uid : UInt32} {c : ChildEnforcer}

variable (cal) in
theorem step_none (deviceTz : String) {op : ChildOp} (hsync : ¬op.IsSync)
    (h : m.children uid = none) : (m.step cal deviceTz op).1.children uid = none := by
  have hmodify : ∀ u f, (m.modify u f).children uid = none := by
    intro u f
    rw [modify_children, h, Option.map_none, ite_self]
  cases op with
  | sync configs now restore => exact absurd trivial hsync
  | tick activeUid fg t =>
    have hticked := tick_children cal m activeUid fg t uid
    rw [h, Option.map_none] at hticked
    exact hticked
  | setClockTrusted trusted => exact h
  | applyExtension | deductExtension | applyBucketExtension | applyTimeExtension | burnTimePool
  | setConsolidated | setStandDown | setBucketsPolicy | setUsageUnsaved => exact hmodify _ _

variable (cal) in
theorem step_some (deviceTz : String) {op : ChildOp} (hsync : ¬op.IsSync)
    (hc : m.children uid = some c) : ∃ c', (m.step cal deviceTz op).1.children uid = some c' := by
  have hmodify : ∀ u f, ∃ c', (m.modify u f).children uid = some c' := by
    intro u f
    rw [modify_children, hc, Option.map_some]
    split
    · exact ⟨f c, rfl⟩
    · exact ⟨c, rfl⟩
  cases op with
  | sync configs now restore => exact absurd trivial hsync
  | tick activeUid fg t =>
    have hticked := tick_children cal m activeUid fg t uid
    rw [hc, Option.map_some] at hticked
    exact ⟨_, hticked⟩
  | setClockTrusted trusted => exact ⟨c, hc⟩
  | applyExtension | deductExtension | applyBucketExtension | applyTimeExtension | burnTimePool
  | setConsolidated | setStandDown | setBucketsPolicy | setUsageUnsaved => exact hmodify _ _

/-- One child's change takes no id but its own. -/
theorem modify_applied {newId : Option String} (hc : m.children uid = some c) (u : UInt32)
    {f : ChildEnforcer → ChildEnforcer}
    (hf : ∀ id ∈ (f c).extension.applied, id ∈ c.extension.applied ∨ newId = some id) :
    ∀ c' ∈ (m.modify u f).children uid, ∀ id ∈ c'.extension.applied,
      id ∈ c.extension.applied ∨ newId = some id := by
  intro c' hc' id hid
  rw [modify_children, hc, Option.map_some] at hc'
  split at hc'
  · cases hc'
    exact hf id hid
  · cases hc'
    exact .inl hid

/-- **An operation applies no id but its own.** -/
theorem step_applied (deviceTz : String) {op : ChildOp} (hsync : ¬op.IsSync)
    (hc : m.children uid = some c) :
    ∀ c' ∈ (m.step cal deviceTz op).1.children uid, ∀ id ∈ c'.extension.applied,
      id ∈ c.extension.applied ∨ op.reqId = some id := by
  have hown : ∀ {reqId id : String}, id ∈ c.extension.applied ∨ id = reqId →
      id ∈ c.extension.applied ∨ some reqId = some id := by
    rintro reqId id (h | rfl)
    · exact .inl h
    · exact .inr rfl
  cases op with
  | sync configs now restore => exact absurd trivial hsync
  | tick activeUid fg t =>
    intro c' hc' id hid
    have hticked := tick_children cal m activeUid fg t uid
    rw [hc, Option.map_some] at hticked
    obtain rfl := Option.some.inj (hticked.symm.trans hc')
    exact .inl (ChildEnforcer.mem_applied_tick hid)
  | applyExtension u now reqId minutes dim =>
    exact modify_applied hc u fun id hid => hown (ChildEnforcer.mem_applied_applyExtension hid)
  | deductExtension u now reqId minutes dim =>
    refine modify_applied hc u fun id hid => hown ?_
    dsimp only [ChildEnforcer.adjustExtension] at hid
    exact mem_applied_run (c := ⟨now, reqId, minutes, .take dim⟩) hid
  | applyBucketExtension u now reqId minutes bucketId =>
    refine modify_applied hc u fun id hid => hown ?_
    dsimp only [ChildEnforcer.adjustExtension] at hid
    exact mem_applied_run (c := ⟨now, reqId, minutes, .bucket bucketId⟩) hid
  | applyTimeExtension u now reqId minutes timeId =>
    refine modify_applied hc u fun id hid => hown ?_
    dsimp only [ChildEnforcer.adjustExtension] at hid
    exact mem_applied_run (c := ⟨now, reqId, minutes, .time timeId⟩) hid
  | burnTimePool u now timeId elapsed =>
    refine modify_applied hc u fun id hid => .inl ?_
    dsimp only at hid
    rw [burnTime_applied] at hid
    exact mem_applied_roll hid
  | setClockTrusted trusted =>
    intro c' hc' id hid
    obtain rfl := Option.some.inj (hc.symm.trans hc')
    exact .inl hid
  | setConsolidated | setStandDown | setBucketsPolicy | setUsageUnsaved =>
    exact modify_applied hc _ fun id hid => .inl hid

/-- **An operation on a child whose day has not turned**: the ledger goes on. -/
theorem step_goesOn (deviceTz : String) {op : ChildOp} (hsync : ¬op.IsSync)
    (hc : m.children uid = some c)
    (hday : ∀ now, op.instantFor uid = some now → c.extension.stale cal.zones now = false) :
    ∃ c', (m.step cal deviceTz op).1.children uid = some c' ∧
      GoesOn cal.zones c.extension c'.extension := by
  have hat : ∀ {u : UInt32} {now : Int}, op.instantFor uid = (if u = uid then some now else none) →
      u = uid → c.extension.stale cal.zones now = false := by
    intro u now hinstant hu
    exact hday now (by rw [hinstant, if_pos hu])
  cases op with
  | sync configs now restore => exact absurd trivial hsync
  | tick activeUid fg t =>
    have hticked := tick_children cal m activeUid fg t uid
    rw [hc, Option.map_some] at hticked
    exact ⟨_, hticked, ChildEnforcer.tick_goesOn (hday t.now rfl) _ _ _⟩
  | applyExtension u now reqId minutes dim =>
    exact modify_goesOn hc u fun hu => ChildEnforcer.applyExtension_goesOn (hat rfl hu) _ _ _
  | deductExtension u now reqId minutes dim =>
    refine modify_goesOn hc u fun hu => ?_
    dsimp only [ChildEnforcer.adjustExtension]
    exact .single (.call ⟨now, reqId, minutes, .take dim⟩ (hat rfl hu))
  | applyBucketExtension u now reqId minutes id =>
    refine modify_goesOn hc u fun hu => ?_
    dsimp only [ChildEnforcer.adjustExtension]
    exact .single (.call ⟨now, reqId, minutes, .bucket id⟩ (hat rfl hu))
  | applyTimeExtension u now reqId minutes id =>
    refine modify_goesOn hc u fun hu => ?_
    dsimp only [ChildEnforcer.adjustExtension]
    exact .single (.call ⟨now, reqId, minutes, .time id⟩ (hat rfl hu))
  | burnTimePool u now timeId elapsed =>
    refine modify_goesOn hc u fun hu => ?_
    dsimp only
    exact .single (.burnTime now timeId elapsed (hat rfl hu))
  | setClockTrusted trusted => exact ⟨c, hc, .refl⟩
  | setConsolidated u view => exact modify_goesOn hc u fun _ => .refl
  | setStandDown u sd => exact modify_goesOn hc u fun _ => .refl
  | setBucketsPolicy u tz weekStart => exact modify_goesOn hc u fun _ => .refl
  | setUsageUnsaved u unsaved => exact modify_goesOn hc u fun _ => .refl

theorem applied_new (deviceTz : String) (now : Int) (policy : EffectivePolicy) :
    (ChildEnforcer.new cal deviceTz policy now).extension.applied = [] := rfl

variable (cal uid) in
/-- The entries of a sync leave the ledger of a child that is there. -/
theorem syncs_extension (deviceTz : String) (now : Int) (restore : Restore)
    (configs : List (UInt32 × EffectivePolicy)) (c : ChildEnforcer) :
    ∃ c', configs.foldl
        (fun c config => some (ChildEnforcer.synced cal deviceTz now (restore uid) config.2 c))
        (some c) = some c' ∧ c'.extension = c.extension := by
  induction configs generalizing c with
  | nil => exact ⟨c, rfl, rfl⟩
  | cons config configs ih => exact ih (c.relimit config.2)

variable (cal m) in
/-- The ledger after a sync that names a child: its own, the one that was saved, or a new one. -/
theorem sync_ledger (deviceTz : String) {configs : List (UInt32 × EffectivePolicy)} (now : Int)
    (restore : Restore) (htracked : uid ∈ configs.map Prod.fst) :
    ∃ c' policy, (m.sync cal deviceTz configs now restore).children uid = some c' ∧
      c'.extension = ((m.children uid).map (·.extension)).getD
        ((restore uid).2.getD (ChildEnforcer.new cal deviceTz policy now).extension) := by
  rw [sync_children, if_pos htracked]
  cases hnamed : configs.filter (·.1 = uid) with
  | nil =>
    obtain ⟨config, hconfig, huid⟩ := List.mem_map.mp htracked
    exact absurd (decide_eq_true huid) (List.filter_eq_nil_iff.mp hnamed config hconfig)
  | cons config rest =>
    rw [List.foldl_cons]
    cases hchild : m.children uid with
    | some c =>
      obtain ⟨c', hc', hext⟩ := syncs_extension cal uid deviceTz now restore rest
        (c.relimit config.2)
      exact ⟨c', config.2, hc', hext⟩
    | none =>
      obtain ⟨c', hc', hext⟩ := syncs_extension cal uid deviceTz now restore rest
        (ChildEnforcer.synced cal deviceTz now (restore uid) config.2 none)
      exact ⟨c', config.2, hc', hext⟩

variable (cal m) in
/-- **A sync that names a child** keeps its ledger, or brings back the one that was saved. -/
theorem sync_extension (deviceTz : String) {configs : List (UInt32 × EffectivePolicy)} (now : Int)
    (restore : Restore) (htracked : uid ∈ configs.map Prod.fst) :
    ∃ c', (m.sync cal deviceTz configs now restore).children uid = some c' ∧
      (∀ c ∈ m.children uid, c'.extension = c.extension) ∧
      (m.children uid = none → (∀ l ∈ (restore uid).2, c'.extension = l) ∧
        ((restore uid).2 = none → c'.extension.applied = [])) := by
  obtain ⟨c', policy, hc', hext⟩ := sync_ledger cal m deviceTz now restore htracked
  refine ⟨c', hc', fun c hc => ?_, fun hnone => ⟨fun l hl => ?_, fun hfile => ?_⟩⟩
  · rw [hext, Option.mem_def.mp hc]
    rfl
  · rw [hext, hnone, Option.mem_def.mp hl]
    rfl
  · rw [hext, hnone, hfile]
    exact applied_new deviceTz now policy

end MultiChildEnforcer

/-- The call of a pending extension, on the child's own ledger. -/
theorem ChildEnforcer.applyExtension_in {cal : Calendar} {c : ChildEnforcer} {x : EnactedExtension}
    {now : Int} {reqId : String} {minutes : Nat} {dim : Dimension}
    (hcall : x.pending.call = some ⟨now, reqId, minutes, .give dim⟩)
    (hnew : reqId ∉ c.extension.applied) :
    x.In cal.zones (c.applyExtension cal now reqId minutes dim).2.extension := by
  let call : PoolCall := ⟨now, reqId, minutes, .give dim⟩
  have hin : x.In cal.zones (call.run cal.zones c.extension).2 :=
    EnactedExtension.in_run hcall hnew
  dsimp only [call, PoolCall.run] at hin
  rcases applyExtension_extension cal c now reqId minutes dim with hext | hext
  · rw [hext]
    exact hin
  · rw [hext]
    exact hin.goesOn (.single (.baseline now _ _ (stale_apply ..)))

/-! ## The operations of a tick -/

/-- The enforcer, and the ids of one child's extensions whose day is over. -/
structure ChildDays where
  multi : MultiChildEnforcer
  expired : List String

namespace ChildDays
variable (cal : Calendar) (deviceTz : String) (uid : UInt32)

/-- The child's ledger in memory. -/
def memory (s : ChildDays) : Option ExtensionLedger := (s.multi.children uid).map (·.extension)

/-- What an operation finds to be of a day that is over. -/
def turned (s : ChildDays) (op : ChildOp) : List String :=
  match op.instantFor uid, s.memory uid with
  | some now, some l => if l.stale cal.zones now then l.applied else []
  | _, _ => []

def step (s : ChildDays) (op : ChildOp) : ChildDays :=
  ⟨(s.multi.step cal deviceTz op).1, s.expired ++ s.turned cal uid op⟩

/-- An extension is in the child's ledger, or its day is over. -/
def Has (x : EnactedExtension) (s : ChildDays) : Prop :=
  x.reqId ∈ s.expired ∨ ∃ l ∈ s.memory uid, x.In cal.zones l

variable {cal deviceTz uid} {s : ChildDays} {x : EnactedExtension}

theorem memory_some {l : ExtensionLedger} (h : s.memory uid = some l) :
    ∃ c, s.multi.children uid = some c ∧ c.extension = l := Option.map_eq_some_iff.mp h

theorem memory_none (h : s.memory uid = none) : s.multi.children uid = none :=
  Option.map_eq_none_iff.mp h

/-- An operation keeps a child that is tracked. -/
theorem step_isSome {op : ChildOp} (hsync : ¬op.IsSync) (h : (s.memory uid).isSome) :
    ((s.step cal deviceTz uid op).memory uid).isSome := by
  obtain ⟨l, hl⟩ := Option.isSome_iff_exists.mp h
  obtain ⟨c, hc, -⟩ := memory_some hl
  obtain ⟨c', hc'⟩ := MultiChildEnforcer.step_some cal deviceTz hsync hc
  rw [memory, step, hc']
  rfl

theorem step_memory_none {op : ChildOp} (hsync : ¬op.IsSync) (h : s.memory uid = none) :
    (s.step cal deviceTz uid op).memory uid = none := by
  have hnone := MultiChildEnforcer.step_none cal deviceTz hsync (memory_none h)
  rw [memory, step]
  rw [hnone]
  rfl

/-- **An operation loses no extension.** -/
theorem step_has {op : ChildOp} (hsync : ¬op.IsSync) (h : s.Has cal uid x) :
    (s.step cal deviceTz uid op).Has cal uid x := by
  rcases h with hexpired | ⟨l, hl, hin⟩
  · exact .inl (List.mem_append_left _ hexpired)
  obtain ⟨c, hc, rfl⟩ := memory_some hl
  by_cases hday : ∀ now, op.instantFor uid = some now → c.extension.stale cal.zones now = false
  · obtain ⟨c', hc', hgoes⟩ := MultiChildEnforcer.step_goesOn deviceTz hsync hc hday
    refine .inr ⟨c'.extension, ?_, hin.goesOn hgoes⟩
    rw [memory, step, hc']
    rfl
  · -- the day has turned, and the extension was of the day before
    push Not at hday
    obtain ⟨now, hinstant, hstale⟩ := hday
    refine .inl (List.mem_append_right _ ?_)
    unfold turned
    rw [hinstant, hl]
    dsimp only
    rw [if_pos (by simpa using hstale)]
    exact hin.taken

/-- An operation knows no id besides those before it and its own. -/
theorem step_ids {op : ChildOp} (hsync : ¬op.IsSync) {l' : ExtensionLedger}
    (hl' : (s.step cal deviceTz uid op).memory uid = some l') :
    ∃ l, s.memory uid = some l ∧ ∀ id ∈ l'.applied, id ∈ l.applied ∨ op.reqId = some id := by
  obtain ⟨c', hc', rfl⟩ := memory_some hl'
  cases hm : s.memory uid with
  | none =>
    have hnone : (s.step cal deviceTz uid op).memory uid = none := step_memory_none hsync hm
    rw [hl'] at hnone
    cases hnone
  | some l =>
    obtain ⟨c, hc, rfl⟩ := memory_some hm
    exact ⟨_, rfl, MultiChildEnforcer.step_applied deviceTz hsync hc c' hc'⟩

/-- The drain of an extension that is new to the ledger puts its minutes in. -/
theorem step_in {op : ChildOp} (hop : op ∈ x.pending.ops uid) {l : ExtensionLedger}
    (hl : s.memory uid = some l) (hnew : x.reqId ∉ l.applied) :
    ∃ l', (s.step cal deviceTz uid op).memory uid = some l' ∧ x.In cal.zones l' := by
  obtain ⟨c, hc, rfl⟩ := memory_some hl
  rw [← x.pending_reqId] at hnew
  have hcall : ∀ address, pendingRoute x.pending = some address →
      x.pending.call = some ⟨x.pending.at_, x.pending.reqId, x.pending.minutes, address⟩ := by
    intro address haddress
    unfold PendingExtension.call
    rw [haddress, Option.map_some]
  have hmodify : ∀ f : ChildEnforcer → ChildEnforcer, x.In cal.zones (f c).extension →
      ∃ l', ((s.multi.modify uid f).children uid).map (·.extension) = some l' ∧
        x.In cal.zones l' := by
    intro f hf
    refine ⟨_, ?_, hf⟩
    rw [MultiChildEnforcer.modify_children, if_pos rfl, hc]
    rfl
  unfold PendingExtension.ops at hop
  cases haddress : pendingRoute x.pending with
  | none => rw [haddress] at hop; cases hop
  | some address =>
    rw [haddress] at hop
    let call : PoolCall := ⟨x.pending.at_, x.pending.reqId, x.pending.minutes, address⟩
    have hin : x.In cal.zones (call.run cal.zones c.extension).2 :=
      EnactedExtension.in_run (hcall address haddress) hnew
    cases address with
    | give dim =>
      cases List.mem_singleton.mp hop
      exact hmodify _ (ChildEnforcer.applyExtension_in (hcall _ haddress) hnew)
    | bucket id =>
      cases List.mem_singleton.mp hop
      exact hmodify _ hin
    | time id =>
      cases List.mem_singleton.mp hop
      exact hmodify _ hin
    | take dim =>
      cases List.mem_singleton.mp hop
      exact hmodify _ hin

/-- Where the ledger knows an extension's id, the minutes are in it, or their day is over. -/
def Sound (cal : Calendar) (uid : UInt32) (x : EnactedExtension) (s : ChildDays) : Prop :=
  x.reqId ∈ s.expired ∨ ∀ l ∈ s.memory uid, x.reqId ∈ l.applied → x.In cal.zones l

/-- An operation that does not take the id of an extension for anything else. -/
def Fair (uid : UInt32) (x : EnactedExtension) (op : ChildOp) : Prop :=
  ¬op.IsSync ∧ (op.reqId = some x.reqId → op ∈ x.pending.ops uid)

theorem step_expired (op : ChildOp) (h : x.reqId ∈ s.expired) :
    x.reqId ∈ (s.step cal deviceTz uid op).expired := List.mem_append_left _ h

theorem Has.sound (h : s.Has cal uid x) : s.Sound cal uid x := by
  rcases h with hexpired | ⟨l, hl, hin⟩
  · exact .inl hexpired
  · refine .inr fun l' hl' _ => ?_
    obtain rfl := Option.some.inj (hl.symm.trans hl')
    exact hin

theorem Sound.has {l : ExtensionLedger} (h : s.Sound cal uid x) (hl : s.memory uid = some l)
    (hid : x.reqId ∈ l.applied) : s.Has cal uid x :=
  h.imp_right fun hin => ⟨l, hl, hin l hl hid⟩

/-- **An operation takes no id in vain.** -/
theorem step_sound {op : ChildOp} (hfair : Fair uid x op) (h : s.Sound cal uid x) :
    (s.step cal deviceTz uid op).Sound cal uid x := by
  rcases h with hexpired | hin
  · exact .inl (step_expired op hexpired)
  refine or_iff_not_imp_left.mpr fun hday l' hl' hid => ?_
  obtain ⟨l, hl, hids⟩ := step_ids hfair.1 hl'
  have hnext : s.Has cal uid x → x.In cal.zones l' := fun hhas =>
    ((step_has hfair.1 hhas).sound.resolve_left hday) l' hl' hid
  by_cases hold : x.reqId ∈ l.applied
  · exact hnext (.inr ⟨l, hl, hin l hl hold⟩)
  · have hop := hfair.2 ((hids _ hid).resolve_left hold)
    have hlands : ∃ l'', (s.step cal deviceTz uid op).memory uid = some l'' ∧ x.In cal.zones l'' :=
      step_in hop hl hold
    obtain ⟨l'', hl'', hin''⟩ := hlands
    obtain rfl := Option.some.inj (hl'.symm.trans hl'')
    exact hin''

/-- The drain of an extension lands it. -/
theorem step_lands {op : ChildOp} (hop : op ∈ x.pending.ops uid) (hfair : Fair uid x op)
    (h : s.Sound cal uid x) (htracked : (s.memory uid).isSome) :
    (s.step cal deviceTz uid op).Has cal uid x := by
  obtain ⟨l, hl⟩ := Option.isSome_iff_exists.mp htracked
  by_cases hold : x.reqId ∈ l.applied
  · exact step_has hfair.1 (h.has hl hold)
  · exact .inr (step_in hop hl hold)

/-! ### Operations in a row -/

variable {ops : List ChildOp}

theorem run_has (hsync : ∀ op ∈ ops, ¬op.IsSync) (h : s.Has cal uid x) :
    (ops.foldl (step cal deviceTz uid) s).Has cal uid x :=
  List.foldlRecOn (motive := fun s : ChildDays => s.Has cal uid x) ops _ h
    fun _ hb op hop => step_has (hsync op hop) hb

theorem run_sound (hfair : ∀ op ∈ ops, Fair uid x op) (h : s.Sound cal uid x) :
    (ops.foldl (step cal deviceTz uid) s).Sound cal uid x :=
  List.foldlRecOn (motive := fun s : ChildDays => s.Sound cal uid x) ops _ h
    fun _ hb op hop => step_sound (hfair op hop) hb

theorem run_isSome (hsync : ∀ op ∈ ops, ¬op.IsSync) (h : (s.memory uid).isSome) :
    ((ops.foldl (step cal deviceTz uid) s).memory uid).isSome :=
  List.foldlRecOn (motive := fun s : ChildDays => (s.memory uid).isSome) ops _ h
    fun _ hb op hop => step_isSome (hsync op hop) hb

theorem run_memory_none (hsync : ∀ op ∈ ops, ¬op.IsSync) (h : s.memory uid = none) :
    (ops.foldl (step cal deviceTz uid) s).memory uid = none :=
  List.foldlRecOn (motive := fun s : ChildDays => s.memory uid = none) ops _ h
    fun _ hb op hop => step_memory_none (hsync op hop) hb

theorem run_expired (ops : List ChildOp) (h : x.reqId ∈ s.expired) :
    x.reqId ∈ (ops.foldl (step cal deviceTz uid) s).expired :=
  List.foldlRecOn (motive := fun s : ChildDays => x.reqId ∈ s.expired) ops _ h
    fun _ hb op _ => step_expired op hb

/-- **The drain lands an extension**, and what comes after it leaves it there. -/
theorem run_lands (hfair : ∀ op ∈ ops, Fair uid x op) {op : ChildOp} (hop : op ∈ ops)
    (hdrain : op ∈ x.pending.ops uid) (h : s.Sound cal uid x) (htracked : (s.memory uid).isSome) :
    (ops.foldl (step cal deviceTz uid) s).Has cal uid x := by
  obtain ⟨earlier, later, rfl⟩ := List.append_of_mem hop
  rw [List.foldl_append, List.foldl_cons]
  have hearlier : ∀ op ∈ earlier, Fair uid x op := fun op hop =>
    hfair op (List.mem_append_left _ hop)
  have hlater : ∀ op ∈ later, Fair uid x op := fun op hop =>
    hfair op (List.mem_append_right _ (List.mem_cons_of_mem _ hop))
  refine run_has (fun op hop => (hlater op hop).1) (step_lands hdrain (hfair op hop) ?_ ?_)
  · exact run_sound hearlier h
  · exact run_isSome (fun op hop => (hearlier op hop).1) htracked

theorem sync_untracked {configs : List (UInt32 × EffectivePolicy)} (now : Int) (restore : Restore)
    (h : uid ∉ configs.map Prod.fst) :
    (s.step cal deviceTz uid (.sync configs now restore)).memory uid = none := by
  have hnone := s.multi.sync_children_of_notMem cal deviceTz now restore h
  unfold memory step MultiChildEnforcer.step
  rw [hnone]
  rfl

variable (cal deviceTz s) in
/-- A sync that tracks the child keeps its ledger, or brings back the one that was saved. -/
theorem sync_tracked {configs : List (UInt32 × EffectivePolicy)} (now : Int) (restore : Restore)
    (h : uid ∈ configs.map Prod.fst) :
    ∃ l', (s.step cal deviceTz uid (.sync configs now restore)).memory uid = some l' ∧
      (∀ l ∈ s.memory uid, l' = l) ∧
      (s.memory uid = none →
        (∀ l ∈ (restore uid).2, l' = l) ∧ ((restore uid).2 = none → l'.applied = [])) := by
  obtain ⟨c', hc', hkept, hrestored⟩ := s.multi.sync_extension cal deviceTz now restore h
  refine ⟨c'.extension, ?_, ?_, fun hnone => hrestored (memory_none hnone)⟩
  · unfold memory step MultiChildEnforcer.step
    rw [hc']
    rfl
  · intro l hl
    obtain ⟨c, hc, rfl⟩ := memory_some hl
    exact hkept c hc

end ChildDays

/-! ## Runs -/

/-- The id of a request is hex. -/
theorem ReqId.colon_notMem_toHex (id : ReqId) : ':' ∉ id.toHex.toList := by
  unfold toHex
  rw [String.toList_ofList]
  exact Hex.notMem_digits (by decide) _ _

/-- The id of a gift is not. -/
theorem colon_mem_giftReqId (id : String) : ':' ∈ (giftReqId id).toList := by
  unfold giftReqId
  rw [String.toList_append]
  exact List.mem_append_left _ (by decide)

/-- A tick of the loop, by what it reads.  The loop applies a gift and an adjustment under an id of
its own, which has a colon in it. -/
structure LoopTick where
  now : Int
  policies : List (UInt32 × EffectivePolicy)
  /-- The config of the brokered subject names an account that exists. -/
  resolves : Bool
  before : List ChildOp
  after : List ChildOp
  own : ∀ op ∈ before ++ after, ¬op.IsSync ∧ ∀ id, op.reqId = some id → ':' ∈ id.toList

/-- The policies name the account. -/
def LoopTick.Tracks (uid : UInt32) (t : LoopTick) : Prop := uid ∈ t.policies.map Prod.fst

/-- What was enacted, the inbox, and the ledgers: those on disk and those in memory. -/
structure GrantRun where
  enacted : List EnactedExtension
  inbox : List PendingExtension
  saved : Restore
  days : ChildDays

/-- `restart` is a crash and the start after it. -/
inductive GrantStep
  | enact (x : EnactedExtension) (hid : ∃ id : ReqId, x.reqId = id.toHex)
  | tick (t : LoopTick)
  | saveUsage (u : UInt32)
  | saveExtension (u : UInt32)
  | restart

namespace GrantRun
variable (cal : Calendar) (deviceTz : String) (uid : UInt32)

def start : GrantRun := ⟨[], [], fun _ => (none, none), ⟨.new, []⟩⟩

/-- The operations of a tick on the children; `uid` is the account of the brokered subject. -/
def ops (r : GrantRun) (t : LoopTick) : List ChildOp :=
  t.before ++ (if t.resolves then r.inbox.flatMap (·.ops uid) else []) ++ t.after

/-- The inbox is taken when the account resolves, whether or not its policy is there. -/
def tick (r : GrantRun) (t : LoopTick) : GrantRun :=
  { r with
    inbox := if t.resolves then [] else r.inbox
    days := (r.ops uid t).foldl (ChildDays.step cal deviceTz uid)
      (r.days.step cal deviceTz uid (.sync t.policies t.now r.saved)) }

/-- A ledger file is written for a child that is tracked. -/
def step (r : GrantRun) : GrantStep → GrantRun
  | .enact x _ =>
    -- a request that was answered is not answered again
    if x.reqId ∈ r.enacted.map (·.reqId) then r
    else { r with enacted := r.enacted ++ [x], inbox := r.inbox ++ [x.pending] }
  | .tick t => r.tick cal deviceTz uid t
  | .saveUsage u =>
    match r.days.multi.children u with
    | some c => { r with saved := Function.update r.saved u (some c.usage, (r.saved u).2) }
    | none => r
  | .saveExtension u =>
    match r.days.memory u with
    | some l => { r with saved := Function.update r.saved u ((r.saved u).1, some l) }
    | none => r
  | .restart => { r with inbox := [], days := ⟨.new, r.days.expired⟩ }

/-- **No enacted extension is lost**: each is in the child's ledger, unless its day is over, or the
next tick that tracks the child puts it there. -/
def NoneLost (r : GrantRun) : Prop :=
  ∀ x ∈ r.enacted, r.days.Has cal uid x ∨
    ∀ t : LoopTick, t.resolves → t.Tracks uid → (r.tick cal deviceTz uid t).days.Has cal uid x

/-- Each extension that the ledger in memory knows is in the file. -/
def Landed (r : GrantRun) : Prop :=
  ∀ x ∈ r.enacted, ∀ l ∈ r.days.memory uid, x.reqId ∈ l.applied →
    ∃ l' ∈ (r.saved uid).2, x.reqId ∈ l'.applied

/-- A crash finds no extension that is in memory only, and neither does a tick that leaves the child
untracked. -/
def Admits (r : GrantRun) : GrantStep → Prop
  | .restart => r.inbox = [] ∧ r.Landed uid
  | .tick t => t.Tracks uid ∨ r.Landed uid ∧ (t.resolves → r.inbox = [])
  | .enact _ _ | .saveUsage _ | .saveExtension _ => True

variable {cal deviceTz uid} {r : GrantRun} {x : EnactedExtension}

/-- The operations of the inbox are its drain. -/
theorem drain_ops (m : MultiChildEnforcer) (inbox : List PendingExtension) :
    Lockstep.final (MultiChildEnforcer.step cal deviceTz) m (inbox.flatMap (·.ops uid)) =
      inbox.foldl (fun m p => m.drainOne cal uid p) m := by
  induction inbox generalizing m with
  | nil => rfl
  | cons p inbox ih =>
    have hfirst : Lockstep.final (MultiChildEnforcer.step cal deviceTz) m (p.ops uid) =
        m.drainOne cal uid p := MultiChildEnforcer.drainOne_ops m p
    rw [List.flatMap_cons, List.foldl_cons, ← hfirst, ← ih]
    exact List.foldl_append

/-! ### The invariant -/

/-- What holds in every state of an obedient run. -/
structure Kept (cal : Calendar) (uid : UInt32) (r : GrantRun) : Prop where
  plain : ∀ x ∈ r.enacted, ':' ∉ x.reqId.toList
  nodup : (r.enacted.map (·.reqId)).Nodup
  inbox : ∀ p ∈ r.inbox, ∃ x ∈ r.enacted, x.pending = p
  /-- The ledgers know the ids of the loop and those of what was enacted. -/
  ids : ∀ l, r.days.memory uid = some l ∨ (r.saved uid).2 = some l → ∀ id ∈ l.applied,
    ':' ∈ id.toList ∨ id ∈ r.enacted.map (·.reqId)
  /-- An id that a ledger knows stands for its minutes. -/
  sound : ∀ x ∈ r.enacted, x.reqId ∈ r.days.expired ∨
    ∀ l, r.days.memory uid = some l ∨ (r.saved uid).2 = some l → x.reqId ∈ l.applied →
      x.In cal.zones l
  /-- Somewhere an extension is held. -/
  held : ∀ x ∈ r.enacted, x.reqId ∈ r.days.expired ∨ x.pending ∈ r.inbox ∨
    (∃ l ∈ r.days.memory uid, x.reqId ∈ l.applied) ∨
    r.days.memory uid = none ∧ ∃ l ∈ (r.saved uid).2, x.reqId ∈ l.applied

theorem kept_start : Kept cal uid start where
  plain := by simp [start]
  nodup := by simp [start]
  inbox := by simp [start]
  ids := by simp [start, ChildDays.memory, MultiChildEnforcer.new]
  sound := by simp [start]
  held := by simp [start]

/-- An id that is enacted is that of one extension. -/
theorem Kept.eq_of_reqId (h : Kept cal uid r) {x y : EnactedExtension} (hx : x ∈ r.enacted)
    (hy : y ∈ r.enacted) (hid : x.reqId = y.reqId) : x = y :=
  List.inj_on_of_nodup_map h.nodup hx hy hid

/-- What the operations of a tick take the ids for. -/
theorem mem_ops {t : LoopTick} {op : ChildOp} (hop : op ∈ r.ops uid t) :
    op ∈ t.before ++ t.after ∨ t.resolves ∧ ∃ p ∈ r.inbox, op ∈ p.ops uid := by
  rw [ops, List.mem_append, List.mem_append] at hop
  rcases hop with (hop | hop) | hop
  · exact .inl (List.mem_append_left _ hop)
  · split at hop
    · rename_i hresolves
      exact .inr ⟨hresolves, List.mem_flatMap.mp hop⟩
    · cases hop
  · exact .inl (List.mem_append_right _ hop)

end GrantRun

/-- The drain of an extension is one operation, which is no sync and has its id. -/
theorem EnactedExtension.ops_eq (x : EnactedExtension) (uid : UInt32) :
    ∃ op, x.pending.ops uid = [op] ∧ ¬op.IsSync ∧ op.reqId = some x.reqId := by
  obtain ⟨c, hc, -⟩ := x.call_isSome
  unfold PendingExtension.call at hc
  obtain ⟨address, haddress, -⟩ := Option.map_eq_some_iff.mp hc
  have hid := x.pending_reqId
  unfold PendingExtension.ops
  rw [haddress, hid]
  cases address with
  | give | bucket | time | take => exact ⟨_, rfl, id, rfl⟩

namespace GrantRun
variable {cal : Calendar} {deviceTz : String} {uid : UInt32} {r : GrantRun} {x : EnactedExtension}

/-- **The ids are taken for what they stand for.** -/
theorem Kept.fair (h : Kept cal uid r) (hx : x ∈ r.enacted) {t : LoopTick} :
    ∀ op ∈ r.ops uid t, ChildDays.Fair uid x op := by
  intro op hop
  rcases mem_ops hop with hop | ⟨-, p, hp, hop⟩
  · obtain ⟨hsync, hown⟩ := t.own op hop
    exact ⟨hsync, fun hid => absurd (hown _ hid) (h.plain x hx)⟩
  · obtain ⟨y, hy, rfl⟩ := h.inbox p hp
    obtain ⟨op', hops, hsync, hid⟩ := y.ops_eq uid
    obtain rfl : op = op' := by simpa [hops] using hop
    refine ⟨hsync, fun hsame => ?_⟩
    obtain rfl := h.eq_of_reqId hx hy (Option.some.inj (hsame.symm.trans hid))
    exact hop

theorem Kept.ops_sync (h : Kept cal uid r) {t : LoopTick} : ∀ op ∈ r.ops uid t, ¬op.IsSync := by
  intro op hop
  rcases mem_ops hop with hop | ⟨-, p, hp, hop⟩
  · exact (t.own op hop).1
  · obtain ⟨y, -, rfl⟩ := h.inbox p hp
    obtain ⟨op', hops, hsync, -⟩ := y.ops_eq uid
    obtain rfl : op = op' := by simpa [hops] using hop
    exact hsync

/-- The children after the sync of a tick. -/
def synced (cal : Calendar) (deviceTz : String) (uid : UInt32) (r : GrantRun) (t : LoopTick) :
    ChildDays := r.days.step cal deviceTz uid (.sync t.policies t.now r.saved)

/-- A ledger that a sync leaves was there, in memory or on disk, or it is new. -/
theorem synced_memory {t : LoopTick} {l : ExtensionLedger}
    (hl : (r.synced cal deviceTz uid t).memory uid = some l) :
    (r.days.memory uid = some l ∨ (r.saved uid).2 = some l) ∨ l.applied = [] := by
  by_cases htracked : t.Tracks uid
  · obtain ⟨l', hl', hkept, hrestored⟩ := r.days.sync_tracked cal deviceTz t.now r.saved htracked
    obtain rfl := Option.some.inj (hl.symm.trans hl')
    cases hmemory : r.days.memory uid with
    | some l' => exact .inl (.inl (by rw [hkept l' hmemory]))
    | none =>
      obtain ⟨hsaved, hnew⟩ := hrestored hmemory
      cases hdisk : (r.saved uid).2 with
      | some l' => exact .inl (.inr (by rw [hsaved l' hdisk]))
      | none => exact .inr (hnew hdisk)
  · have hnone : (r.synced cal deviceTz uid t).memory uid = none :=
      ChildDays.sync_untracked t.now r.saved htracked
    rw [hl] at hnone
    cases hnone

theorem synced_expired {t : LoopTick} :
    (r.synced cal deviceTz uid t).expired = r.days.expired := List.append_nil _

theorem Kept.synced_sound (h : Kept cal uid r) (hx : x ∈ r.enacted) (t : LoopTick) :
    (r.synced cal deviceTz uid t).Sound cal uid x := by
  rcases h.sound x hx with hexpired | hin
  · exact .inl (by rwa [synced_expired])
  · refine .inr fun l hl hid => ?_
    rcases synced_memory hl with hold | hnew
    · exact hin l hold hid
    · rw [hnew] at hid
      cases hid

/-- **A tick that tracks the child holds every extension**, if it takes those that are waiting. -/
theorem Kept.tick_has (h : Kept cal uid r) (hx : x ∈ r.enacted) {t : LoopTick}
    (htracked : t.Tracks uid) (htaken : x.pending ∈ r.inbox → t.resolves) :
    (r.tick cal deviceTz uid t).days.Has cal uid x := by
  obtain ⟨l', hl', hkept, hrestored⟩ :=
    r.days.sync_tracked cal deviceTz t.now r.saved htracked
  have hsound : (r.synced cal deviceTz uid t).Sound cal uid x := h.synced_sound hx t
  have hrun : (r.synced cal deviceTz uid t).Has cal uid x →
      (r.tick cal deviceTz uid t).days.Has cal uid x := ChildDays.run_has h.ops_sync
  rcases h.held x hx with hexpired | hwaiting | ⟨l, hl, hid⟩ | ⟨hnone, l, hl, hid⟩
  · exact hrun (.inl (by rwa [synced_expired]))
  · obtain ⟨op, hops, -, -⟩ := x.ops_eq uid
    have hop : op ∈ x.pending.ops uid := by simp [hops]
    have hmem : op ∈ r.ops uid t := by
      rw [ops, if_pos (htaken hwaiting)]
      exact List.mem_append_left _
        (List.mem_append_right _ (List.mem_flatMap.mpr ⟨_, hwaiting, hop⟩))
    exact ChildDays.run_lands (h.fair hx) hmem hop hsound (Option.isSome_iff_exists.mpr ⟨l', hl'⟩)
  · obtain rfl := hkept l hl
    exact hrun (hsound.has hl' hid)
  · obtain rfl := (hrestored hnone).1 l hl
    exact hrun (hsound.has hl' hid)

/-- **In a state that an obedient run reaches, none is lost.** -/
theorem Kept.noneLost (h : Kept cal uid r) : r.NoneLost cal deviceTz uid :=
  fun _ hx => .inr fun _ hresolves htracked => h.tick_has hx htracked fun _ => hresolves

/-! ### What a step keeps -/

theorem kept_enact (h : Kept cal uid r) (hplain : ':' ∉ x.reqId.toList)
    (hnew : x.reqId ∉ r.enacted.map (·.reqId)) :
    Kept cal uid { r with enacted := r.enacted ++ [x], inbox := r.inbox ++ [x.pending] } where
  plain := by
    intro y hy
    rcases List.mem_append.mp hy with hy | hy
    · exact h.plain y hy
    · rwa [List.mem_singleton.mp hy]
  nodup := by
    rw [List.map_append, List.map_singleton, ← List.concat_eq_append]
    exact h.nodup.concat hnew
  inbox := by
    intro p hp
    rcases List.mem_append.mp hp with hp | hp
    · obtain ⟨y, hy, rfl⟩ := h.inbox p hp
      exact ⟨y, List.mem_append_left _ hy, rfl⟩
    · obtain rfl := List.mem_singleton.mp hp
      exact ⟨x, List.mem_append_right _ (List.mem_singleton_self x), rfl⟩
  ids := by
    intro l hl id hid
    refine (h.ids l hl id hid).imp_right fun hmem => ?_
    rw [List.map_append]
    exact List.mem_append_left _ hmem
  sound := by
    intro y hy
    rcases List.mem_append.mp hy with hy | hy
    · exact h.sound y hy
    · -- no ledger knows its id yet
      obtain rfl := List.mem_singleton.mp hy
      refine .inr fun l hl hid => ?_
      rcases h.ids l hl _ hid with hcolon | hmem
      · exact absurd hcolon hplain
      · exact absurd hmem hnew
  held := by
    intro y hy
    rcases List.mem_append.mp hy with hy | hy
    · exact (h.held y hy).imp_right (Or.imp_left (List.mem_append_left _))
    · obtain rfl := List.mem_singleton.mp hy
      exact .inr (.inl (List.mem_append_right _ (List.mem_singleton_self _)))

theorem Kept.ops_reqId (h : Kept cal uid r) {t : LoopTick} {op : ChildOp} (hop : op ∈ r.ops uid t)
    {id : String} (hid : op.reqId = some id) :
    ':' ∈ id.toList ∨ id ∈ r.enacted.map (·.reqId) := by
  rcases mem_ops hop with hop | ⟨-, p, hp, hop⟩
  · exact .inl ((t.own op hop).2 id hid)
  · obtain ⟨y, hy, rfl⟩ := h.inbox p hp
    obtain ⟨op', hops, -, hreqId⟩ := y.ops_eq uid
    obtain rfl : op = op' := by simpa [hops] using hop
    obtain rfl := Option.some.inj (hid.symm.trans hreqId)
    exact .inr (List.mem_map_of_mem hy)

theorem Kept.tick_ids (h : Kept cal uid r) {t : LoopTick} {l : ExtensionLedger}
    (hl : (r.tick cal deviceTz uid t).days.memory uid = some l) :
    ∀ id ∈ l.applied, ':' ∈ id.toList ∨ id ∈ r.enacted.map (·.reqId) := by
  have hrun : ∀ l ∈ (r.tick cal deviceTz uid t).days.memory uid, ∀ id ∈ l.applied,
      ':' ∈ id.toList ∨ id ∈ r.enacted.map (·.reqId) := by
    refine List.foldlRecOn (motive := fun s : ChildDays => ∀ l ∈ s.memory uid, ∀ id ∈ l.applied,
      ':' ∈ id.toList ∨ id ∈ r.enacted.map (·.reqId)) (r.ops uid t) _ ?_ ?_
    · intro l hl id hid
      rcases synced_memory hl with hold | hnew
      · exact h.ids l hold id hid
      · rw [hnew] at hid
        cases hid
    · intro s hs op hop l' hl' id hid
      obtain ⟨l, hl, hids⟩ := ChildDays.step_ids (h.ops_sync op hop) hl'
      exact (hids id hid).elim (hs l hl id) (h.ops_reqId hop)
  exact hrun l hl

theorem kept_tick (h : Kept cal uid r) {t : LoopTick} (hadmits : r.Admits uid (.tick t)) :
    Kept cal uid (r.tick cal deviceTz uid t) where
  plain := h.plain
  nodup := h.nodup
  inbox := by
    intro p hp
    unfold tick at hp
    dsimp only at hp
    split at hp
    · cases hp
    · exact h.inbox p hp
  ids := by
    rintro l (hl | hl)
    · exact h.tick_ids hl
    · exact h.ids l (.inr hl)
  sound := by
    intro x hx
    rcases h.sound x hx with hexpired | hin
    · exact .inl (ChildDays.run_expired _ (by rwa [← synced, synced_expired]))
    · have hsound : (r.tick cal deviceTz uid t).days.Sound cal uid x :=
        ChildDays.run_sound (h.fair hx) (h.synced_sound hx t)
      refine hsound.imp_right fun hmemory l hl hid => ?_
      rcases hl with hl | hl
      · exact hmemory l hl hid
      · exact hin l (.inr hl) hid
  held := by
    intro x hx
    have hhas : (r.tick cal deviceTz uid t).days.Has cal uid x →
        x.reqId ∈ (r.tick cal deviceTz uid t).days.expired ∨
          ∃ l ∈ (r.tick cal deviceTz uid t).days.memory uid, x.reqId ∈ l.applied :=
      Or.imp_right fun ⟨l, hl, hin⟩ => ⟨l, hl, hin.taken⟩
    by_cases hwaits : x.pending ∈ r.inbox ∧ ¬t.resolves
    · right; left
      unfold tick
      dsimp only
      rw [if_neg hwaits.2]
      exact hwaits.1
    · have htaken : x.pending ∈ r.inbox → t.resolves := fun hmem => by
        by_contra hnot
        exact hwaits ⟨hmem, hnot⟩
      by_cases htracked : t.Tracks uid
      · exact (hhas (h.tick_has hx htracked htaken)).imp_right fun hmem => .inr (.inl hmem)
      · -- the child is dropped: what is in memory is in the file, and nothing is waiting
        obtain ⟨hlanded, hempty⟩ := hadmits.resolve_left htracked
        have hnone : (r.tick cal deviceTz uid t).days.memory uid = none :=
          ChildDays.run_memory_none h.ops_sync (ChildDays.sync_untracked t.now r.saved htracked)
        rcases h.held x hx with hexpired | hwaiting | ⟨l, hl, hid⟩ | ⟨-, hsaved⟩
        · exact .inl (ChildDays.run_expired _ (by rwa [← synced, synced_expired]))
        · rw [hempty (htaken hwaiting)] at hwaiting
          cases hwaiting
        · exact .inr (.inr (.inr ⟨hnone, hlanded x hx l hl hid⟩))
        · exact .inr (.inr (.inr ⟨hnone, hsaved⟩))

/-- A write of the ledger that is in memory. -/
theorem Kept.save (h : Kept cal uid r) {saved : Restore}
    (hsaved : (saved uid).2 = (r.saved uid).2 ∨
      ∃ l, r.days.memory uid = some l ∧ (saved uid).2 = some l) :
    Kept cal uid { r with saved := saved } := by
  have hold : ∀ l, r.days.memory uid = some l ∨ (saved uid).2 = some l →
      r.days.memory uid = some l ∨ (r.saved uid).2 = some l := by
    rintro l (hl | hl)
    · exact .inl hl
    · rcases hsaved with hsame | ⟨l', hl', hwritten⟩
      · exact .inr (hsame ▸ hl)
      · exact .inl (hl'.trans (hwritten.symm.trans hl))
  refine ⟨h.plain, h.nodup, h.inbox, fun l hl => h.ids l (hold l hl), fun x hx =>
    (h.sound x hx).imp_right fun hin l hl => hin l (hold l hl), fun x hx => ?_⟩
  refine (h.held x hx).imp_right (Or.imp_right (Or.imp_right ?_))
  rintro ⟨hnone, hmem⟩
  refine ⟨hnone, ?_⟩
  rcases hsaved with hsame | ⟨l', hl', -⟩
  · exact hsame ▸ hmem
  · rw [hnone] at hl'
    cases hl'

theorem kept_restart (h : Kept cal uid r) (hadmits : r.Admits uid .restart) :
    Kept cal uid (r.step cal deviceTz uid .restart) := by
  obtain ⟨hempty, hlanded⟩ := hadmits
  have hnone : (r.step cal deviceTz uid .restart).days.memory uid = none := rfl
  have hold : ∀ l, (r.step cal deviceTz uid .restart).days.memory uid = some l ∨
      (r.saved uid).2 = some l → r.days.memory uid = some l ∨ (r.saved uid).2 = some l := by
    rintro l (hl | hl)
    · rw [hnone] at hl
      cases hl
    · exact .inr hl
  refine ⟨h.plain, h.nodup, fun p hp => absurd hp List.not_mem_nil,
    fun l hl => h.ids l (hold l hl), fun x hx =>
      (h.sound x hx).imp_right fun hin l hl => hin l (hold l hl), fun x hx => ?_⟩
  rcases h.held x hx with hexpired | hwaiting | ⟨l, hl, hid⟩ | ⟨-, hsaved⟩
  · exact .inl hexpired
  · rw [hempty] at hwaiting
    cases hwaiting
  · exact .inr (.inr (.inr ⟨hnone, hlanded x hx l hl hid⟩))
  · exact .inr (.inr (.inr ⟨hnone, hsaved⟩))

/-- **Each step that is admitted keeps it.** -/
theorem kept_step {a : GrantStep} (h : Kept cal uid r) (hadmits : r.Admits uid a) :
    Kept cal uid (r.step cal deviceTz uid a) := by
  cases a with
  | enact x hid =>
    obtain ⟨id, hid⟩ := hid
    unfold step
    dsimp only
    split
    · exact h
    · rename_i hnew
      refine kept_enact h ?_ hnew
      rw [hid]
      exact id.colon_notMem_toHex
  | tick t => exact kept_tick h hadmits
  | saveUsage u =>
    unfold step
    dsimp only
    split
    · refine h.save (.inl ?_)
      by_cases hu : uid = u
      · rw [hu, Function.update_self]
      · rw [Function.update_of_ne hu]
    · exact h
  | saveExtension u =>
    unfold step
    dsimp only
    split
    · rename_i l hl
      refine h.save ?_
      by_cases hu : uid = u
      · subst hu
        exact .inr ⟨l, hl, by rw [Function.update_self]⟩
      · exact .inl (by rw [Function.update_of_ne hu])
    · exact h
  | restart => exact kept_restart h hadmits

/-- **No enacted extension is lost**, in every run in which a crash finds no extension in memory
only, and a tick that leaves the child untracked finds none either. -/
theorem none_lost {steps : List GrantStep}
    (h : GuardedRun.Obeys (step cal deviceTz uid) (Admits uid) start steps) :
    (steps.foldl (step cal deviceTz uid) start).NoneLost cal deviceTz uid :=
  Kept.noneLost (h.invariant (I := Kept cal uid) (fun _ _ hr ha => kept_step hr ha) kept_start)

/-- Once the ledger is saved, a crash takes nothing from it. -/
theorem landed_save (r : GrantRun) : (r.step cal deviceTz uid (.saveExtension uid)).Landed uid := by
  unfold step
  dsimp only
  split
  · rename_i l hl
    intro x _ l' hl' hid
    obtain rfl := Option.some.inj (hl.symm.trans hl')
    refine ⟨l, ?_, hid⟩
    dsimp only
    rw [Function.update_self]
    rfl
  · rename_i hnone
    intro x _ l hl
    rw [hnone] at hl
    cases hl

/-! ### Half an hour -/

/-- Thirty minutes past a bedtime. -/
def halfAnHour : EnactedExtension where
  reqId := ReqId.toHex ⟨7⟩
  at_ := 1782734400
  params := ⟨30, .schedule, none, none⟩
  valid := rfl
  nonzero := by decide
  routable := nofun

/-- A tick at which the account of the brokered subject is there, with a policy or without. -/
def halfAnHourTick (policies : List (UInt32 × EffectivePolicy)) : LoopTick :=
  ⟨1782734430, policies, true, [], [], by simp⟩

def unlimited : List (UInt32 × EffectivePolicy) := [(1000, ⟨none, none, none, .guardian⟩)]

def enactHalfAnHour : GrantStep := .enact halfAnHour ⟨⟨7⟩, rfl⟩

/-- The ledger is saved after the tick that the half hour landed in, and the machine goes down. -/
theorem none_lost_saved :
    NoneLost UsageLedger.utcCalendar "UTC" 1000
      ([enactHalfAnHour, .tick (halfAnHourTick unlimited), .saveExtension 1000, .restart].foldl
        (step UsageLedger.utcCalendar "UTC" 1000) start) := by
  have htracked : (halfAnHourTick unlimited).Tracks 1000 := List.mem_singleton_self _
  exact none_lost ⟨trivial, .inl htracked, trivial, ⟨rfl, landed_save _⟩, trivial⟩

/-- What is neither in the ledgers nor in the inbox is lost. -/
theorem not_noneLost (hx : x ∈ r.enacted) (hmemory : r.days.memory uid = none)
    (hsaved : (r.saved uid).2 = none) (hinbox : r.inbox = [])
    (hexpired : r.days.expired = []) : ¬r.NoneLost cal deviceTz uid := by
  intro hnone
  let t : LoopTick := ⟨0, [(uid, ⟨none, none, none, .guardian⟩)], true, [], [], by simp⟩
  have htracked : t.Tracks uid := List.mem_singleton.mpr rfl
  obtain ⟨l', hl', -, hrestored⟩ := r.days.sync_tracked cal deviceTz t.now r.saved htracked
  have hempty : l'.applied = [] := (hrestored hmemory).2 hsaved
  have hops : r.ops uid t = [] := by simp [ops, hinbox, t]
  have hticked : (r.tick cal deviceTz uid t).days = r.synced cal deviceTz uid t := by
    unfold tick
    rw [hops]
    rfl
  rcases hnone x hx with (hgone | ⟨l, hl, -⟩) | hnext
  · rw [hexpired] at hgone
    cases hgone
  · rw [hmemory] at hl
    cases hl
  · rcases hticked ▸ hnext t rfl htracked with hgone | ⟨l, hl, hin⟩
    · rw [synced_expired, hexpired] at hgone
      cases hgone
    · obtain rfl := Option.some.inj (hl'.symm.trans hl)
      have htaken := hin.taken
      rw [hempty] at htaken
      cases htaken

/-- **An extension is lost** by a crash before the tick that takes it, by one between that tick and
the save of the ledger, and by a tick that takes the inbox while the child has no policy. -/
theorem half_hour_lost :
    let run := fun steps : List GrantStep =>
      steps.foldl (step UsageLedger.utcCalendar "UTC" 1000) start
    ¬NoneLost UsageLedger.utcCalendar "UTC" 1000 (run [enactHalfAnHour, .restart]) ∧
      ¬NoneLost UsageLedger.utcCalendar "UTC" 1000
        (run [enactHalfAnHour, .tick (halfAnHourTick unlimited), .restart]) ∧
      ¬NoneLost UsageLedger.utcCalendar "UTC" 1000
        (run [enactHalfAnHour, .tick (halfAnHourTick [])]) := by
  intro run
  refine ⟨not_noneLost (x := halfAnHour) (List.mem_singleton_self _) rfl rfl rfl rfl,
    not_noneLost (x := halfAnHour) (List.mem_singleton_self _) rfl rfl rfl ?_,
    not_noneLost (x := halfAnHour) (List.mem_singleton_self _) ?_ rfl rfl rfl⟩
  · decide +kernel
  · rfl

end GrantRun
end Kintrinsic
