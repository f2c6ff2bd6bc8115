import Kintrinsic.EffectRun
import Kintrinsic.MultiChild

/-! # What a restart keeps

A child's snapshots are its two ledgers.  A child that is made again from them, after a restart
or after a sync that left it out, differs from the one that was kept in its latches, in the
trust in its clock until the next tick, and in what the loop sets before every tick.  Once the
loop has set that, no answer and no ledger tells them apart. -/
namespace Kintrinsic

/-- What the loop sets before a tick. -/
structure LoopInputs where
  clockTrusted : Bool
  consolidated : UInt32 → Option ConsolidatedUsage
  standDown : UInt32 → Option StandDown
  buckets : UInt32 → Option String × Option WeekStart
  unsaved : UInt32 → Bool

/-- A decision without its effects, which are those of an edge. -/
def ChildDecision.verdict (d : ChildDecision) : ChildDecision := { d with effects := [] }

/-- What an answer says about one child. -/
def ChildAnswer.about (uid : UInt32) (a : ChildAnswer) : Option ChildDecision × Option Bool :=
  ((a.decision uid).map ChildDecision.verdict, a.newly uid)

/-- Whether an operation ticks. -/
def ChildOp.IsTick : ChildOp → Prop
  | .tick .. => True
  | _ => False

/-- Whether an operation keeps a child that is gone away. -/
def ChildOp.LeavesOut (uid : UInt32) : ChildOp → Prop
  | .sync configs _ _ => uid ∉ configs.map Prod.fst
  | _ => True

namespace ChildEnforcer
variable (cal : Calendar) (c : ChildEnforcer)

/-- The child with other latches, and another trust in its clock. -/
def retouched (core : EnforcerCore) (trusted : Bool) : ChildEnforcer :=
  { c with core := core, usage := c.usage.setClockTrusted trusted }

/-- What the loop sets of one child. -/
def loopSet (v : LoopInputs) (uid : UInt32) : ChildEnforcer :=
  { c with
    consolidated := v.consolidated uid
    standDown := v.standDown uid
    bucketsTz := (v.buckets uid).1
    bucketsWeekStart := (v.buckets uid).2
    unsavedBudget := if v.unsaved uid && c.budget.isSome then some (failSafeBudget c.tz) else none }

/-- Two children with the same ledgers under the same policy. -/
structure Seeded (c c' : ChildEnforcer) : Prop where
  usage : c'.usage = c.usage.setClockTrusted c'.usage.clockTrusted
  extension : c'.extension = c.extension
  tz : c'.tz = c.tz
  schedule : c'.schedule = c.schedule
  budget : c'.budget = c.budget
  learning : c'.learning = c.learning
  source : c'.source = c.source

variable {c} {c' : ChildEnforcer}

/-- A policy over the same usage. -/
theorem seeded_relimit (husage : c'.usage = c.usage.setClockTrusted c'.usage.clockTrusted)
    (hextension : c'.extension = c.extension) (policy : EffectivePolicy) :
    (c.relimit policy).Seeded (c'.relimit policy) := by
  have htz : c'.usage.tz = c.usage.tz := by
    rw [husage]
    rfl
  unfold relimit
  rw [htz]
  exact ⟨husage, hextension, rfl, rfl, rfl, rfl, rfl⟩

/-- What the loop sets hides the rest. -/
theorem Seeded.loopSet (h : c.Seeded c') (v : LoopInputs) (uid : UInt32) :
    c'.loopSet v uid = (c.loopSet v uid).retouched c'.core c'.usage.clockTrusted := by
  obtain ⟨husage, hextension, htz, hschedule, hbudget, hlearning, hsource⟩ := h
  unfold ChildEnforcer.loopSet retouched
  dsimp only
  rw [← husage, hextension, htz, hschedule, hbudget, hlearning, hsource]

/-- The entries of a sync keep two children under one policy. -/
theorem Seeded.sync (h : c.Seeded c') (deviceTz : String) (now : Int)
 (snap snap' : Option UsageLedger × Option ExtensionLedger)
    (entries : List (UInt32 × EffectivePolicy)) :
    ∃ d d' : ChildEnforcer, d.Seeded d' ∧
      entries.foldl (fun c e => some (synced cal deviceTz now snap e.2 c)) (some c) =
        some d ∧
      entries.foldl (fun c e => some (synced cal deviceTz now snap' e.2 c))
        (some c') = some d' := by
  induction entries generalizing c c' with
  | nil => exact ⟨c, c', h, rfl, rfl⟩
  | cons e entries ih => exact ih (seeded_relimit h.usage h.extension e.2)

variable (c)

/-- A tick sets the trust, and its verdict is the level, not the latches. -/
theorem tick_retouched (core : EnforcerCore) (trusted clockTrusted : Bool) (uid : UInt32)
    (fg : Option Foreground) (t : TickClock) :
    (∃ core', ((c.retouched core trusted).tick cal clockTrusted uid fg t).1 =
        { (c.tick cal clockTrusted uid fg t).1 with core := core' }) ∧
      ((c.retouched core trusted).tick cal clockTrusted uid fg t).2.verdict =
        (c.tick cal clockTrusted uid fg t).2.verdict := by
  have hjudge : ∀ (c : ChildEnforcer) (core : EnforcerCore) (active : Bool),
      (∃ core', (judge cal { c with core := core } uid active t.now).1 =
        { (c.judge cal uid active t.now).1 with core := core' }) ∧
      (judge cal { c with core := core } uid active t.now).2.verdict =
        (c.judge cal uid active t.now).2.verdict := by
    intro c core active
    refine ⟨⟨_, rfl⟩, ?_⟩
    unfold judge ChildDecision.verdict
    dsimp only
    congr 1
    exact (core.act_locked _).trans (c.core.act_locked _).symm
  cases fg with
  | none => exact hjudge ((c.reconcile cal clockTrusted t.now).burn cal t) core false
  | some fg => exact hjudge (((c.reconcile cal clockTrusted t.now).spend cal fg t).burn cal t) core true

/-- What remains does not read the latches, and the trust only to pool. -/
theorem remaining_retouched (core : EnforcerCore) (trusted : Bool) (now : Int)
    (h : c.usage.clockTrusted = trusted ∨ c.consolidated = none) :
    computeRemaining cal ((c.retouched core trusted).inputs now) =
      computeRemaining cal (c.inputs now) := by
  rcases h with rfl | hnone
  · rfl
  · have hparts : ((c.retouched core trusted).inputs now).budgetParts cal =
        (c.inputs now).budgetParts cal := by
      unfold EnforcerInputs.budgetParts inputs retouched GrantBudget.quotaParts
        UsageLedger.pooledUsed UsageLedger.pooledToday UsageLedger.pooledWeek
      dsimp only
      rw [hnone]
      rfl
    unfold computeRemaining EnforcerInputs.budgetSecs
    rw [hparts]
    rfl

end ChildEnforcer

/-! ## Two enforcers that differ by touches -/

/-- A child, tracked or not, and the same one retouched; `ticked` says that the trusts are
one, too. -/
def Retouched (ticked : Prop) (o o' : Option ChildEnforcer) : Prop :=
  ∃ core trusted, o' = o.map (·.retouched core trusted) ∧
    (ticked → ∀ c, o = some c → c.usage.clockTrusted = trusted)

namespace Retouched
variable {cal : Calendar} {ticked : Prop} {o o' : Option ChildEnforcer}

theorem refl (o : Option ChildEnforcer) : Retouched ticked o o := by
  cases o with
  | none => exact ⟨.new, false, rfl, fun _ _ h => by cases h⟩
  | some c =>
    refine ⟨c.core, c.usage.clockTrusted, rfl, fun _ c' h => ?_⟩
    cases h
    rfl

/-- A change that neither reads nor writes what was retouched. -/
theorem map (h : Retouched ticked o o') {f : ChildEnforcer → ChildEnforcer}
    (hf : ∀ c core trusted, f (c.retouched core trusted) = (f c).retouched core trusted)
    (htrusted : ∀ c, (f c).usage.clockTrusted = c.usage.clockTrusted) :
    Retouched ticked (o.map f) (o'.map f) := by
  obtain ⟨core, trusted, rfl, hticked⟩ := h
  refine ⟨core, trusted, ?_, fun ht c hc => ?_⟩
  · cases o with
    | none => rfl
    | some c => exact congrArg some (hf c core trusted)
  · obtain ⟨d, hd, rfl⟩ := Option.map_eq_some_iff.mp hc
    rw [htrusted, hticked ht d hd]

/-- One entry of a sync. -/
theorem synced (h : Retouched ticked o o') (deviceTz : String) (now : Int)
    (snap : Option UsageLedger × Option ExtensionLedger) (policy : EffectivePolicy) :
    Retouched ticked (some (ChildEnforcer.synced cal deviceTz now snap policy o))
      (some (ChildEnforcer.synced cal deviceTz now snap policy o')) := by
  obtain ⟨core, trusted, rfl, hticked⟩ := h
  cases o with
  | none => exact refl _
  | some c =>
    refine ⟨core, trusted, rfl, fun ht d hd => ?_⟩
    cases hd
    exact hticked ht c rfl

theorem sync (h : Retouched ticked o o') (deviceTz : String) (now : Int)
    (snap : Option UsageLedger × Option ExtensionLedger)
    (entries : List (UInt32 × EffectivePolicy)) :
    Retouched ticked
      (entries.foldl
        (fun c e => some (ChildEnforcer.synced cal deviceTz now snap e.2 c)) o)
      (entries.foldl
        (fun c e => some (ChildEnforcer.synced cal deviceTz now snap e.2 c)) o') := by
  induction entries generalizing o o' with
  | nil => exact h
  | cons e entries ih => exact ih (h.synced deviceTz now snap e.2)

variable (cal) in
/-- After a tick only the latches differ. -/
theorem tick (h : Retouched ticked o o') (clockTrusted : Bool) (uid : UInt32)
    (fg : Option Foreground) (t : TickClock) :
    Retouched True (o.map fun c => (c.tick cal clockTrusted uid fg t).1)
        (o'.map fun c => (c.tick cal clockTrusted uid fg t).1) ∧
      o.map (fun c => (c.tick cal clockTrusted uid fg t).2.verdict) =
        o'.map fun c => (c.tick cal clockTrusted uid fg t).2.verdict := by
  obtain ⟨core, trusted, rfl, -⟩ := h
  cases o with
  | none => exact ⟨refl none, rfl⟩
  | some c =>
    obtain ⟨⟨core', hchild⟩, hverdict⟩ := c.tick_retouched cal core trusted clockTrusted uid fg t
    refine ⟨⟨core', (c.tick cal clockTrusted uid fg t).1.usage.clockTrusted, ?_, ?_⟩, ?_⟩
    · exact congrArg some hchild
    · intro _ d hd
      cases hd
      rfl
    · exact congrArg some hverdict.symm

theorem snapshots (h : Retouched ticked o o') :
    o.map ChildEnforcer.snapshot = o'.map ChildEnforcer.snapshot := by
  obtain ⟨core, trusted, rfl, -⟩ := h
  cases o <;> rfl

theorem remaining (h : Retouched ticked o o') (now : Int)
    (hread : ticked ∨ ∀ c, o = some c → c.consolidated = none) :
    (o.map fun c => computeRemaining cal (c.inputs now)) =
      o'.map fun c => computeRemaining cal (c.inputs now) := by
  obtain ⟨core, trusted, rfl, hticked⟩ := h
  cases o with
  | none => rfl
  | some c =>
    refine congrArg some (c.remaining_retouched cal core trusted now ?_).symm
    rcases hread with ht | hnone
    · exact Or.inl (hticked ht c rfl)
    · exact Or.inr (hnone c rfl)

end Retouched

namespace MultiChildEnforcer

/-- Two enforcers that are one for a child but for touches. -/
structure Resumed (uid : UInt32) (ticked : Prop) (m m' : MultiChildEnforcer) : Prop where
  child : Retouched ticked (m.children uid) (m'.children uid)
  clockTrusted : m.clockTrusted = m'.clockTrusted

variable {cal : Calendar} {m m' : MultiChildEnforcer} {uid : UInt32} {ticked : Prop}

theorem Resumed.weaken (h : Resumed uid ticked m m') : Resumed uid False m m' := by
  obtain ⟨⟨core, trusted, hchild, -⟩, htrusted⟩ := h
  exact ⟨⟨core, trusted, hchild, False.elim⟩, htrusted⟩

theorem Resumed.modify (h : Resumed uid ticked m m') (u : UInt32)
    {f : ChildEnforcer → ChildEnforcer}
    (hf : ∀ c core trusted, f (c.retouched core trusted) = (f c).retouched core trusted)
    (htrusted : ∀ c, (f c).usage.clockTrusted = c.usage.clockTrusted) :
    Resumed uid ticked (m.modify u f) (m'.modify u f) := by
  refine ⟨?_, h.clockTrusted⟩
  unfold MultiChildEnforcer.modify
  dsimp only
  split
  · exact h.child.map hf htrusted
  · exact h.child

/-- An adjustment answers alike, and keeps the children alike. -/
theorem Resumed.adjust (h : Resumed uid ticked m m') (u : UInt32)
    {f : ChildEnforcer → Bool × ChildEnforcer}
    (hf : ∀ c core trusted,
      f (c.retouched core trusted) = ((f c).1, (f c).2.retouched core trusted))
    (htrusted : ∀ c, (f c).2.usage.clockTrusted = c.usage.clockTrusted) :
    Resumed uid ticked (m.adjust u f).2 (m'.adjust u f).2 ∧
      (ChildAnswer.applied u (m.adjust u f).1).about uid =
        (ChildAnswer.applied u (m'.adjust u f).1).about uid := by
  refine ⟨h.modify u (fun c core trusted => congrArg Prod.snd (hf c core trusted)) htrusted, ?_⟩
  show (none, if u = uid then some (m.adjust u f).1 else none) =
    (none, if u = uid then some (m'.adjust u f).1 else none)
  by_cases hu : u = uid
  · subst hu
    obtain ⟨core, trusted, hchild, -⟩ := h.child
    unfold MultiChildEnforcer.adjust
    dsimp only
    rw [hchild]
    cases m.children u with
    | none => rfl
    | some c => rw [Option.map_some, Option.map_some, Option.map_some, hf]
  · rw [if_neg hu, if_neg hu]

theorem Resumed.adjustExtension (h : Resumed uid ticked m m') (u : UInt32)
    (f : ExtensionLedger → Bool × ExtensionLedger) :
    Resumed uid ticked (m.adjust u (·.adjustExtension f)).2 (m'.adjust u (·.adjustExtension f)).2 ∧
      (ChildAnswer.applied u (m.adjust u (·.adjustExtension f)).1).about uid =
        (ChildAnswer.applied u (m'.adjust u (·.adjustExtension f)).1).about uid :=
  h.adjust u (fun _ _ _ => rfl) fun _ => rfl

/-- **Step lemma.** -/
theorem Resumed.step (h : Resumed uid ticked m m') (deviceTz : String) (op : ChildOp) :
    Resumed uid (ticked ∨ op.IsTick) (m.step cal deviceTz op).1 (m'.step cal deviceTz op).1 ∧
      (m.step cal deviceTz op).2.about uid = (m'.step cal deviceTz op).2.about uid := by
  have hweaken : ∀ {n n' : MultiChildEnforcer}, ¬op.IsTick → Resumed uid ticked n n' →
      Resumed uid (ticked ∨ op.IsTick) n n' := by
    intro n n' hop hn
    rwa [or_iff_left hop]
  cases op with
  | sync configs now restore =>
    refine ⟨hweaken id ⟨?_, ?_⟩, rfl⟩
    · show Retouched ticked ((m.sync cal deviceTz configs now restore).children uid)
        ((m'.sync cal deviceTz configs now restore).children uid)
      rw [sync_children, sync_children]
      split
      · exact h.child.sync deviceTz now (restore uid) _
      · exact Retouched.refl _
    · show (m.sync cal deviceTz configs now restore).clockTrusted =
        (m'.sync cal deviceTz configs now restore).clockTrusted
      rw [sync_clockTrusted, sync_clockTrusted, h.clockTrusted]
  | tick activeUid fg t =>
    have htick := h.child.tick cal m.clockTrusted uid
      (if some uid = activeUid then some fg else none) t
    obtain ⟨hchild, hverdict⟩ := htick
    refine ⟨⟨?_, h.clockTrusted⟩, ?_⟩
    · show Retouched _ ((m.tick cal activeUid fg t).1.children uid)
        ((m'.tick cal activeUid fg t).1.children uid)
      rw [tick_children, tick_children, ← h.clockTrusted]
      obtain ⟨core, trusted, hmap, hticked⟩ := hchild
      exact ⟨core, trusted, hmap, fun _ => hticked trivial⟩
    · show (((m.tick cal activeUid fg t).2 uid).map ChildDecision.verdict, none) =
        (((m'.tick cal activeUid fg t).2 uid).map ChildDecision.verdict, none)
      rw [tick_decisions, tick_decisions, ← h.clockTrusted, Option.map_map, Option.map_map]
      exact congrArg (·, none) hverdict
  | setClockTrusted trusted => exact ⟨hweaken id ⟨h.child, rfl⟩, rfl⟩
  | applyExtension u now reqId minutes dim =>
    obtain ⟨hnext, hanswer⟩ := h.adjust u
      (f := fun c => c.applyExtension cal now reqId minutes dim) (fun _ _ _ => rfl) fun _ => rfl
    exact ⟨hweaken id hnext, hanswer⟩
  | deductExtension u | applyBucketExtension u | applyTimeExtension u =>
    exact ⟨hweaken id (h.adjustExtension u _).1, (h.adjustExtension u _).2⟩
  | burnTimePool | setConsolidated | setStandDown | setBucketsPolicy | setUsageUnsaved =>
    exact ⟨hweaken id (h.modify _ (fun _ _ _ => rfl) fun _ => rfl), rfl⟩

/-- **Run lemma.** -/
theorem Resumed.final (h : Resumed uid ticked m m') (deviceTz : String) (ops : List ChildOp) :
    Resumed uid (ticked ∨ ∃ op ∈ ops, op.IsTick)
      (Lockstep.final (MultiChildEnforcer.step cal deviceTz) m ops)
      (Lockstep.final (MultiChildEnforcer.step cal deviceTz) m' ops) := by
  induction ops generalizing m m' ticked with
  | nil => simpa [Lockstep.final] using h
  | cons op ops ih =>
    have hticks : (∃ o ∈ op :: ops, o.IsTick) ↔ op.IsTick ∨ ∃ o ∈ ops, o.IsTick := by simp
    rw [hticks, ← or_assoc]
    exact ih (h.step deviceTz op).1

theorem Resumed.outputs (h : Resumed uid ticked m m') (deviceTz : String) (ops : List ChildOp) :
    (Lockstep.outputs (MultiChildEnforcer.step cal deviceTz) m ops).map (ChildAnswer.about uid) =
      (Lockstep.outputs (MultiChildEnforcer.step cal deviceTz) m' ops).map (ChildAnswer.about uid) := by
  have hout : List.Forall₂ (fun a a' => a.about uid = a'.about uid)
      (Lockstep.outputs (MultiChildEnforcer.step cal deviceTz) m ops)
      (Lockstep.outputs (MultiChildEnforcer.step cal deviceTz) m' ops) := by
    refine Lockstep.outputs_related (R := Resumed uid False) ?_ (?_ : Resumed uid False m m')
      (List.forall₂_same.mpr fun _ _ => rfl)
    · rintro n n' op _ hn rfl
      obtain ⟨hnext, hanswer⟩ := hn.step deviceTz op
      exact ⟨hnext.weaken, hanswer⟩
    · exact h.weaken
  rw [← List.forall₂_eq_eq_eq, List.forall₂_map_left_iff, List.forall₂_map_right_iff]
  exact hout

/-! ## What the loop sets -/

/-- What the loop sets of one child before a tick. -/
def refreshOne (v : LoopInputs) (m : MultiChildEnforcer) (uid : UInt32) : MultiChildEnforcer :=
  (((m.setConsolidated uid (v.consolidated uid)).setStandDown uid (v.standDown uid)).setBucketsPolicy
    uid (v.buckets uid).1 (v.buckets uid).2).setUsageUnsaved uid (v.unsaved uid)

/-- What the loop sets before a tick, of every child that it has synced. -/
def refresh (v : LoopInputs) (uids : List UInt32) (m : MultiChildEnforcer) : MultiChildEnforcer :=
  uids.foldl (refreshOne v) (m.setClockTrusted v.clockTrusted)

theorem refreshOne_children (v : LoopInputs) (u uid : UInt32) :
    (refreshOne v m u).children uid =
      if uid = u then (m.children uid).map (·.loopSet v u) else m.children uid := by
  unfold refreshOne setUsageUnsaved setBucketsPolicy setStandDown setConsolidated
    MultiChildEnforcer.modify
  dsimp only
  split
  · rw [Option.map_map, Option.map_map, Option.map_map]
    rfl
  · rfl

theorem refresh_children (v : LoopInputs) (uids : List UInt32) :
    (m.refresh v uids).children uid =
      if uid ∈ uids then (m.children uid).map (·.loopSet v uid) else m.children uid := by
  have hfold : ∀ n : MultiChildEnforcer, (uids.foldl (refreshOne v) n).children uid =
      if uid ∈ uids then (n.children uid).map (·.loopSet v uid) else n.children uid := by
    induction uids with
    | nil => exact fun _ => rfl
    | cons u uids ih =>
      intro n
      rw [List.foldl_cons, ih, refreshOne_children]
      by_cases hu : uid = u
      · subst hu
        rw [if_pos rfl, if_pos List.mem_cons_self, Option.map_map]
        split <;> rfl
      · simp only [List.mem_cons, hu, if_false, false_or]
  exact hfold _

theorem refresh_clockTrusted (v : LoopInputs) (uids : List UInt32) :
    (m.refresh v uids).clockTrusted = v.clockTrusted := by
  have hfold : ∀ n : MultiChildEnforcer,
      (uids.foldl (refreshOne v) n).clockTrusted = n.clockTrusted := by
    induction uids with
    | nil => exact fun _ => rfl
    | cons u uids ih => exact fun _ => ih _
  exact hfold _

/-! ## A child made again -/

/-- What a child is seeded with: its snapshots, or whatever a new child is seeded with. -/
def seed (m : MultiChildEnforcer) (restore : Restore) : Restore := fun uid =>
  ((m.snapshots uid).map fun snap => (some snap.1, some snap.2)).getD (restore uid)

theorem seed_of_tracked {c : ChildEnforcer} (restore : Restore) (h : m.children uid = some c) :
    m.seed restore uid = (some c.usage.restored, some c.extension.restored) := by
  unfold seed snapshots
  rw [h]
  rfl

theorem seed_of_untracked (restore : Restore) (h : m.children uid = none) :
    m.seed restore uid = restore uid := by
  unfold seed snapshots
  rw [h]
  rfl

variable (m m') in
/-- **A child that is gone and comes back from its snapshots is the child that stayed**, once
the loop has set what it sets. -/
theorem resumed_sync (cal : Calendar) (deviceTz : String)
    (configs : List (UInt32 × EffectivePolicy)) (now : Int) (restore : Restore) (v : LoopInputs)
    (hgone : m'.children uid = none) :
    Resumed uid False ((m.sync cal deviceTz configs now restore).refresh v (configs.map Prod.fst))
      ((m'.sync cal deviceTz configs now (m.seed restore)).refresh v (configs.map Prod.fst)) := by
  refine ⟨?_, by rw [refresh_clockTrusted, refresh_clockTrusted]⟩
  rw [refresh_children, refresh_children, sync_children, sync_children, hgone, ite_self]
  by_cases hmem : uid ∈ configs.map Prod.fst
  · rw [if_pos hmem, if_pos hmem, if_pos hmem]
    cases hc : m.children uid with
    | none =>
      rw [seed_of_untracked restore hc]
      exact .refl _
    | some c =>
      -- the first of the child's entries makes it, the others set its policy
      obtain ⟨e, entries, hentries⟩ : ∃ e entries, configs.filter (·.1 = uid) = e :: entries := by
        obtain ⟨e, he, heq⟩ := List.mem_map.mp hmem
        exact List.exists_cons_of_ne_nil
          (List.ne_nil_of_mem (List.mem_filter.mpr ⟨he, decide_eq_true heq⟩))
      have hfirst : (ChildEnforcer.synced cal deviceTz now (restore uid) e.2 (some c)).Seeded
          (ChildEnforcer.synced cal deviceTz now (m.seed restore uid) e.2 none) := by
        rw [seed_of_tracked restore hc]
        refine ChildEnforcer.seeded_relimit ?_ ?_ e.2 <;> rfl
      obtain ⟨d, d', hseeded, hd, hd'⟩ := hfirst.sync cal deviceTz now (restore uid)
        (m.seed restore uid) entries
      simp only [hentries, List.foldl_cons, hd, hd', Option.map_some]
      exact ⟨d'.core, d'.usage.clockTrusted, congrArg some (hseeded.loopSet v uid), False.elim⟩
  · rw [if_neg hmem, if_neg hmem, if_neg hmem, filter_of_notMem hmem]
    exact .refl _

/-- A child that is gone stays away until a sync names it. -/
theorem children_final_of_leavesOut (deviceTz : String) (hgone : m.children uid = none)
    {ops : List ChildOp} (hops : ∀ op ∈ ops, op.LeavesOut uid) :
    (Lockstep.final (step cal deviceTz) m ops).children uid = none := by
  have hmodify : ∀ (m : MultiChildEnforcer) u f, m.children uid = none →
      (m.modify u f).children uid = none := by
    intro m u f hm
    unfold MultiChildEnforcer.modify
    dsimp only
    rw [hm, Option.map_none, ite_self]
  induction ops generalizing m with
  | nil => exact hgone
  | cons op ops ih =>
    refine ih ?_ fun o ho => hops o (List.mem_cons_of_mem _ ho)
    have hop := hops op List.mem_cons_self
    cases op with
    | sync configs now restore => exact sync_children_of_notMem cal m deviceTz now restore hop
    | tick activeUid fg t => exact (m.tick_children cal activeUid fg t uid).trans (by rw [hgone]; rfl)
    | setClockTrusted => exact hgone
    | applyExtension | deductExtension | applyBucketExtension | applyTimeExtension
    | burnTimePool | setConsolidated | setStandDown | setBucketsPolicy | setUsageUnsaved =>
      exact hmodify m _ _ hgone

/-- For one child, an enforcer goes on as another would have: it answers every run alike, and
keeps the same ledgers; and from the first tick on, and before it while nothing is pooled, the
same remains. -/
structure GoesOnAs (cal : Calendar) (deviceTz : String) (uid : UInt32)
    (m m' : MultiChildEnforcer) : Prop where
  answers : ∀ ops, (Lockstep.outputs (step cal deviceTz) m ops).map (ChildAnswer.about uid) =
    (Lockstep.outputs (step cal deviceTz) m' ops).map (ChildAnswer.about uid)
  ledgers : ∀ ops, (Lockstep.final (step cal deviceTz) m ops).snapshots uid =
    (Lockstep.final (step cal deviceTz) m' ops).snapshots uid
  remaining : ∀ ops now,
    ((∃ op ∈ ops, op.IsTick) ∨ ∀ c,
      (Lockstep.final (step cal deviceTz) m ops).children uid = some c → c.consolidated = none) →
    (Lockstep.final (step cal deviceTz) m ops).remaining cal uid now =
      (Lockstep.final (step cal deviceTz) m' ops).remaining cal uid now

theorem Resumed.goesOnAs (h : Resumed uid False m m') (deviceTz : String) :
    GoesOnAs cal deviceTz uid m m' := by
  refine ⟨h.outputs deviceTz, fun ops => (h.final deviceTz ops).child.snapshots,
    fun ops now hquery => (h.final deviceTz ops).child.remaining now ?_⟩
  exact hquery.imp_left Or.inr

/-- **Restart durability.**  A fresh enforcer that is synced from the snapshots, and one that
left a child out and takes it back from its snapshots, go on as the enforcer that was synced
with the same clauses, once the loop has set alike what it sets before every tick. -/
theorem restart_durable (cal : Calendar) (deviceTz : String) (m : MultiChildEnforcer)
    (configs : List (UInt32 × EffectivePolicy)) (now : Int) (restore : Restore) (v : LoopInputs) :
    let kept := (m.sync cal deviceTz configs now restore).refresh v (configs.map Prod.fst)
    (∀ uid, GoesOnAs cal deviceTz uid kept
      ((new.sync cal deviceTz configs now (m.seed restore)).refresh v (configs.map Prod.fst))) ∧
    ∀ uid configs' now' restore' gap, uid ∉ configs'.map Prod.fst →
      (∀ op ∈ gap, ChildOp.LeavesOut uid op) →
      GoesOnAs cal deviceTz uid kept
        (((Lockstep.final (step cal deviceTz) (m.sync cal deviceTz configs' now' restore')
          gap).sync cal deviceTz configs now (m.seed restore)).refresh v (configs.map Prod.fst)) := by
  refine ⟨fun uid => ?_, fun uid configs' now' restore' gap hout hgap => ?_⟩
  · exact (resumed_sync m new cal deviceTz configs now restore v rfl).goesOnAs deviceTz
  · have hgone := sync_children_of_notMem cal m deviceTz now' restore' hout
    exact (resumed_sync m _ cal deviceTz configs now restore v
      (children_final_of_leavesOut deviceTz hgone hgap)).goesOnAs deviceTz

/-- A child under no clause that has been called in. -/
def calledIn : MultiChildEnforcer :=
  (new.sync UsageLedger.utcCalendar "UTC" [(1, ⟨none, none, none, .guardian⟩)] 1782734400
    fun _ => (none, none)).setStandDown 1 (some ⟨0⟩)

/-- A restart, and a sync that leaves the child out for a tick. -/
theorem restart_durable_calledIn :
    let configs : List (UInt32 × EffectivePolicy) := [(1, ⟨none, none, none, .guardian⟩)]
    let v : LoopInputs := ⟨true, fun _ => none, fun _ => some ⟨0⟩, fun _ => (none, none),
      fun _ => false⟩
    let kept := (calledIn.sync UsageLedger.utcCalendar "UTC" configs 1782734460
      fun _ => (none, none)).refresh v [1]
    GoesOnAs UsageLedger.utcCalendar "UTC" 1 kept
        ((new.sync UsageLedger.utcCalendar "UTC" configs 1782734460
          (calledIn.seed fun _ => (none, none))).refresh v [1]) ∧
      GoesOnAs UsageLedger.utcCalendar "UTC" 1 kept
        (((Lockstep.final (step UsageLedger.utcCalendar "UTC")
          (calledIn.sync UsageLedger.utcCalendar "UTC" [] 1782734430 fun _ => (none, none))
          [.tick (some 1) ⟨.active, .screen, none, false⟩ ⟨1782734430, 30⟩]).sync
            UsageLedger.utcCalendar "UTC" configs 1782734460
            (calledIn.seed fun _ => (none, none))).refresh v [1]) := by
  intro configs v kept
  have h := restart_durable UsageLedger.utcCalendar "UTC" calledIn configs 1782734460
    (fun _ => (none, none)) v
  refine ⟨h.1 1, h.2 1 [] 1782734430 (fun _ => (none, none)) _ (by decide) ?_⟩
  intro op hop
  rw [List.mem_singleton.mp hop]
  trivial

/-- **What no snapshot holds.**  Before the loop has said it again, a child that was called in
is free after the restart. -/
theorem restart_exceptions :
    let configs : List (UInt32 × EffectivePolicy) := [(1, ⟨none, none, none, .guardian⟩)]
    (((calledIn.sync UsageLedger.utcCalendar "UTC" configs 1782734460 fun _ => (none, none)).remaining
        UsageLedger.utcCalendar 1 1782734460).map (·.locked)) = some true ∧
      (((new.sync UsageLedger.utcCalendar "UTC" configs 1782734460
        (calledIn.seed fun _ => (none, none))).remaining UsageLedger.utcCalendar 1
          1782734460).map (·.locked)) = some false := by
  decide +kernel

end MultiChildEnforcer
end Kintrinsic
