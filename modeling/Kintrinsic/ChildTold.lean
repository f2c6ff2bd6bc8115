import Kintrinsic.EffectRun
import Kintrinsic.MultiChild

/-! # What a child was told

The loop gives the enforcer each child's policy and stand-down anew; the enforcer holds what it was
told last, with the policy's zone resolved, over every step of a run. -/
namespace Kintrinsic

/-! ## What the loop last told the enforcer of a child -/

/-- A child's policy and stand-down. -/
structure Told where
  policy : EffectivePolicy
  standDown : Option StandDown

/-- The last entry of a sync is in force; a sync that does not name the child drops it. -/
def Told.after (uid : UInt32) (t : Option Told) : ChildOp → Option Told
  | .sync configs _ _ =>
    ((configs.filter (·.1 = uid)).getLast?).map fun config => ⟨config.2, t.bind (·.standDown)⟩
  | .setStandDown u sd => if u = uid then t.map fun t => { t with standDown := sd } else t
  | _ => t

def told (uid : UInt32) (ops : List ChildOp) : Option Told := ops.foldl (Told.after uid) none

/-- A child's state is what it was told: the policy with its zone resolved, the stand-down, and a
stand-in that no pool lifts. -/
structure ChildEnforcer.Follows (t : Told) (c : ChildEnforcer) : Prop where
  policy : ∃ tz, c.schedule = (withResolvedTz t.policy tz).schedule ∧
    c.budget = (withResolvedTz t.policy tz).budget
  standDown : c.standDown = t.standDown
  standIn : ∀ b ∈ c.unsavedBudget, b.Spent

/-- A tracked child follows, and only a tracked one was told. -/
def FollowsAt (t : Option Told) (c : Option ChildEnforcer) : Prop :=
  Option.Rel ChildEnforcer.Follows t c

namespace ChildEnforcer
variable {cal : Calendar} {c c' : ChildEnforcer} {t : Told}

theorem Follows.of_eq (h : c.Follows t) (hschedule : c'.schedule = c.schedule)
    (hbudget : c'.budget = c.budget) (hstand : c'.standDown = c.standDown)
    (hunsaved : c'.unsavedBudget = c.unsavedBudget) : c'.Follows t where
  policy := by
    rw [hschedule, hbudget]
    exact h.policy
  standDown := hstand.trans h.standDown
  standIn := by
    rw [hunsaved]
    exact h.standIn

theorem Follows.setStandDown (h : c.Follows t) (sd : Option StandDown) :
    { c with standDown := sd }.Follows { t with standDown := sd } :=
  ⟨h.policy, rfl, h.standIn⟩

theorem Follows.setUsageUnsaved (h : c.Follows t) (unsaved : Bool) :
    { c with unsavedBudget :=
      if unsaved && c.budget.isSome then some (failSafeBudget c.tz) else none }.Follows t where
  policy := h.policy
  standDown := h.standDown
  standIn := by
    intro b hb
    dsimp only at hb
    split at hb
    · cases hb
      exact failSafeBudget_spent c.tz
    · cases hb

theorem Follows.adjustExtension (h : c.Follows t) (f : ExtensionLedger → Bool × ExtensionLedger) :
    (c.adjustExtension f).2.Follows t := h.of_eq rfl rfl rfl rfl

theorem Follows.tick (h : c.Follows t) (clockTrusted : Bool) (uid : UInt32)
    (fg : Option Foreground) (clock : TickClock) :
    (c.tick cal clockTrusted uid fg clock).1.Follows t := by
  cases fg with
  | none => exact h.of_eq rfl rfl rfl rfl
  | some fg => exact h.of_eq rfl rfl rfl rfl

/-- What a sync keeps of a child that may be there: its stand-down and its stand-in. -/
structure Keeps (sd : Option StandDown) (was : Option ChildEnforcer) : Prop where
  standDown : was.bind (·.standDown) = sd
  standIn : ∀ c ∈ was, ∀ b ∈ c.unsavedBudget, b.Spent

theorem Follows.keeps (h : c.Follows t) : Keeps t.standDown (some c) where
  standDown := h.standDown
  standIn := by
    rintro c' ⟨⟩
    exact h.standIn

/-- A synced child is under the policy, and keeps its stand-down if it was there. -/
theorem Keeps.synced {sd : Option StandDown} {was : Option ChildEnforcer} (h : Keeps sd was)
    (deviceTz : String) (now : Int) (snap : Option UsageLedger × Option ExtensionLedger)
    (policy : EffectivePolicy) :
    (synced cal deviceTz now snap policy was).Follows ⟨policy, sd⟩ := by
  obtain ⟨rfl, hin⟩ := h
  cases was with
  | none => exact ⟨⟨_, rfl, rfl⟩, rfl, nofun⟩
  | some c => exact ⟨⟨_, rfl, rfl⟩, rfl, hin c rfl⟩

end ChildEnforcer

namespace MultiChildEnforcer
variable {cal : Calendar} {m : MultiChildEnforcer} {uid : UInt32} {t : Option Told}

theorem followsAt_modify (h : FollowsAt t (m.children uid)) (u : UInt32)
    {f : ChildEnforcer → ChildEnforcer} (hf : ∀ c t, c.Follows t → (f c).Follows t) :
    FollowsAt t ((m.modify u f).children uid) := by
  unfold MultiChildEnforcer.modify
  dsimp only
  split
  · cases hchild : m.children uid with
    | none =>
      rw [hchild] at h
      exact h
    | some c =>
      rw [hchild] at h
      obtain ⟨hchild⟩ := h
      exact .some (hf _ _ hchild)
  · exact h

/-- An adjustment of the extension ledger. -/
theorem followsAt_adjust (h : FollowsAt t (m.children uid)) (u : UInt32)
    (f : ChildEnforcer → ExtensionLedger → Bool × ExtensionLedger) :
    FollowsAt t ((m.adjust u fun c => c.adjustExtension (f c)).2.children uid) :=
  followsAt_modify h u fun c _ hc => hc.adjustExtension (f c)

/-- The entries of a sync that name the child, one after the other. -/
theorem followsAt_syncs (deviceTz : String) (now : Int) (restore : Restore)
    (config : UInt32 × EffectivePolicy) (configs : List (UInt32 × EffectivePolicy))
    {was : Option ChildEnforcer} {sd : Option StandDown} (h : ChildEnforcer.Keeps sd was) :
    FollowsAt (((config :: configs).getLast?).map fun config => ⟨config.2, sd⟩)
      ((config :: configs).foldl
        (fun c config => some (ChildEnforcer.synced cal deviceTz now (restore uid) config.2 c))
        was) := by
  have hfollows : (ChildEnforcer.synced cal deviceTz now (restore uid) config.2 was).Follows
      ⟨config.2, sd⟩ := h.synced deviceTz now (restore uid) config.2
  induction configs generalizing config was with
  | nil => exact .some hfollows
  | cons next rest ih =>
    rw [List.foldl_cons, List.getLast?_cons_cons]
    exact ih next hfollows.keeps (hfollows.keeps.synced deviceTz now (restore uid) next.2)

theorem FollowsAt.keeps (h : FollowsAt t (m.children uid)) :
    ChildEnforcer.Keeps (t.bind (·.standDown)) (m.children uid) := by
  cases hchild : m.children uid with
  | none =>
    rw [hchild] at h
    cases h
    exact ⟨rfl, fun c hc => absurd hc (Option.not_mem_none c)⟩
  | some c =>
    rw [hchild] at h
    cases h with
    | some hc => exact hc.keeps

theorem followsAt_sync (h : FollowsAt t (m.children uid)) (deviceTz : String)
    (configs : List (UInt32 × EffectivePolicy)) (now : Int) (restore : Restore) :
    FollowsAt (Told.after uid t (.sync configs now restore))
      ((m.sync cal deviceTz configs now restore).children uid) := by
  rw [sync_children]
  unfold Told.after
  dsimp only
  cases hnamed : configs.filter (·.1 = uid) with
  | nil =>
    have hnot : uid ∉ configs.map Prod.fst := by
      intro hmem
      obtain ⟨config, hconfig, huid⟩ := List.mem_map.mp hmem
      exact List.filter_eq_nil_iff.mp hnamed config hconfig (decide_eq_true huid)
    rw [if_neg hnot]
    exact .none
  | cons config rest =>
    have hmem : uid ∈ configs.map Prod.fst := by
      have hconfig := List.mem_filter.mp (hnamed ▸ List.mem_cons_self : config ∈ configs.filter _)
      exact List.mem_map.mpr ⟨config, hconfig.1, of_decide_eq_true hconfig.2⟩
    rw [if_pos hmem]
    exact followsAt_syncs deviceTz now restore config rest (FollowsAt.keeps h)

/-- **One step tells a child what it follows.** -/
theorem followsAt_step (h : FollowsAt t (m.children uid)) (deviceTz : String) (op : ChildOp) :
    FollowsAt (Told.after uid t op) ((m.step cal deviceTz op).1.children uid) := by
  cases op with
  | sync configs now restore => exact followsAt_sync h deviceTz configs now restore
  | tick activeUid fg clock =>
    show FollowsAt t ((m.tick cal activeUid fg clock).1.children uid)
    rw [tick_children]
    cases hchild : m.children uid with
    | none =>
      rw [hchild] at h
      exact h
    | some c =>
      rw [hchild] at h
      cases h with
      | some hc => exact .some (hc.tick _ _ _ _)
  | applyExtension u now reqId minutes dim => exact followsAt_adjust h u _
  | deductExtension u now reqId minutes dim => exact followsAt_adjust h u _
  | applyBucketExtension u now reqId minutes bucketId => exact followsAt_adjust h u _
  | applyTimeExtension u now reqId minutes timeId => exact followsAt_adjust h u _
  | burnTimePool u now timeId elapsed =>
    exact followsAt_modify h u fun _ _ hc => hc.of_eq rfl rfl rfl rfl
  | setClockTrusted trusted => exact h
  | setConsolidated u view => exact followsAt_modify h u fun _ _ hc => hc.of_eq rfl rfl rfl rfl
  | setStandDown u sd =>
    show FollowsAt (if u = uid then _ else t) (if uid = u then _ else _)
    by_cases hu : u = uid
    · rw [if_pos hu, if_pos hu.symm]
      cases hchild : m.children uid with
      | none =>
        rw [hchild] at h
        cases h
        exact .none
      | some c =>
        rw [hchild] at h
        cases h with
        | some hc => exact .some (hc.setStandDown sd)
    · rw [if_neg hu, if_neg (Ne.symm hu)]
      exact h
  | setBucketsPolicy u tz weekStart =>
    exact followsAt_modify h u fun _ _ hc => hc.of_eq rfl rfl rfl rfl
  | setUsageUnsaved u unsaved =>
    exact followsAt_modify h u fun _ _ hc => hc.setUsageUnsaved unsaved

end MultiChildEnforcer

/-- **A tracked child follows what the run told it last.** -/
theorem followsAt_run (cal : Calendar) (deviceTz : String) (uid : UInt32) (ops : List ChildOp) :
    FollowsAt (told uid ops)
      ((Lockstep.final (MultiChildEnforcer.step cal deviceTz) .new ops).children uid) := by
  unfold told Lockstep.final
  induction ops using List.reverseRecOn with
  | nil => exact .none
  | append_singleton ops op ih =>
    rw [List.foldl_append, List.foldl_append]
    exact MultiChildEnforcer.followsAt_step ih deviceTz op

end Kintrinsic
