import Kintrinsic.WireTypes

/-! # The journal of overrides

An audit waits in a file until a relay has taken a wrap of it.  Every call reads the whole file and
writes it again; a file that will not be read is taken for one that is not there.  Tags are never looked
into. -/
namespace Kintrinsic.BreakGlass

/-- `MAX_JITTER_SECS`. -/
def maxJitterSecs : Nat := 2 * 24 * 3600

/-- `REBUILD_AFTER_SECS`. -/
def rebuildAfterSecs : Nat := 24 * 3600

/-- `abs_diff`. -/
def absDiff (a b : Nat) : Nat := a - b + (b - a)

variable {τ : Type}

/-- An audit's tags and, once built, its wrap. -/
structure SpooledAudit (τ : Type) where
  tags : τ
  wrap : Option NostrEvent

/-- An entry as stored; an earlier version stored the tags alone. -/
inductive StoredAudit (τ : Type)
  | entry (e : SpooledAudit τ)
  | legacy (tags : τ)

def StoredAudit.audit : StoredAudit τ → SpooledAudit τ
  | .entry e => e
  | .legacy tags => ⟨tags, none⟩

/-- What the file holds; `none` where it is not there. -/
abbrev Spool (τ : Type) := Option (List (StoredAudit τ))

/-- The audits in the file. -/
def Spool.audits (spool : Spool τ) : List (SpooledAudit τ) := (spool.getD []).map StoredAudit.audit

/-- `entries`, where the file can be read as a journal or cannot. -/
def entries (readable : Bool) (spool : Spool τ) : List (SpooledAudit τ) :=
  if readable then spool.audits else []

/-- `write_entries`: whether it landed, and the file afterwards.  An empty journal is removed. -/
def writeEntries (lands : Bool) (all : List (SpooledAudit τ)) (spool : Spool τ) : Bool × Spool τ :=
  if all.isEmpty then (lands || spool.isNone, if lands then none else spool)
  else (lands, if lands then some (all.map .entry) else spool)

/-- `queue_audit`. -/
def queueAudit (tags : τ) (readable lands : Bool) (spool : Spool τ) : Spool τ :=
  (writeEntries lands (entries readable spool ++ [⟨tags, none⟩]) spool).2

/-- Whether an entry's wrap is to be built. -/
def SpooledAudit.due (e : SpooledAudit τ) (now : Nat) : Bool :=
  e.wrap.all fun w => decide (rebuildAfterSecs < absDiff now w.createdAt)

/-- The loop of `wraps_to_publish`: the entries with their new wraps, and those wraps beside the tags
each was built from.  `build` is given the number of the call. -/
def refresh (now : Nat) (build : Nat → τ → Option NostrEvent) :
    Nat → List (SpooledAudit τ) → List (SpooledAudit τ) × List (τ × NostrEvent)
  | _, [] => ([], [])
  | n, e :: es =>
    if e.due now then
      let rest := refresh now build (n + 1) es
      match build n e.tags with
      | some w => ({ e with wrap := some w } :: rest.1, (e.tags, w) :: rest.2)
      | none => (e :: rest.1, rest.2)
    else
      let rest := refresh now build n es
      (e :: rest.1, rest.2)

/-- What a round of publishing does: the wraps it builds, the ones it offers to the local link, the ones
it hands out, and the file it leaves. -/
structure Round (τ : Type) where
  built : List (τ × NostrEvent)
  offered : List NostrEvent
  handed : List NostrEvent
  spool : Spool τ

/-- `wraps_to_publish`. -/
def wrapsToPublish (now : Nat) (build : Nat → τ → Option NostrEvent) (readable lands : Bool)
    (spool : Spool τ) : Round τ :=
  let r := refresh now build 0 (entries readable spool)
  let written := if r.2.isEmpty then (false, spool) else writeEntries lands r.1 spool
  { built := r.2
    offered := if written.1 then r.2.map Prod.snd else []
    handed := (r.1.filterMap (·.wrap)).filter fun w => absDiff now w.createdAt ≤ maxJitterSecs
    spool := written.2 }

/-- Whether the wrap of an entry is among the ids that were sent. -/
def SpooledAudit.sentIn (e : SpooledAudit τ) (sent : List EventId) : Bool :=
  e.wrap.any fun w => w.id ∈ sent

/-- `mark_sent`. -/
def markSent (sent : List EventId) (readable lands : Bool) (spool : Spool τ) : Spool τ :=
  let all := entries readable spool
  let kept := all.filter fun e => !e.sentIn sent
  if kept.length ≠ all.length then (writeEntries lands kept spool).2 else spool

/-! ## What each call leaves -/

@[simp] theorem audits_none : Spool.audits (none : Spool τ) = [] := rfl

@[simp] theorem audits_entries (all : List (SpooledAudit τ)) :
    Spool.audits (some (all.map StoredAudit.entry)) = all := by
  show (all.map StoredAudit.entry).map StoredAudit.audit = all
  rw [List.map_map]
  exact List.map_id all

/-- A journal that lands is the one that was written; else the file is as it was. -/
theorem audits_write (lands : Bool) (all : List (SpooledAudit τ)) (spool : Spool τ) :
    (writeEntries lands all spool).2.audits = if lands then all else spool.audits := by
  unfold writeEntries
  cases lands with
  | false =>
    cases all <;> rfl
  | true =>
    cases all with
    | nil => rfl
    | cons e es => exact audits_entries (e :: es)

theorem audits_queue (tags : τ) (readable lands : Bool) (spool : Spool τ) :
    (queueAudit tags readable lands spool).audits =
      if lands then entries readable spool ++ [⟨tags, none⟩] else spool.audits :=
  audits_write _ _ _

/-- What is not in the answer was sent; a file that will not be read stays. -/
theorem audits_markSent (sent : List EventId) (readable lands : Bool) (spool : Spool τ) :
    (markSent sent readable lands spool).audits = spool.audits ∨
      (markSent sent readable lands spool).audits = spool.audits.filter fun e => !e.sentIn sent := by
  unfold markSent
  dsimp only
  split
  · rename_i hdropped
    rw [audits_write]
    cases lands with
    | false => exact .inl rfl
    | true =>
      cases readable with
      | false => exact absurd rfl hdropped
      | true => exact .inr rfl
  · exact .inl rfl

/-- The audits stay, in their order. -/
theorem refresh_tags (now : Nat) (build : Nat → τ → Option NostrEvent) (n : Nat)
    (es : List (SpooledAudit τ)) : (refresh now build n es).1.map (·.tags) = es.map (·.tags) := by
  induction es generalizing n with
  | nil => rfl
  | cons e es ih =>
    unfold refresh
    split
    · dsimp only
      cases build n e.tags with
      | some w => exact congrArg (List.cons e.tags) (ih (n + 1))
      | none => exact congrArg (List.cons e.tags) (ih (n + 1))
    · exact congrArg (List.cons e.tags) (ih n)

/-- No audit is built for twice in a round. -/
theorem refresh_built_sublist (now : Nat) (build : Nat → τ → Option NostrEvent) (n : Nat)
    (es : List (SpooledAudit τ)) :
    ((refresh now build n es).2.map Prod.fst).Sublist (es.map (·.tags)) := by
  induction es generalizing n with
  | nil => exact .slnil
  | cons e es ih =>
    unfold refresh
    split
    · dsimp only
      cases build n e.tags with
      | some w => exact (ih (n + 1)).cons_cons e.tags
      | none => exact (ih (n + 1)).cons e.tags
    · exact (ih n).cons e.tags

/-- An entry of the round is an old one, or has a wrap that was built from its tags. -/
theorem mem_refresh {now : Nat} {build : Nat → τ → Option NostrEvent} {n : Nat}
    {es : List (SpooledAudit τ)} {e : SpooledAudit τ} (h : e ∈ (refresh now build n es).1) :
    e ∈ es ∨ ∃ w, e.wrap = some w ∧ (e.tags, w) ∈ (refresh now build n es).2 := by
  induction es generalizing n with
  | nil => exact nomatch h
  | cons a es ih =>
    unfold refresh at h ⊢
    split at h
    · rename_i hdue
      rw [if_pos hdue]
      dsimp only at h ⊢
      cases hbuild : build n a.tags with
      | some w =>
        rw [hbuild] at h
        rcases List.mem_cons.mp h with rfl | h
        · exact .inr ⟨w, rfl, List.mem_cons_self⟩
        · rcases ih h with hold | ⟨w', hw, hmem⟩
          · exact .inl (List.mem_cons_of_mem _ hold)
          · exact .inr ⟨w', hw, List.mem_cons_of_mem _ hmem⟩
      | none =>
        rw [hbuild] at h
        rcases List.mem_cons.mp h with rfl | h
        · exact .inl List.mem_cons_self
        · exact (ih h).imp_left (List.mem_cons_of_mem _)
    · rename_i hdue
      rw [if_neg hdue]
      rcases List.mem_cons.mp h with rfl | h
      · exact .inl List.mem_cons_self
      · exact (ih h).imp_left (List.mem_cons_of_mem _)

/-- A round that builds nothing changes nothing. -/
theorem refresh_of_built_nil {now : Nat} {build : Nat → τ → Option NostrEvent} {n : Nat}
    {es : List (SpooledAudit τ)} (h : (refresh now build n es).2 = []) :
    (refresh now build n es).1 = es := by
  induction es generalizing n with
  | nil => rfl
  | cons e es ih =>
    unfold refresh at h ⊢
    split at h
    · rename_i hdue
      rw [if_pos hdue]
      dsimp only at h ⊢
      cases hbuild : build n e.tags with
      | some w =>
        rw [hbuild] at h
        exact nomatch h
      | none =>
        rw [hbuild] at h
        exact congrArg (List.cons e) (ih h)
    · rename_i hdue
      rw [if_neg hdue]
      exact congrArg (List.cons e) (ih h)

/-- Each wrap that was built is the wrap of an entry that was due. -/
theorem refresh_built {now : Nat} {build : Nat → τ → Option NostrEvent} {n : Nat}
    {es : List (SpooledAudit τ)} {t : τ} {w : NostrEvent} (h : (t, w) ∈ (refresh now build n es).2) :
    ∃ e ∈ es, e.tags = t ∧ e.due now = true ∧ (∃ m, build m t = some w) ∧
      ⟨t, some w⟩ ∈ (refresh now build n es).1 := by
  induction es generalizing n with
  | nil => exact nomatch h
  | cons e es ih =>
    unfold refresh at h ⊢
    split at h
    · rename_i hdue
      rw [if_pos hdue]
      dsimp only at h ⊢
      cases hbuild : build n e.tags with
      | some w' =>
        rw [hbuild] at h
        rcases List.mem_cons.mp h with heq | h
        · cases heq
          exact ⟨e, List.mem_cons_self, rfl, hdue, ⟨n, hbuild⟩, List.mem_cons_self⟩
        · obtain ⟨e', he', ht, hd, hm, hmem⟩ := ih h
          exact ⟨e', List.mem_cons_of_mem _ he', ht, hd, hm, List.mem_cons_of_mem _ hmem⟩
      | none =>
        rw [hbuild] at h
        obtain ⟨e', he', ht, hd, hm, hmem⟩ := ih h
        exact ⟨e', List.mem_cons_of_mem _ he', ht, hd, hm, List.mem_cons_of_mem _ hmem⟩
    · rename_i hdue
      rw [if_neg hdue]
      obtain ⟨e', he', ht, hd, hm, hmem⟩ := ih h
      exact ⟨e', List.mem_cons_of_mem _ he', ht, hd, hm, List.mem_cons_of_mem _ hmem⟩

section
variable (now : Nat) (build : Nat → τ → Option NostrEvent) (readable lands : Bool) (spool : Spool τ)

/-- A round whose journal does not land, or that builds nothing, leaves the file as it was. -/
theorem audits_publish : (wrapsToPublish now build readable lands spool).spool.audits =
    if lands then (if readable then (refresh now build 0 spool.audits).1 else spool.audits)
    else spool.audits := by
  unfold wrapsToPublish
  dsimp only
  split
  · rename_i hnone
    cases lands with
    | false => rfl
    | true =>
      cases readable with
      | false => rfl
      | true =>
        exact (refresh_of_built_nil (List.isEmpty_iff.mp hnone)).symm
  · rename_i hbuilt
    rw [audits_write]
    cases readable with
    | false => exact absurd rfl hbuilt
    | true => rfl

/-- What is offered is in the file. -/
theorem offered_journaled {w : NostrEvent}
    (h : w ∈ (wrapsToPublish now build readable lands spool).offered) :
    ∃ e ∈ (wrapsToPublish now build readable lands spool).spool.audits, e.wrap = some w := by
  have hlanded : lands = true ∧ w ∈ (refresh now build 0 (entries readable spool)).2.map Prod.snd := by
    unfold wrapsToPublish at h
    dsimp only at h
    split at h
    · exact nomatch h
    · rename_i hbuilt
      have hsome : (refresh now build 0 (entries readable spool)).1.isEmpty = false := by
        rw [Bool.eq_false_iff]
        intro hempty
        have hnil : (entries readable spool).map (·.tags) = [] := by
          rw [← refresh_tags now build 0, List.isEmpty_iff.mp hempty, List.map_nil]
        rw [List.map_eq_nil_iff.mp hnil] at hbuilt
        exact hbuilt rfl
      unfold writeEntries at h
      rw [hsome] at h
      cases lands with
      | false => exact nomatch h
      | true => exact ⟨rfl, h⟩
  obtain ⟨rfl, hw⟩ := hlanded
  obtain ⟨⟨t, w'⟩, hbuilt, rfl⟩ := List.mem_map.mp hw
  obtain ⟨-, -, -, -, -, hmem⟩ := refresh_built hbuilt
  cases readable with
  | false => exact nomatch hbuilt
  | true =>
    rw [audits_publish]
    exact ⟨_, hmem, rfl⟩

/-- What is handed out is dated within two days. -/
theorem handed_fresh {w : NostrEvent}
    (h : w ∈ (wrapsToPublish now build readable lands spool).handed) :
    absDiff now w.createdAt ≤ maxJitterSecs :=
  of_decide_eq_true (List.mem_filter.mp h).2

end

end Kintrinsic.BreakGlass
