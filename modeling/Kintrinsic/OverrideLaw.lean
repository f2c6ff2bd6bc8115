import Kintrinsic.AuditSpool
import Kintrinsic.EffectRun
import Mathlib.Data.List.Nodup

/-! # Every override is told

The audits are followed by numbers that the code does not see.  An audit leaves the journal when a wrap
that was built from it has been reported sent, and otherwise only by the queueing of another: that call
writes a journal of its own audit alone where the file would not be read. -/
namespace Kintrinsic.BreakGlass

open GuardedRun EffectRun

/-! ## Numbered audits -/

section
variable {τ υ : Type} (f : τ → υ)

def SpooledAudit.map (e : SpooledAudit τ) : SpooledAudit υ := ⟨f e.tags, e.wrap⟩

def StoredAudit.map : StoredAudit τ → StoredAudit υ
  | .entry e => .entry (e.map f)
  | .legacy tags => .legacy (f tags)

def Spool.map (spool : Spool τ) : Spool υ := Option.map (List.map (StoredAudit.map f)) spool

theorem entries_map (readable : Bool) (spool : Spool τ) :
    entries readable (spool.map f) = (entries readable spool).map (SpooledAudit.map f) := by
  have haudit : ∀ s : StoredAudit τ, (s.map f).audit = s.audit.map f := by
    intro s
    cases s <;> rfl
  cases readable with
  | false => rfl
  | true =>
    cases spool with
    | none => rfl
    | some stored =>
      show (stored.map (StoredAudit.map f)).map StoredAudit.audit =
        (stored.map StoredAudit.audit).map (SpooledAudit.map f)
      rw [List.map_map, List.map_map]
      exact List.map_congr_left fun s _ => haudit s

theorem writeEntries_map (lands : Bool) (all : List (SpooledAudit τ)) (spool : Spool τ) :
    writeEntries lands (all.map (SpooledAudit.map f)) (spool.map f) =
      ((writeEntries lands all spool).1, (writeEntries lands all spool).2.map f) := by
  unfold writeEntries
  rw [List.isEmpty_map]
  cases lands <;> cases all <;> cases spool <;> simp [Spool.map, StoredAudit.map]

theorem refresh_map (now : Nat) (build : Nat → υ → Option NostrEvent) (n : Nat)
    (es : List (SpooledAudit τ)) :
    refresh now build n (es.map (SpooledAudit.map f)) =
      ((refresh now (fun n t => build n (f t)) n es).1.map (SpooledAudit.map f),
        (refresh now (fun n t => build n (f t)) n es).2.map (Prod.map f id)) := by
  induction es generalizing n with
  | nil => rfl
  | cons e es ih =>
    rw [List.map_cons]
    unfold refresh
    by_cases hdue : e.due now = true
    · rw [if_pos hdue, if_pos (show (e.map f).due now = true from hdue)]
      dsimp only
      rw [ih]
      have htags : (e.map f).tags = f e.tags := rfl
      rw [htags]
      cases build n (f e.tags) <;> rfl
    · rw [if_neg hdue, if_neg (show ¬(e.map f).due now = true from hdue)]
      dsimp only
      rw [ih]
      rfl

theorem queueAudit_map (t : τ) (readable lands : Bool) (spool : Spool τ) :
    queueAudit (f t) readable lands (spool.map f) = (queueAudit t readable lands spool).map f := by
  have hall : (entries readable spool).map (SpooledAudit.map f) ++ [⟨f t, none⟩] =
      (entries readable spool ++ [(⟨t, none⟩ : SpooledAudit τ)]).map (SpooledAudit.map f) := by
    rw [List.map_append]
    rfl
  unfold queueAudit
  rw [entries_map, hall, writeEntries_map]

theorem wrapsToPublish_map (now : Nat) (build : Nat → υ → Option NostrEvent) (readable lands : Bool)
    (spool : Spool τ) : (wrapsToPublish now build readable lands (spool.map f)).spool =
      (wrapsToPublish now (fun n t => build n (f t)) readable lands spool).spool.map f := by
  unfold wrapsToPublish
  rw [entries_map, refresh_map]
  dsimp only
  rw [List.isEmpty_map]
  split
  · rfl
  · rw [writeEntries_map]

theorem markSent_map (sent : List EventId) (readable lands : Bool) (spool : Spool τ) :
    markSent sent readable lands (spool.map f) = (markSent sent readable lands spool).map f := by
  have hkept : ((entries readable spool).map (SpooledAudit.map f)).filter (fun e => !e.sentIn sent) =
      ((entries readable spool).filter fun e => !e.sentIn sent).map (SpooledAudit.map f) := by
    rw [List.filter_map]
    rfl
  unfold markSent
  dsimp only
  rw [entries_map, hkept, List.length_map, List.length_map, writeEntries_map]
  split <;> rfl

end

/-! ## Moves -/

/-- A call on the journal, with what of its reading and its writing fails.  A builder is given the
number of its call in the round. -/
inductive Move (τ : Type)
  | queue (tags : τ) (readable lands : Bool)
  | publish (now : Nat) (build : Nat → τ → Option NostrEvent) (readable lands : Bool)
  | sent (ids : List EventId) (readable lands : Bool)
  | restart

/-- A wrap is dated at the round it is built in. -/
def dated {τ : Type} (now : Nat) (build : Nat → τ → Option NostrEvent) (n : Nat) (t : τ) :
    Option NostrEvent := (build n t).map fun w => { w with createdAt := now }

/-- The file after a call. -/
def after {τ : Type} (spool : Spool τ) : Move τ → Spool τ
  | .queue tags readable lands => queueAudit tags readable lands spool
  | .publish now build readable lands =>
    (wrapsToPublish now (dated now build) readable lands spool).spool
  | .sent ids readable lands => markSent ids readable lands spool
  | .restart => spool

/-- The journal with its audits numbered as they came. -/
structure Desk (τ : Type) where
  spool : Spool (Nat × τ)
  next : Nat

/-- What can be seen of a call. -/
inductive Effect
  | built (k : Nat) (w : NostrEvent)
  | offered (w : NostrEvent)
  | handed (now : Nat) (w : NostrEvent)
  | reported (id : EventId)

section
variable {τ : Type}

def step (d : Desk τ) : Move τ → Desk τ × List Effect
  | .queue tags readable lands =>
    (⟨queueAudit (d.next, tags) readable lands d.spool, d.next + 1⟩, [])
  | .publish now build readable lands =>
    let r := wrapsToPublish now (dated now fun n a => build n a.2) readable lands d.spool
    (⟨r.spool, d.next⟩, (r.built.map fun b => .built b.1.1 b.2) ++ r.offered.map .offered ++
      r.handed.map (.handed now))
  | .sent ids readable lands =>
    (⟨markSent ids readable lands d.spool, d.next⟩, ids.map .reported)
  | .restart => (d, [])

/-- The journal that an earlier version left behind. -/
def upgraded (old : List τ) : Desk τ :=
  ⟨if old.isEmpty then none else some (old.zipIdx.map fun t => .legacy (t.2, t.1)), old.length⟩

/-- **The numbers are not looked at**: without them the journal is what the calls make of it. -/
theorem step_forget (d : Desk τ) (m : Move τ) :
    (step d m).1.spool.map Prod.snd = after (d.spool.map Prod.snd) m := by
  cases m with
  | queue tags readable lands => exact (queueAudit_map Prod.snd (d.next, tags) readable lands _).symm
  | publish now build readable lands =>
    exact (wrapsToPublish_map Prod.snd now (dated now build) readable lands d.spool).symm
  | sent ids readable lands => exact (markSent_map Prod.snd ids readable lands d.spool).symm
  | restart => rfl

/-- A queueing whose audit lands in the file, beside all that was there. -/
def Keeps (d : Desk τ) : Move τ → Prop
  | .queue _ readable lands => lands = true ∧ (readable = true ∨ d.spool.audits = [])
  | _ => True

/-- A round whose journal lands. -/
def Writable (_ : Desk τ) : Move τ → Prop
  | .publish _ _ _ lands => lands = true
  | _ => True

/-- A wrap was built from the audit and has been reported sent since. -/
def Told (k : Nat) (h : List Effect) : Prop :=
  ∃ before w later, h = before ++ .reported w.id :: later ∧ .built k w ∈ before

theorem Told.append {k : Nat} {h : List Effect} (htold : Told k h) (es : List Effect) :
    Told k (h ++ es) := by
  obtain ⟨before, w, later, rfl, hbuilt⟩ := htold
  exact ⟨before, w, later ++ es, by rw [List.append_assoc]; rfl, hbuilt⟩

/-- What has been seen accounts for every audit: it is in the journal, with a wrap that was built from
it if with any, or it has been told. -/
structure Accounts (d : Desk τ) (h : List Effect) : Prop where
  wraps : ∀ e ∈ d.spool.audits, ∀ w, e.wrap = some w → .built e.tags.1 w ∈ h
  kept : ∀ k < d.next, (∃ e ∈ d.spool.audits, e.tags.1 = k) ∨ Told k h

/-- The numbers of the audits in the journal. -/
def Desk.numbers (d : Desk τ) : List Nat := d.spool.audits.map (·.tags.1)

/-- They differ, and were given out. -/
structure Numbered (d : Desk τ) : Prop where
  nodup : d.numbers.Nodup
  below : ∀ k ∈ d.numbers, k < d.next

/-- The date of the last wrap that was built from each audit. -/
def lastBuilt (dates : Nat → Option Nat) : Effect → Nat → Option Nat
  | .built k w => Function.update dates k (some w.createdAt)
  | _ => dates

/-- A wrap is built a day of clock distance away from the one before. -/
def Spaced (dates : Nat → Option Nat) : Effect → Prop
  | .built k w => ∀ d, dates k = some d → rebuildAfterSecs < absDiff w.createdAt d
  | _ => True

/-- The journal knows when each of its audits was last built for. -/
structure Dated (d : Desk τ) (dates : Nat → Option Nat) : Prop where
  numbered : Numbered d
  known : ∀ e ∈ d.spool.audits, e.wrap.map (·.createdAt) = dates e.tags.1
  fresh : ∀ k, d.next ≤ k → dates k = none

/-! ## What each move leaves -/

/-- A round leaves the same audits. -/
theorem publish_tags (now : Nat) (build : Nat → τ → Option NostrEvent) (readable lands : Bool)
    (spool : Spool τ) : (wrapsToPublish now build readable lands spool).spool.audits.map (·.tags) =
      spool.audits.map (·.tags) := by
  rw [audits_publish]
  cases lands <;> cases readable <;> first | rfl | exact refresh_tags ..

theorem entries_of_keeps {readable : Bool} {spool : Spool τ}
    (h : readable = true ∨ spool.audits = []) : entries readable spool = spool.audits := by
  rcases h with rfl | h
  · rfl
  · cases readable
    · exact h.symm
    · rfl

theorem accounts_step {d : Desk τ} {h : List Effect} (hacc : Accounts d h) {m : Move τ}
    (hkeeps : Keeps d m) : Accounts (step d m).1 (h ++ (step d m).2) := by
  cases m with
  | queue tags readable lands =>
    obtain ⟨rfl, hread⟩ := hkeeps
    have haudits : (step d (.queue tags readable true)).1.spool.audits =
        d.spool.audits ++ [⟨(d.next, tags), none⟩] := by
      rw [← entries_of_keeps hread]
      exact audits_queue ..
    constructor
    · intro e he w hw
      rw [haudits, List.mem_append, List.mem_singleton] at he
      rcases he with he | rfl
      · exact List.mem_append_left _ (hacc.wraps e he w hw)
      · exact nomatch hw
    · intro k hk
      rw [haudits]
      rcases Nat.lt_succ_iff_lt_or_eq.mp hk with hk | rfl
      · rcases hacc.kept k hk with ⟨e, he, hnum⟩ | htold
        · exact .inl ⟨e, List.mem_append_left _ he, hnum⟩
        · exact .inr (htold.append _)
      · exact .inl ⟨_, List.mem_append_right _ (List.mem_singleton.mpr rfl), rfl⟩
  | publish now build readable lands =>
    constructor
    · intro e he w hw
      have hold : e ∈ d.spool.audits → Effect.built e.tags.1 w ∈ h := fun he => hacc.wraps e he w hw
      have haudits : e ∈ if lands then
          (if readable then (refresh now (dated now fun n a => build n a.2) 0 d.spool.audits).1
            else d.spool.audits) else d.spool.audits := audits_publish now _ readable lands d.spool ▸ he
      cases lands with
      | false => exact List.mem_append_left _ (hold haudits)
      | true =>
        cases readable with
        | false => exact List.mem_append_left _ (hold haudits)
        | true =>
          rcases mem_refresh haudits with he | ⟨w', hw', hbuilt⟩
          · exact List.mem_append_left _ (hold he)
          · cases hw.symm.trans hw'
            refine List.mem_append_right _ (List.mem_append_left _ (List.mem_append_left _ ?_))
            exact List.mem_map.mpr ⟨(e.tags, w), hbuilt, rfl⟩
    · intro k hk
      rcases hacc.kept k hk with ⟨e, he, hnum⟩ | htold
      · have htags : e.tags ∈ (step d (.publish now build readable lands)).1.spool.audits.map
            (·.tags) := by
          have hmem : e.tags ∈ d.spool.audits.map (·.tags) := List.mem_map_of_mem he
          rw [← publish_tags now (dated now fun n a => build n a.2) readable lands] at hmem
          exact hmem
        obtain ⟨e', he', heq⟩ := List.mem_map.mp htags
        exact .inl ⟨e', he', (congrArg Prod.fst heq).trans hnum⟩
      · exact .inr (htold.append _)
  | sent ids readable lands =>
    rcases audits_markSent ids readable lands d.spool with haudits | haudits
    · constructor
      · intro e he w hw
        exact List.mem_append_left _ (hacc.wraps e (haudits ▸ he) w hw)
      · intro k hk
        rcases hacc.kept k hk with ⟨e, he, hnum⟩ | htold
        · exact .inl ⟨e, haudits.symm ▸ he, hnum⟩
        · exact .inr (htold.append _)
    · constructor
      · intro e he w hw
        have hmem : e ∈ d.spool.audits.filter fun e => !e.sentIn ids := haudits ▸ he
        exact List.mem_append_left _ (hacc.wraps e (List.mem_of_mem_filter hmem) w hw)
      · intro k hk
        rcases hacc.kept k hk with ⟨e, he, rfl⟩ | htold
        · by_cases hsent : e.sentIn ids = true
          · -- it leaves because its own wrap was reported
            obtain ⟨w, hw, hid⟩ := (Option.any_eq_true _ _).mp hsent
            obtain ⟨sooner, later, rfl⟩ := List.append_of_mem (of_decide_eq_true hid)
            refine .inr ⟨h ++ sooner.map .reported, w, later.map .reported, ?_,
              List.mem_append_left _ (hacc.wraps e he w hw)⟩
            show h ++ (sooner ++ w.id :: later).map Effect.reported = _
            rw [List.map_append, List.map_cons, List.append_assoc]
          · refine .inl ⟨e, ?_, rfl⟩
            have hmem : e ∈ d.spool.audits.filter fun e => !e.sentIn ids :=
              List.mem_filter.mpr ⟨he, by rw [Bool.eq_false_iff.mpr hsent]; rfl⟩
            exact haudits.symm ▸ hmem
        · exact .inr (htold.append _)
  | restart =>
    show Accounts d (h ++ [])
    rw [List.append_nil]
    exact hacc

/-- A move takes audits out of the journal, or puts one behind them with the next number. -/
theorem numbers_step (d : Desk τ) (m : Move τ) : ∃ l : List Nat, l.Sublist d.numbers ∧
    ((step d m).1.numbers = l ∧ (step d m).1.next ≥ d.next ∨
      (step d m).1.numbers = l ++ [d.next] ∧ (step d m).1.next = d.next + 1) := by
  unfold Desk.numbers
  cases m with
  | queue tags readable lands =>
    have haudits : (step d (.queue tags readable lands)).1.spool.audits =
        if lands then entries readable d.spool ++ [⟨(d.next, tags), none⟩] else d.spool.audits :=
      audits_queue ..
    rw [haudits]
    cases lands with
    | false => exact ⟨_, .refl _, .inl ⟨rfl, Nat.le_succ _⟩⟩
    | true =>
      refine ⟨(entries readable d.spool).map (·.tags.1), ?_, .inr ⟨List.map_append, rfl⟩⟩
      cases readable with
      | false => exact List.nil_sublist _
      | true => exact .refl _
  | publish now build readable lands =>
    refine ⟨_, .refl _, .inl ⟨?_, Nat.le_refl _⟩⟩
    have htags := publish_tags now (dated now fun n a => build n a.2) readable lands d.spool
    have hnumbers := congrArg (List.map Prod.fst) htags
    rw [List.map_map, List.map_map] at hnumbers
    exact hnumbers
  | sent ids readable lands =>
    rcases audits_markSent ids readable lands d.spool with haudits | haudits
    · exact ⟨_, .refl _, .inl ⟨congrArg (List.map _) haudits, Nat.le_refl _⟩⟩
    · exact ⟨_, List.filter_sublist.map _, .inl ⟨congrArg (List.map _) haudits, Nat.le_refl _⟩⟩
  | restart => exact ⟨_, .refl _, .inl ⟨rfl, Nat.le_refl _⟩⟩

theorem numbered_step {d : Desk τ} (hnum : Numbered d) (m : Move τ) : Numbered (step d m).1 := by
  obtain ⟨l, hsub, ⟨hsame, hnext⟩ | ⟨hmore, hnext⟩⟩ := numbers_step d m
  · constructor
    · rw [hsame]
      exact hnum.nodup.sublist hsub
    · intro k hk
      exact Nat.lt_of_lt_of_le (hnum.below k (hsub.subset (hsame ▸ hk))) hnext
  · constructor
    · rw [hmore]
      refine (hnum.nodup.sublist hsub).append (List.nodup_singleton _) ?_
      intro k hk hlast
      exact Nat.ne_of_lt (hnum.below k (hsub.subset hk)) (List.mem_singleton.mp hlast)
    · intro k hk
      rw [hnext]
      rcases List.mem_append.mp (hmore ▸ hk) with hk | hk
      · exact Nat.lt_succ_of_lt (hnum.below k (hsub.subset hk))
      · rw [List.mem_singleton.mp hk]
        exact Nat.lt_succ_self _

/-! ## What is seen of a round -/

/-- Wraps built for different audits, each a day away from that audit's last one. -/
theorem obeys_built {dates : Nat → Option Nat} {built : List ((Nat × τ) × NostrEvent)}
    (hnodup : (built.map (·.1.1)).Nodup)
    (hspaced : ∀ b ∈ built, Spaced dates (.built b.1.1 b.2)) :
    Obeys lastBuilt Spaced dates (built.map fun b => .built b.1.1 b.2) := by
  induction built generalizing dates with
  | nil => trivial
  | cons b built ih =>
    obtain ⟨hnew, hrest⟩ := List.nodup_cons.mp hnodup
    refine ⟨hspaced b List.mem_cons_self, ih hrest fun b' hb' d hd => ?_⟩
    have hne : b'.1.1 ≠ b.1.1 := fun heq => hnew (List.mem_map.mpr ⟨b', hb', heq⟩)
    refine hspaced b' (List.mem_cons_of_mem _ hb') d ?_
    rwa [lastBuilt, Function.update_of_ne hne] at hd

/-- What else is seen moves no date. -/
theorem obeys_of_not_built {dates : Nat → Option Nat} {es : List Effect}
    (h : ∀ e ∈ es, ∀ k w, e ≠ .built k w) :
    Obeys lastBuilt Spaced dates es ∧ es.foldl lastBuilt dates = dates := by
  induction es with
  | nil => exact ⟨trivial, rfl⟩
  | cons e es ih =>
    have hrest := ih fun e' he' => h e' (List.mem_cons_of_mem _ he')
    have hne := h e List.mem_cons_self
    cases e with
    | built k w => exact absurd rfl (hne k w)
    | offered w => exact ⟨⟨trivial, hrest.1⟩, hrest.2⟩
    | handed now w => exact ⟨⟨trivial, hrest.1⟩, hrest.2⟩
    | reported id => exact ⟨⟨trivial, hrest.1⟩, hrest.2⟩

theorem dates_of_built {now : Nat} {dates : Nat → Option Nat}
    {built : List ((Nat × τ) × NostrEvent)} (hnow : ∀ b ∈ built, b.2.createdAt = now) (k : Nat) :
    (built.map fun b => Effect.built b.1.1 b.2).foldl lastBuilt dates k =
      if k ∈ built.map (·.1.1) then some now else dates k := by
  induction built generalizing dates with
  | nil => rfl
  | cons b built ih =>
    rw [List.map_cons, List.foldl_cons, ih fun b' hb' => hnow b' (List.mem_cons_of_mem _ hb'),
      List.map_cons, lastBuilt, hnow b List.mem_cons_self]
    by_cases hrest : k ∈ built.map (·.1.1)
    · rw [if_pos hrest, if_pos (List.mem_cons_of_mem _ hrest)]
    · rw [if_neg hrest]
      by_cases hk : k = b.1.1
      · rw [hk, Function.update_self, if_pos List.mem_cons_self]
      · rw [Function.update_of_ne hk, if_neg fun h => (List.mem_cons.mp h).elim hk hrest]

/-- The part of a round that is seen by date. -/
theorem round_spec {d : Desk τ} {dates : Nat → Option Nat} (hd : Dated d dates) (now : Nat)
    (build : Nat → τ → Option NostrEvent) :
    let r := refresh now (dated now fun n (a : Nat × τ) => build n a.2) 0 d.spool.audits
    (r.2.map (·.1.1)).Nodup ∧ (∀ b ∈ r.2, b.2.createdAt = now) ∧
      (∀ b ∈ r.2, Spaced dates (.built b.1.1 b.2)) ∧ (∀ b ∈ r.2, b.1.1 < d.next) ∧
      ∀ e ∈ r.1, e.wrap.map (·.createdAt) =
        if e.tags.1 ∈ r.2.map (·.1.1) then some now else dates e.tags.1 := by
  intro r
  have hnumbers : r.1.map (·.tags.1) = d.numbers := by
    have htags := congrArg (List.map Prod.fst) (refresh_tags now
      (dated now fun n (a : Nat × τ) => build n a.2) 0 d.spool.audits)
    rw [List.map_map, List.map_map] at htags
    exact htags
  have hbuilt : ∀ b ∈ r.2, ∃ e ∈ d.spool.audits, e.tags = b.1 ∧ e.due now = true ∧
      b.2.createdAt = now ∧ ⟨b.1, some b.2⟩ ∈ r.1 := by
    rintro ⟨t, w⟩ hb
    obtain ⟨e, he, ht, hdue, ⟨n, hn⟩, hmem⟩ := refresh_built hb
    obtain ⟨w', -, rfl⟩ := Option.map_eq_some_iff.mp hn
    exact ⟨e, he, ht, hdue, rfl, hmem⟩
  have hnodup : (r.2.map (·.1.1)).Nodup := by
    have hsub := (refresh_built_sublist now (dated now fun n (a : Nat × τ) => build n a.2) 0
      d.spool.audits).map Prod.fst
    rw [List.map_map, List.map_map] at hsub
    exact hd.numbered.nodup.sublist hsub
  refine ⟨hnodup, fun b hb => ?_, fun b hb k hk => ?_, fun b hb => ?_, fun e he => ?_⟩
  · obtain ⟨-, -, -, -, hnow, -⟩ := hbuilt b hb
    exact hnow
  · obtain ⟨e, he, ht, hdue, hnow, -⟩ := hbuilt b hb
    have hknown := hd.known e he
    rw [ht, hk] at hknown
    obtain ⟨w, hw, rfl⟩ := Option.map_eq_some_iff.mp hknown
    rw [hnow]
    unfold SpooledAudit.due at hdue
    rw [hw, Option.all_some] at hdue
    exact of_decide_eq_true hdue
  · obtain ⟨e, he, ht, -⟩ := hbuilt b hb
    exact ht ▸ hd.numbered.below _ (List.mem_map_of_mem he)
  · by_cases hin : e.tags.1 ∈ r.2.map (·.1.1)
    · rw [if_pos hin]
      obtain ⟨b, hb, hnum⟩ := List.mem_map.mp hin
      obtain ⟨-, -, -, -, hnow, hmem⟩ := hbuilt b hb
      have heq : e = ⟨b.1, some b.2⟩ :=
        List.inj_on_of_nodup_map (hnumbers ▸ hd.numbered.nodup) he hmem hnum.symm
      rw [heq, Option.map_some, hnow]
    · rw [if_neg hin]
      rcases mem_refresh he with he | ⟨w, -, hb⟩
      · exact hd.known e he
      · exact absurd (List.mem_map.mpr ⟨_, hb, rfl⟩) hin

theorem dated_step {d : Desk τ} {dates : Nat → Option Nat} (hd : Dated d dates) {m : Move τ}
    (hwritable : Writable d m) : Obeys lastBuilt Spaced dates (step d m).2 ∧
      Dated (step d m).1 ((step d m).2.foldl lastBuilt dates) := by
  have hnumbered := numbered_step hd.numbered m
  cases m with
  | queue tags readable lands =>
    refine ⟨trivial, hnumbered, ?_, fun k hk => hd.fresh k (Nat.le_of_succ_le hk)⟩
    have haudits : (step d (.queue tags readable lands)).1.spool.audits =
        if lands then entries readable d.spool ++ [⟨(d.next, tags), none⟩] else d.spool.audits :=
      audits_queue ..
    have hentries : ∀ e ∈ entries readable d.spool, e ∈ d.spool.audits := fun e he => by
      cases readable with
      | false => exact nomatch he
      | true => exact he
    intro e he
    rw [haudits] at he
    cases lands with
    | false => exact hd.known e he
    | true =>
      rcases List.mem_append.mp he with he | he
      · exact hd.known e (hentries e he)
      · rw [List.mem_singleton.mp he]
        exact (hd.fresh d.next (Nat.le_refl _)).symm
  | publish now build readable lands =>
    obtain rfl : lands = true := hwritable
    have haudits := audits_publish now (dated now fun n (a : Nat × τ) => build n a.2) readable true
      d.spool
    cases readable with
    | false =>
      have hnone : (step d (.publish now build false true)).2 = [] := rfl
      rw [hnone]
      exact ⟨trivial, hnumbered, fun e he => hd.known e (haudits ▸ he), hd.fresh⟩
    | true =>
      obtain ⟨hnodup, hnow, hspaced, hbelow, hknown⟩ := round_spec hd now build
      generalize hr : refresh now (dated now fun n (a : Nat × τ) => build n a.2) 0 d.spool.audits = r
        at hnodup hnow hspaced hbelow hknown
      obtain ⟨others, hquiet, heffects⟩ : ∃ others : List Effect, (∀ e ∈ others, ∀ k w, e ≠ .built k w) ∧
          (step d (.publish now build true true)).2 =
            (r.2.map fun b => Effect.built b.1.1 b.2) ++ others := by
        refine ⟨_, ?_, by rw [← hr]; exact List.append_assoc ..⟩
        rintro e he k w rfl
        rcases List.mem_append.mp he with he | he
        · obtain ⟨w', -, heq⟩ := List.mem_map.mp he
          exact nomatch heq
        · obtain ⟨w', -, heq⟩ := List.mem_map.mp he
          exact nomatch heq
      rw [heffects, obeys_append, List.foldl_append]
      obtain ⟨hobeys, hsame⟩ := obeys_of_not_built hquiet
      refine ⟨⟨obeys_built hnodup hspaced, hobeys⟩, hnumbered, fun e he => ?_, fun k hk => ?_⟩
      · rw [hsame, dates_of_built hnow]
        have hmem : e ∈ (refresh now (dated now fun n (a : Nat × τ) => build n a.2) 0
            d.spool.audits).1 := (congrArg (e ∈ ·) haudits).mp he
        exact hknown e (hr ▸ hmem)
      · rw [hsame, dates_of_built hnow, if_neg fun hin => ?_]
        · exact hd.fresh k hk
        · obtain ⟨b, hb, rfl⟩ := List.mem_map.mp hin
          exact absurd hk (Nat.not_le.mpr (hbelow b hb))
  | sent ids readable lands =>
    have hquiet : ∀ e ∈ ids.map Effect.reported, ∀ k w, e ≠ .built k w := by
      rintro e he k w rfl
      obtain ⟨id, -, heq⟩ := List.mem_map.mp he
      exact nomatch heq
    obtain ⟨hobeys, hsame⟩ := @obeys_of_not_built dates _ hquiet
    refine ⟨hobeys, hnumbered, ?_, fun k hk => ?_⟩
    · intro e he
      have hmem : e ∈ d.spool.audits := by
        rcases audits_markSent ids readable lands d.spool with haudits | haudits
        · exact haudits ▸ he
        · exact List.mem_of_mem_filter (haudits ▸ he)
      exact (hd.known e hmem).trans (congrFun hsame _).symm
    · exact (congrFun hsame k).trans (hd.fresh k hk)
  | restart => exact ⟨trivial, hd⟩

/-! ## Runs -/

theorem audits_upgraded (old : List τ) : (upgraded old).spool.audits =
    old.zipIdx.map fun t => ⟨(t.2, t.1), none⟩ := by
  unfold upgraded
  cases old with
  | nil => rfl
  | cons t old =>
    show ((_ :: _ : List τ).zipIdx.map fun t => StoredAudit.legacy (t.2, t.1)).map StoredAudit.audit = _
    rw [List.map_map]
    rfl

/-- What has been seen is written down. -/
theorem foldl_seen (h es : List Effect) : es.foldl (fun h e => h ++ [e]) h = h ++ es := by
  induction es generalizing h with
  | nil => exact (List.append_nil h).symm
  | cons e es ih => rw [List.foldl_cons, ih, List.append_assoc, List.singleton_append]

theorem numbers_of_upgraded (old : List τ) : (upgraded old).numbers = List.range old.length := by
  unfold Desk.numbers
  rw [audits_upgraded, List.map_map]
  exact (List.zipIdx_map_snd 0 old).trans (List.range_eq_range' ..).symm

theorem accounts_upgraded (old : List τ) : Accounts (upgraded old) [] := by
  constructor
  · intro e he w hw
    rw [audits_upgraded] at he
    obtain ⟨t, -, rfl⟩ := List.mem_map.mp he
    exact nomatch hw
  · intro k hk
    have hmem : k ∈ (upgraded old).numbers := by
      rw [numbers_of_upgraded]
      exact List.mem_range.mpr hk
    exact .inl (List.mem_map.mp hmem)

theorem dated_upgraded (old : List τ) : Dated (upgraded old) fun _ => none := by
  refine ⟨⟨?_, fun k hk => ?_⟩, fun e he => ?_, fun k hk => rfl⟩
  · rw [numbers_of_upgraded]
    exact List.nodup_range
  · rw [numbers_of_upgraded] at hk
    exact List.mem_range.mp hk
  · rw [audits_upgraded] at he
    obtain ⟨t, -, rfl⟩ := List.mem_map.mp he
    rfl

theorem offered_step {d : Desk τ} {m : Move τ} {w : NostrEvent} (h : .offered w ∈ (step d m).2) :
    ∃ e ∈ (step d m).1.spool.audits, e.wrap = some w := by
  cases m with
  | queue tags readable lands => exact nomatch h
  | publish now build readable lands =>
    rcases List.mem_append.mp h with h | h
    · rcases List.mem_append.mp h with h | h
      · obtain ⟨b, -, heq⟩ := List.mem_map.mp h
        exact nomatch heq
      · obtain ⟨w', hw, heq⟩ := List.mem_map.mp h
        cases heq
        exact offered_journaled now _ readable lands d.spool hw
    · obtain ⟨w', -, heq⟩ := List.mem_map.mp h
      exact nomatch heq
  | sent ids readable lands =>
    obtain ⟨id, -, heq⟩ := List.mem_map.mp h
    exact nomatch heq
  | restart => exact nomatch h

theorem handed_step {d : Desk τ} {m : Move τ} {now : Nat} {w : NostrEvent}
    (h : .handed now w ∈ (step d m).2) : absDiff now w.createdAt ≤ maxJitterSecs := by
  cases m with
  | queue tags readable lands => exact nomatch h
  | publish now' build readable lands =>
    rcases List.mem_append.mp h with h | h
    · rcases List.mem_append.mp h with h | h
      · obtain ⟨b, -, heq⟩ := List.mem_map.mp h
        exact nomatch heq
      · obtain ⟨w', -, heq⟩ := List.mem_map.mp h
        exact nomatch heq
    · obtain ⟨w', hw, heq⟩ := List.mem_map.mp h
      obtain ⟨rfl, rfl⟩ := Effect.handed.inj heq
      exact handed_fresh now' _ readable lands d.spool hw
  | sent ids readable lands =>
    obtain ⟨id, -, heq⟩ := List.mem_map.mp h
    exact nomatch heq
  | restart => exact nomatch h

/-- **Every override is told.**  In a run where every queueing lands beside what was there, an audit is
in the journal until a wrap that was built from it has been reported sent, whatever else fails.  What is
offered is in the journal, what is handed out is dated within two days, and where the rounds can write
the journal an audit's wraps are built a day of clock distance apart. -/
theorem override_law (old : List τ) (moves : List (Move τ))
    (hkeeps : Obeys (fun d m => (step d m).1) Keeps (upgraded old) moves) :
    let d := (run step (upgraded old) moves).1
    let seen := effects step (upgraded old) moves
    (∀ k < d.next, k ∈ d.numbers ∨ Told k seen) ∧
    (∀ m w, .offered w ∈ (step d m).2 → ∃ e ∈ (step d m).1.spool.audits, e.wrap = some w) ∧
    (∀ now w, .handed now w ∈ seen → absDiff now w.createdAt ≤ maxJitterSecs) ∧
    (Obeys (fun d m => (step d m).1) Writable (upgraded old) moves →
      Obeys lastBuilt Spaced (fun _ => none) seen) := by
  have haccounts : Accounts (run step (upgraded old) moves).1
      ((effects step (upgraded old) moves).foldl (fun h e => h ++ [e]) []) := by
    refine effects_related_of (R := Accounts) (K := Keeps) (fun d h m hm hacc => ?_)
      (accounts_upgraded old) hkeeps
    rw [foldl_seen]
    exact accounts_step hacc hm
  rw [foldl_seen, List.nil_append] at haccounts
  refine ⟨fun k hk => ?_, fun m w => offered_step, fun now w h => ?_, fun hwritable => ?_⟩
  · exact (haccounts.kept k hk).imp_left List.mem_map.mpr
  · obtain ⟨before, m, after, -, hm⟩ := mem_effects h
    exact handed_step hm
  · exact effects_obey_of (R := Dated) (K := Writable) (fun d dates m hm hd => dated_step hd hm)
      (dated_upgraded old) hwritable

end

/-! ## The journal that will not be read -/

/-- `audit_tags`. -/
def auditTags (scope : String) (durationSecs pressedAt : Nat) : List (List String) :=
  [["outcome", "override"], ["op", "unlock.breakglass"], ["scope", scope],
    ["durationSecs", toString durationSecs], ["at", toString pressedAt]]

/-- A press, a round whose wrap cannot be built, and a restart. -/
theorem override_law_press :
    let moves : List (Move (List (List String))) := [.queue (auditTags "full" 600 1000) true true,
      .publish 1010 (fun _ _ => none) true false, .restart]
    ∀ k < (run step (upgraded []) moves).1.next,
      k ∈ (run step (upgraded []) moves).1.numbers ∨ Told k (effects step (upgraded []) moves) := by
  intro moves
  have hkeeps : Obeys (fun d m => (step d m).1) Keeps (upgraded []) moves :=
    ⟨⟨rfl, .inl rfl⟩, trivial, trivial, trivial⟩
  exact (override_law [] moves hkeeps).1

/-- Of a press, and of one whose call cannot read the journal but writes it, the second is kept. -/
theorem not_override_told : ¬∀ (old : List (List (List String)))
    (moves : List (Move (List (List String)))), let d := (run step (upgraded old) moves).1
      ∀ k < d.next, k ∈ d.numbers ∨ Told k (effects step (upgraded old) moves) := by
  intro h
  have hlost := h [] [.queue (auditTags "full" 600 1000) true true,
    .queue (auditTags "calls" 300 2000) false true] 0 (by decide)
  rcases hlost with hkept | ⟨before, w, later, hseen, -⟩
  · exact absurd hkept (by decide)
  · cases before <;> exact nomatch hseen

end Kintrinsic.BreakGlass
