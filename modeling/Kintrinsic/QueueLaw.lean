import Kintrinsic.LinkPresence
import Kintrinsic.Newest

/-! # What leaves the guardian's queue

A wrap is queued until its own machine answers.  The queue is pruned on every send and every pass of
a flusher: what is older than two days goes, and of each machine the oldest beyond its cap. -/
namespace Kintrinsic

open EffectRun GuardedRun LatestOfEach

/-! ## Pruning -/

/-- The entries of a queue that are within the caps of all machines. -/
def withinCaps (q : List QueuedWrap) : List QueuedWrap :=
  latest QueuedWrap.machine queuePerMachine (fun _ => true) q

variable {m : PubKey} {n : Nat} {q : List QueuedWrap} {now : Nat}

theorem dropOldest_zero : dropOldest m 0 q = (q, []) := by
  cases q with
  | nil => rfl
  | cons e q => rfl

theorem queuedFor_cons (e : QueuedWrap) :
    queuedFor m (e :: q) = queuedFor m q + if e.machine = m then 1 else 0 := held_cons

/-- What stays when a machine's oldest go, so that so many are left. -/
theorem dropOldest_fst (q : List QueuedWrap) : (dropOldest m (queuedFor m q - n) q).1 =
    latest QueuedWrap.machine n (fun k => decide (k = m)) q := by
  induction q with
  | nil =>
    rw [show queuedFor m [] - n = 0 from Nat.zero_sub n, dropOldest_zero]
    rfl
  | cons e q ih =>
    by_cases he : e.machine = m
    · by_cases hmany : n ≤ queuedFor m q
      · have hsucc : queuedFor m (e :: q) - n = (queuedFor m q - n) + 1 := by
          rw [queuedFor_cons, if_pos he]
          omega
        rw [hsucc, dropOldest, if_pos he, latest, if_pos ⟨decide_eq_true he, he ▸ hmany⟩]
        exact ih
      · have hzero : queuedFor m (e :: q) - n = 0 := by
          rw [queuedFor_cons, if_pos he]
          omega
        rw [hzero, dropOldest_zero, latest_of_held_le]
        rintro b - hb
        rw [of_decide_eq_true hb]
        have hcons := @queuedFor_cons m q e
        rw [if_pos he] at hcons
        show queuedFor m (e :: q) ≤ n
        omega
    · have hsame : queuedFor m (e :: q) - n = queuedFor m q - n := by
        rw [queuedFor_cons, if_neg he, Nat.add_zero]
      rw [hsame, latest, if_neg fun h => he (of_decide_eq_true h.1)]
      cases hk : queuedFor m q - n with
      | zero =>
        rw [hk, dropOldest_zero] at ih
        rw [dropOldest_zero, ← ih]
      | succ k =>
        rw [hk] at ih
        rw [dropOldest, if_neg he]
        exact congrArg (List.cons e) ih

/-- What goes and what stays is all there was. -/
theorem dropOldest_perm (k : Nat) (q : List QueuedWrap) :
    ((dropOldest m k q).1 ++ (dropOldest m k q).2).Perm q := by
  induction q generalizing k with
  | nil =>
    cases k with
    | zero => exact .refl _
    | succ k => exact .refl _
  | cons e q ih =>
    cases k with
    | zero => rw [dropOldest_zero, List.append_nil]
    | succ k =>
      by_cases he : e.machine = m
      · rw [dropOldest, if_pos he]
        exact List.perm_middle.trans ((ih k).cons e)
      · rw [dropOldest, if_neg he]
        exact (ih (k + 1)).cons e

/-- The machines brought within their caps so far. -/
theorem foldl_capMachine (ms : List PubKey) (hms : ms.Nodup) (dropped : List QueuedWrap) :
    (ms.foldl capMachine (q, dropped)).1 =
      latest QueuedWrap.machine queuePerMachine (fun m => decide (m ∈ ms)) q := by
  induction ms using List.reverseRecOn with
  | nil =>
    refine (latest_of_held_le fun a _ ha => ?_).symm
    cases ha
  | append_singleton ms m ih =>
    obtain ⟨hms', -, hdisjoint⟩ := List.nodup_append.mp hms
    have hm : m ∉ ms := fun hm => hdisjoint m hm m (List.mem_singleton_self m) rfl
    rw [List.foldl_append, List.foldl_cons, List.foldl_nil]
    refine (dropOldest_fst _).trans ?_
    have hmore := @latest_latest _ _ _ QueuedWrap.machine queuePerMachine
      (fun m => decide (m ∈ ms)) m (decide_eq_false hm) q
    rw [ih hms']
    refine hmore.trans (latest_congr fun a _ => ?_)
    simp

theorem foldl_capMachine_perm (ms : List PubKey) (r : List QueuedWrap × List QueuedWrap) :
    ((ms.foldl capMachine r).1 ++ (ms.foldl capMachine r).2).Perm (r.1 ++ r.2) := by
  induction ms generalizing r with
  | nil => exact .refl _
  | cons m ms ih =>
    refine (ih (capMachine r m)).trans ?_
    unfold capMachine
    dsimp only
    have hsplit := @dropOldest_perm m (queuedFor m r.1 - queuePerMachine) r.1
    refine List.Perm.trans ?_ (hsplit.append_right r.2)
    rw [List.append_assoc]
    refine List.Perm.append_left _ ?_
    exact List.perm_append_comm

/-- **The loop of `prune_queue`**, whatever the order of the machines: of what is fresh, the latest
of each machine. -/
theorem pruneQueue_fst (q : List QueuedWrap) (now : Nat) :
    (pruneQueue q now).1 = withinCaps (q.filter (·.fresh now)) := by
  unfold pruneQueue withinCaps
  dsimp only
  rw [foldl_capMachine _ (List.nodup_dedup _)]
  refine latest_congr fun e he => ?_
  rw [decide_eq_true_eq, List.mem_dedup]
  exact List.mem_map_of_mem he

/-- What is dropped and what is kept is all there was. -/
theorem pruneQueue_perm (q : List QueuedWrap) (now : Nat) :
    ((pruneQueue q now).1 ++ (pruneQueue q now).2).Perm q := by
  unfold pruneQueue
  dsimp only
  refine (foldl_capMachine_perm _ _).trans ?_
  exact List.filter_append_perm _ q

/-- Why a prune drops an entry. -/
def Dropped (q : List QueuedWrap) (now : Nat) (e : QueuedWrap) : Prop :=
  queueTtl ≤ now - e.queuedAt ∨
    ∃ before after, q = before ++ e :: after ∧ queuePerMachine ≤ queuedFor e.machine after

theorem mem_pruneQueue_or {e : QueuedWrap} (he : e ∈ q) :
    e ∈ (pruneQueue q now).1 ∨ Dropped q now e := by
  by_cases hfresh : e.fresh now = true
  · rw [pruneQueue_fst]
    have hor := @mem_latest_or _ _ _ QueuedWrap.machine queuePerMachine (fun _ => true) e _
      (List.mem_filter.mpr ⟨he, hfresh⟩)
    obtain hstays | ⟨before, after, hsplit, hmany⟩ := hor
    · exact .inl hstays
    · obtain ⟨l, r, rfl, -, hr⟩ := List.filter_eq_append_iff.mp hsplit
      obtain ⟨l', r', rfl, -, -, hafter⟩ := List.filter_eq_cons_iff.mp hr
      refine .inr (.inr ⟨l ++ l', r', (List.append_assoc l l' (e :: r')).symm, hmany.trans ?_⟩)
      rw [← hafter]
      exact (List.filter_sublist.filter _).length_le
  · unfold QueuedWrap.fresh at hfresh
    rw [decide_eq_true_eq, Nat.not_lt] at hfresh
    exact .inr (.inl hfresh)

/-- After a prune no machine is over its cap. -/
theorem queuedFor_pruneQueue (q : List QueuedWrap) (now : Nat) (m : PubKey) :
    queuedFor m (pruneQueue q now).1 ≤ queuePerMachine := by
  rw [pruneQueue_fst]
  exact (held_latest_le rfl _).1

/-- Pruning adds nothing, and keeps the order. -/
theorem pruneQueue_sublist (q : List QueuedWrap) (now : Nat) : (pruneQueue q now).1.Sublist q := by
  rw [pruneQueue_fst]
  exact (latest_sublist _).trans List.filter_sublist

/-! ## Records -/

/-- What a search that goes through a list keeps is one of the list. -/
theorem mem_of_foldl_choice {α : Type} {f : Option α → α → Option α}
    (hf : ∀ b a e, f b a = some e → b = some e ∨ e = a) {l : List α} {b : Option α} {e : α}
    (h : l.foldl f b = some e) : b = some e ∨ e ∈ l := by
  induction l generalizing b with
  | nil => exact .inl h
  | cons a l ih =>
    rcases ih h with h | h
    · exact (hf b a e h).imp_right fun heq => List.mem_cons.mpr (.inl heq)
    · exact .inr (List.mem_cons_of_mem a h)

/-- It keeps something once it has something. -/
theorem isSome_foldl_choice {α : Type} {f : Option α → α → Option α}
    (hf : ∀ b a, (f b a).isSome) {l : List α} {b : Option α}
    (h : b.isSome ∨ l ≠ []) : (l.foldl f b).isSome := by
  induction l generalizing b with
  | nil => exact h.resolve_right fun hne => hne rfl
  | cons a l ih => exact ih (.inl (hf b a))

section Delivery
variable {d : Registry DeliveryEntry.wrap} {id : EventId}

theorem firstEvicted_mem {e : DeliveryEntry} (h : firstEvicted d = some e) : e ∈ d.entries := by
  refine (mem_of_foldl_choice ?_ h).resolve_left (by simp)
  intro b a e h
  cases b with
  | none => exact .inr (Option.some.inj h).symm
  | some b =>
    dsimp only at h
    split at h
    · exact .inr (Option.some.inj h).symm
    · exact .inl h

theorem firstEvicted_isSome (h : d.entries ≠ []) : (firstEvicted d).isSome := by
  refine isSome_foldl_choice ?_ (.inr h)
  intro b a
  cases b with
  | none => rfl
  | some b =>
    dsimp only
    split
    · rfl
    · rfl

theorem length_evictOne (h : d.entries ≠ []) :
    (evictOne d).entries.length + 1 = d.entries.length := by
  obtain ⟨e, he⟩ := Option.isSome_iff_exists.mp (firstEvicted_isSome h)
  have hgone := @Registry.count_filter_notMem _ _ _ _ d (fun _ => true) [e.wrap]
    (List.nodup_singleton _) fun k hk => by
      obtain rfl := List.mem_singleton.mp hk
      exact ⟨e, firstEvicted_mem he, rfl, rfl⟩
  rw [Registry.count, List.filter_true, Registry.count, List.filter_true] at hgone
  have hremove : evictOne d = d.filter fun r => decide (r.wrap ∉ [e.wrap]) := by
    unfold evictOne
    rw [he]
    unfold Registry.remove
    simp only [List.mem_singleton, ne_eq]
  rw [hremove]
  exact hgone

/-- After a prune there are no more records than the cap. -/
theorem length_pruneDelivery (d : Registry DeliveryEntry.wrap) (now : Nat) :
    (pruneDelivery d now).entries.length ≤ deliveryCap := by
  have hrounds : ∀ (k : Nat) (d : Registry DeliveryEntry.wrap), k ≤ d.entries.length →
      (evictOne^[k] d).entries.length + k = d.entries.length := by
    intro k
    induction k with
    | zero => exact fun d _ => rfl
    | succ k ih =>
      intro d hk
      have hone := @length_evictOne d (by rintro h; rw [h] at hk; cases hk)
      have hrest := ih (evictOne d) (by omega)
      rw [Function.iterate_succ_apply]
      omega
  unfold pruneDelivery
  dsimp only
  have hlen := hrounds _ (d.filter fun e => decide (now - e.changed < deliveryTtl))
    (Nat.sub_le _ deliveryCap)
  omega

/-- A record that is not a week old is found as long as there is room. -/
theorem get?_pruneDelivery {e : DeliveryEntry} (hget : d.get? id = some e)
    (hyoung : now - e.changed < deliveryTtl) (hroom : d.entries.length ≤ deliveryCap) :
    (pruneDelivery d now).get? id = some e := by
  have hfew : (d.filter fun e => decide (now - e.changed < deliveryTtl)).entries.length ≤
      deliveryCap := (List.length_filter_le _ _).trans hroom
  unfold pruneDelivery
  dsimp only
  rw [Nat.sub_eq_zero_of_le hfew, Function.iterate_zero, id_eq, Registry.get?_filter, hget]
  exact Option.filter_some_pos (decide_eq_true hyoung)

/-- Storing in the place of a record takes no room. -/
theorem length_put_of_get? {e r : DeliveryEntry} (hget : d.get? r.wrap = some e) :
    (d.put r).entries.length ≤ d.entries.length := by
  have hrest := @Registry.count_filter_notMem _ _ _ _ d (fun _ => true) [r.wrap]
    (List.nodup_singleton _) fun k hk => by
      obtain rfl := List.mem_singleton.mp hk
      exact ⟨e, (Registry.get?_eq_some.mp hget).1, (Registry.get?_eq_some.mp hget).2, rfl⟩
  rw [Registry.count, List.filter_true, Registry.count, List.filter_true] at hrest
  have hremove : d.remove r.wrap = d.filter fun a => decide (a.wrap ∉ [r.wrap]) := by
    unfold Registry.remove
    simp only [List.mem_singleton, ne_eq]
  unfold Registry.put
  rw [List.length_cons, hremove]
  exact hrest.le

end Delivery

namespace GuardianState
variable {st : GuardianState} {e : QueuedWrap}

/-- As many records as there may be. -/
def Few (st : GuardianState) : Prop := st.delivery.entries.length ≤ deliveryCap

theorem Few.setDelivery (h : st.Few) (wrap : EventId) (machine : PubKey) (state : DeliveryState)
    (now : Nat) : (st.setDelivery wrap machine state now).1.Few := by
  unfold GuardianState.setDelivery
  split
  · unfold Few
    dsimp only
    exact length_pruneDelivery _ now
  · exact h

/-- A waiting record is this machine's and moves to rejected. -/
theorem waiting_iff : st.waiting e = true ↔
    ∃ r, st.delivery.get? e.wrap.id = some r ∧ r.machine = e.machine ∧ r.state.isWaiting = true := by
  unfold GuardianState.waiting
  cases st.delivery.get? e.wrap.id with
  | none => simp
  | some r => simp

theorem recordMoves_rejected (h : st.waiting e = true) :
    st.recordMoves e.wrap.id e.machine .rejected = true := by
  obtain ⟨r, hr, hm, hwaits⟩ := waiting_iff.mp h
  have hforward : r.state.advancedBy .rejected = true := by
    cases hs : r.state with
    | queued => decide
    | sent => decide
    | received => rw [hs] at hwaits; cases hwaits
    | rejected => rw [hs] at hwaits; cases hwaits
    | acked a => rw [hs] at hwaits; cases hwaits
  unfold GuardianState.recordMoves
  rw [hr]
  dsimp only
  rw [hforward, decide_eq_true hm]
  rfl

/-- The record that an entry waits on, not a week old. -/
structure Awaits (st : GuardianState) (e : QueuedWrap) (now : Nat) (r : DeliveryEntry) : Prop where
  found : st.delivery.get? e.wrap.id = some r
  mine : r.machine = e.machine
  waits : r.state.isWaiting = true
  young : now - r.changed < deliveryTtl

theorem Awaits.waiting {now : Nat} {r : DeliveryEntry} (h : st.Awaits e now r) :
    st.waiting e = true := waiting_iff.mpr ⟨r, h.found, h.mine, h.waits⟩

/-- The event that tells the console that it waits no longer. -/
def rejection (e : QueuedWrap) : GuardianEvent := .delivery e.wrap.id e.machine .rejected

theorem Few.rejectDropped {s : GuardianState × List GuardianEvent} (h : s.1.Few) (now : Nat)
    (a : QueuedWrap) : (rejectDropped now s a).1.Few := by
  unfold GuardianState.rejectDropped
  split
  · exact h.setDelivery _ _ _ _
  · exact h

theorem mem_rejectDropped {s : GuardianState × List GuardianEvent} {x : GuardianEvent}
    (h : x ∈ s.2) (now : Nat) (a : QueuedWrap) : x ∈ (rejectDropped now s a).2 := by
  unfold rejectDropped
  split
  · exact List.mem_append_left _ h
  · exact h

/-- One more is dropped: another's record still waits, its own is reported. -/
theorem Awaits.rejectDropped {now : Nat} {r : DeliveryEntry}
    {s : GuardianState × List GuardianEvent} (hfew : s.1.Few) (h : s.1.Awaits e now r)
    (a : QueuedWrap) : (rejectDropped now s a).1.Awaits e now r ∧ e ≠ a ∨
      rejection e ∈ (rejectDropped now s a).2 := by
  unfold GuardianState.rejectDropped
  by_cases ha : s.1.waiting a = true
  · rw [if_pos ha]
    obtain ⟨ra, hra, hma, -⟩ := waiting_iff.mp ha
    unfold GuardianState.setDelivery
    rw [if_pos (recordMoves_rejected ha)]
    by_cases hid : e.wrap.id = a.wrap.id
    · -- the record is of one machine: the report is about this entry
      refine .inr (List.mem_append_right _ (List.mem_singleton.mpr ?_))
      have hsame : ra = r := Option.some.inj (hra.symm.trans (hid ▸ h.found))
      unfold rejection
      rw [hid, ← hma, hsame, h.mine]
    · refine .inl ⟨⟨?_, h.mine, h.waits, h.young⟩, fun heq => hid (heq ▸ rfl)⟩
      have hroom := @length_put_of_get? s.1.delivery ra ⟨a.wrap.id, .rejected, now, a.machine⟩ hra
      have hfound : (s.1.delivery.put ⟨a.wrap.id, .rejected, now, a.machine⟩).get? e.wrap.id =
          some r := by
        rw [Registry.get?_put, if_neg hid]
        exact h.found
      dsimp only
      exact get?_pruneDelivery hfound h.young (hroom.trans hfew)
  · rw [if_neg ha]
    refine .inl ⟨h, ?_⟩
    rintro rfl
    exact ha h.waiting

/-- **What is dropped while it waits is reported as rejected.**  The induction is over what is
dropped, and carries that the record still waits or the report is made. -/
theorem foldl_rejectDropped {now : Nat} {r : DeliveryEntry} {dropped : List QueuedWrap}
    {s : GuardianState × List GuardianEvent} (hfew : s.1.Few) (hs : s.1.Awaits e now r)
    (he : e ∈ dropped) : rejection e ∈ (dropped.foldl (rejectDropped now) s).2 := by
  have hkept : ∀ (l : List QueuedWrap) (s : GuardianState × List GuardianEvent),
      rejection e ∈ s.2 → rejection e ∈ (l.foldl (rejectDropped now) s).2 := fun l s h =>
    @foldl_invariant _ _ (rejectDropped now) _ (fun s => rejection e ∈ s.2)
      (fun s a h => mem_rejectDropped h now a) l h
  induction dropped generalizing s with
  | nil => cases he
  | cons a dropped ih =>
    rw [List.foldl_cons]
    obtain ⟨hawaits, hne⟩ | hdone := hs.rejectDropped hfew a
    · exact ih (hfew.rejectDropped now a) hawaits ((List.mem_cons.mp he).resolve_left hne)
    · exact hkept dropped _ hdone

/-- What a prune does to an entry: it stays, or there is a reason, and then the console is told. -/
theorem prune_leaves {now : Nat} (hfew : st.Few) (he : e ∈ st.queue) :
    e ∈ (st.prune now).1.queue ∨
      Dropped st.queue now e ∧ ∀ r, st.Awaits e now r → rejection e ∈ (st.prune now).2 := by
  have hqueue : (st.prune now).1.queue = (pruneQueue st.queue now).1 := by
    obtain ⟨⟨d, hd⟩, -⟩ := st.prune_recordsOnly now
    rw [hd]
  rw [hqueue]
  by_cases hstays : e ∈ (pruneQueue st.queue now).1
  · exact .inl hstays
  · refine .inr ⟨(mem_pruneQueue_or he).resolve_left hstays, fun r hawaits => ?_⟩
    have hdropped : e ∈ (pruneQueue st.queue now).2 :=
      (List.mem_append.mp ((pruneQueue_perm st.queue now).mem_iff.mpr he)).resolve_left hstays
    have hqueued : GuardianState.Awaits { st with queue := (pruneQueue st.queue now).1 } e now r :=
      ⟨hawaits.found, hawaits.mine, hawaits.waits, hawaits.young⟩
    unfold prune
    exact foldl_rejectDropped hfew hqueued hdropped

theorem Few.prune (h : st.Few) (now : Nat) : (st.prune now).1.Few := by
  unfold GuardianState.prune
  exact @foldl_invariant _ _ (GuardianState.rejectDropped now) _ (fun s => s.1.Few)
    (fun s a hs => Few.rejectDropped hs now a) _ h

theorem prune_queue (st : GuardianState) (now : Nat) :
    (st.prune now).1.queue = (pruneQueue st.queue now).1 := by
  obtain ⟨⟨d, hd⟩, -⟩ := st.prune_recordsOnly now
  rw [hd]

end GuardianState

/-! ## Sections -/

namespace GuardianState
variable {st : GuardianState} {e : QueuedWrap}

/-- The queue and the records, which sessions coming and going leave alone. -/
structure SameBooks (st st' : GuardianState) : Prop where
  queue : st'.queue = st.queue
  delivery : st'.delivery = st.delivery

theorem SameBooks.few {st' : GuardianState} (h : SameBooks st st') (hst : st.Few) : st'.Few := by
  unfold Few at hst ⊢
  rwa [h.delivery]

theorem evict_sameBooks (ids : List Nat) : SameBooks st (st.evict ids) := ⟨rfl, rfl⟩

theorem dropSession_sameBooks (id : Nat) : SameBooks st (st.dropSession id).1 := by
  rw [dropSession_state]
  exact evict_sameBooks [id]

theorem dropSessions_sameBooks (ids : List Nat) : SameBooks st (st.dropSessions ids).1 := by
  rw [dropSessions_state]
  exact evict_sameBooks ids

theorem makeRoom_eq {machine : PubKey} {st' : GuardianState} (h : st.makeRoom machine = some st') :
    ∃ ids, st' = st.evict ids := by
  unfold makeRoom evictOldest at h
  dsimp only at h
  split at h
  · exact ⟨_, (Option.some.inj h).symm⟩
  · split at h
    · cases h
    · obtain rfl := Option.some.inj h
      exact ⟨_, evict_evict _ _ _⟩

theorem enter_eq {machine : PubKey} {localIp : IpAddr} {now started : Nat}
    {r : GuardianState × List GuardianEvent} (h : st.enter machine localIp now started = some r) :
    ∃ ids, r = (st.evict ids).join machine localIp now started := by
  unfold enter at h
  split at h
  · cases h
  · obtain ⟨st', hroom, rfl⟩ := Option.map_eq_some_iff.mp h
    obtain ⟨ids, rfl⟩ := makeRoom_eq hroom
    exact ⟨ids, rfl⟩

theorem handOn_sameBooks (machine : PubKey) (id : EventId) (room : Bool) :
    SameBooks st (st.handOn machine id room).1 := by
  unfold handOn
  split
  · exact ⟨rfl, rfl⟩
  · split
    · exact ⟨rfl, rfl⟩
    · split
      · exact ⟨rfl, rfl⟩
      · exact ⟨rfl, rfl⟩

theorem setDelivery_queue (st : GuardianState) (wrap : EventId) (machine : PubKey)
    (state : DeliveryState) (now : Nat) : (st.setDelivery wrap machine state now).1.queue = st.queue := by
  obtain ⟨d, hd⟩ := st.setDelivery_frame wrap machine state now
  rw [hd]

theorem foldl_recordSent {machine : PubKey} {now : Nat} (wraps : List NostrEvent)
    {r : GuardianState × List GuardianEvent} (hfew : r.1.Few) :
    (wraps.foldl (recordSent machine now) r).1.queue = r.1.queue ∧
      (wraps.foldl (recordSent machine now) r).1.Few := by
  induction wraps generalizing r with
  | nil => exact ⟨rfl, hfew⟩
  | cons w wraps ih =>
    obtain ⟨hqueue, hfew'⟩ := @ih (recordSent machine now r w) (hfew.setDelivery _ _ _ _)
    exact ⟨hqueue.trans (setDelivery_queue _ _ _ _ _), hfew'⟩

/-- The state with a wrap queued, unless it is queued already. -/
def pushed (st : GuardianState) (recipient : PubKey) (wrap : NostrEvent) (now : Nat) :
    GuardianState :=
  if st.isQueued recipient wrap.id then st
  else { st with queue := st.queue ++ [⟨recipient, wrap, now⟩] }

/-- `send` of a wrap that is not turned away. -/
theorem send_eq {recipient : PubKey} (wrap : NostrEvent) (now : Nat) (room : Bool)
    (hopen : st.closed = false) (hpaired : recipient ∈ st.allowed) :
    st.send recipient wrap now room =
      let pruned := (st.pushed recipient wrap now).prune now
      let handed := pruned.1.handOn recipient wrap.id room
      let outcome := if handed.2.1 then SendState.sent else .queued
      let recorded := handed.1.setDelivery wrap.id recipient
        (if handed.2.1 then .sent else .queued) now
      (outcome, handed.2.2, recorded.1, pruned.2 ++ recorded.2) := by
  have hruns : ¬st.closed = true := by
    rw [hopen]
    exact Bool.false_ne_true
  unfold send
  rw [if_neg hruns, if_neg (not_not.mpr hpaired)]
  rfl

/-- A wrap that is turned away leaves everything as it was. -/
theorem send_turned {recipient : PubKey} (wrap : NostrEvent) (now : Nat) (room : Bool)
    (h : ¬(st.closed = false ∧ recipient ∈ st.allowed)) :
    ∃ reason, st.send recipient wrap now room = (.rejected reason, none, st, []) := by
  unfold send
  split
  · exact ⟨_, rfl⟩
  · rename_i hopen
    split
    · exact ⟨_, rfl⟩
    · rename_i hpaired
      exact absurd ⟨by simpa using hopen, not_not.mp hpaired⟩ h

theorem pushed_few {recipient : PubKey} {wrap : NostrEvent} {now : Nat} (h : st.Few) :
    (st.pushed recipient wrap now).Few := by
  unfold pushed
  split
  · exact h
  · exact h

theorem mem_pushed {recipient : PubKey} {wrap : NostrEvent} {now : Nat} (h : e ∈ st.queue) :
    e ∈ (st.pushed recipient wrap now).queue := by
  unfold pushed
  split
  · exact h
  · exact List.mem_append_left _ h

/-- What `send` does to the queue: the wrap joins it, and it is pruned. -/
theorem send_queue {recipient : PubKey} (wrap : NostrEvent) (now : Nat) (room : Bool)
    (hopen : st.closed = false) (hpaired : recipient ∈ st.allowed) :
    (st.send recipient wrap now room).2.2.1.queue =
      (pruneQueue (st.pushed recipient wrap now).queue now).1 := by
  rw [send_eq wrap now room hopen hpaired]
  dsimp only
  rw [setDelivery_queue, (handOn_sameBooks _ _ _).queue, prune_queue]

theorem send_few {recipient : PubKey} (wrap : NostrEvent) (now : Nat) (room : Bool) (h : st.Few) :
    (st.send recipient wrap now room).2.2.1.Few := by
  by_cases hgoes : st.closed = false ∧ recipient ∈ st.allowed
  · rw [send_eq wrap now room hgoes.1 hgoes.2]
    exact ((handOn_sameBooks _ _ _).few ((pushed_few h).prune now)).setDelivery _ _ _ _
  · obtain ⟨reason, hturned⟩ := send_turned wrap now room hgoes
    rw [hturned]
    exact h

theorem flushPass_books (id : Nat) (machine : PubKey) (now : Nat) (h : st.Few) :
    (st.flushPass id machine now).2.1.queue = (pruneQueue st.queue now).1 ∧
      (st.flushPass id machine now).2.1.Few := by
  unfold flushPass
  dsimp only
  split
  · exact ⟨prune_queue st now, h.prune now⟩
  · rename_i s hs
    have hfew : ((st.prune now).1.setSession id ((st.prune now).1.passed machine)).Few := h.prune now
    obtain ⟨hqueue, hfew'⟩ := @foldl_recordSent machine now ((st.prune now).1.unwritten machine s)
      ((st.prune now).1.setSession id ((st.prune now).1.passed machine), []) hfew
    exact ⟨hqueue.trans (prune_queue st now), hfew'⟩

end GuardianState

/-! ## Steps -/

namespace GuardianState
variable {st : GuardianState} {e : QueuedWrap}

/-- As many records, and as many wraps queued for each machine, as there may be. -/
structure Within (st : GuardianState) : Prop where
  few : st.Few
  caps : ∀ m, queuedFor m st.queue ≤ queuePerMachine

theorem SameBooks.within {st' : GuardianState} (h : SameBooks st st') (hst : st.Within) :
    st'.Within := by
  refine ⟨h.few hst.few, ?_⟩
  rw [h.queue]
  exact hst.caps

/-- The entries of a machine's wrap. -/
def ofWrap (machine : PubKey) (wrap : EventId) (q : QueuedWrap) : Bool :=
  decide (q.machine = machine) && decide (q.wrap.id = wrap)

/-- What an OK does to the books: it takes the wrap out, if it was handed to the machine. -/
theorem onOk_books (h : st.Few) (id : Nat) (machine : PubKey) (wrap : EventId) (accepted : Bool)
    (now : Nat) : (st.onOk id machine wrap accepted now).1.Few ∧
      ((st.onOk id machine wrap accepted now).1.queue = st.queue ∨
        st.takesOk id machine wrap = true ∧ (st.onOk id machine wrap accepted now).1.queue =
          st.queue.filter fun q => !ofWrap machine wrap q) := by
  unfold onOk
  by_cases htakes : st.takesOk id machine wrap = true
  · rw [if_pos htakes]
    have hfew : Few { st with queue := st.queue.filter fun q =>
      !(decide (q.machine = machine) && decide (q.wrap.id = wrap)) } := h
    dsimp only
    split
    · exact ⟨hfew.setDelivery _ _ _ _, .inr ⟨htakes, setDelivery_queue _ _ _ _ _⟩⟩
    · exact ⟨h, .inr ⟨htakes, rfl⟩⟩
  · rw [if_neg htakes]
    exact ⟨h, .inl rfl⟩

theorem onAck_books (h : st.Few) (machine : PubKey) (wrap : EventId) (result : AckResult)
    (now : Nat) : (st.onAck machine wrap result now).1.Few ∧
      (st.onAck machine wrap result now).1.queue = st.queue := by
  unfold onAck
  split
  · exact ⟨h.setDelivery _ _ _ _, setDelivery_queue _ _ _ _ _⟩
  · exact ⟨h, rfl⟩

theorem Within.of_prune {st' : GuardianState} {q : List QueuedWrap} {now : Nat} (hfew : st'.Few)
    (hqueue : st'.queue = (pruneQueue q now).1) : st'.Within := by
  refine ⟨hfew, fun m => ?_⟩
  rw [hqueue]
  exact queuedFor_pruneQueue q now m

theorem Within.send (h : st.Within) (recipient : PubKey) (wrap : NostrEvent) (now : Nat)
    (room : Bool) : (st.send recipient wrap now room).2.2.1.Within := by
  by_cases hgoes : st.closed = false ∧ recipient ∈ st.allowed
  · exact .of_prune (send_few wrap now room h.few) (send_queue wrap now room hgoes.1 hgoes.2)
  · obtain ⟨reason, hturned⟩ := send_turned wrap now room hgoes
    rw [hturned]
    exact h

/-- **What `send` reports as held.**  A wrap that is sent or queued is in the queue afterwards,
unless it was queued before and its two days are over: sending it again does not renew them. -/
theorem send_held (h : st.Within) {recipient : PubKey} {wrap : NostrEvent} {now : Nat} {room : Bool}
    (hheld : (st.send recipient wrap now room).1 = .sent ∨
      (st.send recipient wrap now room).1 = .queued) :
    (st.send recipient wrap now room).2.2.1.isQueued recipient wrap.id = true ↔
      (st.isQueued recipient wrap.id = true → ∃ e ∈ st.queue, e.machine = recipient ∧
        e.wrap.id = wrap.id ∧ e.fresh now = true) := by
  have hgoes : st.closed = false ∧ recipient ∈ st.allowed := by
    by_contra hgoes
    obtain ⟨reason, hturned⟩ := send_turned wrap now room hgoes
    rw [hturned] at hheld
    simp at hheld
  have hqueued : ∀ q : List QueuedWrap, (q.any fun e => decide (e.machine = recipient) &&
      decide (e.wrap.id = wrap.id)) = true ↔
        ∃ e ∈ q, e.machine = recipient ∧ e.wrap.id = wrap.id := by
    intro q
    rw [List.any_eq_true]
    simp
  unfold isQueued
  rw [send_queue wrap now room hgoes.1 hgoes.2, pruneQueue_fst, hqueued, hqueued]
  unfold pushed isQueued withinCaps
  by_cases hbefore : (st.queue.any fun e => decide (e.machine = recipient) &&
      decide (e.wrap.id = wrap.id)) = true
  · -- queued before: the caps take nothing, two days may
    rw [if_pos hbefore, latest_of_held_le]
    · constructor
      · rintro ⟨e, he, hmachine, hid⟩ -
        obtain ⟨hmem, hfresh⟩ := List.mem_filter.mp he
        exact ⟨e, hmem, hmachine, hid, hfresh⟩
      · intro hfresh
        obtain ⟨e, hmem, hmachine, hid, hyoung⟩ := hfresh ((hqueued _).mp hbefore)
        exact ⟨e, List.mem_filter.mpr ⟨hmem, hyoung⟩, hmachine, hid⟩
    · intro e _ _
      exact (List.filter_sublist.filter _).length_le.trans (h.caps e.machine)
  · rw [if_neg hbefore]
    have hnew : QueuedWrap.fresh now ⟨recipient, wrap, now⟩ = true := by
      unfold QueuedWrap.fresh
      rw [Nat.sub_self]
      decide
    rw [List.filter_append, List.filter_cons_of_pos hnew, List.filter_nil]
    refine iff_of_true ⟨_, last_mem_latest (by decide) _ _, rfl, rfl⟩ fun hagain => ?_
    exact absurd ((hqueued _).mpr hagain) hbefore

end GuardianState

namespace LocalLink
variable {check : WrapCheck} {l : LocalLink} {e : QueuedWrap}

open GuardianState

/-- An OK of the entry's own machine, for a wrap that was handed to it. -/
def Answers (l : LocalLink) (e : QueuedWrap) : LinkAction → Prop
  | .okFrame id wrap _ _ => l.peers id = some e.machine ∧ e.wrap.id = wrap ∧
      l.st.takesOk id e.machine wrap = true
  | _ => False

/-- The queue that an action prunes, and when. -/
def prunes (l : LocalLink) : LinkAction → Option (List QueuedWrap × Nat)
  | .send recipient wrap now _ => some ((l.st.pushed recipient wrap now).queue, now)
  | .flushPass _ now => some (l.st.queue, now)
  | _ => none

/-- What an action does to the books: they stay within bounds, and an entry leaves for a reason. -/
structure Kept (check : WrapCheck) (l : LocalLink) (a : LinkAction) : Prop where
  within : (l.step check a).1.st.Within
  leaves : ∀ e ∈ l.st.queue, e ∈ (l.step check a).1.st.queue ∨ Answers l e a ∨
    ∃ q now, prunes l a = some (q, now) ∧ Dropped q now e ∧
      ∀ r, l.st.Awaits e now r → .event (rejection e) ∈ (l.step check a).2

theorem Kept.of_sameBooks {a : LinkAction} (h : l.st.Within)
    (hsame : SameBooks l.st (l.step check a).1.st) : Kept check l a := by
  refine ⟨hsame.within h, fun e he => .inl ?_⟩
  rwa [hsame.queue]

theorem become_effects {r : GuardianState × List GuardianEvent} {x : GuardianEvent}
    (h : x ∈ r.2) : LinkEffect.event x ∈ (l.become r).2 := List.mem_map_of_mem h

/-- A section that prunes a queue which holds all that was queued. -/
theorem Kept.of_prune {a : LinkAction} (st : GuardianState) {now : Nat} (hfew : st.Few)
    (hafter : (l.step check a).1.st.Few)
    (hmem : ∀ e ∈ l.st.queue, e ∈ st.queue) (hdelivery : st.delivery = l.st.delivery)
    (hprunes : prunes l a = some (st.queue, now))
    (hqueue : (l.step check a).1.st.queue = (pruneQueue st.queue now).1)
    (hevents : ∀ x ∈ (st.prune now).2, LinkEffect.event x ∈ (l.step check a).2) :
    Kept check l a := by
  refine ⟨.of_prune hafter hqueue, fun e he => ?_⟩
  obtain hstays | ⟨hdropped, hreport⟩ := @prune_leaves st e now hfew (hmem e he)
  · rw [prune_queue, ← hqueue] at hstays
    exact .inl hstays
  · refine .inr (.inr ⟨st.queue, now, hprunes, hdropped, fun r hr => hevents _ (hreport r ?_)⟩)
    exact ⟨hdelivery ▸ hr.found, hr.mine, hr.waits, hr.young⟩

theorem kept_send (h : l.st.Within) (recipient : PubKey) (wrap : NostrEvent) (now : Nat)
    (room : Bool) : Kept check l (.send recipient wrap now room) := by
  by_cases hvalid : validateWrapFor check wrap recipient = .ok ()
  · have hstep : (l.step check (.send recipient wrap now room)).1.st =
        (l.st.send recipient wrap now room).2.2.1 := by
      rw [step]
      rw [hvalid]
      rfl
    by_cases hgoes : l.st.closed = false ∧ recipient ∈ l.st.allowed
    · refine Kept.of_prune (l.st.pushed recipient wrap now) (pushed_few h.few) ?_
        (fun e he => mem_pushed he) ?_ rfl ?_ ?_
      · rw [hstep]
        exact send_few wrap now room h.few
      · unfold pushed
        split
        · rfl
        · rfl
      · rw [hstep]
        exact send_queue wrap now room hgoes.1 hgoes.2
      · intro x hx
        have hsend : x ∈ (l.st.send recipient wrap now room).2.2.2 := by
          rw [send_eq wrap now room hgoes.1 hgoes.2]
          exact List.mem_append_left _ hx
        rw [step]
        rw [hvalid]
        dsimp only
        rw [List.append_assoc]
        exact List.mem_append_left _ (List.mem_map_of_mem hsend)
    · obtain ⟨reason, hturned⟩ := send_turned wrap now room hgoes
      refine .of_sameBooks h ?_
      rw [hstep, hturned]
      exact ⟨rfl, rfl⟩
  · refine .of_sameBooks h ?_
    rw [step]
    split
    · exact ⟨rfl, rfl⟩
    · rename_i hok
      exact absurd hok hvalid

theorem kept_flushPass (h : l.st.Within) (id now : Nat) : Kept check l (.flushPass id now) := by
  cases hpeer : l.peers id with
  | none =>
    refine .of_sameBooks h ?_
    rw [step]
    rw [hpeer]
    exact ⟨rfl, rfl⟩
  | some machine =>
    by_cases hturn : l.taken id = [] ∧ (l.st.sessions.get? id).all (·.wake)
    · have hstep : l.step check (.flushPass id now) =
          (l.hold id ((l.st.flushPass id machine now).1.getD [])).become
            (l.st.flushPass id machine now).2 := by
        rw [step]
        rw [hpeer]
        exact if_pos hturn
      obtain ⟨hqueue, hfew⟩ := flushPass_books id machine now h.few
      refine Kept.of_prune l.st h.few ?_ (fun e he => he) rfl rfl ?_ ?_
      · rw [hstep]
        exact hfew
      · rw [hstep]
        exact hqueue
      · intro x hx
        rw [hstep]
        refine List.mem_map_of_mem ?_
        unfold flushPass
        dsimp only
        split
        · exact hx
        · exact List.mem_append_left _ hx
    · refine .of_sameBooks h ?_
      rw [step]
      rw [hpeer]
      dsimp only
      rw [if_neg hturn]
      exact ⟨rfl, rfl⟩

/-- **One step.**  Whatever happens, the books stay within their bounds, and an entry leaves the
queue for a reason. -/
theorem kept_step (h : l.st.Within) (a : LinkAction) : Kept check l a := by
  cases a with
  | opened machine localIp now started =>
    refine .of_sameBooks h ?_
    rw [step]
    cases henter : l.st.enter machine localIp now started with
    | none => exact ⟨rfl, rfl⟩
    | some r =>
      obtain ⟨ids, rfl⟩ := enter_eq henter
      exact ⟨rfl, rfl⟩
  | broken id => exact .of_sameBooks h ⟨rfl, rfl⟩
  | ended id => exact .of_sameBooks h (dropSession_sameBooks id)
  | setAllowed allowed =>
    have hdropped := @dropSessions_sameBooks { l.st with allowed := allowed.toFinset }
      (GuardianState.idsWhere { l.st with allowed := allowed.toFinset } fun s =>
        decide (s.machine ∉ allowed.toFinset))
    exact .of_sameBooks h ⟨hdropped.queue, hdropped.delivery⟩
  | setAccepting on =>
    refine .of_sameBooks h ?_
    show SameBooks l.st (l.st.setAccepting on).1
    unfold GuardianState.setAccepting
    dsimp only
    split
    · exact ⟨rfl, rfl⟩
    · have hdropped := @dropSessions_sameBooks { l.st with accepting := on }
        (GuardianState.idsWhere { l.st with accepting := on } fun _ => true)
      exact ⟨hdropped.queue, hdropped.delivery⟩
  | setAcceptAddresses addrs =>
    refine .of_sameBooks h ?_
    show SameBooks l.st (l.st.setAcceptAddresses addrs).1
    unfold GuardianState.setAcceptAddresses
    dsimp only
    exact ⟨dropSessions_sameBooks _ |>.queue, dropSessions_sameBooks _ |>.delivery⟩
  | shutdown => exact .of_sameBooks h ⟨rfl, rfl⟩
  | send recipient wrap now room => exact kept_send h recipient wrap now room
  | flushPass id now => exact kept_flushPass h id now
  | flushPut id =>
    refine .of_sameBooks h ?_
    rw [step]
    split
    · exact ⟨rfl, rfl⟩
    · exact ⟨rfl, rfl⟩
  | okFrame id wrap accepted now =>
    cases hpeer : l.peers id with
    | none =>
      refine .of_sameBooks h ?_
      rw [step]
      rw [hpeer]
      exact ⟨rfl, rfl⟩
    | some machine =>
      have hstep : (l.step check (.okFrame id wrap accepted now)).1.st =
          (l.st.onOk id machine wrap accepted now).1 := by
        rw [step]
        rw [hpeer]
        rfl
      obtain ⟨hfew, hqueue⟩ := onOk_books h.few id machine wrap accepted now
      rw [← hstep] at hfew hqueue
      obtain hsame | ⟨htakes, hout⟩ := hqueue
      · refine ⟨⟨hfew, hsame ▸ h.caps⟩, fun e he => .inl (hsame ▸ he)⟩
      · refine ⟨⟨hfew, fun m => ?_⟩, fun e he => ?_⟩
        · rw [hout]
          exact (List.filter_sublist.filter _).length_le.trans (h.caps m)
        · rw [hout]
          by_cases hmine : e.machine = machine ∧ e.wrap.id = wrap
          · obtain ⟨rfl, rfl⟩ := hmine
            exact .inr (.inl ⟨hpeer, rfl, htakes⟩)
          · refine .inl (List.mem_filter.mpr ⟨he, ?_⟩)
            unfold ofWrap
            simpa only [Bool.not_eq_true', Bool.and_eq_false_iff, decide_eq_false_iff_not] using
              not_and_or.mp hmine
  | ackFrame id wrap result verified now =>
    cases hpeer : l.peers id with
    | none =>
      refine .of_sameBooks h ?_
      rw [step, hpeer]
      exact ⟨rfl, rfl⟩
    | some machine =>
      obtain ⟨hfew, hqueue⟩ := onAck_books h.few machine wrap result now
      cases verified with
      | false =>
        refine .of_sameBooks h ?_
        rw [step, hpeer]
        exact ⟨rfl, rfl⟩
      | true =>
        have hstep : (l.step check (.ackFrame id wrap result true now)).1.st =
            (l.st.onAck machine wrap result now).1 := by
          rw [step, hpeer]
          rfl
        rw [← hstep] at hfew hqueue
        exact ⟨⟨hfew, hqueue ▸ h.caps⟩, fun e he => .inl (hqueue ▸ he)⟩

end LocalLink

end Kintrinsic
