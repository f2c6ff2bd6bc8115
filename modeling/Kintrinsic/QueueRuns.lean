import Kintrinsic.QueueLaw

/-! # Runs of the guardian's queue

What a session was handed it keeps a mark of.  A mark stands for a frame on the channel, or for one
that the session's flusher holds and puts there next. -/
namespace Kintrinsic

open EffectRun GuardedRun

/-! ## What a session was handed -/

namespace GuardianState
variable {st : GuardianState}

theorem newest_spec {machine : PubKey} {s : Session} (h : st.newest machine = some s) :
    s ∈ st.sessions.entries ∧ s.machine = machine ∧ s.closed = false := by
  have hmem := (mem_of_foldl_choice ?_ h).resolve_left (by simp)
  · obtain ⟨hs, hopen⟩ := List.mem_filter.mp hmem
    simpa [hs] using hopen
  · intro b a e h
    unfold newerSession at h
    split at h
    · exact .inr (Option.some.inj h).symm
    · split at h
      · exact .inr (Option.some.inj h).symm
      · exact .inl h

theorem prune_sessions (st : GuardianState) (now : Nat) :
    (st.prune now).1.sessions = st.sessions ∧ (st.prune now).1.nextSession = st.nextSession := by
  obtain ⟨⟨d, hd⟩, -⟩ := st.prune_recordsOnly now
  rw [hd]
  exact ⟨rfl, rfl⟩

theorem setDelivery_sessions (st : GuardianState) (wrap : EventId) (machine : PubKey)
    (state : DeliveryState) (now : Nat) :
    (st.setDelivery wrap machine state now).1.sessions = st.sessions ∧
      (st.setDelivery wrap machine state now).1.nextSession = st.nextSession := by
  obtain ⟨d, hd⟩ := st.setDelivery_frame wrap machine state now
  rw [hd]
  exact ⟨rfl, rfl⟩

theorem pushed_sessions (recipient : PubKey) (wrap : NostrEvent) (now : Nat) :
    (st.pushed recipient wrap now).sessions = st.sessions ∧
      (st.pushed recipient wrap now).nextSession = st.nextSession := by
  unfold pushed
  split
  · exact ⟨rfl, rfl⟩
  · exact ⟨rfl, rfl⟩

theorem foldl_recordSent_sessions {machine : PubKey} {now : Nat} (wraps : List NostrEvent)
    (r : GuardianState × List GuardianEvent) :
    (wraps.foldl (recordSent machine now) r).1.sessions = r.1.sessions ∧
      (wraps.foldl (recordSent machine now) r).1.nextSession = r.1.nextSession := by
  induction wraps generalizing r with
  | nil => exact ⟨rfl, rfl⟩
  | cons w wraps ih =>
    obtain ⟨hsessions, hnext⟩ := ih (recordSent machine now r w)
    obtain ⟨hsessions', hnext'⟩ := setDelivery_sessions r.1 w.id machine .sent now
    exact ⟨hsessions.trans hsessions', hnext.trans hnext'⟩

theorem onOk_sessions (st : GuardianState) (id : Nat) (machine : PubKey) (wrap : EventId)
    (accepted : Bool) (now : Nat) :
    (st.onOk id machine wrap accepted now).1.sessions = st.sessions ∧
      (st.onOk id machine wrap accepted now).1.nextSession = st.nextSession := by
  unfold onOk
  split
  · dsimp only
    split
    · exact setDelivery_sessions _ _ _ _ _
    · exact ⟨rfl, rfl⟩
  · exact ⟨rfl, rfl⟩

theorem onAck_sessions (st : GuardianState) (machine : PubKey) (wrap : EventId)
    (result : AckResult) (now : Nat) :
    (st.onAck machine wrap result now).1.sessions = st.sessions ∧
      (st.onAck machine wrap result now).1.nextSession = st.nextSession := by
  unfold onAck
  split
  · exact setDelivery_sessions _ _ _ _ _
  · exact ⟨rfl, rfl⟩

/-- How a wrap is handed on: not at all, because the newest session has it, over its channel, or to
its flusher. -/
theorem handOn_cases (st : GuardianState) (machine : PubKey) (id : EventId) (room : Bool) :
    st.handOn machine id room = (st, false, none) ∨
    ∃ s, st.newest machine = some s ∧
      (id ∈ s.sent ∧ st.handOn machine id room = (st, true, none) ∨
        st.handOn machine id room = (st.mark s.id {id}, true, some s.id) ∨
        st.handOn machine id room =
          (st.setSession s.id fun s => { s with wake := true }, false, none)) := by
  unfold handOn
  cases hnewest : st.newest machine with
  | none => exact .inl rfl
  | some s =>
    refine .inr ⟨s, rfl, ?_⟩
    dsimp only
    by_cases hsent : id ∈ s.sent
    · rw [if_pos hsent]
      exact .inl ⟨hsent, rfl⟩
    · rw [if_neg hsent]
      cases room with
      | true => exact .inr (.inl rfl)
      | false => exact .inr (.inr rfl)

theorem setSession_congr {st' : GuardianState} (h : st.sessions = st'.sessions) (id : Nat)
    (f : Session → Session) : (st.setSession id f).sessions = (st'.setSession id f).sessions := by
  unfold setSession
  dsimp only
  rw [h]

/-- A session after a change of one. -/
theorem mem_setSession {id : Nat} {f : Session → Session} {s : Session}
    (h : s ∈ (st.setSession id f).sessions.entries) :
    ∃ s₀ ∈ st.sessions.entries, s.id = s₀.id ∧
      (s₀.id ≠ id ∧ s = s₀ ∨ s₀.id = id ∧ s = { f s₀ with id := id }) := by
  obtain ⟨s₀, hs₀, rfl⟩ := List.mem_map.mp h
  refine ⟨s₀, hs₀, changeAt_id id f s₀, ?_⟩
  unfold changeAt
  by_cases hid : s₀.id = id
  · rw [if_pos hid]
    exact .inr ⟨hid, rfl⟩
  · rw [if_neg hid]
    exact .inl ⟨hid, rfl⟩

end GuardianState

namespace LocalLink
variable {check : WrapCheck} {l : LocalLink}

open GuardianState

/-- Every wrap that is marked on a session that is open has been put on its channel, or its flusher
is about to put it there. -/
structure Marked (l : LocalLink) (seen : List LinkEffect) : Prop where
  peers : ∀ s ∈ l.st.sessions.entries, l.peers s.id = some s.machine ∧ s.id < l.st.nextSession
  marks : ∀ s ∈ l.st.sessions.entries, s.closed = false → ∀ id ∈ s.sent,
    .put s.machine id ∈ seen ∨ ∃ w ∈ l.taken s.id, w.id = id

variable {seen : List LinkEffect}

/-- Sessions go, and more is seen. -/
theorem Marked.of_subset (h : Marked l seen) {l' : LocalLink} (more : List LinkEffect)
    (hsessions : ∀ s ∈ l'.st.sessions.entries, s ∈ l.st.sessions.entries)
    (hnext : l'.st.nextSession = l.st.nextSession) (hpeers : l'.peers = l.peers)
    (htaken : ∀ s ∈ l'.st.sessions.entries, l'.taken s.id = l.taken s.id) :
    Marked l' (seen ++ more) := by
  refine ⟨fun s hs => ?_, fun s hs hopen id hid => ?_⟩
  · rw [hpeers, hnext]
    exact h.peers s (hsessions s hs)
  · rw [htaken s hs]
    exact (h.marks s (hsessions s hs) hopen id hid).imp_left (List.mem_append_left more)

/-- The same sessions, and the same hands. -/
theorem Marked.of_eq (h : Marked l seen) {l' : LocalLink} (more : List LinkEffect)
    (hsessions : l'.st.sessions = l.st.sessions) (hnext : l'.st.nextSession = l.st.nextSession)
    (hpeers : l'.peers = l.peers) (htaken : l'.taken = l.taken) : Marked l' (seen ++ more) :=
  h.of_subset more (fun _ hs => hsessions ▸ hs) hnext hpeers fun _ _ => congrFun htaken _

theorem mem_evict {st : GuardianState} {ids : List Nat} {s : Session}
    (h : s ∈ (st.evict ids).sessions.entries) : s ∈ st.sessions.entries ∧ s.id ∉ ids := by
  obtain ⟨hs, hkept⟩ := List.mem_filter.mp h
  exact ⟨hs, of_decide_eq_true hkept⟩

/-- One session changes, and its marks are accounted for. -/
theorem Marked.of_setSession (h : Marked l seen) {l' : LocalLink} (more : List LinkEffect) (id : Nat)
    (f : Session → Session) (hsessions : l'.st.sessions = (l.st.setSession id f).sessions)
    (hnext : l'.st.nextSession = l.st.nextSession) (hpeers : l'.peers = l.peers)
    (htaken : ∀ i, i ≠ id → l'.taken i = l.taken i) (hmachine : ∀ s, (f s).machine = s.machine)
    (hmarks : ∀ s ∈ l.st.sessions.entries, s.id = id → (f s).closed = false → ∀ w ∈ (f s).sent,
      .put s.machine w ∈ seen ++ more ∨ ∃ x ∈ l'.taken id, x.id = w) :
    Marked l' (seen ++ more) := by
  have hmem : ∀ s ∈ l'.st.sessions.entries, ∃ s₀ ∈ l.st.sessions.entries, s.id = s₀.id ∧
      (s₀.id ≠ id ∧ s = s₀ ∨ s₀.id = id ∧ s = { f s₀ with id := id }) :=
    fun s hs => mem_setSession (hsessions ▸ hs)
  refine ⟨fun s hs => ?_, fun s hs hopen w hw => ?_⟩
  · obtain ⟨s₀, hs₀, hid, ⟨-, rfl⟩ | ⟨-, rfl⟩⟩ := hmem s hs
    · rw [hpeers, hnext]
      exact h.peers s hs₀
    · rw [hpeers, hnext, hid]
      dsimp only
      rw [hmachine]
      exact h.peers s₀ hs₀
  · obtain ⟨s₀, hs₀, hid, ⟨hne, rfl⟩ | ⟨heq, rfl⟩⟩ := hmem s hs
    · rw [htaken _ hne]
      exact (h.marks s hs₀ hopen w hw).imp_left (List.mem_append_left more)
    · dsimp only at hopen hw ⊢
      rw [hmachine]
      exact hmarks s₀ hs₀ heq hopen w hw

/-- Where `send` leaves a wrap: what it reports as sent is marked on an open session. -/
theorem marked_send (h : Marked l seen) (recipient : PubKey) (wrap : NostrEvent) (now : Nat)
    (room : Bool) :
    Marked (l.step check (.send recipient wrap now room)).1
      (seen ++ (l.step check (.send recipient wrap now room)).2) := by
  cases hvalid : validateWrapFor check wrap recipient with
  | error e =>
    rw [step, hvalid]
    exact h.of_eq _ rfl rfl rfl rfl
  | ok _ =>
    rw [step, hvalid]
    by_cases hgoes : l.st.closed = false ∧ recipient ∈ l.st.allowed
    · rw [send_eq wrap now room hgoes.1 hgoes.2]
      generalize hpruned : ((l.st.pushed recipient wrap now).prune now) = pruned
      have hsessions : pruned.1.sessions = l.st.sessions ∧
          pruned.1.nextSession = l.st.nextSession := by
        rw [← hpruned, (prune_sessions _ now).1, (prune_sessions _ now).2]
        exact pushed_sessions recipient wrap now
      dsimp only
      have hrecorded : ∀ (st : GuardianState) (state : DeliveryState),
          (st.setDelivery wrap.id recipient state now).1.sessions = st.sessions ∧
            (st.setDelivery wrap.id recipient state now).1.nextSession = st.nextSession :=
        fun st state => setDelivery_sessions st _ _ _ _
      obtain hhanded | ⟨s, hnewest, hhanded⟩ := handOn_cases pruned.1 recipient wrap.id room
      · rw [hhanded]
        exact h.of_eq _ ((hrecorded _ _).1.trans hsessions.1) ((hrecorded _ _).2.trans hsessions.2)
          rfl rfl
      obtain ⟨hmem, hmine, -⟩ := newest_spec hnewest
      rw [hsessions.1] at hmem
      obtain ⟨-, hhanded⟩ | hhanded | hhanded := hhanded
      · rw [hhanded]
        exact h.of_eq _ ((hrecorded _ _).1.trans hsessions.1) ((hrecorded _ _).2.trans hsessions.2)
          rfl rfl
      · rw [hhanded]
        refine h.of_setSession _ s.id (fun s => { s with sent := s.sent ∪ {wrap.id} })
          ((hrecorded _ _).1.trans ?_) ((hrecorded _ _).2.trans hsessions.2) rfl (fun _ _ => rfl)
          (fun _ => rfl) ?_
        · exact setSession_congr hsessions.1 _ _
        · intro s' hs' hid hopen w hw
          rcases Finset.mem_union.mp hw with hw | hw
          · have hmarked := h.marks s' hs' hopen w hw
            rw [hid] at hmarked
            exact hmarked.imp_left (List.mem_append_left _)
          · obtain rfl := Finset.mem_singleton.mp hw
            obtain rfl := List.inj_on_of_nodup_map l.st.sessions.nodup hs' hmem hid
            refine .inl (List.mem_append_right _ ?_)
            rw [hmine]
            simp
      · rw [hhanded]
        refine h.of_setSession _ s.id (fun s => { s with wake := true })
          ((hrecorded _ _).1.trans ?_) ((hrecorded _ _).2.trans hsessions.2) rfl (fun _ _ => rfl)
          (fun _ => rfl) ?_
        · exact setSession_congr hsessions.1 _ _
        · intro s' hs' hid hopen w hw
          have hmarked := h.marks s' hs' hopen w hw
          rw [hid] at hmarked
          exact hmarked.imp_left (List.mem_append_left _)
    · obtain ⟨reason, hturned⟩ := send_turned wrap now room hgoes
      rw [hturned]
      exact h.of_eq _ rfl rfl rfl rfl

theorem marked_flushPass (h : Marked l seen) (id now : Nat) :
    Marked (l.step check (.flushPass id now)).1 (seen ++ (l.step check (.flushPass id now)).2) := by
  cases hpeer : l.peers id with
  | none =>
    rw [step, hpeer]
    exact h.of_eq _ rfl rfl rfl rfl
  | some machine =>
    rw [step, hpeer]
    dsimp only
    by_cases hturn : l.taken id = [] ∧ (l.st.sessions.get? id).all (·.wake)
    · rw [if_pos hturn]
      obtain ⟨hsame, hnext⟩ := prune_sessions l.st now
      unfold flushPass
      dsimp only
      cases hs : (l.st.prune now).1.sessions.get? id with
      | none =>
        dsimp only
        refine h.of_subset _ (fun s hs => hsame ▸ hs) hnext rfl fun s hmem => ?_
        by_cases hid : s.id = id
        · rw [hid, hturn.1]
          exact if_pos rfl
        · exact if_neg hid
      | some s =>
        dsimp only
        rw [hsame] at hs
        obtain ⟨hmem, hid⟩ := Registry.get?_eq_some.mp hs
        obtain ⟨hsessions, hnext'⟩ := @foldl_recordSent_sessions machine now
          ((l.st.prune now).1.unwritten machine s)
          ((l.st.prune now).1.setSession id ((l.st.prune now).1.passed machine), [])
        refine h.of_setSession _ id ((l.st.prune now).1.passed machine)
          (hsessions.trans ?_) (hnext'.trans hnext) rfl (fun i hi => if_neg hi) (fun _ => rfl) ?_
        · exact setSession_congr hsame _ _
        · intro s' hs' hid' hopen w hw
          obtain rfl := List.inj_on_of_nodup_map l.st.sessions.nodup hs' hmem (hid'.trans hid.symm)
          rcases Finset.mem_union.mp hw with hw | hw
          · -- the flusher held nothing: what was marked before has been put
            have hmarked := h.marks s' hs' hopen w (Finset.mem_inter.mp hw).1
            rw [hid', hturn.1] at hmarked
            refine .inl (List.mem_append_left _ (hmarked.resolve_right ?_))
            rintro ⟨x, hx, -⟩
            cases hx
          · obtain ⟨x, hx, rfl⟩ := List.mem_map.mp (List.mem_toFinset.mp hw)
            refine .inr ⟨x, ?_, rfl⟩
            show x ∈ if id = id then _ else _
            rw [if_pos rfl]
            exact hx
    · rw [if_neg hturn]
      exact h.of_eq _ rfl rfl rfl rfl

theorem marked_flushPut (h : Marked l seen) (id : Nat) :
    Marked (l.step check (.flushPut id)).1 (seen ++ (l.step check (.flushPut id)).2) := by
  rw [step]
  split
  · rename_i machine w ws hpeer htaken
    refine ⟨h.peers, fun s hs hopen i hi => ?_⟩
    change s ∈ l.st.sessions.entries at hs
    have hmarked := h.marks s hs hopen i hi
    by_cases hid : s.id = id
    · have hmine : s.machine = machine := by
        have hpeers := (h.peers s hs).1
        rw [hid, hpeer] at hpeers
        exact (Option.some.inj hpeers).symm
      have hlive : l.live id = true := by
        unfold live
        rw [Registry.get?_eq_some.mpr ⟨hs, hid⟩, Option.any_some, hopen]
        rfl
      rw [hlive, if_pos rfl]
      rw [hid, htaken] at hmarked
      obtain hput | ⟨x, hx, rfl⟩ := hmarked
      · exact .inl (List.mem_append_left _ hput)
      · rcases List.mem_cons.mp hx with rfl | hx
        · rw [hmine]
          exact .inl (List.mem_append_right _ (List.mem_singleton_self _))
        · refine .inr ⟨x, ?_, rfl⟩
          show x ∈ if s.id = id then _ else _
          rwa [if_pos hid]
    · refine hmarked.imp (List.mem_append_left _) ?_
      rintro ⟨x, hx, hxi⟩
      refine ⟨x, ?_, hxi⟩
      show x ∈ if s.id = id then _ else _
      rwa [if_neg hid]
  · exact h.of_eq _ rfl rfl rfl rfl

theorem marked_step (h : Marked l seen) (a : LinkAction) :
    Marked (l.step check a).1 (seen ++ (l.step check a).2) := by
  cases a with
  | opened machine localIp now started =>
    rw [step]
    cases henter : l.st.enter machine localIp now started with
    | none => exact h.of_eq _ rfl rfl rfl rfl
    | some r =>
      obtain ⟨ids, rfl⟩ := enter_eq henter
      have hmem : ∀ s ∈ ((l.st.evict ids).join machine localIp now started).1.sessions.entries,
          s = ⟨l.st.nextSession, machine, localIp, now, started, false, ∅, true⟩ ∨
            s ∈ l.st.sessions.entries := by
        intro s hs
        rcases List.mem_cons.mp hs with rfl | hs
        · exact .inl rfl
        · exact .inr (mem_evict (List.mem_of_mem_filter hs)).1
      refine ⟨fun s hs => ?_, fun s hs hopen w hw => ?_⟩
      · obtain rfl | hs := hmem s hs
        · exact ⟨if_pos rfl, Nat.lt_succ_self _⟩
        · obtain ⟨hpeer, hlt⟩ := h.peers s hs
          exact ⟨(if_neg hlt.ne).trans hpeer, hlt.trans (Nat.lt_succ_self _)⟩
      · obtain rfl | hs := hmem s hs
        · exact absurd hw (Finset.notMem_empty w)
        · exact (h.marks s hs hopen w hw).imp_left (List.mem_append_left _)
  | broken id =>
    refine h.of_setSession _ id _ rfl rfl rfl (fun _ _ => rfl) (fun _ => rfl) ?_
    intro s _ _ hopen
    cases hopen
  | ended id =>
    rw [step]
    refine h.of_subset _ ?_ ?_ rfl ?_
    · intro s hs
      rw [become, dropSession_state] at hs
      exact (mem_evict hs).1
    · rw [become, dropSession_state]
      rfl
    · intro s hs
      rw [become, dropSession_state] at hs
      have hne : s.id ≠ id := fun heq => (mem_evict hs).2 (List.mem_singleton.mpr heq)
      exact if_neg hne
  | setAllowed allowed =>
    rw [step]
    refine h.of_subset _ (fun s hs => ?_) ?_ rfl fun _ _ => rfl
    · rw [become, setAllowed, dropSessions_state] at hs
      exact (mem_evict hs).1
    · rw [become, setAllowed, dropSessions_state]
      rfl
  | setAccepting on =>
    rw [step]
    cases on with
    | true => exact h.of_eq _ rfl rfl rfl rfl
    | false =>
      have hstate : (l.st.setAccepting false).1 =
          ({ l.st with accepting := false } : GuardianState).evict (l.st.idsWhere fun _ => true) :=
        dropSessions_state _ _
      refine h.of_subset _ (fun s hs => ?_) ?_ rfl fun _ _ => rfl
      · rw [become, hstate] at hs
        exact (mem_evict hs).1
      · rw [become, hstate]
        rfl
  | setAcceptAddresses addrs =>
    rw [step]
    refine h.of_subset _ (fun s hs => ?_) ?_ rfl fun _ _ => rfl
    · rw [become, setAcceptAddresses, dropSessions_state] at hs
      exact (mem_evict hs).1
    · rw [become, setAcceptAddresses, dropSessions_state]
      rfl
  | shutdown => exact h.of_subset _ (fun s hs => absurd hs List.not_mem_nil) rfl rfl fun _ _ => rfl
  | send recipient wrap now room => exact marked_send h recipient wrap now room
  | flushPass id now => exact marked_flushPass h id now
  | flushPut id => exact marked_flushPut h id
  | okFrame id wrap accepted now =>
    rw [step]
    cases l.peers id with
    | none => exact h.of_eq _ rfl rfl rfl rfl
    | some machine =>
      obtain ⟨hsessions, hnext⟩ := l.st.onOk_sessions id machine wrap accepted now
      exact h.of_eq _ hsessions hnext rfl rfl
  | ackFrame id wrap result verified now =>
    rw [step]
    cases l.peers id with
    | none => exact h.of_eq _ rfl rfl rfl rfl
    | some machine =>
      obtain ⟨hsessions, hnext⟩ := l.st.onAck_sessions machine wrap result now
      cases verified with
      | true => exact h.of_eq _ hsessions hnext rfl rfl
      | false => exact h.of_eq _ rfl rfl rfl rfl

end LocalLink

/-! ## Every run -/

namespace GuardianState
variable {st : GuardianState}

/-- What `send` reports as sent is marked on an open session of its recipient. -/
theorem send_sent {recipient : PubKey} {wrap : NostrEvent} {now : Nat} {room : Bool}
    (h : (st.send recipient wrap now room).1 = .sent) :
    ∃ s ∈ (st.send recipient wrap now room).2.2.1.sessions.entries,
      s.machine = recipient ∧ s.closed = false ∧ wrap.id ∈ s.sent := by
  by_cases hgoes : st.closed = false ∧ recipient ∈ st.allowed
  · rw [send_eq wrap now room hgoes.1 hgoes.2] at h ⊢
    generalize ((st.pushed recipient wrap now).prune now) = pruned at h ⊢
    dsimp only at h ⊢
    rw [(setDelivery_sessions _ _ _ _ _).1]
    obtain hhanded | ⟨s, hnewest, hhanded⟩ := handOn_cases pruned.1 recipient wrap.id room
    · rw [hhanded] at h
      simp at h
    obtain ⟨hmem, hmine, hopen⟩ := newest_spec hnewest
    obtain ⟨hsent, hhanded⟩ | hhanded | hhanded := hhanded
    · rw [hhanded]
      exact ⟨s, hmem, hmine, hopen, hsent⟩
    · rw [hhanded]
      refine ⟨_, List.mem_map_of_mem hmem, ?_⟩
      unfold changeAt
      rw [if_pos rfl]
      exact ⟨hmine, hopen, Finset.mem_union_right _ (Finset.mem_singleton_self _)⟩
    · rw [hhanded] at h
      simp at h
  · obtain ⟨reason, hturned⟩ := send_turned wrap now room hgoes
    rw [hturned] at h
    cases h

end GuardianState

namespace LocalLink
variable {check : WrapCheck} {l : LocalLink}

open GuardianState

theorem within_start (queue : List QueuedWrap) (delivery : Registry DeliveryEntry.wrap)
    (allowed : List PubKey) (now : Nat) : (start queue delivery allowed now).st.Within := by
  have hqueue := prune_queue (GuardianState.loaded queue delivery allowed) now
  refine ⟨?_, fun m => ?_⟩
  · unfold Few start
    dsimp only
    exact length_pruneDelivery _ now
  · unfold start
    dsimp only
    rw [hqueue]
    exact queuedFor_pruneQueue _ now m

theorem within_run (h : l.st.Within) (as : List LinkAction) : (l.run check as).st.Within := by
  unfold run
  rw [run_state]
  exact @foldl_invariant _ _ (fun l a => (step check l a).1) _ (fun l => l.st.Within)
    (fun l a hl => (kept_step hl a).within) as h

theorem marked_run {seen : List LinkEffect} (h : Marked l seen) (as : List LinkAction) :
    Marked (l.run check as) (seen ++ effects (step check) l as) := by
  induction as generalizing l seen with
  | nil =>
    rw [effects_nil, List.append_nil]
    exact h
  | cons a as ih =>
    have hrest := ih (@marked_step check l seen h a)
    rw [effects_cons, ← List.append_assoc]
    exact hrest

theorem marked_start (queue : List QueuedWrap) (delivery : Registry DeliveryEntry.wrap)
    (allowed : List PubKey) (now : Nat) : Marked (start queue delivery allowed now) [] := by
  have hnone : (start queue delivery allowed now).st.sessions.entries = [] :=
    congrArg Registry.entries (prune_sessions (GuardianState.loaded queue delivery allowed) now).1
  refine ⟨fun s hs => ?_, fun s hs => ?_⟩
  · rw [hnone] at hs
    cases hs
  · rw [hnone] at hs
    cases hs

/-- A flusher of an open session of the machine holds the wrap, to put it on the channel next. -/
def InHand (l : LocalLink) (machine : PubKey) (id : EventId) : Prop :=
  ∃ s ∈ l.st.sessions.entries, s.machine = machine ∧ s.closed = false ∧
    ∃ w ∈ l.taken s.id, w.id = id

theorem sent_put {queue : List QueuedWrap} {delivery : Registry DeliveryEntry.wrap}
    {allowed : List PubKey} {now₀ : Nat} (as : List LinkAction) {recipient : PubKey}
    {wrap : NostrEvent} {now : Nat} {room : Bool}
    (hvalid : validateWrapFor check wrap recipient = .ok ())
    (hsent : (((start queue delivery allowed now₀).run check as).st.send recipient wrap now room).1 =
      .sent) :
    .put recipient wrap.id ∈ effects (step check) (start queue delivery allowed now₀)
        (as ++ [.send recipient wrap now room]) ∨
      InHand ((start queue delivery allowed now₀).run check (as ++ [.send recipient wrap now room]))
        recipient wrap.id := by
  have hmarked := @marked_run check _ _ (marked_start queue delivery allowed now₀)
    (as ++ [.send recipient wrap now room])
  obtain ⟨s, hs, hmine, hopen, hid⟩ := send_sent hsent
  have hstate : ((start queue delivery allowed now₀).run check
      (as ++ [.send recipient wrap now room])).st =
        (((start queue delivery allowed now₀).run check as).st.send recipient wrap now room).2.2.1 := by
    unfold run
    rw [run_append_singleton, step, hvalid]
    rfl
  rw [← hstate] at hs
  obtain hput | htaken := hmarked.marks s hs hopen wrap.id hid
  · rw [hmine] at hput
    exact .inl hput
  · exact .inr ⟨s, hs, hmine, hopen, htaken⟩

/-- **The outbound queue keeps its word.**  In every run from a start on any files: no machine has
more than its cap queued; an entry leaves the queue only through an OK of its own machine, or because
its two days are over or its machine's cap is exceeded, and then a record that still waits is
reported as rejected; what `send` reports as sent or queued is in the queue, unless it had been
queued before and its two days are over; and what it reports as sent has been put on a channel of
its recipient, or an open session's flusher is about to put it there. -/
theorem outbound_law (check : WrapCheck) (queue : List QueuedWrap)
    (delivery : Registry DeliveryEntry.wrap) (allowed : List PubKey) (now₀ : Nat)
    (as : List LinkAction) :
    let l := (start queue delivery allowed now₀).run check as
    (∀ m, queuedFor m l.st.queue ≤ queuePerMachine) ∧
    (∀ a, ∀ e ∈ l.st.queue, e ∈ (l.step check a).1.st.queue ∨ Answers l e a ∨
      ∃ q now, prunes l a = some (q, now) ∧ Dropped q now e ∧
        ∀ r, l.st.Awaits e now r → .event (rejection e) ∈ (l.step check a).2) ∧
    ∀ recipient wrap now room,
      ((l.st.send recipient wrap now room).1 = .sent ∨
        (l.st.send recipient wrap now room).1 = .queued →
        ((l.st.send recipient wrap now room).2.2.1.isQueued recipient wrap.id = true ↔
          (l.st.isQueued recipient wrap.id = true → ∃ e ∈ l.st.queue, e.machine = recipient ∧
            e.wrap.id = wrap.id ∧ e.fresh now = true))) ∧
      (validateWrapFor check wrap recipient = .ok () →
        (l.st.send recipient wrap now room).1 = .sent →
        .put recipient wrap.id ∈ effects (step check) (start queue delivery allowed now₀)
            (as ++ [.send recipient wrap now room]) ∨
          InHand ((start queue delivery allowed now₀).run check
            (as ++ [.send recipient wrap now room])) recipient wrap.id) := by
  have hwithin := @within_run check _ (within_start queue delivery allowed now₀) as
  exact ⟨hwithin.caps, fun a => (kept_step hwithin a).leaves, fun recipient wrap now room =>
    ⟨send_held hwithin, sent_put as⟩⟩

/-! ### A wrap sent again -/

/-- Hashes and signatures that always fit. -/
def anyCheck : WrapCheck := ⟨⟨fun wrap => wrap.id, fun _ _ _ => true⟩, fun _ => 0⟩

def wardKey : PubKey := ⟨3⟩

/-- A wrap to the ward. -/
def letter : NostrEvent := ⟨⟨1⟩, ⟨7⟩, 100, Kinds.giftWrap, [["p", wardKey.toHex]], "", ⟨0⟩⟩

/-- Sent when two days are over since it was queued. -/
def sentLate : LocalLink :=
  (start [] .empty [wardKey] 0).run anyCheck [.send wardKey letter 0 true]

/-- **Reported as queued, and not in the queue.** -/
theorem queued_not_held : (sentLate.st.send wardKey letter queueTtl true).1 = .queued ∧
    (sentLate.st.send wardKey letter queueTtl true).2.2.1.isQueued wardKey letter.id = false := by
  exact ⟨by decide +kernel, by decide +kernel⟩

/-- To a session that is open. -/
def oneSession : List LinkAction := [.opened wardKey (.v4 0) 0 0]

theorem outbound_law_sent :
    .put wardKey letter.id ∈ effects (step anyCheck) (start [] .empty [wardKey] 0)
        (oneSession ++ [.send wardKey letter 1 true]) ∨
      InHand ((start [] .empty [wardKey] 0).run anyCheck
        (oneSession ++ [.send wardKey letter 1 true])) wardKey letter.id :=
  ((outbound_law anyCheck [] .empty [wardKey] 0 oneSession).2.2 wardKey letter 1 true).2
    (by decide +kernel) (by decide +kernel)

end LocalLink

end Kintrinsic
