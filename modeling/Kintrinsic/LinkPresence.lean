import Kintrinsic.EffectRun
import Kintrinsic.LinkFrames

/-! # Presence follows the sessions

The console learns of a ward machine's presence from events alone.  Sessions end in five places;
two of them, where a newcomer needs room, report nothing.  The reports alternate as long as no
newcomer displaces the only session of its own machine. -/
namespace Kintrinsic

open Alternation EffectRun GuardedRun

/-- What an event says about the presence of a machine. -/
def GuardianEvent.presence (m : PubKey) : GuardianEvent → Option Bool
  | session m' up => if m' = m then some up else none
  | _ => none

theorem GuardianEvent.presence_of_isDelivery (m : PubKey) {e : GuardianEvent}
    (h : e.isDelivery = true) : e.presence m = none := by
  cases e with
  | delivery => rfl
  | wrap => rfl
  | session => cases h

def LinkEffect.presence (m : PubKey) : LinkEffect → Option Bool
  | event e => e.presence m
  | _ => none

/-- The presence reports about a machine among some effects. -/
def presence (m : PubKey) (es : List LinkEffect) : List Bool := es.filterMap (LinkEffect.presence m)

theorem presence_append (m : PubKey) (es es' : List LinkEffect) :
    presence m (es ++ es') = presence m es ++ presence m es' := List.filterMap_append

/-- The reports of a section are those of its events. -/
theorem presence_become (m : PubKey) (l : LocalLink) (r : GuardianState × List GuardianEvent) :
    presence m (l.become r).2 = r.2.filterMap (GuardianEvent.presence m) := by
  rw [presence, LocalLink.become, List.filterMap_map]
  rfl

namespace GuardianState
variable {st st' : GuardianState} (m : PubKey)

/-- Whether a machine has a session. -/
def present (st : GuardianState) (m : PubKey) : Bool := decide (0 < st.sessionsOf m)

theorem present_iff : st.present m = true ↔ ∃ s ∈ st.sessions.entries, s.machine = m := by
  rw [present, decide_eq_true_eq, sessionsOf, Registry.count_pos_iff]
  simp only [decide_eq_true_eq]

/-- The table of sessions is numbered and within its bounds. -/
structure Seated (st : GuardianState) : Prop where
  fresh : ∀ s ∈ st.sessions.entries, s.id < st.nextSession
  few : st.sessions.entries.length ≤ maxSessions
  each : ∀ m, st.sessionsOf m ≤ maxSessionsPerMachine

/-- Every session may be there. -/
def Welcome (st : GuardianState) : Prop :=
  ∀ s ∈ st.sessions.entries,
    s.machine ∈ st.allowed ∧ st.localAllowed s.localIp = true ∧ st.accepting = true

/-- The events of a section report what it does to the presence of a machine. -/
def Reports (st : GuardianState) (m : PubKey) (r : GuardianState × List GuardianEvent) : Prop :=
  Flips (st.present m) (r.2.filterMap (GuardianEvent.presence m)) (r.1.present m)

/-! ## Sections that keep the door -/

theorem SameDoor.sessionsOf (h : SameDoor st st') : st'.sessionsOf m = st.sessionsOf m := by
  have hcount : ∀ st : GuardianState, st.sessionsOf m =
      ((st.sessions.entries.map Session.seat).filter fun x => decide (x.2.1 = m)).length := by
    intro st
    rw [List.filter_map, List.length_map]
    rfl
  rw [hcount st', h.seats, ← hcount st]

theorem SameDoor.present (h : SameDoor st st') : st'.present m = st.present m := by
  rw [GuardianState.present, h.sessionsOf m, GuardianState.present]

/-- Each session was there before, in its seat. -/
theorem SameDoor.seat_of_mem (h : SameDoor st st') {s : Session} (hs : s ∈ st'.sessions.entries) :
    ∃ s' ∈ st.sessions.entries, s'.seat = s.seat :=
  List.mem_map.mp (h.seats ▸ List.mem_map_of_mem hs)

theorem SameDoor.seated (h : SameDoor st st') (hst : st.Seated) : st'.Seated where
  fresh := by
    intro s hs
    obtain ⟨s', hs', hseat⟩ := h.seat_of_mem hs
    have hid : s'.id = s.id := congrArg Prod.fst hseat
    rw [h.nextSession, ← hid]
    exact hst.fresh s' hs'
  few := by
    have hlen := congrArg List.length h.seats
    rw [List.length_map, List.length_map] at hlen
    rw [hlen]
    exact hst.few
  each := by
    intro m
    rw [h.sessionsOf m]
    exact hst.each m

theorem SameDoor.localAllowed (h : SameDoor st st') (localIp : IpAddr) :
    st'.localAllowed localIp = st.localAllowed localIp := by
  unfold GuardianState.localAllowed
  rw [h.acceptAddrs]

theorem SameDoor.welcome (h : SameDoor st st') (hst : st.Welcome) : st'.Welcome := by
  intro s hs
  obtain ⟨s', hs', hseat⟩ := h.seat_of_mem hs
  have hmachine : s'.machine = s.machine := congrArg (fun x => x.2.1) hseat
  have hlocal : s'.localIp = s.localIp := congrArg (fun x => x.2.2) hseat
  rw [h.allowed, h.accepting, h.localAllowed, ← hmachine, ← hlocal]
  exact hst s' hs'

theorem QuietAtDoor.reports {r : GuardianState × List GuardianEvent} (h : st.QuietAtDoor r) :
    st.Reports m r := by
  have hnone : r.2.filterMap (GuardianEvent.presence m) = [] :=
    List.filterMap_eq_nil_iff.mpr fun e he => GuardianEvent.presence_of_isDelivery m (h.2 e he)
  unfold Reports
  rw [hnone, h.1.present m]
  exact Flips.refl _

/-! ## Sessions that go -/

theorem Seated.evict (h : st.Seated) (ids : List Nat) : (st.evict ids).Seated where
  fresh := fun s hs => h.fresh s (List.mem_of_mem_filter hs)
  few := (List.length_filter_le _ _).trans h.few
  each := fun m => (Registry.count_filter_le _).trans (h.each m)

theorem dropSession_state (st : GuardianState) (id : Nat) :
    (st.dropSession id).1 = st.evict [id] := by
  have hremove : st.evict [id] = { st with sessions := st.sessions.remove id } := by
    unfold evict Registry.remove
    simp only [List.mem_singleton]
  rw [hremove]
  unfold dropSession
  cases h : st.sessions.get? id with
  | none =>
    have hall : st.sessions.remove id = st.sessions := by
      have hfilter : st.sessions.entries.filter (fun s => decide (s.id ≠ id)) =
          st.sessions.entries := by
        rw [List.filter_eq_self]
        intro s hs
        rw [decide_eq_true_eq]
        intro hid
        exact absurd (decide_eq_true hid) (List.find?_eq_none.mp h s hs)
      unfold Registry.remove Registry.filter
      simp only [hfilter]
    rw [hall]
  | some s => rfl

theorem evict_evict (st : GuardianState) (ids ids' : List Nat) :
    (st.evict ids).evict ids' = st.evict (ids ++ ids') := by
  have hfilter : (st.sessions.entries.filter fun s => decide (s.id ∉ ids)).filter
      (fun s => decide (s.id ∉ ids')) =
      st.sessions.entries.filter fun s => decide (s.id ∉ ids ++ ids') := by
    rw [List.filter_filter]
    refine List.filter_congr fun s _ => ?_
    simp [Bool.and_comm]
  unfold evict Registry.filter
  simp only [hfilter]

theorem evict_nil (st : GuardianState) : st.evict [] = st := by
  have hfilter : st.sessions.entries.filter (fun s => decide (s.id ∉ [])) = st.sessions.entries := by
    simp
  unfold evict Registry.filter
  simp only [hfilter]

theorem dropSessions_state (st : GuardianState) (ids : List Nat) :
    (st.dropSessions ids).1 = st.evict ids := by
  induction ids generalizing st with
  | nil => exact st.evict_nil.symm
  | cons id ids ih =>
    unfold dropSessions
    dsimp only
    rw [ih, dropSession_state, evict_evict]
    rfl

theorem present_remove_of_ne {s : Session} (hs : s ∈ st.sessions.entries) (h : s.machine ≠ m) :
    GuardianState.present { st with sessions := st.sessions.remove s.id } m = st.present m := by
  unfold present sessionsOf
  refine congrArg (fun n => decide (0 < n)) (Registry.count_filter_of_imp fun r hr hm => ?_)
  rw [decide_eq_true_eq] at hm ⊢
  intro hid
  obtain rfl := List.inj_on_of_nodup_map st.sessions.nodup hr hs hid
  exact h hm

/-- **A session that is dropped is reported if it was the last of its machine.** -/
theorem dropSession_reports (st : GuardianState) (m : PubKey) (id : Nat) :
    st.Reports m (st.dropSession id) := by
  unfold dropSession
  cases h : st.sessions.get? id with
  | none => exact Flips.refl _
  | some s =>
    obtain ⟨hs, rfl⟩ := Registry.get?_eq_some.mp h
    unfold Reports
    dsimp only
    by_cases hm : s.machine = m
    · have hpresent : st.present m = true := (present_iff m).mpr ⟨s, hs, hm⟩
      rw [hpresent, hm]
      split
      · rename_i hnone
        have habsent :
            GuardianState.present { st with sessions := st.sessions.remove s.id } m = false := by
          rw [present, hnone]
          rfl
        rw [habsent]
        simpa [GuardianEvent.presence] using Flips.one (by decide)
      · rename_i hsome
        have hstill :
            GuardianState.present { st with sessions := st.sessions.remove s.id } m = true := by
          rw [present, decide_eq_true_eq]
          omega
        rw [hstill]
        exact Flips.refl _
    · rw [present_remove_of_ne m hs hm]
      have hsilent : (if GuardianState.sessionsOf { st with sessions := st.sessions.remove s.id }
          s.machine = 0 then [GuardianEvent.session s.machine false] else []).filterMap
          (GuardianEvent.presence m) = [] := by
        split
        · simp [GuardianEvent.presence, hm]
        · rfl
      rw [hsilent]
      exact Flips.refl _

theorem dropSessions_reports (st : GuardianState) (m : PubKey) (ids : List Nat) :
    st.Reports m (st.dropSessions ids) := by
  induction ids generalizing st with
  | nil => exact Flips.refl _
  | cons id ids ih =>
    unfold Reports dropSessions
    dsimp only
    rw [List.filterMap_append]
    exact (st.dropSession_reports m id).append (ih _)

/-- Dropping all that `p` names leaves none of them. -/
theorem not_of_mem_evict_idsWhere {p : Session → Bool} {s : Session}
    (hs : s ∈ (st.evict (st.idsWhere p)).sessions.entries) :
    s ∈ st.sessions.entries ∧ p s = false := by
  obtain ⟨hmem, hkept⟩ := List.mem_filter.mp hs
  refine ⟨hmem, ?_⟩
  rw [decide_eq_true_eq] at hkept
  by_contra hp
  exact hkept (List.mem_map_of_mem (List.mem_filter.mpr ⟨hmem, by simpa using hp⟩))

/-! ## A newcomer -/

theorem mine_perm (st : GuardianState) (machine : PubKey) :
    (st.mine machine).Perm (st.sessions.entries.filter fun s => decide (s.machine = machine)) :=
  List.perm_insertionSort _ _

theorem length_mine (st : GuardianState) (machine : PubKey) :
    (st.mine machine).length = st.sessionsOf machine := (st.mine_perm machine).length_eq

theorem mem_mine {machine : PubKey} {s : Session} :
    s ∈ st.mine machine ↔ s ∈ st.sessions.entries ∧ s.machine = machine := by
  rw [(st.mine_perm machine).mem_iff, List.mem_filter, decide_eq_true_eq]

theorem nodup_oldest (st : GuardianState) (machine : PubKey) (k : Nat) :
    (((st.mine machine).take k).map Session.id).Nodup := by
  have hmine : ((st.mine machine).map Session.id).Nodup :=
    ((st.mine_perm machine).map _).nodup_iff.mpr
      (st.sessions.nodup.sublist (List.filter_sublist.map _))
  exact hmine.sublist ((List.take_sublist k _).map _)

theorem mem_of_mem_oldest {machine : PubKey} {k id : Nat}
    (h : id ∈ ((st.mine machine).take k).map Session.id) :
    ∃ s ∈ st.sessions.entries, s.id = id ∧ s.machine = machine := by
  obtain ⟨s, hs, rfl⟩ := List.mem_map.mp h
  obtain ⟨hmem, hm⟩ := mem_mine.mp (List.mem_of_mem_take hs)
  exact ⟨s, hmem, rfl, hm⟩

section Evicted
variable {machine : PubKey} {k : Nat} (hk : k ≤ st.sessionsOf machine)
include hk

theorem length_oldest : (((st.mine machine).take k).map Session.id).length = k := by
  rw [List.length_map, List.length_take, length_mine, Nat.min_eq_left hk]

theorem length_evictOldest :
    (st.evictOldest machine k).sessions.entries.length + k = st.sessions.entries.length := by
  have h := Registry.count_filter_notMem (m := st.sessions) (p := fun _ => true)
    (st.nodup_oldest machine k) fun id hid => by
      obtain ⟨s, hs, rfl, -⟩ := mem_of_mem_oldest hid
      exact ⟨s, hs, rfl, rfl⟩
  rw [length_oldest hk, Registry.count, List.filter_true, Registry.count, List.filter_true] at h
  exact h

theorem sessionsOf_evictOldest :
    (st.evictOldest machine k).sessionsOf machine + k = st.sessionsOf machine := by
  have h := Registry.count_filter_notMem (m := st.sessions)
    (p := fun s => decide (s.machine = machine)) (st.nodup_oldest machine k) fun id hid => by
      obtain ⟨s, hs, rfl, hm⟩ := mem_of_mem_oldest hid
      exact ⟨s, hs, rfl, decide_eq_true hm⟩
  rw [length_oldest hk] at h
  exact h

end Evicted

theorem present_evictOldest_of_ne {machine : PubKey} (k : Nat) (h : machine ≠ m) :
    (st.evictOldest machine k).present m = st.present m := by
  unfold present sessionsOf
  refine congrArg (fun n => decide (0 < n)) (Registry.count_filter_of_imp fun r hr hm => ?_)
  rw [decide_eq_true_eq] at hm ⊢
  intro hid
  obtain ⟨s, hs, hsid, rfl⟩ := mem_of_mem_oldest hid
  obtain rfl := List.inj_on_of_nodup_map st.sessions.nodup hs hr hsid
  exact h hm

/-- Whether a newcomer would displace the only session of its own machine. -/
def DisplacesLast (st : GuardianState) (machine : PubKey) : Prop :=
  maxSessions ≤ st.sessions.entries.length ∧ st.sessionsOf machine = 1

theorem evictOldest_succ (st : GuardianState) (machine : PubKey) (k : Nat) :
    (st.evictOldest machine k).evict ((((st.mine machine).drop k).take 1).map Session.id) =
      st.evictOldest machine (k + 1) := by
  unfold evictOldest
  rw [evict_evict, ← List.map_append, ← List.take_add]

/-- What is left when room was made for a newcomer. -/
structure Roomy (st : GuardianState) (machine : PubKey) (st' : GuardianState) : Prop where
  oldest : ∃ k, st' = st.evictOldest machine k
  room : st'.sessions.entries.length < maxSessions
  roomOfMine : st'.sessionsOf machine < maxSessionsPerMachine
  last : st'.sessionsOf machine = 0 → st.sessionsOf machine = 0 ∨ st.DisplacesLast machine
  displaced : st.DisplacesLast machine → st'.sessionsOf machine = 0

theorem makeRoom_cases (hst : st.Seated) (machine : PubKey) :
    st.makeRoom machine = none ∧ ¬st.DisplacesLast machine ∨
      ∃ st', st.makeRoom machine = some st' ∧ st.Roomy machine st' := by
  have hfew := hst.few
  have hmine := hst.each machine
  have hlen := st.length_mine machine
  have hle : st.sessionsOf machine ≤ st.sessions.entries.length := List.length_filter_le _ _
  unfold makeRoom
  dsimp only
  generalize hk : (st.mine machine).length + 1 - maxSessionsPerMachine = k
  have hkle : k ≤ st.sessionsOf machine := by
    unfold maxSessionsPerMachine at hk
    omega
  have hlength := length_evictOldest hkle
  have hcount := sessionsOf_evictOldest hkle
  unfold maxSessionsPerMachine at hk hmine
  unfold maxSessions at hfew
  by_cases hroom : (st.evictOldest machine k).sessions.entries.length < maxSessions
  · rw [if_pos hroom]
    unfold maxSessions at hroom
    refine .inr ⟨_, rfl, ⟨k, rfl⟩, hroom, ?_, ?_, ?_⟩
    · unfold maxSessionsPerMachine
      omega
    · intro hnone
      omega
    · rintro ⟨hfull, hone⟩
      unfold maxSessions at hfull
      omega
  rw [if_neg hroom]
  unfold maxSessions at hroom
  cases hdrop : (st.mine machine).drop k with
  | nil =>
    have hall : (st.mine machine).length ≤ k := List.drop_eq_nil_iff.mp hdrop
    refine .inl ⟨rfl, ?_⟩
    rintro ⟨-, hone⟩
    omega
  | cons oldest rest =>
    have hmore : k < (st.mine machine).length := by
      rw [← List.drop_eq_nil_iff.not.trans not_le, hdrop]
      exact List.cons_ne_nil _ _
    have hnext : (st.evictOldest machine k).evict [oldest.id] = st.evictOldest machine (k + 1) := by
      rw [← st.evictOldest_succ, hdrop]
      rfl
    have hnextle : k + 1 ≤ st.sessionsOf machine := hlen ▸ hmore
    have hlength' := length_evictOldest hnextle
    have hcount' := sessionsOf_evictOldest hnextle
    dsimp only
    rw [hnext]
    refine .inr ⟨_, rfl, ⟨k + 1, rfl⟩, ?_, ?_, ?_, ?_⟩
    · unfold maxSessions
      omega
    · unfold maxSessionsPerMachine
      omega
    · intro hnone
      refine .inr ⟨?_, ?_⟩
      · unfold maxSessions
        omega
      · omega
    · rintro ⟨-, hone⟩
      omega

theorem Welcome.evict (h : st.Welcome) (ids : List Nat) : (st.evict ids).Welcome :=
  fun s hs => h s (List.mem_of_mem_filter hs)

section Join
variable (machine : PubKey) (localIp : IpAddr) (now started : Nat)

theorem Seated.join (h : st.Seated) (hroom : st.sessions.entries.length < maxSessions)
    (hmine : st.sessionsOf machine < maxSessionsPerMachine) :
    (st.join machine localIp now started).1.Seated where
  fresh := by
    intro s hs
    rcases List.mem_cons.mp hs with rfl | hs
    · exact Nat.lt_succ_self _
    · exact Nat.lt_succ_of_lt (h.fresh s (List.mem_of_mem_filter hs))
  few := Nat.succ_le_of_lt ((List.length_filter_le _ _).trans_lt hroom)
  each := by
    intro m
    by_cases hm : machine = m
    · subst hm
      exact (Registry.count_put_le _).trans hmine
    · have hother := Registry.count_put_le_of_not (m := st.sessions)
        (p := fun s => decide (s.machine = m))
        (r := ⟨st.nextSession, machine, localIp, now, started, false, ∅, true⟩) (decide_eq_false hm)
      exact hother.trans (h.each m)

theorem Welcome.join (h : st.Welcome) (hin : st.barred machine localIp = false) :
    (st.join machine localIp now started).1.Welcome := by
  unfold barred at hin
  simp only [Bool.or_eq_false_iff, Bool.not_eq_false', decide_eq_false_iff_not, not_not] at hin
  obtain ⟨⟨⟨-, haccepting⟩, hlocal⟩, hallowed⟩ := hin
  intro s hs
  rcases List.mem_cons.mp hs with rfl | hs
  · exact ⟨hallowed, hlocal, haccepting⟩
  · exact h s (List.mem_of_mem_filter hs)

theorem present_join_self : (st.join machine localIp now started).1.present machine = true :=
  (present_iff machine).mpr ⟨_, List.mem_cons_self, rfl⟩

theorem present_join_of_ne (h : st.Seated) {m : PubKey} (hm : machine ≠ m) :
    (st.join machine localIp now started).1.present m = st.present m := by
  rw [Bool.eq_iff_iff, present_iff, present_iff]
  constructor
  · rintro ⟨s, hs, hsm⟩
    rcases List.mem_cons.mp hs with rfl | hs
    · exact absurd hsm hm
    · exact ⟨s, List.mem_of_mem_filter hs, hsm⟩
  · rintro ⟨s, hs, hsm⟩
    refine ⟨s, List.mem_cons_of_mem _ (List.mem_filter.mpr ⟨hs, ?_⟩), hsm⟩
    exact decide_eq_true (h.fresh s hs).ne

end Join

/-- A newcomer that is let in: what it does to the table and to the presence of each machine. -/
theorem enter_spec (hst : st.Seated) {machine : PubKey} {localIp : IpAddr} {now started : Nat}
    {r : GuardianState × List GuardianEvent} (h : st.enter machine localIp now started = some r) :
    r.1.Seated ∧ (st.Welcome → r.1.Welcome) ∧
      (¬st.DisplacesLast machine → ∀ m, st.Reports m r) := by
  unfold enter at h
  split at h
  · cases h
  rename_i hbarred
  rw [Bool.not_eq_true] at hbarred
  rcases makeRoom_cases hst machine with ⟨hnone, -⟩ | ⟨st', hroom, ⟨k, rfl⟩, hlt, hmine, hlast, -⟩
  · rw [hnone] at h
    cases h
  rw [hroom] at h
  obtain rfl := Option.some.inj h
  have hseated : (st.evictOldest machine k).Seated := hst.evict _
  refine ⟨hseated.join machine localIp now started hlt hmine, ?_, ?_⟩
  · intro hwelcome
    exact Welcome.join machine localIp now started (hwelcome.evict _) hbarred
  · intro hkept m
    unfold Reports
    by_cases hm : machine = m
    · subst hm
      rw [present_join_self]
      unfold join
      dsimp only
      split
      · rename_i hnone
        have habsent : st.present machine = false := by
          have hzero := (hlast hnone).resolve_right hkept
          rw [present, hzero]
          rfl
        rw [habsent]
        simpa [GuardianEvent.presence] using Flips.one (by decide)
      · rename_i hsome
        have hpresent : st.present machine = true := by
          have hle : (st.evictOldest machine k).sessionsOf machine ≤ st.sessionsOf machine :=
            Registry.count_filter_le _
          rw [present, decide_eq_true_eq]
          omega
        rw [hpresent]
        exact Flips.refl _
    · rw [present_join_of_ne machine localIp now started hseated hm,
        present_evictOldest_of_ne m k hm]
      have hsilent : (st.evictOldest machine k |>.join machine localIp now started).2.filterMap
          (GuardianEvent.presence m) = [] := by
        unfold join
        dsimp only
        split
        · simp [GuardianEvent.presence, hm]
        · rfl
      rw [hsilent]
      exact Flips.refl _

/-- **The displaced last session**: its machine is reported present once more. -/
theorem enter_displaces (hst : st.Seated) {machine : PubKey} {localIp : IpAddr} (now started : Nat)
    (hbarred : st.barred machine localIp = false) (h : st.DisplacesLast machine) :
    ∃ r, st.enter machine localIp now started = some r ∧ r.2 = [.session machine true] := by
  rcases makeRoom_cases hst machine with ⟨-, hnot⟩ | ⟨st', hroom, hroomy⟩
  · exact absurd h hnot
  refine ⟨st'.join machine localIp now started, ?_, if_pos (hroomy.displaced h)⟩
  rw [enter, hbarred, hroom]
  rfl

/-! ## The console's calls -/

theorem Seated.setAllowed (h : st.Seated) (allowed : List PubKey) :
    (st.setAllowed allowed).1.Seated := by
  have hst : Seated { st with allowed := allowed.toFinset } := ⟨h.fresh, h.few, h.each⟩
  unfold GuardianState.setAllowed
  rw [dropSessions_state]
  exact hst.evict _

theorem Seated.setAcceptAddresses (h : st.Seated) (addrs : Option (List Ipv4Addr)) :
    (st.setAcceptAddresses addrs).1.Seated := by
  have hst : Seated { st with acceptAddrs := addrs.map List.toFinset } := ⟨h.fresh, h.few, h.each⟩
  unfold GuardianState.setAcceptAddresses
  rw [dropSessions_state]
  exact hst.evict _

theorem Seated.setAccepting (h : st.Seated) (on : Bool) : (st.setAccepting on).1.Seated := by
  have hst : Seated { st with accepting := on } := ⟨h.fresh, h.few, h.each⟩
  unfold GuardianState.setAccepting
  dsimp only
  split
  · exact hst
  · rw [dropSessions_state]
    exact hst.evict _

theorem Welcome.setAllowed (hst : st.Welcome) (allowed : List PubKey) :
    (st.setAllowed allowed).1.Welcome := by
  unfold GuardianState.setAllowed
  rw [dropSessions_state]
  intro s hs
  obtain ⟨hmem, hkept⟩ := not_of_mem_evict_idsWhere hs
  obtain ⟨-, hrest⟩ := hst s hmem
  exact ⟨not_not.mp (of_decide_eq_false hkept), hrest⟩

theorem Welcome.setAcceptAddresses (hst : st.Welcome) (addrs : Option (List Ipv4Addr)) :
    (st.setAcceptAddresses addrs).1.Welcome := by
  unfold GuardianState.setAcceptAddresses
  rw [dropSessions_state]
  intro s hs
  obtain ⟨hmem, hkept⟩ := not_of_mem_evict_idsWhere hs
  obtain ⟨hallowed, -, haccepting⟩ := hst s hmem
  rw [Bool.not_eq_false'] at hkept
  exact ⟨hallowed, hkept, haccepting⟩

theorem Welcome.setAccepting (hst : st.Welcome) (on : Bool) : (st.setAccepting on).1.Welcome := by
  unfold GuardianState.setAccepting
  dsimp only
  split
  · rename_i hon
    intro s hs
    obtain ⟨hallowed, hlocal, -⟩ := hst s hs
    exact ⟨hallowed, hlocal, hon⟩
  · rw [dropSessions_state]
    intro s hs
    exact absurd (not_of_mem_evict_idsWhere hs).2 (by decide)

end GuardianState
/-! ## Runs -/

/-- The link's step shows a newcomer into the only place its own machine has. -/
def LinkAction.DisplacesLast (l : LocalLink) : LinkAction → Prop
  | opened machine localIp _ _ =>
    l.st.barred machine localIp = false ∧ l.st.DisplacesLast machine
  | _ => False

instance (l : LocalLink) : (a : LinkAction) → Decidable (a.DisplacesLast l)
  | .opened _ _ _ _ => inferInstanceAs (Decidable (_ ∧ _ ∧ _))
  | .broken _ | .ended _ | .setAllowed _ | .setAccepting _ | .setAcceptAddresses _ | .shutdown
  | .send _ _ _ _ | .flushPass _ _ | .flushPut _ | .okFrame _ _ _ _ | .ackFrame _ _ _ _ _ =>
    inferInstanceAs (Decidable False)

/-- The steps that leave the table of sessions as it is. -/
def LinkAction.isQuiet : LinkAction → Bool
  | broken _ | send _ _ _ _ | flushPass _ _ | flushPut _ | okFrame _ _ _ _
  | ackFrame _ _ _ _ _ => true
  | _ => false

namespace LocalLink
variable (check : WrapCheck) {l : LocalLink}

theorem presence_quiet {r : GuardianState × List GuardianEvent} (h : l.st.QuietAtDoor r)
    (m : PubKey) : presence m (l.become r).2 = [] := by
  rw [presence_become]
  exact List.filterMap_eq_nil_iff.mpr fun e he => GuardianEvent.presence_of_isDelivery m (h.2 e he)

theorem step_quiet (l : LocalLink) {a : LinkAction} (ha : a.isQuiet = true) :
    l.st.SameDoor (l.step check a).1.st ∧ ∀ m, presence m (l.step check a).2 = [] := by
  cases a with
  | opened => cases ha
  | ended => cases ha
  | setAllowed => cases ha
  | setAccepting => cases ha
  | setAcceptAddresses => cases ha
  | shutdown => cases ha
  | broken id => exact ⟨l.st.setSession_sameDoor id fun _ => ⟨rfl, rfl⟩, fun _ => rfl⟩
  | send recipient wrap now room =>
    unfold step
    dsimp only
    split
    · exact ⟨GuardianState.SameDoor.refl _, fun _ => rfl⟩
    · have hsend := l.st.send_quiet recipient wrap now room
      refine ⟨hsend.1, fun m => ?_⟩
      rw [presence_append, presence_append, presence_quiet hsend m]
      cases (l.st.send recipient wrap now room).2.1 <;> rfl
  | flushPass id now =>
    unfold step
    dsimp only
    split
    · rename_i machine hmachine
      split
      · have hpass := l.st.flushPass_quiet id machine now
        exact ⟨hpass.1, presence_quiet hpass⟩
      · exact ⟨GuardianState.SameDoor.refl _, fun _ => rfl⟩
    · exact ⟨GuardianState.SameDoor.refl _, fun _ => rfl⟩
  | flushPut id =>
    unfold step
    dsimp only
    split
    · refine ⟨GuardianState.SameDoor.refl _, fun m => ?_⟩
      dsimp only
      split <;> rfl
    · exact ⟨GuardianState.SameDoor.refl _, fun _ => rfl⟩
  | okFrame id wrap accepted now =>
    unfold step
    dsimp only
    split
    · rename_i machine hmachine
      have hok := l.st.onOk_quiet id machine wrap accepted now
      exact ⟨hok.1, presence_quiet hok⟩
    · exact ⟨GuardianState.SameDoor.refl _, fun _ => rfl⟩
  | ackFrame id wrap result verified now =>
    unfold step
    dsimp only
    split
    · rename_i machine hmachine
      split
      · have hack := l.st.onAck_quiet machine wrap result now
        exact ⟨hack.1, presence_quiet hack⟩
      · exact ⟨GuardianState.SameDoor.refl _, fun _ => rfl⟩
    · exact ⟨GuardianState.SameDoor.refl _, fun _ => rfl⟩

/-- **What a step does to the table** of sessions, the shutdown apart. -/
theorem step_table (hseated : l.st.Seated) (hwelcome : l.st.Welcome) {a : LinkAction}
    (ha : a ≠ .shutdown) : (l.step check a).1.st.Seated ∧ (l.step check a).1.st.Welcome := by
  by_cases hquiet : a.isQuiet = true
  · have h := (l.step_quiet check hquiet).1
    exact ⟨h.seated hseated, h.welcome hwelcome⟩
  cases a with
  | opened machine localIp now started =>
    unfold step
    dsimp only
    split
    · exact ⟨hseated, hwelcome⟩
    · rename_i r hr
      obtain ⟨hseated', hwelcome', -⟩ := GuardianState.enter_spec hseated hr
      exact ⟨hseated', hwelcome' hwelcome⟩
  | ended id =>
    unfold step become hold
    dsimp only
    rw [GuardianState.dropSession_state]
    exact ⟨hseated.evict _, hwelcome.evict _⟩
  | setAllowed allowed =>
    exact ⟨hseated.setAllowed allowed, hwelcome.setAllowed allowed⟩
  | setAccepting on => exact ⟨hseated.setAccepting on, hwelcome.setAccepting on⟩
  | setAcceptAddresses addrs =>
    exact ⟨hseated.setAcceptAddresses addrs, hwelcome.setAcceptAddresses addrs⟩
  | shutdown => exact absurd rfl ha
  | broken => exact absurd rfl hquiet
  | send => exact absurd rfl hquiet
  | flushPass => exact absurd rfl hquiet
  | flushPut => exact absurd rfl hquiet
  | okFrame => exact absurd rfl hquiet
  | ackFrame => exact absurd rfl hquiet

/-- **What a step reports**, unless it displaces the last session of a machine. -/
theorem step_reports (hseated : l.st.Seated) {a : LinkAction} (ha : a ≠ .shutdown)
    (hkept : ¬a.DisplacesLast l) (m : PubKey) :
    Flips (l.st.present m) (presence m (l.step check a).2) ((l.step check a).1.st.present m) := by
  by_cases hquiet : a.isQuiet = true
  · obtain ⟨hdoor, hnone⟩ := l.step_quiet check hquiet
    rw [hnone, hdoor.present m]
    exact Flips.refl _
  cases a with
  | opened machine localIp now started =>
    unfold step
    dsimp only
    split
    · exact Flips.refl _
    · rename_i r hr
      obtain ⟨-, -, hreports⟩ := GuardianState.enter_spec hseated hr
      have hbarred : l.st.barred machine localIp = false := by
        by_contra hbarred
        rw [Bool.not_eq_false] at hbarred
        rw [GuardianState.enter, if_pos hbarred] at hr
        cases hr
      rw [presence_become]
      exact hreports (fun h => hkept ⟨hbarred, h⟩) m
  | ended id =>
    unfold step
    rw [presence_become]
    exact l.st.dropSession_reports m id
  | setAllowed allowed =>
    unfold step
    rw [presence_become]
    exact GuardianState.dropSessions_reports { l.st with allowed := allowed.toFinset } m _
  | setAccepting on =>
    unfold step
    rw [presence_become]
    unfold GuardianState.setAccepting
    dsimp only
    split
    · exact Flips.refl _
    · exact GuardianState.dropSessions_reports { l.st with accepting := on } m _
  | setAcceptAddresses addrs =>
    unfold step
    rw [presence_become]
    exact GuardianState.dropSessions_reports
      { l.st with acceptAddrs := addrs.map List.toFinset } m _
  | shutdown => exact absurd rfl ha
  | broken => exact absurd rfl hquiet
  | send => exact absurd rfl hquiet
  | flushPass => exact absurd rfl hquiet
  | flushPut => exact absurd rfl hquiet
  | okFrame => exact absurd rfl hquiet
  | ackFrame => exact absurd rfl hquiet

/-- A displaced last session is reported as present again. -/
theorem step_displaces (hseated : l.st.Seated) {a : LinkAction} (h : a.DisplacesLast l) :
    ∃ m, l.st.present m = true ∧ presence m (l.step check a).2 = [true] := by
  cases a with
  | opened machine localIp now started =>
    obtain ⟨hbarred, hlast⟩ := h
    obtain ⟨r, hr, hevents⟩ := GuardianState.enter_displaces hseated now started hbarred hlast
    refine ⟨machine, ?_, ?_⟩
    · rw [GuardianState.present, hlast.2]
      rfl
    · unfold step
      dsimp only
      rw [hr]
      dsimp only
      rw [presence_become, hevents]
      simp [GuardianEvent.presence]
  | _ => exact h.elim

/-- Presence follows the sessions of a link that has emitted these effects. -/
structure PresenceFollows (l : LocalLink) (es : List LinkEffect) : Prop where
  alternates : ∀ m, (false :: presence m es).IsChain (· ≠ ·)
  last : ∀ m, (presence m es).getLast? = some true ↔ ∃ s ∈ l.st.sessions.entries, s.machine = m
  few : l.st.sessions.entries.length ≤ 16
  each : ∀ m, l.st.sessionsOf m ≤ 4
  welcome : ∀ s ∈ l.st.sessions.entries,
    s.machine ∈ l.st.allowed ∧ l.st.localAllowed s.localIp = true ∧ l.st.accepting = true

/-- What holds of the table holds over a whole run, and the reports alternate in exactly the runs
that displace no last session. -/
theorem run_reports_iff (hseated : l.st.Seated) (hwelcome : l.st.Welcome) {as : List LinkAction}
    (has : .shutdown ∉ as) :
    (l.run check as).st.Seated ∧ (l.run check as).st.Welcome ∧
      ((∀ m, Flips (l.st.present m) (presence m (effects (step check) l as))
          ((l.run check as).st.present m)) ↔
        Obeys (fun l a => (l.step check a).1) (fun l a => ¬a.DisplacesLast l) l as) := by
  induction as generalizing l with
  | nil => exact ⟨hseated, hwelcome, fun _ => trivial, fun _ _ => Flips.refl _⟩
  | cons a as ih =>
    rw [List.mem_cons, not_or] at has
    obtain ⟨ha, has⟩ := has
    obtain ⟨hseated', hwelcome'⟩ := step_table check hseated hwelcome (Ne.symm ha)
    obtain ⟨hend, hend', hiff⟩ := ih hseated' hwelcome' has
    refine ⟨hend, hend', ?_⟩
    rw [obeys_cons, ← hiff]
    by_cases hkept : a.DisplacesLast l
    · obtain ⟨m, hpresent, htrue⟩ := step_displaces check hseated hkept
      refine iff_of_false ?_ fun h => h.1 hkept
      intro h
      have hm := h m
      rw [effects_cons, presence_append, htrue, hpresent] at hm
      exact not_flips_same hm
    · have hfirst := step_reports check hseated (Ne.symm ha) hkept
      constructor
      · intro h
        refine ⟨hkept, fun m => ?_⟩
        have hm := h m
        rw [effects_cons, presence_append] at hm
        exact (hfirst m).append_iff.mp hm
      · rintro ⟨-, h⟩ m
        rw [effects_cons, presence_append]
        exact (hfirst m).append (h m)

theorem start_seated (queue : List QueuedWrap) (delivery : Registry DeliveryEntry.wrap)
    (allowed : List PubKey) (now : Nat) :
    (start queue delivery allowed now).st.Seated ∧ (start queue delivery allowed now).st.Welcome ∧
      ∀ m, (start queue delivery allowed now).st.present m = false := by
  have hseated : (GuardianState.loaded queue delivery allowed).Seated :=
    ⟨fun _ hs => (nomatch hs), Nat.zero_le _, fun _ => Nat.zero_le _⟩
  have hdoor := (GuardianState.loaded queue delivery allowed).prune_sameDoor now
  have hstart : (GuardianState.loaded queue delivery allowed).SameDoor
      (start queue delivery allowed now).st := hdoor.trans (GuardianState.sameDoor_delivery _ _)
  exact ⟨hstart.seated hseated, hstart.welcome fun _ hs => (nomatch hs), fun m => hstart.present m⟩

/-- **Presence follows the sessions**, in exactly the runs in which no newcomer, let in at a full
table, displaces the only session of its own machine. -/
theorem presence_follows_iff (queue : List QueuedWrap) (delivery : Registry DeliveryEntry.wrap)
    (allowed : List PubKey) (now : Nat) (as : List LinkAction) (has : .shutdown ∉ as) :
    PresenceFollows ((start queue delivery allowed now).run check as)
        (effects (step check) (start queue delivery allowed now) as) ↔
      Obeys (fun l a => (l.step check a).1) (fun l a => ¬a.DisplacesLast l)
        (start queue delivery allowed now) as := by
  obtain ⟨hseated, hwelcome, habsent⟩ := start_seated queue delivery allowed now
  obtain ⟨hseated', hwelcome', hiff⟩ := run_reports_iff check hseated hwelcome has
  rw [← hiff]
  have hlast : ∀ m, _ := fun m =>
    last_iff (presence m (effects (step check) (start queue delivery allowed now) as))
      (((start queue delivery allowed now).run check as).st.present m)
  constructor
  · intro h m
    rw [habsent m]
    refine flips_iff.mpr ⟨h.alternates m, (hlast m).mpr ?_⟩
    rw [GuardianState.present_iff]
    exact h.last m
  · intro h
    have hflips : ∀ m, _ := fun m => flips_iff.mp (habsent m ▸ h m)
    refine ⟨fun m => (hflips m).1, fun m => ?_, hseated'.few, hseated'.each, hwelcome'⟩
    rw [← GuardianState.present_iff]
    exact (hlast m).mp (hflips m).2

/-- Ward machines, by number. -/
def ward (n : Nat) : PubKey := ⟨BitVec.ofNat 256 n⟩

/-- Hashes and signatures that always fit. -/
def plainCheck : WrapCheck := ⟨⟨fun wrap => wrap.id, fun _ _ _ => true⟩, fun _ => 0⟩

/-- The table fills up, the last machine with its only session. -/
def filling : List LinkAction :=
  [0, 0, 0, 0, 1, 1, 1, 1, 2, 2, 2, 2, 3, 3, 3, 4].map fun n => .opened (ward n) (.v4 0) 0 n

/-- A full table that is closed again. -/
def fillsAndCloses : List LinkAction := filling ++ [.setAccepting false]

theorem presence_follows_fillsAndCloses : .shutdown ∉ fillsAndCloses ∧
    PresenceFollows ((start [] .empty ((List.range 5).map ward) 0).run plainCheck fillsAndCloses)
      (effects (step plainCheck) (start [] .empty ((List.range 5).map ward) 0) fillsAndCloses) := by
  refine ⟨by decide, ?_⟩
  exact (presence_follows_iff plainCheck [] .empty ((List.range 5).map ward) 0 fillsAndCloses
    (by decide)).mpr (by decide +kernel)

/-- The last machine opens a second session at the full table. -/
def opensAgain : List LinkAction := filling ++ [.opened (ward 4) (.v4 0) 0 5]

/-- **Present twice**: the machine's only session makes room for its next, and the console hears up
two times in a row. -/
theorem presence_not_follows_opensAgain : .shutdown ∉ opensAgain ∧
    ¬PresenceFollows ((start [] .empty ((List.range 5).map ward) 0).run plainCheck opensAgain)
      (effects (step plainCheck) (start [] .empty ((List.range 5).map ward) 0) opensAgain) := by
  refine ⟨by decide, fun h => ?_⟩
  have halternates := h.alternates (ward 4)
  have htwice : presence (ward 4) (effects (step plainCheck)
      (start [] .empty ((List.range 5).map ward) 0) opensAgain) = [true, true] := by decide +kernel
  rw [htwice] at halternates
  exact absurd halternates (by decide)

end LocalLink
end Kintrinsic
