import Kintrinsic.GuardedRun
import Kintrinsic.LinkRun

/-! # What the link's sections leave alone

Delivery records and the queue change in every section; the sessions change in few.  Each section
is known by what it leaves alone, and by the kind of events it emits. -/
namespace Kintrinsic

open GuardedRun

/-- An event about one wrap. -/
def GuardianEvent.isDelivery : GuardianEvent → Bool
  | delivery _ _ _ => true
  | _ => false

/-- Where a session sits: all that the table of sessions depends on. -/
def Session.seat (s : Session) : Nat × PubKey × IpAddr := (s.id, s.machine, s.localIp)

namespace GuardianState

/-- The same sessions, the same door: what may differ is what the sessions were handed, and the
queue and the records. -/
structure SameDoor (st st' : GuardianState) : Prop where
  closed : st'.closed = st.closed
  accepting : st'.accepting = st.accepting
  acceptAddrs : st'.acceptAddrs = st.acceptAddrs
  allowed : st'.allowed = st.allowed
  nextSession : st'.nextSession = st.nextSession
  seats : st'.sessions.entries.map Session.seat = st.sessions.entries.map Session.seat

theorem SameDoor.refl (st : GuardianState) : SameDoor st st := ⟨rfl, rfl, rfl, rfl, rfl, rfl⟩

theorem SameDoor.trans {st st' st'' : GuardianState} (h : SameDoor st st') (h' : SameDoor st' st'') :
    SameDoor st st'' where
  closed := h'.closed.trans h.closed
  accepting := h'.accepting.trans h.accepting
  acceptAddrs := h'.acceptAddrs.trans h.acceptAddrs
  allowed := h'.allowed.trans h.allowed
  nextSession := h'.nextSession.trans h.nextSession
  seats := h'.seats.trans h.seats

variable (st : GuardianState)

theorem sameDoor_queue (q : List QueuedWrap) : SameDoor st { st with queue := q } :=
  ⟨rfl, rfl, rfl, rfl, rfl, rfl⟩

theorem sameDoor_delivery (d : Registry DeliveryEntry.wrap) :
    SameDoor st { st with delivery := d } := ⟨rfl, rfl, rfl, rfl, rfl, rfl⟩

/-! ## Records and the queue -/

theorem setDelivery_frame (wrap : EventId) (machine : PubKey) (state : DeliveryState) (now : Nat) :
    ∃ d, (st.setDelivery wrap machine state now).1 = { st with delivery := d } := by
  unfold setDelivery
  split
  · exact ⟨_, rfl⟩
  · exact ⟨st.delivery, rfl⟩

theorem setDelivery_events (wrap : EventId) (machine : PubKey) (state : DeliveryState) (now : Nat) :
    ∀ e ∈ (st.setDelivery wrap machine state now).2, e.isDelivery = true := by
  unfold setDelivery
  intro e he
  split at he
  · obtain rfl := List.mem_singleton.mp he
    rfl
  · cases he

/-- A section that may change records only, with events about them. -/
def RecordsOnly (r : GuardianState × List GuardianEvent) : Prop :=
  (∃ d, r.1 = { st with delivery := d }) ∧ ∀ e ∈ r.2, e.isDelivery = true

variable {st}

theorem RecordsOnly.start : st.RecordsOnly (st, []) :=
  ⟨⟨st.delivery, rfl⟩, fun _ he => nomatch he⟩

theorem RecordsOnly.setDelivery {r : GuardianState × List GuardianEvent} (h : st.RecordsOnly r)
    (wrap : EventId) (machine : PubKey) (state : DeliveryState) (now : Nat) :
    st.RecordsOnly ((r.1.setDelivery wrap machine state now).1,
      r.2 ++ (r.1.setDelivery wrap machine state now).2) := by
  obtain ⟨⟨d, hd⟩, hevents⟩ := h
  obtain ⟨d', hd'⟩ := r.1.setDelivery_frame wrap machine state now
  refine ⟨⟨d', ?_⟩, ?_⟩
  · rw [hd', hd]
  · intro e he
    rcases List.mem_append.mp he with he | he
    · exact hevents e he
    · exact r.1.setDelivery_events wrap machine state now e he

theorem RecordsOnly.sameDoor {r : GuardianState × List GuardianEvent} (h : st.RecordsOnly r) :
    SameDoor st r.1 := by
  obtain ⟨⟨d, hd⟩, -⟩ := h
  rw [hd]
  exact st.sameDoor_delivery d

variable (st)

theorem prune_recordsOnly (now : Nat) :
    RecordsOnly { st with queue := (pruneQueue st.queue now).1 } (st.prune now) := by
  unfold prune
  dsimp only
  refine foldl_invariant ?_ _ RecordsOnly.start
  intro r e hr
  unfold rejectDropped
  split
  · exact hr.setDelivery e.wrap.id e.machine .rejected now
  · exact hr

theorem prune_sameDoor (now : Nat) : SameDoor st (st.prune now).1 :=
  (st.sameDoor_queue _).trans (st.prune_recordsOnly now).sameDoor

theorem prune_events (now : Nat) : ∀ e ∈ (st.prune now).2, e.isDelivery = true :=
  (st.prune_recordsOnly now).2

/-! ## Sessions that keep their seats -/

theorem setSession_sameDoor (id : Nat) {f : Session → Session}
    (hf : ∀ s, (f s).machine = s.machine ∧ (f s).localIp = s.localIp) :
    SameDoor st (st.setSession id f) := by
  refine ⟨rfl, rfl, rfl, rfl, rfl, ?_⟩
  have hseat : ∀ s, (changeAt id f s).seat = s.seat := by
    intro s
    unfold Session.seat
    rw [changeAt_id]
    unfold changeAt
    split
    · rw [(hf s).1, (hf s).2]
    · rfl
  unfold setSession Registry.update
  dsimp only
  rw [List.map_map]
  exact List.map_congr_left fun s _ => hseat s

theorem handOn_sameDoor (machine : PubKey) (id : EventId) (room : Bool) :
    SameDoor st (st.handOn machine id room).1 := by
  unfold handOn
  split
  · exact SameDoor.refl st
  · rename_i s hs
    split
    · exact SameDoor.refl st
    split
    · exact st.setSession_sameDoor s.id fun _ => ⟨rfl, rfl⟩
    · exact st.setSession_sameDoor s.id fun _ => ⟨rfl, rfl⟩

/-- A section that keeps the door, with events about wraps only. -/
def QuietAtDoor (r : GuardianState × List GuardianEvent) : Prop :=
  SameDoor st r.1 ∧ ∀ e ∈ r.2, e.isDelivery = true

theorem QuietAtDoor.same : st.QuietAtDoor (st, []) :=
  ⟨SameDoor.refl st, fun _ he => nomatch he⟩

theorem setDelivery_quiet (wrap : EventId) (machine : PubKey) (state : DeliveryState) (now : Nat) :
    st.QuietAtDoor (st.setDelivery wrap machine state now) :=
  ⟨(RecordsOnly.start.setDelivery wrap machine state now).sameDoor,
    st.setDelivery_events wrap machine state now⟩

theorem send_quiet (recipient : PubKey) (wrap : NostrEvent) (now : Nat) (room : Bool) :
    st.QuietAtDoor (st.send recipient wrap now room).2.2 := by
  unfold send
  split
  · exact QuietAtDoor.same st
  split
  · exact QuietAtDoor.same st
  dsimp only
  have hqueued : SameDoor st (if st.isQueued recipient wrap.id then st
      else { st with queue := st.queue ++ [⟨recipient, wrap, now⟩] }) := by
    split
    · exact SameDoor.refl st
    · exact st.sameDoor_queue _
  refine ⟨?_, ?_⟩
  · refine hqueued.trans (SameDoor.trans (prune_sameDoor _ now) ?_)
    exact (handOn_sameDoor _ recipient wrap.id room).trans (setDelivery_quiet _ _ _ _ _).1
  · intro e he
    rcases List.mem_append.mp he with he | he
    · exact prune_events _ now e he
    · exact setDelivery_events _ _ _ _ _ e he

theorem flushPass_quiet (id : Nat) (machine : PubKey) (now : Nat) :
    st.QuietAtDoor (st.flushPass id machine now).2 := by
  unfold flushPass
  dsimp only
  split
  · exact ⟨st.prune_sameDoor now, st.prune_events now⟩
  · rename_i s hs
    have hmarked : RecordsOnly ((st.prune now).1.setSession id ((st.prune now).1.passed machine))
        (((st.prune now).1.unwritten machine s).foldl (recordSent machine now)
          ((st.prune now).1.setSession id ((st.prune now).1.passed machine), [])) :=
      foldl_invariant (fun r w hr => hr.setDelivery w.id machine .sent now) _ RecordsOnly.start
    refine ⟨?_, ?_⟩
    · refine (st.prune_sameDoor now).trans (SameDoor.trans ?_ hmarked.sameDoor)
      exact setSession_sameDoor _ id fun _ => ⟨rfl, rfl⟩
    · intro e he
      rcases List.mem_append.mp he with he | he
      · exact st.prune_events now e he
      · exact hmarked.2 e he

theorem onOk_quiet (id : Nat) (machine : PubKey) (wrap : EventId) (accepted : Bool) (now : Nat) :
    st.QuietAtDoor (st.onOk id machine wrap accepted now) := by
  unfold onOk
  split
  · dsimp only
    split
    · have h := setDelivery_quiet { st with queue := st.queue.filter fun q =>
        !(decide (q.machine = machine) && decide (q.wrap.id = wrap)) } wrap machine
        (if accepted then .received else .rejected) now
      exact ⟨(st.sameDoor_queue _).trans h.1, h.2⟩
    · exact ⟨st.sameDoor_queue _, fun _ he => nomatch he⟩
  · exact QuietAtDoor.same st

theorem onAck_quiet (machine : PubKey) (wrap : EventId) (result : AckResult) (now : Nat) :
    st.QuietAtDoor (st.onAck machine wrap result now) := by
  unfold onAck
  split
  · exact st.setDelivery_quiet wrap machine (.acked result) now
  · exact QuietAtDoor.same st

end GuardianState
end Kintrinsic
