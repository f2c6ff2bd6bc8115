import Kintrinsic.Enactment

/-! # Cancel against grant

A cancel that answers true has withdrawn the request, in memory and on disk, and what is
withdrawn is not enacted: neither later, in this process or after a restart, nor before, for then
the request was no longer pending.  Between two steps of no flight of its own, a request reads
the same from memory and from disk. -/
namespace Kintrinsic
namespace Device

open GuardedRun EffectRun Requests

variable {f : Facade} {s : Device} {id : ReqId}

/-- A cancel that answers true leaves a request that has lapsed. -/
theorem lapsed_of_cancelCase {id' : ReqId} {out : Device × List BrokerOutput}
    (hcases : CancelCase s id' out) (hs : s.view.Agrees f)
    (hapart : ∀ j, s.broker.inflight = some j → j.record.reqId ≠ id')
    (h : .cancelled id true ∈ out.2) : out.1.view.Lapsed id ∧ ¬s.view.Lapsed id := by
  cases hcases with
  | missed => simp at h
  | done r hget hpending =>
    obtain rfl : id = id' := by simpa using h
    have hid : r.reqId = id := Registry.key_of_get? hget
    refine ⟨?_, fun hlapsed => hlapsed.memory r hget hpending⟩
    have hcancel : Move f s.view ((s.remember { r with state := .cancelled }).persist
        { r with state := .cancelled }).view none := by
      have hview := view_file s { r with state := .cancelled }
      change ((s.remember { r with state := .cancelled }).persist
        { r with state := .cancelled }).view = _ at hview
      rw [hview]
      refine .cancel r ?_ (hid ▸ hget) hpending
      rintro ⟨j, hj, heq⟩
      exact hapart j hj (heq.trans hid)
    have hshown : ((s.remember { r with state := .cancelled }).persist
        { r with state := .cancelled }).view.memory id = some { r with state := .cancelled } := by
      show (s.remember { r with state := .cancelled }).broker.requests.get? id = _
      rw [remember_requests, if_pos hid.symm]
    exact ((path_prune f _).lapsed ((hs.move hcancel).lapsed (Or.inl hshown) rfl)).1

/-- Only a cancel answers one. -/
theorem lapsed_of_cancelled (hs : s.view.Agrees f) {a : BrokerAction} (hapart : CancelApart s a)
    (h : .cancelled id true ∈ (step f s a).2) :
    ((step f s a).1.view.Lapsed id ∧ ¬s.view.Lapsed id) ∧ ∀ j, .enacted j ∉ (step f s a).2 := by
  unfold step at h ⊢
  split at h
  · cases h
  rename_i hturn
  rw [if_neg hturn]
  cases a with
  | cancel id' =>
    have hcases := s.cancel_cases id'
    exact ⟨lapsed_of_cancelCase hcases hs hapart h, not_enacted_of_cancelCase hcases⟩
  | cancelAs uid id' =>
    have hcases := s.cancelAs_cases uid id'
    exact ⟨lapsed_of_cancelCase hcases hs hapart h, not_enacted_of_cancelCase hcases⟩
  | enactReturn result =>
    have hcases := enact_cases (fun j hj => (hs.live j hj).1.state) result
    change .cancelled id true ∈ (s.enactReturn result).2 at h
    generalize s.enactReturn result = out at hcases h
    cases hcases with
    | idle hflight => cases h
    | retry j hflight => cases h
    | done j outs hflight hquiet =>
      rcases List.mem_cons.mp h with heq | hmem
      · cases heq
      · exact absurd (hquiet _ hmem) (by simp [isPlain])
    | failed j outs hflight hquiet => exact absurd (hquiet _ h) (by simp [isPlain])
  | _ => exact absurd (s.quiet_act (by rfl) _ h) (by simp [isPlain])

/-! ## Runs -/

/-- What a run keeps about cancels. -/
structure CancelKept (f : Facade) (pairing : Option (Option Nat)) (as : List BrokerAction) :
    Prop where
  never : ∀ id, .cancelled id true ∈ effects (step f) (initial pairing) as →
    ∀ j, .enacted j ∈ effects (step f) (initial pairing) as → j.record.reqId ≠ id
  same : ∀ bs cs, as = bs ++ cs →
    let s := (run (step f) (initial pairing) bs).1
    ∀ id, (∀ j, s.broker.inflight = some j → j.record.reqId ≠ id) →
      s.broker.requests.get? id = s.disk.pending.get? id

/-- **Cancel against grant.**  In every run, with fresh ids and no cancel in the flight of its own
request, a request whose cancel answered true is not enacted, and a request that is not in flight
reads the same from memory and from disk. -/
theorem cancelKept (pairing : Option (Option Nat)) (as : List BrokerAction)
    (hfresh : Obeys (fun s a => (step f s a).1) FreshDraw (initial pairing) as)
    (hapart : Obeys (fun s a => (step f s a).1) CancelApart (initial pairing) as) :
    CancelKept f pairing as := by
  have hregular : Obeys (fun s a => (step f s a).1) Regular (initial pairing) as :=
    hfresh.and hapart
  refine ⟨?_, ?_⟩
  · intro id hcancel j hj hid
    obtain ⟨bs, a, cs, rfl, ha⟩ := mem_effects hcancel
    obtain ⟨hbefore, hmiddle⟩ := obeys_append.mp hregular
    rw [← run_state] at hmiddle
    obtain ⟨⟨hdraw, hcancelApart⟩, hafter⟩ := hmiddle
    have hs := agrees_run hbefore
    obtain ⟨⟨hlapsed, hlive⟩, hnone⟩ := lapsed_of_cancelled hs hcancelApart ha
    have hs' := (path_step hs hdraw hcancelApart).agrees hs
    rw [effects_append, effects_cons] at hj
    rcases List.mem_append.mp hj with hj | hj
    · -- what was enacted before had lapsed, and a cancel of it answers false
      have hpath := path_run (agrees_initial pairing) hbefore
      exact hlive (hid ▸ hpath.lapsed_of_mem (agrees_initial pairing) (mem_enactedOf.mpr hj))
    rcases List.mem_append.mp hj with hj | hj
    · exact hnone j hj
    · exact ((path_run hs' hafter).lapsed hlapsed).2 j (mem_enactedOf.mpr hj) hid
  · rintro bs cs rfl s id hflight
    have hs := agrees_run ((obeys_append.mp hregular).1)
    refine hs.settled id ?_
    rintro ⟨j, hj, hid⟩
    exact hflight j hj hid

/-! ## A cancel in the flight -/

/-- Withdrawn before its grant comes, the request is not enacted, nor after a restart. -/
theorem cancelKept_before_grant : CancelKept deskFacade none
    [.submit .timeExtend "\x7b\"minutes\":30\x7d" none (some 1001) (⟨0x0b0b⟩, ⟨0x0c0c⟩) 1000 none,
      .cancelAs 1001 ⟨0x0b0b⟩, .grant (Desk.allowEvent ⟨1⟩ "2000") 1000, .restart 1001,
      .grant (Desk.allowEvent ⟨1⟩ "2000") 1001, .enactReturn (.ok ())] :=
  cancelKept none _ (by decide +kernel) (by decide +kernel)

/-- **Withdrawn and enacted.**  A cancel in the flight answers true, the enactor reports success,
and then memory says cancelled and the disk says enacted. -/
theorem cancelled_in_flight :
    let as := askAndAllow ++ [.cancel ⟨0x0b0b⟩, .enactReturn (.ok ())]
    let s := (run (step deskFacade) (initial none) as).1
    ¬CancelKept deskFacade none as ∧
      (s.broker.requests.get? ⟨0x0b0b⟩).map RequestRecord.state = some .cancelled ∧
      (s.disk.pending.get? ⟨0x0b0b⟩).map RequestRecord.state = some .enacted ∧
      s.broker.inflight = none := by
  refine ⟨?_, by decide +kernel, by decide +kernel, by decide +kernel⟩
  intro h
  have hcancelled : BrokerOutput.cancelled ⟨0x0b0b⟩ true ∈ effects (step deskFacade) (initial none)
      (askAndAllow ++ [.cancel ⟨0x0b0b⟩, .enactReturn (.ok ())]) := by decide +kernel
  have henacted : (enactedOf (effects (step deskFacade) (initial none)
      (askAndAllow ++ [.cancel ⟨0x0b0b⟩, .enactReturn (.ok ())]))).map
        (fun j => j.record.reqId) = [⟨0x0b0b⟩] := by decide +kernel
  obtain ⟨j, hj, hid⟩ := List.mem_map.mp (henacted ▸ List.mem_singleton_self _)
  exact h.never _ hcancelled j (mem_enactedOf.mp hj) hid

end Device
end Kintrinsic
