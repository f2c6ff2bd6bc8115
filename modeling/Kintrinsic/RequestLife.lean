import Kintrinsic.Broker
import Kintrinsic.EffectRun

/-! # The life of one request

What each entry point does to one request: in the map in memory, in the store on disk, and in
flight.  Outside a flight memory and disk agree; in one, memory still says pending while the disk
says enacting, and only a cancel of that request looks at memory in between. -/
namespace Kintrinsic
namespace Device

open GuardedRun EffectRun

variable {s : Device} {id : ReqId} {r : RequestRecord}

/-! ## Lookups -/

@[simp] theorem remember_inflight : (s.remember r).broker.inflight = s.broker.inflight := rfl
@[simp] theorem pruneTerminal_inflight : s.pruneTerminal.broker.inflight = s.broker.inflight := rfl

theorem persist_pending : (s.persist r).disk.pending.get? id =
    if id = r.reqId then some r else s.disk.pending.get? id := Registry.get?_put r

theorem remember_requests : (s.remember r).broker.requests.get? id =
    if id = r.reqId then some r else s.broker.requests.get? id := Registry.get?_put r

/-- A pruned request is gone from both, and it was terminal. -/
theorem pruneTerminal_cases (s : Device) (id : ReqId) :
    (s.pruneTerminal.broker.requests.get? id = s.broker.requests.get? id ∧
        s.pruneTerminal.disk.pending.get? id = s.disk.pending.get? id) ∨
      (s.pruneTerminal.broker.requests.get? id = none ∧
        s.pruneTerminal.disk.pending.get? id = none ∧
        ∀ r, s.broker.requests.get? id = some r → r.state.isTerminal = true) := by
  unfold pruneTerminal
  dsimp only
  rw [Records.get?_removeAll, Records.get?_removeAll]
  split
  · rename_i hmem
    exact Or.inr ⟨rfl, rfl, fun r hr => Records.terminal_of_mem_excess hmem hr⟩
  · exact Or.inl ⟨rfl, rfl⟩

/-- Nothing aged out, or memory and disk are both brought up to date, and pruned. -/
theorem expireStalePending_cases (s : Device) (now : Nat) :
    s.expireStalePending now = (s, []) ∨
      ∃ t : Device, (s.expireStalePending now).1 = t.pruneTerminal ∧
        t.broker.inflight = s.broker.inflight ∧ t.drawn = s.drawn ∧
        t.disk.consumed = s.disk.consumed ∧
        (∀ id, t.broker.requests.get? id = (s.broker.requests.get? id).map (·.aged now)) ∧
        ∀ id, t.disk.pending.get? id =
          (((s.broker.requests.get? id).filter (·.isStale now)).map (·.after .expire)).or
            (s.disk.pending.get? id) := by
  unfold expireStalePending
  dsimp only
  split
  · exact Or.inl rfl
  · refine Or.inr ⟨_, rfl, rfl, rfl, rfl, fun id => Records.get?_age now, fun id => ?_⟩
    rw [← Records.get?_expired]
    exact Registry.get?_putAll _

/-- The consumed store of a device. -/
def setConsumed (s : Device) (consumed : ConsumedIds) : Device :=
  { s with disk := { s.disk with consumed } }


/-! ## The end of a grant -/

theorem settle_pending {d : GrantDisposition} {live : RequestRecord}
    (hlive : s.broker.requests.get? r.reqId = some live) (hpending : live.state = .pending) :
    (s.settle r d).1 = (s.remember r).pruneTerminal := by
  unfold settle
  dsimp only
  rw [hlive]
  simp [hpending]

/-- Not the report of an enactment, nor the answer to a cancel. -/
def isPlain : BrokerOutput → Bool
  | .enacted _ | .cancelled .. => false
  | _ => true

/-- Outputs that report no enactment and answer no cancel. -/
def Quiet (outs : List BrokerOutput) : Prop := ∀ o ∈ outs, isPlain o = true

theorem quiet_performed (r : RequestRecord) (now : Nat) (effects : List Effect) :
    Quiet (performed r now effects) := by
  intro o ho
  obtain ⟨e, -, he⟩ := List.mem_filterMap.mp ho
  cases e with
  | audit a => cases he; rfl
  | notify => cases he; rfl
  | enact vg => cases he
  | persist => cases he

theorem Quiet.append {xs ys : List BrokerOutput} (hx : Quiet xs) (hy : Quiet ys) :
    Quiet (xs ++ ys) := by
  intro o ho
  rcases List.mem_append.mp ho with h | h
  · exact hx o h
  · exact hy o h

theorem quiet_singleton {o : BrokerOutput} (h : isPlain o = true) : Quiet [o] := by
  intro o' ho'
  rw [List.mem_singleton.mp ho']
  exact h

theorem quiet_settle (r : RequestRecord) (d : GrantDisposition) : Quiet (s.settle r d).2 :=
  quiet_singleton rfl

theorem quiet_expireStalePending (now : Nat) : Quiet (s.expireStalePending now).2 := by
  unfold expireStalePending
  dsimp only
  split
  · simp [Quiet]
  · intro o ho
    obtain ⟨r, -, rfl⟩ := List.mem_map.mp ho
    rfl

/-! ## Grants -/

variable {f : Facade}

/-- What a delivered grant does: nothing, or to a pending request either nothing, a denial, or a
launch. -/
inductive GrantCase (f : Facade) (s : Device) (event : NostrEvent) (now : Nat) :
    Device × List BrokerOutput → Prop
  | stayed (d : GrantDisposition) : GrantCase f s event now (s, [.granted d])
  | rejected (r : RequestRecord) (outs : List BrokerOutput) (hquiet : Quiet outs)
      (hget : s.broker.requests.get? r.reqId = some r) (hpending : r.state = .pending) :
      GrantCase f s event now ((s.remember r).pruneTerminal, outs)
  | denied (r : RequestRecord) (vg : VerifiedGrant) (consumed : ConsumedIds)
      (outs : List BrokerOutput) (hquiet : Quiet outs)
      (hget : s.broker.requests.get? r.reqId = some r) (hpending : r.state = .pending)
      (hverify : verifyGrant f.crypto f.grants event
        ⟨f.link.guardian, r.reqId, r.nonce, r.op, now⟩ s.disk.consumed = (.ok vg, consumed)) :
      GrantCase f s event now ((((s.setConsumed consumed).persist { r with state := .denied }).remember
        { r with state := .denied }).pruneTerminal, outs)
  | launched (r : RequestRecord) (vg : VerifiedGrant) (consumed : ConsumedIds)
      (params : GrantParams) (outs : List BrokerOutput) (hquiet : Quiet outs)
      (hget : s.broker.requests.get? r.reqId = some r) (hpending : r.state = .pending)
      (hverify : verifyGrant f.crypto f.grants event
        ⟨f.link.guardian, r.reqId, r.nonce, r.op, now⟩ s.disk.consumed = (.ok vg, consumed))
      (hallow : vg.outcome = .allow params) :
      GrantCase f s event now (((s.setConsumed consumed).persist
        { r with state := .enacting }).setInflight
          (some ⟨event, { r with state := .enacting }, vg, now, 1⟩), outs)

theorem grant_cases (f : Facade) (s : Device) (event : NostrEvent) (now : Nat) :
    GrantCase f s event now (s.grantDisposition f event now) := by
  unfold grantDisposition
  split
  · exact .stayed _
  split
  · exact .stayed _
  split
  · exact .stayed _
  rename_i payload hdec _ r hget
  split
  · exact .stayed _
  rename_i hstate
  have hpending : r.state = .pending := not_not.mp hstate
  have hid : r.reqId = payload.reqId := Registry.key_of_get? hget
  rw [← hid] at hget
  dsimp only
  split
  · rename_i e consumed hverify
    obtain rfl := verifyGrant_error hverify
    have hnone : transition r (.grantRejected e) = (.pending, []) := by
      unfold transition
      rw [hpending]
    have hafter : r.after (.grantRejected e) = r := by
      unfold RequestRecord.after
      rw [hnone, ← hpending]
    have hsettle := @settle_pending s r (.rejected (.of e)) r hget hpending
    rw [hnone, hafter]
    have hperform : ({ s with disk := { s.disk with consumed := s.disk.consumed } } : Device).perform
        r [] = s := rfl
    dsimp only
    rw [hperform, hsettle]
    exact .rejected r _ ((quiet_performed r now []).append (quiet_settle r _)) hget hpending
  · rename_i vg consumed hverify
    cases hout : vg.outcome with
    | deny =>
      have hdeny : transition r (.grantVerified vg) =
          (.denied, [.audit ⟨.denied, r.op⟩, .notify, .persist]) := by
        unfold transition
        rw [hpending]
        dsimp only
        rw [hout]
      have hafter : r.after (.grantVerified vg) = { r with state := .denied } := by
        unfold RequestRecord.after
        rw [hdeny]
      have hsettle := @settle_pending ((s.setConsumed consumed).persist { r with state := .denied })
        { r with state := .denied } (.resolved .denied) r hget hpending
      have hperform : (s.setConsumed consumed).perform { r with state := .denied }
          [.audit ⟨.denied, r.op⟩, .notify, .persist] =
            (s.setConsumed consumed).persist { r with state := .denied } := if_pos (by simp)
      rw [hdeny, hafter]
      dsimp only [toEnact, List.findSome?]
      change GrantCase f s event now ((((s.setConsumed consumed).perform _ _).settle _ _).1, _)
      rw [hperform, hsettle]
      exact .denied r vg consumed _ ((quiet_performed _ _ _).append (quiet_settle _ _)) hget hpending
        hverify
    | allow params =>
      have hallow : transition r (.grantVerified vg) =
          (.enacting, [.enact vg, .notify, .persist]) := by
        unfold transition
        rw [hpending]
        dsimp only
        rw [hout]
      have hafter : r.after (.grantVerified vg) = { r with state := .enacting } := by
        unfold RequestRecord.after
        rw [hallow]
      have hperform : (s.setConsumed consumed).perform { r with state := .enacting }
          [.enact vg, .notify, .persist] =
            (s.setConsumed consumed).persist { r with state := .enacting } := if_pos (by simp)
      rw [hallow, hafter]
      dsimp only [toEnact, List.findSome?]
      change GrantCase f s event now (((s.setConsumed consumed).perform _ _).setInflight _, _)
      rw [hperform]
      exact .launched r vg consumed params _ (quiet_performed _ _ _) hget hpending hverify hout

/-! ## The enactor's return -/

/-- The end of a flight: its record is persisted and written back in a last state. -/
def resolve (s : Device) (j : InFlight) (state : RequestState) : Device × List BrokerOutput :=
  ((s.setInflight none).persist { j.record with state := state }).settle
    { j.record with state := state } (.resolved state)

/-- What a return of the enactor does: nothing, the same grant again, or the end of the grant. -/
inductive EnactCase (s : Device) : Device × List BrokerOutput → Prop
  | idle (hflight : s.broker.inflight = none) : EnactCase s (s, [])
  | retry (j : InFlight) (hflight : s.broker.inflight = some j) :
      EnactCase s (s.setInflight (some { j with attempt := j.attempt + 1 }), [])
  | done (j : InFlight) (outs : List BrokerOutput) (hflight : s.broker.inflight = some j)
      (hquiet : Quiet outs) :
      EnactCase s ((s.resolve j .enacted).1, .enacted j :: outs)
  | failed (j : InFlight) (outs : List BrokerOutput) (hflight : s.broker.inflight = some j)
      (hquiet : Quiet outs) : EnactCase s ((s.resolve j .failed).1, outs)

theorem finish_eq {j : InFlight} {ev : Event} {state : RequestState} {a : AuditRecord}
    (h : transition j.record ev = (state, [.audit a, .notify, .persist])) :
    ∃ outs, s.finish j ev = ((s.resolve j state).1, outs) ∧ Quiet outs := by
  have hafter : j.record.after ev = { j.record with state := state } := by
    unfold RequestRecord.after
    rw [h]
  have hperform : (s.setInflight none).perform { j.record with state := state }
      [.audit a, .notify, .persist] =
        (s.setInflight none).persist { j.record with state := state } := if_pos (by simp)
  unfold finish
  dsimp only
  rw [h, hafter]
  dsimp only
  rw [hperform]
  exact ⟨_, rfl, (quiet_performed _ _ _).append (quiet_settle _ _)⟩

theorem enact_cases (hflight : ∀ j, s.broker.inflight = some j → j.record.state = .enacting)
    (result : Except EnactError Unit) : EnactCase s (s.enactReturn result) := by
  unfold enactReturn
  split
  · exact .idle ‹_›
  rename_i j hj
  have henacting := hflight j hj
  split
  · have h : transition j.record .enactSucceeded =
        (.enacted, [.audit ⟨.enacted, j.record.op⟩, .notify, .persist]) := by
      unfold transition
      rw [henacting]
    obtain ⟨outs, hfinish, hquiet⟩ := @finish_eq s j _ _ _ h
    rw [hfinish]
    exact .done j outs hj hquiet
  · rename_i e
    split
    · have h : transition j.record (.enactFailed e.toString) =
          (.failed, [.audit ⟨.failed, j.record.op⟩, .notify, .persist]) := by
        unfold transition
        rw [henacting]
      obtain ⟨outs, hfinish, hquiet⟩ := @finish_eq s j _ _ _ h
      rw [hfinish]
      exact .failed j outs hj hquiet
    · exact .retry j hj

/-! ## Cancels and submits -/

/-- What a cancel does: nothing, or a pending request is withdrawn in memory and on disk. -/
inductive CancelCase (s : Device) (id : ReqId) : Device × List BrokerOutput → Prop
  | missed : CancelCase s id (s, [.cancelled id false])
  | done (r : RequestRecord) (hget : s.broker.requests.get? id = some r)
      (hpending : r.state = .pending) :
      CancelCase s id (((s.remember { r with state := .cancelled }).persist
        { r with state := .cancelled }).pruneTerminal,
          [.requestUpdated id .cancelled, .cancelled id true])

theorem cancel_cases (s : Device) (id : ReqId) : CancelCase s id (s.cancel id) := by
  unfold cancel
  split
  · exact .missed
  rename_i r hget
  split
  · exact .done r hget ‹_›
  · exact .missed

theorem cancelAs_cases (s : Device) (uid : UInt32) (id : ReqId) :
    CancelCase s id (s.cancelAs uid id) := by
  unfold cancelAs
  split
  · exact s.cancel_cases id
  · exact .missed

/-- A device with other windows. -/
def withSubmits (s : Device) (submits : Submits) : Device :=
  { s with broker := { s.broker with submits } }


/-- A request is filed under this id. -/
def draw (s : Device) (id : ReqId) : Device := { s with drawn := id :: s.drawn }


/-- The caps touch nothing but the windows. -/
theorem checkCallerCaps_device (s : Device) (callerUid : Option UInt32) (now : Nat) :
    ∃ m, (s.checkCallerCaps callerUid now).2 = s.withSubmits m := by
  unfold checkCallerCaps
  split
  · exact ⟨s.broker.submits, rfl⟩
  · dsimp only
    split
    · exact ⟨_, rfl⟩
    · exact ⟨_, rfl⟩

/-- What a submit does: nothing but to the windows, or a new pending request is filed. -/
inductive SubmitCase (s : Device) (ids : ReqId × Nonce) : Device × List BrokerOutput → Prop
  | refused (m : Submits) (callerUid : Option UInt32) (e : BrokerError) :
      SubmitCase s ids (s.withSubmits m, [.submitted callerUid (.error e)])
  | filed (m : Submits) (r : RequestRecord) (outs : List BrokerOutput) (hquiet : Quiet outs)
      (hid : r.reqId = ids.1) (hpending : r.state = .pending) :
      SubmitCase s ids ((((s.withSubmits m).draw ids.1).persist r).remember r, outs)

theorem submit_cases (f : Facade) (s : Device) (op : OpType) (params : Value)
    (sourcePath : Option String) (callerUid : Option UInt32) (ids : ReqId × Nonce) (now : Nat)
    (fault : Option SysError) :
    SubmitCase s ids (s.submit f op params sourcePath callerUid ids now fault) := by
  obtain ⟨m, hm⟩ := s.checkCallerCaps_device callerUid now
  unfold submit
  split
  · exact .refused s.broker.submits _ _
  split
  · rename_i e t h
    rw [h] at hm
    obtain rfl : t = _ := hm
    exact .refused m _ _
  · rename_i t h
    rw [h] at hm
    obtain rfl : t = _ := hm
    cases fault with
    | some e => exact .refused m _ _
    | none =>
      exact .filed m ⟨ids.1, ids.2, op, .pending, now, some "waiting for approval", sourcePath,
        callerUid⟩ _ (by simp [Quiet, isPlain]) rfl rfl

/-! ## What requests leave alone -/

/-- A step that is about requests only. -/
structure Frame (s t : Device) : Prop where
  clauses : t.disk.clauses = s.disk.clauses
  submits : t.broker.submits = s.broker.submits
  released : t.broker.released = s.broker.released

theorem Frame.refl (s : Device) : Frame s s := ⟨rfl, rfl, rfl⟩

theorem Frame.trans {t u : Device} (h : Frame s t) (h' : Frame t u) : Frame s u :=
  ⟨h'.clauses.trans h.clauses, h'.submits.trans h.submits, h'.released.trans h.released⟩

theorem Frame.prune {t : Device} (h : Frame s t) : Frame s t.pruneTerminal :=
  h.trans ⟨rfl, rfl, rfl⟩

theorem frame_remember (s : Device) (r : RequestRecord) : Frame s (s.remember r) := ⟨rfl, rfl, rfl⟩

theorem frame_settle (s : Device) (r : RequestRecord) (d : GrantDisposition) :
    Frame s (s.settle r d).1 := by
  unfold settle
  dsimp only
  split
  · exact (frame_remember s r).prune
  · exact (Frame.refl s).prune

theorem frame_expire (s : Device) (now : Nat) : Frame s (s.expireStalePending now).1 := by
  unfold expireStalePending
  dsimp only
  split
  · exact Frame.refl s
  · exact Frame.prune ⟨rfl, rfl, rfl⟩

theorem frame_grant (s : Device) (event : NostrEvent) (now : Nat) :
    Frame s (s.grantDisposition f event now).1 := by
  have hcases := s.grant_cases f event now
  generalize s.grantDisposition f event now = out at hcases
  cases hcases with
  | stayed d => exact Frame.refl s
  | rejected r outs => exact (frame_remember s r).prune
  | denied r vg consumed outs => exact Frame.prune ⟨rfl, rfl, rfl⟩
  | launched r vg consumed params outs => exact ⟨rfl, rfl, rfl⟩

theorem frame_perform (s : Device) (r : RequestRecord) (effects : List Effect) :
    Frame s (s.perform r effects) := by
  unfold perform
  split
  · exact ⟨rfl, rfl, rfl⟩
  · exact Frame.refl s

theorem frame_finish (s : Device) (j : InFlight) (ev : Event) : Frame s (s.finish j ev).1 := by
  have hflight : Frame s (s.setInflight none) := ⟨rfl, rfl, rfl⟩
  unfold finish
  dsimp only
  exact (hflight.trans (frame_perform _ _ _)).trans (frame_settle _ _ _)

theorem frame_enactReturn (s : Device) (result : Except EnactError Unit) :
    Frame s (s.enactReturn result).1 := by
  unfold enactReturn
  split
  · exact Frame.refl s
  split
  · exact frame_finish s _ _
  · split
    · exact frame_finish s _ _
    · exact ⟨rfl, rfl, rfl⟩

theorem frame_cancel {out : Device × List BrokerOutput} (hcases : CancelCase s id out) :
    Frame s out.1 := by
  cases hcases with
  | missed => exact Frame.refl s
  | done r => exact Frame.prune ⟨rfl, rfl, rfl⟩

/-! ## What standing messages leave alone -/

@[simp] theorem onClause_broker (s : Device) (event : NostrEvent) (io : IntakeIo) :
    (s.onClause f event io).1.broker = s.broker := by
  unfold onClause
  split
  · rfl
  · rfl

@[simp] theorem onUsageSync_broker (s : Device) (event : NostrEvent) (io : IntakeIo) :
    (s.onUsageSync f event io).1.broker = s.broker := by
  unfold onUsageSync
  split
  · rfl
  · rfl

/-- A release that applies only sets the flag in memory. -/
theorem onRelease_broker (s : Device) (event : NostrEvent) (now : Nat) :
    (s.onRelease f event now).1.broker = s.broker ∨
      (s.onRelease f event now).1.broker = { s.broker with released := true } := by
  unfold onRelease
  split
  · exact Or.inl rfl
  split
  · exact Or.inl rfl
  split
  · exact Or.inl rfl
  split
  · exact Or.inl rfl
  · exact Or.inr rfl

theorem expireStalePending_inflight (s : Device) (now : Nat) :
    (s.expireStalePending now).1.broker.inflight = s.broker.inflight := by
  rcases s.expireStalePending_cases now with h | ⟨t, h, hflight, -⟩
  · rw [h]
  · rw [h]
    exact hflight

theorem settle_inflight (s : Device) (r : RequestRecord) (d : GrantDisposition) :
    (s.settle r d).1.broker.inflight = s.broker.inflight := by
  unfold settle
  dsimp only
  split
  · exact pruneTerminal_inflight.trans remember_inflight
  · exact pruneTerminal_inflight

theorem resolve_inflight (s : Device) (j : InFlight) (state : RequestState) :
    (s.resolve j state).1.broker.inflight = none := settle_inflight _ _ _

/-- What is in flight is being enacted. -/
def Flying (s : Device) : Prop :=
  ∀ j, s.broker.inflight = some j → j.record.state = .enacting

theorem flying_of_eq {t : Device} (hs : s.Flying)
    (h : t.broker.inflight = s.broker.inflight) : t.Flying :=
  fun j hj => hs j (h.symm.trans hj)

theorem flying_of_idle {t : Device} (h : t.broker.inflight = none) : t.Flying := by
  intro j hj
  rw [h] at hj
  cases hj

theorem Flying.prune (hs : s.Flying) : s.pruneTerminal.Flying :=
  flying_of_eq hs pruneTerminal_inflight

theorem flying_grant (hs : s.Flying) (event : NostrEvent) (now : Nat) :
    (s.grantDisposition f event now).1.Flying := by
  have hcases := s.grant_cases f event now
  generalize s.grantDisposition f event now = out at hcases
  cases hcases with
  | stayed d => exact flying_of_eq hs rfl
  | rejected r outs => exact (flying_of_eq (t := s.remember r) hs rfl).prune
  | denied r vg consumed outs => exact Flying.prune (flying_of_eq hs rfl)
  | launched r vg consumed params outs =>
    intro j hj
    cases hj
    rfl

theorem flying_act (hs : s.Flying) (a : BrokerAction) : (s.act f a).1.Flying := by
  cases a with
  | submit op params sourcePath callerUid ids now fault =>
    have hcases := s.submit_cases f op params sourcePath callerUid ids now fault
    change (s.submit f op params sourcePath callerUid ids now fault).1.Flying
    generalize s.submit f op params sourcePath callerUid ids now fault = out at hcases
    cases hcases with
    | refused m callerUid e => exact flying_of_eq hs rfl
    | filed m r outs => exact flying_of_eq hs rfl
  | grant event now => exact flying_grant hs event now
  | localGrant event swept now =>
    exact flying_grant (flying_of_eq hs (s.expireStalePending_inflight swept)) event now
  | enactReturn result =>
    have hcases := enact_cases hs result
    change (s.enactReturn result).1.Flying
    generalize s.enactReturn result = out at hcases
    cases hcases with
    | idle hflight => exact flying_of_eq hs rfl
    | retry j hflight =>
      intro j' hj'
      cases hj'
      exact hs j hflight
    | done j outs => exact flying_of_idle (s.resolve_inflight j .enacted)
    | failed j outs => exact flying_of_idle (s.resolve_inflight j .failed)
  | cancel id =>
    have hcases := s.cancel_cases id
    change (s.cancel id).1.Flying
    generalize s.cancel id = out at hcases
    cases hcases with
    | missed => exact flying_of_eq hs rfl
    | done r => exact Flying.prune (flying_of_eq hs rfl)
  | cancelAs uid id =>
    have hcases := s.cancelAs_cases uid id
    change (s.cancelAs uid id).1.Flying
    generalize s.cancelAs uid id = out at hcases
    cases hcases with
    | missed => exact flying_of_eq hs rfl
    | done r => exact Flying.prune (flying_of_eq hs rfl)
  | sweep now => exact flying_of_eq hs (s.expireStalePending_inflight now)
  | clause event io => exact flying_of_eq hs (congrArg Broker.inflight (s.onClause_broker event io))
  | usageSync event io =>
    exact flying_of_eq hs (congrArg Broker.inflight (s.onUsageSync_broker event io))
  | release event now =>
    refine flying_of_eq hs ?_
    show (s.onRelease f event now).1.broker.inflight = s.broker.inflight
    rcases s.onRelease_broker (f := f) event now with h | h <;> rw [h]
  | markReleased => exact flying_of_eq hs rfl
  | restart now =>
    refine flying_of_idle ?_
    show (Device.expireStalePending _ now).1.broker.inflight = none
    rw [expireStalePending_inflight]
  | consumedFault e => exact flying_of_eq hs rfl

theorem flying_step (hs : s.Flying) (a : BrokerAction) : (step f s a).1.Flying := by
  unfold step
  split
  · exact hs
  · exact flying_act hs a

/-- Whether an action starts a new process. -/
def isRestart : BrokerAction → Bool
  | .restart _ => true
  | _ => false

end Device
end Kintrinsic
