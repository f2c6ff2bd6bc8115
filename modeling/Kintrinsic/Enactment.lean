import Kintrinsic.RequestLife
import Kintrinsic.RequestMoves
import Kintrinsic.SingleUse

/-! # Enactment over whole runs

Every step of the broker is a path of moves of its requests, as long as ids are drawn afresh and
no cancel falls into the flight of its own request.  What paths keep, runs keep: at most one
enactment of a request, only by a genuine allow, and none after it was closed. -/
namespace Kintrinsic
namespace Device

open GuardedRun EffectRun Requests

/-- A device as its requests. -/
def view (s : Device) : Requests :=
  ⟨s.broker.requests.get?, s.disk.pending.get?, s.broker.inflight, s.drawn⟩

/-- What the enactors reported done. -/
def enactedOf (outs : List BrokerOutput) : List InFlight :=
  outs.filterMap fun
    | .enacted j => some j
    | _ => none

theorem mem_enactedOf {outs : List BrokerOutput} {j : InFlight} :
    j ∈ enactedOf outs ↔ .enacted j ∈ outs := by
  constructor
  · intro h
    obtain ⟨out, hout, hj⟩ := List.mem_filterMap.mp h
    split at hj
    · cases hj
      exact hout
    · cases hj
  · intro h
    exact List.mem_filterMap.mpr ⟨_, h, rfl⟩

theorem Quiet.enactedOf {outs : List BrokerOutput} (h : Quiet outs) : enactedOf outs = [] := by
  rw [List.eq_nil_iff_forall_not_mem]
  intro j hj
  exact absurd (h _ (mem_enactedOf.mp hj)) (by simp [isPlain])

theorem enactedOf_append (xs ys : List BrokerOutput) :
    Device.enactedOf (xs ++ ys) = Device.enactedOf xs ++ Device.enactedOf ys :=
  List.filterMap_append

/-! ## Conditions -/

/-- Entropy gives an id that no request was filed under before. -/
def FreshDraw (s : Device) : BrokerAction → Prop
  | .submit _ _ _ _ ids _ _ => ids.1 ∉ s.drawn
  | _ => True

/-- A cancel does not come while the grant of the same request is with its enactor. -/
def CancelApart (s : Device) : BrokerAction → Prop
  | .cancel id | .cancelAs _ id => ∀ j, s.broker.inflight = some j → j.record.reqId ≠ id
  | _ => True

instance decidableFreshDraw : ∀ s a, Decidable (FreshDraw s a)
  | s, .submit _ _ _ _ ids _ _ => inferInstanceAs (Decidable (ids.1 ∉ s.drawn))
  | _, .grant .. | _, .localGrant .. | _, .enactReturn .. | _, .cancel .. | _, .cancelAs ..
  | _, .sweep .. | _, .clause .. | _, .usageSync .. | _, .release .. | _, .markReleased
  | _, .restart .. | _, .consumedFault .. => inferInstanceAs (Decidable True)

instance decidableCancelApart : ∀ s a, Decidable (CancelApart s a)
  | s, .cancel id | s, .cancelAs _ id => inferInstanceAs (Decidable
      (∀ j ∈ s.broker.inflight, j.record.reqId ≠ id))
  | _, .submit .. | _, .grant .. | _, .localGrant .. | _, .enactReturn ..
  | _, .sweep .. | _, .clause .. | _, .usageSync .. | _, .release .. | _, .markReleased
  | _, .restart .. | _, .consumedFault .. => inferInstanceAs (Decidable True)

/-! ## Steps as paths -/

variable {f : Facade} {s : Device} {r : RequestRecord}

theorem view_file (s : Device) (r : RequestRecord) : ((s.persist r).remember r).view =
    { s.view with memory := store s.view.memory r, disk := store s.view.disk r } := by
  have hmem : ((s.persist r).remember r).broker.requests.get? = store s.view.memory r :=
    funext fun id => remember_requests
  have hdisk : ((s.persist r).remember r).disk.pending.get? = store s.view.disk r :=
    funext fun id => persist_pending
  unfold view at *
  rw [hmem, hdisk]
  rfl

theorem path_prune (f : Facade) (s : Device) : Path f s.view s.pruneTerminal.view [] :=
  Path.single (.prune _ _ s.pruneTerminal_cases)

theorem path_sweep (f : Facade) (hidle : s.broker.inflight = none) (now : Nat) :
    Path f s.view (s.expireStalePending now).1.view [] := by
  rcases s.expireStalePending_cases now with h | ⟨t, h, hflight, hdrawn, -, hmem, hdisk⟩
  · rw [h]
    exact .nil _
  · rw [h]
    have hview : t.view = { s.view with
        memory := fun id => (s.view.memory id).map (·.aged now)
        disk := fun id => (((s.view.memory id).filter (·.isStale now)).map (·.after .expire)).or
          (s.view.disk id) } := by
      unfold view
      rw [hflight, hdrawn, funext hmem, funext hdisk]
    have hsweep : Move f s.view t.view none := by
      rw [hview]
      exact .sweep now hidle
    exact (Path.single hsweep).trans (path_prune f t)

/-- A verified grant is launched with what the verifier established. -/
theorem launched_of_verifyGrant {event : NostrEvent} {now : Nat} {vg : VerifiedGrant}
    {consumed : ConsumedIds} {params : GrantParams}
    (hverify : verifyGrant f.crypto f.grants event
      ⟨f.link.guardian, r.reqId, r.nonce, r.op, now⟩ s.disk.consumed = (.ok vg, consumed))
    (hallow : vg.outcome = .allow params) :
    Launched f ⟨event, { r with state := .enacting }, vg, now, 1⟩ := by
  obtain ⟨payload, hgenuine, -, -, -, hdecision⟩ := grantRules_ok (verifyGrant_ok hverify).1
  refine ⟨rfl, payload, hgenuine, hdecision ?_⟩
  rw [hallow]
  simp

/-- Storing what is already there changes nothing. -/
theorem view_remember_same (hget : s.broker.requests.get? r.reqId = some r) :
    (s.remember r).view = s.view := by
  have hmem : (s.remember r).broker.requests.get? = s.broker.requests.get? := by
    funext id
    rw [remember_requests]
    split
    · rename_i h
      rw [h, hget]
    · rfl
  unfold view
  rw [hmem]
  rfl

theorem view_launch (s : Device) (j : InFlight) :
    ((s.persist j.record).setInflight (some j)).view =
      { s.view with disk := store s.view.disk j.record, flight := some j } := by
  have hdisk : ((s.persist j.record).setInflight (some j)).disk.pending.get? =
      store s.view.disk j.record := funext fun id => persist_pending
  unfold view at *
  rw [hdisk]
  rfl

theorem path_grant (f : Facade) (hidle : s.broker.inflight = none) (event : NostrEvent)
    (now : Nat) : Path f s.view (s.grantDisposition f event now).1.view
      (enactedOf (s.grantDisposition f event now).2) := by
  have hcases := s.grant_cases f event now
  generalize s.grantDisposition f event now = out at hcases ⊢
  cases hcases with
  | stayed d => exact .nil _
  | rejected r outs hquiet hget hpending =>
    rw [hquiet.enactedOf, ← view_remember_same hget]
    exact path_prune f _
  | denied r vg consumed outs hquiet hget hpending hverify =>
    rw [hquiet.enactedOf]
    have hdeny : Move f s.view (((s.setConsumed consumed).persist
        { r with state := .denied }).remember { r with state := .denied }).view none := by
      rw [view_file]
      exact .deny r hidle hget hpending
    exact (Path.single hdeny).trans (path_prune f _)
  | launched r vg consumed params outs hquiet hget hpending hverify hallow =>
    rw [hquiet.enactedOf]
    have hlaunch : Move f s.view (((s.setConsumed consumed).persist
        { r with state := .enacting }).setInflight
          (some ⟨event, { r with state := .enacting }, vg, now, 1⟩)).view none := by
      rw [view_launch (s.setConsumed consumed) ⟨event, { r with state := .enacting }, vg, now, 1⟩]
      exact .launch r _ hidle hget hpending rfl (launched_of_verifyGrant hverify hallow)
    exact Path.single hlaunch

theorem path_resolve (hs : s.view.Agrees f) {j : InFlight} (hflight : s.broker.inflight = some j)
    (state : RequestState) : Path f
      { s.view with
        memory := store s.view.memory { j.record with state }
        disk := store s.view.disk { j.record with state }, flight := none }
      (s.resolve j state).1.view [] := by
  obtain ⟨-, -, hlive⟩ := hs.live j hflight
  have hsettle : (s.resolve j state).1 = (((s.setInflight none).persist
      { j.record with state }).remember { j.record with state }).pruneTerminal :=
    settle_pending hlive rfl
  have hprune := path_prune f (((s.setInflight none).persist
    { j.record with state }).remember { j.record with state })
  rw [view_file] at hprune
  rw [hsettle]
  exact hprune

theorem path_enactReturn (hs : s.view.Agrees f) (result : Except EnactError Unit) :
    Path f s.view (s.enactReturn result).1.view (enactedOf (s.enactReturn result).2) := by
  have hcases := enact_cases (fun j hj => (hs.live j hj).1.state) result
  generalize s.enactReturn result = out at hcases ⊢
  cases hcases with
  | idle hflight => exact .nil _
  | retry j hflight => exact Path.single (.retry j (j.attempt + 1) hflight)
  | done j outs hflight hquiet =>
    have hout : enactedOf (.enacted j :: outs) = (some j).toList ++ [] := by
      rw [List.append_nil, ← List.append_nil (some j).toList, ← hquiet.enactedOf]
      rfl
    rw [hout]
    exact .cons (.done j hflight (hs.live j hflight).2.2) (path_resolve hs hflight .enacted)
  | failed j outs hflight hquiet =>
    rw [hquiet.enactedOf]
    exact .cons (.failed j hflight (hs.live j hflight).2.2) (path_resolve hs hflight .failed)

/-- A cancel of a request that is not in flight. -/
theorem path_cancel {id : ReqId} {out : Device × List BrokerOutput} (hcases : CancelCase s id out)
    (hapart : ∀ j, s.broker.inflight = some j → j.record.reqId ≠ id) :
    Path f s.view out.1.view (enactedOf out.2) := by
  cases hcases with
  | missed => exact .nil _
  | done r hget hpending =>
    have hid : r.reqId = id := Registry.key_of_get? hget
    have hfly : ¬s.view.Flies r.reqId := by
      rintro ⟨j, hj, heq⟩
      exact hapart j hj (heq.trans hid)
    have hcancel : Move f s.view ((s.remember { r with state := .cancelled }).persist
        { r with state := .cancelled }).view none := by
      have hview := view_file s { r with state := .cancelled }
      change ((s.remember { r with state := .cancelled }).persist
        { r with state := .cancelled }).view = _ at hview
      rw [hview]
      exact .cancel r hfly (hid ▸ hget) hpending
    exact (Path.single hcancel).trans (path_prune f _)

theorem path_submit {ids : ReqId × Nonce} {out : Device × List BrokerOutput}
    (hcases : SubmitCase s ids out) (hfresh : ids.1 ∉ s.drawn) :
    Path f s.view out.1.view (enactedOf out.2) := by
  cases hcases with
  | refused m callerUid e => exact .nil _
  | filed m r outs hquiet hid hpending =>
    rw [hquiet.enactedOf]
    have hfile : Move f s.view ((((s.withSubmits m).draw ids.1).persist r).remember r).view none := by
      rw [view_file, ← hid]
      exact .file r (hid ▸ hfresh) hpending
    exact Path.single hfile

theorem path_restart (f : Facade) (s : Device) (now : Nat) :
    Path f s.view (s.restart now).1.view (enactedOf (s.restart now).2) := by
  have hquiet : Quiet (s.restart now).2 := quiet_expireStalePending now
  rw [hquiet.enactedOf]
  have hboot : Move f s.view (Device.mk
      { s.disk with pending := s.disk.pending.update interrupted interrupted_reqId }
      ⟨s.disk.pending.update interrupted interrupted_reqId, fun _ => none, none, false⟩
      s.drawn).view none := by
    have hget : (s.disk.pending.update interrupted interrupted_reqId).get? =
        fun id => (s.view.disk id).map interrupted :=
      funext fun id => Registry.get?_update interrupted_reqId
    unfold view
    dsimp only
    rw [hget]
    exact .boot
  have hsweep := path_sweep f (s := Device.mk
      { s.disk with pending := s.disk.pending.update interrupted interrupted_reqId }
      ⟨s.disk.pending.update interrupted interrupted_reqId, fun _ => none, none, false⟩
      s.drawn) rfl now
  exact (Path.single hboot).trans (hsweep.trans (path_prune f _))

/-- What moves no request and enacts none. -/
theorem path_stay {t : Device} {outs : List BrokerOutput} (hview : t.view = s.view)
    (hquiet : Quiet outs) : Path f s.view t.view (enactedOf outs) := by
  rw [hquiet.enactedOf, hview]
  exact .nil _

theorem path_localGrant (hidle : s.broker.inflight = none) (event : NostrEvent) (swept now : Nat) :
    Path f s.view (s.act f (.localGrant event swept now)).1.view
      (enactedOf (s.act f (.localGrant event swept now)).2) := by
  have hidle' : (s.expireStalePending swept).1.broker.inflight = none := by
    rw [expireStalePending_inflight, hidle]
  have hsweep := path_sweep f hidle swept
  rw [← (quiet_expireStalePending (s := s) swept).enactedOf] at hsweep
  have hpath := hsweep.trans (path_grant f hidle' event now)
  rw [← enactedOf_append] at hpath
  exact hpath

theorem onClause_stays (s : Device) (event : NostrEvent) (io : IntakeIo) :
    (s.onClause f event io).1.view = s.view ∧ Quiet (s.onClause f event io).2 := by
  unfold onClause
  split
  · exact ⟨rfl, by simp [Quiet, isPlain]⟩
  · exact ⟨rfl, by simp [Quiet, isPlain]⟩

theorem onUsageSync_stays (s : Device) (event : NostrEvent) (io : IntakeIo) :
    (s.onUsageSync f event io).1.view = s.view ∧ Quiet (s.onUsageSync f event io).2 := by
  unfold onUsageSync
  split
  · exact ⟨rfl, by simp [Quiet, isPlain]⟩
  · exact ⟨rfl, by simp [Quiet, isPlain]⟩

theorem onRelease_stays (s : Device) (event : NostrEvent) (now : Nat) :
    (s.onRelease f event now).1.view = s.view ∧ Quiet (s.onRelease f event now).2 := by
  unfold onRelease
  split
  · exact ⟨rfl, by simp [Quiet, isPlain]⟩
  split
  · exact ⟨rfl, by simp [Quiet, isPlain]⟩
  split
  · exact ⟨rfl, by simp [Quiet, isPlain]⟩
  split
  · exact ⟨rfl, by simp [Quiet, isPlain]⟩
  · exact ⟨rfl, by simp [Quiet, isPlain]⟩

/-- **Every step is a path.** -/
theorem path_step (hs : s.view.Agrees f) {a : BrokerAction} (hfresh : FreshDraw s a)
    (hapart : CancelApart s a) : Path f s.view (step f s a).1.view (enactedOf (step f s a).2) := by
  unfold step
  split
  · exact .nil _
  rename_i hturn
  have hidle : a.takesTurn = true → s.broker.inflight = none := by
    intro htakes
    simpa [htakes] using hturn
  cases a with
  | submit op params sourcePath callerUid ids now fault =>
    exact path_submit (submit_cases ..) hfresh
  | grant event now => exact path_grant f (hidle rfl) event now
  | localGrant event swept now => exact path_localGrant (hidle rfl) event swept now
  | enactReturn result => exact path_enactReturn hs result
  | cancel id => exact path_cancel (s.cancel_cases id) hapart
  | cancelAs uid id => exact path_cancel (s.cancelAs_cases uid id) hapart
  | sweep now =>
    have hpath := path_sweep f (hidle rfl) now
    rwa [← (quiet_expireStalePending (s := s) now).enactedOf] at hpath
  | clause event io => exact path_stay (s.onClause_stays event io).1 (s.onClause_stays event io).2
  | usageSync event io =>
    exact path_stay (s.onUsageSync_stays event io).1 (s.onUsageSync_stays event io).2
  | release event now =>
    exact path_stay (s.onRelease_stays event now).1 (s.onRelease_stays event now).2
  | markReleased => exact .nil _
  | restart now => exact path_restart f s now
  | consumedFault e => exact .nil _

/-! ## Runs -/

/-- What one run may do: fresh ids, and cancels apart from the flights of their requests. -/
def Regular (s : Device) (a : BrokerAction) : Prop := FreshDraw s a ∧ CancelApart s a

theorem agrees_initial (pairing : Option (Option Nat)) : (initial pairing).view.Agrees f := by
  refine ⟨fun id _ => rfl, ?_, ?_⟩
  · intro j hj
    cases hj
  · intro id r hr
    cases hr

/-- **Every run is a path.** -/
theorem path_run (hs : s.view.Agrees f) {as : List BrokerAction}
    (h : Obeys (fun s a => (step f s a).1) Regular s as) :
    Path f s.view (run (step f) s as).1.view (enactedOf (effects (step f) s as)) := by
  induction as generalizing s with
  | nil => exact .nil _
  | cons a as ih =>
    obtain ⟨⟨hfresh, hapart⟩, hrest⟩ := h
    have hstep := path_step hs hfresh hapart
    have hpath := hstep.trans (ih (hstep.agrees hs) hrest)
    rwa [← enactedOf_append, ← effects_cons] at hpath

/-- A device reached by a regular run from the start. -/
theorem agrees_run {pairing : Option (Option Nat)} {as : List BrokerAction}
    (h : Obeys (fun s a => (step f s a).1) Regular (initial pairing) as) :
    (run (step f) (initial pairing) as).1.view.Agrees f :=
  (path_run (agrees_initial pairing) h).agrees (agrees_initial pairing)

/-- Whether an action is a return of the enactor or a cancel. -/
def reports : BrokerAction → Bool
  | .enactReturn _ | .cancel _ | .cancelAs .. => true
  | _ => false

/-- Nothing but a return of the enactor reports an enactment, and nothing but a cancel answers
one. -/
theorem quiet_act (s : Device) {a : BrokerAction} (hreports : reports a = false) :
    Quiet (s.act f a).2 := by
  have hgrant : ∀ (t : Device) (event : NostrEvent) (now : Nat),
      Quiet (t.grantDisposition f event now).2 := by
    intro t event now
    have hcases := t.grant_cases f event now
    generalize t.grantDisposition f event now = out at hcases
    cases hcases with
    | stayed d => exact quiet_singleton rfl
    | rejected r outs hquiet => exact hquiet
    | denied r vg consumed outs hquiet => exact hquiet
    | launched r vg consumed params outs hquiet => exact hquiet
  cases a with
  | submit op params sourcePath callerUid ids now fault =>
    have hcases := s.submit_cases f op params sourcePath callerUid ids now fault
    change Quiet (s.submit f op params sourcePath callerUid ids now fault).2
    generalize s.submit f op params sourcePath callerUid ids now fault = out at hcases
    cases hcases with
    | refused m callerUid e => exact quiet_singleton rfl
    | filed m r outs hquiet => exact hquiet
  | grant event now => exact hgrant s event now
  | localGrant event swept now => exact (quiet_expireStalePending swept).append (hgrant _ event now)
  | enactReturn result => cases hreports
  | cancel id => cases hreports
  | cancelAs uid id => cases hreports
  | sweep now => exact quiet_expireStalePending now
  | clause event io => exact (s.onClause_stays event io).2
  | usageSync event io => exact (s.onUsageSync_stays event io).2
  | release event now => exact (s.onRelease_stays event now).2
  | markReleased => simp [Quiet, act]
  | restart now => exact quiet_expireStalePending now
  | consumedFault e => simp [Quiet, act]

theorem not_enacted_of_cancelCase {id : ReqId} {out : Device × List BrokerOutput}
    (hcases : CancelCase s id out) (j : InFlight) : .enacted j ∉ out.2 := by
  cases hcases with
  | missed => simp
  | done r hget hpending => simp

/-- What an enactor reports done was in flight. -/
theorem inflight_of_enacted (hs : s.view.Agrees f) {a : BrokerAction} {j : InFlight}
    (h : .enacted j ∈ (step f s a).2) : s.broker.inflight = some j := by
  unfold step at h
  split at h
  · cases h
  cases a with
  | enactReturn result =>
    have hcases := enact_cases (fun j hj => (hs.live j hj).1.state) result
    change .enacted j ∈ (s.enactReturn result).2 at h
    generalize s.enactReturn result = out at hcases h
    cases hcases with
    | idle hflight => cases h
    | retry j' hflight => cases h
    | done j' outs hflight hquiet =>
      rcases List.mem_cons.mp h with heq | hmem
      · cases heq
        exact hflight
      · exact absurd (hquiet _ hmem) (by simp [isPlain])
    | failed j' outs hflight hquiet => exact absurd (hquiet _ h) (by simp [isPlain])
  | cancel id => exact absurd h (not_enacted_of_cancelCase (s.cancel_cases id) j)
  | cancelAs uid id => exact absurd h (not_enacted_of_cancelCase (s.cancelAs_cases uid id) j)
  | _ => exact absurd (s.quiet_act (by rfl) _ h) (by simp [isPlain])

/-! ## At most once, and only by a genuine allow -/

/-- What a run keeps about enactments, in every state and at every step. -/
structure EnactmentKept (f : Facade) (pairing : Option (Option Nat)) (as : List BrokerAction) :
    Prop where
  once : ((enactedOf (effects (step f) (initial pairing) as)).map fun j => j.record.reqId).Nodup
  genuine : ∀ bs a cs, as = bs ++ a :: cs →
    let s := (run (step f) (initial pairing) bs).1
    ∀ j, .enacted j ∈ (step f s a).2 →
      s.disk.pending.get? j.record.reqId = some j.record ∧
        ∃ payload, Genuine f.crypto f.grants j.event
          ⟨f.link.guardian, j.record.reqId, j.record.nonce, j.record.op, j.now⟩ payload ∧
            payload.decision = .allow
  closed : ∀ bs cs, as = bs ++ cs →
    let s := (run (step f) (initial pairing) bs).1
    ∀ id r, s.broker.requests.get? id = some r ∨ s.disk.pending.get? id = some r →
      r.state = .denied ∨ r.state = .cancelled ∨ r.state = .expired →
        ∀ j, .enacted j ∈ effects (step f) s cs → j.record.reqId ≠ id

/-- **At most once.**  In every run of submits, grants, cancels, sweeps, deliveries, releases and
restarts, with fresh ids and no cancel in the flight of its own request, a request is enacted at
most once, by a genuine allow for the stored record, and never after it was closed. -/
theorem enactmentKept (pairing : Option (Option Nat)) (as : List BrokerAction)
    (hfresh : Obeys (fun s a => (step f s a).1) FreshDraw (initial pairing) as)
    (hapart : Obeys (fun s a => (step f s a).1) CancelApart (initial pairing) as) :
    EnactmentKept f pairing as := by
  have hregular : Obeys (fun s a => (step f s a).1) Regular (initial pairing) as :=
    hfresh.and hapart
  refine ⟨(path_run (agrees_initial pairing) hregular).nodup (agrees_initial pairing), ?_, ?_⟩
  · rintro bs a cs rfl s j hj
    have hs := agrees_run ((obeys_append.mp hregular).1)
    obtain ⟨⟨-, payload, hgenuine, hallow⟩, hdisk, -⟩ := hs.live j (inflight_of_enacted hs hj)
    exact ⟨hdisk, payload, hgenuine, hallow⟩
  · rintro bs cs rfl s id r hr hclosed j hj
    obtain ⟨hbefore, hafter⟩ := obeys_append.mp hregular
    have hs : s.view.Agrees f := agrees_run hbefore
    have hterminal : r.state.isTerminal = true := by
      rcases hclosed with h | h | h <;> rw [h] <;> rfl
    rw [← run_state] at hafter
    exact ((path_run hs hafter).lapsed (hs.lapsed hr hterminal)).2 j (mem_enactedOf.mpr hj)

/-! ## A cancel in the flight -/

/-- The desk's crypto and decoders on a device of guardian 7. -/
def deskFacade : Facade :=
  ⟨Desk.deskCrypto, Desk.deskCodec, ⟨fun _ => .error "missing field", fun _ => .error "missing field",
    fun _ => .error "missing field", fun _ => "\x7b\x7d", fun _ => none⟩, ⟨⟨7⟩, ⟨9⟩, ⟨8⟩⟩⟩

/-- Thirty more minutes are asked for and allowed. -/
def askAndAllow : List BrokerAction :=
  [.submit .timeExtend "\x7b\"minutes\":30\x7d" none (some 1001) (⟨0x0b0b⟩, ⟨0x0c0c⟩) 1000 none,
    .grant (Desk.allowEvent ⟨1⟩ "2000") 1000]

/-- Withdrawn after the enactor has returned, the request is enacted once; so it is when the
grant comes a second time, and after a restart. -/
theorem enactmentKept_cancelled_late : EnactmentKept deskFacade none
    (askAndAllow ++ [.enactReturn (.error (.transient "busy")), .enactReturn (.ok ()),
      .cancel ⟨0x0b0b⟩, .localGrant (Desk.allowEvent ⟨1⟩ "2000") 1001 1001, .restart 1002]) :=
  enactmentKept none _ (by decide +kernel) (by decide +kernel)

/-- **Enacted after it was cancelled.**  A cancel in the flight sees the request as pending and
withdraws it, and then the enactor reports success. -/
theorem enacted_after_cancel :
    ¬EnactmentKept deskFacade none
      (askAndAllow ++ [.cancel ⟨0x0b0b⟩] ++ [.enactReturn (.ok ())]) := by
  intro h
  have hcancelled : ((run (step deskFacade) (initial none)
      (askAndAllow ++ [.cancel ⟨0x0b0b⟩])).1.broker.requests.get? ⟨0x0b0b⟩).map
        RequestRecord.state = some .cancelled := by decide +kernel
  have henacted : (enactedOf (effects (step deskFacade) (run (step deskFacade) (initial none)
      (askAndAllow ++ [.cancel ⟨0x0b0b⟩])).1 [.enactReturn (.ok ())])).map
        (fun j => j.record.reqId) = [⟨0x0b0b⟩] := by decide +kernel
  obtain ⟨r, hr, hstate⟩ := Option.map_eq_some_iff.mp hcancelled
  obtain ⟨j, hj, hid⟩ := List.mem_map.mp (henacted ▸ List.mem_singleton_self _)
  exact h.closed _ _ rfl _ r (Or.inl hr) (Or.inr (Or.inl hstate)) j (mem_enactedOf.mp hj) hid

end Device
end Kintrinsic
