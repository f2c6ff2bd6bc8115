import Kintrinsic.Enactment
import Kintrinsic.SlidingWindow

/-! # What a caller may ask for

The two caps of a submit: on the caller's unanswered requests, counted from the records, and on
the submits of an hour, counted from a map of windows that is pruned on the caller's own submits
alone.  The caps hold, and nobody spends another's budget; but a window that nobody asks about
again is never dropped. -/
namespace Kintrinsic
namespace Device

open GuardedRun EffectRun

variable {f : Facade} {s : Device} {c : Option UInt32}

/-! ## Unanswered requests -/

/-- What counts as a caller's unanswered request. -/
def isOutstanding (c : Option UInt32) (r : RequestRecord) : Bool :=
  r.callerUid = c && !r.state.isTerminal

theorem outstanding_remember_terminal {r : RequestRecord} (h : r.state.isTerminal = true) :
    (s.remember r).outstanding c ≤ s.outstanding c :=
  Registry.count_put_le_of_not (by simp [h])

theorem outstanding_prune (s : Device) (c : Option UInt32) :
    s.pruneTerminal.outstanding c ≤ s.outstanding c := Registry.count_filter_le _

theorem outstanding_settle {r : RequestRecord} {d : GrantDisposition}
    (h : r.state.isTerminal = true) : (s.settle r d).1.outstanding c ≤ s.outstanding c := by
  unfold settle
  dsimp only
  split
  · exact (outstanding_prune _ c).trans (outstanding_remember_terminal h)
  · exact outstanding_prune s c

theorem outstanding_expire (s : Device) (now : Nat) (c : Option UInt32) :
    (s.expireStalePending now).1.outstanding c ≤ s.outstanding c := by
  unfold expireStalePending
  dsimp only
  split
  · exact le_rfl
  · refine (outstanding_prune _ c).trans (Registry.count_update_le (RequestRecord.aged_reqId now) ?_)
    intro r hr
    unfold RequestRecord.aged at hr
    split at hr
    · rename_i hstale
      have hpending : r.state = .pending := by
        unfold RequestRecord.isStale at hstale
        simp only [Bool.and_eq_true, beq_iff_eq] at hstale
        exact hstale.1
      simp [RequestRecord.after, transition, hpending,
        RequestState.isTerminal] at hr
    · exact hr

theorem outstanding_grant (s : Device) (event : NostrEvent) (now : Nat) (c : Option UInt32) :
    (s.grantDisposition f event now).1.outstanding c ≤ s.outstanding c := by
  have hcases := s.grant_cases f event now
  generalize s.grantDisposition f event now = out at hcases
  cases hcases with
  | stayed d => exact le_rfl
  | rejected r outs hquiet hget hpending =>
    exact (outstanding_prune _ c).trans (Registry.count_put_le_of_get? hget)
  | denied r vg consumed outs =>
    exact (outstanding_prune _ c).trans
      (outstanding_remember_terminal (s := (s.setConsumed consumed).persist _) rfl)
  | launched r vg consumed params outs => exact le_rfl

theorem outstanding_resolve {j : InFlight} {state : RequestState}
    (h : state.isTerminal = true) : (s.resolve j state).1.outstanding c ≤ s.outstanding c :=
  outstanding_settle (s := (s.setInflight none).persist _) h

theorem outstanding_enactReturn (hflight : s.Flying) (result : Except EnactError Unit)
    (c : Option UInt32) :
    (s.enactReturn result).1.outstanding c ≤ s.outstanding c := by
  have hcases := enact_cases hflight result
  generalize s.enactReturn result = out at hcases
  cases hcases with
  | idle => exact le_rfl
  | retry j => exact le_rfl
  | done j outs => exact outstanding_resolve rfl
  | failed j outs => exact outstanding_resolve rfl

theorem outstanding_cancel {id : ReqId} {out : Device × List BrokerOutput}
    (hcases : CancelCase s id out) : out.1.outstanding c ≤ s.outstanding c := by
  cases hcases with
  | missed => exact le_rfl
  | done r => exact (outstanding_prune _ c).trans (outstanding_remember_terminal rfl)

/-! ## The check -/

/-- The stamps of a caller's window. -/
def stampsOf (s : Device) (c : Option UInt32) : List Nat := (s.broker.submits c).getD []

/-- What the check answers, and the windows it leaves. -/
inductive CapsCase (s : Device) (c : Option UInt32) (now : Nat) :
    Except BrokerError Unit × Device → Prop
  | waiting (m : String) (hfull : maxPendingPerCaller ≤ s.outstanding c) :
      CapsCase s c now (.error (.rateLimited m), s)
  | often (m : String) (stamps : List Nat) (hstamps : s.broker.submits c = some stamps)
      (hfull : maxSubmitsPerHour ≤ (pruneWindow now stamps).length) :
      CapsCase s c now (.error (.rateLimited m), s.setSubmits c (some (pruneWindow now stamps)))
  | admitted (hfree : s.outstanding c < maxPendingPerCaller)
      (hroom : (pruneWindow now (s.stampsOf c)).length < maxSubmitsPerHour) :
      CapsCase s c now
        (.ok (), s.setSubmits c (some (pruneWindow now (s.stampsOf c) ++ [now])))

theorem setSubmits_setSubmits (s : Device) (c : Option UInt32) (l l' : Option (List Nat)) :
    (s.setSubmits c l).setSubmits c l' = s.setSubmits c l' := by
  have hsubmits : (fun d => if d = c then l' else (s.setSubmits c l).broker.submits d) =
      fun d => if d = c then l' else s.broker.submits d := by
    funext d
    by_cases h : d = c
    · simp [h]
    · simp [setSubmits, h]
  show withSubmits _ _ = withSubmits _ _
  rw [hsubmits]
  rfl

theorem caps_cases (s : Device) (c : Option UInt32) (now : Nat) :
    CapsCase s c now (s.checkCallerCaps c now) := by
  have hpruned : ((s.broker.submits c).map (pruneWindow now)).getD [] =
      pruneWindow now (s.stampsOf c) := by
    unfold stampsOf
    cases s.broker.submits c <;> rfl
  unfold checkCallerCaps
  split
  · exact .waiting _ ‹_›
  rename_i hfree
  dsimp only
  rw [hpruned]
  split
  · rename_i hfull
    cases hstamps : s.broker.submits c with
    | none =>
      have hempty : s.stampsOf c = [] := by
        unfold stampsOf
        rw [hstamps]
        rfl
      rw [hempty] at hfull
      change maxSubmitsPerHour ≤ 0 at hfull
      exact absurd hfull (by decide)
    | some stamps =>
      have hsame : s.stampsOf c = stamps := by
        unfold stampsOf
        rw [hstamps]
        rfl
      rw [hsame] at hfull
      have hne : pruneWindow now stamps ≠ [] := by
        intro hnil
        rw [hnil] at hfull
        exact absurd hfull (by decide)
      have hkept : ((some stamps).map (pruneWindow now)).filter (· ≠ []) =
          some (pruneWindow now stamps) := Option.filter_some_pos (by simpa using hne)
      rw [hkept]
      exact .often _ stamps hstamps hfull
  · rename_i hroom
    rw [setSubmits_setSubmits]
    exact .admitted (not_le.mp hfree) (not_le.mp hroom)

/-- Refused, or not: from what is unanswered and what is left of the window. -/
theorem refused_iff (s : Device) (c : Option UInt32) (now : Nat) :
    (∃ e, (s.checkCallerCaps c now).1 = .error e) ↔ maxPendingPerCaller ≤ s.outstanding c ∨
      maxSubmitsPerHour ≤ (pruneWindow now (s.stampsOf c)).length := by
  have hcases := s.caps_cases c now
  generalize s.checkCallerCaps c now = out at hcases
  cases hcases with
  | waiting m hfull => exact iff_of_true ⟨_, rfl⟩ (Or.inl hfull)
  | often m stamps hstamps hfull =>
    have hsame : s.stampsOf c = stamps := by
      unfold stampsOf
      rw [hstamps]
      rfl
    exact iff_of_true ⟨_, rfl⟩ (Or.inr (hsame ▸ hfull))
  | admitted hfree hroom =>
    refine iff_of_false ?_ ?_
    · rintro ⟨e, he⟩
      cases he
    · rintro (h | h)
      · omega
      · omega

/-- What a submit does to the caps of its caller. -/
inductive SubmitCaps (s : Device) (params : Value) (c : Option UInt32) (ids : ReqId × Nonce)
    (now : Nat) : Device × List BrokerOutput → Prop
  | invalid (m : String) (hparams : isObject params = false) :
      SubmitCaps s params c ids now (s, [.submitted c (.error (.invalid m))])
  | refused (e : BrokerError) (t : Device) (hparams : isObject params = true)
      (hcaps : CapsCase s c now (.error e, t)) :
      SubmitCaps s params c ids now (t, [.submitted c (.error e)])
  -- the caps let it pass, but its record could not be stored
  | unsaved (e : SysError) (hparams : isObject params = true)
      (hroom : (pruneWindow now (s.stampsOf c)).length < maxSubmitsPerHour) :
      SubmitCaps s params c ids now
        (s.setSubmits c (some (pruneWindow now (s.stampsOf c) ++ [now])),
          [.submitted c (.error (.sys e))])
  | accepted (r : RequestRecord) (payload : RequestPayload) (hparams : isObject params = true)
      (hcaller : r.callerUid = c) (hfree : s.outstanding c < maxPendingPerCaller)
      (hroom : (pruneWindow now (s.stampsOf c)).length < maxSubmitsPerHour) :
      SubmitCaps s params c ids now
        ((((s.setSubmits c (some (pruneWindow now (s.stampsOf c) ++ [now]))).draw
          ids.1).persist r).remember r,
          [.published payload, .requestUpdated ids.1 .pending, .submitted c (.ok ids.1)])

theorem submit_caps (f : Facade) (s : Device) (op : OpType) (params : Value)
    (sourcePath : Option String) (c : Option UInt32) (ids : ReqId × Nonce) (now : Nat)
    (fault : Option SysError) :
    SubmitCaps s params c ids now (s.submit f op params sourcePath c ids now fault) := by
  have hcases := s.caps_cases c now
  unfold submit
  split
  · rename_i hparams
    exact .invalid _ (by simpa using hparams)
  rename_i hparams
  have hobject : isObject params = true := by simpa using hparams
  split
  · rename_i e t h
    rw [h] at hcases
    exact .refused e t hobject hcases
  · rename_i t h
    rw [h] at hcases
    cases hcases with
    | admitted hfree hroom =>
      cases fault with
      | some e => exact .unsaved _ hobject hroom
      | none =>
        exact .accepted ⟨ids.1, ids.2, op, .pending, now, some "waiting for approval", sourcePath,
          c⟩ _ hobject rfl hfree hroom

/-- A submit adds at most one to what is unanswered of its caller, nothing to the others'. -/
theorem outstanding_file (t : Device) (r : RequestRecord) :
    ((t.persist r).remember r).outstanding c ≤
      t.outstanding c + if r.callerUid = c then 1 else 0 := by
  split
  · exact Registry.count_put_le r
  · rename_i hcaller
    exact Registry.count_put_le_of_not (by simp [hcaller])

theorem outstanding_submit (op : OpType) (params : Value) (sourcePath : Option String)
    {callerUid : Option UInt32} (hcaller : callerUid ≠ c) (ids : ReqId × Nonce) (now : Nat)
    (fault : Option SysError) :
    (s.submit f op params sourcePath callerUid ids now fault).1.outstanding c ≤ s.outstanding c := by
  have hcases := s.submit_caps f op params sourcePath callerUid ids now fault
  generalize s.submit f op params sourcePath callerUid ids now fault = out at hcases
  cases hcases with
  | invalid e => exact le_rfl
  | refused e t hparams hcaps =>
    cases hcaps with
    | waiting e hfull => exact le_rfl
    | often e stamps hstamps hfull => exact le_rfl
  | unsaved e => exact le_rfl
  | accepted r payload hparams hr =>
    have hfile := outstanding_file (c := c) ((s.setSubmits callerUid
      (some (pruneWindow now (s.stampsOf callerUid) ++ [now]))).draw ids.1) r
    rw [hr, if_neg hcaller] at hfile
    exact hfile

/-- Whether an action is a submit of this caller. -/
def isSubmitOf (c : Option UInt32) : BrokerAction → Bool
  | .submit _ _ _ callerUid _ _ _ => callerUid = c
  | _ => false

/-- **Nothing but a caller's own submit adds to what is unanswered of it.** -/
theorem outstanding_act (hflight : s.Flying) {a : BrokerAction} (hsubmit : isSubmitOf c a = false)
    (hrestart : isRestart a = false) : (s.act f a).1.outstanding c ≤ s.outstanding c := by
  cases a with
  | submit op params sourcePath callerUid ids now fault =>
    exact outstanding_submit op params sourcePath (by simpa [isSubmitOf] using hsubmit) ids now fault
  | grant event now => exact outstanding_grant s event now c
  | localGrant event swept now =>
    exact (outstanding_grant _ event now c).trans (outstanding_expire s swept c)
  | enactReturn result => exact outstanding_enactReturn hflight result c
  | cancel id => exact outstanding_cancel (s.cancel_cases id)
  | cancelAs uid id => exact outstanding_cancel (s.cancelAs_cases uid id)
  | sweep now => exact outstanding_expire s now c
  | clause event io =>
    have hbroker := s.onClause_broker (f := f) event io
    unfold outstanding
    show ((s.onClause f event io).1.broker.requests.entries.filter _).length ≤ _
    rw [hbroker]
  | usageSync event io =>
    have hbroker := s.onUsageSync_broker (f := f) event io
    unfold outstanding
    show ((s.onUsageSync f event io).1.broker.requests.entries.filter _).length ≤ _
    rw [hbroker]
  | release event now =>
    unfold outstanding
    show ((s.onRelease f event now).1.broker.requests.entries.filter _).length ≤ _
    rcases s.onRelease_broker (f := f) event now with h | h
    · rw [h]
    · rw [h]
  | markReleased => exact le_rfl
  | restart now => cases hrestart
  | consumedFault e => exact le_rfl

/-- **Nothing but a caller's own submit touches its window.** -/
theorem submits_act {a : BrokerAction} (hsubmit : isSubmitOf c a = false)
    (hrestart : isRestart a = false) :
    (s.act f a).1.broker.submits c = s.broker.submits c := by
  have hframe : ∀ {t : Device}, Frame s t → t.broker.submits c = s.broker.submits c :=
    fun h => congrFun h.submits c
  cases a with
  | submit op params sourcePath callerUid ids now fault =>
    have hcaller : c ≠ callerUid := by
      rintro rfl
      simp [isSubmitOf] at hsubmit
    have hcases := s.submit_caps f op params sourcePath callerUid ids now fault
    change (s.submit f op params sourcePath callerUid ids now fault).1.broker.submits c = _
    generalize s.submit f op params sourcePath callerUid ids now fault = out at hcases
    cases hcases with
    | invalid e => rfl
    | refused e t hparams hcaps =>
      cases hcaps with
      | waiting e hfull => rfl
      | often e stamps hstamps hfull => exact if_neg hcaller
    | unsaved e => exact if_neg hcaller
    | accepted r payload => exact if_neg hcaller
  | grant event now => exact hframe (frame_grant s event now)
  | localGrant event swept now =>
    exact hframe ((frame_expire s swept).trans (frame_grant _ event now))
  | enactReturn result => exact hframe (frame_enactReturn s result)
  | cancel id => exact hframe (frame_cancel (s.cancel_cases id))
  | cancelAs uid id => exact hframe (frame_cancel (s.cancelAs_cases uid id))
  | sweep now => exact hframe (frame_expire s now)
  | clause event io => exact congrArg (fun b => Broker.submits b c) (s.onClause_broker event io)
  | usageSync event io =>
    exact congrArg (fun b => Broker.submits b c) (s.onUsageSync_broker event io)
  | release event now =>
    show (s.onRelease f event now).1.broker.submits c = _
    rcases s.onRelease_broker (f := f) event now with h | h
    · rw [h]
    · rw [h]
  | markReleased => rfl
  | restart now => cases hrestart
  | consumedFault e => rfl

/-! ## Histories -/

/-- Whether an output accepts a submit. -/
def isAccepted : BrokerOutput → Bool
  | .submitted _ (.ok _) => true
  | _ => false

/-- Whether an output answers a submit that the caps let pass. -/
def isPassed : BrokerOutput → Bool
  | .submitted _ (.ok _) | .submitted _ (.error (.sys _)) => true
  | _ => false

/-- The instant of a submit of this caller whose outputs say `p`. -/
def answeredAt (p : BrokerOutput → Bool) (c : Option UInt32) :
    BrokerAction × List BrokerOutput → Option Nat
  | (.submit _ _ _ callerUid _ now _, outs) =>
    if callerUid = c && outs.any p then some now else none
  | _ => none

/-- When submits of this caller were accepted in a run. -/
def acceptedTimes (c : Option UInt32) (entries : List (BrokerAction × List BrokerOutput)) :
    List Nat :=
  entries.filterMap (answeredAt isAccepted c)

/-- When submits of this caller passed the caps in a run. -/
def passedTimes (c : Option UInt32) (entries : List (BrokerAction × List BrokerOutput)) :
    List Nat :=
  entries.filterMap (answeredAt isPassed c)

/-- The instant of a submit of this caller that is one at all. -/
def askedAt (c : Option UInt32) : BrokerAction → Option Nat
  | .submit _ params _ callerUid _ now _ => if callerUid = c && isObject params then some now else none
  | _ => none

/-- The clock an action reads, in order. -/
def reads : BrokerAction → List Nat
  | .submit _ _ _ _ _ now _ | .grant _ now | .sweep now | .release _ now | .restart now => [now]
  | .localGrant _ swept now => [swept, now]
  | _ => []

/-- The last reading of the clock. -/
def clockOf (as : List BrokerAction) : Nat := ((as.flatMap reads).getLast?).getD 0

/-- The clock never goes back. -/
def Forward (as : List BrokerAction) : Prop := (as.flatMap reads).Pairwise (· ≤ ·)

instance (as : List BrokerAction) : Decidable (Forward as) :=
  inferInstanceAs (Decidable (List.Pairwise _ _))

theorem Forward.prefix {as bs : List BrokerAction} (h : Forward (as ++ bs)) : Forward as := by
  unfold Forward at *
  rw [List.flatMap_append, List.pairwise_append] at h
  exact h.1

/-- What an action reads is not before the last reading. -/
theorem Forward.clock_le {as : List BrokerAction} {a : BrokerAction} (h : Forward (as ++ [a])) :
    ∀ x ∈ reads a, clockOf as ≤ x := by
  intro x hx
  unfold Forward at h
  rw [List.flatMap_append, List.pairwise_append] at h
  obtain ⟨-, -, hcross⟩ := h
  unfold clockOf
  cases hlast : (as.flatMap reads).getLast? with
  | none => exact Nat.zero_le _
  | some y => exact hcross y (List.mem_of_getLast? hlast) x (by simpa using hx)

theorem clockOf_append (as : List BrokerAction) (a : BrokerAction) :
    clockOf (as ++ [a]) = ((reads a).getLast?).getD (clockOf as) := by
  unfold clockOf
  rw [List.flatMap_append, List.getLast?_append]
  simp only [List.flatMap_singleton]
  cases (reads a).getLast? <;> rfl

theorem Forward.clock_mono {as : List BrokerAction} {a : BrokerAction} (h : Forward (as ++ [a])) :
    clockOf as ≤ clockOf (as ++ [a]) := by
  rw [clockOf_append]
  cases hlast : (reads a).getLast? with
  | none => exact le_rfl
  | some x => exact h.clock_le x (List.mem_of_getLast? hlast)

/-! ## The invariant -/

open SlidingWindow in
/-- What a run without a restart keeps of every caller, over its actions and what they let out. -/
structure Capped (s : Device) (as : List BrokerAction)
    (entries : List (BrokerAction × List BrokerOutput)) (c : Option UInt32) : Prop where
  outstanding : s.outstanding c ≤ maxPendingPerCaller
  window : Holds submitWindowSecs maxSubmitsPerHour (clockOf as) (passedTimes c entries)
    (s.stampsOf c)
  entry : s.broker.submits c = none ↔ passedTimes c entries = []
  rated : Rated submitWindowSecs maxSubmitsPerHour (passedTimes c entries)
  idle : passedTimes c entries = [] → s.outstanding c = 0
  asked : passedTimes c entries = [] ↔ as.filterMap (askedAt c) = []

variable {as : List BrokerAction} {entries : List (BrokerAction × List BrokerOutput)}

theorem capped_initial (pairing : Option (Option Nat)) (c : Option UInt32) :
    Capped (initial pairing) [] [] c :=
  ⟨Nat.zero_le _, SlidingWindow.holds_nil _ _ _, iff_of_true rfl rfl, SlidingWindow.rated_nil _ _,
    fun _ => rfl, iff_of_true rfl rfl⟩

theorem passedTimes_append (c : Option UInt32) (entries : List (BrokerAction × List BrokerOutput))
    (a : BrokerAction) (outs : List BrokerOutput) :
    passedTimes c (entries ++ [(a, outs)]) =
      passedTimes c entries ++ (answeredAt isPassed c (a, outs)).toList := by
  unfold passedTimes
  rw [List.filterMap_append]
  cases h : answeredAt isPassed c (a, outs) <;> simp [h]

theorem asked_append (c : Option UInt32) (as : List BrokerAction) (a : BrokerAction) :
    (as ++ [a]).filterMap (askedAt c) = as.filterMap (askedAt c) ++ (askedAt c a).toList := by
  rw [List.filterMap_append]
  cases h : askedAt c a <;> simp [h]

theorem answeredAt_other {a : BrokerAction} (h : isSubmitOf c a = false)
    (outs : List BrokerOutput) : answeredAt isPassed c (a, outs) = none := by
  cases a with
  | submit op params sourcePath callerUid ids now fault =>
    have hcaller : callerUid ≠ c := by simpa [isSubmitOf] using h
    simp [answeredAt, hcaller]
  | _ => rfl

theorem askedAt_other {a : BrokerAction} (h : isSubmitOf c a = false) : askedAt c a = none := by
  cases a with
  | submit op params sourcePath callerUid ids now fault =>
    have hcaller : callerUid ≠ c := by simpa [isSubmitOf] using h
    simp [askedAt, hcaller]
  | _ => rfl

/-- What leaves a caller's window alone and adds no request of its keeps the invariant. -/
theorem Capped.stay (h : Capped s as entries c) {t : Device} {a : BrokerAction}
    {outs : List BrokerOutput} (hclock : clockOf as ≤ clockOf (as ++ [a]))
    (hout : t.outstanding c ≤ s.outstanding c) (hsubmits : t.broker.submits c = s.broker.submits c)
    (hpassed : answeredAt isPassed c (a, outs) = none)
    (hasked : askedAt c a = none ∨ passedTimes c entries ≠ []) :
    Capped t (as ++ [a]) (entries ++ [(a, outs)]) c := by
  have htimes : passedTimes c (entries ++ [(a, outs)]) = passedTimes c entries := by
    rw [passedTimes_append, hpassed]
    exact List.append_nil _
  have hstamps : t.stampsOf c = s.stampsOf c := by
    unfold stampsOf
    rw [hsubmits]
  refine ⟨hout.trans h.outstanding, ?_, ?_, ?_, ?_, ?_⟩
  · rw [htimes, hstamps]
    exact h.window.later hclock
  · rw [htimes, hsubmits]
    exact h.entry
  · rw [htimes]
    exact h.rated
  · rw [htimes]
    intro hnone
    have := h.idle hnone
    omega
  · rw [htimes, asked_append]
    rcases hasked with hnone | hsome
    · rw [hnone]
      simpa using h.asked
    · have hbefore : as.filterMap (askedAt c) ≠ [] := fun hnil => hsome (h.asked.mpr hnil)
      exact iff_of_false hsome (by simp [hbefore])

/-- Any step but the caller's own submit. -/
theorem Capped.other (h : Capped s as entries c) (hflight : s.Flying) {a : BrokerAction}
    (hforward : Forward (as ++ [a])) (hsubmit : isSubmitOf c a = false)
    (hrestart : isRestart a = false) :
    Capped (step f s a).1 (as ++ [a]) (entries ++ [(a, (step f s a).2)]) c := by
  have hpassed := answeredAt_other hsubmit (step f s a).2
  unfold step at hpassed ⊢
  split
  · exact h.stay hforward.clock_mono le_rfl rfl (answeredAt_other hsubmit _)
      (Or.inl (askedAt_other hsubmit))
  · exact h.stay hforward.clock_mono (outstanding_act hflight hsubmit hrestart)
      (submits_act hsubmit hrestart) (answeredAt_other hsubmit _) (Or.inl (askedAt_other hsubmit))

/-- A refusal leaves the device as it was: a full window has nothing to prune. -/
theorem CapsCase.unchanged {now : Nat} {e : BrokerError} {t : Device}
    (hcaps : CapsCase s c now (.error e, t)) (hbound : (s.stampsOf c).length ≤ maxSubmitsPerHour) :
    t = s ∧ (∃ m, e = .rateLimited m) ∧
      (maxPendingPerCaller ≤ s.outstanding c ∨ s.broker.submits c ≠ none) := by
  cases hcaps with
  | waiting m hfull => exact ⟨rfl, ⟨m, rfl⟩, Or.inl hfull⟩
  | often m stamps hstamps hfull =>
    have hsame : s.stampsOf c = stamps := by
      unfold stampsOf
      rw [hstamps]
      rfl
    have hpruned : pruneWindow now stamps = stamps :=
      SlidingWindow.prune_of_full (hsame ▸ hbound) hfull
    refine ⟨?_, ⟨m, rfl⟩, Or.inr (by rw [hstamps]; simp)⟩
    rw [hpruned, ← hstamps]
    have hsubmits : (fun d => if d = c then s.broker.submits c else s.broker.submits d) =
        s.broker.submits := by
      funext d
      split
      · rename_i hd
        rw [hd]
      · rfl
    unfold setSubmits
    rw [hsubmits]

/-- What the caps let pass, whether or not its record is stored. -/
theorem Capped.pass (h : Capped s as entries c) {t : Device} {a : BrokerAction}
    {outs : List BrokerOutput} {now : Nat} (hnow : clockOf as ≤ now)
    (hclock : clockOf (as ++ [a]) = now) (hpassed : answeredAt isPassed c (a, outs) = some now)
    (hasked : askedAt c a = some now)
    (hroom : (pruneWindow now (s.stampsOf c)).length < maxSubmitsPerHour)
    (hsubmits : t.broker.submits c = some (pruneWindow now (s.stampsOf c) ++ [now]))
    (hout : t.outstanding c ≤ maxPendingPerCaller) :
    Capped t (as ++ [a]) (entries ++ [(a, outs)]) c := by
  have htimes : passedTimes c (entries ++ [(a, outs)]) = passedTimes c entries ++ [now] := by
    rw [passedTimes_append, hpassed]
    rfl
  have hstamps : t.stampsOf c = pruneWindow now (s.stampsOf c) ++ [now] := by
    unfold stampsOf
    rw [hsubmits]
    rfl
  have hwindow : SlidingWindow.Holds submitWindowSecs maxSubmitsPerHour now
      (passedTimes c entries ++ [now]) (pruneWindow now (s.stampsOf c) ++ [now]) :=
    (h.window.prune hnow).push hroom
  have hsome : passedTimes c entries ++ [now] ≠ [] := by simp
  refine ⟨hout, ?_, ?_, ?_, ?_, ?_⟩
  · rw [htimes, hstamps, hclock]
    exact hwindow
  · rw [htimes, hsubmits]
    exact iff_of_false (by simp) hsome
  · rw [htimes]
    exact h.rated.push hwindow
  · rw [htimes]
    exact fun hnone => absurd hnone hsome
  · rw [htimes, asked_append, hasked]
    exact iff_of_false hsome (by simp)

/-- The caller's own submit. -/
theorem Capped.own (h : Capped s as entries c) {op : OpType} {params : Value}
    {sourcePath : Option String} {ids : ReqId × Nonce} {now : Nat} {fault : Option SysError}
    (hforward : Forward (as ++ [.submit op params sourcePath c ids now fault])) :
    Capped (s.submit f op params sourcePath c ids now fault).1
      (as ++ [.submit op params sourcePath c ids now fault])
      (entries ++ [(.submit op params sourcePath c ids now fault,
        (s.submit f op params sourcePath c ids now fault).2)]) c := by
  have hcases := s.submit_caps f op params sourcePath c ids now fault
  have hnow : clockOf as ≤ now := hforward.clock_le now (by simp [reads])
  have hclock : clockOf (as ++ [.submit op params sourcePath c ids now fault]) = now := by
    rw [clockOf_append]
    rfl
  generalize s.submit f op params sourcePath c ids now fault = out at hcases
  cases hcases with
  | invalid m hparams =>
    exact h.stay hforward.clock_mono le_rfl rfl (by simp [answeredAt, isPassed])
      (Or.inl (by simp [askedAt, hparams]))
  | refused e t hparams hcaps =>
    obtain ⟨rfl, hlimited, hwhy⟩ := hcaps.unchanged h.window.bounded
    obtain ⟨m, rfl⟩ := hlimited
    refine h.stay hforward.clock_mono le_rfl rfl (by simp [answeredAt, isPassed]) (Or.inr ?_)
    intro hnone
    rcases hwhy with hfull | hentry
    · rw [h.idle hnone] at hfull
      exact absurd hfull (by decide)
    · exact hentry (h.entry.mpr hnone)
  | unsaved e hparams hroom =>
    exact h.pass hnow hclock (by simp [answeredAt, isPassed]) (by simp [askedAt, hparams]) hroom
      (if_pos rfl) h.outstanding
  | accepted r payload hparams hcaller hfree hroom =>
    refine h.pass hnow hclock (by simp [answeredAt, isPassed]) (by simp [askedAt, hparams]) hroom
      (if_pos rfl) ?_
    -- one more of its own, where one fewer than the cap was allowed before
    have hfile := outstanding_file (c := c) ((s.setSubmits c
      (some (pruneWindow now (s.stampsOf c) ++ [now]))).draw ids.1) r
    rw [if_pos hcaller] at hfile
    exact hfile.trans hfree

/-- **Step lemma.** -/
theorem Capped.step (h : Capped s as entries c) (hflight : s.Flying) {a : BrokerAction}
    (hforward : Forward (as ++ [a])) (hrestart : isRestart a = false) :
    Capped (step f s a).1 (as ++ [a]) (entries ++ [(a, (step f s a).2)]) c := by
  cases hsubmit : isSubmitOf c a with
  | false => exact h.other hflight hforward hsubmit hrestart
  | true =>
    cases a with
    | submit op params sourcePath callerUid ids now fault =>
      obtain rfl : callerUid = c := by simpa [isSubmitOf] using hsubmit
      exact h.own hforward
    | _ => cases hsubmit

/-- **Run lemma.** -/
theorem capped_run (f : Facade) (pairing : Option (Option Nat)) (c : Option UInt32)
    (as : List BrokerAction) (hforward : Forward as) (hrestart : ∀ a ∈ as, isRestart a = false) :
    (run (step f) (initial pairing) as).1.Flying ∧
      Capped (run (step f) (initial pairing) as).1 as (run (step f) (initial pairing) as).2 c := by
  induction as using List.reverseRecOn with
  | nil => exact ⟨flying_of_idle rfl, capped_initial pairing c⟩
  | append_singleton as a ih =>
    obtain ⟨hflight, hcapped⟩ := ih hforward.prefix fun b hb =>
      hrestart b (List.mem_append_left _ hb)
    rw [run_append_singleton, run_entries_append_singleton]
    exact ⟨flying_step hflight a, hcapped.step hflight hforward (hrestart a (by simp))⟩

/-! ## The caps -/

/-- What is accepted has passed. -/
theorem accepted_sublist (c : Option UInt32) (entries : List (BrokerAction × List BrokerOutput)) :
    (acceptedTimes c entries).Sublist (passedTimes c entries) := by
  have hpassed : ∀ o, isAccepted o = true → isPassed o = true := by
    intro o ho
    cases o with
    | submitted d result =>
      cases result with
      | ok id => rfl
      | error e => cases ho
    | _ => cases ho
  have hanswered : ∀ t x, answeredAt isAccepted c t = some x → answeredAt isPassed c t = some x := by
    rintro ⟨a, outs⟩ x hx
    cases a with
    | submit op params sourcePath callerUid ids now fault =>
      simp only [answeredAt, Bool.and_eq_true, decide_eq_true_eq, List.any_eq_true,
        Option.ite_none_right_eq_some] at hx ⊢
      obtain ⟨⟨hcaller, o, ho, haccepted⟩, hnow⟩ := hx
      exact ⟨⟨hcaller, o, ho, hpassed o haccepted⟩, hnow⟩
    | _ => cases hx
  unfold acceptedTimes passedTimes
  induction entries with
  | nil => exact List.Sublist.refl _
  | cons t entries ih =>
    rw [List.filterMap_cons, List.filterMap_cons]
    cases haccepted : answeredAt isAccepted c t with
    | some x =>
      rw [hanswered t x haccepted]
      exact ih.cons_cons x
    | none =>
      cases answeredAt isPassed c t with
      | some x => exact ih.cons x
      | none => exact ih

/-- A submit of this caller at this instant would be refused. -/
def Refused (s : Device) (c : Option UInt32) (now : Nat) : Prop :=
  ∃ e, (s.checkCallerCaps c now).1 = .error e

/-- What others do refuses a caller nothing. -/
theorem refused_of_others (hflight : s.Flying) {as : List BrokerAction}
    (hothers : ∀ a ∈ as, isSubmitOf c a = false) (hrestart : ∀ a ∈ as, isRestart a = false)
    {now : Nat} (h : (run (step f) s as).1.Refused c now) : s.Refused c now := by
  induction as generalizing s with
  | nil => exact h
  | cons a as ih =>
    have hnext := ih (flying_step hflight a) (fun b hb => hothers b (List.mem_cons_of_mem _ hb))
      (fun b hb => hrestart b (List.mem_cons_of_mem _ hb)) h
    unfold step at hnext
    split at hnext
    · exact hnext
    · have hother := hothers a List.mem_cons_self
      have hlive := hrestart a List.mem_cons_self
      have hout := outstanding_act (f := f) hflight hother hlive
      have hsubmits := submits_act (f := f) (s := s) hother hlive
      unfold Refused at hnext ⊢
      rw [refused_iff] at hnext ⊢
      unfold stampsOf at hnext ⊢
      rw [hsubmits] at hnext
      exact hnext.imp_left fun hfull => hfull.trans hout

variable (f) (pairing : Option (Option Nat))

/-- What the caps promise at the end of a run, whoever asked. -/
structure CapsHeld (as : List BrokerAction) : Prop where
  outstanding : ∀ c, (run (step f) (initial pairing) as).1.outstanding c ≤ maxPendingPerCaller
  rated : ∀ c, SlidingWindow.Rated submitWindowSecs maxSubmitsPerHour
    (acceptedTimes c (run (step f) (initial pairing) as).2)
  apart : ∀ c now bs, (∀ b ∈ bs, isSubmitOf c b = false) → (∀ b ∈ bs, isRestart b = false) →
    (run (step f) (initial pairing) (as ++ bs)).1.Refused c now →
      (run (step f) (initial pairing) as).1.Refused c now
  unchanged : ∀ op params sourcePath c ids now fault e,
    let out := (run (step f) (initial pairing) as).1.submit f op params sourcePath c ids now fault
    .submitted c (.error e) ∈ out.2 → (∀ x, e ≠ .sys x) →
      out.1 = (run (step f) (initial pairing) as).1

/-- Every window in the map is of a caller that asked within the last span. -/
def WindowsLive (as : List BrokerAction) : Prop :=
  ∀ c, (run (step f) (initial pairing) as).1.broker.submits c ≠ none →
    ∃ y ∈ as.filterMap (askedAt c), clockOf as - submitWindowSecs ≤ y

/-- Who has asked once has asked within the last span. -/
def KeepsAsking (as : List BrokerAction) : Prop :=
  ∀ c, as.filterMap (askedAt c) ≠ [] →
    ∃ y ∈ as.filterMap (askedAt c), clockOf as - submitWindowSecs ≤ y

variable {f} {pairing}

theorem run_append (s : Device) (as bs : List BrokerAction) :
    (run (step f) s (as ++ bs)).1 = (run (step f) (run (step f) s as).1 bs).1 := by
  rw [run_state, run_state, run_state, List.foldl_append]

/-- The caps hold, without a condition. -/
theorem capsHeld (hforward : Forward as) (hrestart : ∀ a ∈ as, isRestart a = false) :
    CapsHeld f pairing as := by
  have hcapped := fun c => (capped_run f pairing c as hforward hrestart).2
  refine ⟨fun c => (hcapped c).outstanding, ?_, ?_, ?_⟩
  · exact fun c => (hcapped c).rated.sublist (accepted_sublist c _)
  · intro c now bs hothers hlive h
    rw [run_append] at h
    exact refused_of_others (capped_run f pairing c as hforward hrestart).1 hothers hlive h
  · intro op params sourcePath c ids now fault e out hrefused hsys
    have hcases := submit_caps f (run (step f) (initial pairing) as).1 op params sourcePath c ids now
      fault
    change SubmitCaps _ _ _ _ _ out at hcases
    generalize out = out at hcases hrefused
    cases hcases with
    | invalid m => rfl
    | refused e' t hparams hcaps => exact (hcaps.unchanged (hcapped c).window.bounded).1
    | unsaved e' =>
      obtain ⟨-, rfl⟩ : c = c ∧ e = .sys e' := by simpa using hrefused
      exact absurd rfl (hsys e')
    | accepted r payload => simp at hrefused

/-- A caller has a window exactly when it has asked. -/
theorem windowsLive_iff (hforward : Forward as) (hrestart : ∀ a ∈ as, isRestart a = false) :
    WindowsLive f pairing as ↔ KeepsAsking as := by
  refine forall_congr' fun c => ?_
  have hcapped := (capped_run f pairing c as hforward hrestart).2
  rw [ne_eq, hcapped.entry, hcapped.asked]

/-- **The caps of callers.**  In every run without a restart whose clock does not go back, no
caller is over a cap, none spends another's, and a refusal changes nothing; and the map of windows
holds only those that asked within the last span exactly when all that ever asked did. -/
theorem callerCaps_iff (pairing : Option (Option Nat)) (as : List BrokerAction)
    (hforward : Forward as) (hrestart : ∀ a ∈ as, isRestart a = false) :
    (∀ bs, bs <+: as → CapsHeld f pairing bs ∧ WindowsLive f pairing bs) ↔
      ∀ bs, bs <+: as → KeepsAsking bs := by
  refine forall₂_congr fun bs hbs => ?_
  obtain ⟨cs, rfl⟩ := hbs
  have hbefore : ∀ b ∈ bs, isRestart b = false := fun b hb =>
    hrestart b (List.mem_append_left _ hb)
  rw [and_iff_right (capsHeld hforward.prefix hbefore)]
  exact windowsLive_iff hforward.prefix hbefore

/-- A caller asks for half an hour. -/
def askAt (c : Option UInt32) (id : Nat) (now : Nat) (fault : Option SysError) : BrokerAction :=
  .submit .timeExtend "\x7b\"minutes\":30\x7d" none c (⟨id⟩, ⟨id⟩) now fault

/-- Asking again within the hour, where the disk is full. -/
def askTwice : List BrokerAction :=
  [askAt (some 1001) 1 1000 none, askAt (some 1001) 2 2000 (some (.io "rename: no space")),
    .sweep 5600]

theorem keepsAsking_askTwice : ∀ bs, bs <+: askTwice → KeepsAsking bs := by
  intro bs hbs c
  by_cases hc : c = some 1001
  · rw [hc]
    have hasked : ∀ bs ∈ askTwice.inits, bs.filterMap (askedAt (some 1001)) ≠ [] →
        ∃ y ∈ bs.filterMap (askedAt (some 1001)), clockOf bs - submitWindowSecs ≤ y := by
      decide
    exact hasked bs ((List.mem_inits bs askTwice).mpr hbs)
  · have hnone : askTwice.filterMap (askedAt c) = [] := by
      simp [askTwice, askAt, askedAt, Ne.symm hc]
    intro hsome
    exact absurd (List.sublist_nil.mp (hnone ▸ hbs.sublist.filterMap _)) hsome

theorem callerCaps_asking_again :
    (run (step deskFacade) (initial none) askTwice).1.broker.submits (some 1001) =
        some [1000, 2000] ∧
      ∀ bs, bs <+: askTwice → CapsHeld deskFacade none bs ∧ WindowsLive deskFacade none bs := by
  refine ⟨by decide +kernel, ?_⟩
  exact (callerCaps_iff none askTwice (by decide) (by decide)).mpr keepsAsking_askTwice

/-- **A window outlives its span.**  One request, and an hour later its window is still there. -/
theorem callerCaps_lapsed :
    ¬∀ bs, bs <+: [askAt (some 1001) 1 1000 none, .sweep 4601] →
      CapsHeld deskFacade none bs ∧ WindowsLive deskFacade none bs := by
  intro h
  have hkept : (run (step deskFacade) (initial none)
      [askAt (some 1001) 1 1000 none, .sweep 4601]).1.broker.submits (some 1001) ≠ none := by
    decide +kernel
  obtain ⟨y, hy, hlate⟩ := (h _ (List.prefix_refl _)).2 _ hkept
  obtain rfl : y = 1000 := by simpa [askAt, askedAt, isObject] using hy
  exact absurd hlate (by decide)

end Device
end Kintrinsic
