import Kintrinsic.GuardedRun
import Kintrinsic.LocalDrain

/-! # What the inbox may forget

A wrap is forgotten once what it carried is in storage: the drain queues it with the ask or the
unlock it waits for.  One that the relays brought first is queued with nothing to wait for, so a run
keeps what it owes as long as no drain meets such a wrap before its content is written. -/
namespace Kintrinsic

/-- What a letter carries is in the state. -/
def Letter.Landed (s : CharterState) : Letter → Prop
  | .request _ reqId => s.hasRequest reqId = true
  | .override _ key => s.hasAudit key = true
  | .status | .unreadable => True

/-- A queued wrap waits for what a letter carries. -/
def Queued.WaitsFor (q : Queued) : Letter → Prop
  | .request _ reqId => q.reqId = some reqId
  | .override _ key => q.auditKey = some key
  | .status | .unreadable => True

theorem unwrap_eq {w : Wrap} {nowSecs : Int} {l : Letter} (h : unwrap w nowSecs = l) :
    l = .unreadable ∨ w.letter = l := by
  unfold unwrap at h
  split at h
  · exact .inl h.symm
  · exact .inr h

namespace Console

/-- A wrap is not forgotten too early: it was refused, or what it carries is written, or the queue
waits for that. -/
def Safe (c : Console) (id : EventId) (w : Wrap) : Prop :=
  id ∈ c.refused ∨ (c.persistedOk = true ∧ w.letter.Landed c.state) ∨
    ∃ q ∈ c.queue.entries, q.id = id ∧ q.WaitsFor w.letter

variable (wraps : EventId → Option Wrap)

/-- **What holds while a drain goes on.** -/
structure Draining (c : Console) : Prop where
  written : c.persistedOk = true → c.written = c.state
  asks : ∀ q ∈ c.queue.entries, ∀ reqId, q.reqId = some reqId →
    ∃ w m, wraps q.id = some w ∧ w.letter = .request m reqId
  unlocks : ∀ q ∈ c.queue.entries, ∀ key, q.auditKey = some key →
    ∃ w m, wraps q.id = some w ∧ w.letter = .override m key
  safe : ∀ q ∈ c.queue.entries, ∀ w, wraps q.id = some w → c.Safe q.id w
  forgotten : ∀ f ∈ c.forgotten, ∀ w, wraps f.1 = some w →
    f.1 ∈ c.refused ∨ w.letter.Landed f.2

/-- **What holds of the app at any time.** -/
structure Sound (c : Console) : Prop extends Draining wraps c where
  waits : ∀ q ∈ c.queue.entries, ∀ w, wraps q.id = some w →
    q.id ∈ c.refused ∨ q.WaitsFor w.letter

/-- The steps that keep it: a drain meets no wrap that was handled already and carries what is
neither written nor waited for. -/
def Met (c : Console) : Step → Prop
  | .drain ids _ => ∀ id ∈ ids, id ∈ c.handledWraps → ∀ w, wraps id = some w → c.Safe id w
  | _ => True

/-! ## One intake -/

/-- What an intake leaves alone. -/
structure Fed (c c' : Console) (id : EventId) : Prop where
  state : c'.state = c.state
  written : c'.written = c.written
  persistedOk : c'.persistedOk = c.persistedOk
  queue : c'.queue = c.queue
  forgotten : c'.forgotten = c.forgotten
  refused : ∀ x ∈ c.refused, x ∈ c'.refused
  handled : ∀ x ∈ c'.handledWraps, x ∈ c.handledWraps ∨ x = id

/-- What a result says of the wrap. -/
def Says (c c' : Console) (id : EventId) (w : Wrap) : WrapIngestResult → Prop
  | .handled => id ∈ c.handledWraps
  | .status => w.letter = .status
  | .unreadable => id ∈ c'.refused
  | .duplicate reqId | .request reqId => ∃ m, w.letter = .request m reqId
  | .audit key => ∃ m, w.letter = .override m key
  | .unlanded => id ∉ c'.handledWraps

theorem Fed.refl (c : Console) (id : EventId) : Fed c c id :=
  ⟨rfl, rfl, rfl, rfl, rfl, fun _ h => h, fun _ h => .inl h⟩

theorem mem_handle {c : Console} {id x : EventId} (h : x ∈ (c.handle id).handledWraps) :
    x ∈ c.handledWraps ∨ x = id := by
  rcases List.mem_append.mp h with h | h
  · exact .inl h
  · exact .inr (List.mem_singleton.mp h)

section
variable {c c' : Console} {id : EventId} {w : Wrap} {nowSecs : Int} {r : WrapIngestResult}

theorem fed_handle : Fed c (c.handle id) id :=
  ⟨rfl, rfl, rfl, rfl, rfl, fun _ h => h, fun _ h => mem_handle h⟩

/-- Taking in an ask only dispatches. -/
theorem ingestDeviceRequest_fst (m : PubKey) (reqId : ReqId) :
    ∃ ds, (c.ingestDeviceRequest m reqId).1 = { c with dispatched := ds } := by
  unfold ingestDeviceRequest
  split
  · exact ⟨_, rfl⟩
  · split <;> exact ⟨_, rfl⟩

theorem ingestDeviceAudit_fst (m : PubKey) (key : String) :
    ∃ ds, (c.ingestDeviceAudit m key).1 = { c with dispatched := ds } := by
  unfold ingestDeviceAudit
  split
  · exact ⟨_, rfl⟩
  · split <;> exact ⟨_, rfl⟩

theorem ingestOverride_spec {m : PubKey} {key : String} (hnew : id ∉ c.handledWraps)
    (hw : w.letter = .override m key) (h : c.ingestOverride id m key = (c', r)) :
    Fed c c' id ∧ Says c c' id w r := by
  unfold ingestOverride at h
  split at h
  · cases h
    exact ⟨fed_handle, m, hw⟩
  · obtain ⟨ds, hds⟩ := ingestDeviceAudit_fst (c := c) m key
    cases hrec : c.ingestDeviceAudit m key with
    | mk c'' recorded =>
      rw [hrec] at h hds
      cases recorded with
      | false =>
        cases h
        exact ⟨.refl c id, hnew⟩
      | true =>
        cases hds
        cases h
        exact ⟨⟨rfl, rfl, rfl, rfl, rfl, fun _ h => h, fun _ h => mem_handle (c := c) h⟩, m, hw⟩

/-- **What the intake does with a wrap.** -/
theorem ingestWrap_spec (h : c.ingestWrap id w nowSecs = (c', r)) :
    Fed c c' id ∧ Says c c' id w r := by
  unfold ingestWrap at h
  split at h
  · rename_i hmem
    cases h
    exact ⟨.refl c id, hmem⟩
  · rename_i hnew
    cases hletter : unwrap w nowSecs with
    | status =>
      rw [hletter] at h
      cases h
      exact ⟨fed_handle, (unwrap_eq hletter).resolve_left (by simp)⟩
    | override m key =>
      rw [hletter] at h
      exact ingestOverride_spec hnew ((unwrap_eq hletter).resolve_left (by simp)) h
    | unreadable =>
      rw [hletter] at h
      cases h
      exact ⟨⟨rfl, rfl, rfl, rfl, rfl, fun _ h => List.mem_cons_of_mem _ h,
        fun _ h => mem_handle (c := c) h⟩, List.mem_cons_self⟩
    | request m reqId =>
      have hw : w.letter = .request m reqId := (unwrap_eq hletter).resolve_left (by simp)
      rw [hletter] at h
      dsimp only at h
      split at h
      · cases h
        exact ⟨fed_handle, m, hw⟩
      · obtain ⟨ds, hds⟩ := ingestDeviceRequest_fst (c := c) m reqId
        cases hrec : c.ingestDeviceRequest m reqId with
        | mk c'' recorded =>
          rw [hrec] at h hds
          cases recorded with
          | false =>
            cases h
            exact ⟨.refl c id, hnew⟩
          | true =>
            cases hds
            cases h
            exact ⟨⟨rfl, rfl, rfl, rfl, rfl, fun _ h => h, fun _ h => mem_handle (c := c) h⟩, m, hw⟩

theorem Fed.safe (h : Fed c c' id) {x : EventId} (hx : c.Safe x w) : c'.Safe x w := by
  unfold Safe
  rw [h.persistedOk, h.state, h.queue]
  exact hx.imp_left (h.refused x)

end

/-! ## Queueing -/

/-- What `add` puts into the queue. -/
def merged (q : ConsumeQueue) (id : EventId) (reqId : Option ReqId) (auditKey : Option String) :
    Queued :=
  ⟨id, reqId.or ((q.get? id).bind (·.reqId)), auditKey.or ((q.get? id).bind (·.auditKey))⟩

section
variable {q : ConsumeQueue} {id : EventId} {reqId : Option ReqId} {auditKey : Option String}

theorem merged_mem_add : merged q id reqId auditKey ∈ (q.add id reqId auditKey).entries :=
  List.mem_cons_self

theorem mem_add_of_ne {p : Queued} (hp : p ∈ q.entries) (hne : p.id ≠ id) :
    p ∈ (q.add id reqId auditKey).entries :=
  List.mem_cons_of_mem _ (List.mem_filter.mpr ⟨hp, by simpa using hne⟩)

theorem mem_add {p : Queued} (hp : p ∈ (q.add id reqId auditKey).entries) :
    p = merged q id reqId auditKey ∨ p ∈ q.entries ∧ p.id ≠ id := by
  rcases List.mem_cons.mp hp with rfl | hp
  · exact .inl rfl
  · obtain ⟨hmem, hne⟩ := List.mem_filter.mp hp
    exact .inr ⟨hmem, by simpa using hne⟩

/-- What the queue had there already. -/
theorem merged_of_mem {p : Queued} (hp : p ∈ q.entries) (hid : p.id = id) :
    merged q id reqId auditKey = ⟨id, reqId.or p.reqId, auditKey.or p.auditKey⟩ := by
  unfold merged
  rw [Registry.get?_eq_some.mpr ⟨hp, hid⟩]
  rfl

theorem or_eq_some {α : Type} {a b : Option α} {x : α} (h : a.or b = some x) :
    a = some x ∨ b = some x := by
  cases a with
  | none => exact .inr h
  | some y => exact .inl h

theorem bind_get?_eq_some {α : Type} {f : Queued → Option α} {x : α}
    (h : (q.get? id).bind f = some x) : ∃ p ∈ q.entries, p.id = id ∧ f p = some x := by
  obtain ⟨p, hp, hf⟩ := Option.bind_eq_some_iff.mp h
  obtain ⟨hmem, hid⟩ := Registry.get?_eq_some.mp hp
  exact ⟨p, hmem, hid, hf⟩

end

section
variable {c : Console} {id : EventId} {reqId : Option ReqId} {auditKey : Option String}
variable (hasks : ∀ r, reqId = some r → ∃ w m, wraps id = some w ∧ w.letter = .request m r)
variable (hunlocks : ∀ k, auditKey = some k → ∃ w m, wraps id = some w ∧ w.letter = .override m k)
variable {wraps}
include hasks hunlocks

/-- A requirement is never weakened. -/
theorem merged_waitsFor {w : Wrap} (hw : wraps id = some w)
    (h : (⟨id, reqId, auditKey⟩ : Queued).WaitsFor w.letter ∨
      ∃ p ∈ c.queue.entries, p.id = id ∧ p.WaitsFor w.letter) :
    (merged c.queue id reqId auditKey).WaitsFor w.letter := by
  rcases h with h | ⟨p, hp, hid, hwaits⟩
  · unfold merged
    cases hl : w.letter with
    | request m r =>
      rw [hl] at h
      change reqId = some r at h
      subst h
      rfl
    | override m k =>
      rw [hl] at h
      change auditKey = some k at h
      subst h
      rfl
    | status => trivial
    | unreadable => trivial
  · rw [merged_of_mem hp hid]
    cases hl : w.letter with
    | request m r =>
      rw [hl] at hwaits
      change reqId.or p.reqId = some r
      cases hr : reqId with
      | none => exact hwaits
      | some r' =>
        obtain ⟨w', m', hw', hl'⟩ := hasks r' hr
        cases hw.symm.trans hw'
        cases hl.symm.trans hl'
        rfl
    | override m k =>
      rw [hl] at hwaits
      change auditKey.or p.auditKey = some k
      cases hk : auditKey with
      | none => exact hwaits
      | some k' =>
        obtain ⟨w', m', hw', hl'⟩ := hunlocks k' hk
        cases hw.symm.trans hw'
        cases hl.symm.trans hl'
        rfl
    | status => trivial
    | unreadable => trivial

theorem safe_add {x : EventId} {w : Wrap} (hw : wraps x = some w)
    (h : c.Safe x w ∨ x = id ∧ (⟨id, reqId, auditKey⟩ : Queued).WaitsFor w.letter) :
    Safe { c with queue := c.queue.add id reqId auditKey } x w := by
  rcases h with (hrefused | hlanded | ⟨p, hp, rfl, hwaits⟩) | ⟨rfl, hwaits⟩
  · exact .inl hrefused
  · exact .inr (.inl hlanded)
  · by_cases hid : p.id = id
    · subst hid
      exact .inr (.inr ⟨_, merged_mem_add, rfl,
        merged_waitsFor hasks hunlocks hw (.inr ⟨p, hp, rfl, hwaits⟩)⟩)
    · exact .inr (.inr ⟨p, mem_add_of_ne hp hid, rfl, hwaits⟩)
  · exact .inr (.inr ⟨_, merged_mem_add, rfl, merged_waitsFor hasks hunlocks hw (.inl hwaits)⟩)

/-- **Queueing a wrap.** -/
theorem Draining.queue_add (h : Draining wraps c)
    (hsafe : ∀ w, wraps id = some w →
      c.Safe id w ∨ (⟨id, reqId, auditKey⟩ : Queued).WaitsFor w.letter) :
    Draining wraps { c with queue := c.queue.add id reqId auditKey } where
  written := h.written
  asks := by
    intro p hp r hr
    rcases mem_add hp with rfl | ⟨hmem, -⟩
    · rcases or_eq_some hr with hr | hr
      · exact hasks r hr
      · obtain ⟨p, hmem, rfl, hf⟩ := bind_get?_eq_some hr
        exact h.asks p hmem r hf
    · exact h.asks p hmem r hr
  unlocks := by
    intro p hp k hk
    rcases mem_add hp with rfl | ⟨hmem, -⟩
    · rcases or_eq_some hk with hk | hk
      · exact hunlocks k hk
      · obtain ⟨p, hmem, rfl, hf⟩ := bind_get?_eq_some hk
        exact h.unlocks p hmem k hf
    · exact h.unlocks p hmem k hk
  safe := by
    intro p hp w hw
    rcases mem_add hp with rfl | ⟨hmem, -⟩
    · exact safe_add hasks hunlocks hw ((hsafe w hw).imp_right fun hwaits => ⟨rfl, hwaits⟩)
    · exact safe_add hasks hunlocks hw (.inl (h.safe p hmem w hw))
  forgotten := h.forgotten

end

/-! ## A drain -/

section
variable {wraps} {c c' : Console} {id : EventId} {w : Wrap} {nowSecs : Int} {r : WrapIngestResult}

theorem Fed.draining (h : Fed c c' id) (hc : Draining wraps c) : Draining wraps c' where
  written := by
    rw [h.persistedOk, h.written, h.state]
    exact hc.written
  asks := by
    rw [h.queue]
    exact hc.asks
  unlocks := by
    rw [h.queue]
    exact hc.unlocks
  safe := by
    rw [h.queue]
    exact fun q hq w hw => h.safe (hc.safe q hq w hw)
  forgotten := by
    rw [h.forgotten]
    exact fun f hf w hw => (hc.forgotten f hf w hw).imp_left (h.refused _)

/-- What a drain asks of the wraps it meets: those handled already are safe. -/
def Cleared (wraps : EventId → Option Wrap) (c : Console) (ids : List EventId) : Prop :=
  ∀ id ∈ ids, id ∈ c.handledWraps → ∀ w, wraps id = some w → c.Safe id w

/-- What a result makes the queue wait for. -/
def demand : WrapIngestResult → Option ReqId × Option String
  | .duplicate reqId | .request reqId => (some reqId, none)
  | .audit key => (none, some key)
  | .handled | .status | .unreadable | .unlanded => (none, none)

theorem enqueue_eq (hr : r ≠ .unlanded) :
    c.enqueue id r = { c with queue := c.queue.add id (demand r).1 (demand r).2 } := by
  cases r <;> first | rfl | exact absurd rfl hr

/-- **The wrap the intake saw is queued with what it waits for.** -/
theorem demand_spec (hw : wraps id = some w) (hresult : Says c c' id w r)
    (hhandled : r = .handled → c'.Safe id w) (hr : r ≠ .unlanded) :
    (∀ reqId, (demand r).1 = some reqId →
      ∃ w m, wraps id = some w ∧ w.letter = .request m reqId) ∧
    (∀ key, (demand r).2 = some key → ∃ w m, wraps id = some w ∧ w.letter = .override m key) ∧
    ∀ w', wraps id = some w' →
      c'.Safe id w' ∨ (⟨id, (demand r).1, (demand r).2⟩ : Queued).WaitsFor w'.letter := by
  have hsame : ∀ w', wraps id = some w' → w' = w := fun w' hw' => by
    rw [hw] at hw'
    exact (Option.some.inj hw').symm
  cases r with
  | unlanded => exact absurd rfl hr
  | handled =>
    exact ⟨fun _ h => (nomatch h), fun _ h => (nomatch h),
      fun w' hw' => .inl (hsame w' hw' ▸ hhandled rfl)⟩
  | status =>
    refine ⟨fun _ h => (nomatch h), fun _ h => (nomatch h), fun w' hw' => .inr ?_⟩
    have hl : w.letter = .status := hresult
    rw [hsame w' hw', hl]
    trivial
  | unreadable =>
    exact ⟨fun _ h => (nomatch h), fun _ h => (nomatch h), fun _ _ => .inl (.inl hresult)⟩
  | duplicate reqId | request reqId =>
    obtain ⟨m, hl⟩ := hresult
    refine ⟨fun r hr => ?_, fun _ h => (nomatch h), fun w' hw' => .inr ?_⟩
    · cases hr
      exact ⟨w, m, hw, hl⟩
    · rw [hsame w' hw', hl]
      rfl
  | audit key =>
    obtain ⟨m, hl⟩ := hresult
    refine ⟨fun _ h => (nomatch h), fun k hk => ?_, fun w' hw' => .inr ?_⟩
    · cases hk
      exact ⟨w, m, hw, hl⟩
    · rw [hsame w' hw', hl]
      rfl

/-- An entry that does not look like a wrap. -/
theorem drainOne_malformed (h : wraps id = none) :
    drainOne wraps nowSecs c id = { c with queue := c.queue.add id none none } := by
  unfold drainOne
  rw [h]

theorem drainOne_wrap (hw : wraps id = some w) (h : c.ingestWrap id w nowSecs = (c', r)) :
    drainOne wraps nowSecs c id = c'.enqueue id r := by
  unfold drainOne
  rw [hw]
  dsimp only
  rw [h]

/-- **One entry of the inbox.** -/
theorem drainOne_step {ids : List EventId} (hc : Draining wraps c) (hcleared : Cleared wraps c ids)
    (hid : id ∈ ids) :
    Draining wraps (drainOne wraps nowSecs c id) ∧
      Cleared wraps (drainOne wraps nowSecs c id) ids := by
  cases hw : wraps id with
  | none =>
    have hno : ∀ w', wraps id = some w' → False := fun w' hw' => by
      rw [hw] at hw'
      cases hw'
    rw [drainOne_malformed hw]
    have hasks : ∀ r, (none : Option ReqId) = some r →
        ∃ w m, wraps id = some w ∧ w.letter = .request m r := fun _ h => nomatch h
    have hunlocks : ∀ k, (none : Option String) = some k →
        ∃ w m, wraps id = some w ∧ w.letter = .override m k := fun _ h => nomatch h
    refine ⟨hc.queue_add hasks hunlocks fun w' hw' => (hno w' hw').elim,
      fun x hx hhandled w' hw' => ?_⟩
    exact safe_add hasks hunlocks hw' (.inl (hcleared x hx hhandled w' hw'))
  | some w =>
    cases hingest : c.ingestWrap id w nowSecs with
    | mk c' r =>
      obtain ⟨hfed, hresult⟩ := ingestWrap_spec hingest
      have hc' := hfed.draining hc
      have hold : ∀ x ∈ ids, x ∈ c.handledWraps → ∀ w', wraps x = some w' → c'.Safe x w' :=
        fun x hx hhandled w' hw' => hfed.safe (hcleared x hx hhandled w' hw')
      rw [drainOne_wrap hw hingest]
      by_cases hr : r = .unlanded
      · subst hr
        refine ⟨hc', fun x hx hhandled w' hw' => ?_⟩
        rcases hfed.handled x hhandled with hbefore | rfl
        · exact hold x hx hbefore w' hw'
        · exact absurd hhandled hresult
      · have hhandled : r = .handled → c'.Safe id w := by
          rintro rfl
          exact hold id hid hresult w hw
        obtain ⟨hasks, hunlocks, hsafe⟩ := demand_spec hw hresult hhandled hr
        rw [enqueue_eq hr]
        refine ⟨hc'.queue_add hasks hunlocks hsafe, fun x hx hmem w' hw' => ?_⟩
        refine safe_add hasks hunlocks hw' ?_
        rcases hfed.handled x hmem with hbefore | rfl
        · exact .inl (hold x hx hbefore w' hw')
        · exact (hsafe w' hw').imp_right fun hwaits => ⟨rfl, hwaits⟩

theorem drain_fold {ids all : List EventId} (hall : ∀ id ∈ ids, id ∈ all)
    (hc : Draining wraps c) (hcleared : Cleared wraps c all) :
    Draining wraps (ids.foldl (drainOne wraps nowSecs) c) := by
  induction ids generalizing c with
  | nil => exact hc
  | cons id ids ih =>
    have hstep : Draining wraps (drainOne wraps nowSecs c id) ∧
        Cleared wraps (drainOne wraps nowSecs c id) all :=
      drainOne_step hc hcleared (hall id List.mem_cons_self)
    obtain ⟨hnext, hcleared'⟩ := hstep
    exact ih (fun x hx => hall x (List.mem_cons_of_mem _ hx)) hnext hcleared'

/-! ## A flush -/

/-- A queued wrap waits for what it carries, unless that has landed. -/
theorem Draining.landed_or_waits (h : Draining wraps c) {q : Queued} (hq : q ∈ c.queue.entries)
    (hw : wraps q.id = some w) (hnot : q.id ∉ c.refused) :
    w.letter.Landed c.state ∨ q.WaitsFor w.letter := by
  rcases h.safe q hq w hw with hrefused | ⟨-, hlanded⟩ | ⟨p, hp, hid, hwaits⟩
  · exact absurd hrefused hnot
  · exact .inl hlanded
  · exact .inr (List.inj_on_of_nodup_map c.queue.nodup hp hq hid ▸ hwaits)

/-- What a ready wrap carries has landed. -/
theorem Draining.landed_of_ready (h : Draining wraps c) {q : Queued} (hq : q ∈ c.queue.entries)
    (hw : wraps q.id = some w) (hnot : q.id ∉ c.refused) (hready : q.ready c.state = true) :
    w.letter.Landed c.state := by
  rcases h.landed_or_waits hq hw hnot with hlanded | hwaits
  · exact hlanded
  · obtain ⟨hreqs, hkeys⟩ := Bool.and_eq_true_iff.mp hready
    cases hl : w.letter with
    | request m r =>
      rw [hl] at hwaits
      have hreq : q.reqId = some r := hwaits
      rw [hreq] at hreqs
      exact hreqs
    | override m k =>
      rw [hl] at hwaits
      have hkey : q.auditKey = some k := hwaits
      rw [hkey] at hkeys
      exact hkeys
    | status => trivial
    | unreadable => trivial

/-- A wrap that is not ready waits for what it carries: a requirement that is not met is of the
letter itself, which has not landed. -/
theorem Draining.waits_of_not_ready (h : Draining wraps c) {q : Queued} (hq : q ∈ c.queue.entries)
    (hw : wraps q.id = some w) (hnot : q.id ∉ c.refused) (hwait : q.ready c.state = false) :
    q.WaitsFor w.letter := by
  rcases h.landed_or_waits hq hw hnot with hlanded | hwaits
  · exfalso
    rcases Bool.and_eq_false_iff.mp hwait with hwait | hwait
    · cases hreq : q.reqId with
      | none =>
        rw [hreq] at hwait
        cases hwait
      | some r =>
        obtain ⟨w', m, hw', hl⟩ := h.asks q hq r hreq
        cases hw.symm.trans hw'
        rw [hl] at hlanded
        rw [hreq] at hwait
        exact Bool.false_ne_true (hwait.symm.trans hlanded)
    · cases hkey : q.auditKey with
      | none =>
        rw [hkey] at hwait
        cases hwait
      | some k =>
        obtain ⟨w', m, hw', hl⟩ := h.unlocks q hq k hkey
        cases hw.symm.trans hw'
        rw [hl] at hlanded
        rw [hkey] at hwait
        exact Bool.false_ne_true (hwait.symm.trans hlanded)
  · exact hwaits

/-- **What is forgotten was written**, and what stays in the queue waits. -/
theorem Draining.flush (h : Draining wraps c) : Sound wraps c.flush := by
  unfold Console.flush
  split
  · rename_i hfailed
    refine ⟨h, fun q hq w hw => ?_⟩
    rcases h.safe q hq w hw with hrefused | ⟨hok, -⟩ | ⟨p, hp, hid, hwaits⟩
    · exact .inl hrefused
    · rw [hok] at hfailed
      cases hfailed
    · exact .inr (List.inj_on_of_nodup_map c.queue.nodup hp hq hid ▸ hwaits)
  · rename_i hok
    have hwritten : c.written = c.state := h.written (by simpa using hok)
    have hkept : ∀ q ∈ (c.queue.filter fun q => !q.ready c.state).entries,
        q ∈ c.queue.entries ∧ q.ready c.state = false := fun q hq => by
      obtain ⟨hmem, hnot⟩ := List.mem_filter.mp hq
      exact ⟨hmem, by simpa using hnot⟩
    have hwaits : ∀ q ∈ (c.queue.filter fun q => !q.ready c.state).entries, ∀ w,
        wraps q.id = some w → q.id ∈ c.refused ∨ q.WaitsFor w.letter := by
      intro q hq w hw
      by_cases hrefused : q.id ∈ c.refused
      · exact .inl hrefused
      · exact .inr (h.waits_of_not_ready (hkept q hq).1 hw hrefused (hkept q hq).2)
    refine ⟨⟨fun _ => hwritten, fun q hq => h.asks q (hkept q hq).1,
      fun q hq => h.unlocks q (hkept q hq).1, fun q hq w hw => ?_, ?_⟩, hwaits⟩
    · exact (hwaits q hq w hw).imp_right fun hwait => .inr ⟨q, hq, rfl, hwait⟩
    · intro f hf w hw
      rcases List.mem_append.mp hf with hf | hf
      · exact h.forgotten f hf w hw
      · obtain ⟨q, hq, rfl⟩ := List.mem_map.mp hf
        obtain ⟨hmem, hready⟩ := List.mem_filter.mp hq
        by_cases hrefused : q.id ∈ c.refused
        · exact .inl hrefused
        · exact .inr (hwritten ▸ h.landed_of_ready hmem hw hrefused hready)

/-! ## Runs -/

theorem Fed.sound (h : Fed c c' id) (hc : Sound wraps c) : Sound wraps c' :=
  ⟨h.draining hc.toDraining, by
    rw [h.queue]
    exact fun q hq w hw => (hc.waits q hq w hw).imp_left (h.refused _)⟩

theorem Sound.pollOne (h : Sound wraps c) : Sound wraps (pollOne wraps nowSecs c id) := by
  unfold Console.pollOne
  cases wraps id with
  | none => exact h
  | some w => exact (ingestWrap_spec rfl).1.sound h

theorem fed_keepNewest (n : Nat) :
    Fed c { c with handledWraps := keepNewest n c.handledWraps } id :=
  ⟨rfl, rfl, rfl, rfl, rfl, fun _ h => h, fun _ h => .inl (List.mem_of_mem_drop h)⟩

theorem fed_trimHandled (c : Console) (id : EventId) : Fed c c.trimHandled id :=
  fed_keepNewest handledWrapsMax

theorem sound_start (s : CharterState) : Sound wraps (start s) :=
  ⟨⟨fun _ => rfl, fun _ h => (nomatch h), fun _ h => (nomatch h), fun _ h => (nomatch h),
    fun _ h => (nomatch h)⟩, fun _ h => (nomatch h)⟩

/-- **One step.** -/
theorem Sound.apply (h : Sound wraps c) {step : Step} (hmet : Met wraps c step) :
    Sound wraps (c.apply wraps step) := by
  cases step with
  | poll ids nowSecs =>
    exact (fed_trimHandled _ ⟨0⟩).sound
      (GuardedRun.foldl_invariant (fun _ _ hc => Sound.pollOne hc) ids h)
  | drain ids nowSecs =>
    exact ((fed_trimHandled _ ⟨0⟩).draining
      (drain_fold (fun _ hx => hx) h.toDraining hmet)).flush
  | act a => exact ⟨⟨h.written, h.asks, h.unlocks, h.safe, h.forgotten⟩, h.waits⟩
  | commit ok =>
    refine Draining.flush ⟨fun hok => if_pos hok, h.asks, h.unlocks, fun q hq w hw => ?_,
      h.forgotten⟩
    exact (h.waits q hq w hw).imp_right fun hwaits => .inr ⟨q, hq, rfl, hwaits⟩
  | restart =>
    exact ⟨⟨fun _ => rfl, fun _ h => (nomatch h), fun _ h => (nomatch h), fun _ h => (nomatch h),
      h.forgotten⟩, fun _ h => (nomatch h)⟩

/-- **Every run that meets no handled wrap too early.** -/
theorem sound_run {s : CharterState} {steps : List Step}
    (h : GuardedRun.Obeys (apply wraps) (Met wraps) (start s) steps) :
    Sound wraps (run wraps (start s) steps) :=
  h.invariant (fun _ _ hc hmet => hc.apply hmet) (sound_start s)

/-! ## What is refused -/

/-- The wrap does not open at that time, or does not look like one. -/
def RefusedAt (wraps : EventId → Option Wrap) (id : EventId) (nowSecs : Int) : Prop :=
  ∀ w, wraps id = some w → unwrap w nowSecs = .unreadable

/-- The queue waits for nothing before it lets a wrap go. -/
def Idle (c : Console) (id : EventId) : Prop :=
  ∀ q, c.queue.get? id = some q → q.reqId = none ∧ q.auditKey = none

/-- A wrap is in the queue, and nothing is waited for. -/
def Free (c : Console) (id : EventId) : Prop :=
  ∃ q, c.queue.get? id = some q ∧ q.reqId = none ∧ q.auditKey = none

def Forgotten (c : Console) (id : EventId) : Prop := ∃ st, (id, st) ∈ c.forgotten

theorem drainOne_of_ne {x : EventId} (h : x ≠ id) :
    (drainOne wraps nowSecs c x).queue.get? id = c.queue.get? id := by
  cases hw : wraps x with
  | none =>
    rw [drainOne_malformed hw]
    exact Registry.get?_put_of_ne (Ne.symm h)
  | some w =>
    cases hingest : c.ingestWrap x w nowSecs with
    | mk c' r =>
      obtain ⟨hfed, -⟩ := ingestWrap_spec hingest
      rw [drainOne_wrap hw hingest, ← hfed.queue]
      by_cases hr : r = .unlanded
      · subst hr
        rfl
      · rw [enqueue_eq hr]
        exact Registry.get?_put_of_ne (Ne.symm h)

/-- A refused wrap is queued with no requirement of its own. -/
theorem drainOne_refused (h : RefusedAt wraps id nowSecs) :
    (drainOne wraps nowSecs c id).queue = c.queue.add id none none := by
  cases hw : wraps id with
  | none => rw [drainOne_malformed hw]
  | some w =>
    have hletter := h w hw
    unfold drainOne
    rw [hw]
    dsimp only
    unfold ingestWrap
    split
    · rfl
    · rw [hletter]
      rfl

theorem Idle.drainOne {x : EventId} (h : c.Idle id) (hx : x = id → RefusedAt wraps id nowSecs) :
    (drainOne wraps nowSecs c x).Idle id := by
  by_cases hid : x = id
  · subst hid
    intro q hq
    rw [drainOne_refused (hx rfl)] at hq
    cases (Registry.get?_put_self _).symm.trans hq
    cases hcur : c.queue.get? x with
    | none => exact ⟨rfl, rfl⟩
    | some p => exact h p hcur
  · intro q hq
    rw [drainOne_of_ne hid] at hq
    exact h q hq

theorem Free.idle (h : c.Free id) : c.Idle id := by
  obtain ⟨q, hq, hfree⟩ := h
  intro q' hq'
  cases hq.symm.trans hq'
  exact hfree

theorem Free.drainOne {x : EventId} (h : c.Free id) (hx : x = id → RefusedAt wraps id nowSecs) :
    (drainOne wraps nowSecs c x).Free id := by
  by_cases hid : x = id
  · subst hid
    have hidle := h.idle.drainOne hx
    have hget : ∃ q, (Console.drainOne wraps nowSecs c x).queue.get? x = some q := by
      rw [drainOne_refused (hx rfl)]
      exact ⟨_, Registry.get?_put_self _⟩
    obtain ⟨q, hq⟩ := hget
    exact ⟨q, hq, hidle q hq⟩
  · unfold Free
    rw [drainOne_of_ne hid]
    exact h

theorem free_fold {ids : List EventId} (h : c.Free id)
    (hids : id ∈ ids → RefusedAt wraps id nowSecs) :
    (ids.foldl (drainOne wraps nowSecs) c).Free id := by
  induction ids generalizing c with
  | nil => exact h
  | cons x ids ih =>
    exact ih (h.drainOne fun hx => hids (hx ▸ List.mem_cons_self))
      fun hmem => hids (List.mem_cons_of_mem _ hmem)

/-- A drain that meets it queues it. -/
theorem free_of_mem {ids : List EventId} (h : c.Idle id) (hid : id ∈ ids)
    (hrefused : RefusedAt wraps id nowSecs) : (ids.foldl (drainOne wraps nowSecs) c).Free id := by
  induction ids generalizing c with
  | nil => cases hid
  | cons x ids ih =>
    by_cases hx : x = id
    · subst hx
      rw [List.foldl_cons]
      refine free_fold ?_ fun _ => hrefused
      have hidle := h.drainOne (x := x) fun _ => hrefused
      have hget : ∃ q, (drainOne wraps nowSecs c x).queue.get? x = some q := by
        rw [drainOne_refused hrefused]
        exact ⟨_, Registry.get?_put_self _⟩
      obtain ⟨q, hq⟩ := hget
      exact ⟨q, hq, hidle q hq⟩
    · exact ih (h.drainOne fun heq => absurd heq hx)
        ((List.mem_cons.mp hid).resolve_left (Ne.symm hx))

/-- A flush lets it go, when the last write succeeded. -/
theorem Free.flush (h : c.Free id) :
    c.flush.Forgotten id ∨ c.persistedOk = false ∧ c.flush.Free id := by
  unfold Console.flush
  split
  · rename_i hfailed
    exact .inr ⟨by simpa using hfailed, h⟩
  · obtain ⟨q, hq, hreq, hkey⟩ := h
    obtain ⟨hmem, rfl⟩ := Registry.get?_eq_some.mp hq
    have hready : q.ready c.state = true := by
      unfold Queued.ready
      rw [hreq, hkey]
      rfl
    exact .inl ⟨c.written, List.mem_append_right _
      (List.mem_map.mpr ⟨q, List.mem_filter.mpr ⟨hmem, hready⟩, rfl⟩)⟩

theorem Forgotten.flush (h : c.Forgotten id) : c.flush.Forgotten id := by
  obtain ⟨st, hst⟩ := h
  unfold Console.flush
  split
  · exact ⟨st, hst⟩
  · exact ⟨st, List.mem_append_left _ hst⟩

theorem drainOne_forgotten {x : EventId} :
    (drainOne wraps nowSecs c x).forgotten = c.forgotten := by
  cases hw : wraps x with
  | none => rw [drainOne_malformed hw]
  | some w =>
    cases hingest : c.ingestWrap x w nowSecs with
    | mk c' r =>
      obtain ⟨hfed, -⟩ := ingestWrap_spec hingest
      rw [drainOne_wrap hw hingest, ← hfed.forgotten]
      cases r <;> rfl

theorem pollOne_keeps {x : EventId} : (pollOne wraps nowSecs c x).forgotten = c.forgotten ∧
    (pollOne wraps nowSecs c x).queue = c.queue := by
  unfold pollOne
  cases wraps x with
  | none => exact ⟨rfl, rfl⟩
  | some w =>
    obtain ⟨hfed, -⟩ := ingestWrap_spec (show c.ingestWrap x w nowSecs = (_, _) from rfl)
    exact ⟨hfed.forgotten, hfed.queue⟩

/-- A step that does not close the app, and at which the wrap is still refused if it is met. -/
def Looks (wraps : EventId → Option Wrap) (id : EventId) : Step → Prop
  | .drain ids nowSecs => id ∈ ids → RefusedAt wraps id nowSecs
  | .restart => False
  | .poll _ _ | .act _ | .commit _ => True

/-- What is before a flush, by the fields that a flush reads of one wrap. -/
theorem flush_keeps (h : c.Free id ∨ c.Forgotten id) : c.flush.Free id ∨ c.flush.Forgotten id := by
  rcases h with hfree | hgone
  · exact hfree.flush.symm.imp And.right fun hgone => hgone
  · exact .inr hgone.flush

theorem poll_keeps (ids : List EventId) :
    (ids.foldl (pollOne wraps nowSecs) c).forgotten = c.forgotten ∧
      (ids.foldl (pollOne wraps nowSecs) c).queue = c.queue :=
  GuardedRun.foldl_invariant
    (I := fun c' : Console => c'.forgotten = c.forgotten ∧ c'.queue = c.queue)
    (fun _ _ h => ⟨pollOne_keeps.1.trans h.1, pollOne_keeps.2.trans h.2⟩) ids ⟨rfl, rfl⟩

theorem drain_forgotten (ids : List EventId) :
    (ids.foldl (drainOne wraps nowSecs) c).forgotten = c.forgotten :=
  GuardedRun.foldl_invariant (I := fun c' : Console => c'.forgotten = c.forgotten)
    (fun _ _ h => drainOne_forgotten.trans h) ids rfl

/-- **A refused wrap stays in the queue until it is let go.** -/
theorem refused_step {step : Step} (h : c.Free id ∨ c.Forgotten id) (hlook : Looks wraps id step) :
    (c.apply wraps step).Free id ∨ (c.apply wraps step).Forgotten id := by
  cases step with
  | poll ids nowSecs =>
    have hkeeps : (ids.foldl (pollOne wraps nowSecs) c).forgotten = c.forgotten ∧
        (ids.foldl (pollOne wraps nowSecs) c).queue = c.queue := poll_keeps ids
    have htrim := fed_trimHandled (ids.foldl (pollOne wraps nowSecs) c) id
    dsimp only [apply]
    unfold Free Forgotten
    rw [htrim.queue, htrim.forgotten, hkeeps.1, hkeeps.2]
    exact h
  | drain ids nowSecs =>
    have htrim := fed_trimHandled (ids.foldl (drainOne wraps nowSecs) c) id
    refine flush_keeps ?_
    rcases h with hfree | hgone
    · left
      unfold Free
      rw [htrim.queue]
      exact free_fold hfree hlook
    · right
      unfold Forgotten
      rw [htrim.forgotten, drain_forgotten]
      exact hgone
  | act a => exact h
  | commit ok => exact flush_keeps h
  | restart => exact hlook.elim

theorem refused_run {steps : List Step} (h : c.Free id ∨ c.Forgotten id)
    (hlook : ∀ step ∈ steps, Looks wraps id step) :
    (run wraps c steps).Free id ∨ (run wraps c steps).Forgotten id := by
  induction steps generalizing c with
  | nil => exact h
  | cons step steps ih =>
    exact ih (refused_step h (hlook step List.mem_cons_self))
      fun s hs => hlook s (List.mem_cons_of_mem _ hs)

/-- A write that succeeds lets it go. -/
theorem forgotten_commit (h : c.Free id ∨ c.Forgotten id) :
    (c.apply wraps (.commit true)).Forgotten id := by
  rcases h with hfree | hgone
  · have hflush : ∀ c' : Console, c'.Free id → c'.persistedOk = true → c'.flush.Forgotten id := by
      intro c' hfree hok
      rcases hfree.flush with hgone | ⟨hfailed, -⟩
      · exact hgone
      · rw [hok] at hfailed
        cases hfailed
    exact hflush _ hfree rfl
  · exact Forgotten.flush hgone

end

/-! ## The law -/

/-- No ask is lost on the local leg. -/
structure NoAskLost (wraps : EventId → Option Wrap) (c : Console) : Prop where
  /-- What a wrap carried was in storage when the inbox was told to forget it, unless it was not
  readable when it was opened. -/
  written : ∀ f ∈ c.forgotten, ∀ w, wraps f.1 = some w → f.1 ∈ c.refused ∨ w.letter.Landed f.2
  /-- A wrap that a drain refuses is let go by the next write that succeeds. -/
  refused : ∀ ids nowSecs id steps, id ∈ ids → c.Idle id → RefusedAt wraps id nowSecs →
    (∀ step ∈ steps, Looks wraps id step) →
      (run wraps c (.drain ids nowSecs :: steps ++ [.commit true])).Forgotten id

/-- **No ask is lost**, in every run whose drains meet no wrap that the relays brought first before
what it carried is written. -/
theorem no_ask_lost {s : CharterState} {steps : List Step}
    (h : GuardedRun.Obeys (apply wraps) (Met wraps) (start s) steps) :
    NoAskLost wraps (run wraps (start s) steps) where
  written := (sound_run h).forgotten
  refused := by
    intro ids nowSecs id later hid hidle hrefused hlook
    unfold run
    rw [List.cons_append, List.foldl_cons, List.foldl_append, List.foldl_cons, List.foldl_nil]
    refine forgotten_commit (refused_run ?_ hlook)
    refine flush_keeps (.inl ?_)
    unfold Free
    rw [(fed_trimHandled _ id).queue]
    exact free_of_mem hidle hid hrefused

/-- A ward's phone, and a household that has paired it. -/
def phone : PubKey := ⟨9⟩

def household : CharterState := ⟨[⟨"robin", [⟨some phone, true⟩]⟩], [], []⟩

/-- One wrap, with an ask of that phone. -/
def oneAsk (id : EventId) : Option Wrap :=
  if id = ⟨1⟩ then some ⟨0, .request phone ⟨7⟩⟩ else none

theorem no_ask_lost_written :
    NoAskLost oneAsk
        (run oneAsk (start household) [.poll [⟨1⟩] 0, .commit true, .drain [⟨1⟩] 0]) ∧
      Forgotten (run oneAsk (start household) [.poll [⟨1⟩] 0, .commit true, .drain [⟨1⟩] 0])
        ⟨1⟩ := by
  have hmet : GuardedRun.Obeys (apply oneAsk) (Met oneAsk) (start household)
      [.poll [⟨1⟩] 0, .commit true, .drain [⟨1⟩] 0] := by
    refine ⟨trivial, trivial, ?_, trivial⟩
    intro id hid _ w hw
    cases List.mem_singleton.mp hid
    cases hw
    exact .inr (.inl ⟨by decide +kernel, show CharterState.hasRequest _ _ = true by decide +kernel⟩)
  exact ⟨no_ask_lost oneAsk hmet, ⟨[⟨"robin", [⟨some phone, true⟩]⟩], [⟨⟨7⟩, "robin"⟩], []⟩,
    by decide +kernel⟩

/-- **An ask is lost.**  A relay brings it, and before the state that holds it is rendered a drain
meets the same wrap: it is handled already, so it is queued with nothing to wait for and let go. -/
theorem ask_lost :
    ∃ f ∈ (run oneAsk (start household) [.poll [⟨1⟩] 0, .drain [⟨1⟩] 0]).forgotten,
      oneAsk f.1 = some ⟨0, .request phone ⟨7⟩⟩ ∧
      f.1 ∉ (run oneAsk (start household) [.poll [⟨1⟩] 0, .drain [⟨1⟩] 0]).refused ∧
      ¬ Letter.Landed f.2 (.request phone ⟨7⟩) :=
  ⟨(⟨1⟩, household), by decide +kernel, by decide +kernel, by decide +kernel,
    show ¬ CharterState.hasRequest _ _ = true by decide +kernel⟩

end Console
end Kintrinsic
