import Kintrinsic.Broker

/-! # What can happen to a request

The broker's records as two lookups, in memory and on disk, with at most one request in flight to
an enactor, and the moves that change them.  Outside a flight memory and disk agree; in one,
memory still says pending while the disk says enacting.  What is withdrawn, denied or aged out is
never in flight again. -/
namespace Kintrinsic

/-- The part of a device that is about requests. -/
structure Requests where
  memory : ReqId → Option RequestRecord
  disk : ReqId → Option RequestRecord
  flight : Option InFlight
  drawn : List ReqId

namespace Requests

/-- A lookup with one record stored. -/
def store (m : ReqId → Option RequestRecord) (r : RequestRecord) : ReqId → Option RequestRecord :=
  fun id => if id = r.reqId then some r else m id

theorem store_self (m : ReqId → Option RequestRecord) (r : RequestRecord) :
    store m r r.reqId = some r := if_pos rfl

theorem store_of_ne {m : ReqId → Option RequestRecord} {r : RequestRecord} {id : ReqId}
    (h : id ≠ r.reqId) : store m r id = m id := if_neg h

/-- Whether a request is in flight. -/
def Flies (v : Requests) (id : ReqId) : Prop := ∃ j, v.flight = some j ∧ j.record.reqId = id

theorem not_flies_of_idle {v : Requests} (h : v.flight = none) (id : ReqId) : ¬v.Flies id := by
  rintro ⟨j, hj, -⟩
  rw [h] at hj
  cases hj

/-- What the verifier established of a grant that was handed to an enactor. -/
structure Launched (f : Facade) (j : InFlight) : Prop where
  state : j.record.state = .enacting
  genuine : ∃ payload, Genuine f.crypto f.grants j.event
    ⟨f.link.guardian, j.record.reqId, j.record.nonce, j.record.op, j.now⟩ payload ∧
      payload.decision = .allow

/-- One change of the records, and what an enactor thereby reported done. -/
inductive Move (f : Facade) (v : Requests) : Requests → Option InFlight → Prop
  /-- A new request, of an id never drawn before. -/
  | file (r : RequestRecord) (hfresh : r.reqId ∉ v.drawn) (hpending : r.state = .pending) :
      Move f v { v with
        memory := store v.memory r, disk := store v.disk r, drawn := r.reqId :: v.drawn } none
  /-- The sweep of what is past its time. -/
  | sweep (now : Nat) (hidle : v.flight = none) :
      Move f v { v with
        memory := fun id => (v.memory id).map (·.aged now)
        disk := fun id =>
          (((v.memory id).filter (·.isStale now)).map (·.after .expire)).or (v.disk id) } none
  /-- The cap on terminal records. -/
  | prune (memory disk : ReqId → Option RequestRecord)
      (h : ∀ id, memory id = v.memory id ∧ disk id = v.disk id ∨
        memory id = none ∧ disk id = none ∧
          ∀ r, v.memory id = some r → r.state.isTerminal = true) :
      Move f v { v with memory, disk } none
  /-- A denial. -/
  | deny (r : RequestRecord) (hidle : v.flight = none) (hget : v.memory r.reqId = some r)
      (hpending : r.state = .pending) :
      Move f v { v with
        memory := store v.memory { r with state := .denied }
        disk := store v.disk { r with state := .denied } } none
  /-- A withdrawal, of a request that is not in flight. -/
  | cancel (r : RequestRecord) (hapart : ¬v.Flies r.reqId) (hget : v.memory r.reqId = some r)
      (hpending : r.state = .pending) :
      Move f v { v with
        memory := store v.memory { r with state := .cancelled }
        disk := store v.disk { r with state := .cancelled } } none
  /-- A verified allow on its way to the enactor. -/
  | launch (r : RequestRecord) (j : InFlight) (hidle : v.flight = none)
      (hget : v.memory r.reqId = some r) (hpending : r.state = .pending)
      (hrecord : j.record = { r with state := .enacting }) (hlaunched : Launched f j) :
      Move f v { v with disk := store v.disk j.record, flight := some j } none
  /-- Another attempt. -/
  | retry (j : InFlight) (attempt : Nat) (hflight : v.flight = some j) :
      Move f v { v with flight := some { j with attempt } } none
  /-- The enactor reported success. -/
  | done (j : InFlight) (hflight : v.flight = some j)
      (hlive : v.memory j.record.reqId = some { j.record with state := .pending }) :
      Move f v { v with
        memory := store v.memory { j.record with state := .enacted }
        disk := store v.disk { j.record with state := .enacted }, flight := none } (some j)
  /-- The enactor gave up. -/
  | failed (j : InFlight) (hflight : v.flight = some j)
      (hlive : v.memory j.record.reqId = some { j.record with state := .pending }) :
      Move f v { v with
        memory := store v.memory { j.record with state := .failed }
        disk := store v.disk { j.record with state := .failed }, flight := none } none
  /-- A new process over the disk of the last. -/
  | boot :
      Move f v { v with
        memory := fun id => (v.disk id).map Device.interrupted
        disk := fun id => (v.disk id).map Device.interrupted, flight := none } none

/-! ## Memory and disk -/

/-- Outside a flight memory and disk agree; in one, memory is a step behind. -/
structure Agrees (f : Facade) (v : Requests) : Prop where
  settled : ∀ id, ¬v.Flies id → v.memory id = v.disk id
  live : ∀ j, v.flight = some j → Launched f j ∧ v.disk j.record.reqId = some j.record ∧
    v.memory j.record.reqId = some { j.record with state := .pending }
  drawn : ∀ id r, v.memory id = some r → id ∈ v.drawn

variable {f : Facade} {v v' : Requests} {e : Option InFlight}

/-- Storing one record in both keeps them agreeing, where no request flies afterwards but those
that did. -/
theorem Agrees.store_both (h : v.Agrees f) (r : RequestRecord) {id : ReqId} (hid : ¬v.Flies id) :
    store v.memory r id = store v.disk r id := by
  unfold store
  split
  · rfl
  · exact h.settled id hid

theorem Agrees.drawn_store (h : v.Agrees f) {r r' : RequestRecord}
    (hget : v.memory r.reqId = some r') (id : ReqId) (a : RequestRecord)
    (ha : store v.memory r id = some a) : id ∈ v.drawn := by
  by_cases hid : id = r.reqId
  · rw [hid]
    exact h.drawn _ _ hget
  · rw [store_of_ne hid] at ha
    exact h.drawn _ _ ha

/-- The end of a flight closes the gap. -/
theorem Agrees.landed (h : v.Agrees f) {j : InFlight} (hflight : v.flight = some j)
    (hlive : v.memory j.record.reqId = some { j.record with state := .pending })
    (state : RequestState) :
    Agrees f { v with
      memory := store v.memory { j.record with state }
      disk := store v.disk { j.record with state }, flight := none } := by
  refine ⟨?_, fun j hj => absurd hj (by simp), h.drawn_store (r := { j.record with state }) hlive⟩
  intro id _
  show store v.memory { j.record with state } id = store v.disk { j.record with state } id
  by_cases hid : id = j.record.reqId
  · rw [hid]
    exact (store_self v.memory { j.record with state }).trans
      (store_self v.disk { j.record with state }).symm
  · have hfly : ¬v.Flies id := by
      rintro ⟨j', hj', hj''⟩
      rw [hflight] at hj'
      cases hj'
      exact hid hj''.symm
    exact h.store_both _ hfly

/-- **Every move keeps memory and disk in agreement.** -/
theorem Agrees.move (h : v.Agrees f) (hm : Move f v v' e) : v'.Agrees f := by
  cases hm with
  | file r hfresh hpending =>
    refine ⟨fun id hid => h.store_both r hid, ?_, ?_⟩
    · intro j hj
      obtain ⟨hlaunched, hdisk, hmem⟩ := h.live j hj
      have hne : j.record.reqId ≠ r.reqId := by
        intro heq
        exact hfresh (heq ▸ h.drawn _ _ hmem)
      exact ⟨hlaunched, (store_of_ne hne).trans hdisk, (store_of_ne hne).trans hmem⟩
    · intro id a ha
      by_cases hid : id = r.reqId
      · exact hid ▸ List.mem_cons_self
      · exact List.mem_cons_of_mem _ (h.drawn _ _ ((store_of_ne hid).symm.trans ha))
  | sweep now hidle =>
    have hdrawn : ∀ id r, (v.memory id).map (·.aged now) = some r → id ∈ v.drawn := by
      intro id r hr
      obtain ⟨a, ha, -⟩ := Option.map_eq_some_iff.mp hr
      exact h.drawn _ _ ha
    refine ⟨?_, fun j hj => absurd (hidle.symm.trans hj) (by simp), hdrawn⟩
    intro id hid
    have hsame := h.settled id (not_flies_of_idle hidle id)
    dsimp only
    rw [← hsame]
    cases v.memory id with
    | none => rfl
    | some r =>
      by_cases hstale : r.isStale now = true
      · rw [Option.filter_some_pos hstale]
        simp [RequestRecord.aged, hstale]
      · rw [Option.filter_some_neg (Bool.eq_false_iff.mpr hstale)]
        simp [RequestRecord.aged, hstale]
  | prune memory disk hgone =>
    refine ⟨?_, ?_, ?_⟩
    · intro id hid
      show memory id = disk id
      rcases hgone id with ⟨hmem, hdisk⟩ | ⟨hmem, hdisk, -⟩
      · rw [hmem, hdisk]
        exact h.settled id hid
      · rw [hmem, hdisk]
    · intro j hj
      obtain ⟨hlaunched, hdisk, hmem⟩ := h.live j hj
      rcases hgone j.record.reqId with ⟨hm, hd⟩ | ⟨-, -, hterm⟩
      · exact ⟨hlaunched, hd.trans hdisk, hm.trans hmem⟩
      · exact absurd (hterm _ hmem) (by simp [RequestState.isTerminal])
    · intro id r hr
      change memory id = some r at hr
      rcases hgone id with ⟨hm, -⟩ | ⟨hm, -, -⟩
      · exact h.drawn _ _ (hm.symm.trans hr)
      · rw [hm] at hr
        cases hr
  | deny r hidle hget hpending =>
    refine ⟨fun id _ => h.store_both _ (not_flies_of_idle hidle id),
      fun j hj => absurd (hidle.symm.trans hj) (by simp), ?_⟩
    exact h.drawn_store (r := { r with state := .denied }) hget
  | cancel r hapart hget hpending =>
    refine ⟨fun id hid => h.store_both _ hid, ?_,
      h.drawn_store (r := { r with state := .cancelled }) hget⟩
    intro j hj
    obtain ⟨hlaunched, hdisk, hmem⟩ := h.live j hj
    have hne : j.record.reqId ≠ { r with state := .cancelled }.reqId :=
      fun heq => hapart ⟨j, hj, heq⟩
    exact ⟨hlaunched, (store_of_ne hne).trans hdisk, (store_of_ne hne).trans hmem⟩
  | launch r j hidle hget hpending hrecord hlaunched =>
    have hid : j.record.reqId = r.reqId := by rw [hrecord]
    refine ⟨?_, ?_, h.drawn⟩
    · intro id hfly
      have hne : id ≠ j.record.reqId := fun heq => hfly ⟨j, rfl, heq.symm⟩
      exact (h.settled id (not_flies_of_idle hidle id)).trans (store_of_ne hne).symm
    · intro j' hj'
      obtain rfl : j = j' := Option.some.inj hj'
      refine ⟨hlaunched, store_self .., ?_⟩
      rw [hid, hrecord, ← hpending]
      exact hget
  | retry j attempt hflight =>
    refine ⟨?_, ?_, h.drawn⟩
    · intro id hfly
      refine h.settled id ?_
      rintro ⟨j', hj', hid⟩
      rw [hflight] at hj'
      cases hj'
      exact hfly ⟨_, rfl, hid⟩
    · intro j' hj'
      obtain rfl := Option.some.inj hj'
      obtain ⟨hlaunched, hrest⟩ := h.live j hflight
      exact ⟨⟨hlaunched.state, hlaunched.genuine⟩, hrest⟩
  | done j hflight hlive =>
    exact h.landed hflight hlive .enacted
  | failed j hflight hlive =>
    exact h.landed hflight hlive .failed
  | boot =>
    refine ⟨fun id _ => rfl, fun j hj => absurd hj (by simp), ?_⟩
    intro id r hr
    obtain ⟨a, ha, -⟩ := Option.map_eq_some_iff.mp hr
    by_cases hid : v.Flies id
    · obtain ⟨j, hj, rfl⟩ := hid
      exact h.drawn _ _ (h.live j hj).2.2
    · exact h.drawn _ _ ((h.settled id hid).trans ha)

/-! ## What lapsed stays lapsed -/

/-- A request that was there and can no longer be launched. -/
structure Lapsed (v : Requests) (id : ReqId) : Prop where
  drawn : id ∈ v.drawn
  memory : ∀ r, v.memory id = some r → r.state ≠ .pending
  disk : ∀ r, v.disk id = some r → r.state ≠ .pending
  grounded : ¬v.Flies id

/-- What memory or disk shows in a last state has lapsed. -/
theorem Agrees.lapsed (h : v.Agrees f) {id : ReqId} {r : RequestRecord}
    (hr : v.memory id = some r ∨ v.disk id = some r) (hterminal : r.state.isTerminal = true) :
    v.Lapsed id := by
  have hnot : r.state ≠ .pending := by
    intro hpending
    rw [hpending] at hterminal
    cases hterminal
  by_cases hid : v.Flies id
  · obtain ⟨j, hj, rfl⟩ := hid
    obtain ⟨hlaunched, hdisk, hmem⟩ := h.live j hj
    rcases hr with hr | hr
    · rw [hmem] at hr
      cases hr
      cases hterminal
    · rw [hdisk] at hr
      cases hr
      rw [hlaunched.state] at hterminal
      cases hterminal
  · have hsame := h.settled id hid
    have hmem : v.memory id = some r := hr.elim (fun h => h) fun h => hsame.trans h
    refine ⟨h.drawn _ _ hmem, ?_, ?_, hid⟩
    · intro a ha
      rw [hmem] at ha
      cases ha
      exact hnot
    · intro a ha
      rw [← hsame, hmem] at ha
      cases ha
      exact hnot

theorem store_not_pending {m : ReqId → Option RequestRecord} {r : RequestRecord} {id : ReqId}
    (hm : ∀ a, m id = some a → a.state ≠ .pending) (hr : r.state ≠ .pending) :
    ∀ a, store m r id = some a → a.state ≠ .pending := by
  intro a ha
  by_cases hid : id = r.reqId
  · rw [hid, store_self] at ha
    cases ha
    exact hr
  · rw [store_of_ne hid] at ha
    exact hm a ha

/-- **No move launches, files or enacts what has lapsed.** -/
theorem Lapsed.move {id : ReqId} (h : v.Lapsed id) (hm : Move f v v' e) :
    v'.Lapsed id ∧ ∀ j, e = some j → j.record.reqId ≠ id := by
  cases hm with
  | file r hfresh hpending =>
    have hne : id ≠ r.reqId := by
      rintro rfl
      exact hfresh h.drawn
    refine ⟨⟨List.mem_cons_of_mem _ h.drawn, ?_, ?_, h.grounded⟩, by simp⟩
    · intro a ha
      exact h.memory a ((store_of_ne hne).symm.trans ha)
    · intro a ha
      exact h.disk a ((store_of_ne hne).symm.trans ha)
  | sweep now hidle =>
    refine ⟨⟨h.drawn, ?_, ?_, h.grounded⟩, by simp⟩
    · intro a ha
      obtain ⟨r, hr, rfl⟩ := Option.map_eq_some_iff.mp ha
      have hstale : r.isStale now = false := by simp [RequestRecord.isStale, h.memory r hr]
      simpa [RequestRecord.aged, hstale] using h.memory r hr
    · intro a ha
      have hnone : (v.memory id).filter (·.isStale now) = none := by
        rw [Option.filter_eq_none_iff]
        intro r hr
        simp [RequestRecord.isStale, h.memory r hr]
      change (((v.memory id).filter (·.isStale now)).map _).or _ = some a at ha
      rw [hnone] at ha
      exact h.disk a ha
  | prune memory disk hgone =>
    refine ⟨⟨h.drawn, ?_, ?_, h.grounded⟩, by simp⟩
    · intro a (ha : memory id = some a)
      rcases hgone id with ⟨hm, -⟩ | ⟨hm, -, -⟩
      · exact h.memory a (hm.symm.trans ha)
      · rw [hm] at ha
        cases ha
    · intro a (ha : disk id = some a)
      rcases hgone id with ⟨-, hd⟩ | ⟨-, hd, -⟩
      · exact h.disk a (hd.symm.trans ha)
      · rw [hd] at ha
        cases ha
  | deny r hidle hget hpending =>
    exact ⟨⟨h.drawn, store_not_pending h.memory (by simp), store_not_pending h.disk (by simp),
      h.grounded⟩, by simp⟩
  | cancel r hapart hget hpending =>
    exact ⟨⟨h.drawn, store_not_pending h.memory (by simp), store_not_pending h.disk (by simp),
      h.grounded⟩, by simp⟩
  | launch r j hidle hget hpending hrecord hlaunched =>
    have hid : j.record.reqId = r.reqId := by rw [hrecord]
    have hne : r.reqId ≠ id := by
      rintro rfl
      exact h.memory r hget hpending
    refine ⟨⟨h.drawn, h.memory, store_not_pending h.disk (by simp [hlaunched.state]), ?_⟩, by simp⟩
    rintro ⟨j', hj', rfl⟩
    cases hj'
    exact hne hid.symm
  | retry j attempt hflight =>
    refine ⟨⟨h.drawn, h.memory, h.disk, ?_⟩, by simp⟩
    rintro ⟨j', hj', rfl⟩
    cases hj'
    exact h.grounded ⟨j, hflight, rfl⟩
  | done j hflight hlive =>
    refine ⟨⟨h.drawn, store_not_pending h.memory (by simp), store_not_pending h.disk (by simp),
      not_flies_of_idle rfl id⟩, ?_⟩
    intro j' hj' hid
    cases hj'
    exact h.grounded ⟨j, hflight, hid⟩
  | failed j hflight hlive =>
    exact ⟨⟨h.drawn, store_not_pending h.memory (by simp), store_not_pending h.disk (by simp),
      not_flies_of_idle rfl id⟩, by simp⟩
  | boot =>
    have hboot : ∀ a, (v.disk id).map Device.interrupted = some a → a.state ≠ .pending := by
      intro a ha
      obtain ⟨r, hr, rfl⟩ := Option.map_eq_some_iff.mp ha
      unfold Device.interrupted
      split
      · simp
      · exact h.disk r hr
    exact ⟨⟨h.drawn, hboot, hboot, not_flies_of_idle rfl id⟩, by simp⟩

/-- What was enacted has lapsed. -/
theorem Agrees.lapsed_done (h : v.Agrees f) {j : InFlight} (hm : Move f v v' (some j)) :
    v'.Lapsed j.record.reqId := by
  have hv' := h.move hm
  cases hm with
  | done _ hflight hlive =>
    exact hv'.lapsed (Or.inl (store_self v.memory { j.record with state := .enacted })) rfl

/-! ## Paths -/

/-- Moves in a row, with all that was enacted along them. -/
inductive Path (f : Facade) : Requests → Requests → List InFlight → Prop
  | nil (v : Requests) : Path f v v []
  | cons {v v' v'' : Requests} {e : Option InFlight} {es : List InFlight} (hm : Move f v v' e)
      (hp : Path f v' v'' es) : Path f v v'' (e.toList ++ es)

variable {es es' : List InFlight} {v'' : Requests}

theorem Path.single (hm : Move f v v' e) : Path f v v' e.toList := by
  have h := Path.cons hm (.nil v')
  rwa [List.append_nil] at h

theorem Path.trans (h : Path f v v' es) (h' : Path f v' v'' es') : Path f v v'' (es ++ es') := by
  induction h with
  | nil v => exact h'
  | cons hm hp ih =>
    rw [List.append_assoc]
    exact .cons hm (ih h')

theorem Path.agrees (h : Path f v v' es) (hv : v.Agrees f) : v'.Agrees f := by
  induction h with
  | nil v => exact hv
  | cons hm hp ih => exact ih (hv.move hm)

theorem Path.lapsed (h : Path f v v' es) {id : ReqId} (hid : v.Lapsed id) :
    v'.Lapsed id ∧ ∀ j ∈ es, j.record.reqId ≠ id := by
  induction h with
  | nil v => exact ⟨hid, by simp⟩
  | cons hm hp ih =>
    obtain ⟨hnext, hnow⟩ := hid.move hm
    obtain ⟨hlast, hlater⟩ := ih hnext
    refine ⟨hlast, ?_⟩
    intro j hj
    rcases List.mem_append.mp hj with hj | hj
    · exact hnow j (Option.mem_toList.mp hj)
    · exact hlater j hj

/-- **Nothing is enacted twice.** -/
theorem Path.nodup (h : Path f v v' es) (hv : v.Agrees f) :
    (es.map fun j => j.record.reqId).Nodup := by
  induction h with
  | nil v => exact List.nodup_nil
  | @cons _ _ _ e _ hm hp ih =>
    have hrest := ih (hv.move hm)
    cases e with
    | none => exact hrest
    | some j =>
      refine List.nodup_cons.mpr ⟨?_, hrest⟩
      intro hmem
      obtain ⟨j', hj', hid⟩ := List.mem_map.mp hmem
      exact (hp.lapsed (hv.lapsed_done hm)).2 j' hj' hid

/-- What was enacted along a path has lapsed at its end. -/
theorem Path.lapsed_of_mem (h : Path f v v' es) (hv : v.Agrees f) {j : InFlight} (hj : j ∈ es) :
    v'.Lapsed j.record.reqId := by
  induction h with
  | nil v => cases hj
  | cons hm hp ih =>
    rcases List.mem_append.mp hj with hj | hj
    · obtain rfl := Option.mem_toList.mp hj
      exact (hp.lapsed (hv.lapsed_done hm)).1
    · exact ih (hv.move hm) hj

end Requests
end Kintrinsic
