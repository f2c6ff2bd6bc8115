import Kintrinsic.ClauseIntake
import Kintrinsic.EffectRun

/-! # The replay floor over crashes

Puts, reads and broker deliveries on the two clause stores, where any write may be the last one
before a crash and a record may be torn in between.  A sidecar that was raised bounds all that
was accepted, but `floor_of` looks at it only beside a record: what a crash in a slot's very
first put leaves is no floor. -/
namespace Kintrinsic

open EffectRun GuardedRun

/-! ## The floor that is read -/

namespace SlotFiles
variable {f : SlotFiles} {n : Nat}

/-- Reading the floor again, whatever the backfills meet, gives the same floor. -/
theorem floorOf_floorOf (f : SlotFiles) (io io' : Option SysError) :
    ((f.floorOf io).2.floorOf io').1 = (f.floorOf io').1 := by
  rcases f.floorOf_files io with hsame | ⟨r, hr, hlow, -, hfiles⟩
  · rw [hsame]
  · rw [hfiles]
    unfold floorOf
    rw [hr]
    dsimp only
    rw [if_neg (lt_irrefl _), if_pos rfl]
    cases hf : f.floor with
    | error e => rfl
    | ok m =>
      cases m with
      | none => rfl
      | some n =>
        have hn := hlow n hf
        dsimp only
        rw [if_neg (by omega), if_neg (by omega)]

/-- Only a slot without a record reads as one without a floor. -/
theorem record_of_floorOf_none {io : Option SysError} (h : (f.floorOf io).1 = .ok none) :
    f.record = .ok none := by
  unfold floorOf at h
  split at h
  · split at h
    · split at h
      · cases h
      split at h <;> cases h
    · cases h
  · assumption
  · split at h <;> cases h

/-- What the backfill meets does not show in the floor. -/
theorem floorOf_io (f : SlotFiles) (io io' : Option SysError) :
    (f.floorOf io).1 = (f.floorOf io').1 := by
  unfold floorOf
  split
  · split
    · split
      · rfl
      split <;> rfl
    · rfl
  · rfl
  · split <;> rfl

/-! ## A put -/

/-- Whether a put gets as far as the sidecar, and then whether the record follows. -/
def accepts (f : SlotFiles) (io : SlotIo) (n : Nat) : Option Bool :=
  match (f.floorOf io.backfill).1 with
  | .error _ => none
  | .ok floor =>
    if floor.any fun fl => !fl.admits n then none
    else
      match io.floor with
      | some _ => none
      | none => some io.record.isNone

/-- It stops there when the sidecar is written and the record is not. -/
theorem of_accepts_false {io : SlotIo} (h : f.accepts io n = some false) :
    io.floor = none ∧ io.record ≠ none := by
  unfold accepts at h
  split at h
  · cases h
  split at h
  · cases h
  split at h
  · cases h
  · rename_i hio
    refine ⟨hio, ?_⟩
    intro hdone
    rw [hdone] at h
    cases h

/-- What a put does: leave the slot as reading its floor does, stop between the two files, or
write both. -/
inductive PutCase (f : SlotFiles) (io : SlotIo) (n : Nat) (json : String) : Prop
  | unread (e : SysError) (hfloor : (f.floorOf io.backfill).1 = .error e)
      (haccepts : f.accepts io n = none)
      (hput : f.put io n json = (.error e, (f.floorOf io.backfill).2))
  | refused (fl : ReplayFloor) (hfloor : (f.floorOf io.backfill).1 = .ok (some fl))
      (hold : fl.admits n = false) (haccepts : f.accepts io n = none)
      (hput : f.put io n json = (.ok false, (f.floorOf io.backfill).2))
  | unwritten (e : SysError) (floor : Option ReplayFloor)
      (hfloor : (f.floorOf io.backfill).1 = .ok floor)
      (hnew : ∀ fl, floor = some fl → fl.admits n = true) (haccepts : f.accepts io n = none)
      (hput : f.put io n json = (.error e, (f.floorOf io.backfill).2))
  | raised (e : SysError) (floor : Option ReplayFloor)
      (hfloor : (f.floorOf io.backfill).1 = .ok floor)
      (hnew : ∀ fl, floor = some fl → fl.admits n = true) (hio : io.floor = none)
      (hcut : io.record = some e) (haccepts : f.accepts io n = some false)
      (hput : f.put io n json =
        (.error e, ⟨(f.floorOf io.backfill).2.record, .ok (some n)⟩))
  | stored (floor : Option ReplayFloor) (hfloor : (f.floorOf io.backfill).1 = .ok floor)
      (hnew : ∀ fl, floor = some fl → fl.admits n = true) (haccepts : f.accepts io n = some true)
      (hput : f.put io n json = (.ok true, ⟨.ok (some ⟨n, json⟩), .ok (some n)⟩))

theorem put_cases (f : SlotFiles) (io : SlotIo) (n : Nat) (json : String) :
    PutCase f io n json := by
  cases hread : f.floorOf io.backfill with
  | mk floor f₁ =>
    cases floor with
    | error e =>
      have hput : f.put io n json = (.error e, f₁) := by
        unfold put
        rw [hread]
      have hacc : f.accepts io n = none := by
        unfold accepts
        rw [hread]
      exact .unread e (by rw [hread]) hacc (by rw [hput, hread])
    | ok floor =>
      have hput : f.put io n json = f₁.putRec io floor n json := by
        unfold put
        rw [hread]
      have hacc : f.accepts io n = if floor.any fun fl => !fl.admits n then none else
          match io.floor with
          | some _ => none
          | none => some io.record.isNone := by
        unfold accepts
        rw [hread]
      unfold putRec at hput
      split at hput
      · rename_i hany
        rw [if_pos hany] at hacc
        cases floor with
        | none => cases hany
        | some fl => exact .refused fl (by rw [hread]) (by simpa using hany) hacc (by rw [hput, hread])
      · rename_i hany
        rw [if_neg hany] at hacc
        have hnew : ∀ fl, floor = some fl → fl.admits n = true := by
          rintro fl rfl
          simpa using hany
        split at hput
        · rename_i e hio
          rw [hio] at hacc
          exact .unwritten e floor (by rw [hread]) hnew hacc (by rw [hput, hread])
        · rename_i hio
          rw [hio] at hacc
          split at hput
          · rename_i e hcut
            rw [hcut] at hacc
            exact .raised e floor (by rw [hread]) hnew hio hcut hacc (by rw [hput, hread])
          · rename_i hdone
            rw [hdone] at hacc
            exact .stored floor (by rw [hread]) hnew hacc hput

/-- Where there is no floor to read, nothing is put. -/
theorem put_of_floor_error {io : SlotIo} {json : String} {e : SysError}
    (h : (f.floorOf io.backfill).1 = .error e) : (f.put io n json).1 = .error e := by
  unfold put
  split
  · rename_i e' f' hread
    rw [hread] at h
    cases h
    rfl
  · rename_i floor f' hread
    rw [hread] at h
    cases h

/-- A put is refused by its floor and by nothing else. -/
theorem put_refused_iff {io : SlotIo} {json : String} {floor : Option ReplayFloor}
    (h : (f.floorOf io.backfill).1 = .ok floor) :
    (f.put io n json).1 = .ok false ↔ ∃ fl, floor = some fl ∧ fl.admits n = false := by
  have hnot : (∀ fl, floor = some fl → fl.admits n = true) →
      ¬∃ fl, floor = some fl ∧ fl.admits n = false := by
    rintro hnew ⟨fl, hfl, hold⟩
    rw [hnew fl hfl] at hold
    cases hold
  cases f.put_cases io n json with
  | unread e hfloor haccepts hput =>
    rw [h] at hfloor
    cases hfloor
  | refused fl hfloor hold haccepts hput =>
    rw [h] at hfloor
    cases hfloor
    exact iff_of_true (by rw [hput]) ⟨fl, rfl, hold⟩
  | unwritten e floor' hfloor hnew haccepts hput =>
    rw [h] at hfloor
    cases hfloor
    exact iff_of_false (by simp [hput]) (hnot hnew)
  | raised e floor' hfloor hnew hio hcut haccepts hput =>
    rw [h] at hfloor
    cases hfloor
    exact iff_of_false (by simp [hput]) (hnot hnew)
  | stored floor' hfloor hnew haccepts hput =>
    rw [h] at hfloor
    cases hfloor
    exact iff_of_false (by simp [hput]) (hnot hnew)

/-- An admitted instant is strictly above a record that reads. -/
theorem lt_of_admits {io : Option SysError} {floor : Option ReplayFloor} {r : ClauseRec}
    (hfloor : (f.floorOf io).1 = .ok floor) (hnew : ∀ fl, floor = some fl → fl.admits n = true)
    (hr : f.record = .ok (some r)) : r.issuedAt < n := by
  cases floor with
  | none =>
    rw [record_of_floorOf_none hfloor] at hr
    cases hr
  | some fl =>
    have hadmits := hnew fl rfl
    obtain ⟨hrecord, -, -⟩ := floorOf_bounds hfloor
    obtain ⟨hle, heq⟩ := hrecord r hr
    have hge := ReplayFloor.le_of_admits hadmits
    rcases Nat.lt_or_ge r.issuedAt fl.issuedAt with hlt | hge'
    · omega
    · rw [heq (le_antisymm hge' hle)] at hadmits
      exact (ReplayFloor.admits_record _ _).mp hadmits

end SlotFiles

/-! ## What a slot has accepted -/

/-- A clause that passed a slot's floor: the sidecar was raised to it, and `landed` says whether
the record was written too.  `held` is what the record file held. -/
structure AcceptedClause where
  slot : ClauseSlot
  key : Nat
  issuedAt : Nat
  landed : Bool
  held : Except SysError (Option ClauseRec)
deriving DecidableEq

/-- What is left of a slot bounds what it accepted: the sidecar all of it, a record that reads
what landed. -/
structure SlotFiles.Covers (f : SlotFiles) (accepted : List AcceptedClause) : Prop where
  floor : accepted = [] ∨
    f.record ≠ .ok none ∧ ∃ m, f.floor = .ok (some m) ∧ ∀ st ∈ accepted, st.issuedAt ≤ m
  record : ∀ r, f.record = .ok (some r) → ∀ st ∈ accepted, st.landed → st.issuedAt ≤ r.issuedAt

namespace SlotFiles.Covers
variable {f : SlotFiles} {accepted : List AcceptedClause} {n : Nat}

theorem nil (f : SlotFiles) : f.Covers [] := ⟨Or.inl rfl, by simp⟩

/-- A read keeps the bounds: it writes the sidecar only to raise it. -/
theorem floorOf (h : f.Covers accepted) (io : Option SysError) :
    (f.floorOf io).2.Covers accepted := by
  rcases f.floorOf_files io with hsame | ⟨r, hr, hlow, -, hfiles⟩
  · rw [hsame]
    exact h
  · rw [hfiles]
    refine ⟨?_, h.record⟩
    rcases h.floor with hnil | ⟨hsome, m, hm, hle⟩
    · exact Or.inl hnil
    · refine Or.inr ⟨hsome, r.issuedAt, rfl, ?_⟩
      intro st hst
      exact (hle st hst).trans (hlow m hm).le

/-- A torn record leaves the sidecar. -/
theorem tear (h : f.Covers accepted) (e : SysError) :
    Covers { f with record := .error e } accepted := by
  refine ⟨?_, by simp⟩
  rcases h.floor with hnil | ⟨-, hbound⟩
  · exact Or.inl hnil
  · exact Or.inr ⟨by simp, hbound⟩

/-- **An admitted instant is at or above all that was accepted.** -/
theorem le_of_admits (h : f.Covers accepted) {io : Option SysError} {floor : Option ReplayFloor}
    (hfloor : (f.floorOf io).1 = .ok floor) (hnew : ∀ fl, floor = some fl → fl.admits n = true) :
    ∀ st ∈ accepted, st.issuedAt ≤ n := by
  intro st hst
  rcases h.floor with rfl | ⟨hsome, m, hm, hle⟩
  · cases hst
  cases floor with
  | none => exact absurd (record_of_floorOf_none hfloor) hsome
  | some fl =>
    obtain ⟨-, hsidecar, -⟩ := floorOf_bounds hfloor
    calc st.issuedAt ≤ m := hle st hst
      _ ≤ fl.issuedAt := hsidecar m hm
      _ ≤ n := ReplayFloor.le_of_admits (hnew fl rfl)

end SlotFiles.Covers

/-! ## Actions -/

/-- What can happen to the stores.  An entry point is atomic up to the write that fails: a crash
fails it and all that would follow. -/
inductive ClauseAction
  | put (slot : ClauseSlot) (key issuedAt : Nat) (json : String) (io : SlotIo)
  | read (slot : ClauseSlot) (key : Nat) (io : Option SysError)
  | deliver (event : NostrEvent) (io : IntakeIo)
  | tear (slot : ClauseSlot) (key : Nat) (e : SysError)

/-- A record file that is there reads as garbage from now on. -/
def SlotFiles.tear (f : SlotFiles) (e : SysError) : SlotFiles :=
  match f.record with
  | .ok none => f
  | _ => { f with record := .error e }

namespace ClauseFiles

/-- What a put to a slot accepts. -/
def putAccepted (files : ClauseFiles) (io : SlotIo) (slot : ClauseSlot) (key issuedAt : Nat) :
    List AcceptedClause :=
  ((files slot key).accepts io issuedAt).toList.map fun landed =>
    ⟨slot, key, issuedAt, landed, (files slot key).record⟩

variable (crypto : Crypto) (codec : StandingCodec) (link : Link)

/-- What a delivery accepts: what its put does, where it comes to one. -/
def deliverAccepted (files : ClauseFiles) (io : IntakeIo) (event : NostrEvent) :
    List AcceptedClause :=
  match ClausePayload.fromJson codec event.content with
  | .error _ => []
  | .ok payload =>
    match files.replayFloor io.read (payload.slot link) payload.kind.storeKey with
    | (.error _, _) => []
    | (.ok floor, files) =>
      match verifyClause crypto codec event link.guardian payload.kind
        (floor.bind ReplayFloor.verifyBound) with
      | .ok vc => files.putAccepted io.put (payload.slot link) payload.kind.storeKey vc.issuedAt
      | .error _ => []

def step (files : ClauseFiles) : ClauseAction → ClauseFiles × List AcceptedClause
  | .put slot key issuedAt json io =>
    ((files.put io slot key issuedAt json).2, files.putAccepted io slot key issuedAt)
  | .read slot key io => ((files.replayFloor io slot key).2, [])
  | .deliver event io => ((clauseDisposition crypto codec link io files event).2,
    files.deliverAccepted crypto codec link io event)
  | .tear slot key e => (files.set slot key ((files slot key).tear e), [])

/-- A put is not cut between its two writes where there is no record. -/
def Uncut (io : SlotIo) (f : SlotFiles) : Prop :=
  io.floor = none → io.record ≠ none → f.record ≠ .ok none

/-- No first put of a slot is cut between its two writes. -/
def FirstPutWhole (files : ClauseFiles) : ClauseAction → Prop
  | .put slot key _ _ io => Uncut io (files slot key)
  | .deliver event io =>
    ∀ payload vc, ClausePayload.fromJson codec event.content = .ok payload →
      verifyClause crypto codec event link.guardian payload.kind none = .ok vc →
        Uncut io.put (files (payload.slot link) payload.kind.storeKey)
  | _ => True

end ClauseFiles

/-! ## One step -/

/-- What a step does to the one slot it is about. -/
inductive SlotStep (slot : ClauseSlot) (key : Nat) (f : SlotFiles) :
    SlotFiles → List AcceptedClause → Prop
  | kept (f' : SlotFiles) (hcovers : ∀ accepted, f.Covers accepted → f'.Covers accepted)
      (hrecord : f'.record = f.record ∨ ∃ e, f'.record = .error e) : SlotStep slot key f f' []
  | raised (n : Nat) (floor : Option ReplayFloor) (io : Option SysError)
      (hfloor : (f.floorOf io).1 = .ok floor)
      (hnew : ∀ fl, floor = some fl → fl.admits n = true) :
      SlotStep slot key f ⟨f.record, .ok (some n)⟩ [⟨slot, key, n, false, f.record⟩]
  | stored (n : Nat) (json : String) (floor : Option ReplayFloor) (io : Option SysError)
      (hfloor : (f.floorOf io).1 = .ok floor)
      (hnew : ∀ fl, floor = some fl → fl.admits n = true) :
      SlotStep slot key f ⟨.ok (some ⟨n, json⟩), .ok (some n)⟩ [⟨slot, key, n, true, f.record⟩]

namespace ClauseFiles
variable (crypto : Crypto) (codec : StandingCodec) (link : Link) {files : ClauseFiles}
variable {slot : ClauseSlot} {key : Nat}

theorem set_same (slot : ClauseSlot) (key : Nat) : files.set slot key (files slot key) = files := by
  funext s k
  by_cases h : s = slot ∧ k = key
  · obtain ⟨rfl, rfl⟩ := h
    exact set_self ..
  · exact set_of_ne h

theorem set_set (slot : ClauseSlot) (key : Nat) (f f' : SlotFiles) :
    (files.set slot key f).set slot key f' = files.set slot key f' := by
  funext s k
  by_cases h : s = slot ∧ k = key
  · obtain ⟨rfl, rfl⟩ := h
    rw [set_self, set_self]
  · rw [set_of_ne h, set_of_ne h, set_of_ne h]

/-- A put, after what only wrote a lagging sidecar, is a step of its slot. -/
theorem slotStep_put {f f₁ : SlotFiles} (hrecord : f₁.record = f.record)
    (hfloorOf : ∀ io, (f₁.floorOf io).1 = (f.floorOf io).1)
    (hcovers : ∀ accepted, f.Covers accepted → f₁.Covers accepted) (io : SlotIo) (n : Nat)
    (json : String) :
    SlotStep slot key f (f₁.put io n json).2
      ((f₁.accepts io n).toList.map fun landed => ⟨slot, key, n, landed, f₁.record⟩) := by
  have hkept : SlotStep slot key f (f₁.floorOf io.backfill).2 [] := by
    refine .kept _ (fun accepted h => (hcovers accepted h).floorOf io.backfill) (Or.inl ?_)
    rw [SlotFiles.floorOf_record, hrecord]
  cases f₁.put_cases io n json with
  | unread e hfloor haccepts hput =>
    rw [hput, haccepts]
    exact hkept
  | refused fl hfloor hold haccepts hput =>
    rw [hput, haccepts]
    exact hkept
  | unwritten e floor hfloor hnew haccepts hput =>
    rw [hput, haccepts]
    exact hkept
  | raised e floor hfloor hnew hio hcut haccepts hput =>
    rw [hput, haccepts, SlotFiles.floorOf_record, hrecord]
    exact .raised n floor io.backfill ((hfloorOf _).symm.trans hfloor) hnew
  | stored floor hfloor hnew haccepts hput =>
    rw [hput, haccepts, hrecord]
    exact .stored n json floor io.backfill ((hfloorOf _).symm.trans hfloor) hnew

theorem slotStep_read (f : SlotFiles) (io : Option SysError) :
    SlotStep slot key f (f.floorOf io).2 [] :=
  .kept _ (fun _ h => h.floorOf io) (Or.inl (SlotFiles.floorOf_record io))

theorem slotStep_stay (f : SlotFiles) : SlotStep slot key f f [] :=
  .kept f (fun _ h => h) (Or.inl rfl)

theorem slotStep_tear (f : SlotFiles) (e : SysError) : SlotStep slot key f (f.tear e) [] := by
  unfold SlotFiles.tear
  split
  · exact slotStep_stay f
  · exact .kept _ (fun _ h => h.tear e) (Or.inr ⟨e, rfl⟩)

/-- **Specification of `clause_disposition`**, of its files and of what it accepts: it is a step
of one slot, or nothing. -/
theorem deliver_slot (files : ClauseFiles) (io : IntakeIo) (event : NostrEvent) :
    ∃ slot key f', (clauseDisposition crypto codec link io files event).2 = files.set slot key f' ∧
      SlotStep slot key (files slot key) f' (files.deliverAccepted crypto codec link io event) := by
  unfold clauseDisposition deliverAccepted
  cases ClausePayload.fromJson codec event.content with
  | error e => exact ⟨.machine, 0, files .machine 0, (set_same ..).symm, slotStep_stay _⟩
  | ok payload =>
    dsimp only
    refine ⟨payload.slot link, payload.kind.storeKey, ?_⟩
    generalize payload.slot link = slot
    generalize payload.kind.storeKey = key
    have hread : files.replayFloor io.read slot key = (((files slot key).floorOf io.read).1,
        files.set slot key ((files slot key).floorOf io.read).2) := rfl
    have hstep := @slotStep_read slot key (files slot key) io.read
    rw [hread]
    cases ((files slot key).floorOf io.read).1 with
    | error e => exact ⟨_, rfl, hstep⟩
    | ok floor =>
      dsimp only
      generalize verifyClause crypto codec event link.guardian payload.kind
        (floor.bind ReplayFloor.verifyBound) = verdict
      cases verdict with
      | error e => cases e <;> exact ⟨_, rfl, hstep⟩
      | ok vc =>
        have hput := @slotStep_put slot key (files slot key) _
          (SlotFiles.floorOf_record io.read) (SlotFiles.floorOf_floorOf _ io.read)
          (fun _ h => h.floorOf io.read) io.put vc.issuedAt vc.body
        refine ⟨(((files slot key).floorOf io.read).2.put io.put vc.issuedAt vc.body).2, ?_, ?_⟩
        · have hfiles : ((files.set slot key ((files slot key).floorOf io.read).2).put io.put slot
              key vc.issuedAt vc.body).2 = files.set slot key
                (((files slot key).floorOf io.read).2.put io.put vc.issuedAt vc.body).2 := by
            unfold ClauseFiles.put
            dsimp only
            rw [set_self, set_set]
          dsimp only
          rw [← hfiles]
          split <;> rename_i hres <;> rw [hres]
        · unfold putAccepted
          rw [set_self]
          exact hput

/-- **Every step is a step of one slot.** -/
theorem step_slot (files : ClauseFiles) (a : ClauseAction) :
    ∃ slot key f', (files.step crypto codec link a).1 = files.set slot key f' ∧
      SlotStep slot key (files slot key) f' (files.step crypto codec link a).2 := by
  cases a with
  | put slot key issuedAt json io =>
    exact ⟨slot, key, _, rfl, slotStep_put rfl (fun _ => rfl) (fun _ h => h) io issuedAt json⟩
  | read slot key io => exact ⟨slot, key, _, rfl, slotStep_read _ io⟩
  | deliver event io => exact deliver_slot crypto codec link files io event
  | tear slot key e => exact ⟨slot, key, _, rfl, slotStep_tear _ e⟩

variable {crypto codec link} in
/-- **What the condition buys**: a clause that did not land has a record below it. -/
theorem held_of_firstPutWhole {a : ClauseAction} (h : FirstPutWhole crypto codec link files a) :
    ∀ st ∈ (files.step crypto codec link a).2, st.landed = false → st.held ≠ .ok none := by
  have hcut : ∀ {fs : ClauseFiles} {io : SlotIo} {slot key n st}, st ∈ fs.putAccepted io slot key n →
      st.landed = false → st.held = (fs slot key).record ∧ io.floor = none ∧ io.record ≠ none := by
    intro fs io slot key n st hst hland
    unfold putAccepted at hst
    obtain ⟨landed, hl, rfl⟩ := List.mem_map.mp hst
    obtain rfl : landed = false := hland
    exact ⟨rfl, SlotFiles.of_accepts_false (Option.mem_toList.mp hl)⟩
  intro st hst hland
  cases a with
  | put slot key issuedAt json io =>
    obtain ⟨hheld, hfloor, hrecord⟩ := hcut hst hland
    rw [hheld]
    exact h hfloor hrecord
  | read slot key io => cases hst
  | tear slot key e => cases hst
  | deliver event io =>
    intro hnone
    change st ∈ files.deliverAccepted crypto codec link io event at hst
    unfold deliverAccepted at hst
    split at hst
    · cases hst
    rename_i payload hdec
    have hread : files.replayFloor io.read (payload.slot link) payload.kind.storeKey =
        (((files (payload.slot link) payload.kind.storeKey).floorOf io.read).1,
          files.set (payload.slot link) payload.kind.storeKey
            ((files (payload.slot link) payload.kind.storeKey).floorOf io.read).2) := rfl
    split at hst
    · cases hst
    rename_i floor files₁ hfl
    rw [hread] at hfl
    obtain ⟨hfloor, rfl⟩ := Prod.mk.inj hfl
    split at hst
    · rename_i vc hvc
      obtain ⟨hheld, hio, hrecord⟩ := hcut hst hland
      rw [set_self, SlotFiles.floorOf_record] at hheld
      rw [hheld] at hnone
      -- without a record there was no floor to verify against
      obtain rfl : none = floor := by
        unfold SlotFiles.floorOf at hfloor
        rw [hnone] at hfloor
        exact Except.ok.inj hfloor
      exact h payload vc hdec hvc hio hrecord hnone
    · cases hst

end ClauseFiles

/-! ## Runs -/

/-- Those of one slot. -/
def acceptedIn (slot : ClauseSlot) (key : Nat) (accepted : List AcceptedClause) :
    List AcceptedClause :=
  accepted.filter fun st => st.slot = slot ∧ st.key = key

/-- What may be accepted after what was: nothing lower, and the same again only over a record
that is not there or torn. -/
def AcceptedClause.Follows (earlier : List AcceptedClause) (st : AcceptedClause) : Prop :=
  (∀ r, st.held = .ok (some r) → r.issuedAt < st.issuedAt) ∧
    ∀ st' ∈ earlier, st'.slot = st.slot → st'.key = st.key →
      st'.issuedAt ≤ st.issuedAt ∧
        (st'.issuedAt = st.issuedAt → st'.landed → ∃ e, st.held = .error e)

/-- The invariant of a run: each slot covers what it accepted so far. -/
def CoversAll (files : ClauseFiles) (accepted : List AcceptedClause) : Prop :=
  ∀ slot key, (files slot key).Covers (acceptedIn slot key accepted)

theorem coversAll_nil (files : ClauseFiles) : CoversAll files [] := fun _ _ => .nil _

theorem acceptedIn_append (slot : ClauseSlot) (key : Nat) (xs ys : List AcceptedClause) :
    acceptedIn slot key (xs ++ ys) = acceptedIn slot key xs ++ acceptedIn slot key ys :=
  List.filter_append ..

theorem mem_acceptedIn {slot : ClauseSlot} {key : Nat} {accepted : List AcceptedClause}
    {st : AcceptedClause} : st ∈ acceptedIn slot key accepted ↔
      st ∈ accepted ∧ st.slot = slot ∧ st.key = key := by
  simp [acceptedIn, List.mem_filter]

/-- An admitted clause follows what its slot covers. -/
theorem SlotFiles.Covers.follows {f : SlotFiles} {accepted : List AcceptedClause} {slot : ClauseSlot}
    {key n : Nat} {landed : Bool} (h : f.Covers (acceptedIn slot key accepted))
    {io : Option SysError} {floor : Option ReplayFloor} (hfloor : (f.floorOf io).1 = .ok floor)
    (hnew : ∀ fl, floor = some fl → fl.admits n = true) :
    AcceptedClause.Follows accepted ⟨slot, key, n, landed, f.record⟩ := by
  refine ⟨fun r hr => lt_of_admits hfloor hnew hr, ?_⟩
  intro st' hmem hslot hkey
  have hst' : st' ∈ acceptedIn slot key accepted := mem_acceptedIn.mpr ⟨hmem, hslot, hkey⟩
  refine ⟨h.le_of_admits hfloor hnew st' hst', ?_⟩
  intro heq hland
  change st'.issuedAt = n at heq
  cases hr : f.record with
  | error e => exact ⟨e, rfl⟩
  | ok record =>
    cases record with
    | none =>
      rcases h.floor with hnil | ⟨hsome, -⟩
      · rw [hnil] at hst'
        cases hst'
      · exact absurd hr hsome
    | some r =>
      have hle := h.record r hr st' hst' hland
      have hlt := lt_of_admits hfloor hnew hr
      omega

/-- What was accepted is covered too, once the sidecar is raised to it. -/
theorem SlotFiles.Covers.accept {f f' : SlotFiles} {accepted : List AcceptedClause}
    {st : AcceptedClause} (h : f.Covers accepted) {io : Option SysError}
    {floor : Option ReplayFloor} (hfloor : (f.floorOf io).1 = .ok floor)
    (hnew : ∀ fl, floor = some fl → fl.admits st.issuedAt = true)
    (hsidecar : f'.floor = .ok (some st.issuedAt)) (hsome : f'.record ≠ .ok none)
    (hrecord : f'.record = f.record ∧ st.landed = false ∨
      ∃ json, f'.record = .ok (some ⟨st.issuedAt, json⟩)) : f'.Covers (accepted ++ [st]) := by
  have hle := h.le_of_admits hfloor hnew
  refine ⟨Or.inr ⟨hsome, st.issuedAt, hsidecar, ?_⟩, ?_⟩
  · intro st' hst'
    rcases List.mem_append.mp hst' with hold | hlast
    · exact hle st' hold
    · rw [List.mem_singleton.mp hlast]
  · intro r hr st' hst' hland
    rcases hrecord with ⟨hsame, hcut⟩ | ⟨json, hwritten⟩
    · rw [hsame] at hr
      rcases List.mem_append.mp hst' with hold | hlast
      · exact h.record r hr st' hold hland
      · rw [List.mem_singleton.mp hlast, hcut] at hland
        cases hland
    · rw [hwritten] at hr
      cases hr
      rcases List.mem_append.mp hst' with hold | hlast
      · exact hle st' hold
      · rw [List.mem_singleton.mp hlast]

/-- A slot that is set covers its own, the others what they did. -/
theorem CoversAll.set {files : ClauseFiles} {accepted : List AcceptedClause} {slot : ClauseSlot}
    {key : Nat} {f' : SlotFiles} (h : CoversAll files accepted) {more : List AcceptedClause}
    (hmore : ∀ st ∈ more, st.slot = slot ∧ st.key = key)
    (hself : f'.Covers (acceptedIn slot key accepted ++ more)) :
    CoversAll (files.set slot key f') (accepted ++ more) := by
  intro s k
  rw [acceptedIn_append]
  by_cases hsk : s = slot ∧ k = key
  · obtain ⟨rfl, rfl⟩ := hsk
    have hall : acceptedIn s k more = more := by
      refine List.filter_eq_self.mpr ?_
      intro st hst
      exact decide_eq_true (hmore st hst)
    rw [ClauseFiles.set_self, hall]
    exact hself
  · have hnone : acceptedIn s k more = [] := by
      refine List.filter_eq_nil_iff.mpr ?_
      intro st hst
      obtain ⟨hslot, hkey⟩ := hmore st hst
      simp only [decide_eq_true_eq]
      rintro ⟨rfl, rfl⟩
      exact hsk ⟨hslot, hkey⟩
    rw [ClauseFiles.set_of_ne hsk, hnone, List.append_nil]
    exact h s k

variable {crypto : Crypto} {codec : StandingCodec} {link : Link}

/-- **Step lemma.**  What a step accepts follows what was accepted, and is covered. -/
theorem coversAll_step {files : ClauseFiles} {accepted : List AcceptedClause} {a : ClauseAction}
    (hfirst : files.FirstPutWhole crypto codec link a) (h : CoversAll files accepted) :
    Obeys (fun earlier st => earlier ++ [st]) AcceptedClause.Follows accepted
        (files.step crypto codec link a).2 ∧
      CoversAll (files.step crypto codec link a).1
        ((files.step crypto codec link a).2.foldl (fun earlier st => earlier ++ [st]) accepted) := by
  have hheld := ClauseFiles.held_of_firstPutWhole hfirst
  obtain ⟨slot, key, f', hfiles, hstep⟩ := files.step_slot crypto codec link a
  generalize (files.step crypto codec link a).2 = effects at hstep hheld ⊢
  rw [hfiles]
  cases hstep with
  | kept _ hcovers hrecord =>
    refine ⟨trivial, ?_⟩
    have hself : f'.Covers (acceptedIn slot key accepted ++ []) := by
      rw [List.append_nil]
      exact hcovers _ (h slot key)
    have hset := h.set (by simp) hself
    rwa [List.append_nil] at hset
  | raised n floor io hfloor hnew =>
    refine ⟨⟨(h slot key).follows hfloor hnew, trivial⟩, ?_⟩
    have hsome := hheld _ (List.mem_singleton_self _) rfl
    exact h.set (by simp) ((h slot key).accept hfloor hnew rfl hsome (Or.inl ⟨rfl, rfl⟩))
  | stored n json floor io hfloor hnew =>
    refine ⟨⟨(h slot key).follows hfloor hnew, trivial⟩, ?_⟩
    exact h.set (by simp) ((h slot key).accept hfloor hnew rfl (by simp) (Or.inr ⟨json, rfl⟩))

/-- A record that reads before and after a step is the same, or was replaced by a later one. -/
theorem record_step {files : ClauseFiles} {a : ClauseAction} {slot : ClauseSlot} {key : Nat}
    {r r' : ClauseRec} (hr : (files slot key).record = .ok (some r))
    (hr' : ((files.step crypto codec link a).1 slot key).record = .ok (some r')) :
    r' = r ∨ r.issuedAt < r'.issuedAt := by
  obtain ⟨s, k, f', hfiles, hstep⟩ :=
    files.step_slot crypto codec link a
  generalize (files.step crypto codec link a).2 = effects at hstep
  rw [hfiles] at hr'
  by_cases hsk : slot = s ∧ key = k
  · obtain ⟨rfl, rfl⟩ := hsk
    rw [ClauseFiles.set_self] at hr'
    have hsame : f'.record = (files slot key).record → r' = r := by
      intro h
      rw [h, hr] at hr'
      cases hr'
      rfl
    cases hstep with
    | kept _ hcovers hrecord =>
      rcases hrecord with h | ⟨e, he⟩
      · exact Or.inl (hsame h)
      · rw [he] at hr'
        cases hr'
    | raised n floor io hfloor hnew => exact Or.inl (hsame rfl)
    | stored n json floor io hfloor hnew =>
      cases hr'
      exact Or.inr (SlotFiles.lt_of_admits hfloor hnew hr)
  · rw [ClauseFiles.set_of_ne hsk, hr] at hr'
    cases hr'
    exact Or.inl rfl

/-- **The broker's bound and the store's floor agree**, whatever the accesses meet: of an event
that passes every other check, the bound lets through what the put does not refuse; and where
there is no floor to read, the put fails too. -/
theorem verifyBound_iff_put (files : ClauseFiles) {event : NostrEvent} {kind : ClauseKind}
    {vc : VerifiedClause} (h : verifyClause crypto codec event link.guardian kind none = .ok vc)
    (slot : ClauseSlot) (key : Nat) (read : Option SysError) (io : SlotIo) (json : String) :
    match files.replayFloor read slot key with
    | (.ok floor, files') =>
      verifyClause crypto codec event link.guardian kind (floor.bind ReplayFloor.verifyBound) =
        .ok vc ↔ (files'.put io slot key vc.issuedAt json).1 ≠ .ok false
    | (.error e, files') => (files'.put io slot key vc.issuedAt json).1 = .error e := by
  have hput : ∀ f' : SlotFiles, ((files.set slot key f').put io slot key vc.issuedAt json).1 =
      (f'.put io vc.issuedAt json).1 := by
    intro f'
    unfold ClauseFiles.put
    rw [ClauseFiles.set_self]
  have hfloor : (((files slot key).floorOf read).2.floorOf io.backfill).1 =
      ((files slot key).floorOf read).1 := by
    rw [SlotFiles.floorOf_floorOf, SlotFiles.floorOf_io _ io.backfill read]
  unfold ClauseFiles.replayFloor SlotFiles.replayFloor
  dsimp only
  cases hread : ((files slot key).floorOf read).1 with
  | error e =>
    dsimp only
    rw [hput]
    exact SlotFiles.put_of_floor_error (hfloor.trans hread)
  | ok floor =>
    dsimp only
    rw [hput, ne_eq, SlotFiles.put_refused_iff (hfloor.trans hread), verifyClause_bound _ h]
    cases floor with
    | none => simp
    | some fl =>
      unfold ReplayFloor.admits
      cases hbound : fl.verifyBound with
      | none => simp [hbound]
      | some b => by_cases hle : vc.issuedAt ≤ b <;> simp [hbound, hle]

/-! ## The property -/

variable (crypto codec link)

/-- What a run from these files keeps, in every state and at every step. -/
structure ClauseFloorKept (files : ClauseFiles) (as : List ClauseAction) : Prop where
  accepted : ∀ xs st ys, effects (ClauseFiles.step crypto codec link) files as = xs ++ st :: ys →
    AcceptedClause.Follows xs st
  body : ∀ bs a cs, as = bs ++ a :: cs → ∀ slot key r r',
    ((run (ClauseFiles.step crypto codec link) files bs).1 slot key).record = .ok (some r) →
    ((run (ClauseFiles.step crypto codec link) files (bs ++ [a])).1 slot key).record =
      .ok (some r') → r' = r ∨ r.issuedAt < r'.issuedAt
  bound : ∀ bs cs, as = bs ++ cs → ∀ event kind vc,
    verifyClause crypto codec event link.guardian kind none = .ok vc → ∀ slot key read io json,
      match (run (ClauseFiles.step crypto codec link) files bs).1.replayFloor read slot key with
      | (.ok floor, files') =>
        verifyClause crypto codec event link.guardian kind (floor.bind ReplayFloor.verifyBound) =
          .ok vc ↔ (files'.put io slot key vc.issuedAt json).1 ≠ .ok false
      | (.error e, files') => (files'.put io slot key vc.issuedAt json).1 = .error e

variable {crypto codec link}

theorem foldl_snoc {α : Type} (xs ys : List α) :
    ys.foldl (fun earlier y => earlier ++ [y]) xs = xs ++ ys := by
  induction ys generalizing xs with
  | nil => exact (List.append_nil xs).symm
  | cons y ys ih => rw [List.foldl_cons, ih, List.append_assoc, List.singleton_append]

/-- **The floor over crashes.**  Of any files, a run in which no first put of a slot is cut
between its two writes keeps the floor: nothing lower is accepted than was, the same again only
where its record is not there or torn, a body only gives way to a later one, and the broker's
bound is the store's. -/
theorem clauseFloorKept (files : ClauseFiles) (as : List ClauseAction)
    (h : Obeys (fun files a => (ClauseFiles.step crypto codec link files a).1)
      (ClauseFiles.FirstPutWhole crypto codec link) files as) :
    ClauseFloorKept crypto codec link files as := by
  refine ⟨?_, ?_, ?_⟩
  · intro xs st ys hsplit
    have hrun := effects_obey_of (fun s t i hK hR => coversAll_step hK hR) (coversAll_nil files) h
    rw [hsplit, obeys_append, foldl_snoc, List.nil_append] at hrun
    exact hrun.2.1
  · intro bs a cs _ slot key r r' hr hr'
    rw [run_append_singleton] at hr'
    exact record_step hr hr'
  · intro bs cs _ event kind vc hvc slot key read io json
    exact verifyBound_iff_put _ hvc slot key read io json

/-! ## A crash in the first put -/

/-- The text of a schedule clause, by its instant. -/
def scheduleText (issuedAt : String) : String :=
  "\x7b\"v\":1,\"kind\":\"schedule\",\"issuedAt\":" ++ issuedAt ++ ",\"body\":\x7b\x7d\x7d"

/-- The decoders, on the texts at hand. -/
def scheduleCodec : StandingCodec where
  clause s :=
    if s = scheduleText "10" then .ok ⟨1, .schedule, none, 10, "\x7b\x7d"⟩
    else if s = scheduleText "5" then .ok ⟨1, .schedule, none, 5, "\x7b\x7d"⟩
    else .error "missing field"
  usageSync _ := .error "missing field"
  release _ := .error "missing field"
  usageSyncJson _ := "\x7b\x7d"
  value s := some s

/-- Ids and signatures that are all genuine. -/
def genuineCrypto : Crypto := ⟨fun event => event.id, fun _ _ _ => true⟩

/-- Guardian 7, machine 9, subject 8. -/
def deviceLink : Link := ⟨⟨7⟩, ⟨9⟩, ⟨8⟩⟩

def scheduleEvent (issuedAt : String) : NostrEvent :=
  ⟨⟨1⟩, ⟨7⟩, 1000, Kinds.charterDeviceClause, [], scheduleText issuedAt, ⟨0⟩⟩

/-- The sidecar is written and the record is not. -/
def cutBetween : SlotIo := ⟨none, none, some (.io "power loss")⟩

/-- Over a record the same crash leaves a floor, and a torn record leaves it too. -/
theorem clauseFloorKept_over_record :
    ClauseFloorKept genuineCrypto scheduleCodec deviceLink .empty
      [.deliver (scheduleEvent "5") .ok, .put (.child ⟨8⟩) 1 10 "\x7b\x7d" cutBetween,
        .deliver (scheduleEvent "5") .ok, .tear (.child ⟨8⟩) 1 (.io "parse clause"),
        .deliver (scheduleEvent "10") .ok] := by
  have hwhole : ∀ {files event}, ClauseFiles.FirstPutWhole genuineCrypto scheduleCodec deviceLink
      files (.deliver event .ok) := fun _ _ _ _ _ hcut => absurd rfl hcut
  refine clauseFloorKept _ _ ⟨hwhole, ?_, hwhole, trivial, hwhole, trivial⟩
  intro _ _
  decide +kernel

/-- **A crash in the first put leaves no floor**: the older clause is accepted after the newer
one, and lowers the sidecar to its own instant. -/
theorem clauseFloor_lowered :
    let as : List ClauseAction := [.deliver (scheduleEvent "10") ⟨none, cutBetween⟩,
      .deliver (scheduleEvent "5") .ok]
    ¬ClauseFloorKept genuineCrypto scheduleCodec deviceLink .empty as ∧
      (run (ClauseFiles.step genuineCrypto scheduleCodec deviceLink) .empty as).1 (.child ⟨8⟩) 1 =
        ⟨.ok (some ⟨5, "\x7b\x7d"⟩), .ok (some 5)⟩ := by
  refine ⟨?_, by decide +kernel⟩
  intro h
  have hrun : effects (ClauseFiles.step genuineCrypto scheduleCodec deviceLink) .empty
      [.deliver (scheduleEvent "10") ⟨none, cutBetween⟩, .deliver (scheduleEvent "5") .ok] =
        [⟨.child ⟨8⟩, 1, 10, false, .ok none⟩] ++ ⟨.child ⟨8⟩, 1, 5, true, .ok none⟩ :: [] := by
    decide +kernel
  have hfollows := (h.accepted _ _ _ hrun).2 _ (List.mem_singleton_self _) rfl rfl
  exact absurd hfollows.1 (by decide)

end Kintrinsic
