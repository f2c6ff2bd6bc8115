import Kintrinsic.ClauseFloor

/-! # What a delivery leaves in the records

A delivery that is stored writes one record, its own; every other one writes none, whatever it does
to the floors. -/
namespace Kintrinsic

namespace SlotFiles

/-- A put that is not accepted leaves the record. -/
theorem put_record (f : SlotFiles) (io : SlotIo) (n : Nat) (json : String) :
    (f.put io n json).1 ≠ .ok true ∧ (f.put io n json).2.record = f.record ∨
      (f.put io n json).1 = .ok true ∧ (f.put io n json).2.record = .ok (some ⟨n, json⟩) := by
  cases f.put_cases io n json with
  | unread e hfloor haccepts hput => exact .inl (by simp [hput, f.floorOf_record])
  | refused fl hfloor hold haccepts hput => exact .inl (by simp [hput, f.floorOf_record])
  | unwritten e floor hfloor hnew haccepts hput => exact .inl (by simp [hput, f.floorOf_record])
  | raised e floor hfloor hnew hio hcut haccepts hput =>
    exact .inl (by simp [hput, f.floorOf_record])
  | stored floor hfloor hnew haccepts hput => exact .inr (by simp [hput])

end SlotFiles

namespace ClauseFiles

theorem set_record (files : ClauseFiles) (slot : ClauseSlot) (key : Nat) {f : SlotFiles}
    (h : f.record = (files slot key).record) (s : ClauseSlot) (k : Nat) :
    (files.set slot key f s k).record = (files s k).record := by
  unfold set
  split
  · rename_i hsk
    rw [h, hsk.1, hsk.2]
  · rfl

theorem replayFloor_record (files : ClauseFiles) (io : Option SysError) (slot : ClauseSlot)
    (key : Nat) (s : ClauseSlot) (k : Nat) :
    ((files.replayFloor io slot key).2 s k).record = (files s k).record :=
  files.set_record slot key ((files slot key).floorOf_record io) s k

end ClauseFiles

theorem staleClauseDisposition_ne_stored (codec : StandingCodec) (files : ClauseFiles)
    (slot : ClauseSlot) (key : Nat) (floor : Option ReplayFloor) (payload : ClausePayload) :
    staleClauseDisposition codec files slot key floor payload ≠ .stored := by
  have hcase : ∀ (p : Prop) [Decidable p],
      (if p then ClauseDisposition.unchanged else .superseded) ≠ .stored := by
    intro p _
    split <;> simp
  unfold staleClauseDisposition
  by_cases hfloor : floor ≠ some (.record payload.issuedAt)
  · rw [if_pos hfloor]
    simp
  · rw [if_neg hfloor]
    exact hcase _

/-- The records after a delivery: one is written where it was stored, none otherwise. -/
inductive IntakeCase (crypto : Crypto) (codec : StandingCodec) (link : Link) (files : ClauseFiles)
    (event : NostrEvent) (r : ClauseDisposition × ClauseFiles) : Prop
  | kept (hnot : r.1 ≠ .stored) (hrecords : ∀ s k, (r.2 s k).record = (files s k).record)
  | stored (payload : ClausePayload) (vc : VerifiedClause) (floor : Option ReplayFloor)
      (hstored : r.1 = .stored)
      (hpayload : ClausePayload.fromJson codec event.content = .ok payload)
      (hfloor : ∀ io, ((files (payload.slot link) payload.kind.storeKey).replayFloor io).1 =
        .ok floor)
      (hverified : verifyClause crypto codec event link.guardian payload.kind
        (floor.bind ReplayFloor.verifyBound) = .ok vc)
      (hrecord : (r.2 (payload.slot link) payload.kind.storeKey).record =
        .ok (some ⟨vc.issuedAt, vc.body⟩))
      (hrecords : ∀ s k, ¬(s = payload.slot link ∧ k = payload.kind.storeKey) →
        (r.2 s k).record = (files s k).record)

/-- **What a delivery does to the records.** -/
theorem clauseDisposition_case (crypto : Crypto) (codec : StandingCodec) (link : Link)
    (io : IntakeIo) (files : ClauseFiles) (event : NostrEvent) :
    IntakeCase crypto codec link files event
      (clauseDisposition crypto codec link io files event) := by
  unfold clauseDisposition
  cases hpayload : ClausePayload.fromJson codec event.content with
  | error e => exact .kept (by simp) fun _ _ => rfl
  | ok payload =>
    dsimp only
    have hread := files.replayFloor_record io.read (payload.slot link) payload.kind.storeKey
    have hsame : ((files (payload.slot link) payload.kind.storeKey).replayFloor io.read).1 =
      (files.replayFloor io.read (payload.slot link) payload.kind.storeKey).1 := rfl
    generalize files.replayFloor io.read (payload.slot link) payload.kind.storeKey = r at hread hsame
    obtain ⟨floor, files'⟩ := r
    cases floor with
    | error e =>
      refine .kept ?_ hread
      dsimp only
      unfold unreadableFloorOutcome
      split <;> simp
    | ok floor =>
      dsimp only
      split
      · rename_i vc hverified
        have hput := (files' (payload.slot link) payload.kind.storeKey).put_record io.put
          vc.issuedAt vc.body
        have hstate : files'.put io.put (payload.slot link) payload.kind.storeKey vc.issuedAt vc.body
            = (((files' (payload.slot link) payload.kind.storeKey).put io.put vc.issuedAt vc.body).1,
              files'.set (payload.slot link) payload.kind.storeKey
                ((files' (payload.slot link) payload.kind.storeKey).put io.put vc.issuedAt
                  vc.body).2) := rfl
        rw [hstate]
        generalize (files' (payload.slot link) payload.kind.storeKey).put io.put vc.issuedAt vc.body
          = p at hput
        obtain ⟨outcome, f⟩ := p
        rcases hput with ⟨hnot, hrecord⟩ | ⟨hok, hrecord⟩
        · have hkept : ∀ s k, (files'.set (payload.slot link) payload.kind.storeKey f s k).record =
              (files s k).record := fun s k => (files'.set_record _ _ hrecord s k).trans (hread s k)
          cases outcome with
          | error e => exact .kept (by simp) hkept
          | ok b =>
            cases b with
            | true => exact absurd rfl hnot
            | false => exact .kept (by simp) hkept
        · obtain rfl : outcome = .ok true := hok
          refine .stored payload vc floor rfl hpayload ?_ hverified ?_ ?_
          · intro io'
            exact ((files (payload.slot link) payload.kind.storeKey).floorOf_io io' io.read).trans
              hsame
          · dsimp only
            rw [ClauseFiles.set_self]
            exact hrecord
          · intro s k hne
            dsimp only
            rw [ClauseFiles.set_of_ne hne]
            exact hread s k
      · exact .kept (staleClauseDisposition_ne_stored codec files' _ _ floor payload) hread
      · exact .kept (by simp) hread

/-! ## One slot -/

/-- The body that a delivery was acknowledged for as stored, where its slot is this one. -/
def storedFor (crypto : Crypto) (codec : StandingCodec) (link : Link) (slot : ClauseSlot)
    (kind : ClauseKind) (files : ClauseFiles) (io : IntakeIo) (event : NostrEvent) :
    Option String :=
  match ClausePayload.fromJson codec event.content with
  | .error _ => none
  | .ok payload =>
    if (payload.slot link = slot ∧ payload.kind = kind) ∧
        (clauseDisposition crypto codec link io files event).1 = .stored then
      some payload.body
    else none

/-- **What a slot reads after a delivery**: the body acknowledged for it, or what it read before. -/
theorem clauseDisposition_get (crypto : Crypto) (codec : StandingCodec) (link : Link)
    (slot : ClauseSlot) (kind : ClauseKind) (files : ClauseFiles) (io : IntakeIo)
    (event : NostrEvent) :
    (clauseDisposition crypto codec link io files event).2.get slot kind.storeKey =
      match storedFor crypto codec link slot kind files io event with
      | some body => .ok (some body)
      | none => files.get slot kind.storeKey := by
  unfold ClauseFiles.get SlotFiles.get storedFor
  cases clauseDisposition_case crypto codec link io files event with
  | kept hnot hrecords =>
    rw [hrecords]
    cases ClausePayload.fromJson codec event.content with
    | error e => rfl
    | ok payload =>
      dsimp only
      rw [if_neg fun hstored => hnot hstored.2]
  | stored payload vc floor hstored hpayload hfloor hverified hrecord hrecords =>
    obtain ⟨payload', hpayload', rfl, -, -, -⟩ := verifyClause_ok hverified
    obtain rfl : payload = payload' := Except.ok.inj (hpayload.symm.trans hpayload')
    rw [hpayload]
    dsimp only
    by_cases hsame : payload.slot link = slot ∧ payload.kind = kind
    · rw [if_pos ⟨hsame, hstored⟩, ← hsame.1, ← hsame.2, hrecord]
      rfl
    · rw [if_neg fun hboth => hsame hboth.1, hrecords]
      rintro ⟨rfl, hkey⟩
      exact hsame ⟨rfl, (ClauseKind.storeKey_injective hkey).symm⟩

end Kintrinsic
