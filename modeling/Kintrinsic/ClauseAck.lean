import Kintrinsic.IntakeRecords

/-! # What an acknowledgement says

A delivery is a step of the slot its clause is routed to.  What became of the clause is read off
that slot before and after, and a clause that was dealt with once is never written again. -/
namespace Kintrinsic

/-! ## Genuine clauses -/

/-- What the verifier makes of a payload that it accepts. -/
def ClausePayload.verified (payload : ClausePayload) : VerifiedClause :=
  ⟨payload.kind, payload.issuedAt, payload.body⟩

/-- The guardian's own clause, whatever its slot holds. -/
structure GenuineClause (crypto : Crypto) (codec : StandingCodec) (guardian : PubKey)
    (event : NostrEvent) (payload : ClausePayload) : Prop where
  decoded : ClausePayload.fromJson codec event.content = .ok payload
  verifies : verifyClause crypto codec event guardian payload.kind none = .ok payload.verified

section Verify
variable {crypto : Crypto} {codec : StandingCodec} {event : NostrEvent} {guardian : PubKey}
variable {payload : ClausePayload}

/-- Only the bound can refuse as stale: every other refusal comes before it. -/
theorem verifyClause_none_error {kind : ClauseKind} {e : ClauseError}
    (h : verifyClause crypto codec event guardian kind none = .error e) (prev : Option Nat) :
    verifyClause crypto codec event guardian kind prev = .error e := by
  unfold verifyClause at h ⊢
  split at h
  · rename_i hkind
    rw [if_pos hkind]
    exact h
  rename_i hkind
  rw [if_neg hkind]
  split at h
  · exact h
  split at h
  · rename_i hshape
    rw [if_pos hshape]
    exact h
  rename_i hshape
  rw [if_neg hshape]
  split at h
  · exact h
  · split at h
    · rename_i hany
      cases hany
    · cases h

theorem authenticate_ne_stale {e : ClauseError}
    (h : authenticate crypto event guardian ClauseError.badSignature .untrustedSigner =
      .error e) : e ≠ .staleIssuedAt := by
  unfold authenticate at h
  split_ifs at h <;> cases h <;> decide

/-- Without a bound nothing is stale. -/
theorem verifyClause_none_ne_stale {kind : ClauseKind} :
    verifyClause crypto codec event guardian kind none ≠ .error .staleIssuedAt := by
  intro h
  unfold verifyClause at h
  split at h
  · cases h
  split at h
  · cases h
  split at h
  · cases h
  split at h
  · rename_i e hauth
    exact authenticate_ne_stale hauth (Except.error.inj h)
  · split at h
    · rename_i hany
      cases hany
    · cases h

/-- **A decoded clause is genuine, or is refused whatever its slot holds.** -/
theorem genuine_or_refused (crypto : Crypto) (guardian : PubKey)
    (hdec : ClausePayload.fromJson codec event.content = .ok payload) :
    GenuineClause crypto codec guardian event payload ∨
      ¬GenuineClause crypto codec guardian event payload ∧ ∃ e, e ≠ .staleIssuedAt ∧
        ∀ prev, verifyClause crypto codec event guardian payload.kind prev = .error e := by
  cases hverdict : verifyClause crypto codec event guardian payload.kind none with
  | ok vc =>
    obtain ⟨p, hp, rfl, -, -, -⟩ := verifyClause_ok hverdict
    obtain rfl : payload = p := Except.ok.inj (hdec.symm.trans hp)
    exact .inl ⟨hdec, hverdict⟩
  | error e =>
    refine .inr ⟨?_, e, ?_, fun prev => verifyClause_none_error hverdict prev⟩
    · intro hgenuine
      have hok := hgenuine.verifies
      rw [hverdict] at hok
      cases hok
    · rintro rfl
      exact verifyClause_none_ne_stale hverdict

/-- A genuine clause is stale exactly where its slot's floor keeps it out. -/
theorem GenuineClause.verify (h : GenuineClause crypto codec guardian event payload)
    (floor : Option ReplayFloor) :
    verifyClause crypto codec event guardian payload.kind (floor.bind ReplayFloor.verifyBound) =
      if floor.any fun fl => !fl.admits payload.issuedAt then .error .staleIssuedAt
      else .ok payload.verified := by
  rw [verifyClause_bound _ h.verifies]
  congr 1
  cases floor with
  | none => rfl
  | some fl =>
    rw [Option.bind_some, Option.any_some, eq_iff_iff]
    unfold ReplayFloor.admits
    cases fl.verifyBound with
    | none => exact Iff.rfl
    | some b =>
      rw [Option.any_some, decide_eq_true_iff, Bool.not_eq_true', decide_eq_false_iff_not, not_lt]
      exact Iff.rfl

end Verify

/-! ## One delivery at its slot -/

/-- What a delivery does to the slot it is routed to, and what became of the clause. -/
inductive DeliveryCase (crypto : Crypto) (codec : StandingCodec) (link : Link) (io : IntakeIo)
    (f : SlotFiles) (event : NostrEvent) (payload : ClausePayload) :
    ClauseDisposition → SlotFiles → Prop
  | unreadable (e : SysError) (hfloor : (f.floorOf io.read).1 = .error e) :
      DeliveryCase crypto codec link io f event payload
        (unreadableFloorOutcome crypto codec link event payload.kind) (f.floorOf io.read).2
  | refused (floor : Option ReplayFloor) (hfloor : (f.floorOf io.read).1 = .ok floor)
      (hnot : ¬GenuineClause crypto codec link.guardian event payload) :
      DeliveryCase crypto codec link io f event payload .refused (f.floorOf io.read).2
  | stale (d : ClauseDisposition) (fl : ReplayFloor)
      (hfloor : (f.floorOf io.read).1 = .ok (some fl))
      (hgenuine : GenuineClause crypto codec link.guardian event payload)
      (hold : fl.admits payload.issuedAt = false) (hd : d = .superseded ∨ d = .unchanged ∧
        ∃ r, f.record = .ok (some r) ∧ r.issuedAt = payload.issuedAt ∧
          codec.value r.json = some payload.body) :
      DeliveryCase crypto codec link io f event payload d (f.floorOf io.read).2
  | unwritten (floor : Option ReplayFloor) (hfloor : (f.floorOf io.read).1 = .ok floor)
      (hgenuine : GenuineClause crypto codec link.guardian event payload)
      (hnew : ∀ fl, floor = some fl → fl.admits payload.issuedAt = true)
      (hio : io.put.floor ≠ none) :
      DeliveryCase crypto codec link io f event payload .writeFailed
        ((f.floorOf io.read).2.floorOf io.put.backfill).2
  | raised (floor : Option ReplayFloor) (hfloor : (f.floorOf io.read).1 = .ok floor)
      (hgenuine : GenuineClause crypto codec link.guardian event payload)
      (hnew : ∀ fl, floor = some fl → fl.admits payload.issuedAt = true)
      (hcut : io.put.record ≠ none) :
      DeliveryCase crypto codec link io f event payload .writeFailed
        ⟨f.record, .ok (some payload.issuedAt)⟩
  | stored (floor : Option ReplayFloor) (hfloor : (f.floorOf io.read).1 = .ok floor)
      (hgenuine : GenuineClause crypto codec link.guardian event payload)
      (hnew : ∀ fl, floor = some fl → fl.admits payload.issuedAt = true)
      (hio : io.put.floor = none) (hdone : io.put.record = none) :
      DeliveryCase crypto codec link io f event payload .stored
        ⟨.ok (some ⟨payload.issuedAt, payload.body⟩), .ok (some payload.issuedAt)⟩

namespace SlotFiles
variable {f : SlotFiles} {io : SlotIo} {n : Nat}

/-- Past the floor, only the writes decide how far a put gets. -/
theorem accepts_of_new {floor : Option ReplayFloor} (hfloor : (f.floorOf io.backfill).1 = .ok floor)
    (hnew : ∀ fl, floor = some fl → fl.admits n = true) :
    f.accepts io n = if io.floor = none then some io.record.isNone else none := by
  unfold accepts
  rw [hfloor]
  have hany : ¬(floor.any fun fl => !fl.admits n) = true := by
    cases floor with
    | none => exact Bool.false_ne_true
    | some fl => simp [hnew fl rfl]
  dsimp only
  rw [if_neg hany]
  cases io.floor <;> rfl

/-- A record floor is the record's instant. -/
theorem record_of_floorOf {io : Option SysError}
    (h : (f.floorOf io).1 = .ok (some (.record n))) :
    ∃ r, f.record = .ok (some r) ∧ r.issuedAt = n := by
  unfold floorOf at h
  split at h
  · rename_i r hr
    refine ⟨r, hr, ?_⟩
    split at h
    · rename_i m hm
      split at h
      · cases h
      split at h
      · rename_i heq
        cases h
        exact heq.symm
      · cases h
        rfl
    · cases h
      rfl
  · cases h
  · split at h <;> cases h

end SlotFiles

section Delivery
variable (crypto : Crypto) (codec : StandingCodec) (link : Link) (io : IntakeIo)
variable (files : ClauseFiles) {event : NostrEvent} {payload : ClausePayload}

/-- **Specification of `clause_disposition`** at the slot of its clause. -/
theorem clauseDisposition_slot (hdec : ClausePayload.fromJson codec event.content = .ok payload) :
    ∃ d f', clauseDisposition crypto codec link io files event =
        (d, files.set (payload.slot link) payload.kind.storeKey f') ∧
      DeliveryCase crypto codec link io (files (payload.slot link) payload.kind.storeKey) event
        payload d f' := by
  unfold clauseDisposition
  rw [hdec]
  dsimp only
  generalize hslot : payload.slot link = slot
  generalize hkey : payload.kind.storeKey = key
  have hread : files.replayFloor io.read slot key = (((files slot key).floorOf io.read).1,
      files.set slot key ((files slot key).floorOf io.read).2) := rfl
  rw [hread]
  cases hfloor : ((files slot key).floorOf io.read).1 with
  | error e => exact ⟨_, _, rfl, .unreadable e hfloor⟩
  | ok floor =>
    dsimp only
    rcases genuine_or_refused crypto link.guardian hdec with
      hgenuine | ⟨hnot, e, hstale, hrefused⟩
    · rw [hgenuine.verify floor]
      by_cases hany : (floor.any fun fl => !fl.admits payload.issuedAt) = true
      · rw [if_pos hany]
        obtain ⟨fl, rfl, hold⟩ : ∃ fl, floor = some fl ∧ fl.admits payload.issuedAt = false := by
          obtain ⟨fl, hfl, hold⟩ := (Option.any_eq_true _ _).mp hany
          exact ⟨fl, hfl, by simpa using hold⟩
        refine ⟨_, _, rfl, .stale _ fl hfloor hgenuine hold ?_⟩
        unfold staleClauseDisposition
        by_cases hat : some fl ≠ some (.record payload.issuedAt)
        · exact .inl (if_pos hat)
        · obtain rfl : fl = .record payload.issuedAt := Option.some.inj (not_not.mp hat)
          obtain ⟨r, hr, hissued⟩ := SlotFiles.record_of_floorOf hfloor
          have hget : (files.set slot key ((files slot key).floorOf io.read).2).get slot key =
              .ok (some r.json) := by
            unfold ClauseFiles.get SlotFiles.get
            rw [ClauseFiles.set_self, SlotFiles.floorOf_record, hr]
            rfl
          rw [if_neg hat, hget]
          dsimp only
          by_cases hbody : codec.value r.json = some payload.body
          · exact .inr ⟨if_pos hbody, r, hr, hissued, hbody⟩
          · exact .inl (if_neg hbody)
      · rw [if_neg hany]
        have hnew : ∀ fl, floor = some fl → fl.admits payload.issuedAt = true := by
          rintro fl rfl
          simpa using hany
        have hagain : ((((files slot key).floorOf io.read).2).floorOf io.put.backfill).1 =
            .ok floor := by
          rw [SlotFiles.floorOf_floorOf, SlotFiles.floorOf_io _ io.put.backfill io.read, hfloor]
        have hput : (files.set slot key ((files slot key).floorOf io.read).2).put io.put slot key
            payload.verified.issuedAt payload.verified.body =
            ((((files slot key).floorOf io.read).2.put io.put payload.issuedAt payload.body).1,
              files.set slot key
                (((files slot key).floorOf io.read).2.put io.put payload.issuedAt
                  payload.body).2) := by
          unfold ClauseFiles.put ClausePayload.verified
          dsimp only
          rw [ClauseFiles.set_self, ClauseFiles.set_set]
        dsimp only
        rw [hput]
        have hacc := SlotFiles.accepts_of_new hagain hnew
        cases SlotFiles.put_cases ((files slot key).floorOf io.read).2 io.put payload.issuedAt
          payload.body with
        | unread e hfloor' _ _ =>
          rw [hagain] at hfloor'
          cases hfloor'
        | refused fl hfloor' hold _ _ =>
          rw [hagain] at hfloor'
          cases hfloor'
          rw [hnew fl rfl] at hold
          cases hold
        | unwritten e floor' _ _ haccepts hput' =>
          rw [hput']
          refine ⟨_, _, rfl, .unwritten floor hfloor hgenuine hnew ?_⟩
          intro hio
          rw [haccepts, if_pos hio] at hacc
          cases hacc
        | raised e floor' _ _ _ hcut _ hput' =>
          have hcut' : io.put.record ≠ none := by simp [hcut]
          rw [hput']
          dsimp only
          rw [SlotFiles.floorOf_record, SlotFiles.floorOf_record]
          exact ⟨_, _, rfl, .raised floor hfloor hgenuine hnew hcut'⟩
        | stored floor' _ _ haccepts hput' =>
          rw [hput']
          by_cases hio : io.put.floor = none
          · rw [haccepts, if_pos hio, Option.some.injEq] at hacc
            exact ⟨_, _, rfl,
              .stored floor hfloor hgenuine hnew hio (Option.isNone_iff_eq_none.mp hacc.symm)⟩
          · rw [haccepts, if_neg hio] at hacc
            cases hacc
    · rw [hrefused]
      cases e with
      | staleIssuedAt => exact absurd rfl hstale
      | _ => exact ⟨_, _, rfl, .refused floor hfloor hnot⟩

end Delivery

/-! ## A clause that was dealt with -/

/-- Of two instants a floor tells apart, the one it admits is the later. -/
theorem ReplayFloor.lt_of_admits {fl : ReplayFloor} {m n : Nat} (hn : fl.admits n = true)
    (hm : fl.admits m = false) : m < n := by
  rw [← Bool.not_eq_true] at hm
  cases fl with
  | record k =>
    rw [admits_record] at hn hm
    omega
  | sidecar k =>
    rw [admits_sidecar] at hn hm
    omega

namespace SlotFiles
variable {f : SlotFiles} {n : Nat}

theorem floorOf_unwritable (f : SlotFiles) (e : SysError) : (f.floorOf (some e)).2 = f := by
  unfold floorOf
  split
  · split
    · split
      · rfl
      split <;> rfl
    · rfl
  · rfl
  · split <;> rfl

/-- Once a sidecar was written from the record, nothing is left to write. -/
theorem floorOf_level (f : SlotFiles) (io : Option SysError) :
    ((f.floorOf none).2.floorOf io).2 = (f.floorOf none).2 := by
  cases io with
  | some e => exact floorOf_unwritable _ e
  | none =>
    rcases f.floorOf_files none with hsame | ⟨r, hr, -, -, hfiles⟩
    · rw [hsame, hsame]
    · rw [hfiles]
      unfold floorOf
      rw [hr]
      dsimp only
      rw [if_neg (lt_irrefl _), if_pos rfl]

/-- A sidecar above the record is the floor. -/
theorem floorOf_raised (hsome : f.record ≠ .ok none)
    (habove : ∀ r, f.record = .ok (some r) → r.issuedAt < n) (io : Option SysError) :
    floorOf ⟨f.record, .ok (some n)⟩ io =
      (.ok (some (.sidecar n)), ⟨f.record, .ok (some n)⟩) := by
  unfold floorOf
  dsimp only
  split
  · rename_i r hr
    rw [if_pos (habove r hr)]
  · contradiction
  · rfl

theorem floorOf_absent (h : f.record = .ok none) (io : Option SysError) :
    f.floorOf io = (.ok none, f) := by
  unfold floorOf
  rw [h]

theorem floorOf_stored (n : Nat) (json : String) (io : Option SysError) :
    floorOf ⟨.ok (some ⟨n, json⟩), .ok (some n)⟩ io =
      (.ok (some (.record n)), ⟨.ok (some ⟨n, json⟩), .ok (some n)⟩) := by
  unfold floorOf
  dsimp only
  rw [if_neg (lt_irrefl _), if_pos rfl]

end SlotFiles

/-- Delivered again, the clause would find nothing to write: no sidecar waits to be written from
the record, and the floor, where there is one to read, keeps the clause out. -/
structure Settled (crypto : Crypto) (codec : StandingCodec) (link : Link) (event : NostrEvent)
    (payload : ClausePayload) (f : SlotFiles) : Prop where
  level : ∀ io, (f.floorOf io).2 = f
  closed : GenuineClause crypto codec link.guardian event payload →
    ∀ floor, (f.floorOf none).1 = .ok floor →
      ∃ fl, floor = some fl ∧ fl.admits payload.issuedAt = false

namespace Settled
variable {crypto : Crypto} {codec : StandingCodec} {link : Link} {io : IntakeIo}
variable {event event' : NostrEvent} {payload payload' : ClausePayload}
variable {f f' : SlotFiles} {d : ClauseDisposition}

/-- What is kept out is not written. -/
theorem kept_out (h : Settled crypto codec link event payload f)
    (hgenuine : GenuineClause crypto codec link.guardian event payload)
    {floor : Option ReplayFloor} (hfloor : (f.floorOf io.read).1 = .ok floor) :
    ¬∀ fl, floor = some fl → fl.admits payload.issuedAt = true := by
  intro hnew
  obtain ⟨fl, hfl, hold⟩ := h.closed hgenuine floor ((f.floorOf_io none io.read).trans hfloor)
  rw [hnew fl hfl] at hold
  cases hold

/-- **A settled clause changes nothing when it comes again.** -/
theorem unchanged (h : Settled crypto codec link event payload f)
    (hcase : DeliveryCase crypto codec link io f event payload d f') : f' = f := by
  cases hcase with
  | unreadable e hfloor => exact h.level _
  | refused floor hfloor hnot => exact h.level _
  | stale d fl hfloor hgenuine hold hd => exact h.level _
  | unwritten floor hfloor hgenuine hnew hio => exact absurd hnew (h.kept_out hgenuine hfloor)
  | raised floor hfloor hgenuine hnew hcut => exact absurd hnew (h.kept_out hgenuine hfloor)
  | stored floor hfloor hgenuine hnew hio hdone =>
    exact absurd hnew (h.kept_out hgenuine hfloor)

/-- **A delivery whose writes land settles its clause.** -/
theorem of_delivery (hcase : DeliveryCase crypto codec link .ok f event payload d f') :
    Settled crypto codec link event payload f' := by
  have hread : ∀ {floor}, (f.floorOf none).1 = .ok floor → ∀ floor',
      ((f.floorOf none).2.floorOf none).1 = .ok floor' → floor' = floor := by
    intro floor hfloor floor' hfloor'
    rw [SlotFiles.floorOf_floorOf, hfloor] at hfloor'
    exact (Except.ok.inj hfloor').symm
  cases hcase with
  | unreadable e hfloor =>
    refine ⟨f.floorOf_level, fun _ floor hfloor' => ?_⟩
    have herror : (f.floorOf none).1 = .error e := hfloor
    have hok : (f.floorOf none).1 = .ok floor := (f.floorOf_floorOf none none).symm.trans hfloor'
    rw [herror] at hok
    cases hok
  | refused floor hfloor hnot => exact ⟨f.floorOf_level, fun hgenuine => absurd hgenuine hnot⟩
  | stale d fl hfloor hgenuine hold hd =>
    exact ⟨f.floorOf_level, fun _ floor hfloor' => ⟨fl, hread hfloor floor hfloor', hold⟩⟩
  | unwritten floor hfloor hgenuine hnew hio => exact absurd rfl hio
  | raised floor hfloor hgenuine hnew hcut => exact absurd rfl hcut
  | stored floor hfloor hgenuine hnew hio hdone =>
    refine ⟨fun io => by rw [SlotFiles.floorOf_stored], fun _ floor' hfloor' => ?_⟩
    rw [SlotFiles.floorOf_stored] at hfloor'
    refine ⟨.record payload.issuedAt, (Except.ok.inj hfloor').symm, ?_⟩
    rw [← Bool.not_eq_true, ReplayFloor.admits_record]
    exact lt_irrefl _

/-- **It stays settled** over any other delivery to its slot. -/
theorem step (h : Settled crypto codec link event payload f)
    (hcase : DeliveryCase crypto codec link io f event' payload' d f') :
    Settled crypto codec link event payload f' := by
  cases hcase with
  | unreadable e hfloor => rwa [h.level]
  | refused floor hfloor hnot => rwa [h.level]
  | stale d fl hfloor hgenuine hold hd => rwa [h.level]
  | unwritten floor hfloor hgenuine hnew hio => rwa [h.level, h.level]
  | raised floor hfloor hgenuine hnew hcut =>
    have habove : ∀ r, f.record = .ok (some r) → r.issuedAt < payload'.issuedAt :=
      fun r hr => SlotFiles.lt_of_admits hfloor hnew hr
    by_cases habsent : f.record = .ok none
    · rw [habsent]
      refine ⟨fun io => by rw [SlotFiles.floorOf_absent rfl], fun hours floor' hfloor' => ?_⟩
      obtain ⟨fl, hfl, -⟩ := h.closed hours none (by rw [SlotFiles.floorOf_absent habsent])
      cases hfl
    · refine ⟨fun io => by rw [SlotFiles.floorOf_raised habsent habove],
        fun hours floor' hfloor' => ?_⟩
      rw [SlotFiles.floorOf_raised habsent habove] at hfloor'
      obtain ⟨fl, rfl, hold⟩ := h.closed hours floor ((f.floorOf_io none io.read).trans hfloor)
      have hlt := ReplayFloor.lt_of_admits (hnew fl rfl) hold
      refine ⟨.sidecar payload'.issuedAt, (Except.ok.inj hfloor').symm, ?_⟩
      rw [← Bool.not_eq_true, ReplayFloor.admits_sidecar]
      omega
  | stored floor hfloor hgenuine hnew hio hdone =>
    refine ⟨fun io => by rw [SlotFiles.floorOf_stored], fun hours floor' hfloor' => ?_⟩
    rw [SlotFiles.floorOf_stored] at hfloor'
    obtain ⟨fl, rfl, hold⟩ := h.closed hours floor ((f.floorOf_io none io.read).trans hfloor)
    have hlt := ReplayFloor.lt_of_admits (hnew fl rfl) hold
    refine ⟨.record payload'.issuedAt, (Except.ok.inj hfloor').symm, ?_⟩
    rw [← Bool.not_eq_true, ReplayFloor.admits_record]
    omega

end Settled

/-! ## Runs of deliveries -/

section Runs
variable (crypto : Crypto) (codec : StandingCodec) (link : Link)

/-- The stores after some deliveries, on whichever leg each came. -/
def ClauseFiles.afterDeliveries (files : ClauseFiles) (ds : List (NostrEvent × IntakeIo)) :
    ClauseFiles :=
  ds.foldl (fun files d => (clauseDisposition crypto codec link d.2 files d.1).2) files

variable {crypto codec link} {io : IntakeIo} {files : ClauseFiles} {event : NostrEvent}
variable {payload : ClausePayload}

theorem clauseDisposition_undecoded {e : ProtoError}
    (h : ClausePayload.fromJson codec event.content = .error e) :
    clauseDisposition crypto codec link io files event = (.refused, files) := by
  unfold clauseDisposition
  rw [h]

/-- One delivery keeps a slot settled, whether it is routed there or not. -/
theorem settled_delivery
    (h : Settled crypto codec link event payload (files (payload.slot link) payload.kind.storeKey))
    (event' : NostrEvent) (io : IntakeIo) :
    Settled crypto codec link event payload
      ((clauseDisposition crypto codec link io files event').2 (payload.slot link)
        payload.kind.storeKey) := by
  cases hdec : ClausePayload.fromJson codec event'.content with
  | error e => rwa [clauseDisposition_undecoded hdec]
  | ok payload' =>
    obtain ⟨d, f', hres, hcase⟩ := clauseDisposition_slot crypto codec link io files hdec
    rw [hres]
    dsimp only
    by_cases hsame : payload.slot link = payload'.slot link ∧
        payload.kind.storeKey = payload'.kind.storeKey
    · rw [← hsame.1, ← hsame.2] at hcase ⊢
      rw [ClauseFiles.set_self]
      exact h.step hcase
    · rwa [ClauseFiles.set_of_ne hsame]

theorem settled_deliveries
    (h : Settled crypto codec link event payload (files (payload.slot link) payload.kind.storeKey))
    (ds : List (NostrEvent × IntakeIo)) :
    Settled crypto codec link event payload
      (files.afterDeliveries crypto codec link ds (payload.slot link) payload.kind.storeKey) := by
  induction ds generalizing files with
  | nil => exact h
  | cons d ds ih => exact ih (settled_delivery h d.1 d.2)

/-- **Delivered again, a clause whose writes have landed changes no byte.** -/
theorem redelivery_same (ds : List (NostrEvent × IntakeIo)) :
    (clauseDisposition crypto codec link io
      (ClauseFiles.afterDeliveries crypto codec link
        (clauseDisposition crypto codec link .ok files event).2 ds) event).2 =
      ClauseFiles.afterDeliveries crypto codec link
        (clauseDisposition crypto codec link .ok files event).2 ds := by
  cases hdec : ClausePayload.fromJson codec event.content with
  | error e => rw [clauseDisposition_undecoded hdec]
  | ok payload =>
    obtain ⟨d, f', hres, hcase⟩ := clauseDisposition_slot crypto codec link .ok files hdec
    rw [hres]
    dsimp only
    have hsettled : Settled crypto codec link event payload
        (files.set (payload.slot link) payload.kind.storeKey f' (payload.slot link)
          payload.kind.storeKey) := by
      rw [ClauseFiles.set_self]
      exact .of_delivery hcase
    have hlater := settled_deliveries hsettled ds
    generalize ClauseFiles.afterDeliveries crypto codec link
      (files.set (payload.slot link) payload.kind.storeKey f') ds = later at hlater ⊢
    obtain ⟨d', f'', hres', hcase'⟩ := clauseDisposition_slot crypto codec link io later hdec
    rw [hres']
    dsimp only
    rw [hlater.unchanged hcase', ClauseFiles.set_same]

/-! ## Two clauses of one slot -/

variable {f f' : SlotFiles} {d : ClauseDisposition}

/-- A genuine clause that its floor admits is what the slot holds once its writes have landed. -/
theorem DeliveryCase.lands (hcase : DeliveryCase crypto codec link io f event payload d f')
    (hgenuine : GenuineClause crypto codec link.guardian event payload)
    {floor : Option ReplayFloor} (hfloor : (f.floorOf none).1 = .ok floor)
    (hnew : ∀ fl, floor = some fl → fl.admits payload.issuedAt = true)
    (hio : io.put.floor = none) (hdone : io.put.record = none) :
    f' = ⟨.ok (some ⟨payload.issuedAt, payload.body⟩), .ok (some payload.issuedAt)⟩ := by
  have hread : (f.floorOf io.read).1 = .ok floor := (f.floorOf_io io.read none).trans hfloor
  cases hcase with
  | unreadable e hfloor' =>
    rw [hread] at hfloor'
    cases hfloor'
  | refused floor' hfloor' hnot => exact absurd hgenuine hnot
  | stale d fl hfloor' _ hold hd =>
    rw [hread] at hfloor'
    rw [hnew fl (Except.ok.inj hfloor')] at hold
    cases hold
  | unwritten floor' hfloor' _ _ hcut => exact absurd hio hcut
  | raised floor' hfloor' _ _ hcut => exact absurd hdone hcut
  | stored floor' hfloor' _ _ _ _ => rfl

/-- A floor that admits an instant still does after any delivery of an earlier one. -/
theorem DeliveryCase.still_admits
    (hcase : DeliveryCase crypto codec link io f event payload d f') {n : Nat}
    (hlt : payload.issuedAt < n) {floor : Option ReplayFloor}
    (hfloor : (f.floorOf none).1 = .ok floor)
    (hnew : ∀ fl, floor = some fl → fl.admits n = true) :
    ∃ floor', (f'.floorOf none).1 = .ok floor' ∧
      ∀ fl, floor' = some fl → fl.admits n = true := by
  have hread : ∀ io, ((f.floorOf io).2.floorOf none).1 = .ok floor := by
    intro io
    rw [SlotFiles.floorOf_floorOf, hfloor]
  cases hcase with
  | unreadable e hfloor' => exact ⟨floor, hread _, hnew⟩
  | refused floor' hfloor' hnot => exact ⟨floor, hread _, hnew⟩
  | stale d fl hfloor' _ hold hd => exact ⟨floor, hread _, hnew⟩
  | unwritten floor' hfloor' _ _ hcut =>
    refine ⟨floor, ?_, hnew⟩
    rw [SlotFiles.floorOf_floorOf]
    exact hread _
  | raised floor' hfloor' _ hnew' hcut =>
    by_cases habsent : f.record = .ok none
    · refine ⟨none, ?_, fun fl hfl => by cases hfl⟩
      rw [habsent, SlotFiles.floorOf_absent rfl]
    · refine ⟨some (.sidecar payload.issuedAt), ?_, ?_⟩
      · rw [SlotFiles.floorOf_raised habsent fun r hr => SlotFiles.lt_of_admits hfloor' hnew' hr]
      · rintro fl ⟨⟩
        exact (ReplayFloor.admits_sidecar _ _).mpr hlt.le
  | stored floor' hfloor' _ _ _ _ =>
    refine ⟨some (.record payload.issuedAt), by rw [SlotFiles.floorOf_stored], ?_⟩
    rintro fl ⟨⟩
    exact (ReplayFloor.admits_record _ _).mpr hlt

/-- What holds a later clause is left alone by an earlier one. -/
theorem DeliveryCase.kept {n : Nat} {json : String} (hlt : payload.issuedAt < n)
    (hcase : DeliveryCase crypto codec link io ⟨.ok (some ⟨n, json⟩), .ok (some n)⟩ event payload d
      f') : f' = ⟨.ok (some ⟨n, json⟩), .ok (some n)⟩ := by
  have hnot : ∀ {floor}, (SlotFiles.floorOf ⟨.ok (some ⟨n, json⟩), .ok (some n)⟩ io.read).1 =
      .ok floor → ¬∀ fl, floor = some fl → fl.admits payload.issuedAt = true := by
    intro floor hfloor hnew
    rw [SlotFiles.floorOf_stored] at hfloor
    have hadmits := hnew (.record n) (Except.ok.inj hfloor).symm
    rw [ReplayFloor.admits_record] at hadmits
    omega
  cases hcase with
  | unreadable e hfloor => rw [SlotFiles.floorOf_stored]
  | refused floor hfloor _ => rw [SlotFiles.floorOf_stored]
  | stale d fl hfloor _ hold hd => rw [SlotFiles.floorOf_stored]
  | unwritten floor hfloor _ hnew hcut => exact absurd hnew (hnot hfloor)
  | raised floor hfloor _ hnew hcut => exact absurd hnew (hnot hfloor)
  | stored floor hfloor _ hnew _ _ => exact absurd hnew (hnot hfloor)

end Runs

/-! ## The acknowledgements -/

/-- **What the acknowledgements tell**, of the broker's stores as they are. -/
structure AckTells (crypto : Crypto) (codec : StandingCodec) (link : Link) (files : ClauseFiles) :
    Prop where
  /-- Applied: exactly what the slot holds now and did not hold before. -/
  applied : ∀ io event payload, ClausePayload.fromJson codec event.content = .ok payload →
    ((clauseDisposition crypto codec link io files event).1.ack = .applied ↔
      ((clauseDisposition crypto codec link io files event).2 (payload.slot link)
          payload.kind.storeKey).record = .ok (some ⟨payload.issuedAt, payload.body⟩) ∧
        (files (payload.slot link) payload.kind.storeKey).record ≠
          .ok (some ⟨payload.issuedAt, payload.body⟩))
  /-- What does not decode is refused, and nothing is touched. -/
  undecoded : ∀ io event e, ClausePayload.fromJson codec event.content = .error e →
    clauseDisposition crypto codec link io files event = (.refused, files)
  /-- Unchanged: the slot holds that instant with an equal body. -/
  unchanged : ∀ io event, (clauseDisposition crypto codec link io files event).1.ack = .unchanged →
    ∃ payload r, ClausePayload.fromJson codec event.content = .ok payload ∧
      (files (payload.slot link) payload.kind.storeKey).record = .ok (some r) ∧
      r.issuedAt = payload.issuedAt ∧ codec.value r.json = some payload.body
  /-- A clause whose writes have landed is never written again, whatever came in between. -/
  again : ∀ event ds io,
    let files' := ClauseFiles.afterDeliveries crypto codec link
      (clauseDisposition crypto codec link .ok files event).2 ds
    (clauseDisposition crypto codec link io files' event).2 = files'
  /-- Of two genuine clauses the later one stands, in either order. -/
  later : ∀ a b pa pb floor ioa iob, GenuineClause crypto codec link.guardian a pa →
    GenuineClause crypto codec link.guardian b pb → pa.slot link = pb.slot link →
    pa.kind = pb.kind → pa.issuedAt < pb.issuedAt →
    ((files (pb.slot link) pb.kind.storeKey).floorOf none).1 = .ok floor →
    (∀ fl, floor = some fl → fl.admits pb.issuedAt = true) →
    iob.put.floor = none → iob.put.record = none →
    (files.afterDeliveries crypto codec link [(a, ioa), (b, iob)] (pb.slot link)
        pb.kind.storeKey).record = .ok (some ⟨pb.issuedAt, pb.body⟩) ∧
      (files.afterDeliveries crypto codec link [(b, iob), (a, ioa)] (pb.slot link)
        pb.kind.storeKey).record = .ok (some ⟨pb.issuedAt, pb.body⟩)

/-- **A clause's acknowledgement tells the truth.** -/
theorem clause_ack_tells (crypto : Crypto) (codec : StandingCodec) (link : Link)
    (files : ClauseFiles) : AckTells crypto codec link files where
  applied io event payload hdec := by
    obtain ⟨d, f', hres, hcase⟩ := clauseDisposition_slot crypto codec link io files hdec
    rw [hres]
    dsimp only
    rw [ClauseFiles.set_self]
    have hkept : d.ack ≠ .applied → f'.record =
        (files (payload.slot link) payload.kind.storeKey).record → (d.ack = .applied ↔
          f'.record = .ok (some ⟨payload.issuedAt, payload.body⟩) ∧
            (files (payload.slot link) payload.kind.storeKey).record ≠
              .ok (some ⟨payload.issuedAt, payload.body⟩)) := by
      intro hnot hsame
      rw [hsame]
      exact iff_of_false hnot fun h => h.2 h.1
    cases hcase with
    | unreadable e hfloor =>
      refine hkept ?_ (SlotFiles.floorOf_record _)
      unfold unreadableFloorOutcome
      split <;> simp [ClauseDisposition.ack]
    | refused floor hfloor hnot => exact hkept (by decide) (SlotFiles.floorOf_record _)
    | stale d fl hfloor hgenuine hold hd =>
      refine hkept ?_ (SlotFiles.floorOf_record _)
      rcases hd with rfl | ⟨rfl, -⟩ <;> decide
    | unwritten floor hfloor hgenuine hnew hio =>
      refine hkept (by decide) ?_
      rw [SlotFiles.floorOf_record, SlotFiles.floorOf_record]
    | raised floor hfloor hgenuine hnew hcut => exact hkept (by decide) rfl
    | stored floor hfloor hgenuine hnew hio hdone =>
      refine iff_of_true rfl ⟨rfl, fun hheld => ?_⟩
      exact lt_irrefl _ (SlotFiles.lt_of_admits hfloor hnew hheld)
  undecoded io event e h := clauseDisposition_undecoded h
  unchanged io event hack := by
    cases hdec : ClausePayload.fromJson codec event.content with
    | error e =>
      rw [clauseDisposition_undecoded hdec] at hack
      cases hack
    | ok payload =>
      obtain ⟨d, f', hres, hcase⟩ := clauseDisposition_slot crypto codec link io files hdec
      rw [hres] at hack
      cases hcase with
      | unreadable e hfloor =>
        revert hack
        dsimp only
        unfold unreadableFloorOutcome
        split <;> simp [ClauseDisposition.ack]
      | refused floor hfloor hnot => cases hack
      | stale d fl hfloor hgenuine hold hd =>
        rcases hd with rfl | ⟨rfl, r, hr, hissued, hbody⟩
        · cases hack
        · exact ⟨payload, r, rfl, hr, hissued, hbody⟩
      | unwritten floor hfloor hgenuine hnew hio => cases hack
      | raised floor hfloor hgenuine hnew hcut => cases hack
      | stored floor hfloor hgenuine hnew hio hdone => cases hack
  again event ds io := redelivery_same ds
  later a b pa pb floor ioa iob ha hb hslot hkind hlt hfloor hnew hio hdone := by
    have hset : ∀ f : SlotFiles, files.set (pa.slot link) pa.kind.storeKey f (pb.slot link)
        pb.kind.storeKey = f := by
      intro f
      rw [← hslot, ← hkind, ClauseFiles.set_self]
    constructor
    · obtain ⟨d, f', hres, hcase⟩ :=
        clauseDisposition_slot crypto codec link ioa files ha.decoded
      rw [hslot, hkind] at hcase
      obtain ⟨floor', hfloor', hnew'⟩ := hcase.still_admits hlt hfloor hnew
      unfold ClauseFiles.afterDeliveries
      rw [List.foldl_cons, List.foldl_cons, List.foldl_nil, hres]
      dsimp only
      obtain ⟨d', f'', hres', hcase'⟩ := clauseDisposition_slot crypto codec link iob
        (files.set (pa.slot link) pa.kind.storeKey f') hb.decoded
      rw [hset] at hcase'
      rw [hres']
      dsimp only
      rw [ClauseFiles.set_self, hcase'.lands hb hfloor' hnew' hio hdone]
    · obtain ⟨d, f', hres, hcase⟩ :=
        clauseDisposition_slot crypto codec link iob files hb.decoded
      obtain rfl := hcase.lands hb hfloor hnew hio hdone
      unfold ClauseFiles.afterDeliveries
      rw [List.foldl_cons, List.foldl_cons, List.foldl_nil, hres]
      dsimp only
      obtain ⟨d', f'', hres', hcase'⟩ := clauseDisposition_slot crypto codec link ioa
        (files.set (pb.slot link) pb.kind.storeKey _) ha.decoded
      rw [hres']
      dsimp only
      rw [hslot, hkind, ClauseFiles.set_self] at hcase'
      rw [hslot, hkind, ClauseFiles.set_self, hcase'.kept hlt]

/-- A clause whose record write failed is written when it comes again. -/
theorem failed_write_comes_again :
    let files := (clauseDisposition genuineCrypto scheduleCodec deviceLink ⟨none, cutBetween⟩
      .empty (scheduleEvent "5")).2
    (files (.child deviceLink.subject) ClauseKind.schedule.storeKey).record = .ok none ∧
      ((clauseDisposition genuineCrypto scheduleCodec deviceLink .ok files
        (scheduleEvent "5")).2 (.child deviceLink.subject) ClauseKind.schedule.storeKey).record =
        .ok (some ⟨5, "\x7b\x7d"⟩) := by
  decide +kernel

end Kintrinsic
