import Kintrinsic.ClauseAck

/-! # The warden's own clause intake

The Android warden verifies and stores a polled clause itself, beside the broker that its local
link uses.  It asks for an instant above the highest that the slot has vouched for, where the
broker lets the clause of a torn record in again; and it files every clause under its ward. -/
namespace Kintrinsic

/-- What the warden is paired with. -/
structure WardenPairing where
  guardian : Option PubKey
  subject : Option PubKey
deriving DecidableEq

/-- The `reason` of a result. -/
inductive IngestReason
  | stored
  | notPaired
  | wrongEventKind
  | malformedPayload
  | noSubject
  | floorUnreadable
  | rollback
  | storeError (e : SysError)
  | verifyFailed (e : ClauseError)
deriving DecidableEq

/-- The derived `Debug` of an error of `verify_clause`. -/
def ClauseError.debug : ClauseError → String
  | malformed => "Malformed"
  | badSignature => "BadSignature"
  | untrustedSigner => "UntrustedSigner"
  | staleIssuedAt => "StaleIssuedAt"
  | badShape => "BadShape"

/-- The text of a reason; `debug` is the derived `Debug` of a store's error. -/
def IngestReason.text (debug : SysError → String) : IngestReason → String
  | stored => "stored"
  | notPaired => "not paired"
  | wrongEventKind => "wrong event kind"
  | malformedPayload => "malformed clause payload"
  | noSubject => "no subject and no sole ward"
  | floorUnreadable => "replay floor unreadable"
  | rollback => "rollback (stale issuedAt)"
  | storeError e => "store error: " ++ debug e
  | verifyFailed e => "verify failed: " ++ e.debug

/-- `dto::ClauseResult`. -/
structure ClauseResult where
  accepted : Bool
  kind : Option ClauseKind
  subject : Option PubKey
  reason : IngestReason
deriving DecidableEq

def ClauseResult.reject (reason : IngestReason) : ClauseResult := ⟨false, none, none, reason⟩

/-- What the put of a verified clause comes to. -/
def ClauseResult.ofPut (kind : ClauseKind) (subject : PubKey) : Except SysError Bool → ClauseResult
  | .ok true => ⟨true, some kind, some subject, .stored⟩
  | .ok false => reject .rollback
  | .error e => reject (.storeError e)

section Intake
variable (crypto : Crypto) (codec : StandingCodec)

/-- `ingest_clause_event`. -/
def ingestClauseEvent (pairing : WardenPairing) (io : IntakeIo) (files : ClauseFiles)
    (event : NostrEvent) : ClauseResult × ClauseFiles :=
  match pairing.guardian with
  | none => (.reject .notPaired, files)
  | some guardian =>
    if event.kind ≠ Kinds.charterDeviceClause then (.reject .wrongEventKind, files)
    else
      match ClausePayload.fromJson codec event.content with
      | .error _ => (.reject .malformedPayload, files)
      | .ok payload =>
        match payload.subject.or pairing.subject with
        | none => (.reject .noSubject, files)
        | some subject =>
          match files.highestIssuedAt io.read (.child subject) payload.kind.storeKey with
          | (.error _, files) => (.reject .floorUnreadable, files)
          | (.ok prev, files) =>
            match verifyClause crypto codec event guardian payload.kind prev with
            | .error e => (.reject (.verifyFailed e), files)
            | .ok vc =>
              let r := files.put io.put (.child subject) payload.kind.storeKey vc.issuedAt vc.body
              (.ofPut payload.kind subject r.1, r.2)

end Intake

/-! ## What shows of a put -/

/-- Slots that read alike: the same record under the same replay floor. -/
structure SlotFiles.Alike (f f' : SlotFiles) : Prop where
  record : f.record = f'.record
  floor : (f.floorOf none).1 = (f'.floorOf none).1

/-- Stores whose slots all read alike. -/
def ClauseFiles.Alike (files files' : ClauseFiles) : Prop :=
  ∀ slot key, (files slot key).Alike (files' slot key)

namespace SlotFiles
variable {f f' f'' : SlotFiles}

theorem Alike.refl (f : SlotFiles) : f.Alike f := ⟨rfl, rfl⟩

theorem Alike.symm (h : f.Alike f') : f'.Alike f := ⟨h.record.symm, h.floor.symm⟩

theorem Alike.trans (h : f.Alike f') (h' : f'.Alike f'') : f.Alike f'' :=
  ⟨h.record.trans h'.record, h.floor.trans h'.floor⟩

/-- Reading the floor shows in nothing. -/
theorem alike_floorOf (f : SlotFiles) (io : Option SysError) : f.Alike (f.floorOf io).2 :=
  ⟨(f.floorOf_record io).symm, (f.floorOf_floorOf io none).symm⟩

/-- The floor reads, and lets the instant in: the broker's bar. -/
def LetsIn (f : SlotFiles) (n : Nat) : Prop :=
  ∃ floor, (f.floorOf none).1 = .ok floor ∧ ∀ fl, floor = some fl → fl.admits n = true

/-- The floor reads, and the instant is above it: the warden's bar. -/
def IsBelow (f : SlotFiles) (n : Nat) : Prop :=
  ∃ floor, (f.floorOf none).1 = .ok floor ∧ ∀ fl, floor = some fl → fl.issuedAt < n

/-- A put that its floor lets in changes what the slot reads: the record is written, or a floor
that was not this one is raised. -/
def Shows (f : SlotFiles) (io : SlotIo) (n : Nat) : Prop :=
  io.floor = none ∧ (io.record = none ∨
    f.record ≠ .ok none ∧ (f.floorOf none).1 ≠ .ok (some (.sidecar n)))

theorem IsBelow.letsIn {n : Nat} (h : f.IsBelow n) : f.LetsIn n := by
  obtain ⟨floor, hfloor, hbelow⟩ := h
  refine ⟨floor, hfloor, fun fl hfl => ?_⟩
  have hlt := hbelow fl hfl
  cases fl with
  | record m => exact (ReplayFloor.admits_record m n).mpr hlt
  | sidecar m => exact (ReplayFloor.admits_sidecar m n).mpr hlt.le

/-- **What shows of a put** that its floor lets in. -/
theorem put_alike_iff {n : Nat} (h : f.LetsIn n) (read : Option SysError) (io : SlotIo)
    (json : String) : ((f.floorOf read).2.put io n json).2.Alike f ↔ ¬f.Shows io n := by
  obtain ⟨floor, hfloor, hnew⟩ := h
  have hread : ((f.floorOf read).2.floorOf io.backfill).1 = .ok floor := by
    rw [floorOf_floorOf, f.floorOf_io _ none, hfloor]
  have hbelow : ∀ r, f.record = .ok (some r) → r.issuedAt < n :=
    fun r hr => lt_of_admits hfloor hnew hr
  have hacc := accepts_of_new hread hnew
  cases put_cases (f.floorOf read).2 io n json with
  | unread e hfloor' _ _ =>
    rw [hread] at hfloor'
    cases hfloor'
  | refused fl hfloor' hold _ _ =>
    rw [hread] at hfloor'
    rw [hnew fl (Except.ok.inj hfloor')] at hold
    cases hold
  | unwritten e floor' _ _ haccepts hput =>
    rw [hput]
    refine iff_of_true ((alike_floorOf f read).trans (alike_floorOf _ _)).symm ?_
    rintro ⟨hio, -⟩
    rw [haccepts, if_pos hio] at hacc
    cases hacc
  | raised e floor' _ _ hio hcut _ hput =>
    rw [hput, floorOf_record, floorOf_record]
    by_cases habsent : f.record = .ok none
    · refine iff_of_true ⟨rfl, ?_⟩ ?_
      · rw [habsent, floorOf_absent rfl, floorOf_absent habsent]
      · rintro ⟨-, hdone | ⟨hsome, -⟩⟩
        · rw [hcut] at hdone
          cases hdone
        · exact hsome habsent
    · have hraised := floorOf_raised habsent hbelow none
      constructor
      · rintro halike ⟨-, hdone | ⟨-, hne⟩⟩
        · rw [hcut] at hdone
          cases hdone
        · refine hne (halike.floor.symm.trans ?_)
          rw [hraised]
      · intro hnot
        refine ⟨rfl, ?_⟩
        rw [hraised]
        by_contra hne
        exact hnot ⟨hio, .inr ⟨habsent, fun heq => hne heq.symm⟩⟩
  | stored floor' _ _ haccepts hput =>
    rw [hput]
    by_cases hio : io.floor = none
    · rw [haccepts, if_pos hio, Option.some.injEq] at hacc
      refine iff_of_false (fun halike => ?_) (not_not.mpr ⟨hio, .inl ?_⟩)
      · exact lt_irrefl _ (hbelow _ halike.record.symm)
      · exact Option.isNone_iff_eq_none.mp hacc.symm
    · rw [haccepts, if_neg hio] at hacc
      cases hacc

/-- A put that is accepted shows. -/
theorem shows_of_stored {n : Nat} (h : f.LetsIn n) (read : Option SysError) (io : SlotIo)
    (json : String) (hput : ((f.floorOf read).2.put io n json).1 = .ok true) : f.Shows io n := by
  obtain ⟨floor, hfloor, hnew⟩ := id h
  by_contra hnot
  have halike := (put_alike_iff h read io json).mpr hnot
  rcases put_record (f.floorOf read).2 io n json with ⟨hne, -⟩ | ⟨-, hrecord⟩
  · exact hne hput
  · exact lt_irrefl n (lt_of_admits hfloor hnew (halike.record.symm.trans hrecord))

end SlotFiles

/-! ## The two intakes -/

section Compare
variable {crypto : Crypto} {codec : StandingCodec} {link : Link} {io : IntakeIo}
variable {files : ClauseFiles} {event : NostrEvent} {payload : ClausePayload}

/-- What the put of a verified clause comes to at the broker. -/
def ClauseDisposition.ofPut : Except SysError Bool → ClauseDisposition
  | .ok true => .stored
  | .ok false => .superseded
  | .error _ => .writeFailed

/-- The slot the warden files a clause in. -/
def ClausePayload.wardSlot (link : Link) (payload : ClausePayload) : ClauseSlot :=
  .child (payload.subject.getD link.subject)

/-- The pairing of the warden whose broker is bound to `link`. -/
def Link.pairing (link : Link) : WardenPairing := ⟨some link.guardian, some link.subject⟩

theorem or_some_getD {α : Type} (a : Option α) (b : α) : a.or (some b) = some (a.getD b) := by
  cases a <;> rfl

variable (io) in
/-- Where the broker takes a clause past its floor, the rest is the put. -/
theorem clauseDisposition_letsIn
    (hgenuine : GenuineClause crypto codec link.guardian event payload)
    (h : (files (payload.slot link) payload.kind.storeKey).LetsIn payload.issuedAt) :
    let f := files (payload.slot link) payload.kind.storeKey
    let p := (f.floorOf io.read).2.put io.put payload.issuedAt payload.body
    clauseDisposition crypto codec link io files event =
      (.ofPut p.1, files.set (payload.slot link) payload.kind.storeKey p.2) := by
  obtain ⟨floor, hfloor, hnew⟩ := h
  unfold clauseDisposition
  rw [hgenuine.decoded]
  dsimp only
  generalize payload.slot link = slot at hfloor ⊢
  generalize payload.kind.storeKey = key at hfloor ⊢
  have hread : files.replayFloor io.read slot key =
      (.ok floor, files.set slot key ((files slot key).floorOf io.read).2) := by
    unfold ClauseFiles.replayFloor SlotFiles.replayFloor
    rw [← hfloor, (files slot key).floorOf_io none io.read]
  have hany : ¬(floor.any fun fl => !fl.admits payload.issuedAt) = true := by
    cases floor with
    | none => exact Bool.false_ne_true
    | some fl => simp [hnew fl rfl]
  rw [hread]
  dsimp only
  rw [hgenuine.verify floor, if_neg hany]
  unfold ClauseFiles.put ClausePayload.verified
  dsimp only
  rw [ClauseFiles.set_self, ClauseFiles.set_set]
  generalize SlotFiles.put _ io.put payload.issuedAt payload.body = p
  obtain ⟨outcome, f'⟩ := p
  rcases outcome with e | _ | _ <;> rfl

variable (crypto io files) in
/-- Where the broker's floor keeps a clause out, or the clause is not genuine, nothing shows. -/
theorem clauseDisposition_kept (hdec : ClausePayload.fromJson codec event.content = .ok payload)
    (h : ¬(GenuineClause crypto codec link.guardian event payload ∧
      (files (payload.slot link) payload.kind.storeKey).LetsIn payload.issuedAt)) :
    (clauseDisposition crypto codec link io files event).1 ≠ .stored ∧
      (clauseDisposition crypto codec link io files event).2.Alike files := by
  obtain ⟨d, f', hres, hcase⟩ := clauseDisposition_slot crypto codec link io files hdec
  have hopen : ∀ {floor}, GenuineClause crypto codec link.guardian event payload →
      ((files (payload.slot link) payload.kind.storeKey).floorOf io.read).1 = .ok floor →
      ¬∀ fl, floor = some fl → fl.admits payload.issuedAt = true := by
    intro floor hgenuine hfloor hnew
    refine h ⟨hgenuine, floor, ?_, hnew⟩
    rw [SlotFiles.floorOf_io _ none io.read, hfloor]
  have halike : f' = ((files (payload.slot link) payload.kind.storeKey).floorOf io.read).2 →
      (files.set (payload.slot link) payload.kind.storeKey f').Alike files := by
    rintro rfl slot key
    by_cases hsame : slot = payload.slot link ∧ key = payload.kind.storeKey
    · obtain ⟨rfl, rfl⟩ := hsame
      rw [ClauseFiles.set_self]
      exact (SlotFiles.alike_floorOf _ _).symm
    · rw [ClauseFiles.set_of_ne hsame]
      exact .refl _
  rw [hres]
  cases hcase with
  | unreadable e hfloor =>
    refine ⟨?_, halike rfl⟩
    unfold unreadableFloorOutcome
    dsimp only
    split <;> simp
  | refused floor hfloor hnot => exact ⟨by simp, halike rfl⟩
  | stale d fl hfloor hgenuine hold hd =>
    refine ⟨?_, halike rfl⟩
    rcases hd with rfl | ⟨rfl, -⟩ <;> simp
  | unwritten floor hfloor hgenuine hnew _ => exact absurd hnew (hopen hgenuine hfloor)
  | raised floor hfloor hgenuine hnew _ => exact absurd hnew (hopen hgenuine hfloor)
  | stored floor hfloor hgenuine hnew _ _ => exact absurd hnew (hopen hgenuine hfloor)

/-- A genuine clause travels under the clause kind. -/
theorem GenuineClause.event_kind (h : GenuineClause crypto codec link.guardian event payload) :
    event.kind = Kinds.charterDeviceClause := by
  by_contra hkind
  have hok := h.verifies
  unfold verifyClause at hok
  rw [if_pos hkind] at hok
  cases hok

/-- What the warden makes of a decoded clause of the right kind. -/
theorem ingestClauseEvent_decoded (hkind : event.kind = Kinds.charterDeviceClause)
    (hdec : ClausePayload.fromJson codec event.content = .ok payload) :
    ingestClauseEvent crypto codec link.pairing io files event =
      match files.highestIssuedAt io.read (payload.wardSlot link) payload.kind.storeKey with
      | (.error _, files) => (.reject .floorUnreadable, files)
      | (.ok prev, files) =>
        match verifyClause crypto codec event link.guardian payload.kind prev with
        | .error e => (.reject (.verifyFailed e), files)
        | .ok vc =>
          let r := files.put io.put (payload.wardSlot link) payload.kind.storeKey vc.issuedAt vc.body
          (.ofPut payload.kind (payload.subject.getD link.subject) r.1, r.2) := by
  unfold ingestClauseEvent Link.pairing
  dsimp only
  rw [if_neg (not_not.mpr hkind), hdec]
  dsimp only
  rw [or_some_getD]
  rfl

theorem highestIssuedAt_read {slot : ClauseSlot} {key : Nat} {floor : Option ReplayFloor}
    (h : ((files slot key).floorOf none).1 = .ok floor) (io : Option SysError) :
    files.highestIssuedAt io slot key = (.ok (floor.map ReplayFloor.issuedAt),
      files.set slot key ((files slot key).floorOf io).2) := by
  unfold ClauseFiles.highestIssuedAt SlotFiles.highestIssuedAt
  rw [SlotFiles.floorOf_io _ none io] at h
  generalize (files slot key).floorOf io = r at h ⊢
  obtain ⟨answer, f'⟩ := r
  obtain rfl : answer = .ok floor := h
  rfl

variable (io) in
/-- Where the warden takes a clause past its floor, the rest is the put. -/
theorem ingestClauseEvent_isBelow
    (hgenuine : GenuineClause crypto codec link.guardian event payload)
    (h : (files (payload.wardSlot link) payload.kind.storeKey).IsBelow payload.issuedAt) :
    let f := files (payload.wardSlot link) payload.kind.storeKey
    let p := (f.floorOf io.read).2.put io.put payload.issuedAt payload.body
    ingestClauseEvent crypto codec link.pairing io files event =
      (.ofPut payload.kind (payload.subject.getD link.subject) p.1,
        files.set (payload.wardSlot link) payload.kind.storeKey p.2) := by
  obtain ⟨floor, hfloor, hbelow⟩ := h
  rw [ingestClauseEvent_decoded hgenuine.event_kind hgenuine.decoded]
  generalize payload.wardSlot link = slot at hfloor ⊢
  generalize payload.kind.storeKey = key at hfloor ⊢
  have hany : ¬((floor.map ReplayFloor.issuedAt).any (payload.verified.issuedAt ≤ ·)) = true := by
    cases floor with
    | none => exact Bool.false_ne_true
    | some fl =>
      rw [Option.map_some, Option.any_some, decide_eq_true_iff]
      exact not_le.mpr (hbelow fl rfl)
  rw [highestIssuedAt_read hfloor]
  dsimp only
  rw [verifyClause_bound _ hgenuine.verifies, if_neg hany]
  unfold ClauseFiles.put ClausePayload.verified
  dsimp only
  rw [ClauseFiles.set_self, ClauseFiles.set_set]

variable (crypto io files) in
/-- Where the slot has vouched for as much, or the clause is not genuine, nothing shows. -/
theorem ingestClauseEvent_kept (hdec : ClausePayload.fromJson codec event.content = .ok payload)
    (h : ¬(GenuineClause crypto codec link.guardian event payload ∧
      (files (payload.wardSlot link) payload.kind.storeKey).IsBelow payload.issuedAt)) :
    (ingestClauseEvent crypto codec link.pairing io files event).1.accepted = false ∧
      (ingestClauseEvent crypto codec link.pairing io files event).2.Alike files := by
  have halike : ∀ slot key, (files.set slot key ((files slot key).floorOf io.read).2).Alike
      files := by
    intro slot key s k
    by_cases hsame : s = slot ∧ k = key
    · obtain ⟨rfl, rfl⟩ := hsame
      rw [ClauseFiles.set_self]
      exact (SlotFiles.alike_floorOf _ _).symm
    · rw [ClauseFiles.set_of_ne hsame]
      exact .refl _
  by_cases hkind : event.kind = Kinds.charterDeviceClause
  · rw [ingestClauseEvent_decoded hkind hdec]
    generalize payload.wardSlot link = slot at h ⊢
    generalize payload.kind.storeKey = key at h ⊢
    cases hfloor : ((files slot key).floorOf none).1 with
    | error e =>
      have hread : files.highestIssuedAt io.read slot key =
          (.error e, files.set slot key ((files slot key).floorOf io.read).2) := by
        unfold ClauseFiles.highestIssuedAt SlotFiles.highestIssuedAt
        rw [SlotFiles.floorOf_io _ none io.read] at hfloor
        generalize (files slot key).floorOf io.read = r at hfloor ⊢
        obtain ⟨answer, f'⟩ := r
        obtain rfl : answer = .error e := hfloor
        rfl
      rw [hread]
      exact ⟨rfl, halike slot key⟩
    | ok floor =>
      rw [highestIssuedAt_read hfloor]
      dsimp only
      rcases genuine_or_refused crypto link.guardian hdec with
        hgenuine | ⟨-, e, -, hrefused⟩
      · have hany : ((floor.map ReplayFloor.issuedAt).any (payload.verified.issuedAt ≤ ·)) =
            true := by
          by_contra hnot
          refine h ⟨hgenuine, floor, hfloor, ?_⟩
          rintro fl rfl
          rw [Option.map_some, Option.any_some, decide_eq_true_iff] at hnot
          exact not_le.mp hnot
        rw [verifyClause_bound _ hgenuine.verifies, if_pos hany]
        exact ⟨rfl, halike slot key⟩
      · rw [hrefused]
        exact ⟨rfl, halike slot key⟩
  · unfold ingestClauseEvent Link.pairing
    dsimp only
    rw [if_pos hkind]
    exact ⟨rfl, fun slot key => .refl _⟩

variable (crypto io files) in
/-- **The broker leaves what it does not show**: a clause that is not stored and stores that read
as before. -/
theorem clauseDisposition_quiet (hdec : ClausePayload.fromJson codec event.content = .ok payload)
    (h : ¬(GenuineClause crypto codec link.guardian event payload ∧
      (files (payload.slot link) payload.kind.storeKey).LetsIn payload.issuedAt ∧
      (files (payload.slot link) payload.kind.storeKey).Shows io.put payload.issuedAt)) :
    (clauseDisposition crypto codec link io files event).1 ≠ .stored ∧
      (clauseDisposition crypto codec link io files event).2.Alike files := by
  by_cases hopen : GenuineClause crypto codec link.guardian event payload ∧
      (files (payload.slot link) payload.kind.storeKey).LetsIn payload.issuedAt
  · obtain ⟨hgenuine, hlets⟩ := hopen
    have hnot := fun hshows => h ⟨hgenuine, hlets, hshows⟩
    rw [clauseDisposition_letsIn io hgenuine hlets]
    refine ⟨?_, fun s k => ?_⟩
    · have hput := mt (SlotFiles.shows_of_stored hlets io.read io.put payload.body) hnot
      revert hput
      dsimp only
      generalize (SlotFiles.put _ io.put payload.issuedAt payload.body).1 = outcome
      rcases outcome with e | _ | _ <;> simp [ClauseDisposition.ofPut]
    · by_cases hsame : s = payload.slot link ∧ k = payload.kind.storeKey
      · obtain ⟨rfl, rfl⟩ := hsame
        dsimp only
        rw [ClauseFiles.set_self]
        exact (SlotFiles.put_alike_iff hlets _ _ _).mpr hnot
      · dsimp only
        rw [ClauseFiles.set_of_ne hsame]
        exact .refl _
  · exact clauseDisposition_kept crypto io files hdec hopen

/-- What the broker shows, it shows in the clause's slot. -/
theorem clauseDisposition_shows
    (hgenuine : GenuineClause crypto codec link.guardian event payload)
    (hlets : (files (payload.slot link) payload.kind.storeKey).LetsIn payload.issuedAt)
    (hshows : (files (payload.slot link) payload.kind.storeKey).Shows io.put payload.issuedAt) :
    ¬((clauseDisposition crypto codec link io files event).2 (payload.slot link)
      payload.kind.storeKey).Alike (files (payload.slot link) payload.kind.storeKey) := by
  rw [clauseDisposition_letsIn io hgenuine hlets]
  dsimp only
  rw [ClauseFiles.set_self, SlotFiles.put_alike_iff hlets]
  exact not_not.mpr hshows

variable (crypto io files) in
theorem clauseDisposition_other (hdec : ClausePayload.fromJson codec event.content = .ok payload)
    {slot : ClauseSlot} (h : slot ≠ payload.slot link) (key : Nat) :
    (clauseDisposition crypto codec link io files event).2 slot key = files slot key := by
  obtain ⟨d, f', hres, -⟩ := clauseDisposition_slot crypto codec link io files hdec
  rw [hres]
  exact ClauseFiles.set_of_ne fun hsame => h hsame.1

variable (crypto io files) in
/-- **The warden leaves what it does not show.** -/
theorem ingestClauseEvent_quiet (hdec : ClausePayload.fromJson codec event.content = .ok payload)
    (h : ¬(GenuineClause crypto codec link.guardian event payload ∧
      (files (payload.wardSlot link) payload.kind.storeKey).IsBelow payload.issuedAt ∧
      (files (payload.wardSlot link) payload.kind.storeKey).Shows io.put payload.issuedAt)) :
    (ingestClauseEvent crypto codec link.pairing io files event).1.accepted = false ∧
      (ingestClauseEvent crypto codec link.pairing io files event).2.Alike files := by
  by_cases hopen : GenuineClause crypto codec link.guardian event payload ∧
      (files (payload.wardSlot link) payload.kind.storeKey).IsBelow payload.issuedAt
  · obtain ⟨hgenuine, hbelow⟩ := hopen
    have hnot := fun hshows => h ⟨hgenuine, hbelow, hshows⟩
    rw [ingestClauseEvent_isBelow io hgenuine hbelow]
    refine ⟨?_, fun s k => ?_⟩
    · have hput := mt (SlotFiles.shows_of_stored hbelow.letsIn io.read io.put payload.body) hnot
      revert hput
      dsimp only
      generalize (SlotFiles.put _ io.put payload.issuedAt payload.body).1 = outcome
      rcases outcome with e | _ | _ <;> simp [ClauseResult.ofPut, ClauseResult.reject]
    · by_cases hsame : s = payload.wardSlot link ∧ k = payload.kind.storeKey
      · obtain ⟨rfl, rfl⟩ := hsame
        dsimp only
        rw [ClauseFiles.set_self]
        exact (SlotFiles.put_alike_iff hbelow.letsIn _ _ _).mpr hnot
      · dsimp only
        rw [ClauseFiles.set_of_ne hsame]
        exact .refl _
  · exact ingestClauseEvent_kept crypto io files hdec hopen

/-- What the warden shows, it shows in its ward's slot. -/
theorem ingestClauseEvent_shows
    (hgenuine : GenuineClause crypto codec link.guardian event payload)
    (hbelow : (files (payload.wardSlot link) payload.kind.storeKey).IsBelow payload.issuedAt)
    (hshows : (files (payload.wardSlot link) payload.kind.storeKey).Shows io.put payload.issuedAt) :
    ¬((ingestClauseEvent crypto codec link.pairing io files event).2 (payload.wardSlot link)
      payload.kind.storeKey).Alike (files (payload.wardSlot link) payload.kind.storeKey) := by
  rw [ingestClauseEvent_isBelow io hgenuine hbelow]
  dsimp only
  rw [ClauseFiles.set_self, SlotFiles.put_alike_iff hbelow.letsIn]
  exact not_not.mpr hshows

/-- The other slots read as before. -/
theorem ingestClauseEvent_other (hgenuine : GenuineClause crypto codec link.guardian event payload)
    {slot : ClauseSlot} (h : slot ≠ payload.wardSlot link) (key : Nat) :
    ((ingestClauseEvent crypto codec link.pairing io files event).2 slot key).Alike
      (files slot key) := by
  by_cases hbelow : (files (payload.wardSlot link) payload.kind.storeKey).IsBelow payload.issuedAt
  · rw [ingestClauseEvent_isBelow io hgenuine hbelow]
    dsimp only
    rw [ClauseFiles.set_of_ne fun hsame => h hsame.1]
    exact .refl _
  · exact (ingestClauseEvent_kept crypto io files hgenuine.decoded
      fun hboth => hbelow hboth.2).2 slot key

/-! ## Where they agree -/

/-- The two intakes store or refuse alike, and leave stores that read alike. -/
structure IntakesAgree (crypto : Crypto) (codec : StandingCodec) (link : Link) (io : IntakeIo)
    (files : ClauseFiles) (event : NostrEvent) : Prop where
  answers : (clauseDisposition crypto codec link io files event).1 = .stored ↔
    (ingestClauseEvent crypto codec link.pairing io files event).1.accepted = true
  stores : (clauseDisposition crypto codec link io files event).2.Alike
    (ingestClauseEvent crypto codec link.pairing io files event).2

/-- Where both file a genuine clause in one slot, no sidecar there stands at its very instant; where
they file it in two, neither slot shows it. -/
structure Unconfused (link : Link) (io : IntakeIo) (files : ClauseFiles) (payload : ClausePayload) :
    Prop where
  sameSlot : payload.slot link = payload.wardSlot link →
    (files (payload.slot link) payload.kind.storeKey).LetsIn payload.issuedAt →
      (files (payload.slot link) payload.kind.storeKey).Shows io.put payload.issuedAt →
        ((files (payload.slot link) payload.kind.storeKey).floorOf none).1 ≠
          .ok (some (.sidecar payload.issuedAt))
  machineWide : payload.slot link ≠ payload.wardSlot link →
    ¬((files (payload.slot link) payload.kind.storeKey).LetsIn payload.issuedAt ∧
      (files (payload.slot link) payload.kind.storeKey).Shows io.put payload.issuedAt)
  wards : payload.slot link ≠ payload.wardSlot link →
    ¬((files (payload.wardSlot link) payload.kind.storeKey).IsBelow payload.issuedAt ∧
      (files (payload.wardSlot link) payload.kind.storeKey).Shows io.put payload.issuedAt)

/-- Between the two bars there is one floor. -/
theorem SlotFiles.isBelow_iff {f : SlotFiles} {n : Nat} :
    f.IsBelow n ↔ f.LetsIn n ∧ (f.floorOf none).1 ≠ .ok (some (.sidecar n)) := by
  constructor
  · rintro h
    refine ⟨h.letsIn, fun hat => ?_⟩
    obtain ⟨floor, hfloor, hbelow⟩ := h
    rw [hat] at hfloor
    exact lt_irrefl n (hbelow _ (Except.ok.inj hfloor).symm)
  · rintro ⟨⟨floor, hfloor, hnew⟩, hnot⟩
    refine ⟨floor, hfloor, ?_⟩
    rintro fl rfl
    have hadmits := hnew fl rfl
    cases fl with
    | record m => exact (ReplayFloor.admits_record m n).mp hadmits
    | sidecar m =>
      have hle := (ReplayFloor.admits_sidecar m n).mp hadmits
      refine lt_of_le_of_ne hle ?_
      rintro rfl
      exact hnot hfloor

/-- One slot: the bars differ at one floor. -/
theorem agree_of_one_slot (hgenuine : GenuineClause crypto codec link.guardian event payload)
    (hslot : payload.slot link = payload.wardSlot link) :
    IntakesAgree crypto codec link io files event ↔ Unconfused link io files payload := by
  have hdec := hgenuine.decoded
  have hunconfused : Unconfused link io files payload ↔
      ((files (payload.slot link) payload.kind.storeKey).LetsIn payload.issuedAt →
        (files (payload.slot link) payload.kind.storeKey).Shows io.put payload.issuedAt →
          ((files (payload.slot link) payload.kind.storeKey).floorOf none).1 ≠
            .ok (some (.sidecar payload.issuedAt))) :=
    ⟨fun h => h.sameSlot hslot,
      fun h => ⟨fun _ => h, fun hne => absurd hslot hne, fun hne => absurd hslot hne⟩⟩
  rw [hunconfused]
  by_cases hbelow : (files (payload.wardSlot link) payload.kind.storeKey).IsBelow payload.issuedAt
  · -- past both bars the rest is one put
    refine iff_of_true ?_ fun _ _ => ?_
    · have hbroker := clauseDisposition_letsIn io hgenuine (hslot ▸ hbelow.letsIn)
      rw [hslot] at hbroker
      have hwarden := ingestClauseEvent_isBelow io hgenuine hbelow
      constructor
      · rw [hbroker, hwarden]
        dsimp only
        generalize (SlotFiles.put _ io.put payload.issuedAt payload.body).1 = outcome
        rcases outcome with e | _ | _ <;>
          simp [ClauseDisposition.ofPut, ClauseResult.ofPut, ClauseResult.reject]
      · rw [hbroker, hwarden]
        exact fun slot key => .refl _
    · rw [hslot]
      exact (SlotFiles.isBelow_iff.mp hbelow).2
  · obtain ⟨hrefused, hwarden⟩ := ingestClauseEvent_kept crypto io files hdec
      fun h => hbelow h.2
    rw [SlotFiles.isBelow_iff, ← hslot] at hbelow
    by_cases hboth : (files (payload.slot link) payload.kind.storeKey).LetsIn payload.issuedAt ∧
        (files (payload.slot link) payload.kind.storeKey).Shows io.put payload.issuedAt
    · refine iff_of_false (fun hagree => ?_) fun h => hbelow ⟨hboth.1, h hboth.1 hboth.2⟩
      exact clauseDisposition_shows hgenuine hboth.1 hboth.2
        ((hagree.stores _ _).trans (hwarden _ _))
    · obtain ⟨hnot, hbroker⟩ := clauseDisposition_quiet crypto io files hdec
        fun h => hboth h.2
      refine iff_of_true ⟨iff_of_false hnot (by simp [hrefused]), ?_⟩ fun hlets hshows =>
        absurd ⟨hlets, hshows⟩ hboth
      exact fun slot key => (hbroker slot key).trans (hwarden slot key).symm

/-- Two slots: what either intake shows, the other does not. -/
theorem agree_of_two_slots (hgenuine : GenuineClause crypto codec link.guardian event payload)
    (hslot : payload.slot link ≠ payload.wardSlot link) :
    IntakesAgree crypto codec link io files event ↔ Unconfused link io files payload := by
  have hdec := hgenuine.decoded
  constructor
  · intro hagree
    refine ⟨fun hsame => absurd hsame hslot, ?_, ?_⟩
    · rintro - ⟨hlets, hshows⟩
      refine clauseDisposition_shows hgenuine hlets hshows ?_
      exact (hagree.stores _ _).trans (ingestClauseEvent_other hgenuine hslot _)
    · rintro - ⟨hbelow, hshows⟩
      refine ingestClauseEvent_shows hgenuine hbelow hshows ?_
      have hstays := clauseDisposition_other crypto io files hdec (Ne.symm hslot)
        payload.kind.storeKey
      have hsame := hagree.stores (payload.wardSlot link) payload.kind.storeKey
      rw [hstays] at hsame
      exact hsame.symm
  · intro h
    obtain ⟨hnot, hbroker⟩ := clauseDisposition_quiet crypto io files hdec
      fun hboth => h.machineWide hslot hboth.2
    obtain ⟨hrefused, hwarden⟩ := ingestClauseEvent_quiet crypto io files hdec
      fun hboth => h.wards hslot hboth.2
    refine ⟨iff_of_false hnot (by simp [hrefused]), ?_⟩
    exact fun slot key => (hbroker slot key).trans (hwarden slot key).symm

variable (crypto codec link io files event)

/-- **The warden's intake agrees with the broker's** exactly where no sidecar floor stands at the
instant of a genuine clause that would be written over it, and none without a subject is filed
machine-wide by the one and under the ward by the other. -/
theorem intakes_agree_iff : IntakesAgree crypto codec link io files event ↔
    ∀ payload, GenuineClause crypto codec link.guardian event payload →
      Unconfused link io files payload := by
  cases hdec : ClausePayload.fromJson codec event.content with
  | error e =>
    refine iff_of_true ?_ ?_
    · have hingest : ingestClauseEvent crypto codec link.pairing io files event =
          (.reject (if event.kind ≠ Kinds.charterDeviceClause then .wrongEventKind
            else .malformedPayload), files) := by
        unfold ingestClauseEvent Link.pairing
        rw [hdec]
        dsimp only
        split <;> rfl
      constructor
      · rw [clauseDisposition_undecoded hdec, hingest]
        simp [ClauseResult.reject]
      · rw [clauseDisposition_undecoded hdec, hingest]
        exact fun slot key => .refl _
    · intro payload hgenuine
      rw [hgenuine.decoded] at hdec
      cases hdec
  | ok payload =>
    by_cases hgenuine : GenuineClause crypto codec link.guardian event payload
    · have hunique : (∀ payload', GenuineClause crypto codec link.guardian event payload' →
          Unconfused link io files payload') ↔ Unconfused link io files payload := by
        refine ⟨fun h => h payload hgenuine, fun h payload' hgenuine' => ?_⟩
        obtain rfl := Except.ok.inj (hdec.symm.trans hgenuine'.decoded)
        exact h
      rw [hunique]
      by_cases hslot : payload.slot link = payload.wardSlot link
      · exact agree_of_one_slot hgenuine hslot
      · exact agree_of_two_slots hgenuine hslot
    · obtain ⟨hnot, hbroker⟩ := clauseDisposition_kept crypto io files hdec
        fun h => hgenuine h.1
      obtain ⟨hrefused, hwarden⟩ := ingestClauseEvent_kept crypto io files hdec
        fun h => hgenuine h.1
      refine iff_of_true ⟨iff_of_false hnot (by simp [hrefused]), ?_⟩ ?_
      · exact fun slot key => (hbroker slot key).trans (hwarden slot key).symm
      · intro payload' hgenuine'
        obtain rfl := Except.ok.inj (hdec.symm.trans hgenuine'.decoded)
        exact absurd hgenuine' hgenuine

end Compare

/-- What a power cut in the middle of a put leaves: the sidecar reads, the record does not. -/
def tornSlot (n : Nat) : SlotFiles := ⟨.error (.io "parse"), .ok (some n)⟩

/-- The clause of a torn record comes again: the broker stores it, the warden does not. -/
theorem torn_record_parts_them :
    let files : ClauseFiles := ClauseFiles.empty.set (.child deviceLink.subject)
      ClauseKind.schedule.storeKey (tornSlot 10)
    (clauseDisposition genuineCrypto scheduleCodec deviceLink .ok files
        (scheduleEvent "10")).1 = .stored ∧
      (ingestClauseEvent genuineCrypto scheduleCodec deviceLink.pairing .ok files
        (scheduleEvent "10")).1 = .reject (.verifyFailed .staleIssuedAt) := by
  decide +kernel

end Kintrinsic
