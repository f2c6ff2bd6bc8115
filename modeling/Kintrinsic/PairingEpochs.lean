import Kintrinsic.Release

/-! # Releases over many pairings

A pairing is a file.  The process that is running has the guardian of the file as it stood when
the process started; the floor of a release is read from the file as it stands.  Every signed
release may come again, in any pairing. -/
namespace Kintrinsic

open EffectRun

/-! ## What verifies -/

section Verify
variable {crypto : Crypto} {codec : StandingCodec} {event : NostrEvent} {guardian machine : PubKey}
  {now : Nat}

/-- Seconds between two instants, in either direction. -/
def absDiff (a b : Nat) : Nat := (a - b) + (b - a)

theorem authenticate_ok_iff {ε : Type} {badSignature untrustedSigner : ε} :
    authenticate crypto event guardian badSignature untrustedSigner = .ok () ↔
      crypto.eventId event = event.id ∧ crypto.signatureIsValid event = true ∧
        event.pubkey = guardian := by
  unfold authenticate
  split_ifs <;> simp_all

/-- A release as it verifies: its payload, its signer, its machine, and the window. -/
structure GenuineRelease (crypto : Crypto) (codec : StandingCodec) (event : NostrEvent)
    (guardian machine : PubKey) (now : Nat) (payload : ReleasePayload) : Prop where
  kind : event.kind = Kinds.charterDeviceRelease
  content : ReleasePayload.fromJson codec event.content = .ok payload
  id : crypto.eventId event = event.id
  signature : crypto.signatureIsValid event = true
  signer : event.pubkey = guardian
  machine : payload.machine = machine
  window : absDiff now payload.issuedAt ≤ 172800

theorem verifyRelease_ok_iff : verifyRelease crypto codec event guardian machine now = .ok () ↔
    ∃ payload, GenuineRelease crypto codec event guardian machine now payload := by
  constructor
  · intro h
    unfold verifyRelease at h
    split at h
    · cases h
    rename_i hkind
    split at h
    · cases h
    rename_i payload hpayload
    split at h
    · cases h
    rename_i hauth
    obtain ⟨hid, hsignature, hsigner⟩ := authenticate_ok_iff.mp hauth
    split at h
    · cases h
    rename_i hmachine
    split at h
    · cases h
    rename_i hwindow
    exact ⟨payload, not_not.mp hkind, hpayload, hid, hsignature, hsigner, not_not.mp hmachine,
      Nat.le_of_not_lt hwindow⟩
  · rintro ⟨payload, hkind, hpayload, hid, hsignature, hsigner, hmachine, hwindow⟩
    have hauth := (@authenticate_ok_iff crypto event guardian ReleaseError .badSignature
      .untrustedSigner).mpr ⟨hid, hsignature, hsigner⟩
    unfold verifyRelease
    rw [if_neg (not_not.mpr hkind), hpayload]
    dsimp only
    rw [hauth]
    dsimp only
    rw [if_neg (not_not.mpr hmachine)]
    exact if_neg (Nat.not_lt_of_ge hwindow)

end Verify

namespace Device
variable {f : Facade} {s : Device}

/-- **What applies**: a genuine release from the floor on, in a process that no release has ended
and no enactor holds. -/
theorem releaseApplied_iff {event : NostrEvent} {now i n : Nat} :
    .releaseApplied i n ∈ (step f s (.release event now)).2 ↔
      s.broker.inflight = none ∧ s.broker.released = false ∧ n = now ∧
        ∃ payload, s.pairedAt ≤ payload.issuedAt ∧ i = payload.issuedAt ∧
          GenuineRelease f.crypto f.standing event f.link.guardian f.link.machine now payload := by
  unfold step
  by_cases hflight : s.broker.inflight = none
  swap
  · have hturn :
        (BrokerAction.takesTurn (.release event now) && s.broker.inflight.isSome) = true :=
      (Bool.true_and _).trans (Option.isSome_iff_ne_none.mpr hflight)
    rw [if_pos hturn]
    exact iff_of_false (List.not_mem_nil) fun h => hflight h.1
  have hturn :
      ¬(BrokerAction.takesTurn (.release event now) && s.broker.inflight.isSome) = true := by
    rw [hflight]
    nofun
  rw [if_neg hturn]
  show _ ∈ (s.onRelease f event now).2 ↔ _
  unfold onRelease
  cases hreleased : s.broker.released with
  | true => simp
  | false =>
    rw [if_neg nofun]
    cases hverify : verifyRelease f.crypto f.standing event f.link.guardian f.link.machine now with
    | error e =>
      refine iff_of_false (List.not_mem_nil) ?_
      rintro ⟨-, -, -, payload, -, -, hgenuine⟩
      rw [verifyRelease_ok_iff.mpr ⟨payload, hgenuine⟩] at hverify
      cases hverify
    | ok u =>
      obtain ⟨payload, hgenuine⟩ := verifyRelease_ok_iff.mp hverify
      have honly : ∀ payload', GenuineRelease f.crypto f.standing event f.link.guardian
          f.link.machine now payload' → payload' = payload := by
        intro payload' hgenuine'
        have hsame := hgenuine'.content.symm.trans hgenuine.content
        exact Except.ok.inj hsame
      dsimp only
      rw [hgenuine.content]
      dsimp only
      by_cases hfloor : payload.issuedAt < s.pairedAt
      · rw [if_pos hfloor]
        refine iff_of_false (List.not_mem_nil) ?_
        rintro ⟨-, -, -, payload', hle, -, hgenuine'⟩
        rw [honly payload' hgenuine'] at hle
        omega
      · rw [if_neg hfloor, List.mem_singleton, BrokerOutput.releaseApplied.injEq]
        constructor
        · rintro ⟨rfl, rfl⟩
          exact ⟨hflight, rfl, rfl, payload, Nat.le_of_not_lt hfloor, rfl, hgenuine⟩
        · rintro ⟨-, -, rfl, payload', -, rfl, hgenuine'⟩
          exact ⟨congrArg ReleasePayload.issuedAt (honly payload' hgenuine'), rfl⟩

/-! ## What leaves the pairing alone -/

theorem pairing_prune (s : Device) : s.pruneTerminal.disk.pairing = s.disk.pairing := rfl

theorem pairing_expire (s : Device) (now : Nat) :
    (s.expireStalePending now).1.disk.pairing = s.disk.pairing := by
  unfold expireStalePending
  dsimp only
  split <;> rfl

theorem pairing_settle (s : Device) (r : RequestRecord) (d : GrantDisposition) :
    (s.settle r d).1.disk.pairing = s.disk.pairing := by
  unfold settle
  dsimp only
  split <;> rfl

theorem pairing_perform (s : Device) (r : RequestRecord) (effects : List Effect) :
    (s.perform r effects).disk.pairing = s.disk.pairing := by
  unfold perform
  split <;> rfl

theorem pairing_grant (s : Device) (event : NostrEvent) (now : Nat) :
    (s.grantDisposition f event now).1.disk.pairing = s.disk.pairing := by
  have hcases := s.grant_cases f event now
  generalize s.grantDisposition f event now = out at hcases
  cases hcases with
  | stayed d => rfl
  | rejected r outs => exact pairing_prune _
  | denied r vg consumed outs => exact pairing_prune _
  | launched r vg consumed params outs => rfl

theorem pairing_finish (s : Device) (j : InFlight) (ev : Event) :
    (s.finish j ev).1.disk.pairing = s.disk.pairing := by
  unfold finish
  dsimp only
  rw [pairing_settle, pairing_perform]
  rfl

theorem pairing_enactReturn (s : Device) (result : Except EnactError Unit) :
    (s.enactReturn result).1.disk.pairing = s.disk.pairing := by
  unfold enactReturn
  split
  · rfl
  split
  · exact pairing_finish s _ _
  · split
    · exact pairing_finish s _ _
    · rfl

theorem pairing_cancel {id : ReqId} {out : Device × List BrokerOutput}
    (hcases : CancelCase s id out) : out.1.disk.pairing = s.disk.pairing := by
  cases hcases with
  | missed => rfl
  | done r => exact pairing_prune _

theorem pairing_submit {ids : ReqId × Nonce} {out : Device × List BrokerOutput}
    (hcases : SubmitCase s ids out) : out.1.disk.pairing = s.disk.pairing := by
  cases hcases <;> rfl

theorem pairing_restart (s : Device) (now : Nat) :
    (s.restart now).1.disk.pairing = s.disk.pairing := by
  unfold restart
  dsimp only
  show ((Device.expireStalePending _ now).1).disk.pairing = _
  rw [pairing_expire]

/-- **Only a release that applies takes the pairing away.** -/
theorem step_pairing (s : Device) (a : BrokerAction) :
    (step f s a).1.broker.released = true ∨ (step f s a).1.disk.pairing = s.disk.pairing := by
  unfold step
  split
  · exact Or.inr rfl
  cases a with
  | submit op params sourcePath callerUid ids now fault =>
    exact Or.inr (pairing_submit (s.submit_cases f op params sourcePath callerUid ids now fault))
  | grant event now => exact Or.inr (pairing_grant s event now)
  | localGrant event swept now =>
    exact Or.inr ((pairing_grant _ event now).trans (pairing_expire s swept))
  | enactReturn result => exact Or.inr (pairing_enactReturn s result)
  | cancel id => exact Or.inr (pairing_cancel (s.cancel_cases id))
  | cancelAs uid id => exact Or.inr (pairing_cancel (s.cancelAs_cases uid id))
  | sweep now => exact Or.inr (pairing_expire s now)
  | clause event io =>
    show (s.onClause f event io).1.broker.released = true ∨
      (s.onClause f event io).1.disk.pairing = s.disk.pairing
    unfold onClause
    split <;> exact Or.inr rfl
  | usageSync event io =>
    show (s.onUsageSync f event io).1.broker.released = true ∨
      (s.onUsageSync f event io).1.disk.pairing = s.disk.pairing
    unfold onUsageSync
    split <;> exact Or.inr rfl
  | release event now =>
    show (s.onRelease f event now).1.broker.released = true ∨
      (s.onRelease f event now).1.disk.pairing = s.disk.pairing
    unfold onRelease
    split
    · exact Or.inr rfl
    split
    · exact Or.inr rfl
    split
    · exact Or.inr rfl
    split
    · exact Or.inr rfl
    · exact Or.inl rfl
  | markReleased => exact Or.inl rfl
  | restart now => exact Or.inr (pairing_restart s now)
  | consumedFault e => exact Or.inr rfl

end Device

/-! ## Pairings -/

/-- What a pairing file says. -/
structure Pairing where
  guardian : PubKey
  subject : PubKey
  pairedAt : Nat
deriving DecidableEq

/-- A facade whose link is that of a pairing; the machine is the device's own. -/
def Facade.pinned (f : Facade) (p : Pairing) : Facade :=
  { f with link := ⟨p.guardian, f.link.machine, p.subject⟩ }

/-- A device with its pairing file, whether the file can be read now, and the pairing that the
running process was started with. -/
structure PairedDevice where
  device : Device
  filed : Option Pairing
  readable : Bool
  pinned : Option Pairing

/-- What happens over many pairings: one is filed, the file becomes readable or unreadable, the
process starts again, or the broker acts. -/
inductive PairingAction
  | pair (p : Pairing)
  | setReadable (readable : Bool)
  | restart (now : Nat)
  | broker (a : BrokerAction)

namespace PairedDevice
variable (f : Facade)

/-- The device as its broker sees it: a file that cannot be read does not say when it was made. -/
def view (s : PairedDevice) : Device :=
  { s.device with disk := { s.device.disk with
    pairing := s.filed.map fun p => if s.readable then some p.pairedAt else none } }

/-- One step.  A process that finds no pairing has no broker. -/
def step (s : PairedDevice) : PairingAction → PairedDevice × List BrokerOutput
  | .pair p => ({ s with filed := some p }, [])
  | .setReadable readable => ({ s with readable }, [])
  | .restart now =>
    match if s.readable then s.filed else none with
    | none => ({ s with pinned := none }, [])
    | some p =>
      let out := s.view.restart now
      ({ s with device := out.1, pinned := some p }, out.2)
  | .broker a =>
    match s.pinned with
    | none => (s, [])
    | some p =>
      -- starting again is an action of its own
      if Device.isRestart a then (s, [])
      else
        let out := s.view.step (f.pinned p) a
        ({ s with
          device := out.1
          filed := if out.1.disk.pairing.isSome then s.filed else none }, out.2)

/-- A device that was never paired. -/
def unpaired : PairedDevice := ⟨Device.initial none, none, true, none⟩

/-- The state after a run. -/
def after (as : List PairingAction) : PairedDevice := (run (step f) unpaired as).1

end PairedDevice

/-- The pairing that was filed last. -/
def lastPairing (as : List PairingAction) : Option Pairing :=
  as.foldl (fun last a => match a with
    | .pair p => some p
    | _ => last) none

/-- Whether the process has started since. -/
def startedSince (as : List PairingAction) : Bool :=
  as.foldl (fun started a => match a with
    | .pair _ => false
    | .restart _ => true
    | _ => started) false

namespace PairedDevice
variable {f : Facade} {as : List PairingAction}

/-- What is filed and pinned after a run. -/
structure Epoch (as : List PairingAction) (s : PairedDevice) : Prop where
  filed : ∀ p, s.filed = some p → lastPairing as = some p
  held : s.pinned ≠ none → s.device.broker.released = false → s.filed ≠ none
  pinned : startedSince as = true → ∀ p, s.pinned = some p → lastPairing as = some p

theorem view_pairing_ne_none {s : PairedDevice} (h : s.filed ≠ none) :
    s.view.disk.pairing.isSome = true := by
  obtain ⟨p, hp⟩ := Option.ne_none_iff_exists'.mp h
  unfold view
  rw [hp]
  rfl

theorem lastPairing_concat (as : List PairingAction) (a : PairingAction) :
    lastPairing (as ++ [a]) = match a with
      | .pair p => some p
      | _ => lastPairing as := by
  unfold lastPairing
  rw [List.foldl_append]
  rfl

theorem startedSince_concat (as : List PairingAction) (a : PairingAction) :
    startedSince (as ++ [a]) = match a with
      | .pair _ => false
      | .restart _ => true
      | _ => startedSince as := by
  unfold startedSince
  rw [List.foldl_append]
  rfl

/-- A broker's action leaves the file, or takes it away with the flag set. -/
theorem step_broker_cases (s : PairedDevice) (a : BrokerAction) :
    (s.step f (.broker a)).1 = s ∨
      ∃ p d, s.pinned = some p ∧ (d.broker.released = false → s.device.broker.released = false) ∧
        ((s.step f (.broker a)).1 = { s with device := d } ∨
          (d.broker.released = true ∧
            (s.step f (.broker a)).1 = { s with device := d, filed := none })) := by
  unfold PairedDevice.step
  dsimp only
  cases hpinned : s.pinned with
  | none => exact Or.inl rfl
  | some p =>
    dsimp only
    split
    · exact Or.inl rfl
    rename_i hrestart
    have hkeeps : (s.view.step (f.pinned p) a).1.broker.released = false →
        s.device.broker.released = false := by
      intro hreleased
      cases hset : s.device.broker.released with
      | false => rfl
      | true =>
        have hstill := (Device.step_released (f := f.pinned p) (s := s.view) hset
          (by simpa using hrestart)).2
        cases hstill.symm.trans hreleased
    refine Or.inr ⟨p, (s.view.step (f.pinned p) a).1, rfl, hkeeps, ?_⟩
    cases hsome : (s.view.step (f.pinned p) a).1.disk.pairing.isSome with
    | true => exact Or.inl (by rw [if_pos rfl])
    | false =>
      rcases Device.step_pairing (f := f.pinned p) s.view a with hreleased | hsame
      · exact Or.inr ⟨hreleased, by rw [if_neg nofun]⟩
      · rw [hsame] at hsome
        have hnone : s.filed = none := by
          by_contra hfiled
          rw [view_pairing_ne_none hfiled] at hsome
          cases hsome
        exact Or.inl (by rw [if_neg nofun, hnone])

/-- **Step lemma.** -/
theorem Epoch.step {s : PairedDevice} (h : Epoch as s) (a : PairingAction) :
    Epoch (as ++ [a]) (s.step f a).1 := by
  obtain ⟨hfiled, hheld, hpinned⟩ := h
  cases a with
  | pair p =>
    refine ⟨fun q hq => ?_, fun _ _ => nofun, fun hs => ?_⟩
    · rw [lastPairing_concat]
      exact hq
    · rw [startedSince_concat] at hs
      cases hs
  | setReadable readable =>
    refine ⟨fun p hp => ?_, hheld, fun hs p hp => ?_⟩
    · rw [lastPairing_concat]
      exact hfiled p hp
    · rw [startedSince_concat] at hs
      rw [lastPairing_concat]
      exact hpinned hs p hp
  | restart now =>
    unfold PairedDevice.step
    dsimp only
    cases hread : if s.readable then s.filed else none with
    | none =>
      refine ⟨fun p hp => ?_, fun hp => absurd rfl hp, fun _ _ hp => by cases hp⟩
      rw [lastPairing_concat]
      exact hfiled p hp
    | some p =>
      have hp : s.filed = some p := by
        split at hread
        · exact hread
        · cases hread
      refine ⟨fun q hq => ?_, fun _ _ hnone => ?_, fun _ q hq => ?_⟩
      · rw [lastPairing_concat]
        exact hfiled q hq
      · cases hp.symm.trans hnone
      · rw [lastPairing_concat]
        exact (hfiled p hp).trans hq
  | broker a =>
    have hlast := lastPairing_concat as (.broker a)
    have hstarted := startedSince_concat as (.broker a)
    rcases step_broker_cases (f := f) s a with heq | ⟨p, d, hp, hkeeps, heq | ⟨hreleased, heq⟩⟩
    · rw [heq]
      exact ⟨fun p hp => hlast.trans (hfiled p hp), hheld,
        fun hs p hp => hlast.trans (hpinned (hstarted.symm.trans hs) p hp)⟩
    · rw [heq]
      exact ⟨fun p hp => hlast.trans (hfiled p hp), fun hp hd => hheld hp (hkeeps hd),
        fun hs p hp => hlast.trans (hpinned (hstarted.symm.trans hs) p hp)⟩
    · rw [heq]
      refine ⟨fun p hp => (by cases hp), fun _ hd => ?_,
        fun hs p hp => hlast.trans (hpinned (hstarted.symm.trans hs) p hp)⟩
      cases hreleased.symm.trans hd

/-- **Run lemma.** -/
theorem epoch_after (f : Facade) (as : List PairingAction) : Epoch as (after f as) := by
  induction as using List.reverseRecOn with
  | nil => exact ⟨fun _ hp => (by cases hp), fun hp => absurd rfl hp, fun hs => (by cases hs)⟩
  | append_singleton as a ih =>
    unfold after at ih ⊢
    rw [run_append_singleton]
    exact ih.step a

/-- A release that applies, against the pairing that was filed last. -/
structure Applies (f : Facade) (as : List PairingAction) (event : NostrEvent) (now issuedAt : Nat)
    (p : Pairing) : Prop where
  current : lastPairing as = some p
  signer : startedSince as = true → event.pubkey = p.guardian
  floor : (after f as).readable = true → p.pairedAt ≤ issuedAt
  genuine : ∃ q payload, (after f as).pinned = some q ∧ payload.issuedAt = issuedAt ∧
    GenuineRelease f.crypto f.standing event q.guardian f.link.machine now payload

/-- Whether a release applies after a run. -/
def AppliesAt (f : Facade) (as : List PairingAction) (event : NostrEvent) (now issuedAt : Nat) :
    Prop :=
  .releaseApplied issuedAt now ∈ ((after f as).step f (.broker (.release event now))).2

/-- **A release and the pairings.**  Whatever was filed, started and sent before, what applies is
genuine for this machine and within two days of now, from the guardian that the process was
started with, who is that of the current pairing if the process has started since; and it is no
older than the current pairing while the file can be read.  One that is older does not apply. -/
theorem release_epochs (f : Facade) (as : List PairingAction) (event : NostrEvent) (now : Nat) :
    (∀ issuedAt, AppliesAt f as event now issuedAt → ∃ p, Applies f as event now issuedAt p) ∧
      ∀ p issuedAt, lastPairing as = some p → (after f as).readable = true →
        issuedAt < p.pairedAt → ¬AppliesAt f as event now issuedAt := by
  have hepoch := epoch_after f as
  have happlies : ∀ issuedAt, AppliesAt f as event now issuedAt →
      ∃ p, Applies f as event now issuedAt p := by
    intro issuedAt h
    unfold AppliesAt at h
    cases hq : (after f as).pinned with
    | none =>
      unfold PairedDevice.step at h
      dsimp only at h
      rw [hq] at h
      cases h
    | some q =>
      unfold PairedDevice.step at h
      dsimp only at h
      rw [hq] at h
      obtain ⟨-, hreleased, -, payload, hfloor, rfl, hgenuine⟩ := Device.releaseApplied_iff.mp h
      obtain ⟨p, hp⟩ := Option.ne_none_iff_exists'.mp
        (hepoch.held (by rw [hq]; nofun) hreleased)
      have hlast := hepoch.filed p hp
      refine ⟨p, hlast, fun hs => ?_, fun hread => ?_, q, payload, hq, rfl, hgenuine⟩
      · obtain rfl : p = q := Option.some.inj (hlast.symm.trans (hepoch.pinned hs q hq))
        exact hgenuine.signer
      · have hpairedAt : (after f as).view.pairedAt = p.pairedAt := by
          unfold Device.pairedAt view
          rw [hp, hread]
          rfl
        rwa [hpairedAt] at hfloor
  refine ⟨happlies, fun p issuedAt hlast hread hlt h => ?_⟩
  obtain ⟨p', hcurrent, -, hfloor, -⟩ := happlies issuedAt h
  obtain rfl : p' = p := Option.some.inj (hcurrent.symm.trans hlast)
  exact absurd (hfloor hread) (Nat.not_le_of_gt hlt)

/-! ## One release, sent again -/

open Device (releaseFacade releaseEvent)

instance (f : Facade) (as : List PairingAction) (event : NostrEvent) (now issuedAt : Nat) :
    Decidable (AppliesAt f as event now issuedAt) :=
  inferInstanceAs (Decidable (_ ∈ _))

/-- A pairing with a guardian, and the start of a process under it. -/
def pairWith (guardian : BitVec 256) (now : Nat) : List PairingAction :=
  [.pair ⟨⟨guardian⟩, ⟨8⟩, now⟩, .restart now]

/-- The release that is stamped 1000. -/
def released (now : Nat) : PairingAction := .broker (.release releaseEvent now)

/-- Disconnected, and set up again with the same guardian after the stamp: the release that comes
again stays without effect. -/
theorem release_epochs_again :
    AppliesAt releaseFacade (pairWith 7 500) releaseEvent 1000 1000 ∧
      ¬AppliesAt releaseFacade (pairWith 7 500 ++ [released 1000] ++ pairWith 7 1100)
        releaseEvent 1110 1000 := by
  refine ⟨by decide +kernel, ?_⟩
  exact (release_epochs releaseFacade _ releaseEvent 1110).2 ⟨⟨7⟩, ⟨8⟩, 1100⟩ 1000
    (by decide +kernel) (by decide +kernel) (by decide)

/-- **What crosses a pairing.**  A release from a clock that is ahead applies, and once more in
the pairing that is made before its stamp; a file that cannot be read sets no floor; and a process
that has not started since takes the release of the guardian before. -/
theorem release_epochs_exceptions :
    (AppliesAt releaseFacade (pairWith 7 500) releaseEvent 600 1000 ∧
      AppliesAt releaseFacade (pairWith 7 500 ++ [released 600] ++ pairWith 7 700) releaseEvent
        710 1000) ∧
    AppliesAt releaseFacade (pairWith 7 2000 ++ [.setReadable false]) releaseEvent 2100 1000 ∧
    AppliesAt releaseFacade (pairWith 7 500 ++ [.pair ⟨⟨5⟩, ⟨8⟩, 900⟩]) releaseEvent 1000 1000 := by
  decide +kernel

end PairedDevice
end Kintrinsic
