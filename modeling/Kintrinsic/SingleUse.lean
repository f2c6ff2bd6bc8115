import Kintrinsic.GuardedRun
import Kintrinsic.VerifyGrant

/-! # Single use of a grant over whole runs

Verification interleaved with sweeps of the consumed-id store, at instants that never go
backwards.  An accepted id is safe while the store holds it; once a sweep has dropped it,
only the freshness rule is left.  The two windows end at the same instant, but the sweep
already drops the id there while the rule still accepts, and the retention is that of the
accepted grant while the rule reads the expiry of the grant at hand. -/
namespace Kintrinsic

open GuardedRun MachineWord

/-- One verifier over one store: the clock it last read, and all it has accepted. -/
structure Desk where
  store : ConsumedIds
  clock : Nat
  accepted : List VerifiedGrant

/-- What can happen at the desk; a fault is the store's next failure, or its repair. -/
inductive DeskAction
  | verify (event : NostrEvent) (p : VerifyParams)
  | purgeExpired (now : Nat)
  | fault (e : Option SysError)

namespace Desk

def initial : Desk := ⟨ConsumedIds.empty, 0, []⟩

/-- The ids accepted so far, newest first. -/
def acceptedIds (d : Desk) : List ReqId := d.accepted.map VerifiedGrant.reqId

variable (crypto : Crypto) (codec : GrantCodec)

/-- One grant put to `verify_grant`. -/
def verify (d : Desk) (event : NostrEvent) (p : VerifyParams) : Desk :=
  match verifyGrant crypto codec event p d.store with
  | (.ok g, store) => ⟨store, p.now, g :: d.accepted⟩
  | (.error _, store) => ⟨store, p.now, d.accepted⟩

def step (d : Desk) : DeskAction → Desk
  | .verify event p => d.verify crypto codec event p
  | .purgeExpired now => { d with store := (d.store.purgeExpired now).2, clock := now }
  | .fault e => { d with store := { d.store with fault := e } }

/-- Instants never go backwards. -/
def Forward (d : Desk) : DeskAction → Prop
  | .verify _ p => d.clock ≤ p.now
  | .purgeExpired now => d.clock ≤ now
  | .fault _ => True

/-- A grant offered for an id that was accepted before and has since been swept out comes
neither at the very instant the accepted grant's retention ends, nor with a later expiry
than the accepted grant's. -/
def WindowKept (d : Desk) : DeskAction → Prop
  | .verify event p =>
    ∀ payload ∈ (GrantPayload.fromJson codec event.content).toOption, ∀ g ∈ d.accepted,
      g.reqId = payload.reqId → d.store.entries payload.reqId = none →
        p.now ≠ retention g.exp ∧ payload.exp ≤ g.exp
  | _ => True

instance decidableForward : ∀ d a, Decidable (Forward d a)
  | d, .verify _ p => inferInstanceAs (Decidable (d.clock ≤ p.now))
  | d, .purgeExpired now => inferInstanceAs (Decidable (d.clock ≤ now))
  | _, .fault _ => inferInstanceAs (Decidable True)

instance decidableWindowKept : ∀ d a, Decidable (WindowKept codec d a)
  | d, .verify event p => inferInstanceAs (Decidable
      (∀ payload ∈ (GrantPayload.fromJson codec event.content).toOption, ∀ g ∈ d.accepted,
        g.reqId = payload.reqId → d.store.entries payload.reqId = none →
          p.now ≠ retention g.exp ∧ payload.exp ≤ g.exp))
  | _, .purgeExpired _ => inferInstanceAs (Decidable True)
  | _, .fault _ => inferInstanceAs (Decidable True)

/-- The invariant: an accepted id is still held for its own retention, or that is over. -/
structure Valid (d : Desk) : Prop where
  covered : ∀ g ∈ d.accepted, d.store.entries g.reqId = some (retention g.exp) ∨
    (d.store.entries g.reqId = none ∧ retention g.exp ≤ d.clock)
  nodup : d.acceptedIds.Nodup

theorem valid_initial : initial.Valid := ⟨by simp [initial], List.nodup_nil⟩

variable {crypto codec} {d : Desk}

/-- Past its retention no grant with that expiry, or an earlier one, is fresh. -/
theorem freshnessRule_past_retention {payload : GrantPayload} {now exp : Nat}
    (hexp : payload.exp ≤ exp) (hnow : retention exp < now) :
    freshnessRule payload now ≠ .ok () := by
  intro h
  have hle : now ≤ wrapU64 (payload.exp + freshnessSkewSecs) := (freshnessRule_ok h).2.2
  have hwrap : wrapU64 (payload.exp + freshnessSkewSecs) ≤ retention exp := by
    unfold retention addU64
    have hmax := wrapU64_le (payload.exp + freshnessSkewSecs)
    have hmod : wrapU64 (payload.exp + freshnessSkewSecs) ≤ payload.exp + freshnessSkewSecs :=
      Nat.mod_le _ _
    omega
  omega

/-- **No second acceptance in one step.**  Under the condition, what is accepted now was not
accepted before. -/
theorem verifyGrant_fresh_id (hd : d.Valid) {event : NostrEvent} {p : VerifyParams}
    {g : VerifiedGrant} {store : ConsumedIds} (hclock : Forward d (.verify event p))
    (hkept : WindowKept codec d (.verify event p))
    (h : verifyGrant crypto codec event p d.store = (.ok g, store)) :
    g.reqId ∉ d.acceptedIds := by
  intro hmem
  obtain ⟨hrules, hnone, -⟩ := verifyGrant_ok h
  obtain ⟨payload, hgen, -, hid, -, -⟩ := grantRules_ok hrules
  obtain ⟨a, ha, haid⟩ := List.mem_map.mp hmem
  have hswept : d.store.entries payload.reqId = none := by rw [← hid]; exact hnone
  have hdecoded : payload ∈ (GrantPayload.fromJson codec event.content).toOption := by
    rw [hgen.decoded]
    rfl
  obtain ⟨hne, hle⟩ := hkept payload hdecoded a ha (haid.trans hid) hswept
  have hover : retention a.exp ≤ d.clock := by
    rcases hd.covered a ha with hheld | ⟨-, hover⟩
    · rw [haid, hnone] at hheld
      cases hheld
    · exact hover
  have hpast : retention a.exp < p.now := by
    have hforward : d.clock ≤ p.now := hclock
    omega
  exact freshnessRule_past_retention hle hpast hgen.fresh

theorem valid_verify (hd : d.Valid) {event : NostrEvent} {p : VerifyParams}
    (hclock : Forward d (.verify event p)) (hkept : WindowKept codec d (.verify event p)) :
    (d.verify crypto codec event p).Valid := by
  have hforward : d.clock ≤ p.now := hclock
  have hlater : ∀ a ∈ d.accepted, d.store.entries a.reqId = some (retention a.exp) ∨
      (d.store.entries a.reqId = none ∧ retention a.exp ≤ p.now) := by
    intro a ha
    rcases hd.covered a ha with hheld | ⟨hnone, hover⟩
    · exact Or.inl hheld
    · exact Or.inr ⟨hnone, hover.trans hforward⟩
  unfold verify
  split
  · rename_i g store h
    have hfresh := verifyGrant_fresh_id hd hclock hkept h
    obtain ⟨-, -, rfl⟩ := verifyGrant_ok h
    refine ⟨?_, List.nodup_cons.mpr ⟨hfresh, hd.nodup⟩⟩
    intro a ha
    rcases List.mem_cons.mp ha with rfl | ha
    · exact Or.inl (ConsumedIds.insert_entries_self ..)
    · have hne : a.reqId ≠ g.reqId := by
        intro heq
        exact hfresh (heq ▸ List.mem_map_of_mem ha)
      rw [ConsumedIds.insert_entries_of_ne hne]
      exact hlater a ha
  · rename_i e store h
    obtain rfl := verifyGrant_error h
    exact ⟨hlater, hd.nodup⟩

theorem valid_purgeExpired (hd : d.Valid) {now : Nat} (hclock : d.clock ≤ now) :
    (step crypto codec d (.purgeExpired now)).Valid := by
  refine ⟨?_, hd.nodup⟩
  intro a ha
  change (d.store.purgeExpired now).2.entries a.reqId = some (retention a.exp) ∨
    (d.store.purgeExpired now).2.entries a.reqId = none ∧ retention a.exp ≤ now
  rcases d.store.purgeExpired_entries now a.reqId with hsame | ⟨hnone, retain, hheld, hover⟩
  · rw [hsame]
    rcases hd.covered a ha with hheld | ⟨hswept, hover⟩
    · exact Or.inl hheld
    · exact Or.inr ⟨hswept, hover.trans hclock⟩
  · rcases hd.covered a ha with hheld' | ⟨hnone', -⟩
    · obtain rfl := Option.some.inj (hheld'.symm.trans hheld)
      exact Or.inr ⟨hnone, hover⟩
    · exact absurd (hnone'.symm.trans hheld) (by simp)

theorem valid_step (hd : d.Valid) (a : DeskAction) (hclock : Forward d a)
    (hkept : WindowKept codec d a) : (step crypto codec d a).Valid := by
  cases a with
  | verify event p => exact valid_verify hd hclock hkept
  | purgeExpired now => exact valid_purgeExpired hd hclock
  | fault e => exact ⟨hd.covered, hd.nodup⟩

/-- **Single use over whole runs.**  In every run of verifications, sweeps and store
failures at instants that never go backwards, each request id is accepted at most once, as
long as no swept id is offered again at the end of its retention or with a later expiry. -/
theorem acceptedIds_nodup (as : List DeskAction)
    (hclock : Obeys (step crypto codec) Forward initial as)
    (hkept : Obeys (step crypto codec) (WindowKept codec) initial as) :
    (as.foldl (step crypto codec) initial).acceptedIds.Nodup := by
  have hvalid : (as.foldl (step crypto codec) initial).Valid := by
    refine (hclock.and hkept).invariant (I := Valid) ?_ valid_initial
    intro d a hd ⟨hforward, hwindow⟩
    exact valid_step hd a hforward hwindow
  exact hvalid.nodup

/-! ## The two ways round the store -/

/-- The text of an allow of thirty minutes, by its expiry. -/
def allowText (exp : String) : String :=
  "\x7b\"v\":1,\"op\":\"time.extend\",\"reqId\":\"0b0b\",\"nonce\":\"0c0c\"," ++
    "\"decision\":\"allow\",\"ts\":1000,\"exp\":" ++ exp ++ ",\"params\":\x7b" ++
    "\"minutesGranted\":30,\"limitHit\":\"budget\"\x7d\x7d"

def allowPayload (exp : Nat) : GrantPayload :=
  ⟨1, .timeExtend, ⟨0x0b0b⟩, ⟨0x0c0c⟩, .allow, 1000, exp, "thirty minutes"⟩

/-- The decoders, on the texts at hand. -/
def deskCodec : GrantCodec where
  payload s :=
    if s = allowText "2000" then .ok (allowPayload 2000)
    else if s = allowText "2600" then .ok (allowPayload 2600)
    else .error "expected value"
  installFlatpak _ := .error "missing field"
  installApk _ := .error "missing field"
  execAllow _ := .error "missing field"
  timeExtend s :=
    if s = "thirty minutes" then .ok ⟨30, .budget, none, none⟩ else .error "missing field"
  appOpen _ := .error "missing field"

/-- Ids and signatures that are all genuine. -/
def deskCrypto : Crypto := ⟨fun event => event.id, fun _ _ _ => true⟩

def allowEvent (id : EventId) (exp : String) : NostrEvent :=
  ⟨id, ⟨7⟩, 1000, Kinds.charterDeviceGrant, [], allowText exp, ⟨0⟩⟩

def deskParams (now : Nat) : VerifyParams := ⟨⟨7⟩, ⟨0x0b0b⟩, ⟨0x0c0c⟩, .timeExtend, now⟩

/-- A grant, a sweep at a later instant, and an event offered at that same instant. -/
def sweepBetween (event : NostrEvent) (now : Nat) : List DeskAction :=
  [.verify (allowEvent ⟨1⟩ "2000") (deskParams 1000), .purgeExpired now,
    .verify event (deskParams now)]

/-- One second past the retention the replay is refused, and the run obeys the condition. -/
theorem acceptedIds_nodup_past_retention :
    Obeys (step deskCrypto deskCodec) Forward initial
        (sweepBetween (allowEvent ⟨1⟩ "2000") 2301) ∧
      Obeys (step deskCrypto deskCodec) (WindowKept deskCodec) initial
        (sweepBetween (allowEvent ⟨1⟩ "2000") 2301) ∧
      (((sweepBetween (allowEvent ⟨1⟩ "2000") 2301).foldl (step deskCrypto deskCodec)
        initial).acceptedIds).Nodup :=
  have hforward : Obeys (step deskCrypto deskCodec) Forward initial
      (sweepBetween (allowEvent ⟨1⟩ "2000") 2301) := by decide +kernel
  have hkept : Obeys (step deskCrypto deskCodec) (WindowKept deskCodec) initial
      (sweepBetween (allowEvent ⟨1⟩ "2000") 2301) := by decide +kernel
  ⟨hforward, hkept, acceptedIds_nodup _ hforward hkept⟩

/-- **The same grant twice.**  At `exp + 300` the sweep has already dropped the id and the
freshness rule still lets the replay through; and a grant reissued with a later expiry
outlives the retention of the first. -/
theorem acceptedIds_repeated :
    (Obeys (step deskCrypto deskCodec) Forward initial
        (sweepBetween (allowEvent ⟨1⟩ "2000") 2300) ∧
      ((sweepBetween (allowEvent ⟨1⟩ "2000") 2300).foldl (step deskCrypto deskCodec)
        initial).acceptedIds = [⟨0x0b0b⟩, ⟨0x0b0b⟩]) ∧
    (Obeys (step deskCrypto deskCodec) Forward initial
        (sweepBetween (allowEvent ⟨2⟩ "2600") 2301) ∧
      ((sweepBetween (allowEvent ⟨2⟩ "2600") 2301).foldl (step deskCrypto deskCodec)
        initial).acceptedIds = [⟨0x0b0b⟩, ⟨0x0b0b⟩]) := by
  decide +kernel

end Desk
end Kintrinsic
