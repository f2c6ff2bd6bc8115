import Kintrinsic.ConsumedIds

/-! # Grant verification

`verify_grant`: the six rules in their order, and after them the single-use claim.  A
verified grant carries what an enactor relies on, that its parameters are its own op's. -/
namespace Kintrinsic

open MachineWord

/-- Clock-skew tolerance of the freshness checks, in seconds. -/
def freshnessSkewSecs : Nat := 300

/-- What binds a grant to the pending request it must answer. -/
structure VerifyParams where
  pinnedGuardian : PubKey
  expectedReqId : ReqId
  expectedNonce : Nonce
  expectedOp : OpType
  now : Nat
deriving DecidableEq

inductive GrantOutcome
  | allow (params : GrantParams)
  | deny
deriving DecidableEq

/-- An allow's parameters are those of the op. -/
def GrantOutcome.BelongsTo (op : OpType) : GrantOutcome → Prop
  | allow params => params.op = op
  | deny => True

/-- A grant that has passed every rule. -/
structure VerifiedGrant where
  op : OpType
  reqId : ReqId
  exp : Nat
  outcome : GrantOutcome
  belongs : outcome.BelongsTo op
deriving DecidableEq

/-- The approved parameters of an allow. -/
def VerifiedGrant.allowParams (g : VerifiedGrant) : Option GrantParams :=
  match g.outcome with
  | .allow params => some params
  | .deny => none

inductive VerifyError
  | malformed
  | eventIdMismatch
  | badSignature
  | untrustedSigner
  | opMismatch
  | reqIdMismatch
  | nonceMismatch
  | expired
  | notYetValid
  | badExpiry
  | replayed
  | store (e : SysError)
deriving DecidableEq

variable (crypto : Crypto) (codec : GrantCodec)

/-- The decision, with its parameters parsed up front. -/
def grantOutcome (payload : GrantPayload) :
    Except VerifyError { o : GrantOutcome // o.BelongsTo payload.op } :=
  match payload.decision with
  | .allow =>
    match h : payload.grantParams codec with
    | .error _ => .error .malformed
    | .ok params => .ok ⟨.allow params, GrantParams.parse_op h⟩
  | .deny => .ok ⟨.deny, trivial⟩

/-- Rule 6; the sums are plain `u64` additions. -/
def freshnessRule (payload : GrantPayload) (now : Nat) : Except VerifyError Unit :=
  if payload.exp ≤ payload.ts then .error .badExpiry
  else if wrapU64 (now + freshnessSkewSecs) < payload.ts then .error .notYetValid
  else if now > wrapU64 (payload.exp + freshnessSkewSecs) then .error .expired
  else .ok ()

/-- Rules 1 to 6: everything but the single-use claim. -/
def grantRules (event : NostrEvent) (p : VerifyParams) : Except VerifyError VerifiedGrant :=
  if event.kind ≠ Kinds.charterDeviceGrant then .error .malformed
  else
    match GrantPayload.fromJson codec event.content with
    | .error _ => .error .malformed
    | .ok payload =>
      match grantOutcome codec payload with
      | .error e => .error e
      | .ok outcome =>
        if crypto.eventId event ≠ event.id then .error .eventIdMismatch
        else if ¬ crypto.signatureIsValid event then .error .badSignature
        else if event.pubkey ≠ p.pinnedGuardian then .error .untrustedSigner
        else if payload.op ≠ p.expectedOp then .error .opMismatch
        else if payload.reqId ≠ p.expectedReqId then .error .reqIdMismatch
        else if payload.nonce ≠ p.expectedNonce then .error .nonceMismatch
        else
          match freshnessRule payload p.now with
          | .error e => .error e
          | .ok () =>
            .ok ⟨payload.op, payload.reqId, payload.exp, outcome.1, outcome.2⟩

/-- How long the store keeps a claimed id: to the end of the window rule 6 accepts. -/
def retention (exp : Nat) : Nat := addU64 exp freshnessSkewSecs

/-- `verify_grant`: the rules, then the claim, and only then the grant. -/
def verifyGrant (event : NostrEvent) (p : VerifyParams) (store : ConsumedIds) :
    Except VerifyError VerifiedGrant × ConsumedIds :=
  match grantRules crypto codec event p with
  | .error e => (.error e, store)
  | .ok g =>
    match store.checkAndConsume g.reqId (retention g.exp) with
    | (.error e, store) => (.error (.store e), store)
    | (.ok false, store) => (.error .replayed, store)
    | (.ok true, store) => (.ok g, store)

variable {crypto codec} {event : NostrEvent} {p : VerifyParams}
  {store store' : ConsumedIds} {payload : GrantPayload} {g : VerifiedGrant}

/-- What the rules establish of an event and the payload it carries. -/
structure Genuine (crypto : Crypto) (codec : GrantCodec) (event : NostrEvent) (p : VerifyParams)
    (payload : GrantPayload) : Prop where
  kind : event.kind = Kinds.charterDeviceGrant
  decoded : GrantPayload.fromJson codec event.content = .ok payload
  eventId : crypto.eventId event = event.id
  signature : crypto.signatureIsValid event = true
  signer : event.pubkey = p.pinnedGuardian
  op : payload.op = p.expectedOp
  reqId : payload.reqId = p.expectedReqId
  nonce : payload.nonce = p.expectedNonce
  fresh : freshnessRule payload p.now = .ok ()

theorem freshnessRule_ok {now : Nat} (h : freshnessRule payload now = .ok ()) :
    payload.ts < payload.exp ∧ payload.ts ≤ wrapU64 (now + freshnessSkewSecs) ∧
      now ≤ wrapU64 (payload.exp + freshnessSkewSecs) := by
  unfold freshnessRule at h
  split_ifs at h
  exact ⟨by omega, by omega, by omega⟩

/-- **Inversion of the rules.**  A grant comes out of them only from a genuine event, with
the payload's own fields, and with parameters the decision covers. -/
theorem grantRules_ok (h : grantRules crypto codec event p = .ok g) :
    ∃ payload, Genuine crypto codec event p payload ∧ g.op = payload.op ∧
      g.reqId = payload.reqId ∧ g.exp = payload.exp ∧
      (g.outcome ≠ .deny → payload.decision = .allow) := by
  unfold grantRules at h
  split at h
  · cases h
  rename_i hkind
  split at h
  · cases h
  rename_i payload hdec
  split at h
  · cases h
  rename_i outcome hout
  split_ifs at h with hid hsig hkey hop hreq hnonce
  split at h
  · cases h
  rename_i hfresh
  obtain rfl := Except.ok.inj h
  refine ⟨payload, ⟨not_not.mp hkind, hdec, not_not.mp hid, hsig, not_not.mp hkey,
    not_not.mp hop, not_not.mp hreq, not_not.mp hnonce, hfresh⟩, rfl, rfl, rfl, ?_⟩
  intro hne
  unfold grantOutcome at hout
  split at hout
  · assumption
  · obtain rfl := Except.ok.inj hout
    exact absurd rfl hne

/-- **Specification of `verify_grant`, accepting.**  The rules passed, the id was new, and
the store has since remembered it. -/
theorem verifyGrant_ok (h : verifyGrant crypto codec event p store = (.ok g, store')) :
    grantRules crypto codec event p = .ok g ∧ store.entries g.reqId = none ∧
      store' = store.insert g.reqId (retention g.exp) := by
  unfold verifyGrant at h
  split at h
  · cases h
  rename_i g' hrules
  split at h
  · cases h
  · cases h
  · rename_i hnew
    obtain ⟨hg, hs⟩ := Prod.mk.inj h
    obtain rfl := Except.ok.inj hg
    obtain ⟨hnone, hins⟩ := ConsumedIds.checkAndConsume_new hnew
    exact ⟨hrules, hnone, hs ▸ hins⟩

/-- **Specification of `verify_grant`, refusing.**  A refusal claims nothing. -/
theorem verifyGrant_error {e : VerifyError}
    (h : verifyGrant crypto codec event p store = (.error e, store')) : store' = store := by
  unfold verifyGrant at h
  split at h
  · exact (Prod.mk.inj h).2.symm
  split at h
  · rename_i hc
    rw [← (Prod.mk.inj h).2]
    exact ConsumedIds.checkAndConsume_frame hc (by simp)
  · rename_i hc
    rw [← (Prod.mk.inj h).2]
    exact ConsumedIds.checkAndConsume_frame hc (by simp)
  · cases h

/-- An id the store remembers is never accepted. -/
theorem verifyGrant_consumed (h : verifyGrant crypto codec event p store = (.ok g, store')) :
    store.isConsumed g.reqId = false := by
  simp [ConsumedIds.isConsumed, (verifyGrant_ok h).2.1]

/-- What an accepted grant has passed and what it has claimed.  The window is that of the numbers
themselves, whatever a sum in the code wraps to. -/
structure GrantAccepted (crypto : Crypto) (codec : GrantCodec) (event : NostrEvent)
    (p : VerifyParams) (store store' : ConsumedIds) (g : VerifiedGrant) (payload : GrantPayload) :
    Prop where
  genuine : Genuine crypto codec event p payload
  op : g.op = payload.op
  reqId : g.reqId = payload.reqId
  exp : g.exp = payload.exp
  expires : payload.ts < payload.exp
  notBefore : payload.ts ≤ p.now + freshnessSkewSecs
  notAfter : p.now ≤ payload.exp + freshnessSkewSecs
  unclaimed : store.isConsumed p.expectedReqId = false
  claimed : store'.isConsumed p.expectedReqId = true
  others : ∀ id, id ≠ p.expectedReqId → store'.entries id = store.entries id

/-- **`verify_grant` is sound, and an error claims nothing.** -/
theorem verify_grant_sound (crypto : Crypto) (codec : GrantCodec) (event : NostrEvent)
    (p : VerifyParams) (store : ConsumedIds) :
    (∀ g store', verifyGrant crypto codec event p store = (.ok g, store') →
      ∃ payload, GrantAccepted crypto codec event p store store' g payload) ∧
    (∀ e store', verifyGrant crypto codec event p store = (.error e, store') → store' = store) := by
  refine ⟨?_, fun e store' h => verifyGrant_error h⟩
  intro g store' h
  have hnew := verifyGrant_consumed h
  obtain ⟨hrules, -, rfl⟩ := verifyGrant_ok h
  obtain ⟨payload, hgenuine, hop, hreq, hexp, -⟩ := grantRules_ok hrules
  obtain ⟨hlt, hts, hnow⟩ := freshnessRule_ok hgenuine.fresh
  -- a sum that wraps is smaller than the sum, so the checks only get stricter
  have hwrap : ∀ n, wrapU64 n ≤ n := fun n => Nat.mod_le n _
  have hid : g.reqId = p.expectedReqId := hreq.trans hgenuine.reqId
  rw [hid] at hnew ⊢
  refine ⟨payload, hgenuine, hop, hreq, hexp, hlt, hts.trans (hwrap _), hnow.trans (hwrap _), hnew,
    ?_, fun id hne => ConsumedIds.insert_entries_of_ne hne⟩
  simp [ConsumedIds.isConsumed]

end Kintrinsic
