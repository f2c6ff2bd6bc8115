import Kintrinsic.RelayReading

/-! # Publishing to relays, and who the machine says it is

An event is written on a relay's socket and the relay's word on it is waited for.  A relay may first
ask who is writing: the machine proves it once for a connection, and says again what it had said.
`Conversation` is all that either loop ever writes. -/
namespace Kintrinsic
namespace Relay

/-! ## One publish -/

/-- `PublishOutcome`. -/
inductive PublishOutcome
  | ok
  | failed (reason : String)
deriving DecidableEq

/-- The variables of `publish_socket`. -/
structure Publishing where
  authId : Option String
  authRequired : Bool
  authAccepted : Bool

def Publishing.start : Publishing := ⟨none, false, false⟩

/-- What the client writes on the socket while it publishes. -/
inductive PublishWrite
  | auth (proof : NostrEvent)
  | event (ev : NostrEvent)
deriving DecidableEq

/-- How the waiting ends: with an answer, with the stream, or with the time in the middle of a
write. -/
inductive Answer
  | answered (accepted : Bool)
  | closed
  | hung
deriving DecidableEq

/-- How a write leaves the loop. -/
def Sent.answer : Sent → Option Answer
  | .through => none
  | .refused => some (.answered false)
  | .pending => some .hung

namespace Publishing
variable (c : Client) (url : RelayUrl) (ev : NostrEvent)

/-- A proof for the first challenge. -/
def challenged (p : Publishing) (a : Arrival) (signer : MachineSigner) (challenge : String) :
    Turn Publishing PublishWrite Answer :=
  match authEvent c.sha256 signer url challenge a.now with
  | .error _ => ⟨p, [], some (.answered false)⟩
  | .ok proof => ⟨{ p with authId := some (hex32 proof.id.bytes) }, [.auth proof], a.sent.answer⟩

/-- The `match` of the waiting loop. -/
def hear (p : Publishing) (a : Arrival) : RelayMsg → Turn Publishing PublishWrite Answer
  | .auth challenge =>
    match p.authId, c.signer with
    | none, some signer => p.challenged c url a signer challenge
    | _, _ => ⟨p, [], none⟩
  | .ok id accepted reason =>
    if p.authAccepted = false ∧ p.authId = some id then
      if accepted then ⟨{ p with authAccepted := true }, [.event ev], a.sent.answer⟩
      else ⟨p, [], some (.answered false)⟩
    else if id = hex32 ev.id.bytes then
      if accepted = false ∧ reason.startsWith "auth-required:" ∧ c.signer.isSome ∧
          p.authAccepted = false then ⟨{ p with authRequired := true }, [], none⟩
      else ⟨p, [], some (.answered accepted)⟩
    else ⟨p, [], none⟩
  | _ => ⟨p, [], none⟩

/-- Every text is looked at, of whatever size the socket lets through. -/
def step (p : Publishing) (a : Arrival) : Turn Publishing PublishWrite Answer :=
  match a.item with
  | .error => ⟨p, [], some .closed⟩
  | .text t => (parseRelayMessage c.json t).elim ⟨p, [], none⟩ (p.hear c url ev a)
  | .other => ⟨p, [], none⟩

/-- The waiting loop over what arrives. -/
def wait (p : Publishing) (as : List Arrival) : Turn Publishing PublishWrite Answer :=
  TurnLoop.loop (fun p a => p.step c url ev a) p as

end Publishing

/-- `publish_outcome`. -/
def publishOutcome : Option (Option Bool) → PublishOutcome
  | some (some true) | none => .ok
  | some (some false) => .failed "rejected by relay"
  | some none => .failed "relay closed the socket before the OK"

/-- When the time ran out. -/
def Publishing.timedOut (p : Publishing) : PublishOutcome :=
  if p.authRequired || p.authId.isSome then
    .failed "relay authentication/publish did not complete"
  else publishOutcome none

/-- What the waiting comes to. -/
def outcome (t : Turn Publishing PublishWrite Answer) (timedOut : Bool) : PublishOutcome :=
  match t.left with
  | some (.answered accepted) => publishOutcome (some (some accepted))
  | some .closed => publishOutcome (some none)
  | some .hung => t.state.timedOut
  | none => if timedOut then t.state.timedOut else publishOutcome (some none)

/-- `publish_one`: `request` is now what becomes of writing the event. -/
def publishOne (c : Client) (url : RelayUrl) (allowInsecure : Bool) (ev : NostrEvent) (v : Visit) :
    Option PublishOutcome := do
  let allowed ← relayUrlAllowed url allowInsecure
  if allowed = false then
    some (.failed "refusing a non-wss relay url (set CHARTER_ALLOW_INSECURE_RELAY=1 to allow it)")
  else some <|
    match v.connect, v.request with
    | .error reason, _ => .failed reason
    | .ok _, .error _ => .failed "could not send event"
    | .ok _, .ok _ => outcome (Publishing.start.wait c url ev v.arrivals) v.timedOut

/-! ## Proofs -/

variable {c : Client} {url : RelayUrl}

/-- A proof made for one of some challenges of a relay. -/
structure ProofFor (c : Client) (url : RelayUrl) (challenges : List String) (proof : NostrEvent) :
    Prop where
  signed : ∃ signer ∈ c.signer, proof.pubkey = signer.pubkey ∧ signer.sign proof.id = .ok proof.sig
  kind : proof.kind = authKind
  bound : ∃ challenge ∈ challenges, 0 < challenge.utf8ByteSize ∧ challenge.utf8ByteSize ≤ 4096 ∧
    proof.tags = [["relay", url], ["challenge", challenge]]
  hashed : proof.id = c.sha256 (Nip59.canonicalEventString proof)

theorem proofFor_authEvent {signer : MachineSigner} (hsigner : c.signer = some signer)
    {challenge : String} {now : Nat} {proof : NostrEvent}
    (h : authEvent c.sha256 signer url challenge now = .ok proof) :
    ProofFor c url [challenge] proof := by
  unfold authEvent at h
  split at h
  · cases h
  · rename_i hchallenge
    push Not at hchallenge
    dsimp only at h
    cases hsign : signer.sign (c.sha256 (Nip59.canonicalEventString
        ⟨⟨0⟩, signer.pubkey, now, authKind, [["relay", url], ["challenge", challenge]], "", ⟨0⟩⟩))
      with
    | error e =>
      rw [hsign] at h
      cases h
    | ok sig =>
      rw [hsign] at h
      obtain rfl := Except.ok.inj h
      refine ⟨⟨signer, hsigner, rfl, hsign⟩, rfl, ⟨challenge, List.mem_singleton_self _, ?_, ?_, rfl⟩, rfl⟩
      · exact Nat.pos_of_ne_zero fun hzero => hchallenge.1 (String.utf8ByteSize_eq_zero_iff.mp hzero)
      · exact hchallenge.2

theorem ProofFor.mono {some' more : List String} {proof : NostrEvent} (h : ProofFor c url some' proof)
    (hsub : some' ⊆ more) : ProofFor c url more proof := by
  obtain ⟨challenge, hmem, hbound⟩ := h.bound
  exact ⟨h.signed, h.kind, ⟨challenge, hsub hmem, hbound⟩, h.hashed⟩

/-! ## What is said on a connection -/

section
variable {ω : Type}

/-- What has been written after the first words: nothing; or a proof; or a proof and, once it was
accepted, the first words again. -/
inductive Conversation (authOf : NostrEvent → ω) (again : ω) (proves accepted : NostrEvent → Prop) :
    Option String → Bool → List ω → Prop
  | silent : Conversation authOf again proves accepted none false []
  | proved (proof : NostrEvent) (h : proves proof) :
    Conversation authOf again proves accepted (some (hex32 proof.id.bytes)) false [authOf proof]
  | repeated (proof : NostrEvent) (h : proves proof) (haccepted : accepted proof) :
    Conversation authOf again proves accepted (some (hex32 proof.id.bytes)) true
      [authOf proof, again]

/-- One turn of a conversation: it answers the first challenge, or the word on its proof. -/
inductive Speaks (c : Client) (url : RelayUrl) (authOf : NostrEvent → ω) (again : ω)
    (msg : Option RelayMsg) : Option String → Bool → Option String → Bool → List ω → Prop
  | quiet (id : Option String) (done : Bool) : Speaks c url authOf again msg id done id done []
  | proves (done : Bool) (signer : MachineSigner) (challenge : String) (now : Nat)
    (proof : NostrEvent) (hsigner : c.signer = some signer) (hmsg : msg = some (.auth challenge))
    (hproof : authEvent c.sha256 signer url challenge now = .ok proof) :
    Speaks c url authOf again msg none done (some (hex32 proof.id.bytes)) done [authOf proof]
  | repeats (id reason : String) (hmsg : msg = some (.ok id true reason)) :
    Speaks c url authOf again msg (some id) false (some id) true [again]

/-- The challenges among some messages. -/
def challengesIn (msgs : List (Option RelayMsg)) : List String :=
  msgs.filterMap fun msg =>
    match msg with
    | some (.auth challenge) => some challenge
    | _ => none

/-- Among some messages the proof is accepted. -/
def AcceptedIn (msgs : List (Option RelayMsg)) (proof : NostrEvent) : Prop :=
  ∃ reason, some (.ok (hex32 proof.id.bytes) true reason) ∈ msgs

/-- A conversation over some messages. -/
def Conversed (c : Client) (url : RelayUrl) (authOf : NostrEvent → ω) (again : ω)
    (msgs : List (Option RelayMsg)) : Option String → Bool → List ω → Prop :=
  Conversation authOf again (ProofFor c url (challengesIn msgs)) (AcceptedIn msgs)

variable {authOf : NostrEvent → ω} {again : ω} {msgs more : List (Option RelayMsg)}
  {id id' : Option String} {done done' : Bool} {ws ws' : List ω}

theorem Conversed.mono (h : Conversed c url authOf again msgs id done ws) (hsub : msgs ⊆ more) :
    Conversed c url authOf again more id done ws := by
  have hchallenges : challengesIn msgs ⊆ challengesIn more := List.filterMap_subset _ hsub
  unfold Conversed at h ⊢
  cases h with
  | silent => exact .silent
  | proved proof hproof => exact .proved proof (hproof.mono hchallenges)
  | repeated proof hproof haccepted =>
    obtain ⟨reason, hmem⟩ := haccepted
    exact .repeated proof (hproof.mono hchallenges) ⟨reason, hsub hmem⟩

/-- A proof that waits for its word has been written. -/
theorem Conversed.proof_sent {name : String} (h : Conversed c url authOf again msgs id done ws)
    (hid : id = some name) (hdone : done = false) :
    ∃ proof, ProofFor c url (challengesIn msgs) proof ∧ name = hex32 proof.id.bytes ∧
      ws = [authOf proof] := by
  unfold Conversed at h
  cases h with
  | silent => cases hid
  | proved proof hproof => exact ⟨proof, hproof, (Option.some.inj hid).symm, rfl⟩
  | repeated => cases hdone

/-- Who has proved nothing has said nothing more. -/
theorem Conversed.silent_writes (h : Conversed c url authOf again msgs id done ws) (hid : id = none) :
    ws = [] := by
  unfold Conversed at h
  cases h with
  | silent => rfl
  | proved => cases hid
  | repeated => cases hid

/-- **Step.**  One more turn goes on with the conversation. -/
theorem Conversed.speak {msg : Option RelayMsg} (h : Conversed c url authOf again msgs id done ws)
    (hspeaks : Speaks c url authOf again msg id done id' done' ws') :
    Conversed c url authOf again (msgs ++ [msg]) id' done' (ws ++ ws') := by
  cases hspeaks with
  | quiet =>
    rw [List.append_nil]
    exact h.mono (List.subset_append_left _ _)
  | proves _ signer challenge now proof hsigner hmsg hproof =>
    have hmem : [challenge] ⊆ challengesIn (msgs ++ [msg]) := by
      rw [hmsg]
      unfold challengesIn
      rw [List.filterMap_append]
      exact List.subset_append_right _ _
    unfold Conversed at h ⊢
    cases h
    exact .proved proof ((proofFor_authEvent hsigner hproof).mono hmem)
  | repeats _ reason hmsg =>
    have hmore := h.mono (List.subset_append_left msgs [msg])
    obtain ⟨proof, hproof, rfl, rfl⟩ := hmore.proof_sent rfl rfl
    refine .repeated proof hproof ⟨reason, ?_⟩
    rw [hmsg]
    exact List.mem_concat_self

end

/-! ## Both loops converse -/

/-- A reading turn is one turn of the conversation. -/
theorem Reading.step_speaks {f : Filter} (r : Reading) (a : Arrival) :
    Speaks c url Write.auth .req (a.message c.json) r.authId r.authenticated
      (r.step c url f a).state.authId (r.step c url f a).state.authenticated
      (r.step c url f a).writes := by
  obtain ⟨msg, hmsg, hstep⟩ | ⟨-, left, -, hstep⟩ := step_cases c url f r a
  · rw [hmsg, hstep]
    cases msg with
    | event sub ev =>
      rw [hear]
      split
      · exact .quiet _ _
      · split
        · exact .quiet _ _
        · split <;> exact .quiet _ _
    | eose sub => exact .quiet _ _
    | ok id accepted reason =>
      rw [hear]
      split
      · rename_i hword
        obtain ⟨hdone, hid⟩ := hword
        unfold answered
        cases accepted with
        | false =>
          rw [if_pos rfl]
          exact .quiet _ _
        | true =>
          rw [if_neg (by decide), hdone, hid]
          exact .repeats id reason rfl
      · exact .quiet _ _
    | auth challenge =>
      rw [hear]
      split
      · rename_i signer hid hsigner
        unfold challenged
        split
        · exact .quiet _ _
        · rename_i proof hproof
          rw [hid]
          exact .proves _ signer challenge a.now proof hsigner rfl hproof
      · exact .quiet _ _
    | closed sub reason =>
      rw [hear]
      split
      · exact .quiet _ _
      · split <;> exact .quiet _ _
    | other => exact .quiet _ _
  · rw [hstep]
    exact .quiet _ _

/-- The message that a publish sees in an arrival, whatever its size. -/
def Arrival.reply (json : JsonCodec) (a : Arrival) : Option RelayMsg :=
  match a.item with
  | .text t => parseRelayMessage json t
  | _ => none

namespace Publishing
variable {ev : NostrEvent} {p : Publishing} {a : Arrival}

theorem step_of_reply {msg : RelayMsg} (h : a.reply c.json = some msg) :
    p.step c url ev a = p.hear c url ev a msg := by
  unfold Arrival.reply at h
  unfold step
  split at h
  · rename_i t hitem
    rw [hitem]
    exact congrArg (fun m : Option RelayMsg => m.elim _ _) h
  · cases h

theorem step_of_no_reply (h : a.reply c.json = none) (hitem : a.item ≠ .error) :
    p.step c url ev a = ⟨p, [], none⟩ := by
  unfold step
  cases hkind : a.item with
  | text t =>
    rw [Arrival.reply, hkind] at h
    exact congrArg (fun m : Option RelayMsg => m.elim _ _) h
  | other => rfl
  | error => exact absurd hkind hitem

/-- A turn hears a message, or it changes nothing: something else arrived, or the stream is over. -/
theorem step_cases (c : Client) (url : RelayUrl) (ev : NostrEvent) (p : Publishing) (a : Arrival) :
    (∃ msg, a.reply c.json = some msg ∧ p.step c url ev a = p.hear c url ev a msg) ∨
      a.reply c.json = none ∧
        ∃ left, (left = none ∨ left = some .closed) ∧ p.step c url ev a = ⟨p, [], left⟩ := by
  cases hmsg : a.reply c.json with
  | none =>
    refine .inr ⟨rfl, ?_⟩
    by_cases hitem : a.item = .error
    · exact ⟨some .closed, .inr rfl, by rw [step, hitem]⟩
    · exact ⟨none, .inl rfl, step_of_no_reply hmsg hitem⟩
  | some msg => exact .inl ⟨msg, rfl, step_of_reply hmsg⟩

/-- A waiting turn is one turn of the conversation. -/
theorem step_speaks (p : Publishing) (a : Arrival) :
    Speaks c url PublishWrite.auth (.event ev) (a.reply c.json) p.authId p.authAccepted
      (p.step c url ev a).state.authId (p.step c url ev a).state.authAccepted
      (p.step c url ev a).writes := by
  obtain ⟨msg, hmsg, hstep⟩ | ⟨-, left, -, hstep⟩ := step_cases c url ev p a
  · rw [hmsg, hstep]
    cases msg with
    | ok id accepted reason =>
      rw [hear]
      split
      · rename_i hword
        obtain ⟨hdone, hid⟩ := hword
        cases accepted with
        | false =>
          rw [if_neg Bool.false_ne_true]
          exact .quiet _ _
        | true =>
          rw [if_pos rfl, hdone, hid]
          exact .repeats id reason rfl
      · split
        · split <;> exact .quiet _ _
        · exact .quiet _ _
    | auth challenge =>
      rw [hear]
      split
      · rename_i signer hid hsigner
        unfold challenged
        split
        · exact .quiet _ _
        · rename_i proof hproof
          rw [hid]
          exact .proves _ signer challenge a.now proof hsigner rfl hproof
      · exact .quiet _ _
    | event => exact .quiet _ _
    | eose => exact .quiet _ _
    | closed => exact .quiet _ _
    | other => exact .quiet _ _
  · rw [hstep]
    exact .quiet _ _

/-- What an answering turn was told. -/
theorem step_accepted (h : (p.step c url ev a).left = some (.answered true)) :
    ∃ reason, a.reply c.json = some (.ok (hex32 ev.id.bytes) true reason) := by
  obtain ⟨msg, hmsg, hstep⟩ | ⟨-, left, hleft, hstep⟩ := step_cases c url ev p a
  · rw [hstep] at h
    rw [hmsg]
    have hwrite : a.sent.answer ≠ some (.answered true) := by
      cases a.sent <;> decide
    cases msg with
    | ok id accepted reason =>
      rw [hear] at h
      split at h
      · split at h
        · exact absurd h hwrite
        · cases h
      · split at h
        · rename_i hid
          split at h
          · cases h
          · obtain rfl : accepted = true := Answer.answered.inj (Option.some.inj h)
            exact ⟨reason, by rw [hid]⟩
        · cases h
    | auth challenge =>
      rw [hear] at h
      split at h
      · unfold challenged at h
        split at h
        · cases h
        · exact absurd h hwrite
      · cases h
    | event => cases h
    | eose => cases h
    | closed => cases h
    | other => cases h
  · rw [hstep] at h
    rcases hleft with rfl | rfl <;> cases h

/-- A word from which the client is still unasked is not on its proof, and, if the wait goes on, not on
the event. -/
theorem hear_ok_unasked {id reason : String} {accepted : Bool}
    (hrequired : (p.hear c url ev a (.ok id accepted reason)).state.authRequired = false)
    (hid : (p.hear c url ev a (.ok id accepted reason)).state.authId = none) :
    p.authRequired = false ∧ p.authId = none ∧
      (p.hear c url ev a (.ok id accepted reason)).left ≠ some .hung ∧
      ((p.hear c url ev a (.ok id accepted reason)).left = none → id ≠ hex32 ev.id.bytes) := by
  rw [hear] at hrequired hid ⊢
  by_cases hword : p.authAccepted = false ∧ p.authId = some id
  · rw [if_pos hword] at hid
    split at hid
    · rw [hword.2] at hid
      cases hid
    · rw [hword.2] at hid
      cases hid
  · rw [if_neg hword] at hrequired hid ⊢
    by_cases hname : id = hex32 ev.id.bytes
    · rw [if_pos hname] at hrequired hid ⊢
      by_cases hdemand : accepted = false ∧ reason.startsWith "auth-required:" ∧ c.signer.isSome ∧
          p.authAccepted = false
      · rw [if_pos hdemand] at hrequired
        cases hrequired
      · rw [if_neg hdemand] at hrequired hid ⊢
        exact ⟨hrequired, hid, by simp, by simp⟩
    · rw [if_neg hname] at hrequired hid ⊢
      exact ⟨hrequired, hid, by simp, fun _ => hname⟩

/-- A challenge after which the client is still unasked was not met by a proof. -/
theorem hear_auth_unasked {challenge : String}
    (hrequired : (p.hear c url ev a (.auth challenge)).state.authRequired = false)
    (hid : (p.hear c url ev a (.auth challenge)).state.authId = none) :
    p.authRequired = false ∧ p.authId = none ∧
      (p.hear c url ev a (.auth challenge)).left ≠ some .hung := by
  rw [hear] at hrequired hid ⊢
  split at hrequired
  · rename_i signer hnone hsigner
    rw [hnone, hsigner] at hid
    rw [hnone]
    dsimp only at hid ⊢
    unfold challenged at hrequired hid ⊢
    cases hproof : authEvent c.sha256 signer url challenge a.now with
    | error e =>
      rw [hproof] at hrequired
      exact ⟨hrequired, rfl, by simp⟩
    | ok proof =>
      rw [hproof] at hid
      cases hid
  · rename_i hother
    split at hid
    · rename_i signer hnone hsigner
      exact absurd hsigner (hother signer hnone)
    · exact ⟨hrequired, hid, by simp⟩

/-- A turn from which the client is still unasked: it was unasked before, it wrote nothing, and either
the relay has not said anything of the event or the wait is over. -/
theorem step_unasked (hrequired : (p.step c url ev a).state.authRequired = false)
    (hid : (p.step c url ev a).state.authId = none) :
    p.authRequired = false ∧ p.authId = none ∧ (p.step c url ev a).left ≠ some .hung ∧
      ((p.step c url ev a).left = none →
        ∀ accepted reason, a.reply c.json ≠ some (.ok (hex32 ev.id.bytes) accepted reason)) := by
  obtain ⟨msg, hmsg, hstep⟩ | ⟨hmsg, left, hleft, hstep⟩ := step_cases c url ev p a
  · rw [hstep] at hrequired hid ⊢
    rw [hmsg]
    cases msg with
    | ok id accepted reason =>
      obtain ⟨hrequired', hid', hhung, hname⟩ := hear_ok_unasked hrequired hid
      refine ⟨hrequired', hid', hhung, ?_⟩
      intro hnone accepted' reason' heq
      exact hname hnone (RelayMsg.ok.inj (Option.some.inj heq)).1
    | auth challenge =>
      obtain ⟨hrequired', hid', hhung⟩ := hear_auth_unasked hrequired hid
      exact ⟨hrequired', hid', hhung, by simp⟩
    | event => exact ⟨hrequired, hid, by simp [hear], by simp⟩
    | eose => exact ⟨hrequired, hid, by simp [hear], by simp⟩
    | closed => exact ⟨hrequired, hid, by simp [hear], by simp⟩
    | other => exact ⟨hrequired, hid, by simp [hear], by simp⟩
  · rw [hstep] at hrequired hid ⊢
    rw [hmsg]
    exact ⟨hrequired, hid, by rcases hleft with rfl | rfl <;> simp, by simp⟩

/-- Before anything was asked, only a challenge and a word on the event matter. -/
theorem step_idle (hitem : a.item ≠ .error)
    (hauth : ∀ challenge, a.reply c.json ≠ some (.auth challenge))
    (hok : ∀ accepted reason, a.reply c.json ≠ some (.ok (hex32 ev.id.bytes) accepted reason)) :
    start.step c url ev a = ⟨start, [], none⟩ := by
  cases hmsg : a.reply c.json with
  | none => exact step_of_no_reply hmsg hitem
  | some msg =>
    rw [step_of_reply hmsg]
    cases msg with
    | ok id accepted reason =>
      have hid : id ≠ hex32 ev.id.bytes := fun heq => hok accepted reason (heq ▸ hmsg)
      rw [hear, if_neg (fun hword => by cases hword.2), if_neg hid]
    | auth challenge => exact absurd hmsg (hauth challenge)
    | _ => rfl

/-- Before anything was asked, the relay's acceptance is the answer. -/
theorem step_ok {reason : String} (h : a.reply c.json = some (.ok (hex32 ev.id.bytes) true reason)) :
    start.step c url ev a = ⟨start, [], some (.answered true)⟩ := by
  rw [step_of_reply h, hear, if_neg (fun hword => by cases hword.2), if_pos rfl,
    if_neg (fun hdemand => by cases hdemand.1)]

/-- While the client stays unasked, the relay says nothing of the event. -/
theorem unasked_wait {as : List Arrival} (hstays : (start.wait c url ev as).left = none)
    (hrequired : (start.wait c url ev as).state.authRequired = false)
    (hid : (start.wait c url ev as).state.authId = none) :
    ∀ a ∈ as, ∀ accepted reason, a.reply c.json ≠ some (.ok (hex32 ev.id.bytes) accepted reason) := by
  refine TurnLoop.invariant (fun p a => Publishing.step c url ev p a)
    (I := fun as _ p => p.authRequired = false → p.authId = none → ∀ a ∈ as, ∀ accepted reason,
      a.reply c.json ≠ some (.ok (hex32 ev.id.bytes) accepted reason)) ?_ ?_ hstays hrequired hid
  · intro _ _ a ha
    cases ha
  · intro as _ p a ih hnone hrequired hid b hb
    obtain ⟨hrequired', hid', -, hsilent⟩ := step_unasked hrequired hid
    rcases List.mem_append.mp hb with hb | hb
    · exact ih hrequired' hid' b hb
    · rw [List.mem_singleton.mp hb]
      exact hsilent hnone

end Publishing

/-- **Run.**  A read converses. -/
theorem converses_read (c : Client) (url : RelayUrl) (f : Filter) (as : List Arrival) :
    Conversed c url Write.auth .req (as.map (Arrival.message c.json))
      (Reading.start.read c url f as).state.authId (Reading.start.read c url f as).state.authenticated
      (Reading.start.read c url f as).writes := by
  obtain ⟨heard, hheard, hconversed⟩ := TurnLoop.reached
    (fun r a => Reading.step c url f r a) (s := Reading.start)
    (I := fun as ws r => Conversed c url Write.auth .req (as.map (Arrival.message c.json)) r.authId
      r.authenticated ws) .silent
    (fun as ws r a h => by
      rw [List.map_append]
      exact h.speak (r.step_speaks a)) as
  exact hconversed.mono (List.map_subset _ hheard.subset)

/-- And so does a publish. -/
theorem converses_wait (c : Client) (url : RelayUrl) (ev : NostrEvent) (as : List Arrival) :
    Conversed c url PublishWrite.auth (.event ev) (as.map (Arrival.reply c.json))
      (Publishing.start.wait c url ev as).state.authId
      (Publishing.start.wait c url ev as).state.authAccepted
      (Publishing.start.wait c url ev as).writes := by
  obtain ⟨heard, hheard, hconversed⟩ := TurnLoop.reached
    (fun p a => Publishing.step c url ev p a) (s := Publishing.start)
    (I := fun as ws p => Conversed c url PublishWrite.auth (.event ev)
      (as.map (Arrival.reply c.json)) p.authId p.authAccepted ws) .silent
    (fun as ws p a h => by
      rw [List.map_append]
      exact h.speak (p.step_speaks a)) as
  exact hconversed.mono (List.map_subset _ hheard.subset)

/-! ## What a delivery means -/

/-- A delivery that was reported: the relay's word, or its silence until the time was out. -/
theorem outcome_ok {ev : NostrEvent} {as : List Arrival} {timedOut : Bool}
    (h : outcome (Publishing.start.wait c url ev as) timedOut = .ok) :
    (∃ a ∈ as, ∃ reason, a.reply c.json = some (.ok (hex32 ev.id.bytes) true reason)) ∨
      timedOut = true ∧ (Publishing.start.wait c url ev as).left = none ∧
        (Publishing.start.wait c url ev as).state.authRequired = false ∧
        (Publishing.start.wait c url ev as).state.authId = none := by
  have htimeout : (Publishing.start.wait c url ev as).state.timedOut = .ok →
      (Publishing.start.wait c url ev as).state.authRequired = false ∧
        (Publishing.start.wait c url ev as).state.authId = none := by
    intro hok
    unfold Publishing.timedOut at hok
    split at hok
    · cases hok
    · rename_i hasked
      rw [Bool.or_eq_true, not_or, Bool.not_eq_true, Option.not_isSome_iff_eq_none] at hasked
      exact hasked
  rcases TurnLoop.left_or_stays (fun p a => Publishing.step c url ev p a) Publishing.start as with
    hstays | ⟨pre, i, post, rfl, hpre, hleft, hloop⟩
  · have hnone : (Publishing.start.wait c url ev as).left = none := hstays
    unfold outcome at h
    rw [hnone] at h
    dsimp only at h
    split at h
    · rename_i htimed
      obtain ⟨hrequired, hid⟩ := htimeout h
      exact .inr ⟨htimed, hnone, hrequired, hid⟩
    · cases h
  · have hwait : Publishing.start.wait c url ev (pre ++ i :: post) = _ := hloop
    have hleft' := congrArg Turn.left hwait
    have hstate := congrArg Turn.state hwait
    obtain ⟨l, hl⟩ := Option.ne_none_iff_exists'.mp hleft
    unfold outcome at h
    rw [hleft'.trans hl] at h
    cases l with
    | closed => cases h
    | hung =>
      obtain ⟨hrequired, hid⟩ := htimeout h
      rw [hstate] at hrequired hid
      exact absurd hl (Publishing.step_unasked hrequired hid).2.2.1
    | answered accepted =>
      cases accepted with
      | false => cases h
      | true =>
        obtain ⟨reason, hreply⟩ := Publishing.step_accepted hl
        exact .inl ⟨i, List.mem_append_right _ List.mem_cons_self, reason, hreply⟩

theorem publishOne_of_opened {allowInsecure : Bool} {ev : NostrEvent} {v : Visit}
    (h : v.Opened url allowInsecure) : publishOne c url allowInsecure ev v =
      some (outcome (Publishing.start.wait c url ev v.arrivals) v.timedOut) := by
  obtain ⟨hallowed, hconnect, hrequest⟩ := h
  unfold publishOne
  rw [hallowed, hconnect, hrequest]
  rfl

theorem opened_of_publishOne {allowInsecure : Bool} {ev : NostrEvent} {v : Visit}
    (h : publishOne c url allowInsecure ev v = some .ok) : v.Opened url allowInsecure := by
  unfold publishOne at h
  cases hallowed : relayUrlAllowed url allowInsecure with
  | none => rw [hallowed] at h; cases h
  | some allowed =>
    rw [hallowed] at h
    cases allowed with
    | false => cases h
    | true =>
      cases hconnect : v.connect with
      | error e => rw [hconnect] at h; cases h
      | ok u =>
        cases hrequest : v.request with
        | error e => rw [hconnect, hrequest] at h; cases h
        | ok u' => exact ⟨hallowed, hconnect, hrequest⟩

def okText : List UInt8 :=
  JsonCodec.asciiBytes <| "[\"OK\",\"" ++ hex32 1 ++ "\",true,\"\"]"

/-- The notice and the acceptance, parsed. -/
def parseReplies (bytes : List UInt8) : Option Json :=
  if bytes = noticeText then some (.arr [.str "NOTICE", .str "slow down"])
  else if bytes = okText then some (.arr [.str "OK", .str (hex32 1), .bool true, .str ""])
  else none

def publishClient : Client := ⟨⟨fun _ => [], parseReplies⟩, fun _ => ⟨0⟩, none⟩

def acceptance : Arrival := ⟨.text okText, 0, .through⟩

/-- A notice, and then that the wrap is taken. -/
def acceptVisit : Visit := ⟨.ok (), .ok (), [notice, acceptance], false⟩

theorem notice_reply : notice.reply publishClient.json = some .other := by decide +kernel

end Relay

end Kintrinsic
