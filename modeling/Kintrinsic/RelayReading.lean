import Kintrinsic.DomainNames
import Kintrinsic.EffectRun
import Kintrinsic.FirstSeen
import Kintrinsic.GiftWrap

/-! # Reading from relays

One subscription is read from one relay at a time, and a relay is never trusted: it may send anything,
in any order, and stop when it likes.  `queryOne` is what such a read comes to.  Whatever the relay
does, a read keeps to its filter and its ceilings, nothing that cannot be used hides what comes after
it, and an empty answer is only reported when the relay has said that there is nothing more
(`Heard`). -/
namespace Kintrinsic

/-! ## Subscriptions -/

abbrev RelayUrl := String

/-- A subscription filter; `limit` is asked of the relay and applied to the joined answer. -/
structure Filter where
  kinds : List Nat
  authors : List PubKey
  pTags : List PubKey
  since : Option Nat
  limit : Option Nat

/-- Whether a tag is a `p` tag of one of the keys. -/
def namesRecipient (keys : List PubKey) : List String → Bool
  | "p" :: value :: _ => keys.any fun k => k.toHex == value
  | _ => false

/-- `Filter::matches`. -/
def Filter.accepts (f : Filter) (ev : NostrEvent) : Bool :=
  (f.kinds.isEmpty || f.kinds.contains ev.kind) &&
    (f.authors.isEmpty || f.authors.contains ev.pubkey) &&
    (f.pTags.isEmpty || ev.tags.any (namesRecipient f.pTags)) &&
    f.since.all fun since => decide (since ≤ ev.createdAt)

namespace Relay

/-- The filter of a poll: the wraps for a machine since a time. -/
def inbound (machine : PubKey) (since : Nat) : Filter :=
  ⟨[Kinds.giftWrap], [], [machine], some since, none⟩

theorem accepts_inbound {machine : PubKey} {since : Nat} {w : NostrEvent}
    (hkind : w.kind = Kinds.giftWrap) (hnamed : w.tags.any (namesRecipient [machine]) = true)
    (hsince : since ≤ w.createdAt) : (inbound machine since).accepts w = true := by
  unfold Filter.accepts inbound
  simp [hkind, hnamed, hsince]

def subId : String := "charter"
def maxEventsPerQuery : Nat := 1024
def maxBytesPerQuery : Nat := 8 * 1024 * 1024
def maxWsMessageBytes : Nat := 256 * 1024

/-- What an event costs to keep: its two fields of any length. -/
def eventWeight (ev : NostrEvent) : Nat :=
  ev.content.utf8ByteSize + ((ev.tags.flatMap id).map String.utf8ByteSize).sum

def weight (evs : List NostrEvent) : Nat := (evs.map eventWeight).sum

def acceptEvent (f : Filter) (ev : NostrEvent) (accepted bytes : Nat) : Bool :=
  decide (accepted < maxEventsPerQuery) && decide (bytes + eventWeight ev ≤ maxBytesPerQuery) &&
    f.accepts ev

/-! ## What a relay says -/

inductive RelayMsg
  | event (sub : String) (ev : NostrEvent)
  | eose (sub : String)
  | ok (id : String) (accepted : Bool) (reason : String)
  | auth (challenge : String)
  | closed (sub reason : String)
  | other
deriving DecidableEq

/-- `arr.get(i)?.as_str()?`. -/
def textAt (arr : List Json) (i : Nat) : Option String := arr[i]?.bind Json.asString

/-- A message from the elements after its name. -/
def messageOf (name : String) (arr : List Json) : Option RelayMsg :=
  if name = "EVENT" then
    (textAt arr 1).bind fun sub => (arr[2]?.bind NostrEvent.ofJson).map (.event sub)
  else if name = "EOSE" then (textAt arr 1).map .eose
  else if name = "OK" then
    (textAt arr 1).bind fun id => (arr[2]?.bind Json.asBool).map fun accepted =>
      .ok id accepted ((textAt arr 3).getD "")
  else if name = "AUTH" then (textAt arr 1).map .auth
  else if name = "CLOSED" then (textAt arr 1).bind fun sub => (textAt arr 2).map (.closed sub)
  else some .other

theorem messageOf_event (name sub : String) (v : Json) :
    messageOf "EVENT" [.str name, .str sub, v] = (NostrEvent.ofJson v).map (.event sub) := by
  rw [messageOf, if_pos rfl]
  rfl

def parseRelayMessage (json : JsonCodec) (text : List UInt8) : Option RelayMsg := do
  let arr ← (← json.parse text).asArray
  let name ← (← arr.head?).asString
  messageOf name arr

theorem parseRelayMessage_of_parse {json : JsonCodec} {text : List UInt8} {name : String}
    {rest : List Json} (h : json.parse text = some (.arr (.str name :: rest))) :
    parseRelayMessage json text = messageOf name (.str name :: rest) := by
  unfold parseRelayMessage
  rw [h]
  rfl

/-- What the socket yields next. -/
inductive Item
  | text (t : List UInt8)
  | other
  | error

/-- What becomes of what the client writes: the time may run out before it is through. -/
inductive Sent
  | through
  | refused
  | pending
deriving DecidableEq

/-- An item, the clock when it is handled, and what becomes of what is then written. -/
structure Arrival where
  item : Item
  now : Nat
  sent : Sent

/-- The message that an arrival carries, if it is a text of a size and form that is looked at. -/
def Arrival.message (json : JsonCodec) (a : Arrival) : Option RelayMsg :=
  match a.item with
  | .text t => if maxWsMessageBytes < t.length then none else parseRelayMessage json t
  | _ => none

/-! ## Authentication -/

def authKind : Nat := 22242

/-- `MachineSigner`: a key, and what it makes of an id. -/
structure MachineSigner where
  pubkey : PubKey
  sign : EventId → Except String Sig

/-- `auth_event`: the proof for one relay and one challenge. -/
def authEvent (sha256 : String → EventId) (signer : MachineSigner) (relay challenge : String)
    (now : Nat) : Except String NostrEvent :=
  if challenge = "" ∨ 4096 < challenge.utf8ByteSize then
    .error "Crypto(\"invalid relay authentication challenge\")"
  else do
    let ev : NostrEvent :=
      ⟨⟨0⟩, signer.pubkey, now, authKind, [["relay", relay], ["challenge", challenge]], "", ⟨0⟩⟩
    let id := sha256 (Nip59.canonicalEventString ev)
    let sig ← signer.sign id
    .ok { ev with id := id, sig := sig }

/-! ## One subscription -/

/-- The variables of `read_events`. -/
structure Reading where
  out : List NostrEvent
  bytes : Nat
  authId : Option String
  authenticated : Bool

/-- What the client writes on the socket while it reads. -/
inductive Write
  | auth (proof : NostrEvent)
  | req
deriving DecidableEq

/-- How the reading loop is left. -/
inductive Left
  | completed
  | stopped
  | hung
  | failed (reason : String)
deriving DecidableEq

/-- How a write leaves the loop. -/
def Sent.left (s : Sent) (reason : String) : Option Left :=
  match s with
  | .through => none
  | .refused => some (.failed reason)
  | .pending => some .hung

/-- What the reader works with. -/
structure Client where
  json : JsonCodec
  sha256 : String → EventId
  signer : Option MachineSigner

/-- Nothing read yet. -/
def Reading.start : Reading := ⟨[], 0, none, false⟩

namespace Reading
variable (c : Client) (url : RelayUrl) (f : Filter)

/-- A proof for the first challenge, if there is a signer. -/
def challenged (r : Reading) (a : Arrival) (signer : MachineSigner) (challenge : String) :
    Turn Reading Write Left :=
  match authEvent c.sha256 signer url challenge a.now with
  | .error e => ⟨r, [], some (.failed ("relay authentication: " ++ e))⟩
  | .ok proof =>
    ⟨{ r with authId := some (hex32 proof.id.bytes) }, [.auth proof],
      a.sent.left "could not send relay authentication"⟩

/-- The relay's word on the proof: the subscription is asked for again. -/
def answered (r : Reading) (a : Arrival) (accepted : Bool) (reason : String) :
    Turn Reading Write Left :=
  if accepted = false then ⟨r, [], some (.failed ("relay authentication rejected: " ++ reason))⟩
  else ⟨{ r with authenticated := true }, [.req],
    a.sent.left "could not retry authenticated subscription"⟩

/-- The `match` of the reading loop. -/
def hear (r : Reading) (a : Arrival) : RelayMsg → Turn Reading Write Left
  | .event sub ev =>
    if sub ≠ subId then ⟨r, [], none⟩
    else if maxEventsPerQuery ≤ r.out.length ∨ maxBytesPerQuery ≤ r.bytes then ⟨r, [], some .stopped⟩
    else if acceptEvent f ev r.out.length r.bytes then
      ⟨{ r with out := r.out ++ [ev], bytes := r.bytes + eventWeight ev }, [], none⟩
    else ⟨r, [], none⟩
  | .eose sub => ⟨r, [], if sub ≠ subId then none else some .completed⟩
  | .auth challenge =>
    match r.authId, c.signer with
    | none, some signer => r.challenged c url a signer challenge
    | _, _ => ⟨r, [], none⟩
  | .ok id accepted reason =>
    if r.authenticated = false ∧ r.authId = some id then r.answered a accepted reason
    else ⟨r, [], none⟩
  | .closed sub reason =>
    if sub ≠ subId then ⟨r, [], none⟩
    else if reason.startsWith "auth-required:" ∧ c.signer.isSome ∧ r.authenticated = false then
      ⟨r, [], none⟩
    else ⟨r, [], some (.failed ("subscription refused: " ++ reason))⟩
  | .other => ⟨r, [], none⟩

/-- A text that is too long or not understood is skipped; an error ends the stream. -/
def step (r : Reading) (a : Arrival) : Turn Reading Write Left :=
  match a.item with
  | .error => ⟨r, [], some .stopped⟩
  | _ => (a.message c.json).elim ⟨r, [], none⟩ (r.hear c url f a)

/-- The reading loop over what arrives. -/
def read (r : Reading) (as : List Arrival) : Turn Reading Write Left :=
  TurnLoop.loop (fun r a => r.step c url f a) r as

variable {c url f} in
theorem read_of_stays {r r' : Reading} {a : Arrival} {as : List Arrival}
    (h : r.step c url f a = ⟨r', [], none⟩) : r.read c url f (a :: as) = r'.read c url f as := by
  unfold read
  rw [TurnLoop.loop_cons_of_stays (congrArg Turn.left h), h]
  rfl

variable {c url f} in
theorem read_of_left {r : Reading} {a : Arrival} {as : List Arrival} {t : Turn Reading Write Left}
    (h : r.step c url f a = t) (hleft : t.left ≠ none) : r.read c url f (a :: as) = t := by
  unfold read
  rw [TurnLoop.loop_cons_of_left (h ▸ hleft), h]

/-- What `read_events` says after its loop. -/
def finish (r : Reading) (completed : Bool) : Except String (List NostrEvent) :=
  if r.authId.isSome && !r.authenticated && !completed && r.out.isEmpty then
    .error "relay authentication did not complete"
  else if !completed && r.out.isEmpty then
    .error "relay closed before completing the subscription"
  else .ok r.out

end Reading

/-- What has been read when the time ran out. -/
def Reading.timedOut (r : Reading) : Except String (List NostrEvent) :=
  if r.out.isEmpty then .error "query timed out" else .ok r.out

/-- The answer of `query_one` once it has subscribed.  With the loop never left, either the time ran
out or the stream ended. -/
def answer (t : Turn Reading Write Left) (timedOut : Bool) : Except String (List NostrEvent) :=
  match t.left with
  | some (.failed reason) => .error reason
  | some .completed => t.state.finish true
  | some .stopped => t.state.finish false
  | some .hung => t.state.timedOut
  | none => if timedOut then t.state.timedOut else t.state.finish false

/-! ## One relay -/

/-- `&u[..n]`: the characters of the first `n` bytes, if a character ends there. -/
def bytePrefix : Nat → List Char → Option (List Char)
  | 0, _ => some []
  | _, [] => none
  | n, ch :: chars =>
    if ch.utf8Size ≤ n then (bytePrefix (n - ch.utf8Size) chars).map (ch :: ·) else none

/-- Whether the first bytes of a URL are a scheme; a character across their end is a panic. -/
def hasScheme (scheme : String) (url : List Char) : Option Bool :=
  if Json.width url < scheme.utf8ByteSize then some false
  else (bytePrefix scheme.utf8ByteSize url).map fun front =>
    front.map Text.asciiLower == scheme.toList

/-- `relay_url_allowed`: only `wss://`, and `ws://` where that was opted into. -/
def relayUrlAllowed (url : RelayUrl) (allowInsecure : Bool) : Option Bool := do
  let u := Text.trim url.toList
  if ← hasScheme "wss://" u then some true
  else if allowInsecure then hasScheme "ws://" u
  else some false

/-- What becomes of one relay in one query: the connection, the subscription, what arrives, and
whether the time ran out before the stream ended. -/
structure Visit where
  connect : Except String Unit
  request : Except String Unit
  arrivals : List Arrival
  timedOut : Bool

/-- `RelayIoError`: no relay could be read. -/
structure RelayIoError where
  unreachable : String
deriving DecidableEq

variable (c : Client)

/-- `query_one`; nothing if the URL makes it panic. -/
def queryOne (url : RelayUrl) (allowInsecure : Bool) (f : Filter) (v : Visit) :
    Option (Except RelayIoError (List NostrEvent)) := do
  let allowed ← relayUrlAllowed url allowInsecure
  if allowed = false then
    some (.error ⟨url ++
      ": refusing a non-wss relay url (set CHARTER_ALLOW_INSECURE_RELAY=1 to allow it)"⟩)
  else some <| Except.mapError (fun e => ⟨url ++ ": " ++ e⟩) do
    v.connect
    v.request.mapError fun e => "send REQ: " ++ e
    answer (Reading.start.read c url f v.arrivals) v.timedOut

/-- A connection that was opened and written to. -/
def Visit.Opened (v : Visit) (url : RelayUrl) (allowInsecure : Bool) : Prop :=
  relayUrlAllowed url allowInsecure = some true ∧ v.connect = .ok () ∧ v.request = .ok ()

/-! ## What a read keeps -/

section
variable {c : Client} {url : RelayUrl} {f : Filter}

/-- The event of the subscription that an arrival carries. -/
def Arrival.carried (json : JsonCodec) (a : Arrival) : Option NostrEvent :=
  match a.message json with
  | some (.event sub ev) => if sub = subId then some ev else none
  | _ => none

/-- The relay has sent all it holds. -/
def Arrival.SaysAll (json : JsonCodec) (a : Arrival) : Prop := a.message json = some (.eose subId)

/-- Nothing is read after it. -/
def Arrival.Ends (json : JsonCodec) (a : Arrival) : Prop :=
  a.SaysAll json ∨ a.item = .error ∨ a.sent = .pending

/-- What is left of the ceilings does not take the event. -/
def Reading.Full (r : Reading) (ev : NostrEvent) : Prop :=
  maxEventsPerQuery ≤ r.out.length ∨ maxBytesPerQuery ≤ r.bytes ∨
    maxBytesPerQuery < r.bytes + eventWeight ev

/-- **What has been read of what was heard**: only what fits the filter and the ceilings, and all
of that until a ceiling is reached. -/
structure Heard (c : Client) (f : Filter) (as : List Arrival) (r : Reading) : Prop where
  served : r.out.Sublist ((as.filterMap (Arrival.carried c.json)).filter f.accepts)
  bytes : r.bytes = weight r.out
  few : r.out.length ≤ maxEventsPerQuery
  light : r.bytes ≤ maxBytesPerQuery
  kept : ∀ a ∈ as, ∀ ev, a.carried c.json = some ev → f.accepts ev = true →
    ev ∈ r.out ∨ r.Full ev

theorem heard_start : Heard c f [] Reading.start where
  served := List.Sublist.slnil
  bytes := rfl
  few := Nat.zero_le _
  light := Nat.zero_le _
  kept := by
    intro a ha
    cases ha

theorem weight_append (l : List NostrEvent) (ev : NostrEvent) :
    weight (l ++ [ev]) = weight l + eventWeight ev := by
  unfold weight
  rw [List.map_append, List.sum_append]
  simp

namespace Reading
variable {r : Reading} {a : Arrival} {msg : RelayMsg}

/-- What is not an event of the subscription leaves what was read. -/
theorem hear_quiet (h : ∀ ev, msg ≠ .event subId ev) :
    (r.hear c url f a msg).state.out = r.out ∧ (r.hear c url f a msg).state.bytes = r.bytes := by
  cases msg with
  | event sub ev =>
    have hsub : sub ≠ subId := fun heq => h ev (heq ▸ rfl)
    rw [hear, if_pos hsub]
    exact ⟨rfl, rfl⟩
  | eose sub => exact ⟨rfl, rfl⟩
  | ok id accepted reason =>
    unfold hear
    dsimp only
    split
    · unfold answered
      split <;> exact ⟨rfl, rfl⟩
    · exact ⟨rfl, rfl⟩
  | auth challenge =>
    unfold hear
    dsimp only
    split
    · unfold challenged
      split <;> exact ⟨rfl, rfl⟩
    · exact ⟨rfl, rfl⟩
  | closed sub reason =>
    unfold hear
    dsimp only
    split
    · exact ⟨rfl, rfl⟩
    · split <;> exact ⟨rfl, rfl⟩
  | other => exact ⟨rfl, rfl⟩

theorem left_sent {reason : String} {l : Left} (h : a.sent.left reason = some l) :
    (∃ reason, l = .failed reason) ∨ l = .hung ∧ a.sent = .pending := by
  cases hsent : a.sent with
  | through => rw [hsent] at h; cases h
  | refused =>
    rw [hsent] at h
    exact .inl ⟨_, (Option.some.inj h).symm⟩
  | pending =>
    rw [hsent] at h
    exact .inr ⟨(Option.some.inj h).symm, rfl⟩

/-- Any other message than an event or the end of all only ever makes the read fail, or hang. -/
theorem hear_failed {l : Left} (hevent : ∀ ev, msg ≠ .event subId ev) (heose : msg ≠ .eose subId)
    (h : (r.hear c url f a msg).left = some l) :
    (∃ reason, l = .failed reason) ∨ l = .hung ∧ a.sent = .pending := by
  cases msg with
  | event sub ev =>
    have hsub : sub ≠ subId := fun heq => hevent ev (heq ▸ rfl)
    rw [hear, if_pos hsub] at h
    cases h
  | eose sub =>
    have hsub : sub ≠ subId := fun heq => heose (heq ▸ rfl)
    have hnone : (r.hear c url f a (.eose sub)).left = none := if_pos hsub
    rw [hnone] at h
    cases h
  | ok id accepted reason =>
    rw [hear] at h
    split at h
    · unfold answered at h
      split at h
      · exact .inl ⟨_, (Option.some.inj h).symm⟩
      · exact left_sent h
    · cases h
  | auth challenge =>
    rw [hear] at h
    split at h
    · unfold challenged at h
      split at h
      · exact .inl ⟨_, (Option.some.inj h).symm⟩
      · exact left_sent h
    · cases h
  | closed sub reason =>
    rw [hear] at h
    split at h
    · cases h
    · split at h
      · cases h
      · exact .inl ⟨_, (Option.some.inj h).symm⟩
  | other => cases h

/-- An event of the subscription is taken if it fits, and leaves the loop at a ceiling. -/
theorem hear_event (r : Reading) (a : Arrival) (ev : NostrEvent) :
    r.hear c url f a (.event subId ev) =
      if maxEventsPerQuery ≤ r.out.length ∨ maxBytesPerQuery ≤ r.bytes then ⟨r, [], some .stopped⟩
      else if acceptEvent f ev r.out.length r.bytes then
        ⟨{ r with out := r.out ++ [ev], bytes := r.bytes + eventWeight ev }, [], none⟩
      else ⟨r, [], none⟩ := by
  rw [hear, if_neg (not_not_intro rfl)]

theorem step_of_message (h : a.message c.json = some msg) :
    r.step c url f a = r.hear c url f a msg := by
  unfold step
  cases hitem : a.item with
  | text t => exact congrArg (fun m : Option RelayMsg => m.elim _ _) h
  | other => rw [Arrival.message, hitem] at h; cases h
  | error => rw [Arrival.message, hitem] at h; cases h

theorem step_of_no_message (h : a.message c.json = none) (hitem : a.item ≠ .error) :
    r.step c url f a = ⟨r, [], none⟩ := by
  unfold step
  cases hkind : a.item with
  | text t => exact congrArg (fun m : Option RelayMsg => m.elim _ _) h
  | other => exact congrArg (fun m : Option RelayMsg => m.elim _ _) h
  | error => exact absurd hkind hitem

/-- A turn hears a message, or it changes nothing: something else arrived, or the stream is over. -/
theorem step_cases (c : Client) (url : RelayUrl) (f : Filter) (r : Reading) (a : Arrival) :
    (∃ msg, a.message c.json = some msg ∧ r.step c url f a = r.hear c url f a msg) ∨
      a.message c.json = none ∧ ∃ left, (left = none ∨ left = some .stopped ∧ a.item = .error) ∧
        r.step c url f a = ⟨r, [], left⟩ := by
  cases hmsg : a.message c.json with
  | none =>
    refine .inr ⟨rfl, ?_⟩
    by_cases hitem : a.item = .error
    · exact ⟨some .stopped, .inr ⟨rfl, hitem⟩, by rw [step, hitem]⟩
    · exact ⟨none, .inl rfl, step_of_no_message hmsg hitem⟩
  | some msg => exact .inl ⟨msg, rfl, step_of_message hmsg⟩

theorem carried_of_message (h : a.message c.json = some msg) (hmsg : ∀ ev, msg ≠ .event subId ev) :
    a.carried c.json = none := by
  unfold Arrival.carried
  rw [h]
  cases msg with
  | event sub ev =>
    have hsub : sub ≠ subId := fun heq => hmsg ev (heq ▸ rfl)
    exact if_neg hsub
  | _ => rfl

theorem carried_event {ev : NostrEvent} (h : a.message c.json = some (.event subId ev)) :
    a.carried c.json = some ev := by
  unfold Arrival.carried
  rw [h]
  exact if_pos rfl

/-- **One turn.**  What was read stays, or one event that fits is added to it; an event that is not
added though it fits the filter meets a ceiling. -/
theorem step_reads (r : Reading) (a : Arrival) :
    ((r.step c url f a).state.out = r.out ∧ (r.step c url f a).state.bytes = r.bytes ∧
      ∀ ev, a.carried c.json = some ev → f.accepts ev = true → r.Full ev) ∨
    ∃ ev, a.carried c.json = some ev ∧ acceptEvent f ev r.out.length r.bytes = true ∧
      (r.step c url f a).state.out = r.out ++ [ev] ∧
      (r.step c url f a).state.bytes = r.bytes + eventWeight ev ∧
      (r.step c url f a).left = none := by
  obtain ⟨msg, hmsg, hstep⟩ | ⟨hmsg, left, -, hstep⟩ := step_cases c url f r a
  · rw [hstep]
    by_cases hevent : ∃ ev, msg = .event subId ev
    · obtain ⟨ev, rfl⟩ := hevent
      have hcarried := carried_event hmsg
      rw [hear_event, hcarried]
      by_cases hceiling : maxEventsPerQuery ≤ r.out.length ∨ maxBytesPerQuery ≤ r.bytes
      · rw [if_pos hceiling]
        exact .inl ⟨rfl, rfl, fun _ _ _ => hceiling.imp_right .inl⟩
      · rw [if_neg hceiling]
        by_cases hfits : acceptEvent f ev r.out.length r.bytes = true
        · rw [if_pos hfits]
          exact .inr ⟨ev, rfl, hfits, rfl, rfl, rfl⟩
        · rw [if_neg hfits]
          refine .inl ⟨rfl, rfl, ?_⟩
          intro ev' hev hmatch
          obtain rfl := Option.some.inj hev
          unfold acceptEvent at hfits
          rw [hmatch, Bool.and_true, Bool.and_eq_true, decide_eq_true_eq, decide_eq_true_eq] at hfits
          unfold Full
          omega
    · have hquiet : ∀ ev, msg ≠ .event subId ev := fun ev heq => hevent ⟨ev, heq⟩
      obtain ⟨hout, hbytes⟩ := @hear_quiet c url f r a msg hquiet
      rw [carried_of_message hmsg hquiet]
      exact .inl ⟨hout, hbytes, fun _ hev => absurd hev (Option.some_ne_none _).symm⟩
  · have hcarried : a.carried c.json = none := by
      rw [Arrival.carried, hmsg]
    rw [hstep, hcarried]
    exact .inl ⟨rfl, rfl, fun _ hev => absurd hev (Option.some_ne_none _).symm⟩

theorem failed_spec {P Q : Prop} {l : Left} (h : msg ≠ .eose subId)
    (hl : (∃ reason, l = .failed reason) ∨ l = .hung ∧ Q) :
    (l = .completed ↔ some msg = some (.eose subId)) ∧ (l = .stopped → P) ∧ (l = .hung → Q) := by
  have hm : some msg ≠ some (.eose subId) := fun heq => h (Option.some.inj heq)
  rcases hl with ⟨reason, rfl⟩ | ⟨rfl, hq⟩
  · simp [hm]
  · simp [hm, hq]

/-- What a turn leaves the loop for. -/
theorem step_left {l : Left} (h : (r.step c url f a).left = some l) :
    (l = .completed ↔ a.SaysAll c.json) ∧
      (l = .stopped → a.item = .error ∨ maxEventsPerQuery ≤ r.out.length ∨
        maxBytesPerQuery ≤ r.bytes) ∧ (l = .hung → a.sent = .pending) := by
  unfold Arrival.SaysAll
  obtain ⟨msg, hmsg, hstep⟩ | ⟨hmsg, left, hleft, hstep⟩ := step_cases c url f r a
  · rw [hstep] at h
    rw [hmsg]
    by_cases heose : msg = .eose subId
    · subst heose
      have hl : (if subId ≠ subId then none else some Left.completed) = some l := h
      rw [if_neg (not_not_intro rfl)] at hl
      obtain rfl := Option.some.inj hl
      exact ⟨⟨fun _ => rfl, fun _ => rfl⟩, by simp, by simp⟩
    · by_cases hevent : ∃ ev, msg = .event subId ev
      · obtain ⟨ev, rfl⟩ := hevent
        rw [hear_event] at h
        split at h
        · rename_i hceiling
          obtain rfl := Option.some.inj h
          exact ⟨⟨by simp, fun heq => absurd (Option.some.inj heq) heose⟩, fun _ => .inr hceiling,
            by simp⟩
        · split at h <;> cases h
      · exact failed_spec heose (hear_failed (fun ev heq => hevent ⟨ev, heq⟩) heose h)
  · rw [hstep] at h
    rw [hmsg]
    rcases hleft with rfl | ⟨rfl, hitem⟩
    · cases h
    · obtain rfl := Option.some.inj h
      exact ⟨by simp, fun _ => .inl hitem, by simp⟩

end Reading

theorem Heard.full_mono {r r' : Reading} {ev : NostrEvent} (hout : r.out.length ≤ r'.out.length)
    (hbytes : r.bytes ≤ r'.bytes) (h : r.Full ev) : r'.Full ev := by
  unfold Reading.Full at h ⊢
  omega

/-- **Step.**  A turn that stays keeps what has been read. -/
theorem Heard.step (url : RelayUrl) {as : List Arrival} {r : Reading} (h : Heard c f as r) (a : Arrival) :
    Heard c f (as ++ [a]) (r.step c url f a).state := by
  have hmono : ((as.filterMap (Arrival.carried c.json)).filter f.accepts).Sublist
      (((as ++ [a]).filterMap (Arrival.carried c.json)).filter f.accepts) := by
    rw [List.filterMap_append]
    exact (List.sublist_append_left _ _).filter _
  rcases @Reading.step_reads c url f r a with ⟨hout, hbytes, hmissed⟩ | ⟨ev, hev, hfits, hout, hbytes, -⟩
  · have hfull : ∀ ev, r.Full ev → (r.step c url f a).state.Full ev := by
      intro ev
      exact full_mono (by rw [hout]) (by rw [hbytes])
    refine ⟨?_, ?_, ?_, ?_, ?_⟩
    · rw [hout]
      exact h.served.trans hmono
    · rw [hout, hbytes]
      exact h.bytes
    · rw [hout]
      exact h.few
    · rw [hbytes]
      exact h.light
    · intro b hb ev hcarried hmatch
      rcases List.mem_append.mp hb with hb | hb
      · rw [hout]
        exact (h.kept b hb ev hcarried hmatch).imp_right (hfull ev)
      · obtain rfl := List.mem_singleton.mp hb
        exact .inr (hfull ev (hmissed ev hcarried hmatch))
  · unfold acceptEvent at hfits
    rw [Bool.and_eq_true, Bool.and_eq_true, decide_eq_true_eq, decide_eq_true_eq] at hfits
    obtain ⟨⟨hroom, hlight⟩, hmatch⟩ := hfits
    refine ⟨?_, ?_, ?_, ?_, ?_⟩
    · rw [hout, List.filterMap_append, List.filter_append]
      refine h.served.append ?_
      have hone : ([a].filterMap (Arrival.carried c.json)).filter f.accepts = [ev] := by
        rw [List.filterMap_cons_some hev, List.filterMap_nil, List.filter_cons_of_pos hmatch]
        rfl
      rw [hone]
    · rw [hout, hbytes, weight_append, h.bytes]
    · rw [hout, List.length_append, List.length_singleton]
      exact hroom
    · rw [hbytes]
      exact hlight
    · intro b hb ev' hcarried hmatch'
      rw [hout]
      rcases List.mem_append.mp hb with hb | hb
      · rcases h.kept b hb ev' hcarried hmatch' with hin | hfull
        · exact .inl (List.mem_append_left _ hin)
        · refine .inr (full_mono ?_ ?_ hfull)
          · rw [hout, List.length_append]
            omega
          · omega
      · obtain rfl := List.mem_singleton.mp hb
        obtain rfl := Option.some.inj (hev.symm.trans hcarried)
        exact .inl List.mem_concat_self

/-- **Run.**  Until the loop is left, what has been read is what was heard. -/
theorem heard_read {as : List Arrival} (h : (Reading.start.read c url f as).left = none) :
    Heard c f as (Reading.start.read c url f as).state :=
  TurnLoop.invariant _ (I := fun as _ r => Heard c f as r) heard_start
    (fun _ _ _ a h _ => h.step url a) h

/-! ## What a read comes to -/

/-- Whether an arrival is a message that the reader acts on, or the end of the stream. -/
def Arrival.heeded (json : JsonCodec) (a : Arrival) : Bool :=
  match a.item with
  | .error => true
  | _ =>
    match a.message json with
    | some (.event sub _) => sub = subId
    | some (.eose sub) => sub = subId
    | some (.closed sub _) => sub = subId
    | some (.auth _) => true
    | some (.ok _ _ _) => true
    | some .other => false
    | none => false

/-- A message that is not acted on is skipped. -/
theorem Reading.step_of_unheeded (r : Reading) (a : Arrival) (h : a.heeded c.json = false) :
    r.step c url f a = ⟨r, [], none⟩ := by
  have hitem : a.item ≠ .error := by
    intro hitem
    rw [Arrival.heeded, hitem] at h
    cases h
  have hmessage : a.heeded c.json = match a.message c.json with
      | some (.event sub _) => decide (sub = subId)
      | some (.eose sub) => decide (sub = subId)
      | some (.closed sub _) => decide (sub = subId)
      | some (.auth _) => true
      | some (.ok _ _ _) => true
      | some .other => false
      | none => false := by
    unfold Arrival.heeded
    split
    · exact absurd (by assumption) hitem
    · rfl
  rw [hmessage] at h
  cases hmsg : a.message c.json with
  | none => exact step_of_no_message hmsg hitem
  | some msg =>
    rw [step_of_message hmsg]
    rw [hmsg] at h
    cases msg with
    | event sub ev => rw [hear, if_pos (of_decide_eq_false h)]
    | eose sub =>
      show (⟨r, [], if sub ≠ subId then none else some .completed⟩ : Turn Reading Write Left) = _
      rw [if_pos (of_decide_eq_false h)]
    | closed sub reason => rw [hear, if_pos (of_decide_eq_false h)]
    | auth challenge => cases h
    | ok id accepted reason => cases h
    | other => rfl

/-- What an answer was made of: all that had been read, and the end of all if that was nothing. -/
theorem answer_ok {t : Turn Reading Write Left} {timedOut : Bool} {out : List NostrEvent}
    (h : answer t timedOut = .ok out) : t.state.out = out ∧ (∀ reason, t.left ≠ some (.failed reason)) ∧
      (out = [] → t.left = some .completed) := by
  have hfinish : ∀ completed, t.state.finish completed = .ok out →
      t.state.out = out ∧ (out = [] → completed = true) := by
    intro completed hdone
    unfold Reading.finish at hdone
    split at hdone
    · cases hdone
    · split at hdone
      · cases hdone
      · rename_i hempty
        obtain rfl := Except.ok.inj hdone
        refine ⟨rfl, ?_⟩
        intro hnil
        rw [hnil] at hempty
        simpa using hempty
  have htimeout : t.state.timedOut = .ok out → t.state.out = out ∧ out ≠ [] := by
    intro hdone
    unfold Reading.timedOut at hdone
    split at hdone
    · cases hdone
    · rename_i hempty
      obtain rfl := Except.ok.inj hdone
      exact ⟨rfl, fun hnil => hempty (List.isEmpty_iff.mpr hnil)⟩
  unfold answer at h
  cases hleft : t.left with
  | none =>
    rw [hleft] at h
    dsimp only at h
    split at h
    · obtain ⟨hout, hne⟩ := htimeout h
      exact ⟨hout, by simp, fun hnil => absurd hnil hne⟩
    · obtain ⟨hout, hdone⟩ := hfinish false h
      exact ⟨hout, by simp, fun hnil => absurd (hdone hnil) Bool.false_ne_true⟩
  | some l =>
    rw [hleft] at h
    cases l with
    | completed => exact ⟨(hfinish true h).1, by simp, fun _ => rfl⟩
    | stopped =>
      obtain ⟨hout, hdone⟩ := hfinish false h
      exact ⟨hout, by simp, fun hnil => absurd (hdone hnil) Bool.false_ne_true⟩
    | hung =>
      obtain ⟨hout, hne⟩ := htimeout h
      exact ⟨hout, by simp, fun hnil => absurd hnil hne⟩
    | failed reason => cases h

theorem queryOne_ok {allowInsecure : Bool} {v : Visit} {out : List NostrEvent}
    (h : queryOne c url allowInsecure f v = some (.ok out)) :
    answer (Reading.start.read c url f v.arrivals) v.timedOut = .ok out := by
  unfold queryOne at h
  cases hallowed : relayUrlAllowed url allowInsecure with
  | none => rw [hallowed] at h; cases h
  | some allowed =>
    rw [hallowed] at h
    cases allowed with
    | false => cases h
    | true =>
      have hread : Except.mapError (fun e => (⟨url ++ ": " ++ e⟩ : RelayIoError)) (do
          v.connect
          v.request.mapError fun e => "send REQ: " ++ e
          answer (Reading.start.read c url f v.arrivals) v.timedOut) = .ok out := Option.some.inj h
      cases hconnect : v.connect with
      | error e => rw [hconnect] at hread; cases hread
      | ok u =>
        cases hrequest : v.request with
        | error e => rw [hconnect, hrequest] at hread; cases hread
        | ok u' =>
          rw [hconnect, hrequest] at hread
          cases hanswer : answer (Reading.start.read c url f v.arrivals) v.timedOut with
          | error e => rw [hanswer] at hread; cases hread
          | ok out' => rw [hanswer] at hread; exact congrArg _ (Except.ok.inj hread)

/-- What a read that was answered had heard: its state, what it heard, and why it heard no more. -/
theorem heard_of_answer {v : Visit} {out : List NostrEvent}
    (h : answer (Reading.start.read c url f v.arrivals) v.timedOut = .ok out) :
    ∃ heard rest r, v.arrivals = heard ++ rest ∧ Heard c f heard r ∧ r.out = out ∧
      (out = [] → ∃ a ∈ heard, a.SaysAll c.json) ∧
      (rest ≠ [] → (∃ a ∈ heard, a.Ends c.json) ∨ ∀ ev, r.Full ev) := by
  obtain ⟨hout, hfailed, hempty⟩ := answer_ok h
  rcases TurnLoop.left_or_stays (fun r a => Reading.step c url f r a) Reading.start v.arrivals with
    hstays | ⟨pre, i, post, harrivals, hpre, hleft, hloop⟩
  · refine ⟨v.arrivals, [], _, (List.append_nil _).symm, heard_read hstays, hout, ?_, absurd rfl⟩
    intro hnil
    have hcompleted := hempty hnil
    rw [show (Reading.start.read c url f v.arrivals).left = none from hstays] at hcompleted
    cases hcompleted
  · have hheard := (heard_read hpre).step url i
    have hread : Reading.start.read c url f v.arrivals = _ := hloop
    have hstate := congrArg Turn.state hread
    have hleft' := congrArg Turn.left hread
    obtain ⟨l, hl⟩ := Option.ne_none_iff_exists'.mp hleft
    obtain ⟨hall, hstopped, hhung⟩ := Reading.step_left hl
    have hmem : i ∈ pre ++ [i] := List.mem_concat_self
    refine ⟨pre ++ [i], post, _, ?_, hheard, ?_, ?_, ?_⟩
    · rw [harrivals, List.append_assoc]
      rfl
    · exact (congrArg Reading.out hstate).symm.trans hout
    · intro hnil
      have hcompleted := (hleft'.symm.trans (hempty hnil))
      have heq : l = .completed := Option.some.inj (hl.symm.trans hcompleted)
      exact ⟨i, hmem, hall.mp heq⟩
    · intro _
      cases l with
      | completed => exact .inl ⟨i, hmem, .inl (hall.mp rfl)⟩
      | failed reason => exact absurd (hleft'.trans hl) (hfailed reason)
      | hung => exact .inl ⟨i, hmem, .inr (.inr (hhung rfl))⟩
      | stopped =>
        rcases hstopped rfl with herror | hceiling
        · exact .inl ⟨i, hmem, .inr (.inl herror)⟩
        · refine .inr fun ev => ?_
          rcases @Reading.step_reads c url f (Reading.start.read c url f pre).state i with
            ⟨hsame, hbytes, -⟩ | ⟨ev', -, -, -, -, hnone⟩
          · refine Heard.full_mono ?_ ?_ (hceiling.imp_right .inl)
            · exact (congrArg List.length hsame).ge
            · exact hbytes.ge
          · exact absurd hnone hleft

theorem queryOne_of_opened {allowInsecure : Bool} {v : Visit} (h : v.Opened url allowInsecure) :
    queryOne c url allowInsecure f v = some (Except.mapError (fun e => ⟨url ++ ": " ++ e⟩)
      (answer (Reading.start.read c url f v.arrivals) v.timedOut)) := by
  obtain ⟨hallowed, hconnect, hrequest⟩ := h
  unfold queryOne
  rw [hallowed, hconnect, hrequest]
  rfl

/-- What was answered was served. -/
theorem query_served {allowInsecure : Bool} {v : Visit} {out : List NostrEvent}
    (h : queryOne c url allowInsecure f v = some (.ok out)) :
    out.Sublist ((v.arrivals.filterMap (Arrival.carried c.json)).filter f.accepts) := by
  obtain ⟨heard, rest, r, harrivals, hheard, rfl, -, -⟩ := heard_of_answer (queryOne_ok h)
  rw [harrivals, List.filterMap_append]
  exact hheard.served.trans ((List.sublist_append_left _ _).filter _)

/-- What was served before the relay ended is in the answer, unless that met a ceiling. -/
theorem answer_has {allowInsecure : Bool} {v : Visit} {out : List NostrEvent}
    (hok : queryOne c url allowInsecure f v = some (.ok out)) {pre post : List Arrival} {a : Arrival}
    {ev : NostrEvent} (hsplit : v.arrivals = pre ++ a :: post) (hquiet : ∀ b ∈ pre, ¬b.Ends c.json)
    (hcarried : a.carried c.json = some ev) (hmatch : f.accepts ev = true) :
    ev ∈ out ∨ out.length = maxEventsPerQuery ∨ weight out = maxBytesPerQuery ∨
      maxBytesPerQuery < weight out + eventWeight ev := by
  obtain ⟨heard, rest, r, harrivals, hheard, rfl, -, hrest⟩ := heard_of_answer (queryOne_ok hok)
  have hlight := hheard.light
  have hfew := hheard.few
  rw [hheard.bytes] at hlight
  rw [harrivals] at hsplit
  have hfull : r.Full ev → r.out.length = maxEventsPerQuery ∨ weight r.out = maxBytesPerQuery ∨
      maxBytesPerQuery < weight r.out + eventWeight ev := by
    intro hfull
    unfold Reading.Full at hfull
    rw [hheard.bytes] at hfull
    omega
  -- the arrival was heard, or the loop was left before it came
  by_cases ha : a ∈ heard
  · exact (hheard.kept a ha ev hcarried hmatch).imp_right hfull
  · have hpre : ∀ b ∈ heard, b ∈ pre := by
      intro b hb
      rcases List.append_eq_append_iff.mp hsplit with ⟨more, hmore, -⟩ | ⟨more, hmore, hcons⟩
      · rw [hmore]
        exact List.mem_append_left _ hb
      · cases more with
        | nil =>
          rw [List.append_nil] at hmore
          rw [hmore] at hb
          exact hb
        | cons x more =>
          obtain rfl : a = x := (List.cons.inj hcons).1
          exact absurd (hmore ▸ List.mem_append_right _ List.mem_cons_self) ha
    have hne : rest ≠ [] := by
      intro hnil
      rw [hnil, List.append_nil] at hsplit
      exact ha (hsplit ▸ List.mem_append_right _ List.mem_cons_self)
    rcases hrest hne with ⟨b, hb, hends⟩ | hall
    · exact absurd hends (hquiet b (hpre b hb))
    · exact .inr (hfull (hall ev))

/-- **A read of an untrusted relay.**  Striking out every message that is not acted on changes
nothing; and an answer holds only what the relay served under the subscription and the filter, in its
order and within the ceilings, is only empty if the relay said that this was all, and has every event
that the relay served before it ended, unless a ceiling is reached. -/
theorem query_one_faithful (c : Client) (url : RelayUrl) (allowInsecure : Bool) (f : Filter)
    (v : Visit) :
    queryOne c url allowInsecure f { v with arrivals := v.arrivals.filter (·.heeded c.json) } =
      queryOne c url allowInsecure f v ∧
    ∀ out, queryOne c url allowInsecure f v = some (.ok out) →
      out.Sublist ((v.arrivals.filterMap (Arrival.carried c.json)).filter f.accepts) ∧
      out.length ≤ maxEventsPerQuery ∧ weight out ≤ maxBytesPerQuery ∧
      (out = [] → ∃ a ∈ v.arrivals, a.SaysAll c.json) ∧
      ∀ pre a post ev, v.arrivals = pre ++ a :: post → (∀ b ∈ pre, ¬b.Ends c.json) →
        a.carried c.json = some ev → f.accepts ev = true →
        ev ∈ out ∨ out.length = maxEventsPerQuery ∨ weight out = maxBytesPerQuery ∨
          maxBytesPerQuery < weight out + eventWeight ev := by
  constructor
  · unfold queryOne Reading.read
    dsimp only
    rw [TurnLoop.loop_filter fun r a h => Reading.step_of_unheeded r a h]
  · intro out hok
    obtain ⟨heard, rest, r, harrivals, hheard, rfl, hempty, -⟩ := heard_of_answer (queryOne_ok hok)
    refine ⟨query_served hok, hheard.few, hheard.bytes ▸ hheard.light, ?_, ?_⟩
    · intro hnil
      obtain ⟨a, ha, hall⟩ := hempty hnil
      exact ⟨a, harrivals ▸ List.mem_append_left _ ha, hall⟩
    · intro pre a post ev hsplit hquiet hcarried hmatch
      exact answer_has hok hsplit hquiet hcarried hmatch

end

/-! ### A notice, a wrap, and no more -/

def noticeText : List UInt8 := JsonCodec.asciiBytes "[\"NOTICE\",\"slow down\"]"

def eoseText : List UInt8 := JsonCodec.asciiBytes "[\"EOSE\",\"charter\"]"

/-- A wrap for the machine of number 5, with a stamp. -/
def wrapAt (stamp : Nat) : NostrEvent := { JsonCodec.sampleWrap with createdAt := stamp }

/-- The wrap as it is served under the subscription. -/
@[irreducible]
def servedText (stamp : Nat) : List UInt8 :=
  JsonCodec.asciiBytes "[\"EVENT\",\"charter\",\x7b\"content\":\"\",\"created_at\":" ++
    JsonCodec.asciiBytes (toString stamp) ++ JsonCodec.asciiBytes ",\"id\":\"" ++
    JsonCodec.asciiBytes (hex32 1) ++ JsonCodec.asciiBytes "\",\"kind\":1059,\"pubkey\":\"" ++
    JsonCodec.asciiBytes (hex32 7) ++ JsonCodec.asciiBytes "\",\"sig\":\"" ++
    JsonCodec.asciiBytes (Sig.toHex ⟨0⟩) ++ JsonCodec.asciiBytes "\",\"tags\":[[\"p\",\"" ++
    JsonCodec.asciiBytes (hex32 5) ++ JsonCodec.asciiBytes "\"]]\x7d]"

/-- The message with the wrap, parsed. -/
def servedValue (stamp : Nat) : Json :=
  .arr [.str "EVENT", .str "charter", (wrapAt stamp).toJson]

/-- The texts, parsed; the wrap has one of two stamps. -/
def parseTexts (bytes : List UInt8) : Option Json :=
  if bytes = noticeText then some (.arr [.str "NOTICE", .str "slow down"])
  else if bytes = eoseText then some (.arr [.str "EOSE", .str "charter"])
  else if bytes = servedText 100 then some (servedValue 100)
  else if bytes = servedText 101 then some (servedValue 101)
  else none

/-- A client with no signer. -/
def plainClient : Client := ⟨⟨fun _ => [], parseTexts⟩, fun _ => ⟨0⟩, none⟩

def notice : Arrival := ⟨.text noticeText, 0, .through⟩
def served (stamp : Nat) : Arrival := ⟨.text (servedText stamp), 0, .through⟩
def endOfAll : Arrival := ⟨.text eoseText, 0, .through⟩

/-- The notice and the wrap, and then the end of all. -/
def plainVisit (stamp : Nat) : Visit := ⟨.ok (), .ok (), [notice, served stamp, endOfAll], false⟩

section
variable {stamp : Nat}

theorem length_hex32 (b : BitVec 256) : (JsonCodec.asciiBytes (hex32 b)).length = 64 := by
  unfold JsonCodec.asciiBytes hex32
  rw [List.length_map, String.toList_ofList, Hex.length_digits]

theorem message_notice : notice.message plainClient.json = some .other := by decide +kernel

theorem message_endOfAll : endOfAll.message plainClient.json = some (.eose subId) := by decide +kernel

/-- The wrap's text is none of the others. -/
theorem parse_served (h : stamp = 100 ∨ stamp = 101) :
    plainClient.json.parse (servedText stamp) = some (servedValue stamp) := by
  have hnotice : servedText stamp ≠ noticeText := by
    intro heq
    have hhead : (servedText stamp).getD 2 0 = noticeText.getD 2 0 := by rw [heq]
    rcases h with rfl | rfl <;> exact absurd hhead (by decide +kernel)
  have heose : servedText stamp ≠ eoseText := by
    intro heq
    have hhead : (servedText stamp).getD 3 0 = eoseText.getD 3 0 := by rw [heq]
    rcases h with rfl | rfl <;> exact absurd hhead (by decide +kernel)
  have hstamps : servedText 101 ≠ servedText 100 := by
    intro heq
    have hdigit : (servedText 101).getD 48 0 = (servedText 100).getD 48 0 := by rw [heq]
    exact absurd hdigit (by decide +kernel)
  unfold plainClient
  dsimp only
  rw [parseTexts, if_neg hnotice, if_neg heose]
  rcases h with rfl | rfl
  · rw [if_pos rfl]
  · rw [if_neg hstamps, if_pos rfl]

theorem message_served (h : stamp = 100 ∨ stamp = 101) :
    (served stamp).message plainClient.json = some (.event subId (wrapAt stamp)) := by
  have hsig : (JsonCodec.asciiBytes (Sig.toHex ⟨0⟩)).length = 128 := by
    unfold JsonCodec.asciiBytes Sig.toHex
    rw [List.length_map, String.toList_ofList, Hex.length_digits]
  have hshort : ¬maxWsMessageBytes < (servedText stamp).length := by
    unfold servedText
    simp only [List.length_append, length_hex32, hsig]
    rcases h with rfl | rfl <;> decide +kernel
  have hread : NostrEvent.ofJson (wrapAt stamp).toJson = some (wrapAt stamp) := by
    have hkind : Kinds.giftWrap < 2 ^ 16 := by decide
    refine NostrEvent.ofJson_toJson ?_ hkind
    show stamp < 2 ^ 64
    omega
  have hparse := parse_served h
  unfold servedValue at hparse
  unfold served Arrival.message
  dsimp only
  rw [if_neg hshort, parseRelayMessage_of_parse hparse, messageOf_event, hread, Option.map_some,
    subId]

theorem named_wrapAt (stamp : Nat) : (wrapAt stamp).tags.any (namesRecipient [⟨5⟩]) = true := by
  have hnamed : namesRecipient [⟨5⟩] ["p", PubKey.toHex ⟨5⟩] = true :=
    List.any_eq_true.mpr ⟨⟨5⟩, List.mem_singleton_self _, beq_self_eq_true _⟩
  exact List.any_eq_true.mpr ⟨_, List.mem_singleton_self _, hnamed⟩

/-- The whole answer is the one wrap. -/
theorem plain_answer (h : stamp = 100 ∨ stamp = 101) {since : Nat} (hsince : since ≤ stamp) :
    queryOne plainClient "wss://relay.example" false (inbound ⟨5⟩ since) (plainVisit stamp) =
      some (.ok [wrapAt stamp]) := by
  have hurl : relayUrlAllowed "wss://relay.example" false = some true := by decide +kernel
  have hweight : decide (0 + eventWeight (wrapAt stamp) ≤ maxBytesPerQuery) = true := by
    show decide (0 + eventWeight (wrapAt 0) ≤ maxBytesPerQuery) = true
    decide +kernel
  have hfits : acceptEvent (inbound ⟨5⟩ since) (wrapAt stamp) Reading.start.out.length
      Reading.start.bytes = true := by
    unfold acceptEvent
    rw [accepts_inbound rfl (named_wrapAt stamp) hsince, Bool.and_true]
    exact hweight
  have hroom : ¬(maxEventsPerQuery ≤ Reading.start.out.length ∨
      maxBytesPerQuery ≤ Reading.start.bytes) := by decide
  have hfirst : Reading.start.step plainClient "wss://relay.example" (inbound ⟨5⟩ since) notice =
      ⟨Reading.start, [], none⟩ := Reading.step_of_message message_notice
  have hsecond : Reading.start.step plainClient "wss://relay.example" (inbound ⟨5⟩ since)
      (served stamp) = ⟨⟨[wrapAt stamp], eventWeight (wrapAt stamp), none, false⟩, [], none⟩ := by
    rw [Reading.step_of_message (message_served h), Reading.hear_event, if_neg hroom, if_pos hfits,
      Reading.start, List.nil_append, Nat.zero_add]
  have hthird : ∀ r : Reading, r.step plainClient "wss://relay.example" (inbound ⟨5⟩ since)
      endOfAll = ⟨r, [], some .completed⟩ := by
    intro r
    rw [Reading.step_of_message message_endOfAll, Reading.hear, if_neg (not_not_intro rfl)]
  rw [queryOne_of_opened ⟨hurl, rfl, rfl⟩]
  unfold plainVisit
  rw [Reading.read_of_stays hfirst, Reading.read_of_stays hsecond,
    Reading.read_of_left (hthird _) (by simp)]
  rfl

end

theorem query_one_faithful_wrap :
    [wrapAt 100].Sublist
      (((plainVisit 100).arrivals.filterMap (Arrival.carried plainClient.json)).filter
        (inbound ⟨5⟩ 50).accepts) :=
  ((query_one_faithful plainClient "wss://relay.example" false (inbound ⟨5⟩ 50) (plainVisit 100)).2
    [wrapAt 100] (plain_answer (.inl rfl) (by decide))).1

end Relay

end Kintrinsic
