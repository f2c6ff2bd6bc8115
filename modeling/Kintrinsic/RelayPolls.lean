import Kintrinsic.RelayReading
import Kintrinsic.SextetGroups

/-! # What a machine collects from its relays

A poll reads every relay under one filter, keeps the first event under each id, opens those that are
wraps for this machine, and sorts them by what is inside.  Ids are not checked before they are
compared, so a relay that is read earlier can put another event in a wrap's place; apart from that, and
from the ceilings of a read, what one honest relay holds is collected whatever the others do. -/
namespace Kintrinsic
namespace Relay

/-! ## All relays at once -/

section
variable (c : Client) (allowInsecure : Bool)

/-- The events of the relays that answered. -/
def answers (results : List (Except RelayIoError (List NostrEvent))) : List (List NostrEvent) :=
  results.filterMap Except.toOption

/-- Why the others did not. -/
def reasons (results : List (Except RelayIoError (List NostrEvent))) : List String :=
  results.filterMap fun result =>
    match result with
    | .error e => some e.unreachable
    | .ok _ => none

/-- `query`: the relays in their order, each with what becomes of it. -/
def query (f : Filter) (relays : List (RelayUrl × Visit)) :
    Option (Except RelayIoError (List NostrEvent)) := do
  let results ← relays.mapM fun relay => queryOne c relay.1 allowInsecure f relay.2
  if (answers results).isEmpty ∧ !relays.isEmpty then
    some (.error ⟨"no relay reachable (" ++ toString relays.length ++ " tried): " ++
      "; ".intercalate (reasons results)⟩)
  else
    let out := FirstUse.firstUses NostrEvent.id [] (answers results).flatten
    some (.ok (f.limit.elim out out.take))

end

/-! ## The machine's wraps -/

/-- What of `CharterTransport` its polls use. -/
structure Transport where
  client : Client
  allowInsecure : Bool
  backend : Nip59.Backend
  parse : String → Option Json
  machineSk : Block 32
  machinePk : PubKey
  maxInbound : Nat

def defaultMaxInbound : Nat := 8 * 1024

def maxJitterSecs : UInt64 := 2 * 24 * 60 * 60

/-- `Rumor::into_signed_event`. -/
def intoSignedEvent (r : Nip59.Rumor) : Option NostrEvent := do
  let id ← r.id
  let sig ← r.sig
  some ⟨id, r.pubkey, r.createdAt.toNat, r.kind.toNat, r.tags, r.content, sig⟩

namespace Transport
variable (t : Transport)

/-- `open_wrap`: the event inside and who sealed it. -/
def openWrap (wrap : NostrEvent) (now : UInt64) : Option (NostrEvent × PubKey) := do
  let opened ← (Nip59.unwrapWithAuthor t.backend t.parse wrap t.machineSk now maxJitterSecs).toOption
  let ev ← intoSignedEvent opened.1
  some (ev, opened.2)

/-- The wraps that a poll tries to open. -/
def fetch (since : Nat) (relays : List (RelayUrl × Visit)) :
    Option (Except RelayIoError (List NostrEvent)) :=
  (query t.client t.allowInsecure (inbound t.machinePk since) relays).map
    (·.map (·.take t.maxInbound))

/-- `poll_inner`, which `poll_grants`, `poll_clauses`, `poll_releases` and `poll_usage_syncs` are for
one kind each. -/
def pollInner (innerKind since : Nat) (now : UInt64) (relays : List (RelayUrl × Visit)) :
    Option (Except RelayIoError (List (NostrEvent × PubKey))) :=
  (t.fetch since relays).map
    (·.map fun wraps => (wraps.filterMap (t.openWrap · now)).filter (·.1.kind = innerKind))

def pollGrants := t.pollInner Kinds.charterDeviceGrant
def pollClauses := t.pollInner Kinds.charterDeviceClause
def pollReleases := t.pollInner Kinds.charterDeviceRelease
def pollUsageSyncs := t.pollInner Kinds.charterDeviceUsageSync

/-- `unwrap_inbound`: a wrap from elsewhere, which has to name this machine in its one `p` tag. -/
def unwrapInbound (wrap : NostrEvent) (now : UInt64) : Option (NostrEvent × PubKey) :=
  match wrap.tags.filter (·.head? = some "p") with
  | [tag] => if tag[1]? = some t.machinePk.toHex then t.openWrap wrap now else none
  | _ => none

end Transport

/-- `LocalInbound`. -/
inductive LocalInbound
  | clause (clause : NostrEvent) (sealAuthor : PubKey)
  | grant (grant : NostrEvent) (sealAuthor : PubKey)
  | release (event : NostrEvent) (sealAuthor : PubKey)
  | usageSync (event : NostrEvent)
  | other (innerKind : Nat)

def classifyInbound (event : NostrEvent) (sealAuthor : PubKey) : LocalInbound :=
  if event.kind = Kinds.charterDeviceClause then .clause event sealAuthor
  else if event.kind = Kinds.charterDeviceGrant then .grant event sealAuthor
  else if event.kind = Kinds.charterDeviceRelease then .release event sealAuthor
  else if event.kind = Kinds.charterDeviceUsageSync then .usageSync event
  else .other event.kind

/-! ## The broker's cursor -/

def pollLookbackSecs : Nat := 2 * 24 * 60 * 60

/-- The cursor after a poll that went through. -/
def cursorAfter (now : Nat) : Nat := now - pollLookbackSecs

/-- The cursor before a poll, after polls at some times. -/
def cursor (nows : List Nat) : Nat := (nows.getLast?.map cursorAfter).getD 0

/-! ## What every relay's answer comes to -/

section
variable {c : Client} {allowInsecure : Bool} {f : Filter} {relays : List (RelayUrl × Visit)}
  {results : List (Except RelayIoError (List NostrEvent))}

/-- The results are those of the relays, one each. -/
def Asked (c : Client) (allowInsecure : Bool) (f : Filter) (relays : List (RelayUrl × Visit))
    (results : List (Except RelayIoError (List NostrEvent))) : Prop :=
  List.Forall₂ (fun relay result => queryOne c relay.1 allowInsecure f relay.2 = some result) relays
    results

theorem mem_answers {answer : List NostrEvent} : answer ∈ answers results ↔ .ok answer ∈ results := by
  unfold answers
  rw [List.mem_filterMap]
  constructor
  · rintro ⟨result, hmem, hok⟩
    cases result with
    | error e => cases hok
    | ok a =>
      obtain rfl := Option.some.inj hok
      exact hmem
  · intro hmem
    exact ⟨_, hmem, rfl⟩

theorem Asked.answer (h : Asked c allowInsecure f relays results) {relay : RelayUrl × Visit}
    (hrelay : relay ∈ relays) : ∃ result ∈ results,
      queryOne c relay.1 allowInsecure f relay.2 = some result := by
  unfold Asked at h
  induction h with
  | nil => cases hrelay
  | cons hfirst _ ih =>
    rcases List.mem_cons.mp hrelay with rfl | hrelay
    · exact ⟨_, List.mem_cons_self, hfirst⟩
    · obtain ⟨result, hmem, hquery⟩ := ih hrelay
      exact ⟨result, List.mem_cons_of_mem _ hmem, hquery⟩

/-- What all relays together answer, with no limit. -/
theorem query_ok (hlimit : f.limit = none) {out : List NostrEvent}
    (h : query c allowInsecure f relays = some (.ok out)) :
    ∃ results, Asked c allowInsecure f relays results ∧
      out = FirstUse.firstUses NostrEvent.id [] (answers results).flatten := by
  unfold query at h
  obtain ⟨results, hresults, h⟩ := Option.bind_eq_some_iff.mp h
  rw [SextetGroups.mapM_eq_some_iff] at hresults
  split at h
  · cases h
  · refine ⟨results, hresults, ?_⟩
    have hout := Except.ok.inj (Option.some.inj h)
    rw [hlimit] at hout
    exact hout.symm

/-- A query fails only if there are relays and each of them did. -/
theorem query_error {e : RelayIoError} (h : query c allowInsecure f relays = some (.error e)) :
    relays ≠ [] ∧ ∀ relay ∈ relays, ∃ e', queryOne c relay.1 allowInsecure f relay.2 =
      some (.error e') := by
  unfold query at h
  obtain ⟨results, hresults, h⟩ := Option.bind_eq_some_iff.mp h
  rw [SextetGroups.mapM_eq_some_iff] at hresults
  split at h
  · rename_i hnone
    obtain ⟨hempty, hrelays⟩ := hnone
    refine ⟨?_, ?_⟩
    · rintro rfl
      cases hrelays
    · intro relay hrelay
      obtain ⟨result, hmem, hquery⟩ := Asked.answer hresults hrelay
      cases result with
      | error e' => exact ⟨e', hquery⟩
      | ok answer =>
        have hin := mem_answers.mpr hmem
        rw [List.isEmpty_iff.mp hempty] at hin
        cases hin
  · cases h

/-- Eight relays cannot answer with more than is looked at. -/
theorem length_flatten_answers (h : Asked c allowInsecure f relays results) :
    (answers results).flatten.length ≤ relays.length * maxEventsPerQuery := by
  unfold Asked at h
  induction h with
  | nil => exact Nat.zero_le _
  | @cons relay result relays results hquery _ ih =>
    rw [List.length_cons, Nat.succ_mul]
    cases result with
    | error e => exact ih.trans (Nat.le_add_right _ _)
    | ok answer =>
      obtain ⟨heard, rest, r, -, hheard, hr, -⟩ := heard_of_answer (queryOne_ok hquery)
      have hfew := hheard.few
      rw [hr] at hfew
      show (answer :: answers results).flatten.length ≤ _
      rw [List.flatten_cons, List.length_append]
      omega

end

/-! ## What a poll collects -/

namespace Transport
variable {t : Transport} {relays : List (RelayUrl × Visit)} {earlier : List Nat} {now : UInt64}
  {w : NostrEvent} {p : NostrEvent × PubKey}

theorem toNat_maxJitterSecs : maxJitterSecs.toNat = pollLookbackSecs := by decide +kernel

/-- A wrap is only opened within the jitter of its stamp. -/
theorem jitter_of_unwrap {b : Nip59.Backend} {parse : String → Option Json} {sk : Block 32}
    {jitter : UInt64} {opened : Nip59.Rumor × PubKey}
    (h : Nip59.unwrapWithAuthor b parse w sk now jitter = .ok opened) :
    w.kind = Kinds.giftWrap ∧ Nip59.absDiff now.toNat w.createdAt ≤ jitter.toNat := by
  unfold Nip59.unwrapWithAuthor Nip59.openWrap at h
  split at h
  · cases h
  · rename_i hkind
    split at h
    · cases h
    · rename_i hjitter
      exact ⟨not_not.mp hkind, not_lt.mp hjitter⟩

theorem unwrap_of_openWrap (h : t.openWrap w now = some p) :
    ∃ o, Nip59.unwrapWithAuthor t.backend t.parse w t.machineSk now maxJitterSecs = .ok o := by
  unfold openWrap at h
  obtain ⟨opened, hopened, -⟩ := Option.bind_eq_some_iff.mp h
  cases hunwrap : Nip59.unwrapWithAuthor t.backend t.parse w t.machineSk now maxJitterSecs with
  | error e =>
    rw [hunwrap] at hopened
    cases hopened
  | ok o => exact ⟨o, rfl⟩

/-- What opens is a gift wrap that is not stamped more than the look-back ago. -/
theorem fresh_of_openWrap (h : t.openWrap w now = some p) :
    w.kind = Kinds.giftWrap ∧ now.toNat ≤ w.createdAt + pollLookbackSecs := by
  obtain ⟨o, hunwrap⟩ := unwrap_of_openWrap h
  obtain ⟨hkind, hjitter⟩ := jitter_of_unwrap hunwrap
  rw [toNat_maxJitterSecs] at hjitter
  have hle : now.toNat - w.createdAt ≤ pollLookbackSecs := (Nat.le_add_right _ _).trans hjitter
  exact ⟨hkind, Nat.sub_le_iff_le_add'.mp hle⟩

/-- The cursor is never past what is still fresh, as long as the clock has not gone back. -/
theorem cursor_le (hclock : ∀ n ∈ earlier, n ≤ now.toNat)
    (hfresh : now.toNat ≤ w.createdAt + pollLookbackSecs) : cursor earlier ≤ w.createdAt := by
  unfold cursor
  cases hlast : earlier.getLast? with
  | none => exact Nat.zero_le _
  | some n =>
    have hle := hclock n (List.mem_of_getLast? hlast)
    rw [Option.map_some, Option.getD_some, cursorAfter]
    omega

theorem fetch_ok {since : Nat} {wraps : List NostrEvent}
    (h : t.fetch since relays = some (.ok wraps)) :
    ∃ results, Asked t.client t.allowInsecure (inbound t.machinePk since) relays results ∧
      wraps = (FirstUse.firstUses NostrEvent.id [] (answers results).flatten).take t.maxInbound := by
  obtain ⟨result, hquery, hresult⟩ := Option.map_eq_some_iff.mp h
  cases result with
  | error e => cases hresult
  | ok out =>
    obtain ⟨results, hasked, rfl⟩ := query_ok rfl hquery
    exact ⟨results, hasked, (Except.ok.inj hresult).symm⟩

theorem fetch_error {since : Nat} {e : RelayIoError} (h : t.fetch since relays = some (.error e)) :
    relays ≠ [] ∧ ∀ relay ∈ relays, ∃ e', queryOne t.client relay.1 t.allowInsecure
      (inbound t.machinePk since) relay.2 = some (.error e') := by
  obtain ⟨result, hquery, hresult⟩ := Option.map_eq_some_iff.mp h
  cases result with
  | error e' => exact query_error hquery
  | ok out => cases hresult

/-- What is fetched was served, and once under each id. -/
theorem served_of_fetch {since : Nat} {wraps : List NostrEvent}
    (h : t.fetch since relays = some (.ok wraps)) :
    (wraps.map NostrEvent.id).Nodup ∧ ∀ w ∈ wraps, ∃ relay ∈ relays, ∃ a ∈ relay.2.arrivals,
      a.carried t.client.json = some w := by
  obtain ⟨results, hasked, rfl⟩ := fetch_ok h
  refine ⟨?_, ?_⟩
  · exact (FirstUse.nodup_firstUses _).sublist ((List.take_sublist _ _).map _)
  · intro w hw
    have hin := (FirstUse.firstUses_sublist _ _).subset (List.mem_of_mem_take hw)
    obtain ⟨answer, hanswer, hw⟩ := List.mem_flatten.mp hin
    obtain ⟨relay, hrelay, hquery⟩ := SextetGroups.exists_of_forall₂ hasked (mem_answers.mp hanswer)
    have hserved := ((query_served hquery).subset hw)
    obtain ⟨a, ha, hcarried⟩ := List.mem_filterMap.mp (List.mem_of_mem_filter hserved)
    exact ⟨relay, hrelay, a, ha, hcarried⟩

/-- An honest relay's wrap is fetched, or another event under its id. -/
theorem fetched_or_shadowed {since : Nat} {wraps : List NostrEvent}
    (h : t.fetch since relays = some (.ok wraps)) (hrelays : relays.length ≤ 8)
    (hmax : t.maxInbound = defaultMaxInbound) {relay : RelayUrl × Visit} (hrelay : relay ∈ relays)
    {answer : List NostrEvent} (hanswer : queryOne t.client relay.1 t.allowInsecure
      (inbound t.machinePk since) relay.2 = some (.ok answer)) (hw : w ∈ answer) :
    w ∈ wraps ∨ ∃ w' ∈ wraps, w'.id = w.id ∧ w' ≠ w := by
  obtain ⟨results, hasked, rfl⟩ := fetch_ok h
  have hlength : (FirstUse.firstUses NostrEvent.id [] (answers results).flatten).length ≤
      t.maxInbound := by
    have hle : (FirstUse.firstUses NostrEvent.id [] (answers results).flatten).length ≤
        (answers results).flatten.length := (FirstUse.firstUses_sublist _ _).length_le
    have hall := length_flatten_answers hasked
    have height : relays.length * maxEventsPerQuery ≤ 8 * maxEventsPerQuery :=
      Nat.mul_le_mul_right _ hrelays
    have hbound : 8 * maxEventsPerQuery = defaultMaxInbound := rfl
    omega
  rw [List.take_of_length_le hlength]
  obtain ⟨result, hresult, hquery⟩ := hasked.answer hrelay
  obtain rfl : result = .ok answer := Option.some.inj (hquery.symm.trans hanswer)
  have hin : w ∈ (answers results).flatten :=
    List.mem_flatten.mpr ⟨answer, mem_answers.mpr hresult, hw⟩
  have hused : w ∈ FirstUse.firstUses NostrEvent.id [] (answers results).flatten ∨ w.id ∈ [] ∨
      ∃ w' ∈ FirstUse.firstUses NostrEvent.id [] (answers results).flatten, w'.id = w.id ∧ w' ≠ w :=
    FirstUse.mem_firstUses_or [] hin
  rcases hused with hmem | hseen | ⟨w', hmem, hid, hne⟩
  · exact .inl hmem
  · cases hseen
  · exact .inr ⟨w', hmem, hid, hne⟩

/-- A wrap from elsewhere is opened as its copy from a relay would be, and would have been asked for. -/
theorem unwrapInbound_some (h : t.unwrapInbound w now = some p) :
    t.openWrap w now = some p ∧ w.tags.any (namesRecipient [t.machinePk]) = true := by
  unfold unwrapInbound at h
  split at h
  · rename_i tag htags
    split at h
    · rename_i hvalue
      refine ⟨h, ?_⟩
      have hmem : tag ∈ w.tags.filter (·.head? = some "p") := by
        rw [htags]
        exact List.mem_singleton_self tag
      obtain ⟨htag, hname⟩ := List.mem_filter.mp hmem
      refine List.any_eq_true.mpr ⟨tag, htag, ?_⟩
      cases tag with
      | nil => cases hvalue
      | cons name rest =>
        cases rest with
        | nil => cases hvalue
        | cons value rest =>
          obtain rfl : name = "p" := Option.some.inj (of_decide_eq_true hname)
          obtain rfl : value = t.machinePk.toHex := Option.some.inj hvalue
          simp [namesRecipient]
    · cases h
  · cases h

/-- What a poll for a kind gives: what opens of the wraps it fetched, and has that kind. -/
theorem mem_pollInner {kind since : Nat} {out : List (NostrEvent × PubKey)}
    (h : t.pollInner kind since now relays = some (.ok out)) :
    ∃ wraps, t.fetch since relays = some (.ok wraps) ∧
      ∀ p, p ∈ out ↔ p.1.kind = kind ∧ ∃ w ∈ wraps, t.openWrap w now = some p := by
  obtain ⟨result, hfetch, hresult⟩ := Option.map_eq_some_iff.mp h
  cases result with
  | error e => cases hresult
  | ok wraps =>
    obtain rfl := Except.ok.inj hresult
    refine ⟨wraps, hfetch, fun p => ?_⟩
    rw [List.mem_filter, List.mem_filterMap, decide_eq_true_eq]
    exact and_comm

end Transport

/-- The machine of number 5. -/
def plainTransport : Transport where
  client := plainClient
  allowInsecure := false
  backend := Nip59.Sample.backend
  parse := Nip59.Sample.parse
  machineSk := Nip59.Sample.recipientSk
  machinePk := ⟨5⟩
  maxInbound := defaultMaxInbound

/-- Relays that serve one wrap each, of these stamps. -/
def plainRelays (stamps : List Nat) : List (RelayUrl × Visit) :=
  stamps.map fun stamp => ("wss://relay.example", plainVisit stamp)

section
variable {stamps : List Nat}

theorem query_plain (h : ∀ stamp ∈ stamps, stamp = 100 ∨ stamp = 101) :
    (plainRelays stamps).mapM (fun relay =>
        queryOne plainClient relay.1 false (inbound ⟨5⟩ 0) relay.2) =
      some (stamps.map fun stamp => .ok [wrapAt stamp]) := by
  rw [SextetGroups.mapM_eq_some_iff]
  induction stamps with
  | nil => exact .nil
  | cons stamp stamps ih =>
    refine .cons ?_ (ih fun s hs => h s (List.mem_cons_of_mem _ hs))
    exact plain_answer (h stamp List.mem_cons_self) (Nat.zero_le _)

theorem answers_plain (stamps : List Nat) :
    answers (stamps.map fun stamp => .ok [wrapAt stamp]) = stamps.map fun stamp => [wrapAt stamp] := by
  induction stamps with
  | nil => rfl
  | cons stamp stamps ih => exact congrArg ([wrapAt stamp] :: ·) ih

/-- The first of the wraps is all that is fetched, as they are under one id. -/
theorem fetch_plain (stamp : Nat) (h : ∀ s ∈ stamp :: stamps, s = 100 ∨ s = 101) :
    plainTransport.fetch 0 (plainRelays (stamp :: stamps)) = some (.ok [wrapAt stamp]) := by
  have hlater : ∀ stamps : List Nat, FirstUse.firstUses NostrEvent.id [(wrapAt stamp).id]
      (stamps.map fun stamp => [wrapAt stamp]).flatten = [] := by
    intro stamps
    induction stamps with
    | nil => rfl
    | cons s stamps ih =>
      exact (FirstUse.firstUses_cons_of_mem (List.mem_singleton_self _)).trans ih
  have hquery : query plainClient false (inbound ⟨5⟩ 0) (plainRelays (stamp :: stamps)) =
      some (.ok [wrapAt stamp]) := by
    unfold query
    rw [query_plain h, Option.bind_eq_bind, Option.bind_some, answers_plain]
    show some (Except.ok (wrapAt stamp :: FirstUse.firstUses NostrEvent.id [(wrapAt stamp).id]
      (stamps.map fun stamp => [wrapAt stamp]).flatten)) = _
    rw [hlater]
  show (query plainClient false (inbound ⟨5⟩ 0) (plainRelays (stamp :: stamps))).map _ = _
  rw [hquery]
  rfl

end

theorem not_ends_notice : ¬notice.Ends plainClient.json := by
  rintro (hall | herror | hpending)
  · cases message_notice.symm.trans hall
  · cases herror
  · cases hpending

/-- **A wrap that is put aside.**  A relay that is read first serves the wrap's id with another stamp;
the wrap itself, which the next relay holds, is not collected. -/
theorem not_fetched_behind_its_id :
    plainTransport.fetch 0 (plainRelays [101, 100]) = some (.ok [wrapAt 101]) ∧
      wrapAt 100 ∉ [wrapAt 101] := by
  refine ⟨fetch_plain 101 (by simp), ?_⟩
  intro hmem
  have hstamp := congrArg NostrEvent.createdAt (List.mem_singleton.mp hmem)
  cases hstamp

end Relay

end Kintrinsic
