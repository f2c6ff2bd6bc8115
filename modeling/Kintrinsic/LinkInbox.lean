import Kintrinsic.KeyShares
import Kintrinsic.LinkTypes

/-! # The inbox of the guardian's link

A ward's wrap is stored once, as long as its id is remembered, and the inbox is trimmed to its two
bounds by evicting the oldest entry of whoever holds the most. -/
namespace Kintrinsic

def inboxCap : Nat := 256
def inboxBytes : Nat := 8 * 1024 * 1024
def seenCap : Nat := 1024
def seenTtl : Nat := 48 * 3600

structure SeenId where
  id : EventId
  seenAt : Nat
deriving DecidableEq

structure InboxEntry where
  id : EventId
  machine : PubKey
  wrap : NostrEvent
  receivedAt : Nat
deriving DecidableEq

/-- `wrap_bytes`: the approximate encoded size of a wrap. -/
def wrapBytes (w : NostrEvent) : Nat :=
  320 + w.content.utf8ByteSize + (w.tags.flatten.map fun s => s.utf8ByteSize + 4).sum

/-- `prune_seen`. -/
def pruneSeen (s : List SeenId) (now : Nat) : List SeenId :=
  let s := s.filter fun e => now - e.seenAt < seenTtl
  s.drop (s.length - seenCap)

/-- How a wrap is answered. -/
structure WrapReply where
  wrap : EventId
  accepted : Bool
  reason : String
deriving DecidableEq

/-- The part of the link's state that inbound wraps go to. -/
structure LinkInbox where
  inbox : List InboxEntry
  bytes : Nat
  seen : List SeenId
deriving DecidableEq

namespace LinkInbox

/-- What an entry counts for. -/
def entryBytes (e : InboxEntry) : Nat := wrapBytes e.wrap

/-- What a machine holds, in entries. -/
def countOf (l : List InboxEntry) (m : PubKey) : Nat :=
  KeyShares.share InboxEntry.machine (fun _ => 1) l m

/-- What a machine holds, in bytes. -/
def bytesOf (l : List InboxEntry) (m : PubKey) : Nat :=
  KeyShares.share InboxEntry.machine entryBytes l m

/-- A machine, with what it holds in entries and bytes. -/
structure Holding where
  machine : PubKey
  count : Nat
  bytes : Nat
deriving DecidableEq

/-- One entry more is added up. -/
def tally (per : List Holding) (e : InboxEntry) : List Holding :=
  if per.any (·.machine = e.machine) then
    per.map fun p =>
      if p.machine = e.machine then ⟨p.machine, p.count + 1, p.bytes + entryBytes e⟩ else p
  else per ++ [⟨e.machine, 1, entryBytes e⟩]

/-- The machines in order of each one's oldest entry. -/
def holdings (l : List InboxEntry) : List Holding := l.foldl tally []

/-- The machine to evict from, if a bound is exceeded. -/
def victim (st : LinkInbox) : Option PubKey :=
  if inboxCap < st.inbox.length then
    (KeyShares.greatest Holding.count (holdings st.inbox)).map Holding.machine
  else if inboxBytes < st.bytes then
    (KeyShares.greatest Holding.bytes (holdings st.inbox)).map Holding.machine
  else none

/-- The oldest entry of a machine goes. -/
def evict (st : LinkInbox) (m : PubKey) : LinkInbox :=
  match st.inbox.find? (·.machine = m) with
  | none => st
  | some e => { st with
      inbox := st.inbox.eraseP (·.machine = m)
      bytes := st.bytes - entryBytes e }

/-- The loop of `trim_inbox`, for so many rounds. -/
def trimRounds : Nat → LinkInbox → LinkInbox
  | 0, st => st
  | n + 1, st =>
    match st.victim with
    | none => st
    | some m => trimRounds n (st.evict m)

/-- `trim_inbox`: every round evicts an entry. -/
def trimInbox (st : LinkInbox) : LinkInbox := trimRounds st.inbox.length st

/-- The inbox with an entry more, before it is trimmed. -/
def push (st : LinkInbox) (machine : PubKey) (wrap : NostrEvent) (now : Nat) : LinkInbox where
  inbox := st.inbox ++ [⟨wrap.id, machine, wrap, now⟩]
  bytes := st.bytes + wrapBytes wrap
  seen := pruneSeen (pruneSeen st.seen now ++ [⟨wrap.id, now⟩]) now

/-- `inbound_wrap`: the reply, and whether the two files are to be written. -/
def inboundWrap (check : WrapCheck) (guardian : PubKey) (st : LinkInbox) (machine : PubKey)
    (wrap : NostrEvent) (now : Nat) : LinkInbox × WrapReply × Bool :=
  match validateWrapFor check wrap guardian with
  | .error _ => (st, ⟨wrap.id, false, "invalid"⟩, false)
  | .ok () =>
    if (pruneSeen st.seen now).any (·.id = wrap.id) then
      ({ st with seen := pruneSeen st.seen now }, ⟨wrap.id, true, "duplicate"⟩, false)
    else ((st.push machine wrap now).trimInbox, ⟨wrap.id, true, ""⟩, true)

/-- `consume`: the entries the console has ingested go. -/
def consume (st : LinkInbox) (ids : List EventId) : Option LinkInbox :=
  let kept := st.inbox.filter fun e => e.id ∉ ids
  if kept.length = st.inbox.length then none
  else some { st with inbox := kept, bytes := (kept.map entryBytes).sum }

/-- The inbox as it is loaded from its two files. -/
def start (inbox : List InboxEntry) (seen : List SeenId) (now : Nat) : LinkInbox :=
  trimInbox ⟨inbox, (inbox.map entryBytes).sum, pruneSeen seen now⟩

/-! ## What everybody holds -/

/-- What is added up is what the machines hold. -/
structure Tallied (per : List Holding) (l : List InboxEntry) : Prop where
  exact : ∀ p ∈ per, p.count = countOf l p.machine ∧ p.bytes = bytesOf l p.machine
  all : ∀ e ∈ l, ∃ p ∈ per, p.machine = e.machine
  only : ∀ p ∈ per, ∃ e ∈ l, e.machine = p.machine

theorem Tallied.tally {per : List Holding} {l : List InboxEntry} (h : Tallied per l)
    (e : InboxEntry) : Tallied (LinkInbox.tally per e) (l ++ [e]) := by
  have hcount : ∀ m, countOf (l ++ [e]) m = countOf l m + if e.machine = m then 1 else 0 :=
    fun m => by simp [countOf]
  have hbytes : ∀ m, bytesOf (l ++ [e]) m =
      bytesOf l m + if e.machine = m then entryBytes e else 0 := fun m => by simp [bytesOf]
  unfold LinkInbox.tally
  split
  · rename_i hknown
    obtain ⟨q, hq, hqe⟩ := List.any_eq_true.mp hknown
    have hqe : q.machine = e.machine := of_decide_eq_true hqe
    have hkept : ∀ p : Holding, (if p.machine = e.machine then
        (⟨p.machine, p.count + 1, p.bytes + entryBytes e⟩ : Holding) else p).machine =
          p.machine := by
      intro p
      split
      · rfl
      · rfl
    refine ⟨fun p hp => ?_, fun a ha => ?_, fun p hp => ?_⟩
    · obtain ⟨r, hr, rfl⟩ := List.mem_map.mp hp
      obtain ⟨hc, hb⟩ := h.exact r hr
      rw [hkept, hcount, hbytes]
      split
      · rename_i hre
        rw [if_pos hre.symm, if_pos hre.symm, ← hc, ← hb]
        exact ⟨rfl, rfl⟩
      · rename_i hre
        rw [if_neg (Ne.symm hre), if_neg (Ne.symm hre)]
        exact ⟨hc, hb⟩
    · have hin : ∃ r ∈ per, r.machine = a.machine := by
        rcases List.mem_append.mp ha with ha | ha
        · exact h.all a ha
        · rw [List.mem_singleton.mp ha]
          exact ⟨q, hq, hqe⟩
      obtain ⟨r, hr, hra⟩ := hin
      exact ⟨_, List.mem_map.mpr ⟨r, hr, rfl⟩, (hkept r).trans hra⟩
    · obtain ⟨r, hr, rfl⟩ := List.mem_map.mp hp
      obtain ⟨a, ha, har⟩ := h.only r hr
      exact ⟨a, List.mem_append_left _ ha, by rw [hkept, har]⟩
  · rename_i hnew
    have hother : ∀ p ∈ per, e.machine ≠ p.machine := fun p hp heq =>
      hnew (List.any_eq_true.mpr ⟨p, hp, decide_eq_true heq.symm⟩)
    -- nobody held anything under a name that is not added up yet
    have hnone : ∀ a ∈ l, a.machine ≠ e.machine := by
      intro a ha heq
      obtain ⟨p, hp, hpa⟩ := h.all a ha
      exact hother p hp (heq.symm.trans hpa.symm)
    refine ⟨fun p hp => ?_, fun a ha => ?_, fun p hp => ?_⟩
    · rw [hcount, hbytes]
      rcases List.mem_append.mp hp with hp | hp
      · rw [if_neg (hother p hp), if_neg (hother p hp)]
        exact h.exact p hp
      · rw [List.mem_singleton.mp hp, if_pos rfl, if_pos rfl]
        unfold countOf bytesOf
        rw [KeyShares.share_of_forall_ne hnone, KeyShares.share_of_forall_ne hnone, Nat.zero_add,
          Nat.zero_add]
        exact ⟨rfl, rfl⟩
    · rcases List.mem_append.mp ha with ha | ha
      · obtain ⟨p, hp, hpa⟩ := h.all a ha
        exact ⟨p, List.mem_append_left _ hp, hpa⟩
      · rw [List.mem_singleton.mp ha]
        exact ⟨_, List.mem_append_right _ (List.mem_singleton_self _), rfl⟩
    · rcases List.mem_append.mp hp with hp | hp
      · obtain ⟨a, ha, hap⟩ := h.only p hp
        exact ⟨a, List.mem_append_left _ ha, hap⟩
      · rw [List.mem_singleton.mp hp]
        exact ⟨e, List.mem_append_right _ (List.mem_singleton_self _), rfl⟩

theorem tallied_foldl {per : List Holding} {before : List InboxEntry} (l : List InboxEntry)
    (h : Tallied per before) : Tallied (l.foldl LinkInbox.tally per) (before ++ l) := by
  induction l generalizing per before with
  | nil => rwa [List.append_nil]
  | cons e l ih =>
    have hrest := ih (h.tally e)
    rwa [List.append_assoc] at hrest

theorem tallied_holdings (l : List InboxEntry) : Tallied (holdings l) l := by
  refine @tallied_foldl _ [] l ⟨?_, ?_, ?_⟩
  · exact fun p hp => absurd hp List.not_mem_nil
  · exact fun e he => absurd he List.not_mem_nil
  · exact fun p hp => absurd hp List.not_mem_nil

/-! ## A round of trimming -/

/-- The counter is the sum over the entries. -/
def Counted (st : LinkInbox) : Prop := st.bytes = (st.inbox.map entryBytes).sum

/-- The two bounds. -/
def Bounded (st : LinkInbox) : Prop := st.inbox.length ≤ inboxCap ∧ st.bytes ≤ inboxBytes

variable {st : LinkInbox} {m : PubKey}

/-- Who is evicted from holds something, and of what is exceeded the most. -/
theorem victim_spec (h : st.victim = some m) : (∃ e ∈ st.inbox, e.machine = m) ∧
    (inboxCap < st.inbox.length ∧ (∀ e ∈ st.inbox, countOf st.inbox e.machine ≤ countOf st.inbox m) ∨
      inboxBytes < st.bytes ∧ ∀ e ∈ st.inbox, bytesOf st.inbox e.machine ≤ bytesOf st.inbox m) := by
  have htallied := tallied_holdings st.inbox
  unfold victim at h
  split at h
  · rename_i hcount
    obtain ⟨p, hp, rfl⟩ := Option.map_eq_some_iff.mp h
    obtain ⟨hmem, hmost⟩ := KeyShares.greatest_spec hp
    refine ⟨htallied.only p hmem, .inl ⟨hcount, fun e he => ?_⟩⟩
    obtain ⟨q, hq, hqe⟩ := htallied.all e he
    rw [← hqe, ← (htallied.exact q hq).1, ← (htallied.exact p hmem).1]
    exact hmost q hq
  · split at h
    · rename_i hbytes
      obtain ⟨p, hp, rfl⟩ := Option.map_eq_some_iff.mp h
      obtain ⟨hmem, hmost⟩ := KeyShares.greatest_spec hp
      refine ⟨htallied.only p hmem, .inr ⟨hbytes, fun e he => ?_⟩⟩
      obtain ⟨q, hq, hqe⟩ := htallied.all e he
      rw [← hqe, ← (htallied.exact q hq).2, ← (htallied.exact p hmem).2]
      exact hmost q hq
    · cases h

/-- An inbox over a bound holds something. -/
theorem nonempty_of_over (hcounted : st.Counted)
    (h : inboxCap < st.inbox.length ∨ inboxBytes < st.bytes) : st.inbox ≠ [] := by
  intro hnil
  unfold Counted at hcounted
  rw [hnil] at h hcounted
  rw [hcounted] at h
  simp at h

/-- Nobody is evicted from within the bounds only. -/
theorem bounded_of_no_victim (hcounted : st.Counted) (h : st.victim = none) : st.Bounded := by
  have hnone : ∀ (f : Holding → Nat), st.inbox ≠ [] →
      (KeyShares.greatest f (holdings st.inbox)).map Holding.machine ≠ none := by
    intro f hne hmap
    have hnil := KeyShares.greatest_eq_none (Option.map_eq_none_iff.mp hmap)
    obtain ⟨e, l, hl⟩ := List.exists_cons_of_ne_nil hne
    obtain ⟨p, hp, -⟩ := (tallied_holdings st.inbox).all e (hl ▸ List.mem_cons_self)
    rw [hnil] at hp
    cases hp
  unfold victim at h
  split at h
  · rename_i hcount
    exact absurd h (hnone _ (nonempty_of_over hcounted (.inl hcount)))
  · rename_i hcount
    split at h
    · rename_i hbytes
      exact absurd h (hnone _ (nonempty_of_over hcounted (.inr hbytes)))
    · rename_i hbytes
      exact ⟨Nat.le_of_not_lt hcount, Nat.le_of_not_lt hbytes⟩

theorem evict_spec (h : ∃ e ∈ st.inbox, e.machine = m) :
    ∃ before e after, st.inbox = before ++ e :: after ∧ e.machine = m ∧
      (∀ a ∈ before, a.machine ≠ m) ∧
      st.evict m = ⟨before ++ after, st.bytes - entryBytes e, st.seen⟩ := by
  obtain ⟨a, ha, ham⟩ := h
  have hsome : (st.inbox.find? (·.machine = m)).isSome := by
    rw [List.find?_isSome]
    exact ⟨a, ha, decide_eq_true ham⟩
  obtain ⟨e, he⟩ := Option.isSome_iff_exists.mp hsome
  obtain ⟨hem, before, after, hsplit, hbefore⟩ := List.find?_eq_some_iff_append.mp he
  refine ⟨before, e, after, hsplit, of_decide_eq_true hem, fun b hb => ?_, ?_⟩
  · simpa using hbefore b hb
  · unfold evict
    rw [he]
    dsimp only
    have hfirst : (e :: after).eraseP (·.machine = m) = after := List.eraseP_cons_of_pos hem
    rw [hsplit, List.eraseP_append_right _ fun b hb => by simpa using hbefore b hb, hfirst]

/-- What a round does. -/
structure Round (st st' : LinkInbox) (m : PubKey) : Prop where
  shorter : st'.inbox.length + 1 = st.inbox.length
  sublist : st'.inbox.Sublist st.inbox
  seen : st'.seen = st.seen
  counted : st.Counted → st'.Counted
  others : ∀ m', m' ≠ m →
    (st'.inbox.filter fun e => e.machine = m') = st.inbox.filter fun e => e.machine = m'

theorem round_evict (h : ∃ e ∈ st.inbox, e.machine = m) : Round st (st.evict m) m := by
  obtain ⟨before, e, after, hsplit, hem, -, hevict⟩ := evict_spec h
  rw [hevict]
  refine ⟨?_, ?_, rfl, fun hcounted => ?_, fun m' hm' => ?_⟩
  · rw [hsplit, List.length_append, List.length_append, List.length_cons]
    omega
  · rw [hsplit]
    exact List.Sublist.append (List.Sublist.refl before) (List.sublist_cons_self e after)
  · unfold Counted at hcounted ⊢
    rw [hcounted, hsplit]
    simp only [List.map_append, List.map_cons, List.sum_append, List.sum_cons]
    omega
  · have hne : ((e :: after).filter fun a => a.machine = m') =
        after.filter fun a => a.machine = m' := by
      apply List.filter_cons_of_neg
      rw [decide_eq_true_eq, hem]
      exact hm'.symm
    rw [hsplit, List.filter_append, List.filter_append, hne]

/-! ## Trimming -/

/-- What trimming does, whatever it evicts. -/
structure Trimmed (st st' : LinkInbox) : Prop where
  sublist : st'.inbox.Sublist st.inbox
  seen : st'.seen = st.seen
  counted : st'.Counted
  bounded : st'.Bounded

theorem trimRounds_spec (n : Nat) (hcounted : st.Counted) (hn : st.inbox.length ≤ n) :
    Trimmed st (trimRounds n st) := by
  induction n generalizing st with
  | zero =>
    have hnil : st.inbox = [] := List.length_eq_zero_iff.mp (Nat.le_zero.mp hn)
    refine ⟨.refl _, rfl, hcounted, ?_, ?_⟩
    · show st.inbox.length ≤ inboxCap
      rw [hnil]
      exact Nat.zero_le _
    · show st.bytes ≤ inboxBytes
      unfold Counted at hcounted
      rw [hcounted, hnil]
      exact Nat.zero_le _
  | succ n ih =>
    unfold trimRounds
    split
    · rename_i hnone
      exact ⟨.refl _, rfl, hcounted, bounded_of_no_victim hcounted hnone⟩
    · rename_i m hvictim
      have hround := round_evict (victim_spec hvictim).1
      have hrest := ih (hround.counted hcounted) (by have := hround.shorter; omega)
      exact ⟨hrest.sublist.trans hround.sublist, hrest.seen.trans hround.seen, hrest.counted,
        hrest.bounded⟩

/-- **Trimming ends within the bounds**, with the counter right. -/
theorem trimInbox_spec (hcounted : st.Counted) : Trimmed st st.trimInbox :=
  trimRounds_spec _ hcounted le_rfl

/-- Within the bounds nothing is trimmed. -/
theorem trimInbox_of_bounded (h : st.Bounded) : st.trimInbox = st := by
  have hnone : st.victim = none := by
    unfold victim
    rw [if_neg (Nat.not_lt.mpr h.1), if_neg (Nat.not_lt.mpr h.2)]
  unfold trimInbox
  cases st.inbox.length with
  | zero => rfl
  | succ n =>
    unfold trimRounds
    rw [hnone]

/-- A machine that holds its share of both bounds among so many, or less. -/
def WithinShare (l : List InboxEntry) (machines : Finset PubKey) (m : PubKey) : Prop :=
  countOf l m * machines.card ≤ inboxCap ∧ bytesOf l m * machines.card ≤ inboxBytes

/-- Who holds the most is over his share of what is exceeded. -/
theorem ne_of_withinShare {machines : Finset PubKey} {v : PubKey} (hcounted : st.Counted)
    (hall : ∀ e ∈ st.inbox, e.machine ∈ machines) (hshare : WithinShare st.inbox machines m)
    (hvictim : st.victim = some v) : m ≠ v := by
  rintro rfl
  obtain ⟨-, ⟨hover, hmost⟩ | ⟨hover, hmost⟩⟩ := victim_spec hvictim
  · have htotal : (st.inbox.map fun _ => 1).sum ≤ machines.card * countOf st.inbox m := by
      refine KeyShares.total_le hall fun k _ => ?_
      by_cases hk : ∃ e ∈ st.inbox, e.machine = k
      · obtain ⟨e, he, rfl⟩ := hk
        exact hmost e he
      · rw [KeyShares.share_of_forall_ne fun e he heq => hk ⟨e, he, heq⟩]
        exact Nat.zero_le _
    have hlength : (st.inbox.map fun _ => 1).sum = st.inbox.length := by simp
    rw [hlength, mul_comm] at htotal
    exact absurd (hover.trans_le (htotal.trans hshare.1)) (lt_irrefl _)
  · have htotal : (st.inbox.map entryBytes).sum ≤ machines.card * bytesOf st.inbox m := by
      refine KeyShares.total_le hall fun k _ => ?_
      by_cases hk : ∃ e ∈ st.inbox, e.machine = k
      · obtain ⟨e, he, rfl⟩ := hk
        exact hmost e he
      · rw [KeyShares.share_of_forall_ne fun e he heq => hk ⟨e, he, heq⟩]
        exact Nat.zero_le _
    unfold Counted at hcounted
    rw [← hcounted, mul_comm] at htotal
    exact absurd (hover.trans_le (htotal.trans hshare.2)) (lt_irrefl _)

theorem trimRounds_fair {machines : Finset PubKey} (n : Nat) (hcounted : st.Counted)
    (hall : ∀ e ∈ st.inbox, e.machine ∈ machines) (hshare : WithinShare st.inbox machines m) :
    ((trimRounds n st).inbox.filter fun e => e.machine = m) =
      st.inbox.filter fun e => e.machine = m := by
  induction n generalizing st with
  | zero => rfl
  | succ n ih =>
    unfold trimRounds
    split
    · rfl
    · rename_i v hvictim
      have hround := round_evict (victim_spec hvictim).1
      have hsame := hround.others m (ne_of_withinShare hcounted hall hshare hvictim)
      refine (ih (hround.counted hcounted) ?_ ?_).trans hsame
      · exact fun e he => hall e (hround.sublist.subset he)
      · unfold WithinShare countOf bytesOf KeyShares.share at hshare ⊢
        rw [hsame]
        exact hshare

/-- **A machine within its share loses nothing**, however much the others send. -/
theorem trimInbox_fair {machines : Finset PubKey} (hcounted : st.Counted)
    (hall : ∀ e ∈ st.inbox, e.machine ∈ machines) (hshare : WithinShare st.inbox machines m) :
    (st.trimInbox.inbox.filter fun e => e.machine = m) =
      st.inbox.filter fun e => e.machine = m :=
  trimRounds_fair _ hcounted hall hshare

end LinkInbox

end Kintrinsic
