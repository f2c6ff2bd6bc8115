import Kintrinsic.CuratorLists

/-! # Curators' lists converge up to ties

Over any polls the cache holds the newest list of each curator and id that was read and accepted.  Two
devices that accepted the same lists agree on its date; of two lists of one date each keeps the one that
came to it first. -/
namespace Kintrinsic.Curators

open Newest

section
variable (c : Crypto) (maxInbound : Nat) (print : CuratorList → String)

/-- The cache after some polls. -/
def afterPolls (start : CuratorCache) (polls : List Poll) : CuratorCache :=
  polls.foldl (refreshCuratorLists c maxInbound print) start

/-- What the cache may hold of a curator's list: what it held before, or a list that was accepted. -/
def Delivered (start : CuratorCache) (polls : List Poll) (curator : PubKey) (id : String)
    (r : CuratorRec) : Prop :=
  start.get? (curator.toHex ++ ":" ++ id) = some r ∨
    ∃ f, Accepted c maxInbound polls f ∧ (f.curator = curator ∧ f.listId = id) ∧ recOf print f = r

/-- A poll of which only what is accepted was read. -/
def Poll.onlyAccepted (p : Poll) : Poll :=
  { p with answer := p.answer.map fun _ =>
      (p.read maxInbound).filter fun ev => (accepted c p.curators ev).isSome }

variable {c maxInbound print}

theorem accepted_append {ps qs : List Poll} {f : FetchedCuratorList} :
    Accepted c maxInbound (ps ++ qs) f ↔ Accepted c maxInbound ps f ∨ Accepted c maxInbound qs f := by
  unfold Accepted
  simp only [List.mem_append, or_and_right, exists_or]

variable (c maxInbound print)

/-- **Run.**  Under each key is the newest of what was there and what was accepted. -/
theorem isNewest_afterPolls (start : CuratorCache) (polls : List Poll) (key : String) :
    IsNewest CuratorRec.createdAt ((afterPolls c maxInbound print start polls).get? key) fun r =>
      start.get? key = some r ∨ AcceptedUnder c maxInbound print polls key r := by
  induction polls using List.reverseRecOn with
  | nil =>
    refine ⟨fun r hr => .inl hr, ?_⟩
    rintro r (hr | ⟨f, ⟨p, hp, -⟩, -⟩)
    · exact ⟨r, hr, Nat.le_refl _⟩
    · exact absurd hp List.not_mem_nil
  | append_singleton polls p ih =>
    obtain ⟨s, hget, hnewest⟩ :=
      get?_refresh c maxInbound print (afterPolls c maxInbound print start polls) p key
    have hrun : afterPolls c maxInbound print start (polls ++ [p]) =
        refreshCuratorLists c maxInbound print (afterPolls c maxInbound print start polls) p :=
      List.foldl_append
    rw [hrun, hget]
    refine (ih.join hnewest).congr fun r => ?_
    unfold AcceptedUnder
    simp only [accepted_append, or_and_right, exists_or, or_assoc]

theorem isNewest_delivered (start : CuratorCache) (polls : List Poll) (curator : PubKey)
    (id : String) : IsNewest CuratorRec.createdAt
      ((afterPolls c maxInbound print start polls).get? (curator.toHex ++ ":" ++ id))
      (Delivered c maxInbound print start polls curator id) := by
  refine (isNewest_afterPolls c maxInbound print start polls _).congr fun r => or_congr_right ?_
  refine exists_congr fun f => and_congr_right fun _ => and_congr_left fun _ => ?_
  have hkey : f.storeKey = curator.toHex ++ ":" ++ id ↔ f.key = (curator.toHex, id) :=
    @storeKey_eq_iff f ⟨curator, id, 0, ⟨"", []⟩⟩
  rw [hkey]
  unfold FetchedCuratorList.key
  rw [Prod.mk.injEq, PubKey.toHex_injective.eq_iff]

/-- Events that are not accepted leave no trace in a poll. -/
theorem foldl_pollStep_filter (curators : List PubKey) (events : List NostrEvent)
    (newest : Registry FetchedCuratorList.key) :
    (events.filter fun ev => (accepted c curators ev).isSome).foldl (pollStep c curators) newest =
      events.foldl (pollStep c curators) newest := by
  induction events generalizing newest with
  | nil => rfl
  | cons ev events ih =>
    rw [List.filter_cons]
    split
    · exact ih _
    · rename_i hnone
      have hstep : pollStep c curators newest ev = newest := by
        unfold pollStep
        rw [Option.not_isSome_iff_eq_none.mp hnone]
      rw [ih, List.foldl_cons, hstep]

/-- **What is forged, and what is not subscribed to, changes nothing.** -/
theorem refresh_onlyAccepted (cache : CuratorCache) (p : Poll) :
    refreshCuratorLists c maxInbound print cache (p.onlyAccepted c maxInbound) =
      refreshCuratorLists c maxInbound print cache p := by
  have hfetched : (p.onlyAccepted c maxInbound).fetched c maxInbound = p.fetched c maxInbound := by
    unfold Poll.fetched Poll.onlyAccepted Poll.read Poll.curators
    cases p.answer with
    | none => rfl
    | some events =>
      dsimp only [Option.map_some, Option.elim_some, Option.getD_some]
      unfold pollCuratorLists
      rw [List.take_of_length_le, foldl_pollStep_filter]
      exact (List.length_filter_le _ _).trans (List.length_take_le _ _)
  unfold refreshCuratorLists
  rw [hfetched]

/-- **Curators' lists.**  Whatever the polls and the order and repetition of their answers, the cache
holds of each curator and id the newest authentic list among the events that were read; what is forged
or not subscribed to changes nothing; and two devices that accepted the same lists hold lists of one
date, the same one unless two of that date differ. -/
theorem curator_lists_law (start : CuratorCache) :
    (∀ polls curator id, IsNewest CuratorRec.createdAt
      ((afterPolls c maxInbound print start polls).get? (curator.toHex ++ ":" ++ id))
      (Delivered c maxInbound print start polls curator id)) ∧
    (∀ cache p, refreshCuratorLists c maxInbound print cache (p.onlyAccepted c maxInbound) =
      refreshCuratorLists c maxInbound print cache p) ∧
    ∀ ps qs, (∀ f, Accepted c maxInbound ps f ↔ Accepted c maxInbound qs f) → ∀ curator id,
      let held := fun polls : List Poll =>
        (afterPolls c maxInbound print start polls).get? (curator.toHex ++ ":" ++ id)
      let delivered := Delivered c maxInbound print start ps curator id
      (held ps).map (·.createdAt) = (held qs).map (·.createdAt) ∧
      ((∀ r r', delivered r → delivered r' → r.createdAt = r'.createdAt →
        (∀ s, delivered s → s.createdAt ≤ r.createdAt) → r = r') → held ps = held qs) := by
  refine ⟨isNewest_delivered c maxInbound print start, refresh_onlyAccepted c maxInbound print, ?_⟩
  intro ps qs hsame curator id
  have hps := isNewest_delivered c maxInbound print start ps curator id
  have hqs : IsNewest CuratorRec.createdAt
      ((afterPolls c maxInbound print start qs).get? (curator.toHex ++ ":" ++ id))
      (Delivered c maxInbound print start ps curator id) := by
    refine (isNewest_delivered c maxInbound print start qs curator id).congr fun r => ?_
    unfold Delivered
    simp only [hsame]
  exact ⟨hps.stamp_eq hqs, fun hties => hps.eq hqs hties⟩

end

/-! ## Two lists of one date -/

/-- A list that blocks one site. -/
def blockList (site : String) : NostrEvent :=
  ⟨⟨0⟩, ⟨0⟩, 5, 30100, [["d", "main"], ["L", "app.charter.web"], ["r", site, "block"]], "", ⟨0⟩⟩

def subscribing : GrantContent :=
  ⟨1, none, .blocklist, .young, [PubKey.toHex ⟨0⟩], none, [], none, none, [], [], none, none, 0⟩

/-- Two devices are answered the same two lists of one date, each in its own order. -/
theorem not_curator_lists : ¬∀ (c : Crypto) (maxInbound : Nat) (print : CuratorList → String)
    (start : CuratorCache) (content : Option GrantContent) (events events' : List NostrEvent),
    events.Perm events' → events.length ≤ maxInbound → ∀ key,
      (afterPolls c maxInbound print start [⟨content, some events⟩]).get? key =
        (afterPolls c maxInbound print start [⟨content, some events'⟩]).get? key := by
  intro h
  have heq := h ⟨NostrEvent.id, fun _ _ _ => true⟩ 8192
    (fun list => (list.entries.map (·.domain)).headD "") Registry.empty (some subscribing)
    [blockList "a.org", blockList "b.org"] [blockList "b.org", blockList "a.org"]
    (List.Perm.swap _ _ _) (by decide) (PubKey.toHex ⟨0⟩ ++ ":main")
  exact absurd heq (by decide)

end Kintrinsic.Curators
