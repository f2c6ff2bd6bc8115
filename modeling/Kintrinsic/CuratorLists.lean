import Kintrinsic.EnactedRuns
import Kintrinsic.Newest
import Kintrinsic.Registry
import Kintrinsic.RelayConfig
import Kintrinsic.WebPolicy

/-! # Curators' lists

A poll reads the first events of the relays' answer, keeps the newest authentic list of each curator and
id, and stores it where it is newer than the one in the cache. -/
namespace Kintrinsic.Curators

open Newest

/-! ## An event -/

/-- `tag_value`. -/
def tagValue (ev : NostrEvent) (name : String) : Option String :=
  (ev.tags.find? fun t => decide (2 ≤ t.length ∧ t[0]? = some name)).bind (·[1]?)

/-- `list_id`. -/
def listId (ev : NostrEvent) : String := (tagValue ev "d").getD ""

/-- `parse_rating`. -/
def parseRating (token : String) : Option Rating :=
  if token = "kid-safe" then some .kidSafe
  else if token = "block" then some .block
  else (Text.stripPrefix "category:".toList token.toList).bind fun k =>
    if k.isEmpty then none else some (.category (String.ofList k))

/-- One row of a list; a row that is malformed is skipped. -/
def parseRow : List String → Option CuratorEntry
  | tag :: domain :: rating :: _ =>
    if tag = "r" then do some ⟨← parseDomain domain, ← parseRating rating⟩ else none
  | _ => none

/-- `parse_curator_list`. -/
def parseCuratorList (ev : NostrEvent) : Option CuratorList :=
  if ev.kind ≠ 30100 then none
  else if !Relays.hasTag ev "L" "app.charter.web" then none
  else some ⟨ev.pubkey.toHex, ev.tags.filterMap parseRow⟩

structure FetchedCuratorList where
  curator : PubKey
  listId : String
  createdAt : Nat
  list : CuratorList
deriving DecidableEq

/-- The key of a list in a poll. -/
def FetchedCuratorList.key (f : FetchedCuratorList) : String × String := (f.curator.toHex, f.listId)

/-- The key of a list in the cache. -/
def FetchedCuratorList.storeKey (f : FetchedCuratorList) : String :=
  f.curator.toHex ++ ":" ++ f.listId

section
variable (c : Crypto) (curators : List PubKey)

/-- The list that is taken from an event, if any. -/
def accepted (ev : NostrEvent) : Option FetchedCuratorList :=
  if ev.pubkey ∉ curators then none
  else if !c.idIsConsistent ev || !c.signatureIsValid ev then none
  else (parseCuratorList ev).map fun list => ⟨ev.pubkey, listId ev, ev.createdAt, list⟩

/-- The loop of `poll_curator_lists`. -/
def pollStep (newest : Registry FetchedCuratorList.key) (ev : NostrEvent) :
    Registry FetchedCuratorList.key :=
  match accepted c curators ev with
  | none => newest
  | some f =>
    if (newest.get? f.key).all fun existing => existing.createdAt < f.createdAt then newest.put f
    else newest

/-- `poll_curator_lists`, of the relays' answer. -/
def pollCuratorLists (maxInbound : Nat) (events : List NostrEvent) : List FetchedCuratorList :=
  if curators.isEmpty then []
  else ((events.take maxInbound).foldl (pollStep c curators) Registry.empty).entries

end

/-! ## The cache -/

/-- A cached list, in the file of its key. -/
structure CuratorRec where
  key : String
  createdAt : Nat
  json : String
deriving DecidableEq

abbrev CuratorCache := Registry CuratorRec.key

/-- `put_list`. -/
def putList (cache : CuratorCache) (key : String) (createdAt : Nat) (json : String) : CuratorCache :=
  if (cache.get? key).any fun cur => createdAt ≤ cur.createdAt then cache
  else cache.put ⟨key, createdAt, json⟩

/-- A poll: the content clause in force, where it can be read, and the answer of the relays, where they
answer. -/
structure Poll where
  content : Option GrantContent
  answer : Option (List NostrEvent)

/-- The curators that the clause subscribes to. -/
def Poll.curators (p : Poll) : List PubKey := p.content.elim [] (·.curators.filterMap PubKey.fromHex)

section
variable (c : Crypto) (maxInbound : Nat) (print : CuratorList → String)

/-- The lists of a poll; relays that do not answer give none. -/
def Poll.fetched (p : Poll) : List FetchedCuratorList :=
  p.answer.elim [] (pollCuratorLists c p.curators maxInbound)

/-- What is stored of a list. -/
def recOf (f : FetchedCuratorList) : CuratorRec := ⟨f.storeKey, f.createdAt, print f.list⟩

/-- `refresh_curator_lists`. -/
def refreshCuratorLists (cache : CuratorCache) (p : Poll) : CuratorCache :=
  (p.fetched c maxInbound).foldl (fun cache f =>
    putList cache f.storeKey f.createdAt (print f.list)) cache

end

/-! ## What a poll keeps -/

/-- The key of a stored list tells its curator and its id apart. -/
theorem storeKey_eq_iff {f g : FetchedCuratorList} : f.storeKey = g.storeKey ↔ f.key = g.key := by
  have hlen : ∀ k : PubKey, k.toHex.toList.length = 64 := fun k => by
    unfold PubKey.toHex
    rw [String.toList_ofList, Hex.length_digits]
  unfold FetchedCuratorList.key FetchedCuratorList.storeKey
  constructor
  · intro h
    have hchars := congrArg String.toList h
    rw [String.toList_append, String.toList_append, String.toList_append, String.toList_append,
      List.append_assoc, List.append_assoc] at hchars
    obtain ⟨hhex, hid⟩ := List.append_inj hchars ((hlen _).trans (hlen _).symm)
    rw [String.toList_inj.mp hhex, String.toList_inj.mp (List.append_cancel_left hid)]
  · intro h
    obtain ⟨hcurator, hid⟩ := Prod.mk.inj h
    rw [hcurator, hid]

section
variable {c : Crypto} {curators : List PubKey}

/-- The lists of a key among the events. -/
def AcceptedAs (c : Crypto) (curators : List PubKey) (events : List NostrEvent) (k : String × String)
    (f : FetchedCuratorList) : Prop :=
  (∃ ev ∈ events, accepted c curators ev = some f) ∧ f.key = k

theorem filter_key (f : FetchedCuratorList) (k : String × String) :
    (some f).filter (fun g => g.key = k) = if f.key = k then some f else none := by
  by_cases hk : f.key = k <;> simp [Option.filter, hk]

theorem get?_pollStep (newest : Registry FetchedCuratorList.key) (ev : NostrEvent)
    (k : String × String) : (pollStep c curators newest ev).get? k =
      ((accepted c curators ev).filter (·.key = k)).elim (newest.get? k)
        (keep FetchedCuratorList.createdAt (newest.get? k)) := by
  unfold pollStep
  cases accepted c curators ev with
  | none => rfl
  | some f =>
    dsimp only
    by_cases hk : f.key = k
    · rw [filter_key, if_pos hk, Option.elim_some, ← hk]
      unfold keep
      split
      · exact newest.get?_put_self f
      · rfl
    · rw [filter_key, if_neg hk, Option.elim_none]
      split
      · exact newest.get?_put_of_ne (Ne.symm hk)
      · rfl

/-- **A poll keeps the newest list of each key** among the events that it reads. -/
theorem isNewest_poll (events : List NostrEvent) (k : String × String) :
    IsNewest FetchedCuratorList.createdAt
      ((events.foldl (pollStep c curators) Registry.empty).get? k)
      (AcceptedAs c curators events k) := by
  induction events using List.reverseRecOn with
  | nil => exact isNewest_none fun f ⟨⟨ev, hev, _⟩, _⟩ => absurd hev List.not_mem_nil
  | append_singleton events ev ih =>
    rw [List.foldl_append, List.foldl_cons, List.foldl_nil, get?_pollStep]
    cases hf : (accepted c curators ev).filter (·.key = k) with
    | none =>
      refine ih.congr fun f => and_congr_left fun hk => ?_
      have hnot : accepted c curators ev ≠ some f := by
        intro hev
        rw [hev, filter_key, if_pos hk] at hf
        exact nomatch hf
      constructor
      · rintro ⟨ev', hev', heq⟩
        exact ⟨ev', List.mem_append_left _ hev', heq⟩
      · rintro ⟨ev', hev', heq⟩
        rcases List.mem_append.mp hev' with hev' | hev'
        · exact ⟨ev', hev', heq⟩
        · exact absurd (List.mem_singleton.mp hev' ▸ heq) hnot
    | some g =>
      obtain ⟨hg, hk⟩ := Option.filter_eq_some_iff.mp hf
      rw [decide_eq_true_eq] at hk
      refine (ih.keep g).congr fun f => ?_
      constructor
      · rintro (⟨⟨ev', hev', heq⟩, hkey⟩ | rfl)
        · exact ⟨⟨ev', List.mem_append_left _ hev', heq⟩, hkey⟩
        · exact ⟨⟨ev, List.mem_append_right _ List.mem_cons_self, hg⟩, hk⟩
      · rintro ⟨⟨ev', hev', heq⟩, hkey⟩
        rcases List.mem_append.mp hev' with hev' | hev'
        · exact .inl ⟨⟨ev', hev', heq⟩, hkey⟩
        · rw [List.mem_singleton.mp hev', hg] at heq
          exact .inr (Option.some.inj heq).symm

end

/-! ## What the cache holds -/

theorem get?_putList (cache : CuratorCache) (r : CuratorRec) (key : String) :
    (putList cache r.key r.createdAt r.json).get? key =
      if r.key = key then keep CuratorRec.createdAt (cache.get? key) r else cache.get? key := by
  have hcond : (cache.get? r.key).any (fun cur => decide (r.createdAt ≤ cur.createdAt)) =
      !((cache.get? r.key).all fun cur => decide (cur.createdAt < r.createdAt)) := by
    cases cache.get? r.key with
    | none => rfl
    | some cur =>
      rw [Option.any_some, Option.all_some, ← decide_not]
      exact decide_eq_decide.mpr Nat.not_lt.symm
  unfold putList
  by_cases hkey : r.key = key
  · rw [if_pos hkey, ← hkey, hcond]
    unfold keep
    cases (cache.get? r.key).all fun cur => decide (cur.createdAt < r.createdAt) with
    | true => exact cache.get?_put_self r
    | false => rfl
  · rw [if_neg hkey]
    split
    · rfl
    · exact cache.get?_put_of_ne (r := r) (Ne.symm hkey)

/-- Records of different keys, put one after another. -/
theorem get?_foldl_putList (cache : CuratorCache) (rs : List CuratorRec)
    (hnodup : (rs.map (·.key)).Nodup) (key : String) :
    (rs.foldl (fun cache r => putList cache r.key r.createdAt r.json) cache).get? key =
      (rs.find? (·.key = key)).elim (cache.get? key)
        (keep CuratorRec.createdAt (cache.get? key)) := by
  induction rs generalizing cache with
  | nil => rfl
  | cons r rs ih =>
    obtain ⟨hnew, hrest⟩ := List.nodup_cons.mp hnodup
    rw [List.foldl_cons, ih _ hrest, get?_putList]
    by_cases hkey : r.key = key
    · have hnone : rs.find? (·.key = key) = none := by
        rw [List.find?_eq_none]
        intro r' hr' heq
        rw [decide_eq_true_eq] at heq
        exact hnew (List.mem_map.mpr ⟨r', hr', heq.trans hkey.symm⟩)
      rw [hnone, Option.elim_none, if_pos hkey, List.find?_cons, decide_eq_true hkey, Option.elim_some]
    · rw [if_neg hkey, List.find?_cons, decide_eq_false hkey]

section
variable (c : Crypto) (maxInbound : Nat) (print : CuratorList → String)

/-- The events that a poll reads. -/
def Poll.read (p : Poll) : List NostrEvent := (p.answer.getD []).take maxInbound

/-- A list that some of the polls accepted. -/
def Accepted (polls : List Poll) (f : FetchedCuratorList) : Prop :=
  ∃ p ∈ polls, ∃ ev ∈ p.read maxInbound, accepted c p.curators ev = some f

/-- What is under a key in a poll's answer is the newest that it accepted. -/
theorem isNewest_fetched (p : Poll) (k : String × String) :
    IsNewest FetchedCuratorList.createdAt ((p.fetched c maxInbound).find? (·.key = k))
      (AcceptedAs c p.curators (p.read maxInbound) k) := by
  unfold Poll.fetched pollCuratorLists Poll.read
  cases p.answer with
  | none =>
    rw [Option.getD_none, List.take_nil]
    exact isNewest_none fun f ⟨⟨ev, hev, _⟩, _⟩ => absurd hev List.not_mem_nil
  | some events =>
    rw [Option.elim_some, Option.getD_some]
    split
    · rename_i hempty
      refine isNewest_none fun f hf => ?_
      obtain ⟨⟨ev, -, hev⟩, -⟩ := hf
      unfold accepted at hev
      rw [List.isEmpty_iff.mp hempty, if_pos List.not_mem_nil] at hev
      exact nomatch hev
    · exact isNewest_poll (events.take maxInbound) k

theorem nodup_fetched (p : Poll) : ((p.fetched c maxInbound).map (·.key)).Nodup := by
  unfold Poll.fetched pollCuratorLists
  cases p.answer with
  | none => exact List.nodup_nil
  | some events =>
    rw [Option.elim_some]
    split
    · exact List.nodup_nil
    · exact Registry.nodup _

/-- A list under a key of the cache. -/
def AcceptedUnder (polls : List Poll) (key : String) (r : CuratorRec) : Prop :=
  ∃ f, Accepted c maxInbound polls f ∧ f.storeKey = key ∧ recOf print f = r

/-- What is under a key of the cache in a poll's answer is the newest that it accepted. -/
theorem isNewest_fetchedUnder (p : Poll) (key : String) :
    IsNewest FetchedCuratorList.createdAt ((p.fetched c maxInbound).find? (·.storeKey = key))
      fun f => Accepted c maxInbound [p] f ∧ f.storeKey = key := by
  by_cases hsome : ∃ g : FetchedCuratorList, g.storeKey = key
  · obtain ⟨g, rfl⟩ := hsome
    have hfind : (p.fetched c maxInbound).find? (·.storeKey = g.storeKey) =
        (p.fetched c maxInbound).find? (·.key = g.key) := by
      simp only [storeKey_eq_iff]
    rw [hfind]
    refine (isNewest_fetched c maxInbound p g.key).congr fun f => and_congr ?_ storeKey_eq_iff.symm
    constructor
    · rintro ⟨ev, hev, hf⟩
      exact ⟨p, List.mem_cons_self, ev, hev, hf⟩
    · rintro ⟨p', hp', ev, hev, hf⟩
      rw [List.mem_singleton.mp hp'] at hev hf
      exact ⟨ev, hev, hf⟩
  · have hnone : (p.fetched c maxInbound).find? (·.storeKey = key) = none :=
      List.find?_eq_none.mpr fun f _ hf => hsome ⟨f, of_decide_eq_true hf⟩
    rw [hnone]
    exact isNewest_none fun f hf => hsome ⟨f, hf.2⟩

/-- **One poll.**  What is under a key stays, or gives way to the newest list that was accepted. -/
theorem get?_refresh (cache : CuratorCache) (p : Poll) (key : String) :
    ∃ s, (refreshCuratorLists c maxInbound print cache p).get? key =
        s.elim (cache.get? key) (keep CuratorRec.createdAt (cache.get? key)) ∧
      IsNewest CuratorRec.createdAt s (AcceptedUnder c maxInbound print [p] key) := by
  have hnodup : (((p.fetched c maxInbound).map (recOf print)).map (·.key)).Nodup := by
    rw [List.map_map]
    exact (List.Nodup.of_map _ (nodup_fetched c maxInbound p)).map_on fun f hf g hg heq =>
      List.inj_on_of_nodup_map (nodup_fetched c maxInbound p) hf hg (storeKey_eq_iff.mp heq)
  have hrefresh : refreshCuratorLists c maxInbound print cache p =
      ((p.fetched c maxInbound).map (recOf print)).foldl
        (fun cache r => putList cache r.key r.createdAt r.json) cache := by
    rw [List.foldl_map]
    rfl
  have hkeys : ((fun r : CuratorRec => decide (r.key = key)) ∘ recOf print) =
      fun f => decide (f.storeKey = key) := by
    funext f
    have hkey : (recOf print f).key = f.storeKey := rfl
    rw [Function.comp_apply, decide_eq_decide, hkey]
  have hfind : ((p.fetched c maxInbound).map (recOf print)).find? (·.key = key) =
      ((p.fetched c maxInbound).find? (·.storeKey = key)).map (recOf print) := by
    rw [List.find?_map, hkeys]
  refine ⟨((p.fetched c maxInbound).find? (·.storeKey = key)).map (recOf print), ?_, ?_⟩
  · rw [hrefresh, get?_foldl_putList cache _ hnodup key, hfind]
  · have hstamp : ∀ f, (recOf print f).createdAt = f.createdAt := fun f => rfl
    refine ((isNewest_fetchedUnder c maxInbound p key).map hstamp).congr fun r => ?_
    constructor
    · rintro ⟨f, ⟨hf, hkey⟩, rfl⟩
      exact ⟨f, hf, hkey, rfl⟩
    · rintro ⟨f, hf, hkey, rfl⟩
      exact ⟨f, ⟨hf, hkey⟩, rfl⟩

end

end Kintrinsic.Curators
