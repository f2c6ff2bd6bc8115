import Kintrinsic.DomainNames

/-! # The quorum

A domain is let through on an allowlist when enough distinct curators stand behind it, and what is
evaluated does not depend on how lists are ordered or domains are spelled. -/

namespace Kintrinsic

/-! ## Who stands behind a domain -/

/-- The curators a clause is subscribed to. -/
def GrantContent.subscribed (c : GrantContent) : Finset String :=
  (c.curators.filterMap normalizeCurator).toFinset

theorem GrantContent.mem_subscribed {c : GrantContent} {id : String} :
    id ∈ c.subscribed ↔ ∃ raw ∈ c.curators, normalizeCurator raw = some id := by
  rw [subscribed, List.mem_toFinset, List.mem_filterMap]

/-- Some list of the curator rates some spelling of the domain so. -/
def Rates (lists : List CuratorList) (rating : Rating) (id d : String) : Prop :=
  ∃ l ∈ lists, normalizeCurator l.curator = some id ∧
    ∃ e ∈ l.entries, e.rating = rating ∧ parseDomain e.domain = some d

instance (lists : List CuratorList) (rating : Rating) (id d : String) :
    Decidable (Rates lists rating id d) :=
  inferInstanceAs (Decidable (∃ l ∈ lists, normalizeCurator l.curator = some id ∧
    ∃ e ∈ l.entries, e.rating = rating ∧ parseDomain e.domain = some d))

/-- The subscribed curators who rate a domain kid-safe. -/
def supporters (c : GrantContent) (lists : List CuratorList) (d : String) : Finset String :=
  c.subscribed.filter fun id => Rates lists .kidSafe id d

theorem mem_votes {subscribed : Finset String} {rating : Rating} {lists : List CuratorList}
    {d id : String} : (d, id) ∈ votes subscribed rating lists ↔
      id ∈ subscribed ∧ Rates lists rating id d := by
  unfold votes Rates
  rw [List.mem_flatMap]
  constructor
  · rintro ⟨l, hl, hv⟩
    split at hv
    · cases hv
    · rename_i curator hcurator
      split at hv
      · rename_i hsub
        obtain ⟨e, he, hvote⟩ := List.mem_filterMap.mp hv
        split at hvote
        · rename_i hrating
          obtain ⟨host, hhost, hpair⟩ := Option.map_eq_some_iff.mp hvote
          obtain ⟨rfl, rfl⟩ := Prod.mk.inj hpair
          exact ⟨hsub, l, hl, hcurator, e, he, hrating, hhost⟩
        · cases hvote
      · cases hv
  · rintro ⟨hsub, l, hl, hcurator, e, he, hrating, hhost⟩
    refine ⟨l, hl, ?_⟩
    simp only [hcurator, if_pos hsub]
    exact List.mem_filterMap.mpr ⟨e, he, by rw [if_pos hrating, hhost, Option.map_some]⟩

theorem votersOf_votes (c : GrantContent) (lists : List CuratorList) (d : String) :
    votersOf (votes c.subscribed .kidSafe lists) d = supporters c lists d := by
  ext id
  unfold votersOf supporters
  rw [List.mem_toFinset, List.mem_map, Finset.mem_filter, ← mem_votes]
  constructor
  · rintro ⟨⟨host, id⟩, hv, rfl⟩
    rw [List.mem_filter, decide_eq_true_eq] at hv
    obtain ⟨hv, rfl⟩ := hv
    exact hv
  · intro hv
    exact ⟨(d, id), List.mem_filter.mpr ⟨hv, decide_eq_true rfl⟩, rfl⟩

/-- **Enough distinct curators**: the domains of the quorum are those with enough supporters. -/
theorem mem_quorumDomains {c : GrantContent} {lists : List CuratorList} {d : String} :
    d ∈ quorumDomains c lists ↔ c.effectiveQuorum ≤ (supporters c lists d).card := by
  show d ∈ ((votes c.subscribed .kidSafe lists).map Prod.fst).toFinset.filter (fun d =>
    c.effectiveQuorum ≤ (votersOf (votes c.subscribed .kidSafe lists) d).card) ↔ _
  rw [Finset.mem_filter, votersOf_votes, and_iff_right_iff_imp]
  intro hquorum
  -- a quorum is of one at least, and a curator who supports has voted
  have hpos : 0 < (supporters c lists d).card :=
    lt_of_lt_of_le (Nat.succ_le_iff.mp (le_max_right _ _)) hquorum
  obtain ⟨id, hid⟩ := Finset.card_pos.mp hpos
  obtain ⟨hsub, hrates⟩ := Finset.mem_filter.mp hid
  rw [List.mem_toFinset]
  exact List.mem_map.mpr ⟨(d, id), mem_votes.mpr ⟨hsub, hrates⟩, rfl⟩

/-! ## Written alike -/

/-- Two lists of domains, with the same domains in any order, number and spelling. -/
def DomainsAlike (as bs : List String) : Prop :=
  (∀ a ∈ as, ∃ b ∈ bs, SameHost a b) ∧ ∀ b ∈ bs, ∃ a ∈ as, SameHost b a

/-- Every entry of the first list is in the second, in some spelling. -/
def EntriesIn (es fs : List CuratorEntry) : Prop :=
  ∀ e ∈ es, ∃ f ∈ fs, f.rating = e.rating ∧ SameHost e.domain f.domain

/-- The curator is not one of the clause's. -/
def Unsubscribed (c : GrantContent) (id : String) : Prop :=
  ∀ n ∈ c.subscribed, normalizeCurator id ≠ some n

/-- Every list of a subscribed curator is among the second lists, its entries in any order, number
and spelling. -/
def ListsIn (c : GrantContent) (ls ms : List CuratorList) : Prop :=
  ∀ l ∈ ls, Unsubscribed c l.curator ∨ ∃ m ∈ ms, m.curator = l.curator ∧
    EntriesIn l.entries m.entries ∧ EntriesIn m.entries l.entries

/-- Two clauses that differ in the order and number of their curators and in how their domains are
ordered, repeated and spelled. -/
structure ClauseAlike (c c' : GrantContent) : Prop where
  rest : c' = { c with
    curators := c'.curators, parentAllow := c'.parentAllow, parentDeny := c'.parentDeny }
  curators : ∀ id, id ∈ c.curators ↔ id ∈ c'.curators
  parentAllow : DomainsAlike c.parentAllow c'.parentAllow
  parentDeny : DomainsAlike c.parentDeny c'.parentDeny

/-- Two clauses and their lists, written alike. -/
structure Alike (c c' : GrantContent) (ls ls' : List CuratorList) : Prop extends
    ClauseAlike c c' where
  there : ListsIn c ls ls'
  back : ListsIn c ls' ls

theorem DomainsAlike.parsedDomains_eq {as bs : List String} (h : DomainsAlike as bs) :
    parsedDomains as = parsedDomains bs := by
  ext d
  rw [mem_parsedDomains, mem_parsedDomains]
  constructor
  · rintro ⟨a, ha, hparse⟩
    obtain ⟨b, hb, hsame⟩ := h.1 a ha
    exact ⟨b, hb, hsame.parseDomain_eq ▸ hparse⟩
  · rintro ⟨b, hb, hparse⟩
    obtain ⟨a, ha, hsame⟩ := h.2 b hb
    exact ⟨a, ha, hsame.parseDomain_eq ▸ hparse⟩

namespace ClauseAlike
variable {c c' : GrantContent} (h : ClauseAlike c c')
include h

theorem subscribed_eq : c.subscribed = c'.subscribed := by
  ext id
  rw [GrantContent.mem_subscribed, GrantContent.mem_subscribed]
  simp only [h.curators]

theorem live_eq : c'.isSupportedVersion = c.isSupportedVersion ∧ c'.isPaused = c.isPaused ∧
    c'.isRevoked = c.isRevoked ∧ c'.effectiveQuorum = c.effectiveQuorum := by
  rw [h.rest]
  exact ⟨rfl, rfl, rfl, rfl⟩

theorem settings_eq : c'.posture = c.posture ∧ c'.safeSearchOn = c.safeSearchOn ∧
    c'.youtubeRestrict = c.youtubeRestrict ∧ c'.blockCategories = c.blockCategories := by
  rw [h.rest]
  exact ⟨rfl, rfl, rfl, rfl⟩

end ClauseAlike

/-- What a subscribed curator rates is rated in lists that hold his. -/
theorem Rates.of_listsIn {c : GrantContent} {ls ms : List CuratorList} {rating : Rating}
    {id d : String} (hin : ListsIn c ls ms) (hid : id ∈ c.subscribed)
    (h : Rates ls rating id d) : Rates ms rating id d := by
  obtain ⟨l, hl, hcurator, e, he, hrating, hparse⟩ := h
  obtain hno | ⟨m, hm, hsame, hentries, -⟩ := hin l hl
  · exact absurd hcurator (hno id hid)
  · obtain ⟨f, hf, hrating', hhost⟩ := hentries e he
    exact ⟨m, hm, hsame ▸ hcurator, f, hf, hrating'.trans hrating, hhost.parseDomain_eq ▸ hparse⟩

namespace Alike
variable {c c' : GrantContent} {ls ls' : List CuratorList} (h : Alike c c' ls ls')
include h

theorem rates_iff (rating : Rating) (d : String) {id : String} (hid : id ∈ c.subscribed) :
    Rates ls rating id d ↔ Rates ls' rating id d :=
  ⟨.of_listsIn h.there hid, .of_listsIn h.back hid⟩

theorem quorumDomains_eq : quorumDomains c ls = quorumDomains c' ls' := by
  ext d
  rw [mem_quorumDomains, mem_quorumDomains, h.live_eq.2.2.2]
  have hsame : supporters c ls d = supporters c' ls' d := by
    unfold supporters
    rw [← h.subscribed_eq]
    exact Finset.filter_congr fun id hid => h.rates_iff .kidSafe d hid
  rw [hsame]

theorem voted_eq (rating : Rating) : ((votes c.subscribed rating ls).map Prod.fst).toFinset =
    ((votes c'.subscribed rating ls').map Prod.fst).toFinset := by
  ext d
  rw [← h.subscribed_eq]
  simp only [List.mem_toFinset, List.mem_map, Prod.exists, mem_votes, exists_and_right,
    exists_eq_right]
  constructor
  · rintro ⟨id, hid, hrates⟩
    exact ⟨id, hid, (h.rates_iff rating d hid).mp hrates⟩
  · rintro ⟨id, hid, hrates⟩
    exact ⟨id, hid, (h.rates_iff rating d hid).mpr hrates⟩

end Alike

/-! ## The evaluated policy -/

/-- A clause that is evaluated against its lists. -/
structure GrantContent.Live (c : GrantContent) : Prop where
  supported : c.isSupportedVersion = true
  running : c.isPaused = false
  standing : c.isRevoked = false

/-- The policy, without the two notes of what was rejected. -/
def EffectiveWebPolicy.enforced (p : EffectiveWebPolicy) : EffectiveWebPolicy :=
  { p with rejectedDomains := [], rejectedCurators := 0 }

/-- The parents' entries that are no domains, as they are written. -/
def GrantContent.malformedDomains (c : GrantContent) : List String :=
  (c.parentAllow ++ c.parentDeny).filter fun d => (parseDomain d).isNone

/-- How many of the curators are no ids. -/
def GrantContent.malformedCurators (c : GrantContent) : Nat :=
  (c.curators.filter fun id => (normalizeCurator id).isNone).length

theorem mem_allowDomains {c : GrantContent} (hlive : c.Live) (hposture : c.posture = .allowlist)
    (lists : List CuratorList) (d : String) : d ∈ (evaluateContent c lists).allowDomains ↔
      d ∉ parsedDomains c.parentDeny ∧ (d ∈ parsedDomains c.parentAllow ∨
        max 1 (c.quorumN.getD 2) ≤ (supporters c lists d).card) := by
  have hquorum : c.effectiveQuorum = max 1 (c.quorumN.getD 2) := max_comm _ _
  unfold evaluateContent
  simp only [hlive.supported, hlive.running, hlive.standing, hposture, Bool.not_true,
    Bool.false_eq_true, if_false]
  rw [Finset.mem_sdiff, Finset.mem_union, mem_quorumDomains, hquorum, or_comm, and_comm]

namespace Alike
variable {c c' : GrantContent} {ls ls' : List CuratorList} (h : Alike c c' ls ls')
include h

/-- What is written alike is enforced alike. -/
theorem enforced_eq :
    (evaluateContent c ls).enforced = (evaluateContent c' ls').enforced := by
  obtain ⟨hversion, hpaused, hrevoked, -⟩ := h.live_eq
  obtain ⟨hposture, hsafe, hyoutube, hcategories⟩ := h.settings_eq
  unfold evaluateContent
  rw [hversion, hpaused, hrevoked, hposture, hsafe, hyoutube, hcategories, h.quorumDomains_eq,
    ← h.parentAllow.parsedDomains_eq, ← h.parentDeny.parsedDomains_eq]
  have hvoted := h.voted_eq .block
  unfold GrantContent.subscribed at hvoted
  dsimp only
  rw [hvoted]
  split_ifs with hsupported hlocked hopen
  · rfl
  · rfl
  · rfl
  · cases c.posture with
    | allowlist => rfl
    | blocklist => rfl

theorem evaluate_eq (hdomains : c.malformedDomains = c'.malformedDomains)
    (hcurators : c.malformedCurators = c'.malformedCurators) :
    evaluateContent c ls = evaluateContent c' ls' := by
  have henforced := h.enforced_eq
  have hnotes : (evaluateContent c ls).rejectedDomains = (evaluateContent c' ls').rejectedDomains ∧
      (evaluateContent c ls).rejectedCurators = (evaluateContent c' ls').rejectedCurators := by
    obtain ⟨hversion, hpaused, hrevoked, -⟩ := h.live_eq
    have hposture := h.settings_eq.1
    unfold GrantContent.malformedDomains at hdomains
    unfold GrantContent.malformedCurators at hcurators
    unfold evaluateContent
    rw [hversion, hpaused, hrevoked, hposture]
    dsimp only
    rw [hdomains, hcurators]
    split_ifs with hsupported hlocked hopen
    · exact ⟨rfl, rfl⟩
    · exact ⟨rfl, rfl⟩
    · exact ⟨rfl, rfl⟩
    · cases c.posture with
      | allowlist => exact ⟨rfl, rfl⟩
      | blocklist => exact ⟨rfl, rfl⟩
  generalize evaluateContent c ls = p at henforced hnotes ⊢
  generalize evaluateContent c' ls' = p' at henforced hnotes ⊢
  unfold EffectiveWebPolicy.enforced at henforced
  cases p
  cases p'
  simp only [EffectiveWebPolicy.mk.injEq, and_true] at henforced hnotes ⊢
  tauto

end Alike

/-- **The quorum decides, and only it**: on a live allowlist a domain is let through exactly when no
parent denies it and a parent allows it or enough distinct curators support it.  Clauses and lists
that are written alike are enforced alike, and evaluated alike in all but what was rejected. -/
theorem evaluate_quorum :
    (∀ (c : GrantContent) (lists : List CuratorList), c.Live → c.posture = .allowlist →
      ∀ d, d ∈ (evaluateContent c lists).allowDomains ↔
        d ∉ parsedDomains c.parentDeny ∧ (d ∈ parsedDomains c.parentAllow ∨
          max 1 (c.quorumN.getD 2) ≤ (supporters c lists d).card)) ∧
    ∀ (c c' : GrantContent) (ls ls' : List CuratorList), Alike c c' ls ls' →
      (evaluateContent c ls).enforced = (evaluateContent c' ls').enforced ∧
      (c.malformedDomains = c'.malformedDomains → c.malformedCurators = c'.malformedCurators →
        evaluateContent c ls = evaluateContent c' ls') :=
  ⟨fun _ lists hlive hposture d => mem_allowDomains hlive hposture lists d,
    fun _ _ _ _ h => ⟨h.enforced_eq, h.evaluate_eq⟩⟩

/-- A young child's allowlist. -/
def allowlistOf (curators parentAllow : List String) (quorum : Option Nat) : GrantContent :=
  ⟨1, none, .allowlist, .young, curators, quorum, [], none, none, parentAllow, [], none, none, 1⟩

/-- A host, written as it is. -/
def plainSpelling (name : List Char) (host : List Char) (hname : name.map Text.asciiLower = host)
    (hbare : (∀ c ∈ host, endsHost c = false) ∧ host.dropWhile Text.isWhiteSpace = host ∧
      Text.trimEndBy Text.isWhiteSpace host = host) : Spelling host where
  scheme := []
  name
  dots := 0
  port := []
  path := []
  scheme_lower := List.mem_cons_self
  name_lower := hname
  bare := hbare
  port_digits := .inl rfl
  path_head c hc := by cases hc

theorem allowlistOf_alike (curators curators' parentAllow parentAllow' : List String)
    (hcurators : ∀ id, id ∈ curators ↔ id ∈ curators')
    (hallow : DomainsAlike parentAllow parentAllow') :
    Alike (allowlistOf curators parentAllow none) (allowlistOf curators' parentAllow' none) [] [] where
  rest := rfl
  curators := hcurators
  parentAllow := hallow
  parentDeny := ⟨fun _ h => absurd h List.not_mem_nil, fun _ h => absurd h List.not_mem_nil⟩
  there _ h := absurd h List.not_mem_nil
  back _ h := absurd h List.not_mem_nil

/-- What is rejected is noted as it is written: an id twice counts twice, and a name in other
letters is another entry. -/
theorem rejected_as_written :
    (Alike (allowlistOf ["x"] [] none) (allowlistOf ["x", "x"] [] none) [] [] ∧
      evaluateContent (allowlistOf ["x"] [] none) [] ≠
        evaluateContent (allowlistOf ["x", "x"] [] none) []) ∧
    (Alike (allowlistOf [] ["bad_host"] none) (allowlistOf [] ["BAD_host"] none) [] [] ∧
      evaluateContent (allowlistOf [] ["bad_host"] none) [] ≠
        evaluateContent (allowlistOf [] ["BAD_host"] none) []) := by
  have hsame : SameHost "bad_host" "BAD_host" :=
    .inr ⟨"bad_host".toList,
      plainSpelling "bad_host".toList _ (by decide) ⟨Spelling.bare_of_all (by decide), by decide⟩,
      plainSpelling "BAD_host".toList _ (by decide) ⟨Spelling.bare_of_all (by decide), by decide⟩,
      by decide, by decide⟩
  refine ⟨⟨allowlistOf_alike _ _ _ _ (by simp) ?_, fun heq => ?_⟩,
    allowlistOf_alike _ _ _ _ (by simp) ?_, fun heq => ?_⟩
  · exact ⟨fun _ h => absurd h List.not_mem_nil, fun _ h => absurd h List.not_mem_nil⟩
  · have hcount := congrArg EffectiveWebPolicy.rejectedCurators heq
    exact absurd hcount (by decide +kernel)
  · refine ⟨fun a ha => ?_, fun b hb => ?_⟩
    · rw [List.mem_singleton.mp ha]
      exact ⟨_, List.mem_singleton_self _, hsame⟩
    · rw [List.mem_singleton.mp hb]
      exact ⟨_, List.mem_singleton_self _, hsame.symm⟩
  · have hnoted := congrArg EffectiveWebPolicy.rejectedDomains heq
    exact absurd hnoted (by decide +kernel)

/-- A curator's id. -/
def sampleCurator : String := String.ofList (List.replicate 64 'a')

/-- **A quorum of one**: one curator, one list, and a host in another spelling. -/
theorem evaluate_quorum_one :
    "example.com" ∈ (evaluateContent (allowlistOf [sampleCurator] [] (some 1))
      [⟨sampleCurator, [⟨"HTTPS://www.Example.com./a", .kidSafe⟩]⟩]).allowDomains ∧
    evaluateContent (allowlistOf ["x"] ["a"] none) [] =
      evaluateContent (allowlistOf ["x"] ["a", "a"] none) [] := by
  refine ⟨(evaluate_quorum.1 _ _ ⟨rfl, rfl, rfl⟩ rfl _).mpr ⟨?_, .inr ?_⟩,
    (evaluate_quorum.2 _ _ _ _ (allowlistOf_alike _ _ _ _ (by simp) ?_)).2 ?_ rfl⟩
  · decide
  · decide +kernel
  · exact ⟨fun a ha => ⟨a, by simp_all, .inl rfl⟩, fun b hb => ⟨b, by simp_all, .inl rfl⟩⟩
  · decide +kernel

end Kintrinsic
