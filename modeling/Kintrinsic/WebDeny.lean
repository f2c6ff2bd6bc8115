import Kintrinsic.WebPolicy

/-! # What denying a site does

A denied name is blocked wherever names are blocked.  Where only the allowed names load, it is out
of reach unless some allowed name is above or below it. -/
namespace Kintrinsic

open NameTree

/-! ## Patterns -/

theorem append_left_inj_of_right {a b : String} (s : String) (h : a ++ s = b ++ s) : a = b := by
  have hlist := congrArg String.toList h
  rw [String.toList_append, String.toList_append] at hlist
  exact String.toList_inj.mp (List.append_cancel_right hlist)

theorem append_right_inj_of_left {a b : String} (s : String) (h : s ++ a = s ++ b) : a = b := by
  have hlist := congrArg String.toList h
  rw [String.toList_append, String.toList_append] at hlist
  exact String.toList_inj.mp (List.append_cancel_left hlist)

theorem anyScheme_ne_allUrls (s : String) : "*://" ++ s ≠ allUrls := by
  intro h
  have hlist := congrArg (fun t : String => t.toList.head?) h
  have hscheme : "*://".toList = ['*', ':', '/', '/'] := by decide
  rw [String.toList_append, hscheme] at hlist
  have hstar : some '*' = allUrls.toList.head? := hlist
  exact absurd hstar (by decide)

/-- A name without a star is not what is left of a pattern with one. -/
theorem anyScheme_ne_anyLabel {host : String} (hhost : '*' ∉ host.toList) (domain : String) :
    "*://" ++ host ++ "/*" ≠ "*://*." ++ domain ++ "/*" := by
  intro h
  have hname : "*://" ++ host = "*://" ++ ("*." ++ domain) := by
    rw [← String.append_assoc]
    exact append_left_inj_of_right "/*" h
  have hstar := append_right_inj_of_left "*://" hname
  rw [hstar, String.toList_append] at hhost
  exact hhost (List.mem_append_left _ (by decide))

/-- The patterns of a domain match just the names under it. -/
theorem hostPatterns_match {domain host : String} (hdomain : isValidDomain domain = true)
    (hhost : isValidDomain host = true) :
    (∃ p ∈ hostPatterns domain, PatternMatches p host) ↔
      Under '.' host.toList domain.toList := by
  constructor
  · rintro ⟨p, hp, hmatch⟩
    rw [hostPatterns, Finset.mem_insert, Finset.mem_singleton] at hp
    rcases hp with rfl | rfl
    · rcases hmatch with hall | hexact | ⟨d, hunder, -⟩
      · rw [String.append_assoc] at hall
        exact absurd hall (anyScheme_ne_allUrls _)
      · have hname := append_left_inj_of_right "/*" hexact
        rw [append_right_inj_of_left "*://" hname]
        exact Under.refl _
      · exact absurd hunder (anyScheme_ne_anyLabel (notMem_star hdomain) d)
    · rcases hmatch with hall | hexact | ⟨d, hunder, hd⟩
      · have hlabel : "*://*." ++ domain ++ "/*" = "*://" ++ ("*." ++ (domain ++ "/*")) := by
          rw [← String.append_assoc, ← String.append_assoc]
          rfl
        exact absurd (hlabel ▸ hall) (anyScheme_ne_allUrls _)
      · exact absurd hexact.symm (anyScheme_ne_anyLabel (notMem_star hhost) domain)
      · have hname := append_left_inj_of_right "/*" hunder
        rw [append_right_inj_of_left "*://*." hname]
        exact hd
  · intro h
    refine ⟨"*://*." ++ domain ++ "/*", ?_, Or.inr (Or.inr ⟨domain, rfl, h⟩)⟩
    exact Finset.mem_insert_of_mem (Finset.mem_singleton_self _)

theorem biUnion_match {domains : Finset String} (hdomains : ∀ d ∈ domains, isValidDomain d = true)
    {host : String} (hhost : isValidDomain host = true) :
    (∃ p ∈ domains.biUnion hostPatterns, PatternMatches p host) ↔
      ∃ d ∈ domains, Under '.' host.toList d.toList := by
  constructor
  · rintro ⟨p, hp, hmatch⟩
    obtain ⟨d, hd, hpd⟩ := Finset.mem_biUnion.mp hp
    exact ⟨d, hd, (hostPatterns_match (hdomains d hd) hhost).mp ⟨p, hpd, hmatch⟩⟩
  · rintro ⟨d, hd, hunder⟩
    obtain ⟨p, hpd, hmatch⟩ := (hostPatterns_match (hdomains d hd) hhost).mpr hunder
    exact ⟨p, Finset.mem_biUnion.mpr ⟨d, hd, hpd⟩, hmatch⟩

/-! ## What is evaluated -/

theorem valid_of_mem_parsedDomains {raw : List String} {d : String} (h : d ∈ parsedDomains raw) :
    isValidDomain d = true := by
  obtain ⟨e, -, he⟩ := mem_parsedDomains.mp h
  exact isValidDomain_of_parseDomain he

theorem valid_of_mem_votes {subscribed : Finset String} {rating : Rating}
    {lists : List CuratorList} {v : String × String} (h : v ∈ votes subscribed rating lists) :
    isValidDomain v.1 = true := by
  unfold votes at h
  obtain ⟨l, -, hv⟩ := List.mem_flatMap.mp h
  split at hv
  · cases hv
  split at hv
  · obtain ⟨e, -, he⟩ := List.mem_filterMap.mp hv
    split at he
    · obtain ⟨d, hd, rfl⟩ := Option.map_eq_some_iff.mp he
      exact isValidDomain_of_parseDomain hd
    · cases he
  · cases hv

theorem valid_of_mem_quorumDomains {clause : GrantContent} {lists : List CuratorList} {d : String}
    (h : d ∈ quorumDomains clause lists) : isValidDomain d = true := by
  have hmem := (Finset.mem_filter.mp h).1
  obtain ⟨v, hv, rfl⟩ := List.mem_map.mp (List.mem_toFinset.mp hmem)
  exact valid_of_mem_votes hv

/-- The names a clause lets load, before the denied ones are taken out. -/
def namedAllowed (clause : GrantContent) (lists : List CuratorList) : Finset String :=
  quorumDomains clause lists ∪ parsedDomains clause.parentAllow

theorem valid_of_mem_namedAllowed {clause : GrantContent} {lists : List CuratorList} {d : String}
    (h : d ∈ namedAllowed clause lists) : isValidDomain d = true := by
  rcases Finset.mem_union.mp h with h | h
  · exact valid_of_mem_quorumDomains h
  · exact valid_of_mem_parsedDomains h

/-- A host that neither rendering of a policy lets through. -/
def Unreachable (policy : EffectiveWebPolicy) (host : String) : Prop :=
  (∃ w, renderFirefoxPolicies policy = some w ∧ w.Blocks host) ∧
    (renderDnsFilter policy).Shuts host

/-- Every denied site, with all under it, is unreachable. -/
def DeniesHold (clause : GrantContent) (lists : List CuratorList) : Prop :=
  ∀ host, isValidDomain host = true →
    (∃ e ∈ clause.parentDeny, ∃ d, parseDomain e = some d ∧ Under '.' host.toList d.toList) →
      Unreachable (evaluateContent clause lists) host

/-- No denied name is above or below a name that stays allowed. -/
def NoNesting (clause : GrantContent) (lists : List CuratorList) : Prop :=
  ∀ a ∈ namedAllowed clause lists, a ∉ parsedDomains clause.parentDeny →
    ∀ d ∈ parsedDomains clause.parentDeny,
      ¬Under '.' a.toList d.toList ∧ ¬Under '.' d.toList a.toList

section Active
variable {clause : GrantContent} (lists : List CuratorList)
  (hversion : clause.isSupportedVersion = true) (hpaused : clause.isPaused = false)
  (hrevoked : clause.isRevoked = false)
include hversion hpaused hrevoked

theorem evaluateContent_allowlist (hposture : clause.posture = .allowlist) :
    (evaluateContent clause lists).locked = false ∧
      (evaluateContent clause lists).posture = some .allowlist ∧
      (evaluateContent clause lists).allowDomains =
        namedAllowed clause lists \ parsedDomains clause.parentDeny ∧
      (evaluateContent clause lists).allowExceptions =
        parsedDomains clause.parentAllow \ parsedDomains clause.parentDeny := by
  unfold evaluateContent
  rw [hversion, hpaused, hrevoked, hposture]
  exact ⟨rfl, rfl, rfl, rfl⟩

theorem evaluateContent_blocklist (hposture : clause.posture = .blocklist) :
    (evaluateContent clause lists).locked = false ∧
      (evaluateContent clause lists).posture = some .blocklist ∧
      parsedDomains clause.parentDeny ⊆ (evaluateContent clause lists).blockDomains ∧
      ∀ d ∈ (evaluateContent clause lists).blockDomains, isValidDomain d = true := by
  unfold evaluateContent
  rw [hversion, hpaused, hrevoked, hposture]
  refine ⟨rfl, rfl, Finset.subset_union_right, ?_⟩
  intro d hd
  rcases Finset.mem_union.mp hd with hd | hd
  · obtain ⟨v, hv, rfl⟩ := List.mem_map.mp (List.mem_toFinset.mp (Finset.mem_sdiff.mp hd).1)
    exact valid_of_mem_votes hv
  · exact valid_of_mem_parsedDomains hd

/-- Under a blocklist a denied site is out of reach. -/
theorem deniesHold_blocklist (hposture : clause.posture = .blocklist) :
    DeniesHold clause lists := by
  obtain ⟨hopen, hblock, hdenied, hvalid⟩ :=
    evaluateContent_blocklist lists hversion hpaused hrevoked hposture
  rintro host hhost ⟨e, he, d, hd, hunder⟩
  have hmem : d ∈ (evaluateContent clause lists).blockDomains :=
    hdenied (mem_parsedDomains.mpr ⟨e, he, hd⟩)
  refine ⟨⟨⟨(evaluateContent clause lists).blockDomains.biUnion hostPatterns, ∅⟩, ?_, ?_, ?_⟩, ?_⟩
  · unfold renderFirefoxPolicies
    rw [hopen, hblock]
    rfl
  · exact (biUnion_match hvalid hhost).mpr ⟨d, hmem, hunder⟩
  · intro p hp
    exact absurd hp (Finset.notMem_empty p)
  · intro _
    exact ⟨d, Finset.mem_insert_of_mem hmem, hunder⟩

/-- Under an allowlist it is out of reach when no allowed name is above or below it. -/
theorem deniesHold_allowlist_iff (hposture : clause.posture = .allowlist) :
    DeniesHold clause lists ↔ NoNesting clause lists := by
  obtain ⟨hopen, hallow, hnames, hexceptions⟩ :=
    evaluateContent_allowlist lists hversion hpaused hrevoked hposture
  have hfilter : renderFirefoxPolicies (evaluateContent clause lists) = some ⟨{allUrls},
      (namedAllowed clause lists \ parsedDomains clause.parentDeny).biUnion hostPatterns⟩ := by
    unfold renderFirefoxPolicies
    rw [hopen, hallow, hnames]
    rfl
  have hvalid : ∀ a ∈ namedAllowed clause lists \ parsedDomains clause.parentDeny,
      isValidDomain a = true :=
    fun a ha => valid_of_mem_namedAllowed (Finset.mem_sdiff.mp ha).1
  constructor
  · intro h a ha hkept d hd
    -- the longer of the two names is a host that is denied and loads all the same
    have hreach : ∀ host, isValidDomain host = true → Under '.' host.toList d.toList →
        ¬Under '.' host.toList a.toList := by
      intro host hhost hdenied hallowed
      obtain ⟨e, he, hparse⟩ := mem_parsedDomains.mp hd
      obtain ⟨⟨w, hw, -, hexcept⟩, -⟩ := h host hhost ⟨e, he, d, hparse, hdenied⟩
      rw [hfilter] at hw
      obtain rfl := Option.some.inj hw
      obtain ⟨p, hp, hmatch⟩ :=
        (biUnion_match hvalid hhost).mpr ⟨a, Finset.mem_sdiff.mpr ⟨ha, hkept⟩, hallowed⟩
      exact hexcept p hp hmatch
    refine ⟨fun hunder => ?_, fun hunder => ?_⟩
    · exact hreach a (valid_of_mem_namedAllowed ha) hunder (Under.refl _)
    · exact hreach d (valid_of_mem_parsedDomains hd) (Under.refl _) hunder
  · rintro h host hhost ⟨e, he, d, hd, hunder⟩
    have hdenied : d ∈ parsedDomains clause.parentDeny := mem_parsedDomains.mpr ⟨e, he, hd⟩
    have hclear : ∀ a ∈ namedAllowed clause lists, a ∉ parsedDomains clause.parentDeny →
        ¬Under '.' host.toList a.toList := by
      intro a ha hkept hallowed
      obtain ⟨hbelow, habove⟩ := h a ha hkept d hdenied
      rcases hallowed.total hunder with hnested | hnested
      · exact hbelow hnested
      · exact habove hnested
    refine ⟨⟨_, hfilter, ⟨allUrls, Finset.mem_singleton_self _, Or.inl rfl⟩, ?_⟩, ?_⟩
    · intro p hp hmatch
      obtain ⟨a, ha, hallowed⟩ := (biUnion_match hvalid hhost).mp ⟨p, hp, hmatch⟩
      obtain ⟨hnamed, hkept⟩ := Finset.mem_sdiff.mp ha
      exact hclear a hnamed hkept hallowed
    · rintro ⟨a, ha, hallowed⟩
      have hnamed : a ∈ namedAllowed clause lists ∧ a ∉ parsedDomains clause.parentDeny := by
        rcases Finset.mem_union.mp ha with ha | ha
        · have hallow : a ∈ (evaluateContent clause lists).allowDomains := ha
          rw [hnames] at hallow
          exact Finset.mem_sdiff.mp hallow
        · have hexcept : a ∈ (evaluateContent clause lists).allowExceptions := ha
          rw [hexceptions] at hexcept
          obtain ⟨hmem, hkept⟩ := Finset.mem_sdiff.mp hexcept
          exact ⟨Finset.mem_union_right _ hmem, hkept⟩
      exact absurd hallowed (hclear a hnamed.1 hnamed.2)

/-- **A denied site is unreachable**, by every host and every name under it, if and only if the
posture is a blocklist or no denied name is above or below a name that stays allowed. -/
theorem deniesHold_iff :
    DeniesHold clause lists ↔ clause.posture = .blocklist ∨ NoNesting clause lists := by
  cases hposture : clause.posture with
  | blocklist =>
    exact iff_of_true (deniesHold_blocklist lists hversion hpaused hrevoked hposture) (Or.inl rfl)
  | allowlist =>
    rw [deniesHold_allowlist_iff lists hversion hpaused hrevoked hposture]
    exact ⟨Or.inr, fun h => h.resolve_left (by decide)⟩

end Active

/-- A clause that lets one site load and denies another. -/
def siteClause (allowed denied : String) : GrantContent :=
  ⟨1, none, .allowlist, .young, [], none, [], none, none, [allowed], [denied], none, none, 1⟩

theorem deniesHold_siteClause : (siteClause "kids.example" "example.org").isPaused = false ∧
    DeniesHold (siteClause "kids.example" "example.org") [] := by
  refine ⟨rfl, (deniesHold_iff [] rfl rfl rfl).mpr (Or.inr ?_)⟩
  unfold NoNesting
  decide +kernel

/-- **A site denied under an allowed one stays open.** -/
theorem not_deniesHold_siteClause : (siteClause "example.org" "games.example.org").isPaused = false ∧
    (siteClause "example.org" "games.example.org").isRevoked = false ∧
    (siteClause "example.org" "games.example.org").isSupportedVersion = true ∧
    ¬DeniesHold (siteClause "example.org" "games.example.org") [] := by
  refine ⟨rfl, rfl, rfl, ?_⟩
  rw [deniesHold_allowlist_iff [] rfl rfl rfl rfl]
  intro h
  have hnested := h "example.org" (by decide +kernel) (by decide +kernel) "games.example.org"
    (by decide +kernel)
  exact hnested.2 (by decide +kernel)

end Kintrinsic
