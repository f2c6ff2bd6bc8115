import Kintrinsic.WebDeny

/-! # What allowing a site does

Where only the allowed names load, an allowed site loads.  Where names are blocked, allowing a name
takes that name out of what the curators block, and no name above it. -/
namespace Kintrinsic

open NameTree

/-- The names that some subscribed curator blocks. -/
def curatorBlocked (clause : GrantContent) (lists : List CuratorList) : Finset String :=
  let subscribed := (clause.curators.filterMap normalizeCurator).toFinset
  ((votes subscribed .block lists).map Prod.fst).toFinset

/-- The browser loads a host. -/
def Admits (policy : EffectiveWebPolicy) (host : String) : Prop :=
  ∀ w, renderFirefoxPolicies policy = some w → ¬w.Blocks host

theorem valid_of_mem_curatorBlocked {clause : GrantContent} {lists : List CuratorList} {d : String}
    (h : d ∈ curatorBlocked clause lists) : isValidDomain d = true := by
  obtain ⟨v, hv, rfl⟩ := List.mem_map.mp (List.mem_toFinset.mp h)
  exact valid_of_mem_votes hv

section Active
variable {clause : GrantContent} (lists : List CuratorList)
  (hversion : clause.isSupportedVersion = true) (hpaused : clause.isPaused = false)
  (hrevoked : clause.isRevoked = false)
include hversion hpaused hrevoked

theorem render_allowlist (hposture : clause.posture = .allowlist) :
    renderFirefoxPolicies (evaluateContent clause lists) = some ⟨{allUrls},
      (namedAllowed clause lists \ parsedDomains clause.parentDeny).biUnion hostPatterns⟩ := by
  obtain ⟨hopen, hallow, hnames, -⟩ :=
    evaluateContent_allowlist lists hversion hpaused hrevoked hposture
  unfold renderFirefoxPolicies
  rw [hopen, hallow, hnames]
  rfl

theorem render_blocklist (hposture : clause.posture = .blocklist) :
    renderFirefoxPolicies (evaluateContent clause lists) =
      some ⟨((curatorBlocked clause lists \ parsedDomains clause.parentAllow) ∪
        parsedDomains clause.parentDeny).biUnion hostPatterns, ∅⟩ := by
  unfold evaluateContent renderFirefoxPolicies
  rw [hversion, hpaused, hrevoked, hposture]
  rfl

variable {host : String} (hallow : host ∈ parsedDomains clause.parentAllow)
  (hdeny : ∀ d ∈ parsedDomains clause.parentDeny, ¬Under '.' host.toList d.toList)
include hallow hdeny

/-- Under an allowlist an allowed site loads. -/
theorem admits_allowlist (hposture : clause.posture = .allowlist) :
    Admits (evaluateContent clause lists) host := by
  have hkept : host ∈ namedAllowed clause lists \ parsedDomains clause.parentDeny := by
    refine Finset.mem_sdiff.mpr ⟨Finset.mem_union_right _ hallow, fun hdenied => ?_⟩
    exact hdeny host hdenied (Under.refl _)
  have hvalid : ∀ a ∈ namedAllowed clause lists \ parsedDomains clause.parentDeny,
      isValidDomain a = true :=
    fun a ha => valid_of_mem_namedAllowed (Finset.mem_sdiff.mp ha).1
  rintro w hw ⟨-, hexcept⟩
  rw [render_allowlist lists hversion hpaused hrevoked hposture] at hw
  obtain rfl := Option.some.inj hw
  obtain ⟨p, hp, hmatch⟩ := (biUnion_match hvalid (valid_of_mem_parsedDomains hallow)).mpr
    ⟨host, hkept, Under.refl _⟩
  exact hexcept p hp hmatch

/-- Under a blocklist it loads when no name above it is blocked by a curator and not allowed. -/
theorem admits_blocklist_iff (hposture : clause.posture = .blocklist) :
    Admits (evaluateContent clause lists) host ↔ ∀ d ∈ curatorBlocked clause lists,
      d ∉ parsedDomains clause.parentAllow → ¬Under '.' host.toList d.toList := by
  have hrender := render_blocklist lists hversion hpaused hrevoked hposture
  have hvalid : ∀ d ∈ (curatorBlocked clause lists \ parsedDomains clause.parentAllow) ∪
      parsedDomains clause.parentDeny, isValidDomain d = true := by
    intro d hd
    rcases Finset.mem_union.mp hd with hd | hd
    · exact valid_of_mem_curatorBlocked (Finset.mem_sdiff.mp hd).1
    · exact valid_of_mem_parsedDomains hd
  have hmatch := biUnion_match hvalid (valid_of_mem_parsedDomains hallow)
  constructor
  · intro h d hd hkept hunder
    refine h _ hrender ⟨hmatch.mpr ⟨d, ?_, hunder⟩, fun p hp => absurd hp (Finset.notMem_empty p)⟩
    exact Finset.mem_union_left _ (Finset.mem_sdiff.mpr ⟨hd, hkept⟩)
  · rintro h w hw ⟨hblock, -⟩
    rw [hrender] at hw
    obtain rfl := Option.some.inj hw
    obtain ⟨d, hd, hunder⟩ := hmatch.mp hblock
    rcases Finset.mem_union.mp hd with hd | hd
    · obtain ⟨hblocked, hkept⟩ := Finset.mem_sdiff.mp hd
      exact h d hblocked hkept hunder
    · exact hdeny d hd hunder

/-- **An allowed site loads**, if no denied name is it or above it, if and only if the posture is an
allowlist or no curator blocks a name above it that is not allowed itself. -/
theorem admits_iff : Admits (evaluateContent clause lists) host ↔
    clause.posture = .allowlist ∨ ∀ d ∈ curatorBlocked clause lists,
      d ∉ parsedDomains clause.parentAllow → ¬Under '.' host.toList d.toList := by
  cases hposture : clause.posture with
  | allowlist =>
    exact iff_of_true (admits_allowlist lists hversion hpaused hrevoked hallow hdeny hposture)
      (Or.inl rfl)
  | blocklist =>
    rw [admits_blocklist_iff lists hversion hpaused hrevoked hallow hdeny hposture]
    exact ⟨Or.inr, fun h => h.resolve_left (by decide)⟩

end Active

/-- The id of a curator. -/
def curatorId : String := String.ofList (List.replicate 64 'a')

/-- A clause that blocks what a curator blocks, and allows one site. -/
def unblockClause (allowed : String) : GrantContent :=
  ⟨1, none, .blocklist, .young, [curatorId], none, [], none, none, [allowed], [], none, none, 1⟩

/-- A curator's list that blocks one site. -/
def blocking (site : String) : List CuratorList := [⟨curatorId, [⟨site, .block⟩]⟩]

theorem admits_unblocked :
    Admits (evaluateContent (unblockClause "kids.example.org") (blocking "kids.example.org"))
      "kids.example.org" := by
  refine (admits_iff _ rfl rfl rfl (by decide +kernel) (by decide +kernel)).mpr (Or.inr ?_)
  decide +kernel

/-- **A site under one that a curator blocks stays blocked.** -/
theorem not_admits_unblocked :
    "kids.example.org" ∈ parsedDomains (unblockClause "kids.example.org").parentAllow ∧
      (unblockClause "kids.example.org").parentDeny = [] ∧
      ¬Admits (evaluateContent (unblockClause "kids.example.org") (blocking "example.org"))
        "kids.example.org" := by
  refine ⟨by decide +kernel, rfl, ?_⟩
  rw [admits_blocklist_iff _ rfl rfl rfl (by decide +kernel) (by decide +kernel) rfl]
  intro h
  exact h "example.org" (by decide +kernel) (by decide +kernel) (by decide +kernel)

end Kintrinsic
