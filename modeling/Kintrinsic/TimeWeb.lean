import Kintrinsic.TimeApps

/-! # The web of a named time

Free time's web clause as a time modifies it, evaluated.  The departures are edits of two lists of
domains as written; what is evaluated of a list is its normalised domains, so an edit that compares
normalised forms is an edit of that set. -/
namespace Kintrinsic

/-! ## Edits of a list, as edits of its domains -/

/-- What a list's domains are: the normalised forms that are valid. -/
theorem mem_parsedDomains_iff {raw : List String} {d : String} :
    d ∈ parsedDomains raw ↔ isValidDomain d = true ∧ d ∈ raw.map normalizeDomain := by
  rw [mem_parsedDomains, List.mem_map]
  constructor
  · rintro ⟨e, he, hparse⟩
    refine ⟨isValidDomain_of_parseDomain hparse, e, he, ?_⟩
    unfold parseDomain at hparse
    split at hparse
    · exact Option.some.inj hparse
    · cases hparse
  · rintro ⟨hvalid, e, he, rfl⟩
    exact ⟨e, he, if_pos hvalid⟩

@[simp] theorem parsedDomains_append (raw raw' : List String) :
    parsedDomains (raw ++ raw') = parsedDomains raw ∪ parsedDomains raw' := by
  ext d
  simp only [Finset.mem_union, mem_parsedDomains_iff, List.map_append, List.mem_append]
  tauto

@[simp] theorem parsedDomains_dedup (raw : List String) :
    parsedDomains (dedupByKey normalizeDomain raw) = parsedDomains raw := by
  obtain ⟨hfrom, hto⟩ := @mem_dedupByKey normalizeDomain raw
  ext d
  simp only [mem_parsedDomains_iff, List.mem_map]
  refine and_congr_right fun _ => ⟨?_, ?_⟩
  · rintro ⟨e, he, hkey⟩
    exact ⟨e, hfrom e he, hkey⟩
  · rintro ⟨e, he, hkey⟩
    obtain ⟨e', he', hkey'⟩ := hto e he
    exact ⟨e', he', hkey'.trans hkey⟩

/-- What is left out by its normalised form. -/
@[simp] theorem parsedDomains_filter (raw keys : List String) :
    parsedDomains (raw.filter fun d => normalizeDomain d ∉ keys) =
      parsedDomains raw \ keys.toFinset := by
  ext d
  simp only [Finset.mem_sdiff, mem_parsedDomains_iff, List.mem_map, List.mem_filter,
    List.mem_toFinset, decide_eq_true_eq]
  constructor
  · rintro ⟨hvalid, e, ⟨he, hkey⟩, rfl⟩
    exact ⟨⟨hvalid, e, he, rfl⟩, hkey⟩
  · rintro ⟨⟨hvalid, e, he, rfl⟩, hkey⟩
    exact ⟨hvalid, e, ⟨he, hkey⟩, rfl⟩

/-- Every entry of a list is a domain. -/
def AllParse (raw : List String) : Prop := ∀ e ∈ raw, (parseDomain e).isSome = true

/-- Of a list that parses, every normalised form is a domain. -/
theorem AllParse.domains {raw : List String} (h : AllParse raw) :
    parsedDomains raw = (raw.map normalizeDomain).toFinset := by
  ext d
  rw [mem_parsedDomains_iff, List.mem_toFinset]
  refine and_iff_right_of_imp fun hd => ?_
  obtain ⟨e, he, rfl⟩ := List.mem_map.mp hd
  obtain ⟨host, hhost⟩ := Option.isSome_iff_exists.mp (h e he)
  have hvalid := isValidDomain_of_parseDomain hhost
  unfold parseDomain at hhost
  split at hhost
  · rw [Option.some.inj hhost]
    exact hvalid
  · cases hhost

/-! ## What a policy denies -/

/-- A policy denies a host: it is locked, its allowlist leaves the host out, or its blocklist names
it or a category of it that no exception lifts. -/
inductive EffectiveWebPolicy.Denies (p : EffectiveWebPolicy) (inCategory : String → String → Prop)
    (host : String) : Prop
  | locked (h : p.locked = true)
  | left (hposture : p.posture = some .allowlist) (h : host ∉ p.allowDomains)
  | named (hposture : p.posture = some .blocklist) (h : host ∈ p.blockDomains)
  | category (hposture : p.posture = some .blocklist) (c : String) (hc : c ∈ p.blockCategories)
    (hin : inCategory c host) (h : host ∉ p.allowExceptions)

/-- A clause that locks the web. -/
def GrantContent.Shuts (c : GrantContent) : Prop := c.isSupportedVersion = false ∨ c.isPaused = true

section
variable {c : GrantContent} {lists : List CuratorList} {inCategory : String → String → Prop}
  {host : String}

theorem locked_iff_shuts : (evaluateContent c lists).locked = true ↔ c.Shuts := by
  unfold evaluateContent GrantContent.Shuts
  cases c.isSupportedVersion with
  | false => simp [EffectiveWebPolicy.lockedPolicy]
  | true =>
    cases c.isPaused with
    | true => simp [EffectiveWebPolicy.lockedPolicy]
    | false =>
      cases c.isRevoked with
      | true => simp [EffectiveWebPolicy.unrestricted]
      | false => cases c.posture <;> simp

/-- What the parents deny is denied by a clause that is not lifted. -/
theorem denies_of_parentDeny (h : c.Shuts ∨ c.isRevoked = false)
    (hdeny : host ∈ parsedDomains c.parentDeny) :
    (evaluateContent c lists).Denies inCategory host := by
  by_cases hshuts : c.Shuts
  · exact .locked (locked_iff_shuts.mpr hshuts)
  have hrevoked := h.resolve_left hshuts
  unfold GrantContent.Shuts at hshuts
  obtain ⟨hversion, hpaused⟩ := not_or.mp hshuts
  rw [Bool.not_eq_false] at hversion
  rw [Bool.not_eq_true] at hpaused
  unfold evaluateContent
  rw [hversion, hpaused, hrevoked]
  cases hposture : c.posture with
  | allowlist =>
    refine .left rfl ?_
    simp [hdeny]
  | blocklist =>
    refine .named rfl ?_
    simp [hdeny]

/-- What the parents allow and do not deny is denied by a lock alone. -/
theorem not_denies_of_parentAllow (hallow : host ∈ parsedDomains c.parentAllow)
    (hdeny : host ∉ parsedDomains c.parentDeny)
    (hopen : (evaluateContent c lists).locked = false) :
    ¬(evaluateContent c lists).Denies inCategory host := by
  have hshuts : ¬c.Shuts := fun h => by
    rw [locked_iff_shuts.mpr h] at hopen
    cases hopen
  unfold GrantContent.Shuts at hshuts
  obtain ⟨hversion, hpaused⟩ := not_or.mp hshuts
  rw [Bool.not_eq_false] at hversion
  rw [Bool.not_eq_true] at hpaused
  unfold evaluateContent
  rw [hversion, hpaused]
  intro hdenies
  cases hrevoked : c.isRevoked with
  | true =>
    rw [hrevoked] at hdenies
    cases hdenies with
    | locked h => cases h
    | left hposture => cases hposture
    | named hposture => cases hposture
    | category hposture => cases hposture
  | false =>
    rw [hrevoked] at hdenies
    cases hposture : c.posture with
    | allowlist =>
      rw [hposture] at hdenies
      cases hdenies with
      | locked h => cases h
      | left hposture h => exact h (by simp [hallow, hdeny])
      | named hposture => cases hposture
      | category hposture => cases hposture
    | blocklist =>
      rw [hposture] at hdenies
      cases hdenies with
      | locked h => cases h
      | left hposture => cases hposture
      | named hposture h =>
        rcases Finset.mem_union.mp h with h | h
        · exact (Finset.mem_sdiff.mp h).2 hallow
        · exact hdeny h
      | category hposture name hname hin h => exact h (by simp [hallow, hdeny])

/-- A locked clause allows nothing. -/
theorem allowDomains_of_shuts (h : c.Shuts) : (evaluateContent c lists).allowDomains = ∅ := by
  unfold evaluateContent
  rcases h with h | h
  · rw [h]
    rfl
  · rw [h]
    split <;> rfl

/-- With no curator subscribed to, none votes. -/
theorem quorumDomains_unsubscribed (h : c.curators = []) : quorumDomains c lists = ∅ := by
  have hvotes : votes (([] : List String).filterMap normalizeCurator).toFinset .kidSafe lists = [] := by
    unfold votes
    refine List.flatMap_eq_nil_iff.mpr fun l _ => ?_
    cases normalizeCurator l.curator <;> rfl
  unfold quorumDomains
  rw [h]
  dsimp only
  rw [hvotes]
  rfl

/-- An unsubscribed allowlist that is in force allows what the parents list. -/
theorem evaluate_unsubscribed (hshuts : ¬c.Shuts) (hrevoked : c.revoked = none)
    (hposture : c.posture = .allowlist) (hcurators : c.curators = []) :
    (evaluateContent c lists).posture = some .allowlist ∧
      (evaluateContent c lists).locked = false ∧
      (evaluateContent c lists).allowDomains =
        parsedDomains c.parentAllow \ parsedDomains c.parentDeny := by
  unfold GrantContent.Shuts at hshuts
  obtain ⟨hversion, hpaused⟩ := not_or.mp hshuts
  rw [Bool.not_eq_false] at hversion
  rw [Bool.not_eq_true] at hpaused
  have hnot : c.isRevoked = false := by
    unfold GrantContent.isRevoked
    rw [hrevoked]
    rfl
  unfold evaluateContent
  rw [hversion, hpaused, hnot, hposture]
  refine ⟨rfl, rfl, ?_⟩
  show (quorumDomains c lists ∪ parsedDomains c.parentAllow) \ parsedDomains c.parentDeny = _
  rw [quorumDomains_unsubscribed hcurators, Finset.empty_union]

end

/-! ## What is composed -/

section
variable {free : Option GrantContent} {t : NamedTime}

/-- The clause that an everything-except time edits. -/
def editedClause (free : Option GrantContent) (t : NamedTime) : Option GrantContent :=
  match free with
  | some f =>
    if f.isSupportedVersion && f.isRevoked && !f.isPaused && !t.denySites.isEmpty then
      some (syntheticContent .blocklist)
    else some f
  | none => if t.denySites = [] then none else some (syntheticContent .blocklist)

theorem composeContent_except (hposture : t.posture = .everythingExcept)
    (h : ¬(t.denySites = [] ∧ t.undenySites = [])) :
    composeContent free t = (editedClause free t).map fun out =>
      { out with
        parentDeny := dedupByKey normalizeDomain ((out.parentDeny ++ t.denySites).filter
          fun d => normalizeDomain d ∉ t.undenySites.map normalizeDomain)
        parentAllow := dedupByKey normalizeDomain (out.parentAllow ++ t.undenySites) } := by
  unfold composeContent
  rw [hposture]
  dsimp only
  rw [if_neg h]
  rfl

/-- An only-these time with sites is an unsubscribed allowlist of them, in force; what it lists is
struck from what the parents deny. -/
theorem composeContent_only (hposture : t.posture = .onlyThese) (h : t.sites ≠ []) :
    ∃ c, composeContent free t = some c ∧ c.posture = .allowlist ∧ c.curators = [] ∧
      c.revoked = none ∧ c.parentAllow = t.siteDomains ∧ ∃ deny : List String,
        c.parentDeny = deny.filter fun d => normalizeDomain d ∉ t.siteDomains.map normalizeDomain := by
  unfold composeContent
  rw [hposture]
  dsimp only
  rw [if_neg h]
  exact ⟨_, rfl, rfl, rfl, rfl, rfl, _, rfl⟩

/-- A clause that locks is the one edited, and what is edited locks only as Free time's does. -/
theorem editedClause_shuts : (∃ c ∈ editedClause free t, c.Shuts) ↔ ∃ f ∈ free, f.Shuts := by
  have hsynthetic : ¬(syntheticContent .blocklist).Shuts := by
    rintro (h | h) <;> cases h
  unfold editedClause
  cases free with
  | none =>
    dsimp only
    split
    · simp
    · simp [hsynthetic]
  | some f =>
    dsimp only
    split
    · rename_i hlifted
      simp only [Bool.and_eq_true, Bool.not_eq_true'] at hlifted
      have hshuts : ¬f.Shuts := by
        rintro (h | h)
        · rw [hlifted.1.1.1] at h
          cases h
        · rw [hlifted.1.2] at h
          cases h
      simp [hsynthetic, hshuts]
    · simp

/-- Over denied sites there is a clause, and it is not one that is lifted. -/
theorem editedClause_denies (h : t.denySites ≠ []) :
    ∃ c, editedClause free t = some c ∧ (c.Shuts ∨ c.isRevoked = false) := by
  have hsites : t.denySites.isEmpty = false := by
    cases hd : t.denySites with
    | nil => exact absurd hd h
    | cons => rfl
  unfold editedClause
  cases free with
  | none =>
    dsimp only
    rw [if_neg h]
    exact ⟨_, rfl, .inr rfl⟩
  | some f =>
    dsimp only
    rw [hsites, Bool.not_false, Bool.and_true]
    split
    · exact ⟨_, rfl, .inr rfl⟩
    · rename_i hnot
      refine ⟨f, rfl, ?_⟩
      unfold GrantContent.Shuts
      cases hversion : f.isSupportedVersion with
      | false => exact .inl (.inl rfl)
      | true =>
        cases hpaused : f.isPaused with
        | true => exact .inl (.inr rfl)
        | false =>
          refine .inr ?_
          rw [hversion, hpaused] at hnot
          simpa using hnot

/-- Whether a clause locks does not depend on its lists. -/
theorem composed_shuts : (∃ c ∈ composeContent free t, c.Shuts) ↔ ∃ f ∈ free, f.Shuts := by
  cases hposture : t.posture with
  | everythingExcept =>
    by_cases hnone : t.denySites = [] ∧ t.undenySites = []
    · have hsame : composeContent free t = free := by
        unfold composeContent
        rw [hposture]
        exact if_pos hnone
      rw [hsame]
    · rw [composeContent_except hposture hnone, ← @editedClause_shuts free t]
      simp only [Option.mem_def, Option.map_eq_some_iff]
      constructor
      · rintro ⟨_, ⟨c, hc, rfl⟩, hshuts⟩
        exact ⟨c, hc, hshuts⟩
      · rintro ⟨c, hc, hshuts⟩
        exact ⟨_, ⟨c, hc, rfl⟩, hshuts⟩
  | onlyThese =>
    unfold composeContent
    rw [hposture]
    dsimp only
    split
    · rfl
    · cases free with
      | none =>
        have hsynthetic : ¬∃ f ∈ (none : Option GrantContent), f.Shuts := by simp
        refine iff_of_false ?_ hsynthetic
        rintro ⟨c, hc, hshuts⟩
        obtain rfl := Option.some.inj hc
        rcases hshuts with h | h <;> cases h
      | some f =>
        constructor
        · rintro ⟨c, hc, hshuts⟩
          obtain rfl := Option.some.inj hc
          exact ⟨f, rfl, hshuts⟩
        · rintro ⟨_, hf, hshuts⟩
          obtain rfl := Option.some.inj hf
          exact ⟨_, rfl, hshuts⟩

end

/-! ## The law of the web of a time -/

/-- **The web of a named time.**  It is locked exactly when Free time's is.  What an everything-except
time denies, and does not also undeny, is denied; what it undenies is denied by a lock alone.  Of an
only-these time with sites nothing but its own domains is allowed, and all of them unless it is
locked.  A time that does not depart leaves Free time's web as it is. -/
theorem time_web_law (free : Option GrantContent) (t : NamedTime) (lists : List CuratorList)
    (inCategory : String → String → Prop) (hdeny : AllParse t.denySites)
    (hundeny : AllParse t.undenySites) (hsites : AllParse (t.sites.flatMap (·.domains))) :
    let web := (composeContent free t).map fun c => evaluateContent c lists
    ((∃ p ∈ web, p.locked = true) ↔ ∃ f ∈ free, f.Shuts) ∧
    (t.posture = .everythingExcept →
      (∀ e ∈ t.denySites, normalizeDomain e ∉ t.undenySites.map normalizeDomain →
        ∃ p ∈ web, p.Denies inCategory (normalizeDomain e)) ∧
      ∀ e ∈ t.undenySites, ∀ p ∈ web, p.locked = false →
        ¬p.Denies inCategory (normalizeDomain e)) ∧
    (t.posture = .onlyThese → t.sites ≠ [] → ∃ p ∈ web, p.locked = true ∧ p.allowDomains = ∅ ∨
      p.posture = some .allowlist ∧ p.locked = false ∧
        p.allowDomains = ((t.sites.flatMap (·.domains)).map normalizeDomain).toFinset) ∧
    ((t.posture = .everythingExcept ∧ t.denySites = [] ∧ t.undenySites = [] ∨
        t.posture = .onlyThese ∧ t.sites = []) →
      web = free.map fun c => evaluateContent c lists) := by
  intro web
  refine ⟨?_, fun hposture => ⟨fun e he hnot => ?_, fun e he p hp hopen => ?_⟩,
    fun hposture hsome => ?_, ?_⟩
  · rw [← @composed_shuts free t]
    constructor
    · rintro ⟨p, hp, hlocked⟩
      obtain ⟨c, hc, rfl⟩ := Option.map_eq_some_iff.mp hp
      exact ⟨c, hc, locked_iff_shuts.mp hlocked⟩
    · rintro ⟨c, hc, hshuts⟩
      exact ⟨_, Option.map_eq_some_iff.mpr ⟨c, hc, rfl⟩, locked_iff_shuts.mpr hshuts⟩
  · have hne : t.denySites ≠ [] := List.ne_nil_of_mem he
    obtain ⟨c, hc, hheld⟩ := @editedClause_denies free t hne
    have hcomposed := @composeContent_except free t hposture fun h => hne h.1
    rw [hc] at hcomposed
    refine ⟨_, Option.map_eq_some_iff.mpr ⟨_, hcomposed, rfl⟩, denies_of_parentDeny hheld ?_⟩
    rw [parsedDomains_dedup, parsedDomains_filter, parsedDomains_append, hdeny.domains]
    simp only [Finset.mem_sdiff, Finset.mem_union, List.mem_toFinset]
    exact ⟨.inr (List.mem_map_of_mem he), hnot⟩
  · have hne : t.undenySites ≠ [] := List.ne_nil_of_mem he
    obtain ⟨c, hc, rfl⟩ := Option.map_eq_some_iff.mp hp
    rw [@composeContent_except free t hposture fun h => hne h.2] at hc
    obtain ⟨out, -, rfl⟩ := Option.map_eq_some_iff.mp hc
    refine not_denies_of_parentAllow ?_ ?_ hopen
    · rw [parsedDomains_dedup, parsedDomains_append, hundeny.domains]
      exact Finset.mem_union_right _ (List.mem_toFinset.mpr (List.mem_map_of_mem he))
    · rw [parsedDomains_dedup, parsedDomains_filter]
      simp only [Finset.mem_sdiff, List.mem_toFinset, not_and, not_not]
      exact fun _ => List.mem_map_of_mem he
  · obtain ⟨c, hcomposed, hpost, hcurators, hrevoked, hallow, deny, hstruck⟩ :=
      @composeContent_only free t hposture hsome
    refine ⟨_, Option.map_eq_some_iff.mpr ⟨_, hcomposed, rfl⟩, ?_⟩
    by_cases hshuts : c.Shuts
    · exact .inl ⟨locked_iff_shuts.mpr hshuts, allowDomains_of_shuts hshuts⟩
    obtain ⟨hpost, hopen, hallowed⟩ := @evaluate_unsubscribed _ lists hshuts hrevoked hpost hcurators
    refine .inr ⟨hpost, hopen, hallowed.trans ?_⟩
    have hlisted : parsedDomains t.siteDomains =
        ((t.sites.flatMap (·.domains)).map normalizeDomain).toFinset := by
      rw [NamedTime.siteDomains, parsedDomains_dedup, hsites.domains]
    -- what the time lists is struck from the denials, so none of it is denied
    rw [hallow, hstruck, parsedDomains_filter, hlisted]
    refine Finset.sdiff_eq_self_of_disjoint (Finset.disjoint_left.mpr fun d hd hnot => ?_)
    rw [Finset.mem_sdiff, List.mem_toFinset] at hnot
    rw [← hlisted, mem_parsedDomains_iff] at hd
    exact hnot.2 hd.2
  · rintro (⟨hposture, hnone⟩ | ⟨hposture, hnone⟩)
    · have hsame : composeContent free t = free := by
        unfold composeContent
        rw [hposture]
        exact if_pos hnone
      exact congrArg (Option.map fun c => evaluateContent c lists) hsame
    · have hsame : composeContent free t = free := by
        unfold composeContent
        rw [hposture]
        exact if_pos hnone
      exact congrArg (Option.map fun c => evaluateContent c lists) hsame

/-! ## A denial spelt otherwise, and a web that is locked -/

/-- Homework with one site denied, as a parent pasted it, and one allowed. -/
def webHomework : NamedTime where
  id := "homework"
  label := "Homework"
  posture := .everythingExcept
  blockApps := []
  unblockApps := []
  denySites := ["https://WWW.YouTube.com/"]
  undenySites := ["Wikipedia.org"]
  apps := []
  sites := []
  countsAgainstBudget := none

theorem webHomework_parses : AllParse webHomework.denySites ∧ AllParse webHomework.undenySites ∧
    AllParse (webHomework.sites.flatMap (·.domains)) := by
  refine ⟨fun e he => ?_, fun e he => ?_, fun e he => ?_⟩
  · obtain rfl := List.mem_singleton.mp he
    decide +kernel
  · obtain rfl := List.mem_singleton.mp he
    decide +kernel
  · exact absurd he List.not_mem_nil

/-- Over a blocklist that allows `youtube.com`, the time denies it all the same. -/
theorem time_web_law_homework :
    ∃ p ∈ (composeContent (some { syntheticContent .blocklist with
        parentAllow := ["youtube.com"] }) webHomework).map fun c => evaluateContent c [],
      p.Denies (fun _ _ => False) (normalizeDomain "https://WWW.YouTube.com/") := by
  obtain ⟨hdeny, hundeny, hsites⟩ := webHomework_parses
  obtain ⟨-, hedits, -⟩ := time_web_law (some { syntheticContent .blocklist with
    parentAllow := ["youtube.com"] }) webHomework [] (fun _ _ => False) hdeny hundeny hsites
  exact (hedits rfl).1 _ (List.mem_singleton_self _) (by decide +kernel)

/-- **A locked web allows nothing.**  Over a paused clause a site that the time undenies is denied,
with everything else. -/
theorem not_undenied_while_paused :
    ¬∀ (free : Option GrantContent) (lists : List CuratorList), ∀ e ∈ webHomework.undenySites,
      ∀ p ∈ (composeContent free webHomework).map fun c => evaluateContent c lists,
        ¬p.Denies (fun _ _ => False) (normalizeDomain e) := by
  intro hall
  refine hall (some { syntheticContent .blocklist with paused := some true }) [] _
    (List.mem_singleton_self _) _ (Option.mem_map_of_mem _ rfl) (.locked ?_)
  decide +kernel

end Kintrinsic
