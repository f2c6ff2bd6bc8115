import Kintrinsic.NamedGroups

/-! # Reading the groups back

A save of the groups is read back as the groups it was made of, their texts trimmed and what was on
request in one group, and compiles to the same clauses once more.  What is not settled breaks it: a
launch signature outside the counted groups, an id that its entry is not known by, and a site that
still bears the mark of a cost. -/
namespace Kintrinsic

/-! ## The pool -/

variable {hostname : UrlHost} {k : String}

theorem noteKnown_of_mem {m : String → Option LearningAppSel} {a : LearningAppSel}
    (h : k ∈ a.keys) : noteKnown m a k = some a := if_pos h

theorem noteKnown_of_not_mem {m : String → Option LearningAppSel} {a : LearningAppSel}
    (h : k ∉ a.keys) : noteKnown m a k = m k := if_neg h

/-- What no entry is known by is left as it was. -/
theorem known_none {known : List LearningAppSel} (h : ∀ b ∈ known, k ∉ b.keys)
    (m : String → Option LearningAppSel) : known.foldl noteKnown m k = m k := by
  induction known generalizing m with
  | nil => rfl
  | cons a known ih =>
    rw [List.foldl_cons, ih fun b hb => h b (List.mem_cons_of_mem _ hb)]
    exact noteKnown_of_not_mem (h a List.mem_cons_self)

/-- What one entry alone is known by is found as that entry. -/
theorem known_some {known : List LearningAppSel} {e : LearningAppSel} (he : e ∈ known)
    (hkey : k ∈ e.keys) (halone : ∀ b ∈ known, k ∈ b.keys → b = e)
    (m : String → Option LearningAppSel) : known.foldl noteKnown m k = some e := by
  induction known generalizing m with
  | nil => cases he
  | cons a known ih =>
    rw [List.foldl_cons]
    by_cases hrest : e ∈ known
    · exact ih hrest (fun b hb => halone b (List.mem_cons_of_mem _ hb)) _
    · obtain rfl | hmem := List.mem_cons.mp he
      · rw [known_none]
        · exact noteKnown_of_mem hkey
        · intro b hb hbkey
          exact hrest (halone b (List.mem_cons_of_mem _ hb) hbkey ▸ hb)
      · exact absurd hmem hrest

/-- The pool finds an entry only by one of its keys. -/
theorem key_of_known {known : List LearningAppSel} {m : String → Option LearningAppSel}
    (hm : ∀ e, m k = some e → k ∈ e.keys) {e : LearningAppSel}
    (h : known.foldl noteKnown m k = some e) : k ∈ e.keys := by
  induction known generalizing m with
  | nil => exact hm e h
  | cons a known ih =>
    refine ih (m := noteKnown m a) (fun e he => ?_) h
    by_cases ha : k ∈ a.keys
    · rw [noteKnown_of_mem ha] at he
      exact Option.some.inj he ▸ ha
    · rw [noteKnown_of_not_mem ha] at he
      exact hm e he

/-- What the catalogue makes of an entry: its own of that id, where it is the same site. -/
def refreshed (hostname : UrlHost) (cs : List LearningAppSel) (k : String)
    (mine : Option LearningAppSel) : Option LearningAppSel :=
  match cs.find? fun c => decide (c.id = k) with
  | none => mine
  | some c => if mine.all (sameSite hostname · c) = true then some c else mine

section Refreshed
variable {cs : List LearningAppSel} {c : LearningAppSel} {mine : Option LearningAppSel}

theorem refreshed_none (h : cs.find? (fun c => decide (c.id = k)) = none) :
    refreshed hostname cs k mine = mine := by
  unfold refreshed
  rw [h]

theorem refreshed_same (h : cs.find? (fun c => decide (c.id = k)) = some c)
    (hsame : mine.all (sameSite hostname · c) = true) :
    refreshed hostname cs k mine = some c := by
  unfold refreshed
  rw [h]
  exact if_pos hsame

theorem refreshed_other (h : cs.find? (fun c => decide (c.id = k)) = some c)
    (hother : ¬mine.all (sameSite hostname · c) = true) :
    refreshed hostname cs k mine = mine := by
  unfold refreshed
  rw [h]
  exact if_neg hother

end Refreshed

theorem noteCatalogue_foldl {cs : List LearningAppSel} (hids : (cs.map (·.id)).Nodup)
    (m : String → Option LearningAppSel) :
    cs.foldl (noteCatalogue hostname) m k = refreshed hostname cs k (m k) := by
  induction cs generalizing m with
  | nil => rfl
  | cons c cs ih =>
    obtain ⟨hfirst, hrest⟩ := List.nodup_cons.mp hids
    rw [List.foldl_cons, ih hrest]
    by_cases hc : c.id = k
    · -- no later entry has that id
      have hnone : cs.find? (fun c => decide (c.id = k)) = none := by
        rw [List.find?_eq_none]
        intro b hb hid
        have hmem : b.id ∈ cs.map (·.id) := List.mem_map_of_mem hb
        rw [of_decide_eq_true hid, ← hc] at hmem
        exact hfirst hmem
      have hsome : (c :: cs).find? (fun c => decide (c.id = k)) = some c :=
        List.find?_cons_of_pos (decide_eq_true hc)
      rw [refreshed_none hnone]
      by_cases hall : (m k).all (sameSite hostname · c) = true
      · rw [refreshed_same hsome hall]
        exact if_pos ⟨hc.symm, hc ▸ hall⟩
      · rw [refreshed_other hsome hall]
        exact if_neg fun h => hall (hc ▸ h.2)
    · have hkeep : noteCatalogue hostname m c k = m k := if_neg fun h => hc h.1.symm
      have hskip : (c :: cs).find? (fun c => decide (c.id = k)) =
          cs.find? fun c => decide (c.id = k) :=
        List.find?_cons_of_neg (by rw [decide_eq_true_iff]; exact hc)
      unfold refreshed
      rw [hkeep, hskip]

theorem catalogue_nodup : (learningCatalogue.map (·.id)).Nodup := by decide

theorem pool_eq (known : List LearningAppSel) : learningAppPool hostname known k =
    refreshed hostname learningCatalogue k (known.foldl noteKnown (fun _ => none) k) :=
  noteCatalogue_foldl catalogue_nodup _

/-- An entry is found by one of its keys, whether it was known or not. -/
theorem key_of_resolved (hostname : UrlHost) (known : List LearningAppSel) (k : String) :
    k ∈ (resolveLearningApp k (learningAppPool hostname known)).keys := by
  have hfound : ∀ e, learningAppPool hostname known k = some e → k ∈ e.keys := by
    intro e he
    rw [pool_eq] at he
    have hmine : known.foldl noteKnown (fun _ => none) k = some e → k ∈ e.keys :=
      key_of_known fun _ h => by cases h
    cases hfind : learningCatalogue.find? (fun c => decide (c.id = k)) with
    | none =>
      rw [refreshed_none hfind] at he
      exact hmine he
    | some c =>
      by_cases hsame : (known.foldl noteKnown (fun _ => none) k).all (sameSite hostname · c) = true
      · rw [refreshed_same hfind hsame] at he
        obtain rfl := Option.some.inj he
        have hid : c.id = k := of_decide_eq_true (List.find?_some (p := fun c : LearningAppSel =>
          decide (c.id = k)) hfind)
        exact hid ▸ List.mem_cons_self
      · rw [refreshed_other hfind hsame] at he
        exact hmine he
  unfold resolveLearningApp
  cases hpool : learningAppPool hostname known k with
  | none => exact List.mem_cons_self
  | some e => exact hfound e hpool

theorem sameSite_self (c : LearningAppSel) : sameSite hostname c c = true := by
  simp [sameSite]

theorem sameSite_of_url {a b : LearningAppSel} (h : a.url = b.url) (c : LearningAppSel) :
    sameSite hostname a c = sameSite hostname b c := by
  rw [sameSite, sameSite, h]

/-- An entry that was resolved, known again with its address, is resolved as one of the two. -/
theorem resolved_again {known known' : List LearningAppSel} {e' : LearningAppSel}
    (hurl : e'.url = (resolveLearningApp k (learningAppPool hostname known)).url)
    (hknown : known'.foldl noteKnown (fun _ => none) k = some e') :
    resolveLearningApp k (learningAppPool hostname known') =
        resolveLearningApp k (learningAppPool hostname known) ∨
      resolveLearningApp k (learningAppPool hostname known') = e' := by
  unfold resolveLearningApp at hurl ⊢
  rw [pool_eq] at hurl ⊢
  rw [pool_eq, hknown]
  generalize known.foldl noteKnown (fun _ => none) k = mine at hurl ⊢
  cases hfind : learningCatalogue.find? (fun c => decide (c.id = k)) with
  | none =>
    rw [refreshed_none hfind]
    exact .inr rfl
  | some c =>
    by_cases hsame : mine.all (sameSite hostname · c) = true
    · -- the catalogue's entry, which is of its own site
      rw [refreshed_same hfind hsame] at hurl ⊢
      have hagain : (some e').all (sameSite hostname · c) = true := by
        rw [Option.all_some, sameSite_of_url hurl c]
        exact sameSite_self c
      rw [refreshed_same hfind hagain]
      exact .inl rfl
    · rw [refreshed_other hfind hsame] at hurl
      cases mine with
      | none => exact absurd rfl hsame
      | some e =>
        have hagain : ¬(some e').all (sameSite hostname · c) = true := by
          rw [Option.all_some, sameSite_of_url hurl c]
          exact hsame
        rw [refreshed_other hfind hagain]
        exact .inr rfl

/-! ## The draft that is read back -/

/-- The clauses as they stand after a save, over the app policy that others edit. -/
def CompiledClauses.saved (c : CompiledClauses) (apps : Option AppsPolicy) : PriorClauseState :=
  ⟨some c.learning, some c.buckets, some (applyAppsFragment apps c.blockedAdd c.askFirst)⟩

namespace NamedTimesDraft
variable (draft : NamedTimesDraft)

/-- The free groups with their texts trimmed. -/
def freeBack : List NamedGroup :=
  (draft.ofPolicy .free).map fun g =>
    { g with apps := cleanTexts g.apps, dailyMinutes := none, weeklyMinutes := none }

/-- The counted groups with their texts trimmed. -/
def countedBack : List NamedGroup :=
  (draft.ofPolicy .counted).map fun g => { g with apps := cleanTexts g.apps }

/-- All that is on request, in one group. -/
def onRequestBack : List NamedGroup :=
  if draft.plainApps .onRequest = [] then []
  else [⟨reservedOnRequestId, onRequestLabel, draft.plainApps .onRequest, .onRequest, none, none⟩]

/-- The draft as it is read back. -/
def readBack : NamedTimesDraft :=
  ⟨draft.freeBack ++ draft.countedBack ++ draft.onRequestBack, draft.learningEnabled,
    draft.bucketsEnabled⟩

/-- A draft that is settled over a pool: no launch signature stands outside the counted groups, and
each free id is what its entry is known by, without the mark of a cost. -/
structure Settled (pool : String → Option LearningAppSel) : Prop where
  unlinked : ∀ g ∈ draft.groups, g.policy ≠ .counted →
    ∀ id ∈ cleanTexts g.apps, isCmdlineIdentity id = false
  named : ∀ id ∈ draft.plainApps .free, learningMembershipKey (resolveLearningApp id pool) = id
  unmarked : ∀ id ∈ draft.plainApps .free, (resolveLearningApp id pool).free ≠ some false

variable {draft}

theorem mem_ofPolicy {policy : GroupPolicy} {g : NamedGroup} :
    g ∈ draft.ofPolicy policy ↔ g ∈ draft.groups ∧ g.policy = policy := by
  rw [ofPolicy, List.mem_filter, decide_eq_true_iff]

/-- Outside the counted groups nothing is stripped from a settled draft. -/
theorem plainApps_eq {pool : String → Option LearningAppSel} (h : draft.Settled pool)
    {policy : GroupPolicy} (hpolicy : policy ≠ .counted) :
    draft.plainApps policy = cleanTexts ((draft.ofPolicy policy).flatMap (·.apps)) := by
  unfold plainApps
  rw [List.filter_eq_self]
  intro id hid
  rw [← cleanTexts_flatMap] at hid
  obtain ⟨⟨y, hy, hyid⟩, -⟩ := mem_cleanTexts.mp hid
  obtain ⟨g, hg, hclean⟩ := List.mem_flatMap.mp hy
  obtain ⟨hgroup, rfl⟩ := mem_ofPolicy.mp hg
  rw [← hyid, (clean_of_mem hclean).1, h.unlinked g hgroup hpolicy y hclean]
  rfl

/-- What stands free, or on request, is clean. -/
theorem cleanTexts_plainApps (draft : NamedTimesDraft) (policy : GroupPolicy) :
    cleanTexts (draft.plainApps policy) = draft.plainApps policy :=
  cleanTexts_filter _ _

/-! ### Reading -/

/-- The free ids that the compiled clause still carries are the draft's own. -/
theorem wireIds_eq {pool : String → Option LearningAppSel} (h : draft.Settled pool) :
    cleanTexts (((draft.learningApps pool).filter fun a =>
      decide (a.free ≠ some false)).map learningMembershipKey) = draft.plainApps .free := by
  have hfree : ((draft.plainApps .free).map (resolveLearningApp · pool)).filter
      (fun a => decide (a.free ≠ some false)) =
        (draft.plainApps .free).map (resolveLearningApp · pool) := by
    rw [List.filter_eq_self]
    intro a ha
    obtain ⟨id, hid, rfl⟩ := List.mem_map.mp ha
    exact decide_eq_true (h.unmarked id hid)
  have hcosting : ((draft.costingSiteIds.filter (· ∉ draft.plainApps .free)).map fun id =>
      (resolveLearningApp id pool).costing).filter (fun a => decide (a.free ≠ some false)) = [] := by
    rw [List.filter_eq_nil_iff]
    intro a ha
    obtain ⟨id, -, rfl⟩ := List.mem_map.mp ha
    simp [LearningAppSel.costing]
  have hkeys : ((draft.plainApps .free).map (resolveLearningApp · pool)).map
      learningMembershipKey = draft.plainApps .free := by
    rw [List.map_map]
    exact (List.map_congr_left fun id hid => h.named id hid).trans (List.map_id' _)
  unfold learningApps
  rw [List.filter_append, hfree, hcosting, List.append_nil, hkeys, cleanTexts_plainApps]

/-- Saved groups that the wire carries whole, and that claim all of it, are rebuilt as they were. -/
theorem rebuiltFree_eq {saved : List FreeGroupRecord} {wireIds : List String}
    (hcarried : ∀ g ∈ saved, ∀ id ∈ g.apps, id ∈ wireIds)
    (hclaimed : ∀ id ∈ wireIds, ∃ g ∈ saved, id ∈ g.apps) :
    rebuiltFree saved wireIds = saved.map FreeGroupRecord.toGroup := by
  have hkept : (saved.map fun g => { g with apps := g.apps.filter (· ∈ wireIds) }) = saved := by
    refine (List.map_congr_left fun g hg => ?_).trans (List.map_id' _)
    have hall : g.apps.filter (fun id => decide (id ∈ wireIds)) = g.apps :=
      List.filter_eq_self.mpr fun id hid => decide_eq_true (hcarried g hg id hid)
    rw [hall]
  have hleft : wireIds.filter (fun id => decide (id ∉ saved.flatMap (·.apps))) = [] := by
    rw [List.filter_eq_nil_iff]
    intro id hid
    rw [decide_eq_true_iff, not_not, List.mem_flatMap]
    exact hclaimed id hid
  unfold rebuiltFree
  rw [hkept]
  dsimp only
  rw [hleft]
  cases saved with
  | nil => rfl
  | cons g gs =>
    dsimp only
    rw [List.append_nil]

/-- The saved free groups hold all that the wire carries. -/
theorem freeBack_eq {pool : String → Option LearningAppSel} (h : draft.Settled pool)
    (enabled : Bool) (cap : Option JsNumber) :
    freeGroupsOf (some ⟨enabled, draft.learningApps pool, cap⟩)
      (some ((draft.ofPolicy .free).map NamedGroup.toRecord)) = draft.freeBack := by
  have hplain := plainApps_eq h (show GroupPolicy.free ≠ .counted by decide)
  have hheld : ∀ g ∈ draft.ofPolicy .free, ∀ id ∈ cleanTexts g.apps, id ∈ draft.plainApps .free := by
    intro g hg id hid
    rw [hplain, ← cleanTexts_flatMap, mem_cleanTexts]
    obtain ⟨htrim, hne⟩ := clean_of_mem hid
    exact ⟨⟨id, List.mem_flatMap.mpr ⟨g, hg, hid⟩, htrim⟩, hne⟩
  unfold freeGroupsOf
  dsimp only [Option.map_some, Option.getD_some]
  rw [wireIds_eq h]
  unfold freeBack
  cases hgs : draft.ofPolicy .free with
  | nil =>
    have hnone : draft.plainApps .free = [] := by
      rw [hplain, hgs]
      rfl
    rw [hnone]
    rfl
  | cons g gs =>
    show rebuiltFree ((g :: gs).map NamedGroup.toRecord) (draft.plainApps .free) = _
    rw [← hgs, rebuiltFree_eq, List.map_map]
    · refine List.map_congr_left fun g hg => ?_
      obtain ⟨-, hfree⟩ := mem_ofPolicy.mp hg
      obtain ⟨id, label, apps, policy, daily, weekly⟩ := g
      subst hfree
      rfl
    · intro r hr id hid
      obtain ⟨g, hg, rfl⟩ := List.mem_map.mp hr
      exact hheld g hg id hid
    · intro id hid
      rw [hplain, ← cleanTexts_flatMap, mem_cleanTexts] at hid
      obtain ⟨⟨y, hy, rfl⟩, -⟩ := hid
      obtain ⟨g, hg, hclean⟩ := List.mem_flatMap.mp hy
      refine ⟨g.toRecord, List.mem_map_of_mem hg, ?_⟩
      rw [(clean_of_mem hclean).1]
      exact hclean

/-- The counted groups come back with their apps and minutes. -/
theorem countedBack_eq (h : AcceptedGroups draft.groups) :
    draft.bucketRules.map AppBucketRule.toGroup = draft.countedBack := by
  have hall : (draft.ofPolicy .counted).take maxGroupBuckets = draft.ofPolicy .counted :=
    List.take_of_length_le h.few
  unfold bucketRules countedBack
  rw [hall, List.map_map]
  refine List.map_congr_left fun g hg => ?_
  obtain ⟨hgroup, hcounted⟩ := mem_ofPolicy.mp hg
  have hfits : (cleanTexts g.apps).take maxGroupApps = cleanTexts g.apps :=
    List.take_of_length_le ((length_cleanTexts_le g.apps).trans (h.fits g hgroup))
  obtain ⟨id, label, apps, policy, daily, weekly⟩ := g
  subst hcounted
  show (⟨id, label, (cleanTexts apps).take maxGroupApps, .counted, daily, weekly⟩ : NamedGroup) = _
  rw [hfits]

/-- **What a save compiled is read back** as the draft it was made of. -/
theorem decompose_eq (hostname : UrlHost) (prior : PriorClauseState)
    (haccepted : AcceptedGroups draft.groups)
    (h : draft.Settled (learningAppPool hostname ((prior.learning.map (·.apps)).getD []))) :
    decompose ((groupsToClauses hostname draft prior).saved prior.apps)
      (some (groupsToClauses hostname draft prior).freeGroups) = draft.readBack := by
  have hfree := freeBack_eq h draft.learningEnabled (prior.learning.bind (·.capMinutes))
  have hcounted := countedBack_eq haccepted
  have hasked : ((applyAppsFragment prior.apps (draft.plainApps .onRequest)
      (draft.plainApps .onRequest)).askFirst).getD [] = draft.plainApps .onRequest := by
    unfold applyAppsFragment
    dsimp only
    cases hempty : (draft.plainApps .onRequest).isEmpty with
    | true =>
      rw [List.isEmpty_iff.mp hempty]
      rfl
    | false =>
      rw [if_neg Bool.false_ne_true, Option.getD_some, cleanTexts_plainApps]
  -- what is on request has no group while nothing is
  have hgroups : ∀ asked : List String,
      ((applyAppsFragment prior.apps (draft.plainApps .onRequest)
        (draft.plainApps .onRequest)).askFirst).getD [] = asked →
      decompose ((groupsToClauses hostname draft prior).saved prior.apps)
        (some (groupsToClauses hostname draft prior).freeGroups) =
      ⟨draft.freeBack ++ draft.countedBack ++
        if asked = [] then []
        else [⟨reservedOnRequestId, onRequestLabel, asked, .onRequest, none, none⟩],
        draft.learningEnabled, draft.bucketsEnabled⟩ := by
    rintro asked rfl
    rw [← hfree, ← hcounted]
    rfl
  exact hgroups _ hasked

/-! ### Compiling again -/

theorem filter_policy {gs : List NamedGroup} {q : GroupPolicy} (h : ∀ g ∈ gs, g.policy = q)
    (p : GroupPolicy) :
    gs.filter (fun g => decide (g.policy = p)) = if q = p then gs else [] := by
  split
  · rename_i hsame
    exact List.filter_eq_self.mpr fun g hg => decide_eq_true ((h g hg).trans hsame)
  · rename_i hother
    refine List.filter_eq_nil_iff.mpr fun g hg => ?_
    rw [h g hg, decide_eq_true_iff]
    exact hother

/-- The groups of each policy in the draft that is read back. -/
theorem ofPolicy_readBack (draft : NamedTimesDraft) :
    draft.readBack.ofPolicy .free = draft.freeBack ∧
      draft.readBack.ofPolicy .counted = draft.countedBack ∧
        draft.readBack.ofPolicy .onRequest = draft.onRequestBack := by
  have hfree : ∀ g ∈ draft.freeBack, g.policy = .free := by
    intro g hg
    obtain ⟨g₀, hg₀, rfl⟩ := List.mem_map.mp hg
    exact (mem_ofPolicy.mp hg₀).2
  have hcounted : ∀ g ∈ draft.countedBack, g.policy = .counted := by
    intro g hg
    obtain ⟨g₀, hg₀, rfl⟩ := List.mem_map.mp hg
    exact (mem_ofPolicy.mp hg₀).2
  have hasked : ∀ g ∈ draft.onRequestBack, g.policy = .onRequest := by
    intro g hg
    unfold onRequestBack at hg
    split at hg
    · cases hg
    · rw [List.mem_singleton.mp hg]
  have hparts : ∀ p, draft.readBack.ofPolicy p = (if GroupPolicy.free = p then draft.freeBack else [])
      ++ (if GroupPolicy.counted = p then draft.countedBack else []) ++
        if GroupPolicy.onRequest = p then draft.onRequestBack else [] := by
    intro p
    rw [← filter_policy hfree, ← filter_policy hcounted, ← filter_policy hasked,
      ← List.filter_append, ← List.filter_append]
    rfl
  refine ⟨?_, ?_, ?_⟩ <;> rw [hparts] <;> simp

theorem bucketRules_readBack (draft : NamedTimesDraft) :
    draft.readBack.bucketRules = draft.bucketRules := by
  unfold bucketRules
  rw [(ofPolicy_readBack draft).2.1, countedBack, ← List.map_take, List.map_map]
  refine List.map_congr_left fun g _ => ?_
  show AppBucketRule.mk _ _ ((cleanTexts (cleanTexts g.apps)).take _) _ _ = _
  rw [cleanTexts_cleanTexts]
  rfl

theorem plainFree_readBack (draft : NamedTimesDraft) :
    draft.readBack.plainApps .free = draft.plainApps .free := by
  unfold plainApps
  rw [(ofPolicy_readBack draft).1, freeBack, List.flatMap_map]
  congr 1
  exact cleanTexts_flatMap ..

theorem plainOnRequest_readBack (draft : NamedTimesDraft) :
    draft.readBack.plainApps .onRequest = draft.plainApps .onRequest := by
  have hstripped : ∀ id ∈ draft.plainApps .onRequest, (!isCmdlineIdentity id) = true :=
    fun id hid => (List.mem_filter.mp hid).2
  rw [plainApps, (ofPolicy_readBack draft).2.2, onRequestBack]
  split
  · rename_i hnone
    rw [hnone]
    rfl
  · rw [List.flatMap_cons, List.flatMap_nil, List.append_nil, cleanTexts_plainApps,
      List.filter_eq_self.mpr hstripped]

theorem costing_readBack (draft : NamedTimesDraft) :
    draft.readBack.costingSiteIds = draft.costingSiteIds := by
  rw [costingSiteIds, costingSiteIds, bucketRules_readBack, plainOnRequest_readBack]

theorem records_readBack (draft : NamedTimesDraft) :
    (draft.readBack.ofPolicy .free).map NamedGroup.toRecord =
      (draft.ofPolicy .free).map NamedGroup.toRecord := by
  rw [(ofPolicy_readBack draft).1, freeBack, List.map_map]
  refine List.map_congr_left fun g _ => ?_
  show FreeGroupRecord.mk _ _ (cleanTexts (cleanTexts g.apps)) = _
  rw [cleanTexts_cleanTexts]
  rfl

/-- The draft that is read back compiles to the same fragments over any prior state of the same
zone, first day of the week and cap, whose pool makes the same entries. -/
theorem compile_readBack (hostname : UrlHost) (draft : NamedTimesDraft)
    {prior prior' : PriorClauseState}
    (hcap : prior'.learning.bind (·.capMinutes) = prior.learning.bind (·.capMinutes))
    (htz : ((prior'.buckets.map (·.tz)).filter (· ≠ "")).getD "UTC" =
      ((prior.buckets.map (·.tz)).filter (· ≠ "")).getD "UTC")
    (hweek : prior'.buckets.bind (·.weekStart) = prior.buckets.bind (·.weekStart))
    (hpool : draft.learningApps
        (learningAppPool hostname ((prior'.learning.map (·.apps)).getD [])) =
      draft.learningApps (learningAppPool hostname ((prior.learning.map (·.apps)).getD []))) :
    groupsToClauses hostname draft.readBack prior' = groupsToClauses hostname draft prior := by
  have happs : ∀ pool, draft.readBack.learningApps pool = draft.learningApps pool := by
    intro pool
    rw [learningApps, learningApps, plainFree_readBack, costing_readBack]
  unfold groupsToClauses
  rw [happs, hpool, hcap, htz, hweek, bucketRules_readBack, plainOnRequest_readBack,
    records_readBack]
  rfl

/-- No two of the entries that are carried are known by one key. -/
def KeyedApart (apps : List LearningAppSel) : Prop :=
  ∀ a ∈ apps, ∀ b ∈ apps, ∀ key ∈ a.keys, key ∈ b.keys → b = a

/-- Over the saved clause every entry is found again. -/
theorem learningApps_saved (hostname : UrlHost) (draft : NamedTimesDraft)
    (known : List LearningAppSel)
    (happart : KeyedApart (draft.learningApps (learningAppPool hostname known))) :
    draft.learningApps
        (learningAppPool hostname (draft.learningApps (learningAppPool hostname known))) =
      draft.learningApps (learningAppPool hostname known) := by
  generalize hsaved : draft.learningApps (learningAppPool hostname known) = saved at happart ⊢
  have hmem : ∀ e ∈ saved, ∀ id ∈ e.keys,
      saved.foldl noteKnown (fun _ => none) id = some e := by
    intro e he id hid
    exact known_some he hid (fun b hb hkey => happart e he b hb id hid hkey) _
  have hfree : ∀ id ∈ draft.plainApps .free,
      resolveLearningApp id (learningAppPool hostname saved) =
        resolveLearningApp id (learningAppPool hostname known) := by
    intro id hid
    have hcarried : resolveLearningApp id (learningAppPool hostname known) ∈ saved := by
      rw [← hsaved]
      exact List.mem_append_left _ (List.mem_map_of_mem hid)
    have hfound := hmem _ hcarried id (key_of_resolved hostname known id)
    rcases resolved_again rfl hfound with hagain | hagain <;> exact hagain
  have hcosting : ∀ id ∈ draft.costingSiteIds.filter (· ∉ draft.plainApps .free),
      (resolveLearningApp id (learningAppPool hostname saved)).costing =
        (resolveLearningApp id (learningAppPool hostname known)).costing := by
    intro id hid
    have hcarried :
        (resolveLearningApp id (learningAppPool hostname known)).costing ∈ saved := by
      rw [← hsaved]
      exact List.mem_append_right _ (List.mem_map_of_mem hid)
    have hfound := hmem _ hcarried id (key_of_resolved hostname known id)
    have hurl : (resolveLearningApp id (learningAppPool hostname known)).costing.url =
        (resolveLearningApp id (learningAppPool hostname known)).url := rfl
    rcases resolved_again hurl hfound with hagain | hagain
    · rw [hagain]
    · rw [hagain]
      rfl
  have hsplit : ∀ pool, draft.learningApps pool =
      (draft.plainApps .free).map (resolveLearningApp · pool) ++
        (draft.costingSiteIds.filter (· ∉ draft.plainApps .free)).map fun id =>
          (resolveLearningApp id pool).costing := fun _ => rfl
  calc draft.learningApps (learningAppPool hostname saved)
      = _ := hsplit _
    _ = _ := congrArg₂ (· ++ ·) (List.map_congr_left hfree) (List.map_congr_left hcosting)
    _ = draft.learningApps (learningAppPool hostname known) := (hsplit _).symm
    _ = saved := hsaved

end NamedTimesDraft

/-! ## The round trip -/

/-- What becomes of a draft that is compiled, saved and read back. -/
structure RoundTrip (hostname : UrlHost) (draft : NamedTimesDraft) (prior : PriorClauseState) :
    Prop where
  back : decompose ((groupsToClauses hostname draft prior).saved prior.apps)
    (some (groupsToClauses hostname draft prior).freeGroups) = draft.readBack
  again : groupsToClauses hostname draft.readBack prior = groupsToClauses hostname draft prior
  resaved : NamedTimesDraft.KeyedApart (groupsToClauses hostname draft prior).learning.apps →
    groupsToClauses hostname draft.readBack
        ((groupsToClauses hostname draft prior).saved prior.apps) =
      groupsToClauses hostname draft prior

/-- **Round trip of the named groups**: a settled draft that the editor accepts comes back with its
free groups, its counted groups with their minutes, what is on request and its two switches, and
compiles to the same fragments again. -/
theorem groups_round_trip (hostname : UrlHost) (draft : NamedTimesDraft) (prior : PriorClauseState)
    (haccepted : namedTimesError draft.groups = none)
    (hsettled : draft.Settled
      (learningAppPool hostname ((prior.learning.map (·.apps)).getD []))) :
    RoundTrip hostname draft prior where
  back := NamedTimesDraft.decompose_eq hostname prior (accepted_of_noError haccepted) hsettled
  again := NamedTimesDraft.compile_readBack hostname draft rfl rfl rfl rfl
  resaved := by
    intro happart
    refine NamedTimesDraft.compile_readBack hostname draft rfl ?_ rfl ?_
    · -- the zone that was saved is not empty
      show ((some (((prior.buckets.map (·.tz)).filter (· ≠ "")).getD "UTC")).filter
        (· ≠ "")).getD "UTC" = _
      cases hzone : (prior.buckets.map (·.tz)).filter (· ≠ "") with
      | none => rfl
      | some tz =>
        obtain ⟨-, hne⟩ := Option.filter_eq_some_iff.mp hzone
        have hkept : (some tz).filter (fun tz => decide (tz ≠ "")) = some tz :=
          Option.filter_some_pos hne
        rw [Option.getD_some, hkept, Option.getD_some]
    · exact NamedTimesDraft.learningApps_saved hostname draft _ happart

/-- A free group, a counted one that names a site, and one on request. -/
def mixedDraft : NamedTimesDraft :=
  ⟨[⟨"reading", "Reading", ["khan-academy", "org.kde.gcompris"], .free, none, none⟩,
    ⟨"play", "Play", ["site:wikipedia"], .counted, some (.finite (60 : Nat)), none⟩,
    ⟨"social", "Social", ["com.instagram.android"], .onRequest, none, none⟩], true, false⟩

theorem groups_round_trip_mixed : RoundTrip httpsHost mixedDraft ⟨none, none, none⟩ :=
  groups_round_trip httpsHost mixedDraft ⟨none, none, none⟩ (by decide +kernel)
    ⟨by decide +kernel, by decide +kernel, by decide +kernel⟩

/-- A free group that holds a launch signature alone. -/
def linkedDraft : NamedTimesDraft :=
  ⟨[⟨"reading", "Reading", ["cmdline:Main"], .free, none, none⟩], true, true⟩

/-- The launch signature is stripped, and the free group comes back without it. -/
theorem not_groups_round_trip : ¬∀ (hostname : UrlHost) (draft : NamedTimesDraft)
    (prior : PriorClauseState), namedTimesError draft.groups = none →
    (draft.groups.map (·.id)).Nodup → (draft.groups.flatMap (·.apps)).Nodup →
    ∀ g ∈ draft.groups, g.policy = .free → ∀ app ∈ g.apps,
      ∃ g' ∈ (decompose ((groupsToClauses hostname draft prior).saved prior.apps)
        (some (groupsToClauses hostname draft prior).freeGroups)).groups,
        g'.policy = .free ∧ app ∈ g'.apps := by
  intro h
  have hback := h httpsHost linkedDraft ⟨none, none, none⟩ (by decide +kernel) (by decide)
    (by decide) _ List.mem_cons_self rfl "cmdline:Main" (by decide)
  revert hback
  decide +kernel

end Kintrinsic
