import Kintrinsic.SiteApps

/-! # Free time

A window is recognised by exactly the flags of a site, in any order, and what is recognised is spared
by the sweep.  Whether its time is free is read from the first entry of the site's id, of either kind:
a window that costs time is free where that entry is another one, and free. -/
namespace Kintrinsic

open Text

/-! ## Flags -/

/-- The arguments of a command line are a list of flags and one profile flag. -/
def FlagsAndProfile (args flags : List String) : Prop :=
  ∃ before flag after, args = before ++ flag :: after ∧ isProfileFlag flag = true ∧
    (before ++ after).Perm flags

theorem insertionSort_eq_iff {l l' : List String} :
    l.insertionSort (· ≤ ·) = l'.insertionSort (· ≤ ·) ↔ l.Perm l' := by
  constructor
  · intro h
    have hl := List.perm_insertionSort (· ≤ ·) l
    have hl' := List.perm_insertionSort (· ≤ ·) l'
    rw [h] at hl
    exact hl.symm.trans hl'
  · intro h
    refine List.Perm.eq_of_sortedLE List.sortedLE_insertionSort List.sortedLE_insertionSort ?_
    exact ((List.perm_insertionSort (· ≤ ·) l).trans h).trans (List.perm_insertionSort (· ≤ ·) l').symm

/-- The one profile flag is taken off. -/
theorem flagsAndProfile_iff {args flags : List String}
    (hflags : ∀ f ∈ flags, isProfileFlag f = false) :
    FlagsAndProfile args flags ↔
      args.countP isProfileFlag = 1 ∧ (args.filter fun t => !isProfileFlag t).Perm flags := by
  constructor
  · rintro ⟨before, flag, after, rfl, hflag, hperm⟩
    have hother : ∀ t ∈ before ++ after, isProfileFlag t = false :=
      fun t ht => hflags t (hperm.mem_iff.mp ht)
    have hbefore : before.countP isProfileFlag = 0 := List.countP_eq_zero.mpr fun t ht =>
      Bool.eq_false_iff.mp (hother t (List.mem_append_left _ ht))
    have hafter : after.countP isProfileFlag = 0 := List.countP_eq_zero.mpr fun t ht =>
      Bool.eq_false_iff.mp (hother t (List.mem_append_right _ ht))
    have hkept : (before ++ after).filter (fun t => !isProfileFlag t) = before ++ after :=
      List.filter_eq_self.mpr fun t ht => by rw [hother t ht]; rfl
    constructor
    · rw [List.countP_append, List.countP_cons_of_pos hflag, hbefore, hafter]
    · rw [List.filter_append, List.filter_cons_of_neg (by rw [hflag]; exact Bool.false_ne_true),
        ← List.filter_append, hkept]
      exact hperm
  · rintro ⟨hone, hperm⟩
    obtain ⟨flag, hmem, hflag⟩ := List.countP_pos_iff.mp (hone.symm ▸ Nat.one_pos)
    obtain ⟨before, after, rfl⟩ := List.append_of_mem hmem
    rw [List.countP_append, List.countP_cons_of_pos hflag] at hone
    have hbefore : ∀ t ∈ before, ¬isProfileFlag t = true := List.countP_eq_zero.mp (by omega)
    have hafter : ∀ t ∈ after, ¬isProfileFlag t = true := List.countP_eq_zero.mp (by omega)
    refine ⟨before, flag, after, rfl, hflag, ?_⟩
    have hkept : (before ++ after).filter (fun t => !isProfileFlag t) = before ++ after :=
      List.filter_eq_self.mpr fun t ht => by
        rcases List.mem_append.mp ht with ht | ht
        · rw [Bool.eq_false_iff.mpr (hbefore t ht)]
          rfl
        · rw [Bool.eq_false_iff.mpr (hafter t ht)]
          rfl
    rw [List.filter_append, List.filter_cons_of_neg (by rw [hflag]; exact Bool.false_ne_true),
      ← List.filter_append, hkept] at hperm
    exact hperm

theorem fixedFlags_not_profile (app : LearningApp) : ∀ f ∈ app.fixedFlags, isProfileFlag f = false := by
  intro f hf
  unfold LearningApp.fixedFlags classMarker at hf
  unfold isProfileFlag profileFlag
  simp only [List.mem_cons, List.not_mem_nil, or_false] at hf
  rcases hf with rfl | rfl | rfl <;> rw [String.toList_append] <;> rfl

/-- Three flags that begin differently are not mixed up. -/
theorem fixedFlags_eq_of_perm {a b : LearningApp} (h : a.fixedFlags.Perm b.fixedFlags) :
    a.fixedFlags = b.fixedFlags := by
  have hthird : ∀ s t : String, s.toList[2]? ≠ t.toList[2]? → s ≠ t := by
    rintro s t hne rfl
    exact hne rfl
  have happ : ∀ u, ("--app=" ++ u).toList[2]? = some 'a' := fun u => by
    rw [String.toList_append]
    rfl
  have hclass : ∀ id, (classMarker id).toList[2]? = some 'c' := fun id => by
    unfold classMarker
    rw [String.toList_append]
    rfl
  have hrules : ∀ pin, ("--host-resolver-rules=" ++ pin).toList[2]? = some 'h' := fun pin => by
    rw [String.toList_append]
    rfl
  unfold LearningApp.fixedFlags at h ⊢
  have hmem : ∀ f ∈ _, f ∈ _ := fun f hf => h.mem_iff.mp hf
  simp only [List.mem_cons, List.not_mem_nil, or_false, forall_eq_or_imp, forall_eq] at hmem
  obtain ⟨h0, h1, h2⟩ := hmem
  congr 1
  · refine h0.resolve_right (not_or.mpr ⟨hthird _ _ ?_, hthird _ _ ?_⟩)
    · rw [happ, hclass]
      decide
    · rw [happ, hrules]
      decide
  · congr 1
    · refine (h1.resolve_left (hthird _ _ ?_)).resolve_right (hthird _ _ ?_)
      · rw [hclass, happ]
        decide
      · rw [hclass, hrules]
        decide
    · congr 1
      refine (h2.resolve_left (hthird _ _ ?_)).resolve_left (hthird _ _ ?_)
      · rw [hrules, happ]
        decide
      · rw [hrules, hclass]
        decide

theorem id_eq_of_fixedFlags {a b : LearningApp} (h : a.fixedFlags = b.fixedFlags) : a.id = b.id := by
  unfold LearningApp.fixedFlags classMarker at h
  obtain ⟨-, hclass, -⟩ := List.cons.inj h |>.imp id List.cons.inj
  exact String.append_right_inj _ |>.mp hclass

/-! ## What is recognised -/

theorem sanctionedAppId_eq {runtime : String} {args : List String} {exeUid : Option UInt32}
    {apps : List LearningApp} : sanctionedAppId (runtime :: args) exeUid apps =
      if runtime ∈ knownRuntimes ∧ exeUid = some 0 ∧ args.countP isProfileFlag = 1 then
        ((apps.filter (·.kind = .site)).find? fun app =>
          (args.filter fun t => !isProfileFlag t).Perm app.fixedFlags).map (·.id)
      else none := by
  unfold sanctionedAppId
  dsimp only
  simp only [insertionSort_eq_iff]
  by_cases hruntime : runtime ∈ knownRuntimes
  · by_cases huid : exeUid = some 0
    · by_cases hone : args.countP isProfileFlag = 1
      · rw [if_neg (not_not.mpr hruntime), if_neg (not_not.mpr huid), if_neg (not_not.mpr hone),
          if_pos ⟨hruntime, huid, hone⟩]
      · rw [if_neg (not_not.mpr hruntime), if_neg (not_not.mpr huid), if_pos hone,
          if_neg fun h => hone h.2.2]
    · rw [if_neg (not_not.mpr hruntime), if_pos huid, if_neg fun h => huid h.2.1]
  · rw [if_pos hruntime, if_neg fun h => hruntime h.1]

/-- What is recognised is a launch of a site that bears the id, by a runtime of root's. -/
theorem sanctionedAppId_some {cmdline : List String} {exeUid : Option UInt32}
    {apps : List LearningApp} {id : String} (h : sanctionedAppId cmdline exeUid apps = some id) :
    exeUid = some 0 ∧ ∃ app ∈ apps, app.kind = .site ∧ app.id = id ∧
      ∃ runtime ∈ knownRuntimes, ∃ args, cmdline = runtime :: args ∧
        FlagsAndProfile args app.fixedFlags := by
  cases cmdline with
  | nil => exact nomatch h
  | cons runtime args =>
    rw [sanctionedAppId_eq] at h
    split at h
    · rename_i hgates
      obtain ⟨app, hfound, hid⟩ := Option.map_eq_some_iff.mp h
      obtain ⟨happ, hsite⟩ := List.mem_filter.mp (List.mem_of_find?_eq_some hfound)
      have hperm := List.find?_some hfound
      rw [decide_eq_true_eq] at hperm
      exact ⟨hgates.2.1, app, happ, of_decide_eq_true hsite, hid, runtime, hgates.1, args, rfl,
        (flagsAndProfile_iff (fixedFlags_not_profile app)).mpr ⟨hgates.2.2, hperm⟩⟩
    · exact nomatch h

/-- A site is recognised by its flags and one profile flag, in any order. -/
theorem sanctionedAppId_of_flags {runtime : String} {args : List String} {apps : List LearningApp}
    {app : LearningApp} (hruntime : runtime ∈ knownRuntimes) (happ : app ∈ apps)
    (hsite : app.kind = .site) (hargs : FlagsAndProfile args app.fixedFlags) :
    sanctionedAppId (runtime :: args) (some 0) apps = some app.id := by
  obtain ⟨hone, hperm⟩ := (flagsAndProfile_iff (fixedFlags_not_profile app)).mp hargs
  rw [sanctionedAppId_eq, if_pos ⟨hruntime, rfl, hone⟩]
  cases hfound : (apps.filter (·.kind = .site)).find? fun app =>
      (args.filter fun t => !isProfileFlag t).Perm app.fixedFlags with
  | none =>
    have hmem : app ∈ apps.filter (·.kind = .site) :=
      List.mem_filter.mpr ⟨happ, decide_eq_true hsite⟩
    exact absurd (decide_eq_true hperm) (List.find?_eq_none.mp hfound app hmem)
  | some first =>
    have hfirst := List.find?_some hfound
    rw [decide_eq_true_eq] at hfirst
    exact congrArg some (id_eq_of_fixedFlags (fixedFlags_eq_of_perm (hfirst.symm.trans hperm)))

/-! ## What is free -/

/-- Free time that nothing but what the guardian has named can earn, and that the sweep leaves be. -/
structure Unforged (apps : List LearningApp) : Prop where
  gated : ∀ p userInstalled, classify p apps userInstalled = .learning →
    p.exeUid = some 0 ∨ ∃ app ∈ apps, (app.hits p userInstalled).1 = true ∧ app.trusted = true
  free : ∀ p userInstalled, isSanctioned p.cmdline p.exeUid apps = true →
    classify p apps userInstalled = .learning →
      ∃ app ∈ apps, app.kind = .site ∧ app.isFree = true ∧
        ∃ runtime ∈ knownRuntimes, ∃ args, p.cmdline = runtime :: args ∧
          FlagsAndProfile args app.fixedFlags
  launches : ∀ app ∈ apps, app.kind = .site → ∀ runtime ∈ knownRuntimes, ∀ home args,
    (runtime :: args).Perm (sanctionedArgv runtime app home) →
      sanctionedAppId (runtime :: args) (some 0) apps = some app.id
  spared : ∀ p userInstalled, isSanctioned p.cmdline p.exeUid apps = true →
    classify p apps userInstalled = .learning → ∀ timeSites ancestors blockedHit,
      sweepOf (sitesInForce apps timeSites) ancestors blockedHit p = none

/-- A site whose id is first borne by a free entry is free, or launched by the flags of a free site. -/
def FreeByFirst (apps : List LearningApp) : Prop :=
  ∀ e ∈ apps, e.kind = .site → (apps.find? (·.id = e.id)).any LearningApp.isFree = true →
    ∃ a ∈ apps, a.kind = .site ∧ a.isFree = true ∧ a.fixedFlags = e.fixedFlags

section
variable {apps : List LearningApp} {p : FocusedProcess} {userInstalled : Option (Finset String)}

theorem classify_sanctioned {id : String} (h : sanctionedAppId p.cmdline p.exeUid apps = some id) :
    classify p apps userInstalled = .learning ↔
      (apps.find? (·.id = id)).any LearningApp.isFree = true := by
  unfold classify
  rw [h]
  dsimp only
  by_cases hfree : (apps.find? (·.id = id)).any LearningApp.isFree = true
  · exact iff_of_true (if_pos hfree) hfree
  · exact iff_of_false (fun hlearning => by rw [if_neg hfree] at hlearning; exact nomatch hlearning) hfree

theorem classify_gated (h : classify p apps userInstalled = .learning) :
    p.exeUid = some 0 ∨
      ∃ app ∈ apps, (app.hits p userInstalled).1 = true ∧ app.trusted = true := by
  cases hid : sanctionedAppId p.cmdline p.exeUid apps with
  | some id => exact .inl (sanctionedAppId_some hid).1
  | none =>
    unfold classify at h
    rw [hid] at h
    dsimp only at h
    split at h
    · rename_i hany
      obtain ⟨app, happ, hcredits⟩ := List.any_eq_true.mp hany
      unfold LearningApp.credits at hcredits
      rw [Bool.and_eq_true, Bool.or_eq_true, Bool.and_eq_true, decide_eq_true_eq] at hcredits
      rcases hcredits.2 with htrusted | hroot
      · exact .inr ⟨app, happ, hcredits.1, htrusted⟩
      · exact .inl hroot.1
    · exact nomatch h

/-- What is recognised among some sites is recognised among more. -/
theorem isSanctioned_mono {apps' : List LearningApp} (h : isSanctioned p.cmdline p.exeUid apps = true)
    (hsub : ∀ app ∈ apps, app.kind = .site → app ∈ apps') :
    isSanctioned p.cmdline p.exeUid apps' = true := by
  obtain ⟨id, hid⟩ := Option.isSome_iff_exists.mp h
  obtain ⟨huid, app, happ, hsite, -, runtime, hruntime, args, hcmdline, hargs⟩ :=
    sanctionedAppId_some hid
  unfold isSanctioned
  rw [hcmdline, huid, sanctionedAppId_of_flags hruntime (hsub app happ hsite) hsite hargs]
  rfl

/-- **A recognised window is spared**: by the lockdown, and by a rule that names its program. -/
theorem sweepOf_sanctioned (h : isSanctioned p.cmdline p.exeUid apps = true)
    (timeSites : List LearningApp) (ancestors : List FocusedProcess) (blockedHit : Option String) :
    sweepOf (sitesInForce apps timeSites) ancestors blockedHit p = none := by
  obtain ⟨id, hid⟩ := Option.isSome_iff_exists.mp h
  obtain ⟨-, app, happ, hsite, -⟩ := sanctionedAppId_some hid
  have hmem : ∀ app ∈ apps, app.kind = .site → app ∈ apps.filter (·.kind = .site) ++ timeSites :=
    fun app happ hsite => List.mem_append_left _ (List.mem_filter.mpr ⟨happ, decide_eq_true hsite⟩)
  have hforce : sitesInForce apps timeSites = some (apps.filter (·.kind = .site) ++ timeSites) :=
    if_neg (List.ne_nil_of_mem (hmem app happ hsite))
  unfold sweepOf sweepDecision
  rw [hforce, Option.any_some, isSanctioned_mono h hmem, Bool.true_or]
  rfl

end

/-- The launch of an entry whose flags are its own. -/
def launchOf (app : LearningApp) : FocusedProcess where
  cmdline := sanctionedArgv "/usr/bin/chromium" app ""
  exe := none
  exeUid := some 0
  cgroup := none
  pid := 0

theorem sanctionedArgv_flags {runtime home : String} {app : LearningApp} {args : List String}
    (h : (runtime :: args).Perm (sanctionedArgv runtime app home)) :
    FlagsAndProfile args app.fixedFlags := by
  have hargs : args.Perm (app.fixedFlags ++ [profileFlag ++ profileDir home app.id]) :=
    List.Perm.cons_inv h
  have hprofile : isProfileFlag (profileFlag ++ profileDir home app.id) = true := by
    unfold isProfileFlag
    rw [String.toList_append, List.isPrefixOf_iff_prefix]
    exact List.prefix_append _ _
  have hflags : ∀ f ∈ app.fixedFlags, (!isProfileFlag f) = true := fun f hf => by
    rw [fixedFlags_not_profile app f hf]
    rfl
  refine (flagsAndProfile_iff (fixedFlags_not_profile app)).mpr ⟨?_, ?_⟩
  · rw [hargs.countP_eq, List.countP_append, List.countP_singleton, if_pos hprofile,
      List.countP_eq_zero.mpr fun f hf => Bool.eq_false_iff.mp (fixedFlags_not_profile app f hf)]
  · have hkept := hargs.filter fun t => !isProfileFlag t
    rw [List.filter_append, List.filter_eq_self.mpr hflags, List.filter_cons_of_neg (by
      rw [hprofile]; exact Bool.false_ne_true), List.filter_nil, List.append_nil] at hkept
    exact hkept

section
variable {apps : List LearningApp}

theorem Unforged.freeByFirst (h : Unforged apps) : FreeByFirst apps := by
  intro e he hsite hfirst
  have hflags : FlagsAndProfile (launchOf e).cmdline.tail e.fixedFlags :=
    sanctionedArgv_flags (List.Perm.refl (launchOf e).cmdline)
  have hid : sanctionedAppId (launchOf e).cmdline (launchOf e).exeUid apps = some e.id :=
    sanctionedAppId_of_flags List.mem_cons_self he hsite hflags
  obtain ⟨a, ha, hasite, hafree, runtime, -, args, hcmdline, hargs⟩ := h.free (launchOf e) none
    (Option.isSome_iff_exists.mpr ⟨_, hid⟩) ((classify_sanctioned hid).mpr hfirst)
  refine ⟨a, ha, hasite, hafree, fixedFlags_eq_of_perm ?_⟩
  rw [hcmdline, List.tail_cons] at hflags
  have hkept := ((flagsAndProfile_iff (fixedFlags_not_profile e)).mp hflags).2
  exact ((flagsAndProfile_iff (fixedFlags_not_profile a)).mp hargs).2.symm.trans hkept

theorem FreeByFirst.unforged (h : FreeByFirst apps) : Unforged apps where
  gated p userInstalled := classify_gated
  free p userInstalled hsanctioned hlearning := by
    obtain ⟨id, hid⟩ := Option.isSome_iff_exists.mp hsanctioned
    obtain ⟨-, e, he, hsite, rfl, runtime, hruntime, args, hcmdline, hargs⟩ := sanctionedAppId_some hid
    obtain ⟨a, ha, hasite, hafree, hflags⟩ := h e he hsite ((classify_sanctioned hid).mp hlearning)
    exact ⟨a, ha, hasite, hafree, runtime, hruntime, args, hcmdline, hflags ▸ hargs⟩
  launches app happ hsite runtime hruntime home args hperm :=
    sanctionedAppId_of_flags hruntime happ hsite (sanctionedArgv_flags hperm)
  spared p userInstalled hsanctioned _ := sweepOf_sanctioned hsanctioned

end

/-- **Free time is what was named free exactly where ids do not confuse it.**  Of the entries that a
learning clause defines: only what root owns or the guardian vouches for is free, every launch of a
site is recognised whatever the order of its flags, and what is recognised is spared; and no window
that costs time is free if and only if each site whose id is first borne by a free entry is free, or
is launched by the flags of a free site. -/
theorem free_time_law (g : GrantLearning) : Unforged g.definedApps ↔ FreeByFirst g.definedApps :=
  ⟨Unforged.freeByFirst, FreeByFirst.unforged⟩

/-- Two sites of one id: the first is free, the other costs time. -/
def oneIdTwice : Json :=
  .obj [("v", .int 1), ("issuedAt", .int 0), ("apps", .arr [
    .obj [("id", .str "maths"), ("label", .str "Maths"), ("kind", .str "site"),
      ("url", .str "https://maths.org/"), ("domains", .arr [.str "maths.org"])],
    .obj [("id", .str "maths"), ("label", .str "Videos"), ("kind", .str "site"),
      ("url", .str "https://videos.org/"), ("domains", .arr [.str "videos.org"]),
      ("free", .bool false)]])]

/-- A clause that is accepted, and under which a window that costs time is free. -/
theorem not_free_time : ∃ g, GrantLearning.fromValue oneIdTwice = .ok g ∧
    ¬Unforged g.definedApps := by
  refine ⟨⟨1, [⟨"maths", "Maths", .site, ["maths.org"], some "https://maths.org/", none, false, none⟩,
    ⟨"maths", "Videos", .site, ["videos.org"], some "https://videos.org/", none, false, some false⟩],
    none, none, 0⟩, by rfl, fun h => ?_⟩
  obtain ⟨a, ha, -, hfree, hflags⟩ := h.freeByFirst _ (List.mem_cons_of_mem _ List.mem_cons_self) rfl rfl
  rcases List.mem_cons.mp ha with rfl | ha
  · exact absurd hflags (by decide)
  · rw [List.mem_singleton.mp ha] at hfree
    exact absurd hfree (by decide)

end Kintrinsic
