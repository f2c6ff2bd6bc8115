import Kintrinsic.AppBuckets
import Kintrinsic.SiteApps
import Mathlib.Data.Nat.Find

/-! # Who a process is

A guardian names a program, and what a child looks at is often something that program started, so a
process is taken for whatever one of its ancestors is.  The meter and the sweep both match widely, by
strings that the child may write, as a match can only restrict; the count of unrecognised time, where
a match spares, goes by the path of the executable alone. -/

namespace ParentWalk

variable {κ α : Type} (root : κ → Bool) (lookup : κ → Option α) (parent : α → κ)

/-- What is at a key; nothing is at a root. -/
def here (k : κ) : Option α := if root k then none else lookup k

/-- What is so many steps above a key. -/
def up : Nat → κ → Option α
  | 0, k => here root lookup k
  | n + 1, k => (here root lookup k).bind fun a => up n (parent a)

/-- The walk up to a depth; it ends at a root, at a gap, and where it has been. -/
def walk [DecidableEq κ] (pred : α → Bool) : Nat → List κ → κ → Bool
  | 0, _, _ => false
  | depth + 1, seen, k =>
    if root k ∨ k ∈ seen then false
    else (lookup k).any fun a => pred a || walk pred depth (seen ++ [k]) (parent a)

/-- What is so many steps up passes. -/
def Reaches (pred : α → Bool) (n : Nat) (k : κ) : Prop :=
  ∃ a, up root lookup parent n k = some a ∧ pred a = true

variable {root lookup parent} {pred : α → Bool} {n depth : Nat} {k : κ} {a : α} {seen : List κ}

theorem here_eq_some : here root lookup k = some a ↔ root k = false ∧ lookup k = some a := by
  unfold here
  cases root k <;> simp

theorem reaches_zero (h : here root lookup k = some a) :
    Reaches root lookup parent pred 0 k ↔ pred a = true := by
  unfold Reaches up
  rw [h]
  simp

theorem reaches_succ (h : here root lookup k = some a) :
    Reaches root lookup parent pred (n + 1) k ↔
      Reaches root lookup parent pred n (parent a) := by
  unfold Reaches
  rw [up, h]
  rfl

theorem here_of_reaches (h : Reaches root lookup parent pred n k) :
    ∃ a, here root lookup k = some a := by
  obtain ⟨b, hup, -⟩ := h
  cases n with
  | zero => exact ⟨b, hup⟩
  | succ n =>
    obtain ⟨a, hhere, -⟩ := Option.bind_eq_some_iff.mp hup
    exact ⟨a, hhere⟩

section
variable [DecidableEq κ]

theorem reaches_of_walk (h : walk root lookup parent pred depth seen k = true) :
    ∃ n < depth, Reaches root lookup parent pred n k := by
  induction depth generalizing seen k with
  | zero => cases h
  | succ depth ih =>
    rw [walk] at h
    split at h
    · cases h
    · rename_i hk
      rw [not_or, Bool.not_eq_true] at hk
      obtain ⟨a, hlookup, hany⟩ := (Option.any_eq_true _ _).mp h
      have hhere : here root lookup k = some a := here_eq_some.mpr ⟨hk.1, hlookup⟩
      rcases Bool.or_eq_true_iff.mp hany with hpred | hrest
      · exact ⟨0, Nat.succ_pos _, (reaches_zero hhere).mpr hpred⟩
      · obtain ⟨n, hn, hreaches⟩ := ih hrest
        exact ⟨n + 1, Nat.succ_lt_succ hn, (reaches_succ hhere).mpr hreaches⟩

/-- A turn of the walk at a key where it has not been. -/
theorem walk_of_here (hhere : here root lookup k = some a) (hk : k ∉ seen) :
    walk root lookup parent pred (depth + 1) seen k =
      (pred a || walk root lookup parent pred depth (seen ++ [k]) (parent a)) := by
  obtain ⟨hroot, hlookup⟩ := here_eq_some.mp hhere
  have hnew : ¬(root k = true ∨ k ∈ seen) := by
    rintro (h | hmem)
    · exact Bool.false_ne_true (hroot.symm.trans h)
    · exact hk hmem
  rw [walk, if_neg hnew, hlookup, Option.any_some]

/-- The nearest hit is found: no key on the way to it is as near to a hit as the key after it, so the
walk does not come back to where it has been. -/
theorem walk_of_first (hn : n < depth) (hreaches : Reaches root lookup parent pred n k)
    (hfirst : ∀ m < n, ¬Reaches root lookup parent pred m k)
    (hseen : ∀ s ∈ seen, ∀ m ≤ n, ¬Reaches root lookup parent pred m s) :
    walk root lookup parent pred depth seen k = true := by
  induction n generalizing depth seen k with
  | zero =>
    obtain ⟨depth, rfl⟩ := Nat.exists_eq_succ_of_ne_zero (Nat.ne_of_gt hn)
    obtain ⟨a, hhere⟩ := here_of_reaches hreaches
    have hk : k ∉ seen := fun hmem => hseen k hmem 0 (Nat.le_refl 0) hreaches
    rw [walk_of_here hhere hk, (reaches_zero hhere).mp hreaches, Bool.true_or]
  | succ n ih =>
    obtain ⟨depth, rfl⟩ := Nat.exists_eq_succ_of_ne_zero (Nat.ne_of_gt (Nat.zero_lt_of_lt hn))
    obtain ⟨a, hhere⟩ := here_of_reaches hreaches
    have hk : k ∉ seen := fun hmem => hseen k hmem (n + 1) (Nat.le_refl _) hreaches
    have hrest : walk root lookup parent pred depth (seen ++ [k]) (parent a) = true := by
      refine ih (Nat.lt_of_succ_lt_succ hn) ((reaches_succ hhere).mp hreaches) ?_ ?_
      · intro m hm hreaches'
        exact hfirst (m + 1) (Nat.succ_lt_succ hm) ((reaches_succ hhere).mpr hreaches')
      · intro s hs m hm
        rcases List.mem_append.mp hs with hs | hs
        · exact hseen s hs m (Nat.le_succ_of_le hm)
        · rw [List.mem_singleton.mp hs]
          exact hfirst m (Nat.lt_succ_of_le hm)
    rw [walk_of_here hhere hk, hrest, Bool.or_true]

/-- **The walk finds what is within its depth**, in a tree with loops too. -/
theorem walk_iff : walk root lookup parent pred depth [] k = true ↔
    ∃ n < depth, Reaches root lookup parent pred n k := by
  constructor
  · exact reaches_of_walk
  · rintro ⟨n, hn, hreaches⟩
    classical
    have hex : ∃ n, Reaches root lookup parent pred n k := ⟨n, hreaches⟩
    refine walk_of_first (Nat.lt_of_le_of_lt (Nat.find_min' hex hreaches) hn) (Nat.find_spec hex)
      (fun m hm => Nat.find_min hex hm) ?_
    intro s hs
    cases hs

/-- A walk finds what a stricter walk finds. -/
theorem walk_mono {strict : α → Bool} (hpred : ∀ a, strict a = true → pred a = true)
    (h : walk root lookup parent strict depth [] k = true) :
    walk root lookup parent pred depth [] k = true := by
  obtain ⟨n, hn, a, hup, ha⟩ := walk_iff.mp h
  exact walk_iff.mpr ⟨n, hn, a, hup, hpred a ha⟩

end

end ParentWalk

namespace Kintrinsic

open Text

/-! ## One process and its ancestors -/

/-- `ProcId`. -/
structure ProcId where
  ppid : UInt32
  exe : Option String
  exeUid : Option UInt32
  cmdline : List String
  cgroup : Option String
deriving DecidableEq

def ProcId.argv0 (id : ProcId) : Option String := id.cmdline.head?.filter fun a => a ≠ ""

def maxDepth : Nat := 12

/-- The ancestor so many generations up; the process itself is none up. -/
def ancestor (lookup : UInt32 → Option ProcId) (n : Nat) (pid : UInt32) : Option ProcId :=
  ParentWalk.up (fun pid => decide (pid ≤ 1)) lookup ProcId.ppid n pid

/-- `has_ancestor_matching`. -/
def hasAncestorMatching (pid : UInt32) (lookup : UInt32 → Option ProcId) (pred : ProcId → Bool) :
    Bool :=
  ParentWalk.walk (fun pid => decide (pid ≤ 1)) lookup ProcId.ppid pred maxDepth [] pid

/-! ## The identities -/

/-- `Trust`: which strings a match believes. -/
inductive Trust
  | wide
  | kernelResolvedOnly
deriving DecidableEq

def isSiteId (pkg : String) : Bool := "site:".toList.isPrefixOf pkg.toList

/-- `site_id`. -/
def siteId (pkg : String) : Option String :=
  (stripPrefix "site:".toList pkg.toList).bind fun rest =>
    if trim rest = [] then none else some (String.ofList (trim rest))

def flatpakPrefix : List Char := "flatpak:".toList

/-- A segment of a reversed domain name. -/
def isFlatpakSegment (seg : List Char) : Bool :=
  seg.head?.any Char.isAlpha && seg.all fun c => c.isAlphanum || c == '_' || c == '-'

/-- `is_flatpak_id`: by its prefix, or by the shape of an application's id. -/
def isFlatpakId (pkg : String) : Bool :=
  if flatpakPrefix.isPrefixOf pkg.toList then true
  else if '/' ∈ pkg.toList then false
  else
    let segs := pkg.toList.splitOn '.'
    decide (3 ≤ segs.length) && segs.all isFlatpakSegment

/-- `flatpak_app_id`. -/
def flatpakAppId (pkg : String) : List Char :=
  (stripPrefix flatpakPrefix pkg.toList).getD pkg.toList

/-- `basename`: what stands after the last slash. -/
def basename (p : String) : List Char := (p.toList.reverse.takeWhile (· ≠ '/')).reverse

def namesPkg (trust : Trust) (pkg candidate : String) : Bool :=
  candidate == pkg || decide (trust = .wide) && decide (basename candidate = basename pkg)

/-- `matches_pkg`. -/
def matchesPkg (pkg : String) (exe argv0 : Option String) (cmdline : List String)
    (cmdlineJoined : String) (cgroup : Option String) (trust : Trust) : Bool :=
  if pkg = "" then false
  else if isCmdlineId pkg then
    decide (trust = .wide) && (cmdlineNeedle pkg).any fun needle =>
      cmdline.any (containsText needle) || containsText needle cmdlineJoined
  -- before the flatpak form, as a site's id may have dots
  else if isSiteId pkg then
    decide (trust = .wide) && (siteId pkg).any fun id => decide (classMarker id ∈ cmdline)
  else if isFlatpakId pkg then
    decide (trust = .wide) && cgroup.any fun c =>
      containsText ("flatpak-".toList ++ flatpakAppId pkg ++ ['-']) c ||
        containsText ("flatpak-".toList ++ flatpakAppId pkg ++ ['.']) c
  else
    match trust with
    | .kernelResolvedOnly => exe.any (namesPkg trust pkg)
    | .wide => exe.any (namesPkg trust pkg) ||
        (argv0.filter fun a => a ≠ "").any (namesPkg trust pkg)

/-- `pkg_matches_process`. -/
def pkgMatchesProcess (pkg : String) (exe argv0 : Option String) (cmdline : List String)
    (cmdlineJoined : String) (cgroup : Option String) : Bool :=
  matchesPkg pkg exe argv0 cmdline cmdlineJoined cgroup .wide

/-- `pkg_names_process_exactly`. -/
def pkgNamesProcessExactly (pkg : String) (exe : Option String) : Bool :=
  matchesPkg pkg exe none [] "" none .kernelResolvedOnly

/-- `matches_with_ancestors`. -/
def matchesWithAncestors (pid : UInt32) (pkg : String) (lookup : UInt32 → Option ProcId) : Bool :=
  hasAncestorMatching pid lookup fun id =>
    pkgMatchesProcess pkg id.exe id.argv0 id.cmdline (" ".intercalate id.cmdline) id.cgroup

/-- `names_with_ancestors_exactly`. -/
def namesWithAncestorsExactly (pid : UInt32) (pkg : String) (lookup : UInt32 → Option ProcId) :
    Bool :=
  hasAncestorMatching pid lookup fun id => pkgNamesProcessExactly pkg id.exe

/-! ## The meter -/

/-- A process, or one of its ancestors, is an instance of an identity. -/
def FocusedProcess.isInstance (p : FocusedProcess) (lookup : UInt32 → Option ProcId)
    (pkg : String) : Bool :=
  pkgMatchesProcess pkg p.exe p.cmdline.head? p.cmdline (" ".intercalate p.cmdline) p.cgroup ||
    matchesWithAncestors p.pid pkg lookup

/-- `bucket_id_for_with`. -/
def bucketIdForWith (p : FocusedProcess) (body : GrantBuckets) (lookup : UInt32 → Option ProcId) :
    Option String :=
  if body.isPaused || !body.isValid then none
  else (body.buckets.find? fun b => b.apps.any (p.isInstance lookup)).map AppBucket.id

/-- `is_unrecognised_with`. -/
def isUnrecognisedWith (p : FocusedProcess) (governed : List String)
    (lookup : UInt32 → Option ProcId) : Bool :=
  match p.exeUid with
  | none => false
  | some uid =>
    if uid = 0 then false
    else
      !governed.any fun pkg =>
        pkgNamesProcessExactly pkg p.exe || namesWithAncestorsExactly p.pid pkg lookup

/-- `attribute`: what the seconds in front of a process count as, whose bucket they are, and whether
they are unrecognised. -/
def attributeProcess (p : FocusedProcess) (apps : List LearningApp) (buckets : GrantBuckets)
    (userInstalled : Option (Finset String)) (governed : List String)
    (lookup : UInt32 → Option ProcId) : Bucket × Option String × Bool :=
  let bucket := classify p apps userInstalled
  let bucketId := bucketIdForWith p buckets lookup
  (bucket, bucketId,
    decide (bucket ≠ .learning) && bucketId.isNone && isUnrecognisedWith p governed lookup)

/-! ## The sweep -/

/-- `find_blocked_hit`. -/
def findBlockedHit (pkgs : List String) (p : FocusedProcess) (lookup : UInt32 → Option ProcId) :
    Option String :=
  pkgs.find? (p.isInstance lookup)

/-- A sanctioned window, or a process that one has started. -/
def isSanctionedWith (sites : Option (List LearningApp)) (p : FocusedProcess)
    (lookup : UInt32 → Option ProcId) : Bool :=
  sites.any fun apps => isSanctioned p.cmdline p.exeUid apps ||
    hasAncestorMatching p.pid lookup fun id => isSanctioned id.cmdline id.exeUid apps

/-- What `terminate_blocked_processes` decides on one process of a child: why it is ended, if it is. -/
def terminated (blocked : Option (List String)) (sites : Option (List LearningApp))
    (p : FocusedProcess) (lookup : UInt32 → Option ProcId) : Option String :=
  sweepDecision (isSanctionedWith sites p lookup) sites.isSome (isRuntimeProcess p.cmdline p.exe)
    (blocked.bind fun pkgs => findBlockedHit pkgs p lookup)

section
variable {lookup : UInt32 → Option ProcId} {p : FocusedProcess} {body : GrantBuckets}
  {spent : String → BucketSpent} {pkg : String}

theorem hasAncestorMatching_iff {pid : UInt32} {pred : ProcId → Bool} :
    hasAncestorMatching pid lookup pred = true ↔
      ∃ n < maxDepth, ∃ id, ancestor lookup n pid = some id ∧ pred id = true :=
  ParentWalk.walk_iff

/-! ## What spares also restricts -/

/-- The exact form believes only the path of the executable, which the wide form believes as well. -/
theorem pkgMatches_of_exactly {exe argv0 cgroup : Option String} {cmdline : List String}
    {joined : String} (h : pkgNamesProcessExactly pkg exe = true) :
    pkgMatchesProcess pkg exe argv0 cmdline joined cgroup = true := by
  unfold pkgNamesProcessExactly matchesPkg at h
  unfold pkgMatchesProcess matchesPkg
  split at h
  · cases h
  · rename_i hempty
    rw [if_neg hempty]
    split at h
    · cases h
    · rename_i hcmdline
      rw [if_neg hcmdline]
      split at h
      · cases h
      · rename_i hsite
        rw [if_neg hsite]
        split at h
        · cases h
        · rename_i hflatpak
          rw [if_neg hflatpak]
          obtain ⟨e, rfl, hnames⟩ := (Option.any_eq_true _ _).mp h
          have hsame : e = pkg := by simpa [namesPkg] using hnames
          subst hsame
          simp [namesPkg]

theorem matchesWithAncestors_of_exactly {pid : UInt32}
    (h : namesWithAncestorsExactly pid pkg lookup = true) :
    matchesWithAncestors pid pkg lookup = true :=
  ParentWalk.walk_mono (fun _ => pkgMatches_of_exactly) h

/-! ## The meter and the sweep -/

theorem bucketIdForWith_eq_some {id : String} (h : bucketIdForWith p body lookup = some id) :
    body.isPaused = false ∧ body.isValid = true ∧
      ∃ b ∈ body.buckets, b.id = id ∧ ∃ app ∈ b.apps, p.isInstance lookup app = true := by
  unfold bucketIdForWith at h
  split at h
  · cases h
  · rename_i hlive
    rw [Bool.or_eq_true, not_or, Bool.not_eq_true, Bool.not_eq_true', Bool.not_eq_false] at hlive
    obtain ⟨b, hfind, rfl⟩ := Option.map_eq_some_iff.mp h
    have hany : b.apps.any (p.isInstance lookup) = true :=
      List.find?_some (p := fun b : AppBucket => b.apps.any (p.isInstance lookup)) hfind
    obtain ⟨app, happ, hinstance⟩ := List.any_eq_true.mp hany
    exact ⟨hlive.1, hlive.2, b, List.mem_of_find?_eq_some hfind, rfl, app, happ, hinstance⟩

/-- No bucket is charged for a process that is in none. -/
theorem bucketIdForWith_isSome (hpaused : body.isPaused = false) (hvalid : body.isValid = true)
    {b : AppBucket} (hb : b ∈ body.buckets) {app : String} (happ : app ∈ b.apps)
    (hinstance : p.isInstance lookup app = true) :
    (bucketIdForWith p body lookup).isSome = true := by
  unfold bucketIdForWith
  rw [hpaused, hvalid]
  show ((body.buckets.find? fun b => b.apps.any (p.isInstance lookup)).map AppBucket.id).isSome = true
  rw [Option.isSome_map, List.find?_isSome]
  exact ⟨b, hb, List.any_eq_true.mpr ⟨app, happ, hinstance⟩⟩

theorem findBlockedHit_isSome {pkgs : List String} (hpkg : pkg ∈ pkgs)
    (hinstance : p.isInstance lookup pkg = true) :
    (findBlockedHit pkgs p lookup).isSome = true := by
  unfold findBlockedHit
  rw [List.find?_isSome]
  exact ⟨pkg, hpkg, hinstance⟩

/-- What is charged to a bucket is hit once the bucket is spent. -/
theorem hit_of_charged {id : String} {pkgs : List String}
    (h : bucketIdForWith p body lookup = some id)
    (hgone : ∀ b ∈ body.buckets, b.id = id → b.gone (spent b.id) = true)
    (hpkgs : spentBucketApps body spent ⊆ pkgs) : (findBlockedHit pkgs p lookup).isSome = true := by
  obtain ⟨hpaused, hvalid, b, hb, hid, app, happ, hinstance⟩ := bucketIdForWith_eq_some h
  have hspent : app ∈ spentBucketApps body spent :=
    mem_spentBucketApps.mpr ⟨hvalid, hpaused, b, hb, happ, hgone b hb hid⟩
  exact findBlockedHit_isSome (hpkgs hspent) hinstance

/-- And what a spent bucket hits is charged to a bucket. -/
theorem charged_of_hit (h : findBlockedHit (spentBucketApps body spent) p lookup = some pkg) :
    (bucketIdForWith p body lookup).isSome = true := by
  unfold findBlockedHit at h
  obtain ⟨hvalid, hpaused, b, hb, happ, -⟩ :=
    mem_spentBucketApps.mp (List.mem_of_find?_eq_some h)
  exact bucketIdForWith_isSome hpaused hvalid hb happ (List.find?_some h)

/-- A process that is hit is ended, unless it is sanctioned. -/
theorem terminated_isSome {pkgs : List String} {sites : Option (List LearningApp)}
    (h : (findBlockedHit pkgs p lookup).isSome = true) :
    (terminated (some pkgs) sites p lookup).isSome = true ↔
      isSanctionedWith sites p lookup = false := by
  unfold terminated sweepDecision
  cases hsanctioned : isSanctionedWith sites p lookup with
  | true => simp
  | false =>
    cases sites.isSome && isRuntimeProcess p.cmdline p.exe <;> simp [h]

/-! ## The sweep, given its ancestors -/

/-- What the sweep reads of an ancestor; its own number plays no part. -/
def ProcId.asProcess (id : ProcId) : FocusedProcess :=
  ⟨id.cmdline, id.exe, id.exeUid, id.cgroup, 0⟩

def ancestors (lookup : UInt32 → Option ProcId) (pid : UInt32) : List FocusedProcess :=
  (List.range maxDepth).filterMap fun n => (ancestor lookup n pid).map ProcId.asProcess

theorem hasAncestorMatching_eq_any {pid : UInt32} (pred : List String → Option UInt32 → Bool) :
    hasAncestorMatching pid lookup (fun id => pred id.cmdline id.exeUid) =
      (ancestors lookup pid).any fun a => pred a.cmdline a.exeUid := by
  rw [Bool.eq_iff_iff, hasAncestorMatching_iff, List.any_eq_true]
  unfold ancestors
  constructor
  · rintro ⟨n, hn, id, hid, hpred⟩
    refine ⟨id.asProcess, List.mem_filterMap.mpr ⟨n, List.mem_range.mpr hn, ?_⟩, hpred⟩
    rw [hid, Option.map_some]
  · rintro ⟨a, ha, hpred⟩
    obtain ⟨n, hn, hmap⟩ := List.mem_filterMap.mp ha
    obtain ⟨id, hid, rfl⟩ := Option.map_eq_some_iff.mp hmap
    exact ⟨n, List.mem_range.mp hn, id, hid, hpred⟩

/-- The sweep of a process is that of the process and its ancestors. -/
theorem terminated_eq_sweepOf (blocked : Option (List String)) (sites : Option (List LearningApp)) :
    terminated blocked sites p lookup = sweepOf sites (ancestors lookup p.pid)
      (blocked.bind fun pkgs => findBlockedHit pkgs p lookup) p := by
  unfold terminated sweepOf isSanctionedWith
  have hsame : ∀ apps : List LearningApp,
      hasAncestorMatching p.pid lookup (fun id => isSanctioned id.cmdline id.exeUid apps) =
        (ancestors lookup p.pid).any fun a => isSanctioned a.cmdline a.exeUid apps :=
    fun apps => hasAncestorMatching_eq_any fun cmdline exeUid => isSanctioned cmdline exeUid apps
  simp only [hsame]

/-! ## One rule for both -/

/-- **Metered and stopped.**  An ancestor is found within twelve generations, in a tree with loops too.
What spares a process also restricts it.  A process that is charged to a bucket is ended once the
bucket is spent, exactly when it is not a sanctioned window; what a spent bucket hits is charged; and a
process whose time is unrecognised is neither, belongs to the child, and is run from no governed
path. -/
theorem metered_and_stopped (lookup : UInt32 → Option ProcId) (p : FocusedProcess)
    (body : GrantBuckets) (apps : List LearningApp) (userInstalled : Option (Finset String))
    (governed : List String) :
    (∀ pid pred, hasAncestorMatching pid lookup pred = true ↔
      ∃ n < maxDepth, ∃ id, ancestor lookup n pid = some id ∧ pred id = true) ∧
    (∀ pkg, pkgNamesProcessExactly pkg p.exe = true ∨
        namesWithAncestorsExactly p.pid pkg lookup = true → p.isInstance lookup pkg = true) ∧
    (∀ id spent pkgs sites, bucketIdForWith p body lookup = some id →
      (∀ b ∈ body.buckets, b.id = id → b.gone (spent b.id) = true) →
      spentBucketApps body spent ⊆ pkgs →
      ((terminated (some pkgs) sites p lookup).isSome = true ↔
        isSanctionedWith sites p lookup = false)) ∧
    (∀ spent pkg, findBlockedHit (spentBucketApps body spent) p lookup = some pkg →
      (bucketIdForWith p body lookup).isSome = true) ∧
    ((attributeProcess p apps body userInstalled governed lookup).2.2 = true →
      classify p apps userInstalled ≠ .learning ∧
      (∀ spent, findBlockedHit (spentBucketApps body spent) p lookup = none) ∧
      (∃ uid, p.exeUid = some uid ∧ uid ≠ 0) ∧
      ∀ pkg ∈ governed, pkgNamesProcessExactly pkg p.exe = false ∧
        namesWithAncestorsExactly p.pid pkg lookup = false) := by
  refine ⟨fun pid pred => hasAncestorMatching_iff, ?_, ?_, fun spent pkg => charged_of_hit, ?_⟩
  · rintro pkg (hexact | hexact)
    · exact Bool.or_eq_true_iff.mpr (.inl (pkgMatches_of_exactly hexact))
    · exact Bool.or_eq_true_iff.mpr (.inr (matchesWithAncestors_of_exactly hexact))
  · intro id spent pkgs sites hcharged hgone hpkgs
    exact terminated_isSome (hit_of_charged hcharged hgone hpkgs)
  · intro h
    unfold attributeProcess at h
    rw [Bool.and_eq_true, Bool.and_eq_true, decide_eq_true_eq, Option.isNone_iff_eq_none] at h
    obtain ⟨⟨hbucket, hnone⟩, hunrecognised⟩ := h
    refine ⟨hbucket, ?_, ?_⟩
    · intro spent
      by_contra hhit
      obtain ⟨pkg, hpkg⟩ := Option.ne_none_iff_exists'.mp hhit
      have hcharged := charged_of_hit hpkg
      rw [hnone] at hcharged
      cases hcharged
    · unfold isUnrecognisedWith at hunrecognised
      split at hunrecognised
      · cases hunrecognised
      · rename_i uid huid
        split at hunrecognised
        · cases hunrecognised
        · rename_i hroot
          refine ⟨⟨uid, huid, hroot⟩, ?_⟩
          intro pkg hpkg
          rw [Bool.not_eq_true', List.any_eq_false] at hunrecognised
          have hneither := hunrecognised pkg hpkg
          rw [Bool.or_eq_true, not_or, Bool.not_eq_true, Bool.not_eq_true] at hneither
          exact hneither

end

/-! ### A game that its launcher has started -/

def launcherExe : String := "/usr/bin/minecraft-launcher"

def gameTree (pid : UInt32) : Option ProcId :=
  if pid = 30 then some ⟨20, some "/usr/lib/jvm/bin/java", some 0, ["java", "-jar", "game.jar"], none⟩
  else if pid = 20 then some ⟨1, some launcherExe, some 0, [launcherExe], none⟩
  else none

def gameProcess : FocusedProcess :=
  ⟨["java", "-jar", "game.jar"], some "/usr/lib/jvm/bin/java", some 0, none, 30⟩

def gameBuckets : GrantBuckets := ⟨1, [⟨"play", "Play", [launcherExe], some 60, none⟩], none⟩

def anHour (_ : String) : BucketSpent := ⟨3600, 0⟩

theorem charged_game : bucketIdForWith gameProcess gameBuckets gameTree = some "play" := by
  decide +kernel

theorem metered_and_stopped_game :
    (terminated (some (spentBucketApps gameBuckets anHour)) none gameProcess gameTree).isSome = true :=
  ((metered_and_stopped gameTree gameProcess gameBuckets [] none []).2.2.1 "play" anHour _ none
    charged_game (by decide) (List.Subset.refl _)).mpr rfl

end Kintrinsic
