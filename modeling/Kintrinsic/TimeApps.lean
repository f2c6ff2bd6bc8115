import Kintrinsic.AppHolds
import Kintrinsic.NamedTimes

/-! # The apps of a named time

How a named time departs from Free time's `apps` clause, and which apps must not run in it on a
computer.  A clause that cannot be read blocks nothing in Free time, and a time's own departures are
composed with an empty blocklist then. -/
namespace Kintrinsic

/-! ## Composing -/

/-- `dedup`. -/
def dedup (items : List String) : List String := dedupByKey id items

/-- `compose_apps`: Free time's clause, its holds folded in, as a time modifies it. -/
def composeApps (free : GrantApps) (t : NamedTime) : GrantApps :=
  match t.posture with
  | .everythingExcept =>
    if free.isPaused && !t.blockApps.isEmpty then
      { free with
        paused := none
        posture := .blocklist
        blocked := dedup t.blockApps
        allowed := []
        askFirst := [] }
    else
      let blocked := dedup ((free.blocked ++ t.blockApps).filter fun p => p ∉ t.unblockApps)
      { free with
        blocked
        allowed := if free.posture = .allowlist then
          dedup ((free.allowed.filter fun p => p ∉ t.blockApps) ++ t.unblockApps) else free.allowed
        askFirst := free.askFirst.filter (· ∈ blocked) }
  | .onlyThese =>
    { free with
      posture := .allowlist
      allowed := dedup t.apps
      holds := []
      paused := none
      blocked := []
      askFirst := [] }

/-! ## Sweeping -/

/-- `blocked_pkgs_from_effective`: of an allowlist the apps of the inventory that are not on it. -/
def blockedPkgsFromEffective (effective : GrantApps) (inventoryPkgs : List String) : List String :=
  if effective.isPaused then []
  else
    match effective.posture with
    | .blocklist => effective.blocked
    | .allowlist => inventoryPkgs.filter fun p => p ∉ effective.allowed

/-- An instant as the clause counts them. -/
def clauseInstant (nowUnix : Int) : UInt64 := UInt64.ofNat (max nowUnix 0).toNat

/-- The clause of a child without one. -/
def emptyBlocklist : GrantApps := ⟨appsVersion, .blocklist, [], [], none, [], [], [], 0⟩

section
variable (parse : String → Option GrantApps)

/-- The stored clause, where it can be read and is of this version. -/
def storedApps (appsJson : Option String) : Option GrantApps :=
  (appsJson.bind parse).filter fun g => g.v = appsVersion

/-- `free_apps_resolved`. -/
def freeAppsResolved (appsJson : Option String) (nowUnix : Int) : GrantApps :=
  match storedApps parse appsJson with
  | some g => g.effectiveAt (clauseInstant nowUnix)
  | none => emptyBlocklist

/-- `blocked_pkgs_from_apps`. -/
def blockedPkgsFromApps (appsJson : Option String) (inventoryPkgs : List String) (nowUnix : Int) :
    List String :=
  match appsJson.bind parse with
  | none => []
  | some g =>
    if g.v ≠ appsVersion ∨ g.isPaused then []
    else blockedPkgsFromEffective (g.effectiveAt (clauseInstant nowUnix)) inventoryPkgs

/-- `blocked_pkgs_for_time`. -/
def blockedPkgsForTime (appsJson : Option String) (t : NamedTime) (inventoryPkgs : List String)
    (nowUnix : Int) : List String :=
  blockedPkgsFromEffective (composeApps (freeAppsResolved parse appsJson nowUnix) t) inventoryPkgs

end

/-! ## What a time blocks -/

theorem mem_dedupByKey {key : String → String} (items : List String) :
    (∀ x ∈ dedupByKey key items, x ∈ items) ∧
      ∀ x ∈ items, ∃ y ∈ dedupByKey key items, key y = key x := by
  have hfold : ∀ (items : List String) (keys out : List String), keys = out.map key →
      let r := items.foldl (fun (r : List String × List String) s =>
        if key s ∈ r.1 then r else (key s :: r.1, s :: r.2)) (keys, out)
      (∀ x ∈ r.2, x ∈ items ∨ x ∈ out) ∧ ∀ x, x ∈ items ∨ x ∈ out → ∃ y ∈ r.2, key y = key x := by
    intro items
    induction items with
    | nil =>
      rintro keys out rfl
      refine ⟨fun x hx => .inr hx, ?_⟩
      rintro x (hx | hx)
      · exact absurd hx List.not_mem_nil
      · exact ⟨x, hx, rfl⟩
    | cons s items ih =>
      rintro keys out rfl
      rw [List.foldl_cons]
      dsimp only
      by_cases hold : key s ∈ out.map key
      · rw [if_pos hold]
        obtain ⟨hfrom, hto⟩ := ih _ out rfl
        refine ⟨fun x hx => (hfrom x hx).imp_left (List.mem_cons_of_mem s), ?_⟩
        rintro x (hx | hx)
        · rcases List.mem_cons.mp hx with rfl | hx
          · obtain ⟨y, hy, hkey⟩ := List.mem_map.mp hold
            obtain ⟨z, hz, hzkey⟩ := hto y (.inr hy)
            exact ⟨z, hz, hzkey.trans hkey⟩
          · exact hto x (.inl hx)
        · exact hto x (.inr hx)
      · rw [if_neg hold]
        obtain ⟨hfrom, hto⟩ := ih (key s :: out.map key) (s :: out) rfl
        refine ⟨fun x hx => ?_, ?_⟩
        · rcases hfrom x hx with hx | hx
          · exact .inl (List.mem_cons_of_mem s hx)
          · rcases List.mem_cons.mp hx with rfl | hx
            · exact .inl List.mem_cons_self
            · exact .inr hx
        · rintro x (hx | hx)
          · rcases List.mem_cons.mp hx with rfl | hx
            · exact hto x (.inr List.mem_cons_self)
            · exact hto x (.inl hx)
          · exact hto x (.inr (List.mem_cons_of_mem s hx))
  obtain ⟨hfrom, hto⟩ := hfold items [] [] rfl
  unfold dedupByKey
  simp only [List.mem_reverse]
  refine ⟨fun x hx => ?_, fun x hx => hto x (.inl hx)⟩
  exact (hfrom x hx).resolve_right List.not_mem_nil

@[simp] theorem mem_dedup {items : List String} {x : String} : x ∈ dedup items ↔ x ∈ items := by
  obtain ⟨hfrom, hto⟩ := @mem_dedupByKey id items
  constructor
  · exact hfrom x
  · intro hx
    obtain ⟨y, hy, rfl⟩ := hto x hx
    exact hy

variable {parse : String → Option GrantApps} {appsJson : Option String} {t : NamedTime}
  {inventoryPkgs : List String} {nowUnix : Int} {free : GrantApps}

/-- What an everything-except time blocks over a clause that is not paused. -/
theorem blocked_over_running (h : t.posture = .everythingExcept) (hrun : free.isPaused = false)
    (pkg : String) : pkg ∈ blockedPkgsFromEffective (composeApps free t) inventoryPkgs ↔
      match free.posture with
      | .blocklist => (pkg ∈ free.blocked ∨ pkg ∈ t.blockApps) ∧ pkg ∉ t.unblockApps
      | .allowlist => pkg ∈ inventoryPkgs ∧
          ¬((pkg ∈ free.allowed ∧ pkg ∉ t.blockApps) ∨ pkg ∈ t.unblockApps) := by
  have hpaused : free.paused.getD false = false := hrun
  unfold composeApps blockedPkgsFromEffective GrantApps.isPaused
  rw [h]
  dsimp only
  rw [hpaused, Bool.false_and, if_neg Bool.false_ne_true]
  dsimp only
  rw [hpaused, if_neg Bool.false_ne_true]
  cases hposture : free.posture with
  | blocklist => simp [or_and_right]
  | allowlist =>
    simp only [List.mem_filter, mem_dedup, List.mem_append, decide_not, Bool.not_eq_true',
      decide_eq_false_iff_not, reduceIte]

/-- What one blocks over a paused clause. -/
theorem blocked_over_paused (h : t.posture = .everythingExcept) (hpaused : free.isPaused = true)
    (pkg : String) : pkg ∈ blockedPkgsFromEffective (composeApps free t) inventoryPkgs ↔
      pkg ∈ t.blockApps := by
  unfold composeApps
  rw [h]
  dsimp only
  rw [hpaused, Bool.true_and]
  cases hblock : t.blockApps with
  | nil =>
    have hstill : free.paused.getD false = true := hpaused
    rw [List.isEmpty_nil, Bool.not_true, if_neg Bool.false_ne_true]
    unfold blockedPkgsFromEffective GrantApps.isPaused
    dsimp only
    rw [hstill, if_pos rfl]
  | cons b bs =>
    rw [List.isEmpty_cons, Bool.not_false, if_pos rfl]
    exact mem_dedup

/-- **The list of a named time bites.**  Over every clause that can be stored, whether it can be read
or not: what an everything-except time blocks, and not also unblocks, is blocked, where Free time is
an allowlist if the app is in the inventory; what it unblocks is not, unless Free time's list is
paused and the time blocks it too.  An only-these time blocks the inventory but for its own apps. -/
theorem time_apps_law (parse : String → Option GrantApps) (appsJson : Option String) (t : NamedTime)
    (inventoryPkgs : List String) (nowUnix : Int) :
    let free := freeAppsResolved parse appsJson nowUnix
    let blocked := blockedPkgsForTime parse appsJson t inventoryPkgs nowUnix
    (t.posture = .everythingExcept →
      (∀ pkg ∈ t.blockApps, pkg ∉ t.unblockApps →
        (pkg ∈ blocked ↔
          (free.isPaused = false → free.posture = .allowlist → pkg ∈ inventoryPkgs))) ∧
      ∀ pkg ∈ t.unblockApps, pkg ∈ blocked ↔ free.isPaused = true ∧ pkg ∈ t.blockApps) ∧
    (t.posture = .onlyThese → blocked = inventoryPkgs.filter fun pkg => pkg ∉ t.apps) := by
  intro free blocked
  refine ⟨fun hposture => ?_, fun hposture => ?_⟩
  · cases hpaused : free.isPaused with
    | true =>
      have hblocked : ∀ pkg, pkg ∈ blocked ↔ pkg ∈ t.blockApps :=
        blocked_over_paused hposture hpaused
      refine ⟨fun pkg hpkg _ => ?_, fun pkg _ => ?_⟩
      · exact iff_of_true ((hblocked pkg).mpr hpkg) fun hfalse => by cases hfalse
      · rw [hblocked]
        exact (and_iff_right rfl).symm
    | false =>
      have hblocked : ∀ pkg, pkg ∈ blocked ↔ _ := blocked_over_running hposture hpaused
      refine ⟨fun pkg hpkg hnot => ?_, fun pkg hpkg => ?_⟩
      · rw [hblocked]
        cases free.posture with
        | blocklist => simp [hpkg, hnot]
        | allowlist => simp [hpkg, hnot]
      · rw [hblocked]
        cases free.posture with
        | blocklist => simp [hpkg]
        | allowlist => simp [hpkg]
  · show blockedPkgsFromEffective (composeApps free t) inventoryPkgs = _
    unfold composeApps
    rw [hposture]
    unfold blockedPkgsFromEffective GrantApps.isPaused
    dsimp only [Option.getD_none]
    rw [if_neg Bool.false_ne_true]
    refine List.filter_congr fun pkg _ => ?_
    exact decide_eq_decide.mpr (not_congr mem_dedup)

/-! ## A ban that does not reach -/

/-- Homework without games, and with the dictionary. -/
def homework : NamedTime where
  id := "homework"
  label := "Homework"
  posture := .everythingExcept
  blockApps := ["game", "dictionary"]
  unblockApps := ["dictionary"]
  denySites := []
  undenySites := []
  apps := []
  sites := []
  countsAgainstBudget := none

/-- **Where the list of a time does not bite.**  Over an allowlist a ban on an app that the computer's
inventory does not name blocks nothing; and over a paused list an app that the time both blocks and
unblocks is blocked. -/
theorem not_time_apps_everywhere :
    (¬∀ (free : GrantApps) (inventoryPkgs : List String) (nowUnix : Int),
      ∀ pkg ∈ homework.blockApps, pkg ∉ homework.unblockApps →
        pkg ∈ blockedPkgsForTime (fun _ => some free) (some "") homework inventoryPkgs nowUnix) ∧
    ¬∀ (free : GrantApps) (inventoryPkgs : List String) (nowUnix : Int),
      ∀ pkg ∈ homework.unblockApps,
        pkg ∉ blockedPkgsForTime (fun _ => some free) (some "") homework inventoryPkgs nowUnix := by
  constructor
  · intro hall
    have hgame := hall { browserUntil 0 with posture := .allowlist } ["browser"] 1782734400 "game"
      (by decide) (by decide)
    exact absurd hgame (by decide)
  · intro hall
    have hdictionary := hall { browserUntil 0 with paused := some true } ["browser"] 1782734400
      "dictionary" (by decide)
    exact absurd hdictionary (by decide)

end Kintrinsic
