import Kintrinsic.MachineWord
import Kintrinsic.Records

/-! # App holds

The standing lists of the `apps` clause and the holds that depart from them for a while.  A hold ends
at an absolute instant, so what a device enforces at an instant is a matter of the clause and the
instant alone. -/
namespace Kintrinsic

open MachineWord

/-! ## The clause -/

def appsVersion : Nat := 1

/-- The longest a hold may run, from the issue of its clause. -/
def maxAppHoldSecs : Nat := 24 * 60 * 60

/-- The most holds of a clause that are honoured. -/
def maxAppHolds : Nat := 64

inductive HoldState
  | allowed
  | blocked
deriving DecidableEq

/-- A departure from the lists for one app, up to an instant. -/
structure AppHold where
  pkg : String
  state : HoldState
  untilUnix : UInt64
deriving DecidableEq

/-- Everything runs but `blocked`, or `allowed` alone. -/
inductive AppPosture
  | blocklist
  | allowlist
deriving DecidableEq

structure GrantApps where
  v : Nat
  posture : AppPosture
  blocked : List String
  allowed : List String
  paused : Option Bool
  holds : List AppHold
  askFirst : List String
  hidden : List String
  issuedAt : UInt64
deriving DecidableEq

/-- `push_unique`. -/
def pushUnique (list : List String) (pkg : String) : List String :=
  if pkg ∈ list then list else list ++ [pkg]

theorem mem_pushUnique {list : List String} {pkg p : String} :
    p ∈ pushUnique list pkg ↔ p = pkg ∨ p ∈ list := by
  unfold pushUnique
  by_cases h : pkg ∈ list
  · rw [if_pos h]
    constructor
    · exact .inr
    · rintro (rfl | hp)
      · exact h
      · exact hp
  · rw [if_neg h, List.mem_append, List.mem_singleton, or_comm]

namespace GrantApps
variable (g : GrantApps)

def isPaused : Bool := g.paused.getD false

/-- `live_holds`: not over, within a day of the clause, and no more of them than are honoured. -/
def liveHolds (now : UInt64) : List AppHold :=
  if g.isPaused then []
  else
    ((g.holds.filter fun h => decide (now < h.untilUnix)).filter fun h =>
      decide (h.untilUnix.toNat ≤ addU64 g.issuedAt.toNat maxAppHoldSecs)).take maxAppHolds

/-- One hold folded into the list that the posture reads. -/
def foldHold (posture : AppPosture) (out : GrantApps) (hold : AppHold) : GrantApps :=
  match posture, hold.state with
  | .blocklist, .allowed => { out with blocked := out.blocked.filter (· ≠ hold.pkg) }
  | .blocklist, .blocked => { out with blocked := pushUnique out.blocked hold.pkg }
  | .allowlist, .allowed => { out with allowed := pushUnique out.allowed hold.pkg }
  | .allowlist, .blocked => { out with allowed := out.allowed.filter (· ≠ hold.pkg) }

/-- `effective_at`: the holds folded into the lists, in the order of the clause. -/
def effectiveAt (now : UInt64) : GrantApps :=
  (g.liveHolds now).foldl (foldHold g.posture) { g with holds := [] }

/-- The list that the posture reads. -/
def list : List String :=
  match g.posture with
  | .blocklist => g.blocked
  | .allowlist => g.allowed

/-- The holds that are not over and end within a day of the clause. -/
def outstanding (now : UInt64) : List AppHold :=
  g.holds.filter fun h =>
    decide (now < h.untilUnix ∧ h.untilUnix.toNat ≤ g.issuedAt.toNat + maxAppHoldSecs)

/-- The holds in force: the first of those outstanding. -/
def inForce (now : UInt64) : List AppHold := (g.outstanding now).take maxAppHolds

end GrantApps

/-- Whether a hold puts its app on the list that the posture reads. -/
def AppHold.lists (posture : AppPosture) (h : AppHold) : Bool :=
  match posture, h.state with
  | .blocklist, .blocked | .allowlist, .allowed => true
  | .blocklist, .allowed | .allowlist, .blocked => false

/-! ## What is folded -/

namespace GrantApps
variable {g : GrantApps} {now later : UInt64}

/-- What a fold of holds leaves: all but the list that it edits. -/
structure Edits (g out : GrantApps) : Prop where
  v : out.v = g.v
  posture : out.posture = g.posture
  paused : out.paused = g.paused
  askFirst : out.askFirst = g.askFirst
  hidden : out.hidden = g.hidden
  issuedAt : out.issuedAt = g.issuedAt
  holds : out.holds = []
  other : match g.posture with
    | .blocklist => out.allowed = g.allowed
    | .allowlist => out.blocked = g.blocked

theorem Edits.foldHold {out : GrantApps} (h : Edits g out) (hold : AppHold) :
    Edits g (foldHold g.posture out hold) := by
  obtain ⟨hv, hposture, hpaused, hask, hhidden, hissued, hholds, hother⟩ := h
  unfold GrantApps.foldHold
  cases hg : g.posture with
  | blocklist =>
    rw [hg] at hother
    cases hold.state <;>
      exact ⟨hv, hposture, hpaused, hask, hhidden, hissued, hholds, by rw [hg]; exact hother⟩
  | allowlist =>
    rw [hg] at hother
    cases hold.state <;>
      exact ⟨hv, hposture, hpaused, hask, hhidden, hissued, hholds, by rw [hg]; exact hother⟩

theorem effectiveAt_edits (g : GrantApps) (now : UInt64) : Edits g (g.effectiveAt now) := by
  have hfold : ∀ (holds : List AppHold) (out : GrantApps), Edits g out →
      Edits g (holds.foldl (GrantApps.foldHold g.posture) out) := by
    intro holds
    induction holds with
    | nil => exact fun out h => h
    | cons hold holds ih => exact fun out h => ih _ (h.foldHold hold)
  refine hfold _ _ ⟨rfl, rfl, rfl, rfl, rfl, rfl, rfl, ?_⟩
  cases g.posture <;> rfl

@[simp] theorem effectiveAt_posture : (g.effectiveAt now).posture = g.posture :=
  (effectiveAt_edits g now).posture

@[simp] theorem effectiveAt_isPaused : (g.effectiveAt now).isPaused = g.isPaused := by
  rw [isPaused, (effectiveAt_edits g now).paused]
  rfl

/-- Each hold decides whether its own app is on the list, and no other. -/
theorem foldHold_list (posture : AppPosture) (out : GrantApps) (hold : AppHold) (pkg : String)
    (h : out.posture = posture) : decide (pkg ∈ (foldHold posture out hold).list) =
      if hold.pkg = pkg then hold.lists posture else decide (pkg ∈ out.list) := by
  unfold foldHold AppHold.lists list
  subst h
  by_cases hpkg : hold.pkg = pkg
  · subst hpkg
    cases hposture : out.posture <;> cases hold.state <;>
      simp [hposture, mem_pushUnique]
  · have hne : pkg ≠ hold.pkg := fun heq => hpkg heq.symm
    cases hposture : out.posture <;> cases hold.state <;>
      simp [hposture, mem_pushUnique, hpkg, hne]

theorem effectiveAt_list (g : GrantApps) (now : UInt64) (pkg : String) :
    decide (pkg ∈ (g.effectiveAt now).list) =
      LastWrite.read AppHold.pkg (AppHold.lists g.posture) (g.liveHolds now) pkg
        (decide (pkg ∈ g.list)) := by
  have hfold : ∀ (holds : List AppHold) (out : GrantApps), out.posture = g.posture →
      decide (pkg ∈ (holds.foldl (foldHold g.posture) out).list) =
        LastWrite.read AppHold.pkg (AppHold.lists g.posture) holds pkg
          (decide (pkg ∈ out.list)) := by
    intro holds
    induction holds with
    | nil => exact fun out h => rfl
    | cons hold holds ih =>
      intro out h
      have hnext : (foldHold g.posture out hold).posture = g.posture := by
        rw [← h]
        unfold foldHold
        cases out.posture <;> cases hold.state <;> rfl
      rw [List.foldl_cons, ih _ hnext, foldHold_list _ _ _ _ h, LastWrite.read_cons]
  exact hfold _ _ rfl

theorem liveHolds_eq (h : g.isPaused = false) (now : UInt64) : g.liveHolds now = g.inForce now := by
  unfold liveHolds inForce outstanding
  rw [h, if_neg Bool.false_ne_true, List.filter_filter]
  congr 1
  refine List.filter_congr fun hold _ => ?_
  have hword : hold.untilUnix.toNat ≤ u64Max := Nat.le_of_lt_succ hold.untilUnix.toNat_lt
  have hcap : hold.untilUnix.toNat ≤ addU64 g.issuedAt.toNat maxAppHoldSecs ↔
      hold.untilUnix.toNat ≤ g.issuedAt.toNat + maxAppHoldSecs := by
    unfold addU64
    omega
  rw [← Bool.decide_and]
  exact decide_eq_decide.mpr (by rw [hcap, and_comm])

/-- What is outstanding later was so before. -/
theorem outstanding_later (g : GrantApps) (h : now ≤ later) :
    (g.outstanding later).Sublist (g.outstanding now) := by
  refine List.monotone_filter_right _ fun hold hlater => ?_
  rw [decide_eq_true_eq] at hlater ⊢
  exact ⟨UInt64.lt_of_le_of_lt h hlater.1, hlater.2⟩

end GrantApps

/-! ## The law of the holds -/

/-- **What the holds of a clause come to.**  At every instant an app is on the posture's list as its
last hold in force says, or the standing list; once all have ended the clause is the standing one.
Time ends holds; it brings one into force only for another that ends, where more are outstanding than
are honoured.  And what is in effect has no holds left. -/
structure GrantApps.HoldsLaw (g : GrantApps) : Prop where
  lists : ∀ now pkg, decide (pkg ∈ (g.effectiveAt now).list) =
    LastWrite.read AppHold.pkg (AppHold.lists g.posture) (g.inForce now) pkg
      (decide (pkg ∈ g.list))
  standing : ∀ now, (∀ hold ∈ g.holds, hold.untilUnix ≤ now) →
    g.effectiveAt now = { g with holds := [] }
  ends : ∀ now later, now ≤ later → (g.inForce later).Sublist (g.outstanding now)
  passes : ∀ now later, now ≤ later → (g.outstanding now).length ≤ maxAppHolds →
    (g.inForce later).Sublist (g.inForce now)
  again : ∀ now later, (g.effectiveAt now).effectiveAt later = g.effectiveAt now

open GrantApps in
theorem holds_law (g : GrantApps) (h : g.isPaused = false) : g.HoldsLaw where
  lists now pkg := by
    rw [effectiveAt_list, liveHolds_eq h]
  standing now hended := by
    have hnone : g.holds.filter (fun hold => decide (now < hold.untilUnix)) = [] := by
      refine List.filter_eq_nil_iff.mpr fun hold hhold => ?_
      rw [decide_eq_true_eq, UInt64.not_lt]
      exact hended hold hhold
    rw [effectiveAt, liveHolds, hnone]
    split <;> rfl
  ends now later hle := (List.take_sublist _ _).trans (outstanding_later g hle)
  passes now later hle hfew := by
    have hall : g.inForce now = g.outstanding now := List.take_of_length_le hfew
    rw [hall]
    exact (List.take_sublist _ _).trans (outstanding_later g hle)
  again now later := by
    have hholds := (effectiveAt_edits g now).holds
    have hlive : (g.effectiveAt now).liveHolds later = [] := by
      rw [liveHolds, hholds]
      split <;> rfl
    rw [effectiveAt, hlive, List.foldl_nil, ← hholds]

/-! ## A browser for an hour -/

/-- A blocked browser, held open until an instant. -/
def browserUntil (untilUnix : UInt64) : GrantApps where
  v := appsVersion
  posture := .blocklist
  blocked := ["browser"]
  allowed := []
  paused := none
  holds := [⟨"browser", .allowed, untilUnix⟩]
  askFirst := []
  hidden := []
  issuedAt := 1782734400

/-- The browser opens for the hour, and is closed after it. -/
theorem holds_law_browser :
    "browser" ∉ ((browserUntil 1782738000).effectiveAt 1782734460).list ∧
      (browserUntil 1782738000).effectiveAt 1782738000 =
        { browserUntil 1782738000 with holds := [] } := by
  have hlaw := holds_law (browserUntil 1782738000) rfl
  refine ⟨?_, hlaw.standing _ (by decide)⟩
  rw [← decide_eq_false_iff_not, hlaw.lists]
  decide

/-- More holds than are honoured; the last one is the browser's. -/
def crowded : GrantApps :=
  { browserUntil 0 with
    holds := List.replicate 64 ⟨"game", .blocked, 1782734500⟩ ++
      [⟨"browser", .allowed, 1782738000⟩] }

/-- The holds that are not over, nor a day past the clause: a longer one until that day is over. -/
def GrantApps.cutShort (g : GrantApps) (now : UInt64) : List AppHold :=
  g.holds.filter fun h =>
    decide (now.toNat < min h.untilUnix.toNat (g.issuedAt.toNat + maxAppHoldSecs))

/-- **Where holds are longer, or more, than are honoured.**  A hold that ends more than a day past its
clause is not cut short: it opens nothing.  And a hold past the sixty-fourth comes into force when
others end. -/
theorem not_holds_cut_short :
    (¬∀ g : GrantApps, g.isPaused = false → ∀ now pkg, decide (pkg ∈ (g.effectiveAt now).list) =
      LastWrite.read AppHold.pkg (AppHold.lists g.posture) (g.cutShort now) pkg
        (decide (pkg ∈ g.list))) ∧
    ¬∀ g : GrantApps, g.isPaused = false → ∀ now later, now ≤ later →
      ∀ hold ∈ g.liveHolds later, hold ∈ g.liveHolds now := by
  constructor
  · intro hall
    have hlong := hall (browserUntil 1782824400) rfl 1782734400 "browser"
    exact absurd hlong (by decide)
  · intro hall
    have hlast := hall crowded rfl 1782734400 1782734500 (by decide)
      ⟨"browser", .allowed, 1782738000⟩ (by decide +kernel)
    exact absurd hlast (by decide +kernel)

end Kintrinsic
