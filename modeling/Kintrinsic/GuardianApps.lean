import Kintrinsic.AppHolds
import Kintrinsic.GuardianTimes
import Kintrinsic.TimeApps

/-! # The guardian's app policy and its holds

What the guardian's app keeps of a child's apps, what it shows of one at an instant, and what it puts
on the wire.  Both sides drop what is over, what runs too long and what is too much: the guardian by
the instant it looks, the device by the instant its clause was issued. -/
namespace Kintrinsic

/-! ## Domain -/

/-- `AppHold`, as the guardian keeps it. -/
structure HoldSel where
  pkg : String
  state : HoldState
  untilUnix : Int
deriving DecidableEq

structure AppsPolicy where
  enabled : Bool
  posture : AppPosture
  blocked : List String
  allowed : List String
  holds : Option (List HoldSel)
  askFirst : Option (List String)
  hidden : Option (List String)
deriving DecidableEq

/-- `pruneHolds`: not blank, not over, within a day of now, and no more than are honoured. -/
def pruneHolds (holds : Option (List HoldSel)) (now : Int) : List HoldSel :=
  ((((holds.getD []).filter fun h => jsTrim h.pkg ≠ "").filter fun h =>
    decide (now < h.untilUnix)).filter fun h =>
      decide (h.untilUnix ≤ now + maxAppHoldSecs)).take maxAppHolds

namespace AppsPolicy
variable (apps : AppsPolicy) (pkg : String) (now : Int)

/-- `holdFor`: the last live hold on one app. -/
def holdFor : Option HoldSel := ((pruneHolds apps.holds now).filter (·.pkg = pkg)).getLast?

/-- `putHold`: no instant lifts the hold. -/
def putHold (state : HoldState) (untilUnix : Option Int) : AppsPolicy :=
  let rest := (pruneHolds apps.holds now).filter (·.pkg ≠ pkg)
  { apps with
    holds := some (match untilUnix with
      | none => rest
      | some u => rest ++ [⟨pkg, state, u⟩]) }

/-- `standingState`. -/
def standingState : HoldState :=
  match apps.posture with
  | .allowlist => if pkg ∈ apps.allowed then .allowed else .blocked
  | .blocklist => if pkg ∈ apps.blocked then .blocked else .allowed

/-- `effectiveState`. -/
def effectiveState : HoldState :=
  ((apps.holdFor pkg now).map HoldSel.state).getD (apps.standingState pkg)

end AppsPolicy

/-! ## The wire form -/

/-- Trimmed, without the empty ones. -/
def trimTexts (list : List String) : List String := (list.map jsTrim).filter (· ≠ "")

def HoldSel.toGrant (h : HoldSel) : AppHold := ⟨h.pkg, h.state, UInt64.ofNat h.untilUnix.toNat⟩

/-- `appsToGrant`, as the device reads it back: a list that is left off is read as empty. -/
def appsToGrant (apps : AppsPolicy) (issuedAt : Int) : GrantApps :=
  let hidden := cleanTexts (apps.hidden.getD [])
  if !apps.enabled then
    { v := appsVersion, posture := apps.posture, blocked := [], allowed := [], paused := some true
      holds := [], askFirst := [], hidden, issuedAt := UInt64.ofNat issuedAt.toNat }
  else
    let askFirst := trimTexts (apps.askFirst.getD [])
    let wireAllowed := (trimTexts apps.allowed).filter (· ∉ askFirst)
    let wireBlocked := trimTexts apps.blocked
    { v := appsVersion
      posture := apps.posture
      blocked := if apps.posture = .allowlist then [] else wireBlocked
      allowed := if apps.posture = .allowlist then wireAllowed else []
      paused := none
      holds := (pruneHolds apps.holds issuedAt).map HoldSel.toGrant
      askFirst := if apps.posture = .allowlist then askFirst.filter (· ∉ wireAllowed)
        else askFirst.filter (· ∈ wireBlocked)
      hidden
      issuedAt := UInt64.ofNat issuedAt.toNat }

/-! ## What a device applies -/

/-- What an app is under a clause whose holds are folded in. -/
def GrantApps.stateOf (g : GrantApps) (pkg : String) : HoldState :=
  if g.isPaused then .allowed
  else
    match g.posture with
    | .blocklist => if pkg ∈ g.blocked then .blocked else .allowed
    | .allowlist => if pkg ∈ g.allowed then .allowed else .blocked

/-- An installed app is swept exactly where it is blocked. -/
theorem stateOf_eq_blocked (g : GrantApps) {inventory : List String} {pkg : String}
    (h : pkg ∈ inventory) :
    g.stateOf pkg = .blocked ↔ pkg ∈ blockedPkgsFromEffective g inventory := by
  unfold GrantApps.stateOf blockedPkgsFromEffective
  by_cases hp : g.isPaused = true
  · rw [if_pos hp, if_pos hp]
    simp
  · rw [if_neg hp, if_neg hp]
    cases g.posture <;> simp [h]

/-- What being on the list of a posture makes of an app. -/
def HoldState.ofListed (posture : AppPosture) (listed : Bool) : HoldState :=
  match posture, listed with
  | .blocklist, true | .allowlist, false => .blocked
  | .blocklist, false | .allowlist, true => .allowed

theorem ofListed_lists (posture : AppPosture) (h : AppHold) :
    .ofListed posture (h.lists posture) = h.state := by
  unfold HoldState.ofListed AppHold.lists
  cases posture <;> cases h.state <;> rfl

theorem stateOf_eq_ofListed {g : GrantApps} (h : g.isPaused = false) (pkg : String) :
    g.stateOf pkg = .ofListed g.posture (decide (pkg ∈ g.list)) := by
  unfold GrantApps.stateOf GrantApps.list HoldState.ofListed
  rw [h, if_neg Bool.false_ne_true]
  cases g.posture
  · by_cases hmem : pkg ∈ g.blocked <;> simp [hmem]
  · by_cases hmem : pkg ∈ g.allowed <;> simp [hmem]

/-- **An app is what its last hold in force says**, or what the lists make of it. -/
theorem stateOf_effectiveAt {g : GrantApps} (h : g.isPaused = false) (now : UInt64) (pkg : String) :
    (g.effectiveAt now).stateOf pkg =
      LastWrite.read AppHold.pkg AppHold.state (g.inForce now) pkg (g.stateOf pkg) := by
  have hp : (g.effectiveAt now).isPaused = false := by rw [GrantApps.effectiveAt_isPaused, h]
  rw [stateOf_eq_ofListed hp, stateOf_eq_ofListed h, GrantApps.effectiveAt_posture,
    GrantApps.effectiveAt_list, GrantApps.liveHolds_eq h]
  unfold LastWrite.read
  cases ((g.inForce now).filter (·.pkg = pkg)).getLast? with
  | none => rfl
  | some hold => exact ofListed_lists g.posture hold

/-! ## What is honoured -/

/-- The holds that are not blank and not over. -/
def unexpired (holds : Option (List HoldSel)) (now : Int) : List HoldSel :=
  (holds.getD []).filter fun h => decide (jsTrim h.pkg ≠ "" ∧ now < h.untilUnix)

/-- The holds that are not over end within a day, and are no more than a clause may carry. -/
structure Honoured (holds : Option (List HoldSel)) (now : Int) : Prop where
  within : ∀ h ∈ unexpired holds now, h.untilUnix ≤ now + maxAppHoldSecs
  few : (unexpired holds now).length ≤ maxAppHolds

variable {holds : Option (List HoldSel)} {now later : Int}

/-- What is kept of the holds: of those not over, the first that run no more than a day. -/
theorem pruneHolds_eq (holds : Option (List HoldSel)) (now : Int) : pruneHolds holds now =
    ((unexpired holds now).filter fun h =>
      decide (h.untilUnix ≤ now + maxAppHoldSecs)).take maxAppHolds := by
  unfold pruneHolds unexpired
  rw [List.filter_filter (p := fun h : HoldSel => decide (now < h.untilUnix))]
  congr 2
  refine List.filter_congr fun h _ => ?_
  rw [Bool.decide_and, Bool.and_comm]

/-- What is not over later was not over before. -/
theorem unexpired_later (h : now ≤ later) : unexpired holds later =
    (unexpired holds now).filter fun hold => decide (later < hold.untilUnix) := by
  unfold unexpired
  rw [List.filter_filter]
  refine List.filter_congr fun hold _ => ?_
  rw [← Bool.decide_and]
  refine decide_eq_decide.mpr ⟨fun hboth => ⟨hboth.2, hboth.1, by omega⟩, fun hboth => ?_⟩
  exact ⟨hboth.2.1, hboth.1⟩

/-- **Holds that are honoured are kept**, from then on. -/
theorem Honoured.pruneHolds_later (h : Honoured holds now) (hle : now ≤ later) :
    pruneHolds holds later = unexpired holds later := by
  rw [pruneHolds_eq]
  have hsub : (unexpired holds later).Sublist (unexpired holds now) := by
    rw [unexpired_later hle]
    exact List.filter_sublist
  have hall : ((unexpired holds later).filter fun hold =>
      decide (hold.untilUnix ≤ later + maxAppHoldSecs)) = unexpired holds later := by
    refine List.filter_eq_self.mpr fun hold hmem => ?_
    have hwithin := h.within hold (hsub.subset hmem)
    exact decide_eq_true (by omega)
  rw [hall]
  exact List.take_of_length_le (hsub.length_le.trans h.few)

end Kintrinsic
